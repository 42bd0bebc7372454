import Groundwork.Graph.FileGraph

/-!
The positions that lie on a dependency cycle. A depth-first search numbers the positions in the order
in which it meets them and keeps those whose component is still open on a stack. The low number of an
open position is the smallest number of an open position that was seen from it or from what was entered
after it. A position that is left while its low number is its own closes its component, which is then
taken off the stack. Components of more than one position are the cycles.
-/

namespace Groundwork.Graph

inductive SearchFailure where
  | emptyStack
  | unnumbered
  | outOfSteps
  deriving DecidableEq, Repr

/-- Numbers and low numbers given so far, the latest first; open positions with the youngest first;
cycle members found; and the positions at work, each with the dependency to look at next. -/
structure Search where
  numbers : List (Nat × Nat) := []
  lows : List (Nat × Nat) := []
  stack : List Nat := []
  members : List Nat := []
  work : List (Nat × Nat) := []

namespace Search

def number? (s : Search) (i : Nat) : Option Nat := s.numbers.lookup i

def low? (s : Search) (i : Nat) : Option Nat := s.lows.lookup i

def enter (s : Search) (i : Nat) : Search :=
  { s with
    numbers := (i, s.numbers.length) :: s.numbers
    lows := (i, s.numbers.length) :: s.lows
    stack := i :: s.stack }

def setLow (s : Search) (i low : Nat) : Search := { s with lows := (i, low) :: s.lows }

def lower (s : Search) (i n : Nat) : Except SearchFailure Search :=
  match s.low? i with
  | some low => .ok (s.setLow i (min low n))
  | none => .error .unnumbered

/-- Looks at the dependencies of `i` from the place `next` on. The first one without a number is put to
work above `i`, which is taken up again after it; the result tells whether there is one. -/
def scan (i : Nat) : Nat → List Nat → Search → Except SearchFailure (Search × Bool)
  | _, [], s => .ok (s, false)
  | next, j :: rest, s =>
    match s.number? j with
    | none => .ok ({ s with work := (j, 0) :: (i, next + 1) :: s.work }, true)
    | some n => do
      let s ← if s.stack.contains j then s.lower i n else .ok s
      scan i (next + 1) rest s

def popThrough (i : Nat) : List Nat → Except SearchFailure (List Nat × List Nat)
  | [] => .error .emptyStack
  | top :: rest =>
    if top = i then .ok ([top], rest)
    else do
      let (popped, rest) ← popThrough i rest
      return (top :: popped, rest)

def withClosed (s : Search) (component rest : List Nat) : Search :=
  { s with
    stack := rest
    members := if 1 < component.length then component ++ s.members else s.members }

def close (s : Search) (i : Nat) : Except SearchFailure Search := do
  let (component, rest) ← popThrough i s.stack
  return s.withClosed component rest

/-- What was seen from a position counts as seen from the one that it was entered from. -/
def passDown (s : Search) (low : Nat) : Except SearchFailure Search :=
  match s.work with
  | [] => .ok s
  | (parent, _) :: _ => s.lower parent low

def leave (s : Search) (i : Nat) : Except SearchFailure Search :=
  match s.number? i, s.low? i with
  | some number, some low => do
    let s ← if low = number then s.close i else .ok s
    s.passDown low
  | _, _ => .error .unnumbered

def goOn (g : FileGraph) (i next : Nat) (s : Search) : Except SearchFailure Search := do
  let (s, found) ← scan i next ((g.dependenciesOf i).drop next) s
  if found then return s else s.leave i

def step (g : FileGraph) (s : Search) : Except SearchFailure Search :=
  match s.work with
  | [] => .ok s
  | (i, next) :: rest =>
    let s := { s with work := rest }
    goOn g i next (if next = 0 then s.enter i else s)

def exhaust (g : FileGraph) : Nat → Search → Except SearchFailure Search
  | 0, s => if s.work.isEmpty then .ok s else .error .outOfSteps
  | steps + 1, s => if s.work.isEmpty then .ok s else do exhaust g steps (← s.step g)

/-- Searches from a position, unless it has a number. No position is taken up more than once for
each of its being entered and for each that is entered from it. -/
def searchFrom (g : FileGraph) (s : Search) (root : Nat) : Except SearchFailure Search :=
  match s.number? root with
  | some _ => .ok s
  | none => exhaust g (2 * g.size) { s with work := [(root, 0)] }

def run (g : FileGraph) : Except SearchFailure Search :=
  (List.range g.size).foldlM (searchFrom g) {}

end Search

def FileGraph.cycleMembers (g : FileGraph) : List Nat :=
  match Search.run g with
  | .ok s => (List.range g.size).filter s.members.contains
  | .error _ => []

end Groundwork.Graph
