import Groundwork.Graph.Cycles
import Groundwork.Proofs.Graph.Edges

/-!
What holds of a depth-first search between two steps. The open positions fall into frames: each position
at work with those that were entered after it and left again without closing a component.
-/

namespace Groundwork.Graph.Search

open Relation

variable {g : FileGraph} {s : Search}

def Numbered (s : Search) (i : Nat) : Prop := ∃ n, s.number? i = some n

def entered (s : Search) : List Nat := s.numbers.map (·.1)

def Closed (s : Search) (i : Nat) : Prop := s.Numbered i ∧ i ∉ s.stack

def numberOf (s : Search) (i : Nat) : Nat := (s.number? i).getD 0

def lowOf (s : Search) (i : Nat) : Nat := (s.low? i).getD 0

@[simp] theorem numberOf_setLow (i low j : Nat) : (s.setLow i low).numberOf j = s.numberOf j := rfl

theorem lookup_cons_ite (j i n : Nat) (entries : List (Nat × Nat)) :
    ((i, n) :: entries).lookup j = if j = i then some n else entries.lookup j := by
  by_cases same : j = i
  · simp [same]
  · simp [List.lookup_cons, beq_false_of_ne same, same]

theorem low?_setLow (i low j : Nat) :
    (s.setLow i low).low? j = if j = i then some low else s.low? j :=
  lookup_cons_ite j i low s.lows

@[simp] theorem lowOf_setLow_self (i low : Nat) : (s.setLow i low).lowOf i = low := by
  rw [lowOf, low?_setLow, if_pos rfl, Option.getD_some]

theorem number?_enter (i j : Nat) :
    (s.enter i).number? j = if j = i then some s.numbers.length else s.number? j :=
  lookup_cons_ite j i s.numbers.length s.numbers

theorem low?_enter (i j : Nat) :
    (s.enter i).low? j = if j = i then some s.numbers.length else s.low? j :=
  lookup_cons_ite j i s.numbers.length s.lows

theorem numbered_iff (i : Nat) : s.Numbered i ↔ i ∈ s.entered := by
  simp only [Numbered, number?, ← Option.isSome_iff_exists, List.lookup_isSome_iff, entered,
    List.mem_map]
  constructor
  · rintro ⟨entry, member, same⟩
    exact ⟨entry, member, (beq_iff_eq.mp same).symm⟩
  · rintro ⟨entry, member, rfl⟩
    exact ⟨entry, member, beq_self_eq_true _⟩

theorem not_numbered_iff (i : Nat) : ¬ s.Numbered i ↔ s.number? i = none := by
  simp [Numbered, Option.eq_none_iff_forall_ne_some]

/-- What does not depend on the work: the numbers tell the open positions apart and order the stack,
and what is closed is closed for good and known to lie on a cycle or not. -/
structure Consistent (g : FileGraph) (s : Search) : Prop where
  bounded : ∀ i ∈ s.entered, i < g.size
  enteredOnce : s.entered.Nodup
  distinct : ∀ i j n, s.number? i = some n → s.number? j = some n → i = j
  counted : ∀ i n, s.number? i = some n → n < s.numbers.length
  stackNumbered : ∀ i ∈ s.stack, s.Numbered i
  youngest : s.stack.Pairwise fun i j => s.numberOf j < s.numberOf i
  closedEdges : ∀ i j, s.Closed i → g.HasEdge i j → s.Closed j
  members : ∀ i, i ∈ s.members ↔ s.Closed i ∧ TransGen g.HasEdge i i

/-- The position `i` is at work; the dependencies `seen` have been looked at. Above it on the stack are
the open positions `left` that were entered after it and left, below it the older ones. -/
structure Frame (g : FileGraph) (s : Search) (i : Nat) (seen left older : List Nat) : Prop where
  lowKnown : ∃ low, s.low? i = some low
  lowAtMost : s.lowOf i ≤ s.numberOf i
  lowReached : ∃ j ∈ i :: older, s.numberOf j = s.lowOf i ∧ ReflTransGen g.HasEdge i j
  entered : ∀ j ∈ left, ReflTransGen g.HasEdge i j
  returns : ∀ j ∈ left, ∃ k ∈ left ++ i :: older,
    s.numberOf k < s.numberOf j ∧ ReflTransGen g.HasEdge j k
  leftSeen : ∀ j ∈ left, ∀ k, g.HasEdge j k →
    s.Numbered k ∧ (k ∈ older → s.lowOf i ≤ s.numberOf k)
  ownSeen : ∀ k ∈ seen, s.Numbered k ∧ (k ∈ older → s.lowOf i ≤ s.numberOf k)

/-- The work below a position: each entry waits for the one above it, which is the dependency that it
looked at last. -/
inductive Waiting (g : FileGraph) (s : Search) : Nat → List (Nat × Nat) → List Nat → Prop
  | done (child : Nat) : Waiting g s child [] []
  | waits {child i next : Nat} {work : List (Nat × Nat)} {left older : List Nat} :
      Frame g s i ((g.dependenciesOf i).take next) left older →
      (g.dependenciesOf i)[next]? = some child → Waiting g s i work older →
      Waiting g s child ((i, next + 1) :: work) (left ++ i :: older)

structure Extends (s later : Search) (part : List Nat) : Prop where
  numbers : ∀ i ∈ part, later.number? i = s.number? i
  lows : ∀ i ∈ part, later.low? i = s.low? i
  numbered : ∀ i, s.Numbered i → later.Numbered i

theorem Extends.numberOf {later : Search} {part : List Nat} (extended : s.Extends later part)
    {i : Nat} (member : i ∈ part) : later.numberOf i = s.numberOf i := by
  rw [Search.numberOf, extended.numbers i member, Search.numberOf]

theorem Extends.lowOf {later : Search} {part : List Nat} (extended : s.Extends later part)
    {i : Nat} (member : i ∈ part) : later.lowOf i = s.lowOf i := by
  rw [Search.lowOf, extended.lows i member, Search.lowOf]

theorem Extends.subset {later : Search} {part smaller : List Nat}
    (extended : s.Extends later part) (inside : smaller ⊆ part) : s.Extends later smaller where
  numbers i member := extended.numbers i (inside member)
  lows i member := extended.lows i (inside member)
  numbered := extended.numbered

theorem Frame.extend {later : Search} {i : Nat} {seen left older : List Nat}
    (frame : Frame g s i seen left older) (extended : s.Extends later (left ++ i :: older)) :
    Frame g later i seen left older := by
  have own : i ∈ left ++ i :: older := by simp
  have below {k : Nat} (member : k ∈ i :: older) : k ∈ left ++ i :: older :=
    List.mem_append_right left member
  have seenLater (k : Nat) (known : s.Numbered k ∧ (k ∈ older → s.lowOf i ≤ s.numberOf k)) :
      later.Numbered k ∧ (k ∈ older → later.lowOf i ≤ later.numberOf k) := by
    refine ⟨extended.numbered k known.1, ?_⟩
    intro member
    rw [extended.lowOf own, extended.numberOf (below (List.mem_cons_of_mem i member))]
    exact known.2 member
  exact {
    lowKnown := by
      obtain ⟨low, known⟩ := frame.lowKnown
      exact ⟨low, (extended.lows i own).trans known⟩
    lowAtMost := by
      rw [extended.lowOf own, extended.numberOf own]
      exact frame.lowAtMost
    lowReached := by
      obtain ⟨j, member, number, reached⟩ := frame.lowReached
      exact ⟨j, member, by rw [extended.numberOf (below member), extended.lowOf own, number], reached⟩
    entered := frame.entered
    returns := by
      intro j member
      obtain ⟨k, inFrame, less, reached⟩ := frame.returns j member
      refine ⟨k, inFrame, ?_, reached⟩
      rwa [extended.numberOf inFrame, extended.numberOf (List.mem_append_left _ member)]
    leftSeen := fun j member k edge => seenLater k (frame.leftSeen j member k edge)
    ownSeen := fun k member => seenLater k (frame.ownSeen k member) }

theorem Waiting.extend {later : Search} {child : Nat} {work : List (Nat × Nat)} {stack : List Nat}
    (waiting : Waiting g s child work stack) (extended : s.Extends later stack) :
    Waiting g later child work stack := by
  induction waiting with
  | done child => exact .done child
  | waits frame entry _ ih =>
      refine .waits (frame.extend extended) entry (ih (extended.subset ?_))
      intro j member
      simp [member]

theorem Frame.see {i k : Nat} {seen left older : List Nat} (frame : Frame g s i seen left older)
    (numbered : s.Numbered k) (low : k ∈ older → s.lowOf i ≤ s.numberOf k) :
    Frame g s i (seen ++ [k]) left older := by
  refine { frame with ownSeen := ?_ }
  intro other member
  rcases List.mem_append.mp member with old | new
  · exact frame.ownSeen other old
  · obtain rfl := List.mem_singleton.mp new
    exact ⟨numbered, low⟩

theorem Frame.lowered {i n : Nat} {seen left older : List Nat} (frame : Frame g s i seen left older)
    (reached : n < s.lowOf i → ∃ j ∈ i :: older, s.numberOf j = n ∧ ReflTransGen g.HasEdge i j) :
    s.lower i n = .ok (s.setLow i (min (s.lowOf i) n)) ∧
      Frame g (s.setLow i (min (s.lowOf i) n)) i seen left older := by
  obtain ⟨low, known⟩ := frame.lowKnown
  have lowIs : s.lowOf i = low := by rw [lowOf, known, Option.getD_some]
  refine ⟨by rw [lower, known, lowIs], ?_⟩
  have seenStill (k : Nat) (seenBefore : s.Numbered k ∧ (k ∈ older → s.lowOf i ≤ s.numberOf k)) :
      s.Numbered k ∧ (k ∈ older → min (s.lowOf i) n ≤ s.numberOf k) :=
    ⟨seenBefore.1, fun member => Nat.le_trans (Nat.min_le_left _ _) (seenBefore.2 member)⟩
  exact {
    lowKnown := ⟨_, by rw [low?_setLow, if_pos rfl]⟩
    lowAtMost := by
      rw [lowOf_setLow_self, numberOf_setLow]
      exact Nat.le_trans (Nat.min_le_left _ _) frame.lowAtMost
    lowReached := by
      rw [lowOf_setLow_self]
      by_cases less : n < s.lowOf i
      · rw [Nat.min_eq_right (Nat.le_of_lt less)]
        exact reached less
      · rw [Nat.min_eq_left (Nat.le_of_not_lt less)]
        exact frame.lowReached
    entered := frame.entered
    returns := frame.returns
    leftSeen := by
      intro j member k edge
      rw [lowOf_setLow_self]
      exact seenStill k (frame.leftSeen j member k edge)
    ownSeen := by
      intro k member
      rw [lowOf_setLow_self]
      exact seenStill k (frame.ownSeen k member) }

end Groundwork.Graph.Search
