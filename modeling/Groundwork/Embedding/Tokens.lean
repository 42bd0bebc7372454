import Groundwork.Text.Letter

/-!
Tokens of source text and prose. Every identifier is a token, and so are the words that a compound
identifier is made of. Weights are counted in halves: two for an identifier, one for a part of one.
Letters and digits are those of ASCII.
-/

namespace Groundwork.Embedding

open Text

def isIdentifierStart (c : Char) : Bool := isAsciiLetter c || c == '_'

def isIdentifierPart (c : Char) : Bool := isIdentifierStart c || isAsciiDigit c

/-- The identifiers in a text, each as long as possible. `current` holds the begun one, reversed. -/
def identifiersFrom (current : List Char) : List Char → List (List Char)
  | [] => if current.isEmpty then [] else [current.reverse]
  | c :: rest =>
    if current.isEmpty then
      if isIdentifierStart c then identifiersFrom [c] rest else identifiersFrom [] rest
    else if isIdentifierPart c then identifiersFrom (c :: current) rest
    else current.reverse :: identifiersFrom [] rest

def identifiers (text : List Char) : List (List Char) := identifiersFrom [] text

/-- The length of the word at the start of a text, zero if there is none: a run of capitals, of which
the last one is left to a following small letter; a capital or none with small letters; digits. -/
def wordLength (text : List Char) : Nat :=
  let capitals := (text.takeWhile isAsciiUpper).length
  let small (cs : List Char) := (cs.takeWhile isAsciiLower).length
  let followed := 0 < small (text.drop capitals)
  if 1 < capitals then if followed then capitals - 1 else capitals
  else if capitals = 1 then if followed then 1 + small (text.drop 1) else 1
  else if 0 < small text then small text
  else (text.takeWhile isAsciiDigit).length

def wordsOf : List Char → List (List Char)
  | [] => []
  | c :: rest =>
    let n := wordLength (c :: rest)
    if n = 0 then wordsOf rest else (c :: rest).take n :: wordsOf (rest.drop (n - 1))
termination_by text => text.length
decreasing_by all_goals (simp only [List.length_cons, List.length_drop]; omega)

structure Token where
  text : String
  halves : Nat
  deriving DecidableEq, Repr

def lowered (cs : List Char) : String :=
  String.ofList (cs.map fun c => if isAsciiUpper c then Char.ofNat (c.toNat + 32) else c)

/-- The tokens of one identifier: itself, then its words if there are at least two, apart from single
characters. -/
def tokensOf (identifier : List Char) : List Token :=
  let words := wordsOf identifier
  ⟨lowered identifier, 2⟩ ::
    if 1 < words.length then
      (words.filter fun w => 1 < w.length).map fun w => ⟨lowered w, 1⟩
    else []

def tokens (text : String) : List Token := (identifiers text.toList).flatMap tokensOf

end Groundwork.Embedding
