import Groundwork.Text.Basic

/-!
Searching a text for the first place at which a condition holds. A condition sees the character
before the place, if there is one, and the text from the place on.
-/

namespace Groundwork.Text

abbrev Spot := Option Char → List Char → Bool

/-- The offset of the first place that satisfies the condition; the end of the text is a place. -/
def search (spot : Spot) : Option Char → List Char → Option Nat
  | before, [] => if spot before [] then some 0 else none
  | before, c :: rest =>
    if spot before (c :: rest) then some 0 else (search spot (some c) rest).map (· + 1)

def find? (spot : Spot) (text : List Char) : Option Nat := search spot none text

def isWordAt : Option Char → Bool
  | some c => isWord c
  | none => false

def wordEdge : Spot := fun before rest => isWordAt before != isWordAt rest.head?

def lineStart : Spot := fun before _ => before.isNone || before == some '\n'

def after? (word : String) (text : List Char) : Option (List Char) :=
  if word.toList.isPrefixOf text then some (text.drop word.length) else none

def wordAfter? (word : String) (before : Option Char) (rest : List Char) : Option (List Char) :=
  if wordEdge before rest then after? word rest else none

def skipBlanks (text : List Char) : List Char := text.dropWhile isBlank

end Groundwork.Text
