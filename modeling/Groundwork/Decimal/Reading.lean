import Groundwork.Decimal.Exact
import Groundwork.Text.Basic

/-!
Reading numbers from texts. Blanks around the number and single underscores between digits are
allowed, as are the words for infinity and for no number.
-/

namespace Groundwork.Decimal

def digitsValue (digits : List Char) : Nat :=
  digits.foldl (fun n c => 10 * n + (c.toNat - 48)) 0

def takeSign : List Char → Bool × List Char
  | '-' :: rest => (true, rest)
  | '+' :: rest => (false, rest)
  | cs => (false, cs)

/-- Removes underscores that stand between two digits; any other one refuses the text. -/
def dropUnderscores : Option Char → List Char → Option (List Char)
  | _, [] => some []
  | previous, '_' :: rest =>
    match previous, rest with
    | some p, c :: _ =>
      if Text.isAsciiDigit p && Text.isAsciiDigit c then dropUnderscores (some '_') rest else none
    | _, _ => none
  | _, c :: rest => (dropUnderscores (some c) rest).map (c :: ·)

def readExponent : List Char → Option Int
  | [] => some 0
  | c :: rest =>
    if c = 'e' ∨ c = 'E' then
      let (negative, digits) := takeSign rest
      if digits.isEmpty || !digits.all Text.isAsciiDigit then none
      else some (if negative then -digitsValue digits else digitsValue digits)
    else none

def readPlain? (cs : List Char) : Option (Nat × Int) :=
  let whole := cs.takeWhile Text.isAsciiDigit
  let afterWhole := cs.dropWhile Text.isAsciiDigit
  let (fraction, rest) := match afterWhole with
    | '.' :: r => (r.takeWhile Text.isAsciiDigit, r.dropWhile Text.isAsciiDigit)
    | r => ([], r)
  if whole.isEmpty && fraction.isEmpty then none
  else (readExponent rest).map fun e =>
    (digitsValue (whole ++ fraction), e - fraction.length)

def readFloat? (s : String) : Option Float := do
  let (negative, body) := takeSign (Text.trim Text.isBlank s.toList)
  let word := (body.flatMap Text.lowerChar)
  if word == "inf".toList || word == "infinity".toList then
    return if negative then -1.0 / 0.0 else 1.0 / 0.0
  if word == "nan".toList then return 0.0 / 0.0
  let digits ← dropUnderscores none body
  let (mantissa, exponent) ← readPlain? digits
  return toFloat negative mantissa exponent

def readInt? (s : String) : Option Int := do
  let (negative, body) := takeSign (Text.trim Text.isBlank s.toList)
  let digits ← dropUnderscores none body
  if digits.isEmpty || !digits.all Text.isAsciiDigit then none
  else return if negative then -digitsValue digits else digitsValue digits

end Groundwork.Decimal
