import Groundwork.Failure
import Groundwork.Json.Reader

/-!
JSON documents in completions. A completion may put the document between fences of three backticks,
the first of which may be followed by the word `json` in any case. Fences at the two ends are taken
off, each by itself, and blanks next to them with them.
-/

namespace Groundwork.Completion

open Text

def backtick : Char := Char.ofNat 96

def fence : List Char := [backtick, backtick, backtick]

/-- Whether two letters are equal apart from case. The long s counts as an s. -/
def sameLetter (letter c : Char) : Bool :=
  lowerChar c == [letter] || (letter == 's' && c.toNat == 0x17f)

def afterWord? : List Char → List Char → Option (List Char)
  | [], text => some text
  | _ :: _, [] => none
  | letter :: word, c :: text => if sameLetter letter c then afterWord? word text else none

def dropOpening (text : List Char) : List Char :=
  if fence.isPrefixOf text then
    let inner := text.drop fence.length
    ((afterWord? "json".toList inner).getD inner).dropWhile isBlank
  else text

def dropClosing (text : List Char) : List Char :=
  if fence.isSuffixOf text then trimEnd isBlank (text.take (text.length - fence.length))
  else text

def unfence (text : List Char) : List Char :=
  trim isBlank (dropClosing (dropOpening (trim isBlank text)))

/-- The failure of a completion that holds no document. A number with too many digits is a value that
nobody can use, and not a text that is no document. -/
def failureOf (text : List Char) (e : Json.ReadError) : Failure :=
  if e.cause = .tooManyDigits then .data .badValue
  else .generation (.invalidJson (e.message text))

def parseJson (text : String) : Except Failure Json :=
  let inner := unfence text.toList
  if inner.isEmpty then .error (.generation .emptyJson)
  else match Json.read inner with
    | .ok value => .ok value
    | .error e => .error (failureOf inner e)

end Groundwork.Completion
