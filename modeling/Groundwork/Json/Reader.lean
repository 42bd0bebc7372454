import Groundwork.Decimal.Reading
import Groundwork.Json.Value

/-!
Reading JSON documents. A text that is no document is refused with the first cause found from the
left and the offset that belongs to it. Beyond the standard the words for infinities and for no
number are read, a repeated member name keeps the last value, and a whole number has a limited number
of digits.
-/

namespace Groundwork.Json

inductive Cause where
  | byteOrderMark
  | value
  | extraData
  | memberName
  | colon
  | comma
  | unterminated
  | controlCharacter
  | escape
  | unicodeEscape
  | tooManyDigits
  deriving DecidableEq, Repr

def Cause.message : Cause → String
  | byteOrderMark => "Unexpected UTF-8 BOM (decode using utf-8-sig)"
  | value => "Expecting value"
  | extraData => "Extra data"
  | memberName => "Expecting property name enclosed in double quotes"
  | colon => "Expecting ':' delimiter"
  | comma => "Expecting ',' delimiter"
  | unterminated => "Unterminated string starting at"
  | controlCharacter => "Invalid control character at"
  | escape => "Invalid \\escape"
  | unicodeEscape => "Invalid \\uXXXX escape"
  | tooManyDigits => "Exceeds the limit for the digits of a whole number"

structure ReadError where
  cause : Cause
  offset : Nat
  deriving DecidableEq, Repr

def ReadError.message (text : List Char) (e : ReadError) : String :=
  let before := text.take e.offset
  let line := before.count '\n' + 1
  let column := (before.reverse.takeWhile (· != '\n')).length + 1
  s!"{e.cause.message}: line {line} column {column} (char {e.offset})"

structure Place where
  offset : Nat
  rest : List Char

namespace Place

def advance (p : Place) (n : Nat) : Place := ⟨p.offset + n, p.rest.drop n⟩

def isSpace (c : Char) : Bool := c == ' ' || c == '\t' || c == '\n' || c == '\r'

def skipSpace (p : Place) : Place := p.advance (p.rest.takeWhile isSpace).length

def error {α : Type} (p : Place) (cause : Cause) : Except ReadError α := .error ⟨cause, p.offset⟩

end Place

def hexValue? (c : Char) : Option Nat :=
  if Text.isAsciiDigit c then some (c.toNat - 48)
  else if 'a' ≤ c ∧ c ≤ 'f' then some (c.toNat - 87)
  else if 'A' ≤ c ∧ c ≤ 'F' then some (c.toNat - 55)
  else none

def hexFour? : List Char → Option Nat
  | [a, b, c, d] => do
    return ((← hexValue? a) * 16 + (← hexValue? b)) * 256 + (← hexValue? c) * 16 + (← hexValue? d)
  | _ => none

def simpleEscape? : Char → Option Char
  | '"' => some '"'
  | '\\' => some '\\'
  | '/' => some '/'
  | 'b' => some '\x08'
  | 'f' => some '\x0c'
  | 'n' => some '\n'
  | 'r' => some '\r'
  | 't' => some '\t'
  | _ => none

/-- Half of a surrogate pair, which is no character, becomes the replacement character. -/
def charOfUnit (n : Nat) : Char :=
  if 0xd800 ≤ n ∧ n ≤ 0xdfff then '\ufffd' else Char.ofNat n

/-- A four-digit escape at `p`, which stands on its `u`. A low half that follows a high half is
taken with it. A digit run that ends the text is refused like a bad digit. -/
def readUnit (p : Place) : Except ReadError (Char × Place) :=
  let digits := (p.rest.drop 1).take 4
  let after := p.advance 5
  match hexFour? digits with
  | none => p.error .unicodeEscape
  | some n =>
    if after.rest.isEmpty then p.error .unicodeEscape
    else if 0xd800 ≤ n ∧ n < 0xdc00 then
      match after.rest with
      | '\\' :: 'u' :: more =>
        if more.length < 5 then .ok (charOfUnit n, after)
        else match hexFour? (more.take 4) with
          | none => (after.advance 1).error .unicodeEscape
          | some low =>
            if 0xdc00 ≤ low ∧ low < 0xe000 then
              .ok (Char.ofNat (0x10000 + (n - 0xd800) * 0x400 + (low - 0xdc00)), after.advance 6)
            else .ok (charOfUnit n, after)
      | _ => .ok (charOfUnit n, after)
    else .ok (charOfUnit n, after)

def readText (start : Nat) : Nat → Place → List Char → Except ReadError (String × Place)
  | 0, _, _ => .error ⟨.unterminated, start⟩
  | fuel + 1, p, read =>
    match p.rest with
    | [] => .error ⟨.unterminated, start⟩
    | '"' :: _ => .ok (String.ofList read.reverse, p.advance 1)
    | '\\' :: [] => .error ⟨.unterminated, start⟩
    | '\\' :: 'u' :: _ => do
      let (c, after) ← readUnit (p.advance 1)
      readText start fuel after (c :: read)
    | '\\' :: c :: _ =>
      match simpleEscape? c with
      | some d => readText start fuel (p.advance 2) (d :: read)
      | none => p.error .escape
    | c :: _ =>
      if c.toNat ≤ 31 then p.error .controlCharacter
      else readText start fuel (p.advance 1) (c :: read)

def takeFraction : List Char → List Char
  | '.' :: rest =>
    let digits := rest.takeWhile Text.isAsciiDigit
    if digits.isEmpty then [] else '.' :: digits
  | _ => []

def takeExponent : List Char → List Char
  | c :: rest =>
    if c = 'e' ∨ c = 'E' then
      let sign := match rest with
        | '+' :: _ => ['+']
        | '-' :: _ => ['-']
        | _ => []
      let digits := (rest.drop sign.length).takeWhile Text.isAsciiDigit
      if digits.isEmpty then [] else c :: (sign ++ digits)
    else []
  | [] => []

def takeWhole : List Char → List Char
  | '0' :: _ => ['0']
  | cs => cs.takeWhile Text.isAsciiDigit

def maxDigits : Nat := 4300

def readNumber (p : Place) : Except ReadError (Json × Place) :=
  let sign := match p.rest with
    | '-' :: _ => ['-']
    | _ => []
  let body := p.rest.drop sign.length
  let whole := takeWhole body
  let fraction := takeFraction (body.drop whole.length)
  let exponent := takeExponent (body.drop (whole.length + fraction.length))
  let after := p.advance (sign.length + whole.length + fraction.length + exponent.length)
  if whole.isEmpty then p.error .value
  else if fraction.isEmpty && exponent.isEmpty then
    if maxDigits < whole.length then p.error .tooManyDigits else
    let n : Int := Decimal.digitsValue whole
    .ok (int (if sign.isEmpty then n else -n), after)
  else match Decimal.readPlain? (whole ++ fraction ++ exponent) with
    | some (mantissa, e) => .ok (float (Decimal.toFloat (!sign.isEmpty) mantissa e), after)
    | none => p.error .value

def words : List (String × Json) :=
  [("null", null), ("true", bool true), ("false", bool false), ("NaN", float (0.0 / 0.0)),
    ("Infinity", float (1.0 / 0.0)), ("-Infinity", float (-1.0 / 0.0))]

def readWord? (p : Place) : Option (Json × Place) :=
  (words.find? fun (word, _) => word.toList.isPrefixOf p.rest).map fun (word, value) =>
    (value, p.advance word.length)

mutual

def readValue : Nat → Place → Except ReadError (Json × Place)
  | 0, p => p.error .value
  | fuel + 1, p =>
    match p.rest with
    | [] => p.error .value
    | '"' :: _ => do
      let (s, after) ← readText p.offset (p.rest.length + 1) (p.advance 1) []
      return (str s, after)
    | '[' :: _ =>
      let first := (p.advance 1).skipSpace
      match first.rest with
      | ']' :: _ => .ok (arr [], first.advance 1)
      | _ => readItems fuel first []
    | '\x7b' :: _ =>
      let first := (p.advance 1).skipSpace
      match first.rest with
      | '\x7d' :: _ => .ok (obj [], first.advance 1)
      | _ => readMembers fuel first []
    | _ =>
      match readWord? p with
      | some result => .ok result
      | none => readNumber p

def readItems : Nat → Place → List Json → Except ReadError (Json × Place)
  | 0, p, _ => p.error .value
  | fuel + 1, p, read => do
    let (item, after) ← readValue fuel p
    let next := after.skipSpace
    match next.rest with
    | ']' :: _ => return (arr (item :: read).reverse, next.advance 1)
    | ',' :: _ => readItems fuel (next.advance 1).skipSpace (item :: read)
    | _ => next.error .comma

def readMembers : Nat → Place → Members → Except ReadError (Json × Place)
  | 0, p, _ => p.error .memberName
  | fuel + 1, p, read =>
    match p.rest with
    | '"' :: _ => do
      let (name, after) ← readText p.offset (p.rest.length + 1) (p.advance 1) []
      let mark := after.skipSpace
      match mark.rest with
      | ':' :: _ =>
        let (value, after) ← readValue fuel (mark.advance 1).skipSpace
        let next := after.skipSpace
        let read := setMember name value read
        match next.rest with
        | '\x7d' :: _ => return (obj read, next.advance 1)
        | ',' :: _ => readMembers fuel (next.advance 1).skipSpace read
        | _ => next.error .comma
      | _ => mark.error .colon
    | _ => p.error .memberName

end

def read (text : List Char) : Except ReadError Json :=
  if text.head? = some '\ufeff' then .error ⟨.byteOrderMark, 0⟩
  else do
    let (value, after) ← readValue (2 * text.length + 2) (Place.skipSpace ⟨0, text⟩)
    let last := after.skipSpace
    if last.rest.isEmpty then return value else last.error .extraData

def ofText? (s : String) : Option Json := (read s.toList).toOption

end Groundwork.Json
