import Groundwork.Text.Basic

/-!
A place in a source text that is read from left to right, and the pieces that all grammars share.
-/

namespace Groundwork.Source

structure Cursor where
  offset : Nat
  rest : List Char

namespace Cursor

def start (text : List Char) : Cursor := ⟨0, text⟩

def advance (c : Cursor) (n : Nat) : Cursor := ⟨c.offset + n, c.rest.drop n⟩

def startsWith (c : Cursor) (text : String) : Bool := text.toList.isPrefixOf c.rest

def takeWhile (c : Cursor) (p : Char → Bool) : List Char := c.rest.takeWhile p

end Cursor

/-- Letters, numbers, the underscore, the dollar sign, escapes, and all beyond ASCII that is not
blank. -/
def isNameChar (c : Char) : Bool :=
  Text.isWord c || c == '$' || c == '\\' ||
    (128 ≤ c.toNat && !Text.isBlank c && c.toNat != 0xfeff && c.toNat != 0x200b && c.toNat != 0x2060)

def isNameStart (c : Char) : Bool := isNameChar c && !Text.isAsciiDigit c

/-- The length of a quoted text with its two quotes; a backslash takes the next character with it. -/
def quotedLength (quote : Char) : List Char → Nat
  | [] => 0
  | '\\' :: [] => 1
  | '\\' :: _ :: rest => 2 + quotedLength quote rest
  | c :: rest => if c = quote then 1 else 1 + quotedLength quote rest

/-- The length of a number: letters, digits and points, and a sign after an exponent mark unless
the digits are hexadecimal. -/
def numberLength (hexadecimal afterMark : Bool) : List Char → Nat
  | [] => 0
  | c :: rest =>
    if Text.isWord c || c == '.' then
      1 + numberLength hexadecimal (!hexadecimal && (c == 'e' || c == 'E')) rest
    else if afterMark && (c == '+' || c == '-') then 1 + numberLength hexadecimal false rest
    else 0

def isHexadecimal (text : List Char) : Bool :=
  match text with
  | '0' :: 'x' :: _ => true
  | '0' :: 'X' :: _ => true
  | _ => false

end Groundwork.Source
