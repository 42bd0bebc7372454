import Groundwork.Source.Cursor
import Groundwork.Source.Tree

/-!
Scripts whose blocks are marked by indentation, as logical lines. A logical line ends where its line
ends outside all brackets and texts, unless a backslash closes the line. Empty lines and comments
are no lines.
-/

namespace Groundwork.Source.Offside

structure Line where
  indent : Nat
  trees : List Tree

def isGap (c : Char) : Bool :=
  (Text.isBlank c && c != '\n') || c.toNat == 0xfeff || c.toNat == 0x200b || c.toNat == 0x2060

/-- The width of the blanks that open a line; a tab counts eight, a form feed starts again. -/
def indentOf : Nat → List Char → Nat
  | width, ' ' :: rest => indentOf (width + 1) rest
  | width, '\t' :: rest => indentOf (width + 8) rest
  | _, '\x0c' :: rest => indentOf 0 rest
  | width, '\r' :: rest => indentOf width rest
  | width, _ => width

def isMarkLetter (c : Char) : Bool :=
  ['r', 'R', 'b', 'B', 'u', 'U', 'f', 'F', 't', 'T'].contains c

def quoteAt? (text : List Char) : Option (Char × Bool) :=
  match text with
  | a :: b :: c :: _ =>
    if a = '"' ∨ a = '\'' then some (a, a = b ∧ b = c) else none
  | a :: _ => if a = '"' ∨ a = '\'' then some (a, false) else none
  | [] => none

def endsText (quote : Char) (threefold : Bool) (text : List Char) : Bool :=
  if threefold then text.take 3 == [quote, quote, quote] else text.head? == some quote

def textLength (quote : Char) (threefold : Bool) : Nat → List Char → Nat
  | 0, _ => 0
  | _ + 1, [] => 0
  | fuel + 1, c :: rest =>
    if c = '\\' then 2 + textLength quote threefold fuel (rest.drop 1)
    else if endsText quote threefold (c :: rest) then if threefold then 3 else 1
    else 1 + textLength quote threefold fuel rest

/-- The mark before a text, of two letters at most, if a text begins here. -/
def textMark? (text : List Char) : Option (List Char) :=
  let mark := text.takeWhile isMarkLetter
  if mark.length ≤ 2 && (quoteAt? (text.drop mark.length)).isSome then some mark else none

mutual

def formattedLength (quote : Char) (threefold : Bool) : Nat → List Char → Nat
  | 0, _ => 0
  | _ + 1, [] => 0
  | fuel + 1, c :: rest =>
    if c = '\\' then 2 + formattedLength quote threefold fuel (rest.drop 1)
    else if c = '\x7b' then
      if rest.head? = some '\x7b' then 2 + formattedLength quote threefold fuel (rest.drop 1)
      else
        let inside := substitutionLength false fuel 0 rest
        1 + inside + formattedLength quote threefold fuel (rest.drop inside)
    else if endsText quote threefold (c :: rest) then if threefold then 3 else 1
    else 1 + formattedLength quote threefold fuel rest

/-- The length of a substitution after its opening brace, its closing brace included; `inFormat`
says that the part behind the colon has begun, where quotes stand for themselves. -/
def substitutionLength (inFormat : Bool) : Nat → (depth : Nat) → List Char → Nat
  | 0, _, _ => 0
  | _ + 1, _, [] => 0
  | fuel + 1, depth, c :: rest =>
    if c = '\x7b' then
      if inFormat then
        let inside := substitutionLength false fuel 0 rest
        1 + inside + substitutionLength inFormat fuel depth (rest.drop inside)
      else 1 + substitutionLength inFormat fuel (depth + 1) rest
    else if c = '\x7d' then
      if depth = 0 then 1 else 1 + substitutionLength inFormat fuel (depth - 1) rest
    else if inFormat then 1 + substitutionLength inFormat fuel depth rest
    else if c = '(' ∨ c = '[' then 1 + substitutionLength inFormat fuel (depth + 1) rest
    else if c = ')' ∨ c = ']' then 1 + substitutionLength inFormat fuel (depth - 1) rest
    else if c = ':' ∧ depth = 0 then 1 + substitutionLength true fuel depth rest
    else match textMark? (c :: rest) with
      | some mark =>
        let length := quotedTextLength fuel mark (c :: rest)
        if length = 0 then 1 + substitutionLength inFormat fuel depth rest
        else length + substitutionLength inFormat fuel depth ((c :: rest).drop length)
      | none => 1 + substitutionLength inFormat fuel depth rest

def quotedTextLength : Nat → (mark : List Char) → List Char → Nat
  | 0, _, _ => 0
  | fuel + 1, mark, text =>
    match quoteAt? (text.drop mark.length) with
    | some (quote, threefold) =>
      let opening := mark.length + if threefold then 3 else 1
      let body := text.drop opening
      let formatted := mark.any fun c => c = 'f' ∨ c = 'F' ∨ c = 't' ∨ c = 'T'
      opening + if formatted then formattedLength quote threefold fuel body
        else textLength quote threefold fuel body
    | none => 0

end

def puncts : List String :=
  ["...", "**=", "//=", ">>=", "<<=", "->", ":=", "==", "!=", "<=", ">=", "+=", "-=", "*=", "/=",
    "%=", "&=", "|=", "^=", "@=", "**", "//", ">>", "<<"]

/-- Kind and length of the token at a place that is neither gap nor bracket. -/
def tokenAt (c : Cursor) : TokenKind × Nat :=
  match c.rest with
  | [] => (.punct, 0)
  | ch :: rest =>
    match textMark? c.rest with
    | some mark => (.string, max 1 (quotedTextLength (c.rest.length + 1) mark c.rest))
    | none =>
      if isNameStart ch then (.word, (c.takeWhile isNameChar).length)
      else if Text.isAsciiDigit ch || (ch == '.' && rest.head?.any Text.isAsciiDigit) then
        (.number, numberLength (isHexadecimal c.rest) false c.rest)
      else (.punct, match puncts.find? c.startsWith with
        | some p => p.length
        | none => 1)

def enclosureOf? : Char → Option Enclosure
  | '(' => some .paren
  | '[' => some .bracket
  | '\x7b' => some .brace
  | _ => none

def isCloser (c : Char) : Bool := c == ')' || c == ']' || c == '\x7d'

/-- The trees up to the end of the logical line or the closing bracket, put before the given ones,
the last one first. -/
def readTrees : Nat → (inBrackets : Bool) → List Tree → Cursor → List Tree × Cursor
  | 0, _, before, c => (before, c)
  | fuel + 1, inBrackets, before, c =>
    match c.rest with
    | [] => (before, c)
    | '\n' :: _ => if inBrackets then readTrees fuel inBrackets before (c.advance 1) else (before, c)
    | '\\' :: '\r' :: '\n' :: _ => readTrees fuel inBrackets before (c.advance 3)
    | '\\' :: '\n' :: _ => readTrees fuel inBrackets before (c.advance 2)
    | '#' :: _ =>
      readTrees fuel inBrackets before (c.advance (c.takeWhile (· != '\n')).length)
    | ch :: _ =>
      if isGap ch then readTrees fuel inBrackets before (c.advance 1)
      else if isCloser ch then
        if inBrackets then (before, c) else readTrees fuel inBrackets before (c.advance 1)
      else match enclosureOf? ch with
        | some enclosure =>
          let (children, inner) := readTrees fuel true [] (c.advance 1)
          let after := inner.advance 1
          let tree := .group enclosure children.reverse ⟨c.offset, after.offset⟩ false
          readTrees fuel inBrackets (tree :: before) after
        | none =>
          let (kind, length) := tokenAt c
          let text := String.ofList (c.rest.take length)
          let after := c.advance length
          readTrees fuel inBrackets (.token kind text ⟨c.offset, after.offset⟩ false :: before) after

def readLines : Nat → Cursor → List Line
  | 0, _ => []
  | fuel + 1, c =>
    if c.rest.isEmpty then []
    else
      let indent := indentOf 0 (c.rest.dropWhile fun ch => ch.toNat == 0xfeff)
      let (trees, after) := readTrees (2 * c.rest.length + 2) false [] c
      let rest := readLines fuel (after.advance 1)
      if trees.isEmpty then rest else ⟨indent, trees.reverse⟩ :: rest

def linesOf (text : List Char) : List Line := readLines (text.length + 1) (Cursor.start text)

end Groundwork.Source.Offside
