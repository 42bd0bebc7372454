import Groundwork.Source.Cursor
import Groundwork.Source.Tree

/-!
Token trees of scripts with braces. Whether a slash begins a regular expression, and whether an
angle bracket begins a markup element, depends on whether an operand can stand at that place; this is
read off the trees before it.
-/

namespace Groundwork.Source.Script

/-- What a dialect has beside the common part: type annotations and markup elements. -/
structure Dialect where
  typed : Bool
  markup : Bool
  deriving DecidableEq, Repr

def isLineBreak (c : Char) : Bool :=
  c == '\n' || c == '\r' || c.toNat == 0x2028 || c.toNat == 0x2029

def isGap (c : Char) : Bool :=
  Text.isBlank c || c.toNat == 0xfeff || c.toNat == 0x200b || c.toNat == 0x2060

def blockLength : List Char → Nat
  | [] => 0
  | '*' :: '/' :: _ => 2
  | _ :: rest => 1 + blockLength rest

/-- Passes blanks and comments, and tells whether a line break was among them. Where an operand can
stand, the signs of a markup comment begin a comment to the end of the line as well. -/
def skipGap (operand : Bool) : Nat → Cursor → Bool → Cursor × Bool
  | 0, c, broken => (c, broken)
  | fuel + 1, c, broken =>
    let toLineEnd := c.advance (c.takeWhile fun ch => !isLineBreak ch).length
    if c.startsWith "//" || (c.offset == 0 && c.startsWith "#!") ||
        (operand && (c.startsWith "<!--" || c.startsWith "-->")) then
      skipGap operand fuel toLineEnd broken
    else if c.startsWith "/*" then
      let length := 2 + blockLength (c.rest.drop 2)
      skipGap operand fuel (c.advance length) (broken || (c.rest.take length).any isLineBreak)
    else match c.rest with
      | ch :: _ =>
        if isGap ch then skipGap operand fuel (c.advance 1) (broken || isLineBreak ch)
        else (c, broken)
      | [] => (c, broken)

def operatorWords : List String :=
  ["return", "typeof", "instanceof", "in", "of", "new", "delete", "void", "throw", "case", "do",
    "else", "yield", "await", "default", "extends"]

def isMemberAccess (before : List Tree) : Bool :=
  match before with
  | t :: _ => t.isPunct "." || t.isPunct "?."
  | [] => false

def headsStatement (before : List Tree) : Bool :=
  match before with
  | t :: more =>
    (t.isOneOf ["if", "while", "for", "with"] ||
      (t.isWord "await" && more.head?.any (·.isWord "for"))) && !isMemberAccess more
  | [] => false

/-- Whether braces after the given trees, the last one first, hold statements or members rather
than an object. -/
def opensBlock (before : List Tree) : Bool :=
  match before with
  | [] => true
  | .token .word w _ _ :: more =>
    isMemberAccess more || w == "else" || w == "do" || !operatorWords.contains w
  | .token .punct p _ _ :: _ => p == "=>" || p == ";" || p == ">"
  | _ => true

def expectsOperand : List Tree → Bool
  | [] => true
  | .token .word w _ _ :: more => operatorWords.contains w && !isMemberAccess more
  | .token .punct p _ _ :: more =>
    if p == "++" || p == "--" || p == "!" then expectsOperand more else true
  | .token _ _ _ _ :: _ => false
  | .group .paren _ _ _ :: more => headsStatement more
  | .group .brace _ _ _ :: more => opensBlock more
  | .group _ _ _ _ :: _ => false

def puncts : List String :=
  ["...", "===", "!==", "**=", "&&=", "||=", "??=", "=>", "==", "!=", "++", "--", "+=", "-=",
    "*=", "/=", "%=", "&=", "|=", "^=", "&&", "||", "??", "?.", "**"]

/-- The length of an operator or mark. Angle brackets stand alone, so that two of them can close
two lists of type arguments. -/
def punctLength (c : Cursor) : Nat :=
  match c.rest with
  | '?' :: '.' :: d :: _ => if Text.isAsciiDigit d then 1 else 2
  | _ => match puncts.find? c.startsWith with
    | some p => p.length
    | none => 1

/-- The length of a regular expression after its opening slash, flags included; `none` if the line
ends first. -/
def regexLength? (inClass : Bool) : List Char → Option Nat
  | [] => none
  | '\\' :: [] => none
  | '\\' :: _ :: rest => (regexLength? inClass rest).map (· + 2)
  | c :: rest =>
    if isLineBreak c then none
    else if c = '/' ∧ !inClass then some (1 + (rest.takeWhile isNameChar).length)
    else if c = '[' then (regexLength? true rest).map (· + 1)
    else if c = ']' then (regexLength? false rest).map (· + 1)
    else (regexLength? inClass rest).map (· + 1)

def tokenAt (operand : Bool) (c : Cursor) : TokenKind × Nat :=
  match c.rest with
  | [] => (.punct, 0)
  | ch :: rest =>
    if ch == '"' || ch == '\'' then (.string, 1 + quotedLength ch rest)
    else if isNameStart ch then (.word, (c.takeWhile isNameChar).length)
    else if ch == '#' && rest.head?.any isNameStart then
      (.word, 1 + (rest.takeWhile isNameChar).length)
    else if Text.isAsciiDigit ch || (ch == '.' && rest.head?.any Text.isAsciiDigit) then
      (.number, numberLength (isHexadecimal c.rest) false c.rest)
    else if ch == '/' && operand then
      match regexLength? false rest with
      | some n => (.regex, 1 + n)
      | none => (.punct, punctLength c)
    else (.punct, punctLength c)

def enclosureOf? : Char → Option Enclosure
  | '(' => some .paren
  | '[' => some .bracket
  | '\x7b' => some .brace
  | _ => none

def isCloser (c : Char) : Bool := c == ')' || c == ']' || c == '\x7d'

def backquote : Char := Char.ofNat 96

def isTagChar (c : Char) : Bool := isNameChar c || c == '-' || c == '.' || c == ':'

def opensTypeParameters (dialect : Dialect) (c : Cursor) : Bool :=
  let afterName := Text.trim isGap ((c.rest.drop 1).dropWhile isGap |>.dropWhile isNameChar)
  dialect.typed && (afterName.head? == some ',' || "extends ".toList.isPrefixOf afterName)

mutual

/-- The trees up to a closing bracket or the end, put before the given ones, the last one first. -/
def readTrees (dialect : Dialect) : Nat → List Tree → Cursor → List Tree × Cursor
  | 0, before, c => (before, c)
  | fuel + 1, before, c =>
    let operand := expectsOperand before
    let (c, broken) := skipGap operand (c.rest.length + 1) c false
    match c.rest with
    | [] => (before, c)
    | ch :: _ =>
      if isCloser ch then (before, c)
      else match enclosureOf? ch with
        | some enclosure =>
          let (children, inner) := readTrees dialect fuel [] (c.advance 1)
          let after := inner.advance 1
          let tree := .group enclosure children.reverse ⟨c.offset, after.offset⟩ broken
          readTrees dialect fuel (tree :: before) after
        | none =>
          if ch = backquote then
            let (children, after) := readTemplate dialect fuel [] (c.advance 1)
            let tree := .group .template children.reverse ⟨c.offset, after.offset⟩ broken
            readTrees dialect fuel (tree :: before) after
          else
            let element := if ch = '<' ∧ operand ∧ dialect.markup ∧ !opensTypeParameters dialect c
              then readElement dialect fuel (c.advance 1) else none
            match element with
            | some (children, after) =>
              let tree := .group .markup children ⟨c.offset, after.offset⟩ broken
              readTrees dialect fuel (tree :: before) after
            | none =>
              let (kind, length) := tokenAt operand c
              let text := String.ofList (c.rest.take length)
              let after := c.advance length
              let tree := .token kind text ⟨c.offset, after.offset⟩ broken
              readTrees dialect fuel (tree :: before) after

def readTemplate (dialect : Dialect) : Nat → List Tree → Cursor → List Tree × Cursor
  | 0, before, c => (before, c)
  | fuel + 1, before, c =>
    match c.rest with
    | [] => (before, c)
    | '\\' :: _ => readTemplate dialect fuel before (c.advance 2)
    | '$' :: '\x7b' :: _ =>
      let (children, inner) := readTrees dialect fuel [] (c.advance 2)
      let after := inner.advance 1
      let tree := .group .brace children.reverse ⟨c.offset, after.offset⟩ false
      readTemplate dialect fuel (tree :: before) after
    | ch :: _ =>
      if ch = backquote then (before, c.advance 1)
      else readTemplate dialect fuel before (c.advance 1)

def readElement (dialect : Dialect) : Nat → Cursor → Option (List Tree × Cursor)
  | 0, _ => none
  | fuel + 1, c =>
    let c := c.advance (c.takeWhile isGap).length
    let name := c.takeWhile isTagChar
    let c := c.advance name.length
    match c.rest with
    | '>' :: _ => readContent dialect fuel name [] (c.advance 1)
    | ch :: _ =>
      if name.isEmpty then none
      else if ch = '<' ∨ ch = '/' ∨ ch = '\x7b' ∨ isGap ch then
        readAttributes dialect fuel name [] c
      else none
    | [] => none

def readAttributes (dialect : Dialect) :
    Nat → List Char → List Tree → Cursor → Option (List Tree × Cursor)
  | 0, _, _, _ => none
  | fuel + 1, name, before, c =>
    match c.rest with
    | [] => none
    | '/' :: '>' :: _ => some (before.reverse, c.advance 2)
    | '/' :: '/' :: _ =>
      readAttributes dialect fuel name before (c.advance (c.takeWhile fun ch => !isLineBreak ch).length)
    | '/' :: '*' :: rest => readAttributes dialect fuel name before (c.advance (2 + blockLength rest))
    | '>' :: _ => readContent dialect fuel name before (c.advance 1)
    | '\x7b' :: _ =>
      let (children, inner) := readTrees dialect fuel [] (c.advance 1)
      let after := inner.advance 1
      let tree := .group .brace children.reverse ⟨c.offset, after.offset⟩ false
      readAttributes dialect fuel name (tree :: before) after
    | '<' :: _ =>
      match readElement dialect fuel (c.advance 1) with
      | some (children, after) =>
        if after.rest.isEmpty then none
        else
          let tree := .group .markup children ⟨c.offset, after.offset⟩ false
          readAttributes dialect fuel name (tree :: before) after
      | none =>
        let arguments := (c.takeWhile (· != '>')).length
        readAttributes dialect fuel name before (c.advance (arguments + 1))
    | ch :: rest =>
      if ch = '"' ∨ ch = '\'' then
        let inside := (rest.takeWhile (· != ch)).length
        readAttributes dialect fuel name before (c.advance (inside + 2))
      else readAttributes dialect fuel name before (c.advance 1)

def readContent (dialect : Dialect) :
    Nat → List Char → List Tree → Cursor → Option (List Tree × Cursor)
  | 0, _, _, _ => none
  | fuel + 1, name, before, c =>
    match c.rest with
    | [] => none
    | '\x7b' :: _ =>
      let (children, inner) := readTrees dialect fuel [] (c.advance 1)
      let after := inner.advance 1
      let tree := .group .brace children.reverse ⟨c.offset, after.offset⟩ false
      readContent dialect fuel name (tree :: before) after
    | '<' :: '/' :: rest =>
      let closing := rest.dropWhile isGap
      if closing.takeWhile isTagChar == name then
        some (before.reverse, c.advance (c.takeWhile (· != '>')).length |>.advance 1)
      else none
    | '<' :: _ =>
      match readElement dialect fuel (c.advance 1) with
      | some (children, after) =>
        let tree := .group .markup children ⟨c.offset, after.offset⟩ false
        readContent dialect fuel name (tree :: before) after
      | none => none
    | _ :: _ => readContent dialect fuel name before (c.advance 1)

end

def treesOf (dialect : Dialect) (text : List Char) : List Tree :=
  (readTrees dialect (4 * text.length + 4) [] (Cursor.start text)).1.reverse

end Groundwork.Source.Script
