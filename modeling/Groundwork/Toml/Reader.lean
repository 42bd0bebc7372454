import Groundwork.Decimal.Reading
import Groundwork.Failure
import Groundwork.Json.Reader

/-!
Reading TOML documents into tables of values. Dates and times are kept as they are written. A list
holds values of one kind, a table is opened once, and a table that only stands in the name of
another one may still be opened by itself.
-/

namespace Groundwork.Toml

/-- Why a text is no document: its form is wrong, or a name is used for two different things. -/
inductive Fault where
  | malformed
  | clash (fault : DataFault)
  deriving DecidableEq, Repr

def isSpace (c : Char) : Bool := c == ' ' || c == '\t'

def skipSpace (cs : List Char) : List Char := cs.dropWhile isSpace

def skipLine (cs : List Char) : List Char := cs.dropWhile (· != '\n')

def endOfLine? (cs : List Char) : Option (List Char) :=
  match skipSpace cs with
  | [] => some []
  | '\n' :: rest => some rest
  | '#' :: rest => some (skipLine rest)
  | _ => none

def scalar? (digits : List Char) : Option Char := do
  let n := (← digits.mapM Json.hexValue?).foldl (fun n d => 16 * n + d) 0
  if n.isValidChar then return Char.ofNat n else none

def simpleEscape? : Char → Option Char
  | '/' => none
  | '0' => some '\x00'
  | c => Json.simpleEscape? c

def lineText (read : List Char) : List Char → Option (String × List Char)
  | '"' :: rest => some (String.ofList read.reverse, rest)
  | '\\' :: 'u' :: a :: b :: c :: d :: rest =>
    (scalar? [a, b, c, d]).bind fun x => lineText (x :: read) rest
  | '\\' :: 'U' :: a :: b :: c :: d :: e :: f :: g :: h :: rest =>
    (scalar? [a, b, c, d, e, f, g, h]).bind fun x => lineText (x :: read) rest
  | '\\' :: c :: rest => (simpleEscape? c).bind fun x => lineText (x :: read) rest
  | '\n' :: _ => none
  | c :: rest => lineText (c :: read) rest
  | [] => none

/-- The same for a text on several lines. After a backslash at the end of a line the blanks and line
ends that follow are left out: then `joining` holds. -/
def blockText (joining : Bool) (read : List Char) : List Char → Option (String × List Char)
  | '"' :: '"' :: '"' :: rest => some (String.ofList read.reverse, rest)
  | '\\' :: 'u' :: a :: b :: c :: d :: rest =>
    (scalar? [a, b, c, d]).bind fun x => blockText false (x :: read) rest
  | '\\' :: 'U' :: a :: b :: c :: d :: e :: f :: g :: h :: rest =>
    (scalar? [a, b, c, d, e, f, g, h]).bind fun x => blockText false (x :: read) rest
  | '\\' :: '\n' :: rest => blockText true read rest
  | '\\' :: c :: rest => (simpleEscape? c).bind fun x => blockText false (x :: read) rest
  | c :: rest =>
    if joining && (isSpace c || c == '\n') then blockText true read rest
    else blockText false (c :: read) rest
  | [] => none

def plainText (cs : List Char) : Option (String × List Char) :=
  match cs.span (fun c => c != '\'' && c != '\n') with
  | (text, '\'' :: rest) => some (String.ofList text, rest)
  | _ => none

def plainBlock (read : List Char) : List Char → Option (String × List Char)
  | '\'' :: '\'' :: '\'' :: rest => some (String.ofList read.reverse, rest)
  | c :: rest => plainBlock (c :: read) rest
  | [] => none

/-- A line end right after the opening quotes does not count. -/
def dropFirstLineEnd : List Char → List Char
  | '\n' :: rest => rest
  | cs => cs

def readText : List Char → Option (String × List Char)
  | '"' :: '"' :: '"' :: rest => blockText false [] (dropFirstLineEnd rest)
  | '"' :: rest => lineText [] rest
  | '\'' :: '\'' :: '\'' :: rest => plainBlock [] (dropFirstLineEnd rest)
  | '\'' :: rest => plainText rest
  | _ => none

/-- Whether two neighbours are allowed in a number: an underscore stands between digits. -/
def underscoresFit : List Char → Bool
  | a :: b :: rest =>
    !((a == '_' && (b == '_' || b == '.')) || (a == '.' && b == '_')) && underscoresFit (b :: rest)
  | _ => true

/-- Whether a leading zero is the whole number or begins a fraction or a number of another base. -/
def zeroFits (marks : List Char) : List Char → Bool
  | '0' :: c :: _ => marks.contains c
  | _ => true

def isNumberText (token : List Char) : Bool :=
  underscoresFit token && token.getLast? != some '_' && token.head? != some '_' &&
    match token with
    | '+' :: rest => zeroFits ['.'] rest
    | '-' :: rest => zeroFits ['.'] rest
    | _ => zeroFits ['.', 'o', 'b', 'x'] token

def digitsIn (base : Nat) (digits : List Char) : Option Nat :=
  if digits.isEmpty then none
  else digits.foldlM (fun n c => do
    let d ← Json.hexValue? c
    if d < base then some (base * n + d) else none) 0

def wholeNumber? : List Char → Option Nat
  | '0' :: 'x' :: rest => digitsIn 16 rest
  | '0' :: 'o' :: rest => digitsIn 8 rest
  | '0' :: 'b' :: rest => digitsIn 2 rest
  | cs => digitsIn 10 cs

/-- A number: with a point or an exponent it is a double and needs digits on both sides of the
point. -/
def number? (token : List Char) : Option Json :=
  if !isNumberText token then none
  else
    let (negative, signed) := Decimal.takeSign token
    let body := signed.filter (· != '_')
    let sized (x : Float) : Json := .float (if negative then 0.0 - x else x)
    let word := body.flatMap Text.lowerChar
    if word == "inf".toList then some (sized (1.0 / 0.0))
    else if word == "nan".toList then some (.float (0.0 / 0.0))
    else if body.contains '.' || (!body.contains 'x' && (body.contains 'e' || body.contains 'E')) then
      let afterPoint := (body.dropWhile (· != '.')).drop 1
      if (body.contains '.' && afterPoint.isEmpty) || !(body.head?.any Text.isAsciiDigit) then none
      else (Decimal.readPlain? body).map fun (mantissa, exponent) =>
        sized (Decimal.toFloat false mantissa exponent)
    else (wholeNumber? body).map fun n => .int (if negative then -n else n)

/-- Whether a token has the form `pattern`, in which `0` stands for any digit. -/
def hasForm (pattern : String) (token : List Char) : Bool :=
  let shape := pattern.toList
  shape.length == token.length && (shape.zip token).all fun (p, c) =>
    if p == '0' then Text.isAsciiDigit c else p == c

def isTime (token : List Char) : Bool :=
  hasForm "00:00:00" (token.take 8) &&
    match token.drop 8 with
    | [] => true
    | '.' :: digits => !digits.isEmpty && digits.all Text.isAsciiDigit
    | _ => false

def isZonedTime (token : List Char) : Bool :=
  if token.getLast? == some 'Z' then isTime token.dropLast
  else
    let zone := token.drop (token.length - 6)
    isTime token || ((hasForm "+00:00" zone || hasForm "-00:00" zone) &&
      isTime (token.take (token.length - 6)))

def isDate (token : List Char) : Bool :=
  hasForm "0000-00-00" (token.take 10) &&
    match token.drop 10 with
    | [] => true
    | 'T' :: time => isZonedTime time
    | ' ' :: time => isZonedTime time
    | _ => false

def bareValue? (token : List Char) : Option Json :=
  if token == "true".toList then some (.bool true)
  else if token == "false".toList then some (.bool false)
  else if isTime token || isDate token then some (.str (String.ofList token))
  else number? token

def endsBareValue (c : Char) : Bool :=
  c == '\n' || c == '#' || c == ',' || c == ']' || c == '\x7d'

def skipGap (inComment : Bool) : List Char → List Char
  | [] => []
  | c :: rest =>
    if inComment then skipGap (c != '\n') rest
    else if isSpace c || c == '\n' then skipGap false rest
    else if c == '#' then skipGap true rest
    else c :: rest

def isNameChar (c : Char) : Bool := Text.isWord c || c == '-'

/-- One part of a name: quoted, or a run of the characters that `isBare` admits. -/
def readPart (isBare : Char → Bool) (cs : List Char) : Option (String × List Char) :=
  match cs with
  | '"' :: rest => lineText [] rest
  | '\'' :: rest => plainText rest
  | _ =>
    match cs.span isBare with
    | ([], _) => none
    | (part, rest) => some (String.ofList part, rest)

def readName (isBare : Char → Bool) : Nat → List Char → Option (List String × List Char)
  | 0, _ => none
  | fuel + 1, cs => do
    let (part, rest) ← readPart isBare (skipSpace cs)
    match skipSpace rest with
    | '.' :: more =>
      let (parts, last) ← readName isBare fuel more
      return (part :: parts, last)
    | last => return ([part], last)

def insert : List String → Json → Json.Members → Option Json.Members
  | [], _, _ => none
  | [name], value, table =>
    if (table.lookup name).isNone then some (table ++ [(name, value)]) else none
  | name :: path, value, table =>
    match table.lookup name with
    | none => (insert path value []).map fun inner => table ++ [(name, .obj inner)]
    | some (.obj inner) =>
      (insert path value inner).map fun inner => Json.setMember name (.obj inner) table
    | some _ => none

inductive Kind where
  | text
  | whole
  | double
  | truth
  | list
  | table
  deriving DecidableEq, Repr

def kindOf : Json → Kind
  | .str _ => .text
  | .int _ => .whole
  | .float _ => .double
  | .arr _ => .list
  | .obj _ => .table
  | _ => .truth

def isUniform : List Json → Bool
  | [] => true
  | first :: rest => rest.all fun item => kindOf item == kindOf first

mutual

def readValue : Nat → List Char → Option (Json × List Char)
  | 0, _ => none
  | fuel + 1, cs =>
    match cs with
    | '"' :: _ => (readText cs).map fun (s, rest) => (.str s, rest)
    | '\'' :: _ => (readText cs).map fun (s, rest) => (.str s, rest)
    | '[' :: rest => readItems fuel rest []
    | '\x7b' :: rest =>
      match skipSpace rest with
      | '\x7d' :: rest => some (.obj [], rest)
      | first => readPairs fuel first []
    | _ =>
      let (token, rest) := cs.span fun c => !endsBareValue c
      (bareValue? (Text.trimEnd Text.isBlank token)).map (·, rest)

/-- The items of a list up to its closing bracket. A comma without an item before it adds none. -/
def readItems : Nat → List Char → List Json → Option (Json × List Char)
  | 0, _, _ => none
  | fuel + 1, cs, read =>
    match skipGap false cs with
    | ']' :: rest => if isUniform read.reverse then some (.arr read.reverse, rest) else none
    | ',' :: rest => readItems fuel rest read
    | first => do
      let (item, rest) ← readValue fuel first
      match skipGap false rest with
      | ']' :: _ => readItems fuel (skipGap false rest) (item :: read)
      | ',' :: rest => readItems fuel rest (item :: read)
      | _ => none

def readPairs : Nat → List Char → Json.Members → Option (Json × List Char)
  | 0, _, _ => none
  | fuel + 1, cs, read => do
    let (name, rest) ← readName isNameChar fuel cs
    match rest with
    | '=' :: rest =>
      let (value, rest) ← readValue fuel (skipSpace rest)
      let read ← insert name value read
      match skipSpace rest with
      | '\x7d' :: rest => return (.obj read, rest)
      | ',' :: rest => readPairs fuel rest read
      | _ => none
    | _ => none

end

/-- The value at a path; a list of tables stands for its last table. -/
def at? : List String → Json.Members → Option Json
  | [], _ => none
  | [name], table => table.lookup name
  | name :: path, table =>
    match table.lookup name with
    | some (.obj inner) => at? path inner
    | some (.arr items) =>
      match items.getLast? with
      | some (.obj inner) => at? path inner
      | _ => none
    | _ => none

def change (f : Json.Members → Option Json.Members) :
    List String → Json.Members → Except Fault Json.Members
  | [], table =>
    match f table with
    | some table => .ok table
    | none => .error .malformed
  | name :: path, table =>
    match table.lookup name with
    | none => do return table ++ [(name, .obj (← change f path []))]
    | some (.obj inner) => do return Json.setMember name (.obj (← change f path inner)) table
    | some (.arr items) =>
      match items.getLast? with
      | some (.obj inner) => do
        return Json.setMember name (.arr (items.dropLast ++ [.obj (← change f path inner)])) table
      | _ => .error (.clash .wrongKind)
    | some _ => .error (.clash .wrongKind)

/-- What was read so far: the document, the open table, and the tables that only names imply. -/
structure Reading where
  root : Json.Members := []
  path : List String := []
  implied : List (List String) := []

namespace Reading

def impliedBy (path : List String) (root : Json.Members) : List (List String) :=
  (((List.range path.length).drop 1).map path.take).filter fun above => (at? above root).isNone

def openTable (path : List String) (r : Reading) : Except Fault Reading :=
  match at? path r.root with
  | some _ =>
    if r.implied.contains path then .ok { r with path, implied := r.implied.erase path }
    else .error .malformed
  | none => do
    let root ← change (insert [path.getLastD ""] (.obj [])) path.dropLast r.root
    return { root, path, implied := r.implied ++ impliedBy path r.root }

def openItem (path : List String) (r : Reading) : Except Fault Reading :=
  let name := path.getLastD ""
  match at? path r.root with
  | none => do
    let root ← change (insert [name] (.arr [.obj []])) path.dropLast r.root
    return { root, path, implied := r.implied ++ impliedBy path r.root }
  | some (.arr items) => do
    let grow (table : Json.Members) : Option Json.Members :=
      some (Json.setMember name (.arr (items ++ [.obj []])) table)
    let root ← change grow path.dropLast r.root
    return { r with root, path }
  | some _ => .error (if r.implied.contains path then .malformed else .clash .noMember)

end Reading

def isPlainNameChar (c : Char) : Bool :=
  Text.isAsciiLetter c || Text.isAsciiDigit c || c == '_' || c == '-'

def readHeader (closing cs : List Char) : Option (List String × List Char) := do
  let (path, rest) ← readName isPlainNameChar (cs.length + 1) cs
  if path.any (·.isEmpty) || !closing.isPrefixOf rest then none
  else return (path, ← endOfLine? (rest.drop closing.length))

def readStatement (r : Reading) (cs : List Char) : Except Fault (Reading × List Char) :=
  match cs with
  | '[' :: '[' :: rest =>
    match readHeader [']', ']'] rest with
    | some (path, rest) => (r.openItem path).map (·, rest)
    | none => .error .malformed
  | '[' :: rest =>
    match readHeader [']'] rest with
    | some (path, rest) => (r.openTable path).map (·, rest)
    | none => .error .malformed
  | _ =>
    let read : Option (List String × Json × List Char) := do
      let (name, rest) ← readName isNameChar (cs.length + 1) cs
      match rest with
      | '=' :: rest =>
        let (value, rest) ← readValue (rest.length + 1) (skipSpace rest)
        return (name, value, ← endOfLine? rest)
      | _ => none
    match read with
    | some (name, value, rest) =>
      (change (insert name value) r.path r.root).map fun root => ({ r with root }, rest)
    | none => .error .malformed

def readStatements : Nat → Reading → List Char → Except Fault Json.Members
  | 0, r, _ => .ok r.root
  | fuel + 1, r, cs =>
    match skipGap false cs with
    | [] => .ok r.root
    | first => do
      let (r, rest) ← readStatement r first
      readStatements fuel r rest

def read (text : String) : Except Fault Json.Members :=
  readStatements (text.toList.length + 1) {} text.toList

end Groundwork.Toml
