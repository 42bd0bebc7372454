import Groundwork.Json.Value

/-!
Writing tables as TOML documents. Plain members come before the tables, and the tables are written
level by level: first those of the document, then those inside them, and so on.
-/

namespace Groundwork.Toml

/-- Inside double quotes a single quote stands by itself and a double quote is escaped. -/
def requote : List Char → List Char
  | '\\' :: '\\' :: rest => '\\' :: '\\' :: requote rest
  | '\\' :: '\'' :: rest => '\'' :: requote rest
  | '"' :: rest => '\\' :: '"' :: requote rest
  | c :: rest => c :: requote rest
  | [] => []

def splitCodes : List Char → List (List Char)
  | [] => [[]]
  | '\\' :: 'x' :: rest => [] :: splitCodes rest
  | c :: rest =>
    match splitCodes rest with
    | piece :: pieces => (c :: piece) :: pieces
    | [] => [[c]]

def halveSlashes : List Char → List Char
  | '\\' :: '\\' :: rest => '\\' :: halveSlashes rest
  | c :: rest => c :: halveSlashes rest
  | [] => []

/-- Puts the next piece after a code mark. The format knows no code of two digits: the mark becomes a
plain `x`, or a code of four digits where backslashes before it would swallow the plain one. -/
def joinCode (written piece : List Char) : List Char :=
  if written.isEmpty then piece
  else
    let before := halveSlashes written
    let slashes := (before.reverse.takeWhile (· == '\\')).length
    let inner := if slashes = before.length then slashes - 1 else slashes
    let mark := if slashes = 0 ∨ inner % 2 = 1 then ['x'] else ['u', '0', '0']
    before ++ mark ++ piece

def escaped (s : String) : List Char :=
  let image := (Json.quoted s).toList
  let body := (image.drop 1).dropLast
  match splitCodes (if image.head? = some '\'' then requote body else body) with
  | first :: pieces => pieces.foldl joinCode first
  | [] => []

def textValue (s : String) : String := "\"" ++ String.ofList (escaped s) ++ "\""

def isPlainName (name : String) : Bool :=
  !name.isEmpty && name.toList.all fun c =>
    Text.isAsciiLetter c || Text.isAsciiDigit c || c == '_' || c == '-'

def writtenName (name : String) : String := if isPlainName name then name else textValue name

/-- An exponent is written without a leading zero. -/
def shortExponent : List Char → List Char
  | 'e' :: sign :: '0' :: rest => 'e' :: sign :: rest
  | c :: rest => c :: shortExponent rest
  | [] => []

mutual

/-- A value after its name. For a table inside a list of lists only its names are written. -/
def written : Json → String
  | .null => "None"
  | .bool b => if b then "true" else "false"
  | .int n => toString n
  | .float x => String.ofList (shortExponent (Decimal.written x).toList)
  | .str s => textValue s
  | .arr items => "[" ++ writtenItems items ++ "]"
  | .obj members => "[" ++ Text.join "" (members.map fun (n, _) => " " ++ textValue n ++ ",") ++ "]"

def writtenItems : List Json → String
  | [] => ""
  | item :: rest => " " ++ written item ++ "," ++ writtenItems rest

end

mutual

def depth : Json → Nat
  | .arr items => depthOfItems items + 1
  | .obj members => depthOfMembers members + 1
  | _ => 0

def depthOfItems : List Json → Nat
  | [] => 0
  | item :: rest => max (depth item) (depthOfItems rest)

def depthOfMembers : List (String × Json) → Nat
  | [] => 0
  | (_, value) :: rest => max (depth value) (depthOfMembers rest)

end

def isTable : Json → Bool
  | .obj _ => true
  | _ => false

def listedTables : Json → List Json.Members
  | .arr items => items.filterMap fun
    | .obj members => some members
    | _ => none
  | _ => []

def tablesOf (members : Json.Members) : List (String × Json.Members) :=
  members.filterMap fun (name, value) =>
    match value with
    | .obj inner => some (writtenName name, inner)
    | _ => none

def plainLines (members : Json.Members) : String :=
  Text.join "" <| members.filterMap fun (name, value) =>
    if isTable value || !(listedTables value).isEmpty then none
    else some (writtenName name ++ " = " ++ written value ++ "\n")

def nextLevel (tables : List (String × Json.Members)) : List (String × Json.Members) :=
  tables.flatMap fun (name, members) =>
    (tablesOf members).map fun (inner, table) => (name ++ "." ++ inner, table)

mutual

def body (path : String) : Nat → Json.Members → String
  | 0, members => plainLines members
  | fuel + 1, members =>
    plainLines members ++ Text.join "" (members.flatMap fun (name, value) =>
      (listedTables value).map fun item => itemText (path ++ writtenName name) fuel item)

def itemText (path : String) (fuel : Nat) (item : Json.Members) : String :=
  "[[" ++ path ++ "]]\n" ++ body (path ++ ".") fuel item ++ levels path fuel (tablesOf item)

/-- The tables below a list item, level by level; one without a body has no head of its own. -/
def levels (path : String) : Nat → List (String × Json.Members) → String
  | 0, _ => ""
  | fuel + 1, tables =>
    if tables.isEmpty then ""
    else
      let texts := tables.map fun (name, members) =>
        let full := path ++ "." ++ name
        let text := body (full ++ ".") fuel members
        if text.isEmpty then "" else "[" ++ full ++ "]\n" ++ text
      Text.join "" texts ++ levels path fuel (nextLevel tables)

end

/-- Adds a table after what is written so far, with an empty line between the two. A table that
holds nothing but tables has no head of its own. -/
def addTable (fuel : Nat) (text : String) (table : String × Json.Members) : String :=
  let (name, members) := table
  let content := body (name ++ ".") fuel members
  if content.isEmpty && !(tablesOf members).isEmpty then text
  else
    let gap := if text.isEmpty || Text.endsWith text "\n\n" then "" else "\n"
    text ++ gap ++ "[" ++ name ++ "]\n" ++ content

def addLevels : Nat → String → List (String × Json.Members) → String
  | 0, text, _ => text
  | fuel + 1, text, tables =>
    if tables.isEmpty then text
    else addLevels fuel (tables.foldl (addTable fuel) text) (nextLevel tables)

def write (members : Json.Members) : String :=
  let fuel := depthOfMembers members + 1
  addLevels fuel (body "" fuel members) (tablesOf members)

end Groundwork.Toml
