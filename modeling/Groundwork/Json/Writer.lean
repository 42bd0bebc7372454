import Groundwork.Json.Value

/-!
Writing JSON documents: on one line, or with one member or item a line. Characters beyond ASCII are
written as escapes, those beyond sixteen bits as a pair.
-/

namespace Groundwork.Json

def unitEscape (n : Nat) : List Char := '\\' :: 'u' :: hexDigits 4 n

def escapeChar (c : Char) : List Char :=
  if c = '"' ∨ c = '\\' then ['\\', c]
  else if c = '\n' then ['\\', 'n']
  else if c = '\r' then ['\\', 'r']
  else if c = '\t' then ['\\', 't']
  else if c = '\x08' then ['\\', 'b']
  else if c = '\x0c' then ['\\', 'f']
  else if 32 ≤ c.toNat ∧ c.toNat < 127 then [c]
  else if c.toNat < 0x10000 then unitEscape c.toNat
  else
    let n := c.toNat - 0x10000
    unitEscape (0xd800 + n / 0x400) ++ unitEscape (0xdc00 + n % 0x400)

def text (s : String) : String := String.ofList ('"' :: (s.toList.flatMap escapeChar ++ ['"']))

def number (x : Float) : String :=
  match Decimal.Exact.ofFloat x with
  | .notANumber => "NaN"
  | .infinite negative => if negative then "-Infinity" else "Infinity"
  | _ => Decimal.written x

mutual

def compact : Json → String
  | null => "null"
  | bool b => if b then "true" else "false"
  | int n => toString n
  | float x => number x
  | str s => text s
  | arr items => "[" ++ Text.join ", " (compactItems items) ++ "]"
  | obj members => "\x7b" ++ Text.join ", " (compactMembers members) ++ "\x7d"

def compactItems : List Json → List String
  | [] => []
  | item :: rest => compact item :: compactItems rest

def compactMembers : List (String × Json) → List String
  | [] => []
  | (name, value) :: rest => (text name ++ ": " ++ compact value) :: compactMembers rest

end

def block (depth : Nat) (opening closing : String) (lines : List String) : String :=
  if lines.isEmpty then opening ++ closing
  else
    let inner := "\n" ++ String.ofList (List.replicate (depth + 2) ' ')
    let outer := "\n" ++ String.ofList (List.replicate depth ' ')
    opening ++ inner ++ Text.join ("," ++ inner) lines ++ outer ++ closing

mutual

def indented (depth : Nat) : Json → String
  | arr items => block depth "[" "]" (indentedItems (depth + 2) items)
  | obj members => block depth "\x7b" "\x7d" (indentedMembers (depth + 2) members)
  | null => "null"
  | bool b => if b then "true" else "false"
  | int n => toString n
  | float x => number x
  | str s => text s

def indentedItems (depth : Nat) : List Json → List String
  | [] => []
  | item :: rest => indented depth item :: indentedItems depth rest

def indentedMembers (depth : Nat) : List (String × Json) → List String
  | [] => []
  | (name, value) :: rest =>
    (text name ++ ": " ++ indented depth value) :: indentedMembers depth rest

end

end Groundwork.Json
