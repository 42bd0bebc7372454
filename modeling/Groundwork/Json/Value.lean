import Groundwork.Decimal.Written
import Groundwork.Text.Basic

/-!
Values of the JSON data format. Integers and doubles are different values, and an object keeps its
members in the order in which their names first appeared.
-/

namespace Groundwork

inductive Json where
  | null
  | bool (b : Bool)
  | int (n : Int)
  | float (x : Float)
  | str (s : String)
  | arr (items : List Json)
  | obj (members : List (String × Json))
  deriving Inhabited

namespace Json

abbrev Members := List (String × Json)

/-- Sets a member, in its old place if the name is there and at the end otherwise. -/
def setMember (name : String) (value : Json) : Members → Members
  | [] => [(name, value)]
  | (n, v) :: rest =>
    if n = name then (name, value) :: rest else (n, v) :: setMember name value rest

def get? (name : String) : Json → Option Json
  | obj members => members.lookup name
  | _ => none

def strings (items : List String) : Json := arr (items.map str)

def orNull : Option Json → Json
  | some value => value
  | none => null

/-- Whether a value counts as true: empty, zero and absent values do not. -/
def truthy : Json → Bool
  | null => false
  | bool b => b
  | int n => n != 0
  | float x => x != 0.0
  | str s => !s.isEmpty
  | arr items => !items.isEmpty
  | obj members => !members.isEmpty

def hexDigits (width n : Nat) : List Char := Decimal.padLeft width '0' (Nat.toDigits 16 n)

/-- The quoted form of a text inside a list or an object: single quotes unless the text holds one
and no double quote. -/
def quoted (s : String) : String :=
  let cs := s.toList
  let mark := if cs.contains '\'' && !cs.contains '"' then '"' else '\''
  let image (c : Char) : List Char :=
    if c = mark ∨ c = '\\' then ['\\', c]
    else if c = '\n' then ['\\', 'n']
    else if c = '\r' then ['\\', 'r']
    else if c = '\t' then ['\\', 't']
    else if Text.isPrintable c then [c]
    else if c.toNat < 0x100 then '\\' :: 'x' :: hexDigits 2 c.toNat
    else if c.toNat < 0x10000 then '\\' :: 'u' :: hexDigits 4 c.toNat
    else '\\' :: 'U' :: hexDigits 8 c.toNat
  String.ofList (mark :: (cs.flatMap image ++ [mark]))

mutual

def element : Json → String
  | null => "None"
  | bool b => if b then "True" else "False"
  | int n => toString n
  | float x => Decimal.written x
  | str s => quoted s
  | arr items => "[" ++ Text.join ", " (elements items) ++ "]"
  | obj members => "\x7b" ++ Text.join ", " (memberTexts members) ++ "\x7d"

def elements : List Json → List String
  | [] => []
  | item :: rest => element item :: elements rest

def memberTexts : List (String × Json) → List String
  | [] => []
  | (name, value) :: rest => (quoted name ++ ": " ++ element value) :: memberTexts rest

end

def shown : Json → String
  | str s => s
  | value => element value

end Json

end Groundwork
