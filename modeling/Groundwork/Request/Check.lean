import Groundwork.Decimal.Reading
import Groundwork.Json.Value

/-!
Checking of data against constraints. A check gives the value in its own type or all violations, each
with the place that it belongs to; checks of several members are put together so that none hides the
violations of another.
-/

namespace Groundwork.Request

inductive Problem where
  | required
  | notText
  | notList
  | notObject (model : String)
  | tooShort (least : Nat)
  | tooLong (most : Nat)
  | notAmong (choices : List String)
  | below (least : Int)
  | above (most : Int)
  | tooFewItems (least actual : Nat)
  | tooManyItems (most actual : Nat)
  | notLocation
  | notInteger
  | fractional
  | unreadableInteger
  | hugeInteger
  | notFinite
  | notNumber
  | unreadableNumber
  deriving DecidableEq, Repr

def counted (n : Nat) (what : String) : String :=
  toString n ++ " " ++ what ++ if n = 1 then "" else "s"

def alternatives : List String → String
  | [] => ""
  | [last] => "'" ++ last ++ "'"
  | [a, last] => "'" ++ a ++ "' or '" ++ last ++ "'"
  | a :: rest => "'" ++ a ++ "', " ++ alternatives rest

def Problem.message : Problem → String
  | required => "Field required"
  | notText => "Input should be a valid string"
  | notList => "Input should be a valid list"
  | notObject model => "Input should be a valid dictionary or instance of " ++ model
  | tooShort least => "String should have at least " ++ counted least "character"
  | tooLong most => "String should have at most " ++ counted most "character"
  | notAmong choices => "Input should be " ++ alternatives choices
  | below least => "Input should be greater than or equal to " ++ toString least
  | above most => "Input should be less than or equal to " ++ toString most
  | tooFewItems least actual =>
    "List should have at least " ++ counted least "item" ++ " after validation, not " ++
      toString actual
  | tooManyItems most actual =>
    "List should have at most " ++ counted most "item" ++ " after validation, not " ++
      toString actual
  | notLocation => "Value error, must be a repository URL or path"
  | notInteger => "Input should be a valid integer"
  | fractional => "Input should be a valid integer, got a number with a fractional part"
  | unreadableInteger => "Input should be a valid integer, unable to parse string as an integer"
  | hugeInteger => "Unable to parse input string as an integer, exceeded maximum size"
  | notFinite => "Input should be a finite number"
  | notNumber => "Input should be a valid number"
  | unreadableNumber => "Input should be a valid number, unable to parse string as a number"

structure Violation where
  path : List String
  problem : Problem
  deriving DecidableEq, Repr

def Violation.text (v : Violation) : String :=
  (if v.path.isEmpty then "request" else Text.join "." v.path) ++ ": " ++ v.problem.message

def fail {α : Type} (problem : Problem) : Except (List Violation) α := .error [⟨[], problem⟩]

def within {α : Type} (step : String) : Except (List Violation) α → Except (List Violation) α
  | .ok value => .ok value
  | .error violations => .error (violations.map fun v => ⟨step :: v.path, v.problem⟩)

def both {α β : Type} :
    Except (List Violation) α → Except (List Violation) β → Except (List Violation) (α × β)
  | .ok a, .ok b => .ok (a, b)
  | .error vs, .ok _ => .error vs
  | .ok _, .error ws => .error ws
  | .error vs, .error ws => .error (vs ++ ws)

/-- All results of a list, numbered from zero, or the violations of all. -/
def each {α : Type} (check : Json → Except (List Violation) α) :
    Nat → List Json → Except (List Violation) (List α)
  | _, [] => .ok []
  | i, item :: rest =>
    (both (within (toString i) (check item)) (each check (i + 1) rest)).map fun (a, as) => a :: as

def find? (names : List String) (m : Json.Members) : Option (String × Json) :=
  names.findSome? fun name => (m.lookup name).map (name, ·)

/-- Checks a member that has to be there. A missing one is reported under its first name. -/
def field {α : Type} (names : List String) (check : Json → Except (List Violation) α)
    (m : Json.Members) : Except (List Violation) α :=
  match find? names m with
  | some (name, value) => within name (check value)
  | none => within (names.headD "") (fail .required)

def fieldOr {α : Type} (default : α) (names : List String)
    (check : Json → Except (List Violation) α) (m : Json.Members) : Except (List Violation) α :=
  match find? names m with
  | some (name, value) => within name (check value)
  | none => .ok default

def object {α : Type} (model : String) (check : Json.Members → Except (List Violation) α) :
    Json → Except (List Violation) α
  | .obj members => check members
  | _ => fail (.notObject model)

def textBetween (least : Nat) (most : Option Nat) : Json → Except (List Violation) String
  | .str s =>
    let length := s.toList.length
    if length < least then fail (.tooShort least)
    else match most with
      | some most => if most < length then fail (.tooLong most) else .ok s
      | none => .ok s
  | _ => fail .notText

def text : Json → Except (List Violation) String := textBetween 0 none

def among (choices : List String) : Json → Except (List Violation) String
  | .str s => if choices.contains s then .ok s else fail (.notAmong choices)
  | _ => fail (.notAmong choices)

def orNull {α : Type} (check : Json → Except (List Violation) α) :
    Json → Except (List Violation) (Option α)
  | .null => .ok none
  | value => (check value).map some

def list {α : Type} (check : Json → Except (List Violation) α) :
    Json → Except (List Violation) (List α)
  | .arr items => each check 0 items
  | _ => fail .notList

/-- A list of at least and at most so many items. Too many of them are not looked at. -/
def listBetween {α : Type} (least most : Nat) (check : Json → Except (List Violation) α) :
    Json → Except (List Violation) (List α)
  | .arr items =>
    if most < items.length then fail (.tooManyItems most items.length)
    else match each check 0 items with
      | .ok values =>
        if values.length < least then fail (.tooFewItems least values.length) else .ok values
      | .error violations => .error violations
  | _ => fail .notList

/-- Blanks apart from the control characters that separate fields. -/
def isSpace (c : Char) : Bool := Text.isBlank c && !(28 ≤ c.toNat && c.toNat ≤ 31)

def dropUnderscores? (cs : List Char) : Option (List Char) :=
  let pieces := Text.splitChars '_' cs
  if pieces.any (·.isEmpty) then none else some pieces.flatten

def dropZeroFraction (cs : List Char) : List Char :=
  let after := cs.dropWhile (· != '.')
  if !after.isEmpty && (after.drop 1).all (· == '0') then cs.takeWhile (· != '.') else cs

def digits? (cs : List Char) : Option Nat :=
  if !cs.isEmpty && cs.all Text.isAsciiDigit then some (Decimal.digitsValue cs) else none

def readInteger? (s : String) : Option Int := do
  let plain ← dropUnderscores? (dropZeroFraction (Text.trim isSpace s.toList))
  match plain with
  | '-' :: rest => return -(← digits? rest : Int)
  | '+' :: rest => return (← digits? rest : Int)
  | rest => return (← digits? rest : Int)

def integerOfFloat (x : Float) : Except (List Violation) Int :=
  match Decimal.Exact.ofFloat x with
  | .finite negative mantissa exponent =>
    let size := (mantissa : Rat) * (2 : Rat) ^ exponent
    if size.den != 1 then fail .fractional
    else if (Nat.pow 2 63 : Rat) ≤ size then fail .hugeInteger
    else .ok (if negative then -size.num else size.num)
  | _ => fail .notFinite

def integer : Json → Except (List Violation) Int
  | .int n => .ok n
  | .bool b => .ok (if b then 1 else 0)
  | .float x => integerOfFloat x
  | .str s => match readInteger? s with
    | some n => .ok n
    | none => fail .unreadableInteger
  | _ => fail .notInteger

def integerBetween (least most : Int) (value : Json) : Except (List Violation) Int := do
  let n ← integer value
  if most < n then fail (.above most) else if n < least then fail (.below least) else return n

def number : Json → Except (List Violation) Float
  | .float x => .ok x
  | .int n => .ok (Decimal.toFloat (n < 0) n.natAbs 0)
  | .bool b => .ok (if b then 1.0 else 0.0)
  | .str s => match Decimal.readFloat? s with
    | some x => .ok x
    | none => fail .unreadableNumber
  | _ => fail .notNumber

def numberBetween (least most : Int) (value : Json) : Except (List Violation) Float := do
  let x ← number value
  if !(x ≤ Float.ofInt most) then fail (.above most)
  else if !(Float.ofInt least ≤ x) then fail (.below least)
  else return x

end Groundwork.Request
