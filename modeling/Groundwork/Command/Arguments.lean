import Groundwork.Text.Basic

/-!
Options and positional arguments of a command line. An option has long names and one-letter names; the
latter can be joined behind one dash. A bare double dash ends the options.
-/

namespace Groundwork.Command

structure OptionSpec where
  key : String
  names : List String
  takesValue : Bool := true

inductive Misuse where
  | unknownOption (name : String)
  | missingValue (name : String)
  | unwantedValue (name : String)
  | unknownCommand (name : String)
  | missingCommand
  | missingArgument
  | extraArgument (text : String)
  | badValue (reason : String)
  deriving DecidableEq, Repr

structure Arguments where
  options : List (String × String) := []
  positional : List String := []

namespace Arguments

def value? (a : Arguments) (key : String) : Option String := a.options.reverse.lookup key

def values (a : Arguments) (key : String) : List String :=
  a.options.filterMap fun (k, v) => if k = key then some v else none

def has (a : Arguments) (key : String) : Bool := (a.value? key).isSome

end Arguments

def find? (specs : List OptionSpec) (name : String) : Option OptionSpec :=
  specs.find? (·.names.contains name)

abbrev Taken := List (String × String) × List String

def takeOption (spec : OptionSpec) (name : String) (attached : Option String)
    (rest : List String) : Except Misuse Taken :=
  match spec.takesValue, attached, rest with
  | true, some value, _ => .ok ([(spec.key, value)], rest)
  | true, none, value :: rest => .ok ([(spec.key, value)], rest)
  | true, none, [] => .error (.missingValue name)
  | false, some _, _ => .error (.unwantedValue name)
  | false, none, _ => .ok ([(spec.key, "")], rest)

def splitValue (arg : String) : String × Option String :=
  let name := arg.toList.takeWhile (· != '=')
  match arg.toList.drop name.length with
  | _ :: value => (String.ofList name, some (String.ofList value))
  | [] => (arg, none)

/-- One-letter options behind one dash. What follows one that takes a value is its value. -/
def takeLetters (specs : List OptionSpec) (rest : List String) : List Char → Except Misuse Taken
  | [] => .ok ([], rest)
  | letter :: letters =>
    let name := String.ofList ['-', letter]
    match find? specs name with
    | none => .error (.unknownOption name)
    | some spec =>
      if spec.takesValue then
        takeOption spec name (if letters.isEmpty then none else some (String.ofList letters)) rest
      else do
        let (more, rest) ← takeLetters specs rest letters
        return ((spec.key, "") :: more, rest)

def takeArgument (specs : List OptionSpec) (arg : String) (rest : List String) :
    Except Misuse Taken :=
  if Text.startsWith arg "--" then
    let (name, attached) := splitValue arg
    match find? specs name with
    | some spec => takeOption spec name attached rest
    | none => .error (.unknownOption name)
  else takeLetters specs rest (arg.toList.drop 1)

def isOption (arg : String) : Bool := Text.startsWith arg "-" && arg.length > 1

/-- Reads arguments. Unless `mixed` holds, the first one that is no option ends the options. -/
def readArguments (specs : List OptionSpec) (mixed : Bool) :
    Nat → List String → Except Misuse Arguments
  | 0, args => .ok { positional := args }
  | _, [] => .ok {}
  | fuel + 1, arg :: rest =>
    if arg = "--" then .ok { positional := rest }
    else if isOption arg then do
      let (options, rest) ← takeArgument specs arg rest
      let last ← readArguments specs mixed fuel rest
      return { last with options := options ++ last.options }
    else if mixed then do
      let last ← readArguments specs mixed fuel rest
      return { last with positional := arg :: last.positional }
    else .ok { positional := arg :: rest }

def Arguments.read (specs : List OptionSpec) (mixed : Bool) (args : List String) :
    Except Misuse Arguments :=
  readArguments specs mixed (args.length + 1) args

end Groundwork.Command
