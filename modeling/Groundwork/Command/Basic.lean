import Groundwork.Command.Arguments
import Groundwork.Decimal.Reading
import Groundwork.FilePath
import Groundwork.Request.Model

/-!
The commands and how they are written on a command line: options for all commands, the name of a
command, and its own arguments.
-/

namespace Groundwork

def FileReference.ofText (raw : String) : Except Command.Misuse FileReference :=
  let similarityOf (s : String) : Except Command.Misuse Float :=
    match Decimal.readFloat? (Text.asciiDigits s) with
    | some x => .ok x
    | none => .error (.badValue ("Invalid similarity in '" ++ raw ++ "'"))
  let language (s : String) : Option String := if s.isEmpty then none else some s
  match (Text.split ':' raw).reverse with
  | [] => .ok ⟨raw, none, 1.0⟩
  | [path] => .ok ⟨path, none, 1.0⟩
  | [second, path] => .ok ⟨path, language second, 1.0⟩
  | last :: second :: first => do
    return ⟨Text.join ":" first.reverse, language second, ← similarityOf last⟩

inductive Command where
  | version
  | index (url branch : String)
  | search (url query branch : String) (limit : Int)
  | phases (nspace prompt : String) (kind strategy : Option String)
  | plan (nspace : String) (phaseFile : FilePath) (files : List String)
  | context (nspace prompt : String) (kind : Option String)
  | analyzePrompt (prompt : String)
  | graph (folder : FilePath) (format : String) (output : Option FilePath) (focus : String)
  | setLlm (provider : String) (model apiKey endpoint : Option String)
  | showConfig

structure Invocation where
  configFile : Option FilePath := none
  asJson : Bool := false
  command : Command

namespace Command

def sharedOptions : List OptionSpec :=
  [⟨"version", ["--version", "-v"], false⟩, ⟨"verbose", ["--verbose", "-V"], false⟩,
    ⟨"config", ["--config", "-c"], true⟩, ⟨"json", ["--json"], false⟩]

def branchOption : OptionSpec := ⟨"branch", ["--branch", "-b"], true⟩

def kindOption : OptionSpec := ⟨"context-type", ["--context-type", "-t"], true⟩

def optionsOf : String → Option (List OptionSpec)
  | "index" => some [branchOption]
  | "search" => some [branchOption, ⟨"limit", ["--limit", "-n"], true⟩]
  | "phases" => some [kindOption, ⟨"strategy", ["--strategy", "-s"], true⟩]
  | "plan" => some [⟨"file", ["--file", "-f"], true⟩]
  | "context" => some [kindOption]
  | "analyze-prompt" => some []
  | "graph" =>
    some [⟨"format", ["--format", "-f"], true⟩, ⟨"output", ["--output", "-o"], true⟩,
      ⟨"focus", ["--focus"], true⟩]
  | "set-llm" =>
    some [⟨"model", ["--model", "-m"], true⟩, ⟨"api-key", ["--api-key", "-k"], true⟩,
      ⟨"endpoint", ["--endpoint", "-e"], true⟩]
  | "show-config" => some []
  | _ => none

def one : List String → Except Misuse String
  | [] => .error .missingArgument
  | [a] => .ok a
  | _ :: b :: _ => .error (.extraArgument b)

def two : List String → Except Misuse (String × String)
  | [a, b] => .ok (a, b)
  | _ :: _ :: c :: _ => .error (.extraArgument c)
  | _ => .error .missingArgument

def noArgument : List String → Except Misuse Unit
  | [] => .ok ()
  | a :: _ => .error (.extraArgument a)

def limitOf (a : Arguments) : Except Misuse Int :=
  match a.value? "limit" with
  | none => .ok 10
  | some s =>
    match Decimal.readInt? (Text.asciiDigits s) with
    | some n => .ok n
    | none => .error (.badValue s)

def ofArguments (name : String) (a : Arguments) : Except Misuse Command :=
  let branch := (a.value? "branch").getD "main"
  let kind := a.value? "context-type"
  match name with
  | "index" => do return index (← one a.positional) branch
  | "search" => do
    let (url, query) ← two a.positional
    return search url query branch (← limitOf a)
  | "phases" => do
    let (nspace, prompt) ← two a.positional
    return phases nspace prompt kind (a.value? "strategy")
  | "plan" => do
    let (nspace, file) ← two a.positional
    return plan nspace (.ofText file) (a.values "file")
  | "context" => do
    let (nspace, prompt) ← two a.positional
    return context nspace prompt kind
  | "analyze-prompt" => do return analyzePrompt (← one a.positional)
  | "graph" => do
    return graph (.ofText (← one a.positional)) ((a.value? "format").getD "json")
      ((a.value? "output").map .ofText) ((a.value? "focus").getD "")
  | "set-llm" => do
    return setLlm (← one a.positional) (a.value? "model") (a.value? "api-key")
      (a.value? "endpoint")
  | "show-config" => do
    noArgument a.positional
    return showConfig
  | _ => .error (.unknownCommand name)

end Command

def Invocation.read (args : List String) : Except Command.Misuse Invocation := do
  let shared ← Command.Arguments.read Command.sharedOptions false args
  let configFile := (shared.value? "config").map FilePath.ofText
  let asJson := shared.has "json"
  if shared.has "version" then return { command := .version }
  match shared.positional with
  | [] => throw .missingCommand
  | name :: rest =>
    match Command.optionsOf name with
    | none => throw (.unknownCommand name)
    | some options =>
      let own ← Command.Arguments.read options true rest
      return { configFile, asJson, command := ← Command.ofArguments name own }

end Groundwork
