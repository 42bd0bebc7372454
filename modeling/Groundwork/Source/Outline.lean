import Groundwork.Record
import Groundwork.Source.Syntax

/-!
The outline of a source file: what its top level imports, exports and declares. What is nested in a
body is no part of it.
-/

namespace Groundwork.Source

def Node.declaredName (n : Node) : String :=
  match n.child? "name" with
  | some name => name.text
  | none => FunctionInfo.anonymous

/-- The text of a literal without the quotes at its ends, of which any number is taken off. -/
def unquoted (text : String) : String := Text.stripChars ['"', '\'', Char.ofNat 96] text

structure Outline where
  imports : List String := []
  exports : List String := []
  functions : List FunctionInfo := []
  classes : List ClassInfo := []
  variableNames : List String := []
  deriving DecidableEq, Repr

namespace Outline

/-- Adds an exported name; an empty or known one changes nothing. -/
def addExport (name : String) (o : Outline) : Outline :=
  if name.isEmpty || o.exports.contains name then o
  else { o with exports := o.exports ++ [name] }

def addExports (names : List String) (o : Outline) : Outline :=
  names.foldl (fun o name => o.addExport name) o

def listed (what : String) (names : List String) : List String :=
  if names.isEmpty then [] else [what ++ " " ++ Text.join ", " names]

def describe (o : Outline) : String :=
  let parts := listed "functions" (o.functions.map (·.name)) ++
    listed "classes" (o.classes.map (·.name)) ++ listed "variables" o.variableNames
  if !parts.isEmpty then "Contains " ++ Text.join " and " parts ++ "."
  else if !o.imports.isEmpty then "Imports modules: " ++ Text.join ", " o.imports
  else if !o.exports.isEmpty then "Exports: " ++ Text.join ", " o.exports
  else "File contains basic code structure"

end Outline

end Groundwork.Source
