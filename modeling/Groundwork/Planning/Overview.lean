import Groundwork.Retrieval.Context

/-!
What a planner sees of a context: languages, file types and the first files.
-/

namespace Groundwork

structure TopFile where
  path : String
  language : Option String
  similarity : Float

def TopFile.toJson (f : TopFile) : Json :=
  .obj [("path", .str f.path), ("language", .orNull (f.language.map .str)),
    ("similarity", .float f.similarity)]

structure Overview where
  total : Int
  languages : List String
  fileTypes : List String
  topFiles : List TopFile

def Overview.toJson (o : Overview) : Json :=
  .obj [("total_files_found", .int o.total), ("languages_found", .strings o.languages),
    ("file_types", .strings o.fileTypes), ("top_relevant_files", .arr (o.topFiles.map (·.toJson)))]

namespace RelevantContext

def fileType (path : String) : String :=
  let suffix := (FilePath.ofText path).suffix
  let type := String.ofList (suffix.toList.dropWhile (· == '.'))
  if type.isEmpty then "unknown" else type

def languages (c : RelevantContext) : List String :=
  Text.distinct ((c.files.filterMap (·.language)).filter (· != ""))

def fileTypes (c : RelevantContext) : List String := Text.distinct (c.paths.map fileType)

/-- Similarities are shown with two places; a zero has no sign. -/
def topFile (f : ContextFile) : TopFile :=
  ⟨f.path, f.language,
    Decimal.roundTo 2 (if f.similarity == 0.0 then 0.0 else f.similarity)⟩

def overview (c : RelevantContext) (top : Int) : Overview :=
  ⟨c.total, c.languages, c.fileTypes, (Text.firstOf top c.files).map topFile⟩

end RelevantContext

namespace Planning

def orUnknown : Option String → String
  | some s => if s.isEmpty then "unknown" else s
  | none => "unknown"

def fileLine (f : ContextFile) : String :=
  "- " ++ f.path ++ " (" ++ orUnknown f.language ++ ", similarity " ++
    Decimal.fixed 2 f.similarity ++ "): " ++ f.description.getD ""

def listLine (label : String) (texts : List String) : List String :=
  if texts.isEmpty then [] else [label ++ Text.join ", " texts]

def phasePrompt (prompt : String) (c : RelevantContext) : String :=
  Text.join "\n" <|
    ["Context Summary:", "- Total Files: " ++ toString c.total] ++
    listLine "- Languages: " c.languages ++ listLine "- File Types: " c.fileTypes ++
    ["", "Relevant files (use ONLY these paths in relevantFiles):"] ++ c.files.map fileLine ++
    ["", "User Prompt: " ++ prompt]

/-- The paths with one of the terms in them; the first paths if there are no terms or, where that
is wanted, none matches. -/
def pickFiles (c : RelevantContext) (terms : List String) (limit : Int) (fallback : Bool) :
    List String :=
  let matched := c.paths.filter fun path => Text.containsAny (Text.lower path) terms
  if !terms.isEmpty && (!matched.isEmpty || !fallback) then Text.firstOf limit matched
  else if fallback then Text.firstOf limit c.paths
  else []

end Planning

end Groundwork
