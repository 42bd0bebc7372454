import Groundwork.Completion.Provider
import Groundwork.Record

/-!
What a provider is asked for the summary of a file: what is known about the file, and the start of its
text.
-/

namespace Groundwork

structure SummaryRequest where
  path : String
  content : String
  language : String
  record : FileRecord

namespace Summary

open Text

def lines (texts : List String) : String := String.join (texts.map (· ++ "\n"))

def instructions : String := lines
  ["You are a **Senior Technical Analyst**. Analyze the given code file and produce a " ++
      "concise, structured technical summary.",
    "",
    "### GOAL",
    "Explain what the file does, how it works, what it depends on, and what might break or " ++
      "need fixing.",
    "",
    "**Purpose:** what this file does",
    "**Components:** key functions/classes",
    "**Dependencies:** external modules/APIs",
    "**Issues:** code flaws or \"None detected\"",
    "**Impact:** what depends on it",
    "",
    "Now analyze the provided code file and produce the description."]

def roleLines (path : String) : List String :=
  if containsAny path ["api/", "route."] then ["- API endpoint handling HTTP requests"]
  else if contains path "component" || endsWith path ".tsx" then ["- React UI component"]
  else if contains path "service" then ["- Business logic service layer"]
  else if contains path "middleware" then ["- Request/response middleware"]
  else if contains path "model" then ["- Data model or database schema"]
  else if containsAny path ["util", "helper"] then ["- Utility/helper functions"]
  else []

def complexityLines (r : FileRecord) : List String :=
  if 15 < r.score then
    ["- HIGH COMPLEXITY WARNING: complexity score = " ++ toString r.score]
  else []

def functionLines (r : FileRecord) : List String :=
  if r.functions.isEmpty then []
  else ["- Functions: " ++ join ", " ((r.functions.take 5).map (·.name))]

def issueLine (i : Issue) : String :=
  "- Detected issue (" ++ i.severity.name ++ "): " ++ i.description

def contextOf (r : FileRecord) : String :=
  let known := roleLines (lower r.path) ++ complexityLines r ++ functionLines r ++
    (r.issueList.take 5).map issueLine
  if known.isEmpty then "- General purpose code file" else join "\n" known

def snippet (limit : Int) (text : String) : String :=
  if limit < text.toList.length then cut limit text ++ "\n... (truncated)" else text

def orNone (texts : List String) : String :=
  let listed := join ", " texts
  if listed.isEmpty then "None" else listed

def codeFence : String := String.ofList (List.replicate 3 (Char.ofNat 96))

def prompt (request : SummaryRequest) (contentChars : Int) : String :=
  let r := request.record
  join "\n"
    ["Analyze this " ++ request.language ++
        " file and generate a structured technical description.",
      "",
      "## FILE INFORMATION",
      "**File Path:** " ++ request.path,
      "**Language:** " ++ request.language,
      "**Functions:** " ++ toString r.functions.length,
      "**Classes:** " ++ toString r.classes.length,
      "**Lines of Code:** " ++ toString r.linesOfCode,
      "**Imports:** " ++ orNone (r.imports.take 8),
      "**Tags:** " ++ orNone r.sortedTags,
      "",
      "## FILE CONTEXT",
      contextOf r,
      "",
      "## CODE SNIPPET",
      codeFence ++ request.language,
      snippet contentChars request.content,
      codeFence,
      "",
      "Generate the technical description following the required format."]

/-- An empty model stands for the model of the provider. -/
def call (settings : SummarySettings) (request : SummaryRequest) : Completion.Call :=
  { system := instructions
    user := prompt request settings.contentChars
    temperature := settings.temperature
    maxTokens := settings.maxTokens
    model := if settings.model.truthy then some settings.model else none }

end Summary

end Groundwork
