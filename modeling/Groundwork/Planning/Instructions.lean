import Groundwork.Planning.Phase

/-!
What a provider is told before it is asked for phases or for a plan, and the schemas that its answers
are to satisfy.
-/

namespace Groundwork.Planning.Instructions

def lines (texts : List String) : String := String.join (texts.map (· ++ "\n"))

def breakIntoPhases : String := lines
  ["You are a **Senior Software Architect** breaking a development goal into atomic, " ++
      "executable phases.",
    "",
    "You only see file metadata (paths, languages, descriptions, function/class counts), " ++
      "not full code.",
    "",
    "Rules:",
    "- Produce between 1 and 7 phases, each independently completable.",
    "- Titles start with an action verb (Add, Implement, Fix, Refactor, Optimize, Update, " ++
      "Create) and stay under 60 characters.",
    "- Descriptions are 4-6 bullet points separated by \"\\n\", each a concrete step.",
    "- relevantFiles may ONLY contain exact paths from the provided context. Never invent " ++
      "files.",
    "- dependencies list ids of earlier phases that must be completed first; prefer none.",
    "- estimatedComplexity and priority are one of low, medium, high.",
    "- category is one of bug_fix, feature, refactor, improvement, documentation.",
    "- reasoning is 1-2 sentences tying the phase to the user's goal.",
    "- Phase ids are \"phase-01\", \"phase-02\", ...",
    "",
    "Respond with JSON only: \x7b\"phases\": [ ... ]\x7d"]

def writePlan : String := lines
  ["You are a **Senior Software Engineer** writing a detailed, actionable implementation " ++
      "plan for one development phase.",
    "",
    "The plan is markdown with these sections:",
    "# Implementation Plan: <phase title>",
    "## Overview",
    "## Prerequisites",
    "## Implementation Steps   (one \"### Step N\" per change, naming the file, the change " ++
      "and the reasoning)",
    "## Integration Points",
    "## Testing Strategy",
    "## Potential Issues & Solutions",
    "## Verification Checklist",
    "",
    "Reference only files from the provided context. Show short code excerpts where they " ++
      "clarify a step.",
    "",
    "Respond with JSON only:",
    "\x7b\"plan\": \"<markdown plan>\", \"instruction\": \"<actionable summary of at most " ++
      "600 characters>\"\x7d"]

def textSchema (choices : List String) : Json :=
  .obj (("type", .str "string") ::
    if choices.isEmpty then [] else [("enum", .strings choices)])

def listSchema (items : Json) : Json := .obj [("type", .str "array"), ("items", items)]

def phaseMembers : List (String × Json) :=
  [("id", textSchema []), ("title", textSchema []), ("description", textSchema []),
    ("relevantFiles", listSchema (textSchema [])), ("dependencies", listSchema (textSchema [])),
    ("estimatedComplexity", textSchema levels), ("priority", textSchema levels),
    ("category", textSchema categories), ("reasoning", textSchema [])]

def objectSchema (members : List (String × Json)) : List (String × Json) :=
  [("type", .str "object"), ("properties", .obj members),
    ("required", .strings (members.map (·.1))), ("additionalProperties", .bool false)]

def phaseSchema : Json := .obj (objectSchema phaseMembers)

def phasesSchema : Json :=
  .obj (("title", .str "phases") :: objectSchema
    [("phases", .obj [("type", .str "array"), ("items", phaseSchema), ("maxItems", .int 7)])])

def planSchema : Json :=
  .obj (("title", .str "plan") :: objectSchema
    [("plan", textSchema []),
      ("instruction", .obj [("type", .str "string"), ("maxLength", .int 600)])])

end Groundwork.Planning.Instructions
