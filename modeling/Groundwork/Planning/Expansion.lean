import Groundwork.Completion.Fence
import Groundwork.Completion.Provider
import Groundwork.Planning.Instructions
import Groundwork.Planning.Overview
import Groundwork.Planning.Phase

/-!
From one phase to a detailed plan. Context for the phase is retrieved by a narrow query, and the plan
comes from a provider; there is nothing that makes up for a failure.
-/

namespace Groundwork

structure DetailedPlan where
  plan : String
  instruction : String
  deriving DecidableEq, Repr

def DetailedPlan.toJson (p : DetailedPlan) : Json :=
  .obj [("plan", .str p.plan), ("instruction", .str p.instruction)]

namespace Planning

/-- A label as a part of a query: a text, or nothing for a value that counts as false. -/
def queryPart : Json → Except DataFault String
  | .str s => .ok s
  | value => if value.truthy then .error .wrongKind else .ok ""

def queryPaths (files : List Json) : List String :=
  (files.take 3).filterMap fun f =>
    match f.get? "path" with
    | some path => if path.truthy then some path.shown else none
    | none => none

def planQuery (p : Phase) (files : List Json) : Except DataFault String := do
  let category ← queryPart p.category
  return Text.join " " <| ([p.title, category, Text.clip 200 p.description] ++
    queryPaths files).filter (· != "")

def codeFence : String := String.ofList (List.replicate 3 (Char.ofNat 96))

def planFileLines (f : ContextFile) : List String :=
  ["File: " ++ f.path ++ " (" ++ orUnknown f.language ++ ")", codeFence, Text.clip 500 f.content,
    codeFence]

def planPrompt (p : Phase) (files : List ContextFile) : String :=
  let listed := Text.join ", " p.relevantFiles
  Text.join "\n" <|
    ["Phase: " ++ p.title, "Category: " ++ p.category.shown,
      "Complexity: " ++ p.complexity.shown ++ "  Priority: " ++ p.priority.shown,
      "Description:", p.description, "", "Reasoning: " ++ p.reasoning, "",
      "Phase files: " ++ (if listed.isEmpty then "none listed" else listed), "",
      "Relevant files:"] ++
    files.flatMap planFileLines ++
    if files.isEmpty then ["(no matching files retrieved)"] else []

def queryKind : Json → Except DataFault String
  | .str "bug_fix" => .ok "debug"
  | .str "feature" => .ok "feature"
  | .str "refactor" => .ok "refactor"
  | .arr _ => .error .wrongKind
  | .obj _ => .error .wrongKind
  | _ => .ok "improvement"

def planCall (settings : PlannerSettings) (p : Phase) (files : List ContextFile) :
    Completion.Call :=
  { system := Instructions.writePlan
    user := planPrompt p files
    temperature := settings.planTemperature
    maxTokens := settings.planMaxTokens
    schema := some Instructions.planSchema }

def planOfJson : Json → Except Failure DetailedPlan
  | .obj members =>
    match members.lookup "plan", members.lookup "instruction" with
    | some (.str plan), some (.str instruction) =>
      if (Text.strip plan).isEmpty then .error (.planning .unusablePlan)
      else .ok ⟨Text.strip plan, Text.clip 600 (Text.strip instruction)⟩
    | _, _ => .error (.planning .unusablePlan)
  | _ => .error (.planning .unusablePlan)

def planOfOutcome (outcome : Except Failure String) : Except Failure DetailedPlan :=
  match outcome.bind Completion.parseJson with
  | .ok answer => planOfJson answer
  | .error failure =>
    .error (if failure.isCompletion then .planning .unusablePlan else failure)

/-- The plan of a phase. `find` retrieves the context of a query of some kind. -/
def expandPhase {m : Type → Type} [Monad m] (settings : PlannerSettings)
    (find : String → String → m RelevantContext)
    (ask : Completion.Call → m (Except Failure String)) (p : Phase) (files : List Json) :
    m (Except Failure DetailedPlan) := do
  match planQuery p files, queryKind p.category with
  | .ok query, .ok kind =>
    let context ← find query kind
    return planOfOutcome (← ask (planCall settings p (context.files.take 3)))
  | .error fault, _ => return .error (.data fault)
  | _, .error fault => return .error (.data fault)

end Planning

end Groundwork
