import Groundwork.Json.Order
import Groundwork.Planning.Overview
import Groundwork.Planning.Phase
import Groundwork.Planning.Prompt

/-!
Phases by rule. Each kind of goal has its templates, which are filled with the focus of the goal and
with files of the context.
-/

namespace Groundwork.Planning

def generalWords : List String :=
  ["bug", "error", "exception", "improve", "enhance", "refactor", "function", "class", "method",
    "variable", "module", "user"]

def focusOf (a : PromptAnalysis) : String :=
  (a.areas.find? fun area => !generalWords.contains area).getD "core"

def searchTerms (a : PromptAnalysis) : List String :=
  a.keywords.filter fun keyword => !generalWords.contains keyword

def bullets (steps : List String) : String := Text.join "\n" (steps.map ("- " ++ ·))

def titleOf (s : String) : String := Text.clip 60 s

def orElse (first second : List String) : List String := if first.isEmpty then second else first

def maxPhaseFiles : Int := 5

def filesFor (c : RelevantContext) (terms : List String) : List String :=
  pickFiles c terms maxPhaseFiles true

def matchesFor (c : RelevantContext) (terms : List String) : List String :=
  pickFiles c terms maxPhaseFiles false

def backendTerms : List String :=
  ["api", "service", "controller", "route", "model", "server", "lib", "handler", "db"]

def frontendTerms : List String :=
  ["component", "page", "view", ".tsx", ".jsx", "ui", "app/", "hooks"]

def testTerms : List String := ["test", "spec"]

def errorTerms : List String := ["error", "middleware", "handler", "validation", "exception"]

def sharedTerms : List String := ["util", "helper", "lib", "shared", "common"]

def debugPhases (prompt : String) (c : RelevantContext) (a : PromptAnalysis) : List Phase :=
  let focus := focusOf a
  let scope := filesFor c (searchTerms a)
  let errorFiles := matchesFor c errorTerms
  let fix : Phase :=
    { id := phaseId 0
      title := titleOf s!"Fix {focus} bug"
      description := bullets
        [s!"Reproduce the reported {focus} failure",
          "Trace the failing code path through the relevant files",
          "Correct the faulty logic at its source",
          "Add clear error messages for the failure case"]
      relevantFiles := scope
      complexity := .str a.complexity
      priority := .str "high"
      category := .str "bug_fix"
      reasoning := "Directly resolves the reported problem: " ++ prompt }
  let harden : Phase :=
    { id := phaseId 1
      title := titleOf s!"Harden {focus} error handling"
      description := bullets
        ["Wrap failing async calls in explicit error handling",
          "Validate inputs before they reach the fixed code",
          "Log failures with enough context to diagnose them",
          "Return consistent error responses to callers"]
      relevantFiles := errorFiles
      dependencies := [phaseId 0]
      category := .str "bug_fix"
      reasoning := "Prevents the same class of failure from resurfacing elsewhere." }
  let begun := fix :: if errorFiles.isEmpty then [] else [harden]
  let cover : Phase :=
    { id := phaseId begun.length
      title := titleOf s!"Add regression tests for {focus} fix"
      description := bullets
        ["Write a test that reproduces the original failure",
          "Cover the edge cases around the fix",
          "Run the full suite to confirm nothing else broke",
          "Document the root cause next to the test"]
      relevantFiles := orElse (matchesFor c testTerms) (scope.take 2)
      dependencies := [phaseId 0]
      complexity := .str "low"
      reasoning := "Locks in the fix so the bug cannot silently return." }
  begun ++ [cover]

def featurePhases (prompt : String) (c : RelevantContext) (a : PromptAnalysis) : List Phase :=
  let focus := focusOf a
  let backend := matchesFor c backendTerms
  let frontend := matchesFor c frontendTerms
  let logic : Phase :=
    { id := phaseId 0
      title := titleOf s!"Implement {focus} backend logic"
      description := bullets
        [s!"Define the data shapes the {focus} feature needs",
          "Add service functions implementing the core behaviour",
          "Expose the behaviour through the existing API layer",
          "Validate inputs and handle failure cases"]
      relevantFiles := orElse backend (filesFor c [])
      complexity := .str a.complexity
      priority := .str "high"
      category := .str "feature"
      reasoning := "Provides the core functionality requested: " ++ prompt }
  let begun := if !backend.isEmpty || frontend.isEmpty then [logic] else []
  let screens : Phase :=
    { id := phaseId begun.length
      title := titleOf s!"Create {focus} user interface"
      description := bullets
        [s!"Add components presenting the {focus} feature",
          "Wire the components to the backend calls",
          "Handle loading and error states",
          "Keep styling consistent with existing screens"]
      relevantFiles := frontend
      dependencies := if begun.isEmpty then [] else [phaseId 0]
      category := .str "feature"
      reasoning := "Makes the new functionality reachable by users." }
  let built := begun ++ if frontend.isEmpty then [] else [screens]
  let cover : Phase :=
    { id := phaseId built.length
      title := titleOf s!"Add tests for {focus} feature"
      description := bullets
        ["Unit test the new service functions",
          "Cover invalid input and failure paths",
          "Add an integration test for the main flow",
          "Document how to use the new feature"]
      relevantFiles := orElse (matchesFor c testTerms) ((orElse backend frontend).take 2)
      dependencies := built.map (·.id)
      complexity := .str "low"
      reasoning := "Verifies the feature and keeps it safe to change." }
  built ++ [cover]

def complexityKey (f : ContextFile) : Json :=
  let given := (f.metadata.lookup "complexityScore").getD (.int 0)
  if given.truthy then given else .int 0

/-- The paths of the files, the most complex first. Complexities of different kinds cannot be
compared. -/
def byComplexity (c : RelevantContext) : Except DataFault (List String) :=
  match Json.descending? (c.files.map fun f => (complexityKey f, f.path)) with
  | some paths => .ok paths
  | none => .error .wrongKind

def refactorPhases (prompt : String) (c : RelevantContext) (a : PromptAnalysis) :
    Except DataFault (List Phase) := do
  let focus := focusOf a
  let complexFiles := Text.firstOf maxPhaseFiles (← byComplexity c)
  let shared := matchesFor c sharedTerms
  let restructure : Phase :=
    { id := phaseId 0
      title := titleOf s!"Refactor {focus} module structure"
      description := bullets
        ["Split the most complex files into focused units",
          "Remove duplicated logic between them",
          "Reduce coupling through clearer interfaces",
          "Keep behaviour unchanged"]
      relevantFiles := complexFiles
      complexity := .str (if a.complexity == "high" then "high" else "medium")
      category := .str "refactor"
      reasoning := "Targets the highest-complexity code behind: " ++ prompt }
  let extract : Phase :=
    { id := phaseId 1
      title := titleOf s!"Extract shared {focus} utilities"
      description := bullets
        ["Move reusable helpers into the shared modules",
          "Update imports in the refactored files",
          "Delete the now-unused copies",
          "Add tests for the extracted helpers"]
      relevantFiles := shared
      dependencies := [phaseId 0]
      complexity := .str "low"
      priority := .str "low"
      category := .str "refactor"
      reasoning := "Consolidates logic surfaced by the restructuring." }
  return restructure :: if shared.isEmpty then [] else [extract]

def specificPhases (prompt : String) (c : RelevantContext) (a : PromptAnalysis) : List Phase :=
  let focus := focusOf a
  let scope := filesFor c (searchTerms a)
  [{ id := phaseId 0
     title := titleOf s!"Update {focus} implementation"
     description := bullets
       [s!"Review the current {focus} flow end to end",
         "Apply the requested change in the relevant files",
         "Keep existing callers working",
         "Update inline documentation"]
     relevantFiles := scope
     complexity := .str a.complexity
     priority := .str "high"
     reasoning := "Addresses the specific request: " ++ prompt },
   { id := phaseId 1
     title := titleOf s!"Validate {focus} inputs and errors"
     description := bullets
       ["Add input validation at the entry points",
         "Return clear messages for rejected input",
         "Cover the validation rules with tests",
         "Check error paths for leaked details"]
     relevantFiles := orElse (matchesFor c errorTerms) (scope.take 2)
     dependencies := [phaseId 0]
     complexity := .str "low"
     reasoning := "Makes the updated flow robust against bad input." }]

def flaggedFiles (c : RelevantContext) : List String :=
  let flagged := c.files.filter fun f => ((f.metadata.lookup "hasIssues").getD .null).truthy
  Text.firstOf maxPhaseFiles (flagged.map (·.path))

def improvementPhases (prompt : String) (c : RelevantContext) (a : PromptAnalysis) : List Phase :=
  let focus := focusOf a
  let flagged := flaggedFiles c
  let optimize : Phase :=
    { id := phaseId 0
      title := titleOf s!"Optimize {focus} performance"
      description := bullets
        ["Profile the hot paths in the relevant files",
          "Batch or parallelise independent async calls",
          "Cache repeated expensive lookups",
          "Measure the improvement"]
      relevantFiles := filesFor c (searchTerms a)
      complexity := .str a.complexity
      reasoning := "Improves the area named in the request: " ++ prompt }
  let resolve : Phase :=
    { id := phaseId 1
      title := titleOf s!"Resolve detected issues in {focus}"
      description := bullets
        ["Address the issues flagged during analysis",
          "Remove debug output and hard-coded values",
          "Add missing error handling",
          "Re-run analysis to confirm the fixes"]
      relevantFiles := flagged
      priority := .str "high"
      category := .str "bug_fix"
      reasoning := "Static analysis already points at concrete defects here." }
  optimize :: if flagged.isEmpty then [] else [resolve]

def generalPhases (prompt : String) (c : RelevantContext) (a : PromptAnalysis) : List Phase :=
  [{ id := phaseId 0
     title := "Implement requested changes"
     description := bullets
       ["Review the relevant files",
         "Apply the requested change",
         "Test the result",
         "Update documentation"]
     relevantFiles := filesFor c []
     complexity := .str a.complexity
     reasoning := prompt }]

def phasesByRule (prompt : String) (c : RelevantContext) (a : PromptAnalysis) :
    Except DataFault (List Phase) :=
  match a.kind with
  | "specific" => .ok (specificPhases prompt c a)
  | "feature" => .ok (featurePhases prompt c a)
  | "debug" => .ok (debugPhases prompt c a)
  | "refactor" => refactorPhases prompt c a
  | "improvement" => .ok (improvementPhases prompt c a)
  | _ => .ok (generalPhases prompt c a)

end Groundwork.Planning
