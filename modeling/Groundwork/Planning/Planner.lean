import Groundwork.Completion.Fence
import Groundwork.Completion.Provider
import Groundwork.Planning.Instructions
import Groundwork.Planning.Normal
import Groundwork.Planning.Templates

/-!
Phases for a goal, by rule or by a provider. Whatever a provider fails with or whatever it answers
that is of no use is made up for by the rules, if that is wanted. The number of phases is capped, and
dependencies on phases that were cut off go with them.
-/

namespace Groundwork.Planning

def phaseLimit (settings : PlannerSettings) : Int := max 1 (min maxPhases settings.maxPhases)

def capPhases (limit : Int) (phases : List Phase) : List Phase :=
  let kept := Text.firstOf limit phases
  kept.map fun p =>
    { p with dependencies := p.dependencies.filter ((kept.map (·.id)).contains) }

def phaseCall (settings : PlannerSettings) (prompt : String) (c : RelevantContext) :
    Completion.Call :=
  { system := Instructions.breakIntoPhases
    user := phasePrompt prompt c
    temperature := settings.temperature
    maxTokens := settings.maxTokens
    schema := some Instructions.phasesSchema }

def phasesOfText (settings : PlannerSettings) (c : RelevantContext) (text : String) :
    Except Failure (List Phase) := do
  normalizePhases (← Completion.parseJson text) c.paths (min maxPhases settings.maxPhases)

def rulePhases (prompt : String) (c : RelevantContext) (a : PromptAnalysis) :
    Except Failure (List Phase) :=
  match phasesByRule prompt c a with
  | .ok phases => .ok phases
  | .error fault => .error (.data fault)

def recover (settings : PlannerSettings) (prompt : String) (c : RelevantContext)
    (a : PromptAnalysis) : Except Failure (List Phase) → Except Failure (List Phase)
  | .ok phases => .ok phases
  | .error failure =>
    if !failure.isCompletion then .error failure
    else if settings.fallbackToRules then rulePhases prompt c a
    else .error (.planning (.phasesFailed failure.message))

abbrev Ask (m : Type → Type) := Completion.Call → m (Except Failure String)

def proposedPhases {m : Type → Type} [Monad m] (settings : PlannerSettings)
    (ask : Option (Ask m)) (prompt : String) (c : RelevantContext) (a : PromptAnalysis) :
    m (Except Failure (List Phase)) := do
  match ask with
  | none =>
    return if settings.fallbackToRules then rulePhases prompt c a
      else .error (.planning .noProvider)
  | some ask =>
    return recover settings prompt c a
      ((← ask (phaseCall settings prompt c)).bind (phasesOfText settings c))

def strategyName (settings : PlannerSettings) (strategy : Option String) : String :=
  let chosen := strategy.getD ""
  Text.lower (if chosen.isEmpty then settings.strategy else chosen)

/-- The phases of a goal. Every strategy but that of the provider means the rules. -/
def generatePhases {m : Type → Type} [Monad m] (settings : PlannerSettings)
    (ask : Option (Ask m)) (prompt : String) (c : RelevantContext)
    (analysis : Option PromptAnalysis) (strategy : Option String) :
    m (Except Failure (List Phase)) := do
  let a := analysis.getD (analyzePrompt prompt)
  let phases ←
    if strategyName settings strategy == "llm" then proposedPhases settings ask prompt c a
    else pure (rulePhases prompt c a)
  return phases.map (capPhases (phaseLimit settings))

end Groundwork.Planning
