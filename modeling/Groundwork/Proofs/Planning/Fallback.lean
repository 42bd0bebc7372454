import Groundwork.Proofs.Planning.Generated

/-!
What becomes of the answer of a provider where the rules make up for it. An answer with items to use
gives phases, and one without is replaced by the rules. But neither holds of an answer with a number
that is too long or with a broken item: it ends the planning, although its faults are the provider's.
The rules end it too when they have to order files by a number and a text.
-/

namespace Groundwork.Planning

variable {σ : Type} {settings : PlannerSettings} {prompt : String} {c : RelevantContext}
  {a : PromptAnalysis} {phases : List Phase}

def outcomeOf (settings : PlannerSettings) (ask : Option (Ask (StateM σ))) (prompt : String)
    (c : RelevantContext) (world : σ) : Option (Except Failure String) :=
  ask.map fun ask => ((ask (phaseCall settings prompt c)).run world).1

def HasItems (outcome : Option (Except Failure String)) (items : List Json) : Prop :=
  ∃ text answer, outcome = some (.ok text) ∧ Completion.parseJson text = .ok answer ∧
    phaseItems? answer = some items

inductive Stops (settings : PlannerSettings) (outcome : Option (Except Failure String)) :
    DataFault → Prop
  | unread {text : String} {fault : DataFault} : outcome = some (.ok text) →
      Completion.parseJson text = .error (.data fault) → Stops settings outcome fault
  | broken {items : List Json} : HasItems outcome items →
      BreaksOff (min maxPhases settings.maxPhases) items → Stops settings outcome .wrongKind

def Proposes (settings : PlannerSettings) (outcome : Option (Except Failure String)) : Prop :=
  ∃ items, HasItems outcome items ∧ ¬ BreaksOff (min maxPhases settings.maxPhases) items ∧
    0 < settings.maxPhases ∧ ∃ item ∈ items, ItemKind.of item = .usable

section Answers

variable {text : String}

theorem parseJson_error {failure : Failure} (unread : Completion.parseJson text = .error failure) :
    (∃ fault, failure = .data fault) ∨ ∃ fault, failure = .generation fault := by
  unfold Completion.parseJson at unread
  extract_lets inner at unread
  split at unread
  · cases unread
    exact Or.inr ⟨_, rfl⟩
  · split at unread
    · simp at unread
    · cases unread
      unfold Completion.failureOf
      split
      · exact Or.inl ⟨_, rfl⟩
      · exact Or.inr ⟨_, rfl⟩

theorem normalizePhases_cases {answer : Json} {items : List Json} (allowed : List String)
    (limit : Int) (given : phaseItems? answer = some items) :
    (BreaksOff limit items ∧ normalizePhases answer allowed limit = .error (.data .wrongKind)) ∨
    (¬ BreaksOff limit items ∧ (0 < limit ∧ ∃ item ∈ items, ItemKind.of item = .usable) ∧
      ∃ phases, normalizePhases answer allowed limit = .ok phases ∧ phases ≠ []) ∨
    (¬ BreaksOff limit items ∧ ¬ (0 < limit ∧ ∃ item ∈ items, ItemKind.of item = .usable) ∧
      normalizePhases answer allowed limit = .error (.generation .noUsablePhases)) := by
  have start : limit - (0 : Nat) = limit := by omega
  unfold normalizePhases
  simp only [given]
  rcases start ▸ takePhases_cases allowed limit items 0 [] with ⟨breaks, failed⟩ | ⟨whole, phases, taken, useful⟩
  · exact Or.inl ⟨breaks, by rw [failed]⟩
  · rw [taken]
    cases phases with
    | nil => exact Or.inr (Or.inr ⟨whole, by simpa using useful, rfl⟩)
    | cons p rest => exact Or.inr (Or.inl ⟨whole, by simpa using useful, p :: rest, rfl, by simp⟩)

theorem Stops.answered {outcome : Option (Except Failure String)} {fault : DataFault}
    (stops : Stops settings outcome fault) : ∃ text, outcome = some (.ok text) := by
  cases stops with
  | unread same _ => exact ⟨_, same⟩
  | broken hasItems _ =>
      obtain ⟨text, _, same, _⟩ := hasItems
      exact ⟨text, same⟩

theorem Proposes.answered {outcome : Option (Except Failure String)}
    (proposes : Proposes settings outcome) : ∃ text, outcome = some (.ok text) := by
  obtain ⟨_, ⟨text, _, same, _⟩, _⟩ := proposes
  exact ⟨text, same⟩

theorem Stops.phasesOfText {fault : DataFault} (stops : Stops settings (some (.ok text)) fault) :
    phasesOfText settings c text = .error (.data fault) := by
  cases stops with
  | unread same unread =>
      cases same
      exact phasesOfText_unread unread
  | broken hasItems breaks =>
      obtain ⟨_, answer, same, read, given⟩ := hasItems
      cases same
      rw [phasesOfText_read read]
      rcases normalizePhases_cases c.paths (min maxPhases settings.maxPhases) given with
        ⟨_, failed⟩ | ⟨whole, _⟩ | ⟨whole, _⟩
      · exact failed
      · exact absurd breaks whole
      · exact absurd breaks whole

theorem Proposes.phasesOfText (proposes : Proposes settings (some (.ok text))) :
    ∃ phases, phasesOfText settings c text = .ok phases ∧ phases ≠ [] := by
  obtain ⟨items, ⟨_, answer, same, read, given⟩, whole, room, usable⟩ := proposes
  cases same
  rw [phasesOfText_read read]
  rcases normalizePhases_cases c.paths (min maxPhases settings.maxPhases) given with
    ⟨breaks, _⟩ | ⟨_, _, made⟩ | ⟨_, useless, _⟩
  · exact absurd breaks whole
  · exact made
  · exact absurd ⟨by simp only [maxPhases]; omega, usable⟩ useless

theorem phasesOfText_useless (goesOn : ∀ fault, ¬ Stops settings (some (.ok text)) fault)
    (useless : ¬ Proposes settings (some (.ok text))) :
    ∃ fault, phasesOfText settings c text = .error (.generation fault) := by
  cases read : Completion.parseJson text with
  | error failure =>
      rcases parseJson_error read with ⟨fault, rfl⟩ | ⟨fault, rfl⟩
      · exact absurd (Stops.unread rfl read) (goesOn fault)
      · exact ⟨fault, phasesOfText_unread read⟩
  | ok answer =>
      rw [phasesOfText_read read]
      cases given : phaseItems? answer with
      | none => exact ⟨.noPhaseList, by simp only [normalizePhases, given]⟩
      | some items =>
          have hasItems : HasItems (some (.ok text)) items := ⟨text, answer, rfl, read, given⟩
          rcases normalizePhases_cases c.paths (min maxPhases settings.maxPhases) given with
            ⟨breaks, _⟩ | ⟨whole, ⟨room, usable⟩, _⟩ | ⟨_, _, failed⟩
          · exact absurd (Stops.broken hasItems breaks) (goesOn _)
          · refine absurd ⟨items, hasItems, whole, ?_, usable⟩ useless
            omega
          · exact ⟨_, failed⟩

end Answers

section Rules

theorem map_key_fst (c : RelevantContext) :
    (c.files.map fun f => (complexityKey f, f.path)).map (·.1) = c.files.map complexityKey := by
  rw [List.map_map]
  rfl

theorem byComplexity_of_comparable (comparable : Json.Comparable (c.files.map complexityKey)) :
    ∃ paths, byComplexity c = .ok paths := by
  rw [← map_key_fst] at comparable
  obtain ⟨paths, sorted⟩ := Json.sortBy?_of_comparable (fun a b => Json.less? b a) comparable
  exact ⟨paths, by simp only [byComplexity, Json.descending?, sorted]⟩

theorem byComplexity_of_mixed (mixed : Json.Mixed (c.files.map complexityKey)) :
    byComplexity c = .error .wrongKind := by
  rw [← map_key_fst] at mixed
  have unsorted := Json.sortBy?_of_mixed (fun a b => Json.less? b a) mixed
  simp only [byComplexity, Json.descending?, unsorted]

theorem phasesByRule_ok (prompt : String) (orderable : a.kind ≠ "refactor" ∨
    Json.Comparable (c.files.map complexityKey)) :
    ∃ phases, phasesByRule prompt c a = .ok phases ∧ phases ≠ [] := by
  rcases phasesByRule_cases prompt c a with made | ⟨refactoring, fault, unsorted, _⟩
  · exact made
  · obtain other | comparable := orderable
    · exact absurd refactoring other
    · obtain ⟨paths, sorted⟩ := byComplexity_of_comparable comparable
      simp [sorted] at unsorted

theorem phasesByRule_mixed (refactoring : a.kind = "refactor")
    (mixed : Json.Mixed (c.files.map complexityKey)) :
    phasesByRule prompt c a = .error .wrongKind := by
  have unsorted := byComplexity_of_mixed mixed
  rcases refactorPhases_cases prompt c a with ⟨fault, same, failed⟩ | ⟨_, _, sorted, _⟩
  · obtain rfl : DataFault.wrongKind = fault := by simpa [unsorted] using same
    simp only [phasesByRule, refactoring, failed]
  · simp [unsorted] at sorted

theorem rulePhases_ok (prompt : String) (orderable : a.kind ≠ "refactor" ∨
    Json.Comparable (c.files.map complexityKey)) :
    ∃ phases, rulePhases prompt c a = .ok phases ∧ phases ≠ [] := by
  obtain ⟨phases, made, some⟩ := phasesByRule_ok prompt orderable
  exact ⟨phases, by rw [rulePhases, made], some⟩

theorem rulePhases_mixed (refactoring : a.kind = "refactor")
    (mixed : Json.Mixed (c.files.map complexityKey)) :
    rulePhases prompt c a = .error (.data .wrongKind) := by
  rw [rulePhases, phasesByRule_mixed refactoring mixed]

end Rules

section Fallback

theorem proposedPhases_outcome (fallback : settings.fallbackToRules = true)
    (ask : Option (Ask (StateM σ))) (world : σ) :
    ((proposedPhases settings ask prompt c a).run world).1 =
      match outcomeOf settings ask prompt c world with
      | some answered => recover settings prompt c a (answered.bind (phasesOfText settings c))
      | none => rulePhases prompt c a := by
  cases ask with
  | none => rw [proposedPhases_none, if_pos fallback]; rfl
  | some ask => rfl

variable {ask : Option (Ask (StateM σ))} {world : σ} (fallback : settings.fallbackToRules = true)

include fallback

theorem Stops.proposedPhases {fault : DataFault}
    (stops : Stops settings (outcomeOf settings ask prompt c world) fault) :
    ((proposedPhases settings ask prompt c a).run world).1 = .error (.data fault) := by
  obtain ⟨text, outcome⟩ := stops.answered
  rw [outcome] at stops
  rw [proposedPhases_outcome fallback, outcome]
  simp [recover, Except.bind, stops.phasesOfText, Failure.isCompletion]

theorem Proposes.proposedPhases
    (proposes : Proposes settings (outcomeOf settings ask prompt c world)) :
    ∃ phases, ((proposedPhases settings ask prompt c a).run world).1 = .ok phases ∧
      phases ≠ [] := by
  obtain ⟨text, outcome⟩ := proposes.answered
  rw [outcome] at proposes
  obtain ⟨phases, made, some⟩ := proposes.phasesOfText (c := c)
  refine ⟨phases, ?_, some⟩
  rw [proposedPhases_outcome fallback, outcome]
  simp [recover, Except.bind, made]

theorem proposedPhases_useless
    (expected : ∀ failure, outcomeOf settings ask prompt c world = some (.error failure) →
      failure.isCompletion = true)
    (goesOn : ∀ fault, ¬ Stops settings (outcomeOf settings ask prompt c world) fault)
    (useless : ¬ Proposes settings (outcomeOf settings ask prompt c world)) :
    ((proposedPhases settings ask prompt c a).run world).1 = rulePhases prompt c a := by
  rw [proposedPhases_outcome fallback]
  cases outcome : outcomeOf settings ask prompt c world with
  | none => rfl
  | some answered =>
      rw [outcome] at expected goesOn useless
      cases answered with
      | error failure => simp [recover, Except.bind, expected failure rfl, fallback]
      | ok text =>
          obtain ⟨fault, failed⟩ := phasesOfText_useless (c := c) goesOn useless
          simp [recover, Except.bind, failed, Failure.isCompletion, fallback]

end Fallback

/-- What comes of a goal when the rules make up for the provider. An answer that stops the planning is
the only one that does not give phases or the rules; the rules fail only on files that they cannot put
in order. -/
theorem generatePhases_fallback {ask : Option (Ask (StateM σ))} {analysis : Option PromptAnalysis}
    {strategy : Option String} {world : σ} {outcome : Option (Except Failure String)}
    {result : Except Failure (List Phase)} (fallback : settings.fallbackToRules = true)
    (chosen : strategyName settings strategy = "llm")
    (answers : outcomeOf settings ask prompt c world = outcome)
    (expected : ∀ failure, outcome = some (.error failure) → failure.isCompletion = true)
    (returned : ((generatePhases settings ask prompt c analysis strategy).run world).1 = result) :
    (∀ fault, Stops settings outcome fault → result = .error (.data fault)) ∧
    (Proposes settings outcome → ∃ phases, result = .ok phases ∧ phases ≠ []) ∧
    ((∀ fault, ¬ Stops settings outcome fault) → ¬ Proposes settings outcome →
      result = (rulePhases prompt c (analysis.getD (analyzePrompt prompt))).map
        (capPhases (phaseLimit settings)) ∧
      ((analysis.getD (analyzePrompt prompt)).kind ≠ "refactor" ∨
          Json.Comparable (c.files.map complexityKey) →
        ∃ phases, result = .ok phases ∧ phases ≠ []) ∧
      ((analysis.getD (analyzePrompt prompt)).kind = "refactor" →
          Json.Mixed (c.files.map complexityKey) → result = .error (.data .wrongKind))) := by
  subst answers
  rw [generatePhases_run, if_pos (by rw [chosen]; rfl)] at returned
  refine ⟨?_, ?_, ?_⟩
  · intro fault stops
    rw [stops.proposedPhases fallback] at returned
    exact returned.symm
  · intro proposes
    obtain ⟨phases, made, some⟩ := proposes.proposedPhases fallback
      (a := analysis.getD (analyzePrompt prompt))
    rw [made] at returned
    exact ⟨_, returned.symm, capPhases_ne_nil (phaseLimit_pos settings) some⟩
  · intro goesOn useless
    rw [proposedPhases_useless fallback expected goesOn useless] at returned
    refine ⟨returned.symm, ?_, ?_⟩
    · intro orderable
      obtain ⟨phases, made, some⟩ := rulePhases_ok prompt orderable
      rw [made] at returned
      exact ⟨_, returned.symm, capPhases_ne_nil (phaseLimit_pos settings) some⟩
    · intro refactoring mixed
      rw [rulePhases_mixed refactoring mixed] at returned
      exact returned.symm

def scoredFiles : RelevantContext :=
  { files := [{ path := "src/login.ts", metadata := [("complexityScore", .int 3)] },
      { path := "src/session.ts", metadata := [("complexityScore", .int 5)] }] }

def outage : Except Failure String := .error (.provider (.unreachable "openai" "timeout"))

def unreachable : Ask (StateM Unit) := fun _ => return outage

def withFallback : PlannerSettings := { strategy := "llm", fallbackToRules := true }

theorem generatePhases_fallback_unreachable : ∃ phases,
    ((generatePhases withFallback (some unreachable) "Refactor the login module" scoredFiles none
      none).run ()).1 = .ok phases ∧ phases ≠ [] := by
  have chosen : strategyName withFallback none = "llm" := by decide +kernel
  have answers : outcomeOf withFallback (some unreachable)
      "Refactor the login module" scoredFiles () = some outage := rfl
  have noText (text : String) : some outage ≠ some (.ok text) := by simp [outage]
  have expected (failure : Failure) (failed : some outage = some (.error failure)) :
      failure.isCompletion = true := by
    cases failed
    rfl
  have scores : Json.Comparable (scoredFiles.files.map complexityKey) := by
    refine Or.inr (Or.inl ?_)
    simp only [scoredFiles, List.map_cons, List.map_nil, List.forall_mem_cons]
    exact ⟨⟨_, rfl⟩, ⟨_, rfl⟩, by simp⟩
  obtain ⟨_, _, useless⟩ := generatePhases_fallback rfl chosen answers expected rfl
  refine (useless (fun fault stops => ?_) (fun proposes => ?_)).2.1 (Or.inr scores)
  · obtain ⟨text, same⟩ := stops.answered
    exact noText text same
  · obtain ⟨text, same⟩ := proposes.answered
    exact noText text same

def nullFiles : StateM Unit (Except Failure (List Phase)) :=
  generatePhases withFallback
    (some (answering ("\x7b\"phases\":[\x7b\"id\":\"1\",\"title\":\"Patch\"," ++
      "\"description\":\"Fix\",\"relevantFiles\":null\x7d]\x7d")))
    "Fix the login bug" scoredFiles none none

theorem nullFiles_ends_planning : (nullFiles.run ()).1 = .error (.data .wrongKind) ∧
    ¬ ∃ phases, (nullFiles.run ()).1 = .ok phases ∧ phases ≠ [] := by
  have shown : (nullFiles.run ()).1.map (fun _ => ()) = .error (.data .wrongKind) := by decide +kernel
  cases made : (nullFiles.run ()).1 with
  | ok phases => simp [made, Except.map] at shown
  | error failure =>
      rw [made] at shown
      cases shown
      exact ⟨rfl, by simp⟩

end Groundwork.Planning
