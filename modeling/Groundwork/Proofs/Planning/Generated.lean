import Groundwork.Proofs.Planning.Proposals
import Groundwork.Proofs.Planning.Templates

/-!
What holds of the phases for a goal, wherever they come from: templates and provider both give phases
that fit, and the cap keeps the first ones of them.
-/

namespace Groundwork.Planning

open Relation

variable {σ : Type} {settings : PlannerSettings} {prompt : String} {c : RelevantContext}
  {a : PromptAnalysis} {phases : List Phase}

section Sources

theorem proposedPhases_none (world : σ) :
    ((proposedPhases settings (none : Option (Ask (StateM σ))) prompt c a).run world).1 =
      if settings.fallbackToRules then rulePhases prompt c a else .error (.planning .noProvider) :=
  rfl

theorem proposedPhases_some (ask : Ask (StateM σ)) (world : σ) :
    ((proposedPhases settings (some ask) prompt c a).run world).1 = recover settings prompt c a
      (((ask (phaseCall settings prompt c)).run world).1.bind (phasesOfText settings c)) := rfl

theorem normalizePhases_fit {answer : Json} {allowed : List String} {limit : Int}
    (made : normalizePhases answer allowed limit = .ok phases) :
    Fit allowed 0 phases ∧ phases ≠ [] := by
  unfold normalizePhases at made
  split at made
  · simp at made
  · rename_i items _
    split at made
    · simp at made
    · simp at made
    · rename_i found some taken
      cases made
      exact ⟨takePhases_fit items (by simp [Before]) taken, some⟩

theorem phasesOfText_unread {text : String} {failure : Failure}
    (unread : Completion.parseJson text = .error failure) :
    phasesOfText settings c text = .error failure := by
  rw [phasesOfText, unread]
  rfl

theorem phasesOfText_read {text : String} {answer : Json}
    (read : Completion.parseJson text = .ok answer) :
    phasesOfText settings c text =
      normalizePhases answer c.paths (min maxPhases settings.maxPhases) := by
  rw [phasesOfText, read]
  rfl

theorem phasesOfText_fit {text : String} (made : phasesOfText settings c text = .ok phases) :
    Fit c.paths 0 phases ∧ phases ≠ [] := by
  cases read : Completion.parseJson text with
  | error failure => simp [phasesOfText_unread read] at made
  | ok answer =>
      rw [phasesOfText_read read] at made
      exact normalizePhases_fit made

theorem rulePhases_eq_ok (made : rulePhases prompt c a = .ok phases) :
    phasesByRule prompt c a = .ok phases := by
  unfold rulePhases at made
  split at made
  · rename_i found
    cases made
    exact found
  · simp at made

variable (distinct : c.paths.Nodup) (valid : a.complexity ∈ levels)

include distinct valid

theorem rulePhases_fit (made : rulePhases prompt c a = .ok phases) :
    Fit c.paths 0 phases ∧ phases ≠ [] :=
  ⟨phasesByRule_fit distinct valid (rulePhases_eq_ok made),
    phasesByRule_ne_nil (rulePhases_eq_ok made)⟩

theorem recover_fit {proposed : Except Failure (List Phase)}
    (fits : ∀ some, proposed = .ok some → Fit c.paths 0 some ∧ some ≠ [])
    (made : recover settings prompt c a proposed = .ok phases) :
    Fit c.paths 0 phases ∧ phases ≠ [] := by
  unfold recover at made
  split at made
  · cases made
    exact fits phases rfl
  · split at made
    · simp at made
    · split at made
      · exact rulePhases_fit distinct valid made
      · simp at made

theorem proposedPhases_fit {ask : Option (Ask (StateM σ))} {world : σ}
    (made : ((proposedPhases settings ask prompt c a).run world).1 = .ok phases) :
    Fit c.paths 0 phases ∧ phases ≠ [] := by
  cases ask with
  | none =>
      rw [proposedPhases_none] at made
      split at made
      · exact rulePhases_fit distinct valid made
      · simp at made
  | some ask =>
      rw [proposedPhases_some] at made
      refine recover_fit distinct valid (fun some proposed => ?_) made
      cases answer : (((ask (phaseCall settings prompt c)).run world).1) with
      | error failure => simp [answer, Except.bind] at proposed
      | ok text =>
          simp only [answer, Except.bind] at proposed
          exact phasesOfText_fit proposed

end Sources

section Cap

theorem generatePhases_run (ask : Option (Ask (StateM σ))) (analysis : Option PromptAnalysis)
    (strategy : Option String) (world : σ) :
    ((generatePhases settings ask prompt c analysis strategy).run world).1 =
      (if strategyName settings strategy == "llm" then
        ((proposedPhases settings ask prompt c (analysis.getD (analyzePrompt prompt))).run world).1
      else rulePhases prompt c (analysis.getD (analyzePrompt prompt))).map
        (capPhases (phaseLimit settings)) := by
  unfold generatePhases
  split <;> rfl

theorem capPhases_fit {allowed : List String} (limit : Int) (fit : Fit allowed 0 phases) :
    Fit allowed 0 (capPhases limit phases) := by
  obtain ⟨count, kept⟩ := firstOf_eq_take limit phases
  unfold capPhases
  rw [kept]
  exact (fit.take count).keepDependencies _

theorem phaseLimit_pos (settings : PlannerSettings) : 1 ≤ phaseLimit settings := Int.le_max_left _ _

theorem length_capPhases {limit : Int} (bound : 0 ≤ limit) (phases : List Phase) :
    ((capPhases limit phases).length : Int) = min limit phases.length := by
  rw [← length_firstOf bound phases]
  simp [capPhases]

theorem capPhases_ne_nil {limit : Int} (bound : 1 ≤ limit) (some : phases ≠ []) :
    capPhases limit phases ≠ [] := by
  have length := length_capPhases (by omega : 0 ≤ limit) phases
  have positive : 0 < phases.length := List.length_pos_iff.mpr some
  rw [← List.length_pos_iff]
  omega

end Cap

structure WellPlanned (settings : PlannerSettings) (c : RelevantContext) (phases : List Phase) :
    Prop where
  some : 1 ≤ phases.length
  few : (phases.length : Int) ≤ max 1 (min 7 settings.maxPhases)
  ids : phases.map (·.id) = ["phase-01", "phase-02", "phase-03", "phase-04", "phase-05", "phase-06",
    "phase-07"].take phases.length
  dependencies : ∀ (position : Nat) (p : Phase), phases[position]? = .some p →
    ∀ d ∈ p.dependencies, ∃ earlier < position, ∃ q, phases[earlier]? = .some q ∧ q.id = d
  acyclic : ∀ id, ¬ TransGen (DependsOn phases) id id
  files : ∀ p ∈ phases, p.relevantFiles.Nodup ∧ p.relevantFiles ⊆ c.paths
  complexity : ∀ p ∈ phases, ∃ level ∈ levels, p.complexity = .str level
  priority : ∀ p ∈ phases, ∃ level ∈ levels, p.priority = .str level
  category : ∀ p ∈ phases, ∃ kind ∈ categories, p.category = .str kind

namespace Fit

variable {allowed : List String}

theorem ids_eq_take (fit : Fit allowed 0 phases) (few : phases.length ≤ 7) :
    phases.map (·.id) = ["phase-01", "phase-02", "phase-03", "phase-04", "phase-05", "phase-06",
      "phase-07"].take phases.length := by
  have names : (List.range 7).map phaseId = ["phase-01", "phase-02", "phase-03", "phase-04",
    "phase-05", "phase-06", "phase-07"] := by decide
  rw [fit.ids, ← names, ← List.map_take, List.take_range, Nat.min_eq_left few,
    List.range_eq_range']

theorem mem (fit : Fit allowed 0 phases) {p : Phase} (member : p ∈ phases) :
    ∃ position, FitsAt allowed position p := by
  obtain ⟨position, found⟩ := List.mem_iff_getElem?.mp member
  exact ⟨0 + position, fit.getElem? found⟩

theorem dependencies (fit : Fit allowed 0 phases) {position : Nat} {p : Phase}
    (found : phases[position]? = some p) {d : String} (depends : d ∈ p.dependencies) :
    ∃ earlier < position, ∃ q, phases[earlier]? = some q ∧ q.id = d := by
  obtain ⟨earlier, before, rfl⟩ := (fit.getElem? found).dependencies d depends
  rw [Nat.zero_add] at before
  have bound : earlier < phases.length :=
    Nat.lt_trans before (List.getElem?_eq_some_iff.mp found).1
  have there : phases[earlier]? = some phases[earlier] := List.getElem?_eq_getElem bound
  refine ⟨earlier, before, phases[earlier], there, ?_⟩
  rw [(fit.getElem? there).id, Nat.zero_add]

theorem idxOf_lt (fit : Fit allowed 0 phases) (distinct : (phases.map (·.id)).Nodup)
    {id other : String} (depends : DependsOn phases id other) :
    (phases.map (·.id)).idxOf other < (phases.map (·.id)).idxOf id := by
  have idxOf {position : Nat} {p : Phase} (found : phases[position]? = some p) :
      (phases.map (·.id)).idxOf p.id = position := by
    obtain ⟨bound, rfl⟩ := List.getElem?_eq_some_iff.mp found
    have same := distinct.idxOf_getElem position (by simpa using bound)
    rwa [List.getElem_map] at same
  obtain ⟨p, member, rfl, depends⟩ := depends
  obtain ⟨position, found⟩ := List.mem_iff_getElem?.mp member
  obtain ⟨earlier, before, q, there, rfl⟩ := fit.dependencies found depends
  rw [idxOf found, idxOf there]
  exact before

theorem acyclic (fit : Fit allowed 0 phases) (distinct : (phases.map (·.id)).Nodup) (id : String) :
    ¬ TransGen (DependsOn phases) id id := by
  -- The position of the id only goes down along a chain, so no chain comes back to where it began.
  have down (other : String) (chain : TransGen (DependsOn phases) id other) :
      (phases.map (·.id)).idxOf other < (phases.map (·.id)).idxOf id := by
    induction chain with
    | single depends => exact fit.idxOf_lt distinct depends
    | tail _ depends ih => exact Nat.lt_trans (fit.idxOf_lt distinct depends) ih
  exact fun cycle => Nat.lt_irrefl _ (down id cycle)

theorem wellPlanned (fit : Fit c.paths 0 phases) (some : phases ≠ [])
    (few : (phases.length : Int) ≤ max 1 (min 7 settings.maxPhases)) :
    WellPlanned settings c phases where
  some := List.length_pos_iff.mpr some
  few := few
  ids := fit.ids_eq_take (by omega)
  dependencies _ _ found _ depends := fit.dependencies found depends
  acyclic := by
    refine fit.acyclic ?_
    rw [fit.ids_eq_take (by omega)]
    exact (List.take_sublist _ _).nodup (by decide)
  files p member := by
    obtain ⟨_, fits⟩ := fit.mem member
    exact ⟨fits.files.once, fits.files.within⟩
  complexity p member := by
    obtain ⟨_, fits⟩ := fit.mem member
    exact fits.complexity
  priority p member := by
    obtain ⟨_, fits⟩ := fit.mem member
    exact fits.priority
  category p member := by
    obtain ⟨_, fits⟩ := fit.mem member
    exact fits.category

end Fit

/-- Phases for a goal keep the contract, whatever was asked for and whatever a provider answers. -/
theorem generatePhases_wellPlanned {ask : Option (Ask (StateM σ))} {analysis : Option PromptAnalysis}
    {strategy : Option String} {world : σ} (distinct : c.paths.Nodup)
    (valid : ∀ a, analysis = some a → a.complexity ∈ levels)
    (made : ((generatePhases settings ask prompt c analysis strategy).run world).1 = .ok phases) :
    WellPlanned settings c phases := by
  have level : (analysis.getD (analyzePrompt prompt)).complexity ∈ levels := by
    cases analysis with
    | none => exact analyzePrompt_level prompt
    | some a => exact valid a rfl
  rw [generatePhases_run] at made
  obtain ⟨uncapped, found, rfl⟩ := ok_of_map made
  have fits : Fit c.paths 0 uncapped ∧ uncapped ≠ [] := by
    split at found
    · exact proposedPhases_fit distinct level found
    · exact rulePhases_fit distinct level found
  have limit := phaseLimit_pos settings
  have length := length_capPhases (by omega : 0 ≤ phaseLimit settings) uncapped
  refine (capPhases_fit _ fits.1).wellPlanned (capPhases_ne_nil limit fits.2) ?_
  change _ ≤ phaseLimit settings
  omega

def answering (text : String) : Ask (StateM Unit) := fun _ => return .ok text

def twoSteps : StateM Unit (Except Failure (List Phase)) :=
  generatePhases { strategy := "llm", maxPhases := 3 }
    (some (answering ("[\x7b\"id\":1,\"title\":2,\"description\":3,\"relevantFiles\":[\"a\",\"b\"]" ++
      "\x7d,\x7b\"id\":4,\"title\":5,\"description\":6,\"dependencies\":[1]\x7d]")))
    "Log in" { files := [{ path := "a" }] } none none

theorem generatePhases_wellPlanned_twoSteps : ∃ phases, (twoSteps.run ()).1 = .ok phases ∧
    phases.map (fun p => (p.id, p.relevantFiles, p.dependencies)) =
      [("phase-01", ["a"], []), ("phase-02", [], ["phase-01"])] ∧
    WellPlanned { strategy := "llm", maxPhases := 3 } { files := [{ path := "a" }] } phases := by
  have shown : (twoSteps.run ()).1.toOption.map
      (·.map fun p => (p.id, p.relevantFiles, p.dependencies)) =
        some [("phase-01", ["a"], []), ("phase-02", [], ["phase-01"])] := by decide +kernel
  cases made : (twoSteps.run ()).1 with
  | error failure => simp [made, Except.toOption] at shown
  | ok phases =>
      refine ⟨phases, rfl, by simpa [made, Except.toOption] using shown, ?_⟩
      exact generatePhases_wellPlanned (by decide) (by simp) made

end Groundwork.Planning
