import Groundwork.Proofs.Planning.Renumbering
import Groundwork.Proofs.Planning.Generated

/-!
How the limits on the number of phases go together. A provider's answer is read up to the limit of the
settings and the cap is put on what was read, so the phases are the first ones of those that the highest
limit gives. A limit below one leaves nothing to read although the cap would keep one phase.
-/

namespace Groundwork.Planning

section Reading

variable {allowed : List String} {limit : Int} {answer : Json} {phases : List Phase}

theorem renumber_take (names : Renaming) (position count : Nat) (given : List Phase) :
    (renumber allowed names position given).take count =
      renumber allowed names position (given.take count) := by
  induction given generalizing names position count with
  | nil => simp [renumber]
  | cons first rest ih =>
      cases count with
      | zero => rfl
      | succ count => rw [renumber, List.take_succ_cons, List.take_succ_cons, renumber, ih]

theorem normalizePhases_lower (made : normalizePhases answer allowed limit = .ok phases) {lower : Int}
    (positive : 1 ≤ lower) (less : lower ≤ limit) :
    normalizePhases answer allowed lower = .ok (phases.take lower.toNat) := by
  obtain ⟨items, given, listed, reads, some, rfl⟩ := normalizePhases_eq_ok_iff.mp made
  have readsFirst := List.forall₂_take lower.toNat reads
  rw [List.take_take, Nat.min_eq_left (by omega)] at readsFirst
  refine normalizePhases_eq_ok_iff.mpr ⟨items, given.take lower.toNat, listed, readsFirst, ?_, ?_⟩
  · have found := List.length_pos_iff.mpr some
    rw [← List.length_pos_iff, List.length_take]
    omega
  · rw [renumber_take]

theorem normalizePhases_barred (made : normalizePhases answer allowed limit = .ok phases) {lower : Int}
    (barred : lower ≤ 0) :
    normalizePhases answer allowed lower = .error (.generation .noUsablePhases) := by
  obtain ⟨items, _, listed, _⟩ := normalizePhases_eq_ok_iff.mp made
  have full : lower ≤ (0 : Nat) := barred
  simp only [normalizePhases, listed, takePhases_full full]

theorem capPhases_of_fit (fit : Fit allowed 0 phases) (limit : Int) :
    capPhases limit phases = Text.firstOf limit phases := by
  obtain ⟨count, kept⟩ := firstOf_eq_take limit phases
  have whole : ∀ p ∈ phases.take count,
      p.dependencies.filter (((phases.take count).map (·.id)).contains) = p.dependencies := by
    intro p member
    obtain ⟨position, found⟩ := List.mem_iff_getElem?.mp member
    rw [List.filter_eq_self]
    intro d depends
    obtain ⟨earlier, _, q, there, rfl⟩ := (fit.take count).dependencies found depends
    exact List.contains_iff_mem.mpr (List.mem_map_of_mem (List.mem_of_getElem? there))
  rw [capPhases, kept]
  calc (phases.take count).map _ = (phases.take count).map id :=
        List.map_congr_left fun p member => by rw [whole p member]; rfl
    _ = phases.take count := List.map_id _

end Reading

section Planning

variable {σ : Type} {settings : PlannerSettings} {prompt text : String} {c : RelevantContext}
  {ask : Ask (StateM σ)} {analysis : Option PromptAnalysis} {strategy : Option String} {world : σ}
  {answer : Json} {phases : List Phase}

theorem generatePhases_answered (chosen : strategyName settings strategy = "llm")
    (answered : ((ask (phaseCall settings prompt c)).run world).1 = .ok text)
    (read : Completion.parseJson text = .ok answer) :
    ((generatePhases settings (some ask) prompt c analysis strategy).run world).1 =
      (recover settings prompt c (analysis.getD (analyzePrompt prompt))
        (normalizePhases answer c.paths (min maxPhases settings.maxPhases))).map
          (capPhases (phaseLimit settings)) := by
  rw [generatePhases_run, if_pos (by rw [chosen]; rfl), proposedPhases_some, answered, Except.bind,
    phasesOfText_read read]

theorem generatePhases_barred (chosen : strategyName settings strategy = "llm")
    (answered : ((ask (phaseCall settings prompt c)).run world).1 = .ok text)
    (read : Completion.parseJson text = .ok answer)
    (normal : normalizePhases answer c.paths 7 = .ok phases) (barred : settings.maxPhases ≤ 0) :
    ((generatePhases settings (some ask) prompt c analysis strategy).run world).1 =
      if settings.fallbackToRules then
        (rulePhases prompt c (analysis.getD (analyzePrompt prompt))).map (capPhases 1)
      else .error (.planning (.phasesFailed "Provider returned no usable phases")) := by
  have none : min maxPhases settings.maxPhases ≤ 0 := Int.le_trans (Int.min_le_right _ _) barred
  have one : phaseLimit settings = 1 := Int.max_eq_left (by omega)
  rw [generatePhases_answered chosen answered read, normalizePhases_barred normal none, one, recover,
    if_neg (by simp [Failure.isCompletion])]
  split <;> rfl

/-- What the settings leave of the phases that an answer gives up to the highest limit. With at least
one phase wanted these are the first ones; otherwise the answer counts as one without phases. -/
theorem generatePhases_limited (chosen : strategyName settings strategy = "llm")
    (answered : ((ask (phaseCall settings prompt c)).run world).1 = .ok text)
    (read : Completion.parseJson text = .ok answer)
    (normal : normalizePhases answer c.paths 7 = .ok phases) :
    (1 ≤ settings.maxPhases →
      ((generatePhases settings (some ask) prompt c analysis strategy).run world).1 =
        .ok (phases.take (min phases.length (max 1 (min 7 settings.maxPhases)).toNat))) ∧
    (settings.maxPhases ≤ 0 →
      ((generatePhases settings (some ask) prompt c analysis strategy).run world).1 =
        if settings.fallbackToRules then
          (rulePhases prompt c (analysis.getD (analyzePrompt prompt))).map (capPhases 1)
        else .error (.planning (.phasesFailed "Provider returned no usable phases"))) := by
  refine ⟨fun wanted => ?_, generatePhases_barred chosen answered read normal⟩
  have positive : 1 ≤ min maxPhases settings.maxPhases := Int.le_min.mpr ⟨by decide, wanted⟩
  have given := normalizePhases_lower normal positive (Int.min_le_left _ _)
  have limit : phaseLimit settings = min maxPhases settings.maxPhases := Int.max_eq_right positive
  rw [generatePhases_answered chosen answered read, given, recover, Except.map,
    capPhases_of_fit (normalizePhases_fit given).1, ← limit, Text.firstOf, if_pos (by omega),
    List.take_take, Nat.min_self, Nat.min_comm]
  exact congrArg Except.ok List.take_eq_take_min

def threeSteps : String :=
  "[\x7b\"id\":\"a\",\"title\":\"Find\",\"description\":\"\"\x7d," ++
    "\x7b\"id\":\"b\",\"title\":\"Patch\",\"description\":\"\"\x7d," ++
    "\x7b\"id\":\"c\",\"title\":\"Test\",\"description\":\"\",\"dependencies\":[\"a\",\"b\"]\x7d]"

def loginFile : RelevantContext := { files := [{ path := "src/login.ts" }] }

theorem toList_append_of {s t : String} {a b : List Char} (hs : s.toList = a) (ht : t.toList = b) :
    (s ++ t).toList = a ++ b := by
  rw [String.toList_append, hs, ht]

theorem parseJson_of_toList {chars : List Char} (spelled : text.toList = chars)
    (read : Json.read (Completion.unfence chars) = .ok answer) :
    Completion.parseJson text = .ok answer := by
  rw [Completion.parseJson, spelled, read, if_neg]
  intro none
  rw [List.isEmpty_iff.mp none] at read
  cases read

theorem threeSteps_read : ∃ answer, Completion.parseJson threeSteps = .ok answer ∧ ∃ phases,
    normalizePhases answer loginFile.paths 7 = .ok phases ∧
    phases.map (fun p => (p.title, p.dependencies)) =
      [("Find", []), ("Patch", []), ("Test", ["phase-01", "phase-02"])] := by
  -- The characters are spelled out first: evaluation takes long over those of a long literal.
  obtain ⟨chars, spelled, shown⟩ : ∃ chars, threeSteps.toList = chars ∧
      ((Json.read (Completion.unfence chars)).toOption.bind fun answer =>
        (normalizePhases answer loginFile.paths 7).toOption).map
          (·.map fun p => (p.title, p.dependencies)) =
        some [("Find", []), ("Patch", []), ("Test", ["phase-01", "phase-02"])] :=
    ⟨_, toList_append_of (toList_append_of String.toList_ofList String.toList_ofList)
      String.toList_ofList, by decide +kernel⟩
  cases read : Json.read (Completion.unfence chars) with
  | error e => simp [read, Except.toOption] at shown
  | ok answer =>
      rw [read] at shown
      exact ⟨answer, parseJson_of_toList spelled read, ok_of_shown shown⟩

def planned (maxPhases : Int) : Except Failure (List Phase) :=
  ((generatePhases { strategy := "llm", maxPhases } (some (answering threeSteps)) "Fix the login bug"
    loginFile none none).run ()).1

theorem generatePhases_limited_threeSteps : ∃ answer phases,
    Completion.parseJson threeSteps = .ok answer ∧
    normalizePhases answer loginFile.paths 7 = .ok phases ∧ phases.length = 3 ∧
    planned 2 = .ok (phases.take 2) := by
  obtain ⟨answer, read, phases, normal, listed⟩ := threeSteps_read
  have count := congrArg List.length listed
  rw [List.length_map] at count
  have chosen : strategyName { strategy := "llm", maxPhases := 2 } none = "llm" := by decide +kernel
  have answered : ((answering threeSteps
      (phaseCall { strategy := "llm", maxPhases := 2 } "Fix the login bug" loginFile)).run ()).1 =
        .ok threeSteps := rfl
  obtain ⟨wanted, _⟩ := generatePhases_limited chosen answered read normal
  refine ⟨answer, phases, read, normal, count, (wanted (by decide)).trans ?_⟩
  rw [count]
  rfl

/-- With no phase wanted the first one is not kept either: the rules take the place of the answer. -/
theorem threeSteps_unread : ∃ answer phases,
    Completion.parseJson threeSteps = .ok answer ∧
    normalizePhases answer loginFile.paths 7 = .ok phases ∧
    planned 0 ≠ .ok (phases.take (min phases.length (max 1 (min 7 (0 : Int))).toNat)) := by
  obtain ⟨answer, read, phases, normal, listed⟩ := threeSteps_read
  have chosen : strategyName { strategy := "llm", maxPhases := 0 } none = "llm" := by decide +kernel
  have byRule : (planned 0).toOption.map (·.map (·.title)) = some ["Fix login bug"] := by
    rw [planned, generatePhases_barred chosen rfl read normal (by decide)]
    decide +kernel
  have titles : phases.map (·.title) = ["Find", "Patch", "Test"] := by
    simpa [Function.comp_def] using congrArg (List.map (·.1)) listed
  refine ⟨answer, phases, read, normal, fun kept => ?_⟩
  rw [kept, Except.toOption, Option.map_some, List.map_take, titles, ← List.length_map, titles] at byRule
  exact absurd byRule (by decide)

end Planning

end Groundwork.Planning
