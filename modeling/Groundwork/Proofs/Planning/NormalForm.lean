import Groundwork.Proofs.Planning.Fallback
import Groundwork.Proofs.Planning.Files
import Groundwork.Proofs.Planning.Renumbering
import Groundwork.Proofs.Request.Checks

/-!
Phases in normal form. Normalizing gives phases that fit from the first position on, and phases that fit
are given back as they are when they are written down and normalized. So normalizing twice is normalizing
once, and the phases by rule are already in the form that phases of a provider are brought into.
-/

namespace Groundwork.Planning

variable {allowed : List String} {position : Nat} {names : Renaming} {phases : List Phase}
  {limit : Int} {answer : Json}

section FixedPoints

theorem labelOr_of_valid {texts : List String} {default : String} {label : Json}
    (valid : ∃ s ∈ texts, label = .str s) : labelOr default texts label = label := by
  obtain ⟨s, member, rfl⟩ := valid
  exact if_pos (by simpa [isLabel] using member)

def Settled (names : Renaming) (position : Nat) : Prop :=
  ∀ earlier < position, List.lookup (phaseId earlier) names = some (phaseId earlier)

theorem Settled.next (settled : Settled names position) :
    Settled ((phaseId position, phaseId position) :: names) (position + 1) := by
  intro earlier before
  rw [List.lookup_cons]
  rcases Nat.lt_or_eq_of_le (Nat.le_of_lt_succ before) with less | rfl
  · have different : phaseId earlier ≠ phaseId position := fun same =>
      Nat.ne_of_lt less (phaseId_injective same)
    rw [beq_false_of_ne different]
    exact settled earlier less
  · rw [beq_self_eq_true]

theorem renameDependencies_settled (settled : Settled names (position + 1)) {ids : List String}
    (earlierOnly : ∀ d ∈ ids, ∃ earlier < position, d = phaseId earlier) :
    renameDependencies names (phaseId position) ids = ids := by
  induction ids with
  | nil => rfl
  | cons id ids ih =>
      obtain ⟨⟨earlier, before, rfl⟩, others⟩ := List.forall_mem_cons.mp earlierOnly
      have different : phaseId earlier ≠ phaseId position := fun same =>
        Nat.ne_of_lt before (phaseId_injective same)
      rw [renameDependencies_kept (settled earlier (Nat.lt_succ_of_lt before)) different, ih others]

theorem normalizePhase_of_fits {p : Phase} (fits : FitsAt allowed position p)
    (settled : Settled names (position + 1)) : normalizePhase allowed names position p = p := by
  have files : (Text.distinct p.relevantFiles).filter allowed.contains = p.relevantFiles := by
    rw [Text.distinct_of_nodup fits.files.once, List.filter_eq_self]
    exact fun path member => by simpa using fits.files.within member
  rw [normalizePhase, files, renameDependencies_settled settled fits.dependencies,
    labelOr_of_valid fits.complexity, labelOr_of_valid fits.priority, labelOr_of_valid fits.category,
    ← fits.id]

theorem renumber_of_fit (fit : Fit allowed position phases) (settled : Settled names position) :
    renumber allowed names position phases = phases := by
  induction fit generalizing names with
  | nil position => rfl
  | cons fits _ ih =>
      rw [renumber, fits.id, normalizePhase_of_fits fits settled.next, ih settled.next]

theorem reads_toJson (p : Phase) : Reads p.toJson p := p.ofMembers_toJson

theorem isComplete_toJson (p : Phase) : isComplete p.toJson = true := by
  simp [isComplete, Phase.toJson, hasRequired, List.lookup_cons]

theorem normalizePhases_of_fit (fit : Fit allowed 0 phases) (some : phases ≠ [])
    (few : (phases.length : Int) ≤ limit)
    (written : phaseItems? answer = Option.some (phases.map (·.toJson))) :
    normalizePhases answer allowed limit = .ok phases := by
  have complete : (phases.map (·.toJson)).filter isComplete = phases.map (·.toJson) := by
    rw [List.filter_eq_self, List.forall_mem_map]
    exact fun p _ => isComplete_toJson p
  have all : (phases.map (·.toJson)).take limit.toNat = phases.map (·.toJson) := by
    rw [List.take_of_length_le]
    rw [List.length_map]
    omega
  have settled : Settled [] 0 := fun earlier before => absurd before (Nat.not_lt_zero earlier)
  refine normalizePhases_eq_ok_iff.mpr ⟨_, phases, written, ?_, some, renumber_of_fit fit settled⟩
  rw [complete, all, List.forall₂_map_left_iff, List.forall₂_same]
  exact fun p _ => reads_toJson p

theorem normalizePhases_few (made : normalizePhases answer allowed limit = .ok phases) :
    (phases.length : Int) ≤ limit := by
  obtain ⟨items, given, _, reads, some, rfl⟩ := normalizePhases_eq_ok_iff.mp made
  have read := reads.length_eq
  have found := List.length_pos_iff.mpr some
  rw [List.length_take] at read
  rw [length_renumber]
  omega

end FixedPoints

/-- Phases in normal form stay as they are when they are written down and normalized again. -/
theorem normalizePhases_idempotent (made : normalizePhases answer allowed limit = .ok phases) :
    normalizePhases (.obj [("phases", .arr (phases.map (·.toJson)))]) allowed limit = .ok phases := by
  obtain ⟨fit, some⟩ := normalizePhases_fit made
  exact normalizePhases_of_fit fit some (normalizePhases_few made) rfl

theorem normalizePhases_idempotent_tangled : ∃ phases,
    normalizePhases (.arr tangledItems) ["x.ts", "y.ts"] 4 = .ok phases ∧ phases.length = 4 ∧
    normalizePhases (.obj [("phases", .arr (phases.map (·.toJson)))]) ["x.ts", "y.ts"] 4 =
      .ok phases := by
  obtain ⟨phases, made, shown⟩ := tangledItems_normalized
  have length := congrArg List.length shown
  rw [List.length_map] at length
  exact ⟨phases, made, length, normalizePhases_idempotent made⟩

section Rules

variable {c : RelevantContext} {prompt : String}

/-- Phases by rule are in normal form from the beginning. There are none only if files that are to be
refactored cannot be put in order by their complexity. -/
theorem phasesByRule_normal (distinct : c.paths.Nodup) :
    (∀ phases, phasesByRule prompt c (analyzePrompt prompt) = .ok phases →
      normalizePhases (.arr (phases.map (·.toJson))) c.paths maxPhases = .ok phases ∧
        ∀ p ∈ phases, p.relevantFiles.length ≤ 5) ∧
    ((analyzePrompt prompt).kind ≠ "refactor" ∨ Json.Comparable (c.files.map complexityKey) →
      ∃ phases, phasesByRule prompt c (analyzePrompt prompt) = .ok phases) ∧
    ((analyzePrompt prompt).kind = "refactor" → Json.Mixed (c.files.map complexityKey) →
      phasesByRule prompt c (analyzePrompt prompt) = .error .wrongKind) := by
  refine ⟨?_, ?_, phasesByRule_mixed⟩
  · intro phases made
    have assigned := phasesByRule_assigned made
    have fit := phasesByRule_fit distinct (analyzePrompt_level prompt) made
    have few : (phases.length : Int) ≤ maxPhases := by
      have short := assigned.short
      rw [List.length_map] at short
      simp only [maxPhases]
      omega
    exact ⟨normalizePhases_of_fit fit (phasesByRule_ne_nil made) few rfl,
      List.forall_mem_map.mp assigned.few⟩
  · intro orderable
    obtain ⟨phases, made, _⟩ := phasesByRule_ok prompt orderable
    exact ⟨phases, made⟩

def loginFiles : RelevantContext :=
  { files := [{ path := "src/login.ts" }, { path := "src/errorHandler.ts" },
      { path := "tests/login.test.ts" }] }

theorem phasesByRule_normal_debug : loginFiles.paths.Nodup ∧ ∃ phases,
    phasesByRule "Fix the login bug" loginFiles (analyzePrompt "Fix the login bug") = .ok phases ∧
    phases.map (fun p => (p.id, p.relevantFiles, p.dependencies)) =
      [("phase-01", ["src/login.ts", "tests/login.test.ts"], []),
        ("phase-02", ["src/errorHandler.ts"], ["phase-01"]),
        ("phase-03", ["tests/login.test.ts"], ["phase-01"])] ∧
    normalizePhases (.arr (phases.map (·.toJson))) loginFiles.paths maxPhases = .ok phases ∧
    ∀ p ∈ phases, p.relevantFiles.length ≤ 5 := by
  have distinct : loginFiles.paths.Nodup := by decide
  obtain ⟨phases, made, shown⟩ : ∃ phases,
      phasesByRule "Fix the login bug" loginFiles (analyzePrompt "Fix the login bug") = .ok phases ∧
      phases.map (fun p => (p.id, p.relevantFiles, p.dependencies)) =
        [("phase-01", ["src/login.ts", "tests/login.test.ts"], []),
          ("phase-02", ["src/errorHandler.ts"], ["phase-01"]),
          ("phase-03", ["tests/login.test.ts"], ["phase-01"])] := by
    apply ok_of_shown
    decide +kernel
  exact ⟨distinct, phases, made, shown, (phasesByRule_normal distinct).1 phases made⟩

def mixedFiles : RelevantContext :=
  { files := [{ path := "src/login.ts", metadata := [("complexityScore", .int 3)] },
      { path := "src/session.ts", metadata := [("complexityScore", .str "high")] }] }

theorem mixedFiles_unplanned : mixedFiles.paths.Nodup ∧ ¬ ∃ phases,
    phasesByRule "Refactor the login module" mixedFiles (analyzePrompt "Refactor the login module") =
      .ok phases := by
  have refactoring : (analyzePrompt "Refactor the login module").kind = "refactor" := by
    decide +kernel
  have mixed : Json.Mixed (mixedFiles.files.map complexityKey) := by
    refine ⟨⟨.int 3, ?_, _, rfl⟩, ⟨.str "high", ?_, "high", rfl⟩⟩
    · exact List.mem_cons_self
    · exact List.mem_cons_of_mem _ List.mem_cons_self
  refine ⟨by decide, ?_⟩
  rintro ⟨phases, made⟩
  rw [phasesByRule_mixed refactoring mixed] at made
  cases made

end Rules

end Groundwork.Planning
