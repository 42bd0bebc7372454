import Groundwork.Proofs.Planning.Templates

/-!
The files that phases by rule name. No phase names more than five of them. A context with files leaves
hardly a phase without any: only the last phase of a feature can be left empty, and it is when no path of
the context has a word for the server, the screen or the tests in it.
-/

namespace Groundwork.Planning

variable {c : RelevantContext} {a : PromptAnalysis} {prompt : String} {phases : List Phase}
  {files : List String} {lists : List (List String)}

section Lists

def unlessEmpty (files : List String) : List (List String) := if files.isEmpty then [] else [files]

theorem unlessEmpty_supplied : ∀ listed ∈ unlessEmpty files, listed ≠ [] := by
  cases files <;> simp [unlessEmpty]

theorem files_of_optional {p : Phase} :
    (if p.relevantFiles.isEmpty then [] else [p]).map (·.relevantFiles) =
      unlessEmpty p.relevantFiles := by
  unfold unlessEmpty
  split <;> rfl

theorem orElse_eq_nil_iff {first second : List String} :
    orElse first second = [] ↔ first = [] ∧ second = [] := by
  cases first <;> simp [orElse]

theorem orElse_ne_nil {first second : List String} (some : second ≠ []) : orElse first second ≠ [] :=
  fun none => some (orElse_eq_nil_iff.mp none).2

theorem firstOf_eq_nil_iff {n : Int} (some : 0 < n) : Text.firstOf n files = [] ↔ files = [] := by
  have length := length_firstOf (by omega : 0 ≤ n) files
  rw [← List.length_eq_zero_iff, ← List.length_eq_zero_iff]
  omega

theorem matchesFor_eq_nil_iff {terms : List String} : matchesFor c terms = [] ↔
    ∀ path ∈ c.paths, Text.containsAny (Text.lower path) terms = false := by
  cases terms with
  | nil => simp [matchesFor, pickFiles, Text.containsAny]
  | cons term terms =>
      simp [matchesFor, pickFiles, firstOf_eq_nil_iff (by decide : 0 < maxPhaseFiles)]

theorem filesFor_ne_nil (some : c.paths ≠ []) (terms : List String) : filesFor c terms ≠ [] := by
  have limit : 0 < maxPhaseFiles := by decide
  unfold filesFor pickFiles
  extract_lets matched
  split
  · rename_i found
    have matching : matched ≠ [] := by simpa using (Bool.and_eq_true_iff.mp found).2
    rwa [Ne, firstOf_eq_nil_iff limit]
  · rwa [if_pos rfl, Ne, firstOf_eq_nil_iff limit]

theorem length_firstOf_le (files : List String) : (Text.firstOf maxPhaseFiles files).length ≤ 5 := by
  have length := length_firstOf (by decide : 0 ≤ maxPhaseFiles) files
  have limit : maxPhaseFiles = 5 := rfl
  omega

theorem length_pickFiles_le (c : RelevantContext) (terms : List String) (fallback : Bool) :
    (pickFiles c terms maxPhaseFiles fallback).length ≤ 5 := by
  unfold pickFiles
  extract_lets matched
  split
  · exact length_firstOf_le matched
  · split
    · exact length_firstOf_le c.paths
    · exact Nat.zero_le 5

theorem length_orElse_le {first second : List String} {n : Nat} (few : first.length ≤ n)
    (fewOthers : second.length ≤ n) : (orElse first second).length ≤ n := by
  unfold orElse
  split
  · exact fewOthers
  · exact few

theorem length_unlessEmpty_le {n : Nat} (few : files.length ≤ n) :
    ∀ listed ∈ unlessEmpty files, listed.length ≤ n := by
  unfold unlessEmpty
  split
  · simp
  · simpa using few

end Lists

section Templates

inductive Assigned (c : RelevantContext) (a : PromptAnalysis) : List (List String) → Prop
  | specific : a.kind ≠ "feature" → Assigned c a
      [filesFor c (searchTerms a),
        orElse (matchesFor c errorTerms) ((filesFor c (searchTerms a)).take 2)]
  | feature : a.kind = "feature" → Assigned c a
      ((if !(matchesFor c backendTerms).isEmpty || (matchesFor c frontendTerms).isEmpty then
          [orElse (matchesFor c backendTerms) (filesFor c [])] else []) ++
        unlessEmpty (matchesFor c frontendTerms) ++ [orElse (matchesFor c testTerms)
          ((orElse (matchesFor c backendTerms) (matchesFor c frontendTerms)).take 2)])
  | debug : a.kind ≠ "feature" → Assigned c a
      (filesFor c (searchTerms a) :: (unlessEmpty (matchesFor c errorTerms) ++
        [orElse (matchesFor c testTerms) ((filesFor c (searchTerms a)).take 2)]))
  | refactor {paths : List String} : a.kind ≠ "feature" → byComplexity c = .ok paths → Assigned c a
      (Text.firstOf maxPhaseFiles paths :: unlessEmpty (matchesFor c sharedTerms))
  | improvement : a.kind ≠ "feature" → Assigned c a
      (filesFor c (searchTerms a) :: unlessEmpty (flaggedFiles c))
  | general : a.kind ≠ "feature" → Assigned c a [filesFor c []]

theorem featurePhases_assigned (kind : a.kind = "feature") :
    Assigned c a ((featurePhases prompt c a).map (·.relevantFiles)) := by
  unfold featurePhases
  extract_lets focus backend frontend logic begun screens built cover
  rw [List.map_append, List.map_append, files_of_optional (p := screens), apply_ite (List.map _)]
  exact .feature kind

theorem debugPhases_assigned (kind : a.kind ≠ "feature") :
    Assigned c a ((debugPhases prompt c a).map (·.relevantFiles)) := by
  unfold debugPhases
  extract_lets focus scope errorFiles fix harden begun cover
  rw [List.map_append, List.map_cons, files_of_optional (p := harden)]
  exact .debug kind

theorem refactorPhases_assigned (kind : a.kind ≠ "feature")
    (made : refactorPhases prompt c a = .ok phases) :
    Assigned c a (phases.map (·.relevantFiles)) := by
  obtain ⟨paths, sorted⟩ := exists_byComplexity made
  unfold refactorPhases at made
  rw [sorted] at made
  extract_lets focus shared extract at made
  cases made
  rw [List.map_cons, files_of_optional (p := extract)]
  exact .refactor kind sorted

theorem improvementPhases_assigned (kind : a.kind ≠ "feature") :
    Assigned c a ((improvementPhases prompt c a).map (·.relevantFiles)) := by
  unfold improvementPhases
  extract_lets focus flagged optimize resolve
  rw [List.map_cons, files_of_optional (p := resolve)]
  exact .improvement kind

theorem phasesByRule_assigned (made : phasesByRule prompt c a = .ok phases) :
    Assigned c a (phases.map (·.relevantFiles)) := by
  unfold phasesByRule at made
  split at made
  · cases made
    exact .specific (by simp [*])
  · cases made
    exact featurePhases_assigned (by assumption)
  · cases made
    exact debugPhases_assigned (by simp [*])
  · exact refactorPhases_assigned (by simp [*]) made
  · cases made
    exact improvementPhases_assigned (by simp [*])
  · cases made
    exact .general (by assumption)

end Templates

section Bounds

theorem Assigned.few (assigned : Assigned c a lists) : ∀ files ∈ lists, files.length ≤ 5 := by
  have scope := length_pickFiles_le c (searchTerms a) true
  have backend := length_pickFiles_le c backendTerms false
  have frontend := length_pickFiles_le c frontendTerms false
  have errors := length_pickFiles_le c errorTerms false
  have tests := length_pickFiles_le c testTerms false
  have two (files : List String) : (files.take 2).length ≤ 5 :=
    Nat.le_trans (List.length_take_le 2 files) (by decide)
  cases assigned with
  | specific _ =>
      exact List.forall_mem_cons.mpr ⟨scope, List.forall_mem_singleton.mpr
        (length_orElse_le errors (two _))⟩
  | feature _ =>
      refine List.forall_mem_append.mpr ⟨List.forall_mem_append.mpr ⟨?_, length_unlessEmpty_le frontend⟩,
        List.forall_mem_singleton.mpr (length_orElse_le tests (two _))⟩
      split
      · exact List.forall_mem_singleton.mpr
          (length_orElse_le backend (length_pickFiles_le c [] true))
      · simp
  | debug _ =>
      exact List.forall_mem_cons.mpr ⟨scope, List.forall_mem_append.mpr ⟨length_unlessEmpty_le errors,
        List.forall_mem_singleton.mpr (length_orElse_le tests (two _))⟩⟩
  | refactor _ _ =>
      exact List.forall_mem_cons.mpr ⟨length_firstOf_le _,
        length_unlessEmpty_le (length_pickFiles_le c sharedTerms false)⟩
  | improvement _ =>
      exact List.forall_mem_cons.mpr ⟨scope, length_unlessEmpty_le (length_firstOf_le _)⟩
  | general _ => exact List.forall_mem_singleton.mpr (length_pickFiles_le c [] true)

theorem Assigned.short (assigned : Assigned c a lists) : lists.length ≤ 3 := by
  have one (files : List String) : (unlessEmpty files).length ≤ 1 := by
    unfold unlessEmpty
    split <;> simp
  cases assigned with
  | specific _ => exact Nat.le_succ 2
  | feature _ =>
      have frontend := one (matchesFor c frontendTerms)
      rw [List.length_append, List.length_append, List.length_singleton]
      split
      · rw [List.length_singleton]
        omega
      · rw [List.length_nil]
        omega
  | debug _ =>
      have errors := one (matchesFor c errorTerms)
      rw [List.length_cons, List.length_append, List.length_singleton]
      omega
  | refactor _ _ =>
      have shared := one (matchesFor c sharedTerms)
      rw [List.length_cons]
      omega
  | improvement _ =>
      have flagged := one (flaggedFiles c)
      rw [List.length_cons]
      omega
  | general _ => exact Nat.le_add_left 1 2

/-- No path has a word in it that stands for the server, the screen or the tests. -/
def IsFeatureless (c : RelevantContext) : Prop :=
  ∀ path ∈ c.paths,
    Text.containsAny (Text.lower path) (backendTerms ++ frontendTerms ++ testTerms) = false

theorem isFeatureless_iff : IsFeatureless c ↔
    matchesFor c testTerms = [] ∧ matchesFor c backendTerms = [] ∧ matchesFor c frontendTerms = [] := by
  simp only [IsFeatureless, matchesFor_eq_nil_iff, Text.containsAny, List.any_append,
    Bool.or_eq_false_iff]
  constructor
  · intro all
    exact ⟨fun path member => (all path member).2, fun path member => (all path member).1.1,
      fun path member => (all path member).1.2⟩
  · rintro ⟨tests, backend, frontend⟩ path member
    exact ⟨⟨backend path member, frontend path member⟩, tests path member⟩

theorem Assigned.supplied (some : c.paths ≠ []) (assigned : Assigned c a lists) :
    (∀ files ∈ lists.dropLast, files ≠ []) ∧
      ((∀ files ∈ lists, files ≠ []) ↔ (a.kind = "feature" → ¬ IsFeatureless c)) := by
  have scope := filesFor_ne_nil some (searchTerms a)
  have two : (filesFor c (searchTerms a)).take 2 ≠ [] := by simpa using scope
  have everywhere {lists : List (List String)} (other : a.kind ≠ "feature")
      (supplied : ∀ files ∈ lists, files ≠ []) : (∀ files ∈ lists.dropLast, files ≠ []) ∧
        ((∀ files ∈ lists, files ≠ []) ↔ (a.kind = "feature" → ¬ IsFeatureless c)) :=
    ⟨fun files member => supplied files (List.dropLast_subset _ member),
      fun _ kind => absurd kind other, fun _ => supplied⟩
  cases assigned with
  | specific other =>
      exact everywhere other (List.forall_mem_cons.mpr ⟨scope, List.forall_mem_singleton.mpr
        (orElse_ne_nil two)⟩)
  | feature kind =>
      have front : ∀ files ∈ (if !(matchesFor c backendTerms).isEmpty ||
          (matchesFor c frontendTerms).isEmpty then
            [orElse (matchesFor c backendTerms) (filesFor c [])] else []) ++
          unlessEmpty (matchesFor c frontendTerms), files ≠ [] := by
        refine List.forall_mem_append.mpr ⟨?_, unlessEmpty_supplied⟩
        split
        · exact List.forall_mem_singleton.mpr (orElse_ne_nil (filesFor_ne_nil some []))
        · simp
      rw [List.dropLast_concat]
      refine ⟨front, ?_⟩
      rw [List.forall_mem_append, and_iff_right front, List.forall_mem_singleton, Ne,
        orElse_eq_nil_iff, List.take_eq_nil_iff, orElse_eq_nil_iff, isFeatureless_iff]
      simp [kind]
  | debug other =>
      exact everywhere other (List.forall_mem_cons.mpr ⟨scope, List.forall_mem_append.mpr
        ⟨unlessEmpty_supplied, List.forall_mem_singleton.mpr (orElse_ne_nil two)⟩⟩)
  | @refactor paths other sorted =>
      have complex : Text.firstOf maxPhaseFiles paths ≠ [] := by
        rw [Ne, firstOf_eq_nil_iff (by decide)]
        rintro rfl
        exact some (byComplexity_perm sorted).nil_eq.symm
      exact everywhere other (List.forall_mem_cons.mpr ⟨complex, unlessEmpty_supplied⟩)
  | improvement other =>
      exact everywhere other (List.forall_mem_cons.mpr ⟨scope, unlessEmpty_supplied⟩)
  | general other =>
      exact everywhere other (List.forall_mem_singleton.mpr (filesFor_ne_nil some []))

end Bounds

/-- In a context with files a phase by rule names a file, unless it is the last phase of a feature of which
there is no trace in the paths. -/
theorem phasesByRule_supplied (some : c.files ≠ []) (made : phasesByRule prompt c a = .ok phases) :
    (∀ p ∈ phases.dropLast, p.relevantFiles ≠ []) ∧
      ((∀ p ∈ phases, p.relevantFiles ≠ []) ↔ (a.kind = "feature" → ∃ path ∈ c.paths,
        Text.containsAny (Text.lower path) (backendTerms ++ frontendTerms ++ testTerms) = true)) := by
  have paths : c.paths ≠ [] := by simpa [RelevantContext.paths] using some
  have supplied := (phasesByRule_assigned made).supplied paths
  rw [← List.map_dropLast, List.forall_mem_map, List.forall_mem_map] at supplied
  simpa [IsFeatureless] using supplied

def oneFile : RelevantContext := { files := [{ path := "src/login.ts" }] }

theorem phasesByRule_supplied_debug : ∃ phases, oneFile.files ≠ [] ∧
    phasesByRule "Fix the login bug" oneFile (analyzePrompt "Fix the login bug") = .ok phases ∧
    phases.length = 2 ∧ ∀ p ∈ phases, p.relevantFiles ≠ [] := by
  have some : oneFile.files ≠ [] := by simp [oneFile]
  have kind : (analyzePrompt "Fix the login bug").kind = "debug" := by decide +kernel
  obtain ⟨phases, made, length⟩ : ∃ phases, phasesByRule "Fix the login bug" oneFile
      (analyzePrompt "Fix the login bug") = .ok phases ∧ phases.length = 2 := by
    apply ok_of_shown
    decide +kernel
  have supplied := (phasesByRule_supplied some made).2.mpr (by simp [kind])
  exact ⟨phases, some, made, length, supplied⟩

/-- A feature of which there is no trace in the only path: its tests have no file. -/
theorem payments_untested : ∃ phases,
    phasesByRule "Add payments" oneFile (analyzePrompt "Add payments") = .ok phases ∧
    phases.map (fun p => (p.id, p.relevantFiles)) =
      [("phase-01", ["src/login.ts"]), ("phase-02", [])] ∧
    ¬ ∀ p ∈ phases, p.relevantFiles ≠ [] := by
  obtain ⟨phases, made, listed⟩ : ∃ phases,
      phasesByRule "Add payments" oneFile (analyzePrompt "Add payments") = .ok phases ∧
      phases.map (fun p => (p.id, p.relevantFiles)) =
        [("phase-01", ["src/login.ts"]), ("phase-02", [])] := by
    apply ok_of_shown
    decide +kernel
  refine ⟨phases, made, listed, fun supplied => ?_⟩
  have last : ("phase-02", ([] : List String)) ∈ phases.map fun p => (p.id, p.relevantFiles) := by
    simp [listed]
  obtain ⟨p, member, same⟩ := List.mem_map.mp last
  exact supplied p member (Prod.mk.inj same).2

end Groundwork.Planning
