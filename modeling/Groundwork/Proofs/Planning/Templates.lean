import Groundwork.Proofs.Json.Order
import Groundwork.Proofs.Planning.Sequence

/-!
Phases by rule. The files of a template are drawn from the context, and the phases of every kind of
goal fit from the first position on, whichever of the optional ones are left out.
-/

namespace Groundwork.Planning

variable {c : RelevantContext} {a : PromptAnalysis} {prompt : String}

section Files

theorem drawn_pickFiles (distinct : c.paths.Nodup) (terms : List String) (limit : Int)
    (fallback : Bool) : Drawn c.paths (pickFiles c terms limit fallback) := by
  have all : Drawn c.paths c.paths := ⟨distinct, List.Subset.refl _⟩
  unfold pickFiles
  extract_lets matched
  split
  · exact (all.sublist List.filter_sublist).sublist (firstOf_sublist limit _)
  · split
    · exact all.sublist (firstOf_sublist limit _)
    · exact drawn_nil c.paths

theorem drawn_filesFor (distinct : c.paths.Nodup) (terms : List String) :
    Drawn c.paths (filesFor c terms) := drawn_pickFiles distinct terms _ true

theorem drawn_matchesFor (distinct : c.paths.Nodup) (terms : List String) :
    Drawn c.paths (matchesFor c terms) := drawn_pickFiles distinct terms _ false

theorem Drawn.orElse {allowed first second : List String} (isFirst : Drawn allowed first)
    (isSecond : Drawn allowed second) : Drawn allowed (Planning.orElse first second) := by
  unfold Planning.orElse
  split
  · exact isSecond
  · exact isFirst

theorem Drawn.take {allowed files : List String} (drawn : Drawn allowed files) (count : Nat) :
    Drawn allowed (files.take count) := drawn.sublist (List.take_sublist count files)

theorem byComplexity_perm {paths : List String} (sorted : byComplexity c = .ok paths) :
    paths.Perm c.paths := by
  unfold byComplexity at sorted
  split at sorted
  · rename_i found
    cases sorted
    have perm := Json.sortBy?_perm found
    rw [List.map_map] at perm
    exact perm
  · simp at sorted

theorem exists_byComplexity {phases : List Phase} (made : refactorPhases prompt c a = .ok phases) :
    ∃ paths, byComplexity c = .ok paths := by
  unfold refactorPhases at made
  cases sorted : byComplexity c with
  | error fault => simp [sorted, bind, Except.bind] at made
  | ok paths => exact ⟨paths, rfl⟩

theorem drawn_byComplexity (distinct : c.paths.Nodup) {paths : List String}
    (sorted : byComplexity c = .ok paths) : Drawn c.paths paths :=
  have perm := byComplexity_perm sorted
  ⟨perm.nodup_iff.mpr distinct, perm.subset⟩

theorem drawn_flaggedFiles (distinct : c.paths.Nodup) : Drawn c.paths (flaggedFiles c) := by
  have all : Drawn c.paths c.paths := ⟨distinct, List.Subset.refl _⟩
  exact (all.sublist (List.filter_sublist.map _)).sublist (firstOf_sublist _ _)

end Files

section Templates

theorem dependsOnFirst {position : Nat} (later : 0 < position) :
    ∀ d ∈ [phaseId 0], ∃ earlier < position, d = phaseId earlier := by
  intro d member
  exact ⟨0, later, List.mem_singleton.mp member⟩

theorem Fit.optional {allowed : List String} {position : Nat} {p : Phase} (without : Bool)
    (fits : FitsAt allowed position p) :
    Fit allowed position (if without then [] else [p]) := by
  cases without with
  | false => exact .one fits
  | true => exact .nil position

variable (distinct : c.paths.Nodup) (valid : a.complexity ∈ levels)

include distinct valid

theorem debugPhases_fit : Fit c.paths 0 (debugPhases prompt c a) := by
  unfold debugPhases
  extract_lets focus scope errorFiles fix harden begun cover
  have scopeDrawn : Drawn c.paths scope := drawn_filesFor distinct _
  have fixFits : FitsAt c.paths 0 fix :=
    ⟨rfl, by simp [fix], scopeDrawn, ⟨_, valid, rfl⟩, ⟨_, by decide, rfl⟩, ⟨_, by decide, rfl⟩⟩
  have hardenFits : FitsAt c.paths 1 harden :=
    ⟨rfl, dependsOnFirst (by decide), drawn_matchesFor distinct _, ⟨_, by decide, rfl⟩,
      ⟨_, by decide, rfl⟩, ⟨_, by decide, rfl⟩⟩
  have begunFit : Fit c.paths 0 begun := .cons fixFits (.optional _ hardenFits)
  have coverFits : FitsAt c.paths begun.length cover :=
    ⟨rfl, dependsOnFirst (by simp [begun]), (drawn_matchesFor distinct _).orElse (scopeDrawn.take 2),
      ⟨_, by decide, rfl⟩, ⟨_, by decide, rfl⟩, ⟨_, by decide, rfl⟩⟩
  refine begunFit.append (.one ?_)
  rwa [Nat.zero_add]

theorem featurePhases_fit : Fit c.paths 0 (featurePhases prompt c a) := by
  unfold featurePhases
  extract_lets focus backend frontend logic begun screens built cover
  have backendDrawn : Drawn c.paths backend := drawn_matchesFor distinct _
  have frontendDrawn : Drawn c.paths frontend := drawn_matchesFor distinct _
  have logicFits : FitsAt c.paths 0 logic :=
    ⟨rfl, by simp [logic], backendDrawn.orElse (drawn_filesFor distinct _), ⟨_, valid, rfl⟩,
      ⟨_, by decide, rfl⟩, ⟨_, by decide, rfl⟩⟩
  have begunFit : Fit c.paths 0 begun := by
    unfold begun
    split
    · exact .one logicFits
    · exact .nil 0
  have onLogic : ∀ d ∈ screens.dependencies, ∃ earlier < begun.length, d = phaseId earlier := by
    intro d member
    simp only [screens] at member
    split at member
    · simp at member
    · rename_i some
      exact dependsOnFirst (List.length_pos_iff.mpr (by simpa using some)) d member
  have screensFits : FitsAt c.paths begun.length screens :=
    ⟨rfl, onLogic, frontendDrawn, ⟨_, by decide, rfl⟩, ⟨_, by decide, rfl⟩, ⟨_, by decide, rfl⟩⟩
  have builtFit : Fit c.paths 0 built := by
    refine begunFit.append (.optional _ ?_)
    rwa [Nat.zero_add]
  have onAll : ∀ d ∈ cover.dependencies, ∃ earlier < built.length, d = phaseId earlier := by
    intro d member
    simp only [cover, builtFit.ids, List.mem_map, List.mem_range'_1, Nat.zero_add] at member
    obtain ⟨earlier, ⟨_, before⟩, rfl⟩ := member
    exact ⟨earlier, before, rfl⟩
  have coverFits : FitsAt c.paths built.length cover :=
    ⟨rfl, onAll, (drawn_matchesFor distinct _).orElse ((backendDrawn.orElse frontendDrawn).take 2),
      ⟨_, by decide, rfl⟩, ⟨_, by decide, rfl⟩, ⟨_, by decide, rfl⟩⟩
  refine builtFit.append (.one ?_)
  rwa [Nat.zero_add]

theorem specificPhases_fit : Fit c.paths 0 (specificPhases prompt c a) := by
  have scopeDrawn := drawn_filesFor distinct (searchTerms a)
  refine .cons ⟨rfl, by simp, scopeDrawn, ⟨_, valid, rfl⟩, ⟨_, by decide, rfl⟩,
    ⟨_, by decide, rfl⟩⟩ (.one ?_)
  exact ⟨rfl, dependsOnFirst (by decide), (drawn_matchesFor distinct _).orElse (scopeDrawn.take 2),
    ⟨_, by decide, rfl⟩, ⟨_, by decide, rfl⟩, ⟨_, by decide, rfl⟩⟩

theorem improvementPhases_fit : Fit c.paths 0 (improvementPhases prompt c a) := by
  unfold improvementPhases
  extract_lets focus flagged optimize resolve
  have resolveFits : FitsAt c.paths 1 resolve :=
    ⟨rfl, by simp [resolve], drawn_flaggedFiles distinct, ⟨_, by decide, rfl⟩,
      ⟨_, by decide, rfl⟩, ⟨_, by decide, rfl⟩⟩
  refine .cons ⟨rfl, by simp [optimize], drawn_filesFor distinct _, ⟨_, valid, rfl⟩,
    ⟨_, by decide, rfl⟩, ⟨_, by decide, rfl⟩⟩ (.optional _ resolveFits)

theorem generalPhases_fit : Fit c.paths 0 (generalPhases prompt c a) :=
  .one ⟨rfl, by simp, drawn_filesFor distinct [], ⟨_, valid, rfl⟩, ⟨_, by decide, rfl⟩,
    ⟨_, by decide, rfl⟩⟩

omit valid in
theorem refactorPhases_fit {phases : List Phase} (made : refactorPhases prompt c a = .ok phases) :
    Fit c.paths 0 phases := by
  obtain ⟨paths, sorted⟩ := exists_byComplexity made
  unfold refactorPhases at made
  rw [sorted] at made
  extract_lets focus shared extract at made
  have first : Drawn c.paths (Text.firstOf maxPhaseFiles paths) :=
    (drawn_byComplexity distinct sorted).sublist (firstOf_sublist _ _)
  have extractFits : FitsAt c.paths 1 extract :=
    ⟨rfl, dependsOnFirst (by decide), drawn_matchesFor distinct _, ⟨_, by decide, rfl⟩,
      ⟨_, by decide, rfl⟩, ⟨_, by decide, rfl⟩⟩
  have level : (if a.complexity == "high" then "high" else "medium") ∈ levels := by
    split <;> decide
  cases made
  refine .cons ?_ (.optional _ extractFits)
  exact ⟨rfl, by simp, first, ⟨_, level, rfl⟩, ⟨_, by decide, rfl⟩, ⟨_, by decide, rfl⟩⟩

theorem phasesByRule_fit {phases : List Phase} (made : phasesByRule prompt c a = .ok phases) :
    Fit c.paths 0 phases := by
  unfold phasesByRule at made
  split at made
  · cases made
    exact specificPhases_fit distinct valid
  · cases made
    exact featurePhases_fit distinct valid
  · cases made
    exact debugPhases_fit distinct valid
  · exact refactorPhases_fit distinct made
  · cases made
    exact improvementPhases_fit distinct valid
  · cases made
    exact generalPhases_fit distinct valid

end Templates

theorem refactorPhases_cases (prompt : String) (c : RelevantContext) (a : PromptAnalysis) :
    (∃ fault, byComplexity c = .error fault ∧ refactorPhases prompt c a = .error fault) ∨
      ∃ paths phases, byComplexity c = .ok paths ∧ refactorPhases prompt c a = .ok phases ∧
        phases ≠ [] := by
  unfold refactorPhases
  cases sorted : byComplexity c with
  | error fault => exact Or.inl ⟨fault, rfl, rfl⟩
  | ok paths => exact Or.inr ⟨paths, _, rfl, rfl, by simp⟩

theorem phasesByRule_cases (prompt : String) (c : RelevantContext) (a : PromptAnalysis) :
    (∃ phases, phasesByRule prompt c a = .ok phases ∧ phases ≠ []) ∨
      (a.kind = "refactor" ∧
        ∃ fault, byComplexity c = .error fault ∧ phasesByRule prompt c a = .error fault) := by
  unfold phasesByRule
  split
  · exact Or.inl ⟨_, rfl, by simp [specificPhases]⟩
  · exact Or.inl ⟨_, rfl, by simp [featurePhases]⟩
  · exact Or.inl ⟨_, rfl, by simp [debugPhases]⟩
  · rename_i refactoring
    rcases refactorPhases_cases prompt c a with ⟨fault, unsorted, failed⟩ | ⟨_, phases, _, made, some⟩
    · exact Or.inr ⟨refactoring, fault, unsorted, failed⟩
    · exact Or.inl ⟨phases, made, some⟩
  · exact Or.inl ⟨_, rfl, by simp [improvementPhases]⟩
  · exact Or.inl ⟨_, rfl, by simp [generalPhases]⟩

theorem phasesByRule_ne_nil {phases : List Phase} (made : phasesByRule prompt c a = .ok phases) :
    phases ≠ [] := by
  rcases phasesByRule_cases prompt c a with ⟨_, found, some⟩ | ⟨_, fault, _, failed⟩
  · rw [made] at found
    cases found
    exact some
  · simp [made] at failed

theorem analyzePrompt_level (prompt : String) : (analyzePrompt prompt).complexity ∈ levels := by
  simp only [analyzePrompt, complexityOf]
  split
  · decide
  · split <;> decide

end Groundwork.Planning
