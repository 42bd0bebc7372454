import Groundwork.Proofs.Summary.Runs
import Groundwork.Repository.Survey

/-!
What becomes of the description of a file. Enrichment leaves alone a description that says that the file
could not be read or parsed. Whether a text is asked for does not depend on it, and a text that comes
takes its place.
-/

namespace Groundwork

open Text

namespace Issue

theorem offset?_empty (path : String) : ∀ rule ∈ rules, rule.offset? path [] = none := by
  have word (name : String) : wordAfter? name none [] = none := rfl
  have calls (names : List String) : find? (callOf names) [] = none := by
    simp [find?, search, callOf, word]
  have wholeWords (words : List String) : find? (wholeWord words) [] = none := by
    simp [find?, search, wholeWord, word]
  have wordsThenBlank (words : List String) : find? (wordThenBlank words) [] = none := by
    simp [find?, search, wordThenBlank, word]
  have password : find? passwordText [] = none := by decide
  have key : find? apiKeyText [] = none := by decide
  simp only [rules, List.forall_mem_cons]
  refine ⟨?_, ?_, ?_, ?_, ?_, ?_, ?_, ?_, by simp⟩
  · simp only [dangerousCall, calls]
  · simp only [hardcodedPassword, password]
  · simp only [hardcodedKey, key]
  · simp [sqlInjection, wholeWords]
  · simp [awaitInLoop, wordsThenBlank]
  · simp [missingErrorHandling, wholeWords, wordsThenBlank]
  · simp only [debugOutput]
    split
    · rfl
    · split
      · decide
      · exact calls _
  · simp only [workLeft]
    split <;> decide

theorem detect_empty (path : String) : detect path "" = [] := by
  rw [detect, List.filterMap_eq_nil_iff]
  intro rule member
  rw [Rule.report?, String.toList_empty, offset?_empty path rule member]
  rfl

end Issue

namespace FileRecord

def Eligible (f : FileRecord) : Prop :=
  Assessment.isExcluded f.path = false ∧
    (Assessment.isComplex f (Assessment.complexityOf f) = true ∨
      Assessment.isSensitive f.path = true ∨ Issue.detect f.path f.content ≠ [])

theorem enrich_needsSummary (f : FileRecord) : f.enrich.needsSummary = some true ↔ f.Eligible := by
  simp [enrich, enrichWith, Eligible, Assessment.needsSummary, or_assoc]

theorem enrich_description {f : FileRecord} (degraded : f.isDegraded = true) :
    f.enrich.description = f.description := by
  rw [enrich, enrichWith, degraded]
  rfl

theorem eligible_unreadable (path : String) (content : StoredFile) :
    (unreadable path content).Eligible ↔
      Assessment.isExcluded path = false ∧ Assessment.isSensitive path = true := by
  have complexity : Assessment.complexityOf (unreadable path content) = 0 :=
    show Assessment.complexity 0 0 0 0 = 0 by decide
  have simple : Assessment.isComplex (unreadable path content)
      (Assessment.complexityOf (unreadable path content)) = false := by
    rw [complexity]
    rfl
  have none : Issue.detect (unreadable path content).path (unreadable path content).content = [] :=
    Issue.detect_empty path
  rw [Eligible, simple, none]
  simp [unreadable]

end FileRecord

namespace Summary

variable {attempts : List Attempt} {r : FileRecord}

theorem applyTo_other (other : ∀ a ∈ attempts, a.request.path ≠ r.path) :
    applyTo (attempts.map (·.result)) r = r := by
  have none : ((attempts.map (·.result)).reverse.find? (·.path == r.path)) = none := by
    rw [List.find?_eq_none]
    intro result member
    rw [List.mem_reverse, List.mem_map] at member
    obtain ⟨a, among, rfl⟩ := member
    rw [a.result_path, beq_iff_eq]
    exact other a among
  rw [applyTo, none]

theorem exists_applied (asked : ∃ a ∈ attempts, a.request.path = r.path) :
    ∃ a ∈ attempts, a.request.path = r.path ∧
      (∀ text, a.outcome = .ok text → applyTo (attempts.map (·.result)) r =
        { r with description := text, summarySource := some .generated }) ∧
      ∀ failure, a.outcome = .error failure → applyTo (attempts.map (·.result)) r =
        { r with summarySource := some .ruleBased } := by
  obtain ⟨first, firstAmong, firstPath⟩ := asked
  have found : ((attempts.map (·.result)).reverse.find? (·.path == r.path)).isSome = true := by
    rw [List.find?_isSome]
    refine ⟨first.result, List.mem_reverse.mpr (List.mem_map_of_mem firstAmong), ?_⟩
    rw [first.result_path, firstPath, beq_self_eq_true]
  obtain ⟨result, isResult⟩ := Option.isSome_iff_exists.mp found
  have path := List.find?_some isResult
  have member := List.mem_of_find?_eq_some isResult
  rw [List.mem_reverse, List.mem_map] at member
  obtain ⟨a, among, rfl⟩ := member
  rw [a.result_path, beq_iff_eq] at path
  refine ⟨a, among, path, ?_, ?_⟩
  · intro text outcome
    rw [applyTo, isResult, Attempt.result, outcome]
    rfl
  · intro failure outcome
    rw [applyTo, isResult, Attempt.result, outcome]
    rfl

end Summary

end Groundwork
