import Groundwork.Planning.Planner
import Mathlib.Data.List.Nodup
import Mathlib.Logic.Relation

/-!
What every list of phases has to satisfy, phase by phase: a phase is named after its position, depends
on phases at earlier positions, names files that are allowed, each once, and has valid labels.
-/

namespace Groundwork.Planning

open Relation

structure Drawn (allowed files : List String) : Prop where
  once : files.Nodup
  within : files ⊆ allowed

theorem Drawn.sublist {allowed files fewer : List String} (drawn : Drawn allowed files)
    (part : fewer.Sublist files) : Drawn allowed fewer :=
  ⟨drawn.once.sublist part, fun _ member => drawn.within (part.subset member)⟩

theorem drawn_nil (allowed : List String) : Drawn allowed [] :=
  ⟨List.nodup_nil, List.nil_subset allowed⟩

theorem firstOf_eq_take {α : Type} (n : Int) (xs : List α) :
    ∃ count, Text.firstOf n xs = xs.take count := by
  unfold Text.firstOf
  split
  · exact ⟨n.toNat, rfl⟩
  · exact ⟨xs.length - n.natAbs, rfl⟩

theorem firstOf_sublist {α : Type} (n : Int) (xs : List α) : (Text.firstOf n xs).Sublist xs := by
  obtain ⟨count, same⟩ := firstOf_eq_take n xs
  rw [same]
  exact List.take_sublist count xs

theorem length_firstOf {α : Type} {n : Int} (bound : 0 ≤ n) (xs : List α) :
    ((Text.firstOf n xs).length : Int) = min n xs.length := by
  rw [Text.firstOf, if_pos bound, List.length_take]
  omega

theorem ok_of_map {ε α β : Type} {f : α → β} {result : Except ε α} {b : β}
    (made : result.map f = .ok b) : ∃ a, result = .ok a ∧ f a = b := by
  cases result with
  | error failure => simp [Except.map] at made
  | ok a => exact ⟨a, rfl, Except.ok.inj made⟩

theorem ok_of_shown {ε α β : Type} {f : α → β} {result : Except ε α} {b : β}
    (shown : result.toOption.map f = some b) : ∃ a, result = .ok a ∧ f a = b := by
  cases result with
  | error failure => simp [Except.toOption] at shown
  | ok a => exact ⟨a, rfl, Option.some.inj shown⟩

structure FitsAt (allowed : List String) (position : Nat) (p : Phase) : Prop where
  id : p.id = phaseId position
  dependencies : ∀ d ∈ p.dependencies, ∃ earlier < position, d = phaseId earlier
  files : Drawn allowed p.relevantFiles
  complexity : ∃ level ∈ levels, p.complexity = .str level
  priority : ∃ level ∈ levels, p.priority = .str level
  category : ∃ kind ∈ categories, p.category = .str kind

inductive Fit (allowed : List String) : Nat → List Phase → Prop
  | nil (position : Nat) : Fit allowed position []
  | cons {position : Nat} {p : Phase} {rest : List Phase} : FitsAt allowed position p →
      Fit allowed (position + 1) rest → Fit allowed position (p :: rest)

namespace Fit

variable {allowed : List String} {position : Nat} {phases more : List Phase}

theorem one {p : Phase} (fits : FitsAt allowed position p) : Fit allowed position [p] :=
  .cons fits (.nil (position + 1))

theorem append (first : Fit allowed position phases)
    (second : Fit allowed (position + phases.length) more) :
    Fit allowed position (phases ++ more) := by
  induction first with
  | nil position => exact second
  | cons fits _ ih =>
      refine .cons fits (ih ?_)
      rw [List.length_cons, Nat.add_comm _ 1, ← Nat.add_assoc] at second
      exact second

theorem take (fit : Fit allowed position phases) (count : Nat) :
    Fit allowed position (phases.take count) := by
  induction fit generalizing count with
  | nil position =>
      rw [List.take_nil]
      exact .nil position
  | cons fits _ ih =>
      cases count with
      | zero => exact .nil _
      | succ count => exact .cons fits (ih count)

theorem getElem? (fit : Fit allowed position phases) {offset : Nat} {p : Phase}
    (found : phases[offset]? = some p) : FitsAt allowed (position + offset) p := by
  induction fit generalizing offset with
  | nil position => simp at found
  | @cons position first rest fits _ ih =>
      cases offset with
      | zero =>
          obtain rfl : first = p := by simpa using found
          exact fits
      | succ offset =>
          have later : rest[offset]? = some p := by simpa using found
          rw [Nat.add_comm offset, ← Nat.add_assoc]
          exact ih later

theorem ids (fit : Fit allowed position phases) :
    phases.map (·.id) = (List.range' position phases.length).map phaseId := by
  induction fit with
  | nil position => rfl
  | cons fits _ ih => simp [List.range'_succ, fits.id, ih]

theorem keepDependencies (fit : Fit allowed position phases) (keep : String → Bool) :
    Fit allowed position
      (phases.map fun p => { p with dependencies := p.dependencies.filter keep }) := by
  induction fit with
  | nil position => exact .nil position
  | cons fits _ ih =>
      refine .cons { fits with dependencies := ?_ } ih
      intro d member
      exact fits.dependencies d (List.mem_of_mem_filter member)

end Fit

def DependsOn (phases : List Phase) (id other : String) : Prop :=
  ∃ p ∈ phases, p.id = id ∧ other ∈ p.dependencies

end Groundwork.Planning
