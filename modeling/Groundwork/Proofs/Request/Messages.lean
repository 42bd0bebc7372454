import Groundwork.Proofs.Text.Pieces
import Groundwork.Request.Model

/-!
How violations read. Only names of members, positions and the words of the checks stand in the text of a
violation, and nothing of the data: what is in the data cannot be taken for a style tag.
-/

namespace Groundwork.Request

variable {α β : Type}

def Plain (s : String) : Prop := '[' ∉ s.toList

instance (s : String) : Decidable (Plain s) := inferInstanceAs (Decidable ('[' ∉ s.toList))

def Plainly (result : Except (List Violation) α) : Prop :=
  ∀ violations, result = .error violations → ∀ v ∈ violations,
    (∀ step ∈ v.path, Plain step) ∧ Plain v.problem.message

section Texts

theorem Plain.append {s t : String} (first : Plain s) (second : Plain t) : Plain (s ++ t) := by
  rw [Plain, String.toList_append, List.mem_append]
  exact not_or.mpr ⟨first, second⟩

end Texts

section Parts

variable {result : Except (List Violation) α}

theorem plainly_ok (value : α) : Plainly (.ok value : Except (List Violation) α) := by
  rintro _ ⟨⟩

theorem Plainly.within {step : String} (plainly : Plainly result) (plain : Plain step) :
    Plainly (within step result) := by
  cases result with
  | ok value => exact plainly_ok value
  | error inner =>
      rintro _ ⟨⟩ w member
      obtain ⟨v, inside, rfl⟩ := List.mem_map.mp member
      obtain ⟨path, problem⟩ := plainly inner rfl v inside
      exact ⟨List.forall_mem_cons.mpr ⟨plain, path⟩, problem⟩

theorem Plainly.both {other : Except (List Violation) β} (first : Plainly result)
    (second : Plainly other) : Plainly (both result other) := by
  cases result with
  | ok a =>
      cases other with
      | ok b => exact plainly_ok (a, b)
      | error violations => rintro _ ⟨⟩; exact second violations rfl
  | error violations =>
      cases other with
      | ok b => rintro _ ⟨⟩; exact first violations rfl
      | error others =>
          rintro _ ⟨⟩ v member
          exact (List.mem_append.mp member).elim (first violations rfl v) (second others rfl v)

theorem Plainly.map {f : α → β} (plainly : Plainly result) : Plainly (result.map f) := by
  cases result with
  | ok value => exact plainly_ok (f value)
  | error violations => rintro _ ⟨⟩; exact plainly violations rfl

variable {check : Json → Except (List Violation) α}

variable {names : List String} {m : Json.Members}

end Parts

section Values

end Values

section Plans

end Plans

end Groundwork.Request
