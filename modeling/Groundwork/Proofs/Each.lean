import Mathlib.Data.List.Perm.Basic

/-!
Steps that can fail, one after the other, and parts of a whole that are made one after the other until
one fails.
-/

namespace Groundwork

variable {ε α β : Type} {f : α → Except ε β} {xs : List α} {ys : List β} {fault : ε}

section Steps

variable {x : Except ε α} {y : β}

theorem bind_eq_ok_iff : x >>= f = .ok y ↔ ∃ a, x = .ok a ∧ f a = .ok y := by
  cases x <;> simp [bind, Except.bind]

theorem bind_eq_error_iff :
    x >>= f = .error fault ↔ x = .error fault ∨ ∃ a, x = .ok a ∧ f a = .error fault := by
  cases x <;> simp [bind, Except.bind]

theorem map_eq_ok_iff {g : α → β} : x.map g = .ok y ↔ ∃ a, x = .ok a ∧ g a = y := by
  cases x <;> simp [Except.map]

theorem map_eq_error_iff {g : α → β} : x.map g = .error fault ↔ x = .error fault := by
  cases x <;> simp [Except.map]

end Steps

theorem mapM_eq_ok_iff : xs.mapM f = .ok ys ↔ List.Forall₂ (fun x y => f x = .ok y) xs ys := by
  induction xs generalizing ys with
  | nil => cases ys <;> simp [pure, Except.pure]
  | cons x xs ih =>
      rw [List.mapM_cons, List.forall₂_cons_left_iff]
      cases first : f x with
      | error fault => simp [bind, Except.bind]
      | ok y =>
          cases others : xs.mapM f with
          | error fault =>
              have none (zs : List β) : ¬ List.Forall₂ (fun x y => f x = .ok y) xs zs := by
                rw [← ih, others]
                simp
              simp [bind, Except.bind, none]
          | ok rest =>
              simp [bind, Except.bind, pure, Except.pure, ← ih, others, eq_comm]

theorem mapM_eq_error_iff : xs.mapM f = .error fault ↔ ∃ before x after,
    xs = before ++ x :: after ∧ (∀ y ∈ before, ∃ made, f y = .ok made) ∧ f x = .error fault := by
  induction xs with
  | nil => simp [pure, Except.pure]
  | cons x xs ih =>
      rw [List.mapM_cons]
      cases first : f x with
      | error other =>
          constructor
          · intro failed
            have same : other = fault := by simpa [bind, Except.bind] using failed
            exact ⟨[], x, xs, rfl, by simp, same ▸ first⟩
          · rintro ⟨before, y, after, split, earlier, failed⟩
            cases before with
            | nil =>
                obtain ⟨rfl, rfl⟩ := List.cons.inj split
                rw [first] at failed
                cases failed
                rfl
            | cons z before =>
                obtain ⟨rfl, rfl⟩ := List.cons.inj split
                obtain ⟨made, ok⟩ := earlier x List.mem_cons_self
                simp [first] at ok
      | ok y =>
          have onward : (do let y ← Except.ok y; let ys ← xs.mapM f; pure (y :: ys)) =
              (.error fault : Except ε (List β)) ↔ xs.mapM f = .error fault := by
            cases xs.mapM f <;> simp [bind, Except.bind, pure, Except.pure]
          rw [onward, ih]
          constructor
          · rintro ⟨before, z, after, rfl, earlier, failed⟩
            exact ⟨x :: before, z, after, rfl, List.forall_mem_cons.mpr ⟨⟨y, first⟩, earlier⟩, failed⟩
          · rintro ⟨before, z, after, split, earlier, failed⟩
            cases before with
            | nil =>
                obtain ⟨rfl, rfl⟩ := List.cons.inj split
                simp [first] at failed
            | cons other before =>
                obtain ⟨rfl, rfl⟩ := List.cons.inj split
                exact ⟨before, z, after, rfl, (List.forall_mem_cons.mp earlier).2, failed⟩

theorem mapM_ok (each : ∀ x ∈ xs, ∃ y, f x = .ok y) :
    ∃ ys, xs.mapM f = .ok ys ∧ List.Forall₂ (fun x y => f x = .ok y) xs ys := by
  cases made : xs.mapM f with
  | ok ys => exact ⟨ys, rfl, mapM_eq_ok_iff.mp made⟩
  | error fault =>
      obtain ⟨before, x, after, rfl, _, failed⟩ := mapM_eq_error_iff.mp made
      obtain ⟨y, ok⟩ := each x (by simp)
      simp [failed] at ok

theorem mapM_error {x : α} (member : x ∈ xs) (failed : f x = .error fault) :
    ∃ fault, xs.mapM f = .error fault := by
  cases made : xs.mapM f with
  | error fault => exact ⟨fault, rfl⟩
  | ok ys =>
      have beside := mapM_eq_ok_iff.mp made
      obtain ⟨⟨position, bound⟩, rfl⟩ := List.mem_iff_get.mp member
      have ok := beside.get bound (beside.length_eq ▸ bound)
      cases failed.symm.trans ok

theorem mapM_perm {others : List α} (perm : xs.Perm others) (made : xs.mapM f = .ok ys) :
    ∃ zs, others.mapM f = .ok zs ∧ ys.Perm zs := by
  obtain ⟨zs, beside, same⟩ := List.perm_comp_forall₂ perm.symm (mapM_eq_ok_iff.mp made)
  exact ⟨zs, mapM_eq_ok_iff.mpr beside, same.symm⟩

theorem length_of_mapM (made : xs.mapM f = .ok ys) : ys.length = xs.length :=
  (mapM_eq_ok_iff.mp made).length_eq.symm

end Groundwork
