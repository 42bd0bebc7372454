import Groundwork.Batch
import Mathlib.Data.List.Forall2

/-!
Where an element of a list is among its batches. All batches but the last one are full, so the position of
the element gives its batch and its place there.
-/

namespace Groundwork

variable {α β : Type} {size : Nat}

theorem batches_ne_nil {xs : List α} (some : xs ≠ []) : batches size xs ≠ [] := by
  intro none
  have flat := batches_flatten size xs
  rw [none] at flat
  exact some flat.symm

theorem nonempty_of_mem_batches {xs batch : List α} (member : batch ∈ batches size xs) :
    batch ≠ [] := by
  induction xs using batches.induct size with
  | case1 => simp [batches] at member
  | case2 x rest ih =>
      rw [batches, List.mem_cons] at member
      rcases member with rfl | later
      · simp
      · exact ih later

/-- All chunks but the last one are full, and that one is not larger. -/
inductive Packed (size : Nat) : List (List α) → Prop
  | nil : Packed size []
  | last {chunk : List α} (few : chunk.length ≤ size) : Packed size [chunk]
  | cons {chunk : List α} {rest : List (List α)} (full : chunk.length = size)
      (later : Packed size rest) : Packed size (chunk :: rest)

theorem batches_packed (sized : 0 < size) (xs : List α) : Packed size (batches size xs) := by
  induction xs using batches.induct size with
  | case1 =>
      rw [batches]
      exact .nil
  | case2 x rest ih =>
      rw [batches]
      by_cases short : rest.length < size
      · have none : rest.drop (size - 1) = [] := by
          rw [List.drop_eq_nil_iff]
          omega
        rw [none, batches]
        apply Packed.last
        rw [List.length_cons, List.length_take]
        omega
      · refine Packed.cons ?_ ih
        rw [List.length_cons, List.length_take]
        omega

namespace Packed

variable {chunks : List (List α)}

theorem length_le (packed : Packed size chunks) {chunk : List α} (member : chunk ∈ chunks) :
    chunk.length ≤ size := by
  induction packed with
  | nil => simp at member
  | last few =>
      rw [List.mem_singleton] at member
      exact member ▸ few
  | cons full later ih =>
      rcases List.mem_cons.mp member with rfl | member
      · omega
      · exact ih member

theorem length_of_dropLast (packed : Packed size chunks) {chunk : List α}
    (member : chunk ∈ chunks.dropLast) : chunk.length = size := by
  induction packed with
  | nil => simp at member
  | last few => simp at member
  | @cons first rest full later ih =>
      cases rest with
      | nil => simp at member
      | cons second others =>
          rw [List.dropLast_cons_cons, List.mem_cons] at member
          rcases member with rfl | among
          · exact full
          · exact ih among

theorem of_lengths {parts : List (List β)} (packed : Packed size parts)
    (even : List.Forall₂ (fun part chunk => chunk.length = part.length) parts chunks) :
    Packed size chunks := by
  induction packed generalizing chunks with
  | nil =>
      cases even
      exact .nil
  | last few =>
      obtain ⟨chunk, rest, same, others, rfl⟩ := List.forall₂_cons_left_iff.mp even
      cases others
      exact .last (same ▸ few)
  | cons full later ih =>
      obtain ⟨chunk, rest, same, others, rfl⟩ := List.forall₂_cons_left_iff.mp even
      exact .cons (same.trans full) (ih others)

theorem getElem?_flatten (sized : 0 < size) (packed : Packed size chunks) (k : Nat) :
    chunks.flatten[k]? = chunks[k / size]?.bind (·[k % size]?) := by
  induction packed generalizing k with
  | nil => simp
  | @last chunk few =>
      by_cases inFirst : k < size
      · simp [Nat.div_eq_of_lt inFirst, Nat.mod_eq_of_lt inFirst]
      · have later : 0 < k / size := Nat.div_pos (by omega) sized
        have none : [chunk][k / size]? = none := List.getElem?_eq_none later
        have beyond : chunk.length ≤ k := by omega
        simp [none, beyond]
  | @cons chunk rest full later ih =>
      rw [List.flatten_cons]
      by_cases inFirst : k < size
      · rw [List.getElem?_append_left (by omega), Nat.div_eq_of_lt inFirst, Nat.mod_eq_of_lt inFirst]
        rfl
      · obtain ⟨behind, rfl⟩ : ∃ behind, k = behind + size := ⟨k - size, by omega⟩
        rw [List.getElem?_append_right (by omega), full, Nat.add_sub_cancel, ih,
          Nat.add_div_right behind sized, Nat.add_mod_right, List.getElem?_cons_succ]

end Packed

end Groundwork
