import Groundwork.Text.Basic
import Mathlib.Algebra.BigOperators.Group.List.Lemmas
import Mathlib.Algebra.GroupWithZero.Nat
import Mathlib.Data.List.Induction
import Mathlib.Data.List.Nodup

/-!
Equal elements kept once. They stand in the order in which they first occur.
-/

namespace Groundwork.Text

variable {α : Type} [BEq α] [LawfulBEq α] {xs : List α} {x : α}

theorem mem_distinct : x ∈ distinct xs ↔ x ∈ xs := by
  have collected (rest kept : List α) :
      x ∈ rest.foldl (fun kept y => if kept.contains y then kept else y :: kept) kept ↔
        x ∈ kept ∨ x ∈ rest := by
    induction rest generalizing kept with
    | nil => simp
    | cons y rest ih =>
        rw [List.foldl_cons, ih]
        split
        · rename_i seen
          have member : y ∈ kept := by simpa using seen
          constructor
          · exact Or.imp_right (List.mem_cons_of_mem y)
          · rintro (old | new)
            · exact Or.inl old
            · rcases List.mem_cons.mp new with rfl | later
              · exact Or.inl member
              · exact Or.inr later
        · simp only [List.mem_cons, or_left_comm, or_assoc]
  rw [distinct, List.mem_reverse, collected]
  simp

theorem distinct_concat_of_mem (member : x ∈ xs) : distinct (xs ++ [x]) = distinct xs := by
  have seen := mem_distinct.mpr member
  rw [distinct, List.mem_reverse] at seen
  rw [distinct, List.foldl_append, List.foldl_cons, List.foldl_nil, if_pos (by simpa using seen)]
  rfl

theorem distinct_concat_of_notMem (fresh : x ∉ xs) :
    distinct (xs ++ [x]) = distinct xs ++ [x] := by
  have unseen := mt mem_distinct.mp fresh
  rw [distinct, List.mem_reverse] at unseen
  rw [distinct, List.foldl_append, List.foldl_cons, List.foldl_nil, if_neg (by simpa using unseen),
    List.reverse_cons]
  rfl

theorem distinct_pairwise (xs : List α) :
    (distinct xs).Pairwise fun a b => xs.idxOf a < xs.idxOf b := by
  induction xs using List.reverseRecOn with
  | nil => exact List.Pairwise.nil
  | append_singleton xs x ih =>
      have unmoved : (distinct xs).Pairwise fun a b => (xs ++ [x]).idxOf a < (xs ++ [x]).idxOf b := by
        refine ih.imp_of_mem fun first second before => ?_
        rwa [List.idxOf_append_of_mem (mem_distinct.mp first),
          List.idxOf_append_of_mem (mem_distinct.mp second)]
      by_cases member : x ∈ xs
      · rwa [distinct_concat_of_mem member]
      · rw [distinct_concat_of_notMem member]
        refine List.pairwise_append.mpr ⟨unmoved, List.pairwise_singleton _ _, ?_⟩
        intro a kept b last
        have within : a ∈ xs := mem_distinct.mp kept
        rw [List.mem_singleton.mp last, List.idxOf_append_of_mem within,
          List.idxOf_append_of_notMem member]
        exact Nat.lt_add_right _ (List.idxOf_lt_length_iff.mpr within)

theorem distinct_of_nodup (unique : xs.Nodup) : distinct xs = xs := by
  induction xs using List.reverseRecOn with
  | nil => rfl
  | append_singleton xs x ih =>
      obtain ⟨front, _, apart⟩ := List.nodup_append.mp unique
      have fresh : x ∉ xs := fun member => apart x member x (by simp) rfl
      rw [distinct_concat_of_notMem fresh, ih front]

theorem sum_count_distinct (xs : List String) :
    ((distinct xs).map fun x => xs.count x).sum = xs.length := by
  have same : (distinct xs).Perm xs.dedup := by
    refine (List.perm_ext_iff_of_nodup (distinct_nodup xs) (List.nodup_dedup xs)).mpr fun x => ?_
    rw [mem_distinct, List.mem_dedup]
  rw [(same.map _).sum_eq]
  exact List.sum_map_count_dedup_eq_length xs

end Groundwork.Text
