import Groundwork.Graph.Layers
import Groundwork.Proofs.Graph.Paths

/-!
The rounds of the layering place exactly the positions of the next height. When no position of a height
is left, what has not been placed is what reaches a cycle.
-/

namespace Groundwork.Graph.FileGraph

variable {g : FileGraph}

theorem getElem?_modify_pred (counts : List Int) (i query : Nat) :
    (counts.modify i (· - 1))[query]? =
      counts[query]?.map fun n => if i = query then n - 1 else n := by
  rw [List.getElem?_modify]
  by_cases same : i = query <;> cases counts[query]? <;> simp [same]

theorem release_counts (counts : List Int) (positions : List Nat) (query : Nat) :
    (release counts positions).1[query]? =
      counts[query]?.map fun n : Int => n - positions.count query := by
  induction positions generalizing counts with
  | nil => simp [release]
  | cons i rest ih =>
      simp only [release]
      rw [ih, getElem?_modify_pred, Option.map_map]
      congr 1
      funext n
      by_cases same : i = query
      · simp only [Function.comp_apply, same, if_true, List.count_cons_self]
        omega
      · simp [same]

theorem release_freed (counts : List Int) (positions : List Nat) (query : Nat) :
    (release counts positions).2.count query =
      if ∃ n : Int, counts[query]? = some n ∧ 0 < n ∧ n ≤ positions.count query then 1 else 0 := by
  induction positions generalizing counts with
  | nil =>
      rw [if_neg]
      · rfl
      · rintro ⟨n, _, positive, atMost⟩
        simp only [List.count_nil] at atMost
        omega
  | cons i rest ih =>
      simp only [release]
      have tail := ih (counts.modify i (· - 1))
      rw [getElem?_modify_pred] at tail
      by_cases same : i = query
      · subst i
        rw [getElem?_modify_pred]
        cases found : counts[query]? with
        | none =>
            rw [found] at tail
            simpa using tail
        | some n =>
            rw [found] at tail
            simp only [Option.map_some, if_true, Option.some.injEq, exists_eq_left'] at tail ⊢
            simp only [List.count_cons_self]
            by_cases last : n - 1 = 0
            · rw [if_pos last, List.count_cons_self, tail, if_neg (by omega), if_pos (by omega)]
            · rw [if_neg last, tail]
              congr 1
              simp only [eq_iff_iff]
              omega
      · have untouched : (if (counts.modify i (· - 1))[i]? = some 0 then
            i :: (release (counts.modify i (· - 1)) rest).2
            else (release (counts.modify i (· - 1)) rest).2).count query =
              (release (counts.modify i (· - 1)) rest).2.count query := by
          split
          · exact List.count_cons_of_ne same
          · rfl
        rw [untouched, tail, List.count_cons_of_ne same]
        simp [same]

theorem countP_mem_comm {xs ys : List Nat} (xsUnique : xs.Nodup) (ysUnique : ys.Nodup) :
    xs.countP (· ∈ ys) = ys.countP (· ∈ xs) := by
  rw [List.countP_eq_length_filter, List.countP_eq_length_filter]
  apply List.Perm.length_eq
  rw [List.perm_ext_iff_of_nodup (xsUnique.filter _) (ysUnique.filter _)]
  intro value
  simp [and_comm]

theorem count_dependents (sound : g.Sound) {current : List Nat} (unique : current.Nodup) (i : Nat) :
    (current.flatMap g.dependentsOf).count i = (g.dependenciesOf i).countP (· ∈ current) := by
  rw [← countP_mem_comm unique (sound.dependenciesUnique i), List.count_flatMap]
  induction current with
  | nil => rfl
  | cons j rest ih =>
      have parts := List.nodup_cons.mp unique
      simp only [List.map_cons, List.sum_cons, List.countP_cons, ih parts.2, Function.comp_apply]
      rw [(sound.dependentsUnique j).count]
      simp only [sound.transposed, HasEdge, decide_eq_true_eq]
      omega

theorem countP_split (xs : List Nat) {placed current : List Nat} (apart : ∀ i ∈ current, i ∉ placed) :
    xs.countP (· ∉ placed) =
      xs.countP (· ∈ current) + xs.countP (· ∉ current ++ placed) := by
  induction xs with
  | nil => rfl
  | cons x rest ih =>
      simp only [List.countP_cons, ih, List.mem_append, not_or, decide_eq_true_eq]
      by_cases isCurrent : x ∈ current
      · simp only [isCurrent, apart x isCurrent, not_false_eq_true, not_true_eq_false, false_and,
          if_true, if_false]
        omega
      · simp only [isCurrent, not_false_eq_true, true_and, if_false]
        omega

/-- The state of the layering before the round that places the positions of a height. -/
structure Placing (g : FileGraph) (height : Nat) (counts : List Int) (placed current : List Nat) :
    Prop where
  counted : ∀ i < g.size, counts[i]? = some ↑((g.dependenciesOf i).countP (· ∉ placed))
  lower : ∀ i, i ∈ placed ↔ i < g.size ∧ ∃ below < height, g.IsHeight i below
  present : ∀ i, i ∈ current ↔ i < g.size ∧ g.IsHeight i height
  placedUnique : placed.Nodup
  increasing : current.Pairwise (· < ·)

theorem Placing.apart {height counts placed current} (placing : Placing g height counts placed current)
    {i : Nat} (isCurrent : i ∈ current) : i ∉ placed := by
  intro isPlaced
  obtain ⟨_, below, less, isBelow⟩ := (placing.lower i).mp isPlaced
  have same := isBelow.unique ((placing.present i).mp isCurrent).2
  omega

theorem Placing.currentUnique {height counts placed current}
    (placing : Placing g height counts placed current) : current.Nodup :=
  placing.increasing.imp Nat.ne_of_lt

theorem dependencyCounts_getElem? (sound : g.Sound) {i : Nat} (bound : i < g.size) :
    g.dependencyCounts[i]? = some ↑(g.dependenciesOf i).length := by
  have inside : i < g.dependencies.length := by rw [sound.dependenciesSize]; exact bound
  simp [dependencyCounts, dependenciesOf, List.getElem?_eq_getElem inside]

theorem placing_initial (sound : g.Sound) : Placing g 0 g.dependencyCounts []
    ((List.range g.size).filter fun i => g.dependencyCounts[i]? = some 0) := by
  exact {
    counted := by
      intro i bound
      simp [dependencyCounts_getElem? sound bound, List.countP_true]
    lower := by simp
    present := by
      intro i
      rw [List.mem_filter, List.mem_range, isHeight_zero_iff]
      refine and_congr_right fun bound => ?_
      simp [dependencyCounts_getElem? sound bound]
    placedUnique := List.nodup_nil
    increasing := List.pairwise_lt_range.filter _ }

theorem Placing.mem_freed (sound : g.Sound) {height counts placed current}
    (placing : Placing g height counts placed current) (i : Nat) :
    i ∈ (release counts (current.flatMap g.dependentsOf)).2 ↔
      i < g.size ∧ g.IsHeight i (height + 1) := by
  rw [← List.count_pos_iff, release_freed, count_dependents sound placing.currentUnique]
  have split := countP_split (g.dependenciesOf i) fun _ => placing.apart
  have someCurrent : 0 < (g.dependenciesOf i).countP (· ∈ current) ↔
      ∃ j, g.HasEdge i j ∧ g.IsHeight j height := by
    simp only [List.countP_pos_iff, decide_eq_true_eq, placing.present]
    constructor
    · rintro ⟨j, edge, _, isHeight⟩
      exact ⟨j, edge, isHeight⟩
    · rintro ⟨j, edge, isHeight⟩
      exact ⟨j, edge, sound.bounded edge, isHeight⟩
  have noneLeft : (g.dependenciesOf i).countP (· ∉ current ++ placed) = 0 ↔
      ∀ j, g.HasEdge i j → ∃ lower ≤ height, g.IsHeight j lower := by
    simp only [List.countP_eq_zero, List.mem_append, placing.present, placing.lower,
      decide_eq_true_eq, not_not]
    refine forall_congr' fun j => imp_congr_right fun edge => ?_
    have bound := sound.bounded edge
    constructor
    · rintro (⟨_, isHeight⟩ | ⟨_, below, less, isBelow⟩)
      · exact ⟨height, Nat.le_refl height, isHeight⟩
      · exact ⟨below, Nat.le_of_lt less, isBelow⟩
    · rintro ⟨lower, atMost, isLower⟩
      rcases Nat.lt_or_eq_of_le atMost with less | rfl
      · exact Or.inr ⟨bound, lower, less, isLower⟩
      · exact Or.inl ⟨bound, isLower⟩
  -- A count is the number of dependencies that are still to be placed, so it comes down to zero exactly
  -- if the round places some of them and leaves none.
  rw [isHeight_succ_iff, ← noneLeft, ← someCurrent]
  by_cases bound : i < g.size
  · simp only [placing.counted i bound, Option.some.injEq, exists_eq_left', bound, true_and]
    split <;> omega
  · have noEdges : (g.dependenciesOf i).countP (· ∈ current) = 0 := by
      rw [List.countP_eq_zero]
      intro j edge
      exact absurd (sound.sourceBound edge) bound
    rw [noEdges, if_neg (by rintro ⟨n, _, positive, atMost⟩; simp at atMost; omega)]
    simp [bound]

theorem release_nodup (counts : List Int) (positions : List Nat) :
    (release counts positions).2.Nodup := by
  rw [List.nodup_iff_count_le_one]
  intro i
  rw [release_freed]
  split <;> omega

theorem Placing.next (sound : g.Sound) {height counts placed current}
    (placing : Placing g height counts placed current) :
    Placing g (height + 1) (release counts (current.flatMap g.dependentsOf)).1 (current ++ placed)
      (release counts (current.flatMap g.dependentsOf)).2.mergeSort where
  counted i bound := by
    rw [release_counts, placing.counted i bound, count_dependents sound placing.currentUnique]
    have split := countP_split (g.dependenciesOf i) fun _ => placing.apart
    simp only [Option.map_some, Option.some.injEq]
    omega
  lower i := by
    rw [List.mem_append, placing.present, placing.lower, ← and_or_left]
    refine and_congr_right fun _ => ?_
    constructor
    · rintro (isHeight | ⟨below, less, isBelow⟩)
      · exact ⟨height, Nat.lt_succ_self height, isHeight⟩
      · exact ⟨below, Nat.lt_succ_of_lt less, isBelow⟩
    · rintro ⟨below, atMost, isBelow⟩
      rcases Nat.lt_succ_iff_lt_or_eq.mp atMost with less | rfl
      · exact Or.inr ⟨below, less, isBelow⟩
      · exact Or.inl isBelow
  present i := by rw [List.mem_mergeSort, placing.mem_freed sound]
  placedUnique := placing.currentUnique.append placing.placedUnique fun _ => placing.apart
  increasing := by
    have ordered := List.pairwise_mergeSort' (· ≤ ·)
      (release counts (current.flatMap g.dependentsOf)).2
    have unique := (List.mergeSort_perm _ (· ≤ ·)).nodup_iff.mpr (release_nodup counts
      (current.flatMap g.dependentsOf))
    exact (ordered.and unique).imp fun ⟨atMost, different⟩ => Nat.lt_of_le_of_ne atMost different

end Groundwork.Graph.FileGraph
