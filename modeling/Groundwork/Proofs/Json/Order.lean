import Groundwork.Json.Order
import Mathlib.Data.List.Forall2
import Mathlib.Data.List.Pairwise

/-!
When values can be sorted by, and what sorting gives: the items as they were, in another order.
-/

namespace Groundwork.Json

variable {α : Type} {items : List (Json × α)} {before : Json → Json → Option Bool}

def IsNumber (key : Json) : Prop := ∃ x, number? key = some x

def IsText (key : Json) : Prop := ∃ s, key = .str s

/-- Keys that have an order among each other: all numbers or all texts, unless there is only one. -/
def Comparable (keys : List Json) : Prop :=
  keys.length ≤ 1 ∨ (∀ key ∈ keys, IsNumber key) ∨ ∀ key ∈ keys, IsText key

def Mixed (keys : List Json) : Prop := (∃ key ∈ keys, IsNumber key) ∧ ∃ key ∈ keys, IsText key

theorem less?_of_numbers {x y : Json} {a b : Number} (first : number? x = some a)
    (second : number? y = some b) : less? x y = some (a.less b) := by
  have numbers : less? x y = lessNumbers? x y := by
    cases x <;> first
      | cases first; done
      | simp only [less?]
  rw [numbers, lessNumbers?, first, second]

theorem less?_of_texts (s t : String) : less? (.str s) (.str t) = some (decide (s < t)) := by
  simp [less?]

theorem less?_of_mixed {x y : Json} (number : IsNumber x) (text : IsText y) :
    less? x y = none ∧ less? y x = none := by
  obtain ⟨a, first⟩ := number
  obtain ⟨s, rfl⟩ := text
  cases x <;> first
    | cases first; done
    | simp [less?, lessNumbers?, number?]

theorem Comparable.sortable {keys : List Json} (comparable : Comparable keys) : Sortable keys := by
  rcases comparable with few | numbers | texts
  · match keys, few with
    | [], _ => exact .nil
    | [key], _ => exact List.pairwise_singleton _ key
  · refine List.pairwise_of_forall_mem_list fun x first y second => ?_
    obtain ⟨a, ranked⟩ := numbers x first
    obtain ⟨b, other⟩ := numbers y second
    rw [less?_of_numbers ranked other]
    rfl
  · refine List.pairwise_of_forall_mem_list fun x first y second => ?_
    obtain ⟨s, rfl⟩ := texts x first
    obtain ⟨t, rfl⟩ := texts y second
    rw [less?_of_texts]
    rfl

theorem Mixed.not_sortable {keys : List Json} (mixed : Mixed keys) : ¬ Sortable keys := by
  obtain ⟨⟨x, first, number⟩, y, second, text⟩ := mixed
  obtain ⟨behind, ahead⟩ := less?_of_mixed number text
  have different : x ≠ y := by
    rintro rfl
    obtain ⟨s, rfl⟩ := text
    obtain ⟨a, known⟩ := number
    cases known
  intro sortable
  have either : keys.Pairwise fun u v => (less? u v).isSome ∨ (less? v u).isSome :=
    sortable.imp Or.inl
  have : Std.Symm fun u v => (less? u v).isSome ∨ (less? v u).isSome := ⟨fun _ _ => Or.symm⟩
  have compared := List.Pairwise.forall either first second different
  rw [behind, ahead] at compared
  simp at compared

theorem sortBy?_perm {sorted : List α} (found : sortBy? before items = some sorted) :
    sorted.Perm (items.map (·.2)) := by
  unfold sortBy? at found
  split at found
  · cases found
    exact (List.mergeSort_perm _ _).map _
  · cases found

theorem sortBy?_of_comparable (before : Json → Json → Option Bool)
    (comparable : Comparable (items.map (·.1))) : ∃ sorted, sortBy? before items = some sorted :=
  ⟨_, if_pos comparable.sortable⟩

theorem sortBy?_of_mixed (before : Json → Json → Option Bool) (mixed : Mixed (items.map (·.1))) :
    sortBy? before items = none :=
  if_neg mixed.not_sortable

section Places

variable {numbered : List (Int × α)}

theorem ascending?_ints (numbered : List (Int × α)) :
    ascending? (numbered.map fun p => (.int p.1, p.2)) =
      some ((numbered.mergeSort fun a b => a.1 ≤ b.1).map (·.2)) := by
  have comparable : Comparable ((numbered.map fun p => (Json.int p.1, p.2)).map (·.1)) := by
    refine Or.inr (Or.inl fun key member => ?_)
    obtain ⟨item, within, rfl⟩ := List.mem_map.mp member
    obtain ⟨pair, _, rfl⟩ := List.mem_map.mp within
    exact ⟨_, rfl⟩
  have sorted : (numbered.mergeSort fun a b => a.1 ≤ b.1).map (fun p => (Json.int p.1, p.2)) =
      (numbered.map fun p => (Json.int p.1, p.2)).mergeSort fun a b => less? b.1 a.1 != some true := by
    apply List.map_mergeSort
    intro a _ b _
    rw [less?_of_numbers (x := .int b.1) (y := .int a.1) rfl rfl]
    have same : decide ((b.1 : Rat) < a.1) = decide (b.1 < a.1) :=
      decide_eq_decide.mpr Rat.intCast_lt_intCast
    rw [Number.less, same]
    by_cases less : b.1 < a.1
    · simp [less]
    · simp [less, Int.not_lt.mp less]
  rw [ascending?, sortBy?, if_pos comparable.sortable, ← sorted, List.map_map]
  rfl

theorem sorted_places (places : (numbered.map (·.1)).Perm ((List.range numbered.length).map Int.ofNat)) :
    (numbered.mergeSort fun a b => a.1 ≤ b.1).map (·.1) =
      (List.range numbered.length).map Int.ofNat := by
  have perm := ((List.mergeSort_perm numbered fun a b => a.1 ≤ b.1).map (·.1)).trans places
  have trans (a b c : Int × α) (first : decide (a.1 ≤ b.1)) (second : decide (b.1 ≤ c.1)) :
      decide (a.1 ≤ c.1) := by
    simp only [decide_eq_true_eq] at *
    exact Int.le_trans first second
  have total (a b : Int × α) : decide (a.1 ≤ b.1) || decide (b.1 ≤ a.1) := by
    simpa using Int.le_total a.1 b.1
  apply perm.eq_of_pairwise fun a b _ _ first second => Int.le_antisymm first second
  · rw [List.pairwise_map]
    exact (List.pairwise_mergeSort trans total numbered).imp fun less => by simpa using less
  · rw [List.pairwise_map]
    exact List.pairwise_lt_range.imp fun less => by simpa using Nat.le_of_lt less

end Places

end Groundwork.Json
