import Groundwork.Proofs.Store.Shelves
import Mathlib.Algebra.Order.Ring.Int
import Mathlib.Data.Prod.Lex

/-!
What a search finds. Doubles that are numbers are in order, by class, exponent and mantissa, so the rows
with a score can be sorted by it; the best of them that satisfy the filter are the answer.
-/

namespace Groundwork.Store

open Float.Model Retrieval

section Doubles

/-- Where a double stands among the others: its class from the left to the right, then its exponent and
its mantissa, which count backwards on the left. -/
def standing : UnpackedFloat → Int ×ₗ Int ×ₗ Int
  | .infinity .negative => toLex (-2, toLex (0, 0))
  | .finite .negative mantissa exponent _ => toLex (-1, toLex (-exponent, -mantissa))
  | .zero _ => toLex (0, toLex (0, 0))
  | .finite .positive mantissa exponent _ => toLex (1, toLex (exponent, mantissa))
  | .infinity .positive => toLex (2, toLex (0, 0))
  | .notANumber => toLex (0, toLex (0, 0))

theorem then_eq_lt_iff (e k : Int) (m n : Nat) : (compare e k).then (compare m n) = .lt ↔
    toLex (e, (m : Int)) < toLex (k, (n : Int)) := by
  rw [Prod.Lex.toLex_lt_toLex, Ordering.then_eq_lt, compare_lt_iff_lt, compare_eq_iff_eq,
    compare_lt_iff_lt, Nat.cast_lt]

theorem then_eq_gt_iff (e k : Int) (m n : Nat) : (compare e k).then (compare m n) = .gt ↔
    toLex (-e, -(m : Int)) < toLex (-k, -(n : Int)) := by
  rw [Prod.Lex.toLex_lt_toLex, Ordering.then_eq_gt, compare_gt_iff_gt, compare_eq_iff_eq,
    compare_gt_iff_gt, neg_lt_neg_iff, neg_inj, neg_lt_neg_iff, Nat.cast_lt]

theorem unpacked_lt_iff {x y : UnpackedFloat} (first : x ≠ .notANumber) (second : y ≠ .notANumber) :
    x.lt y = true ↔ standing x < standing y := by
  rcases x with (_ | _) | _ | (_ | _) | ⟨_ | _, m, e, _⟩ <;>
    rcases y with (_ | _) | _ | (_ | _) | ⟨_ | _, n, k, _⟩ <;>
    first | exact absurd rfl first | exact absurd rfl second | clear first second
  -- Only two doubles of one finite class are told apart by exponent and mantissa.
  all_goals
    dsimp only [UnpackedFloat.lt, UnpackedFloat.compare, standing]
    simp [Prod.Lex.toLex_lt_toLex, then_eq_lt_iff, then_eq_gt_iff, Ordering.swap_eq_lt]
  decide

def rankOf (x : Float) : Int ×ₗ Int ×ₗ Int := standing x.toModel.unpack

theorem lt_iff_rankOf {x y : Float} (first : x.isNaN = false) (second : y.isNaN = false) :
    x < y ↔ rankOf x < rankOf y := by
  have unpacked : x < y ↔ x.toModel.unpack.lt y.toModel.unpack = true := decide_eq_true_iff
  have isNumber {z : Float} (number : z.isNaN = false) : z.toModel.unpack ≠ .notANumber := by
    intro none
    have same : z.isNaN = z.toModel.unpack.isNaN := rfl
    rw [same, none] at number
    exact absurd number (by decide)
  rw [unpacked]
  exact unpacked_lt_iff (isNumber first) (isNumber second)

end Doubles

theorem pairwise_mergeSort_scores {hits : List (Hit Float)}
    (numbers : ∀ h ∈ hits, h.scoreOrZero.isNaN = false) :
    (hits.mergeSort fun a b => !decide (a.scoreOrZero < b.scoreOrZero)).Pairwise fun a b =>
      ¬ a.scoreOrZero < b.scoreOrZero := by
  let notWorse (a b : Hit Float) : Bool := decide (rankOf b.scoreOrZero ≤ rankOf a.scoreOrZero)
  have agree (a : Hit Float) (first : a ∈ hits) (b : Hit Float) (second : b ∈ hits) :
      (!decide (a.scoreOrZero < b.scoreOrZero)) = notWorse a b := by
    rw [Bool.eq_iff_iff, Bool.not_eq_true', decide_eq_false_iff_not, decide_eq_true_iff,
      lt_iff_rankOf (numbers a first) (numbers b second), not_lt]
  have sorted : (hits.mergeSort notWorse).Pairwise fun a b => notWorse a b = true := by
    refine List.pairwise_mergeSort (fun a b c first second => ?_) (fun a b => ?_) hits
    · exact decide_eq_true (le_trans (of_decide_eq_true second) (of_decide_eq_true first))
    · rw [Bool.or_eq_true, decide_eq_true_iff, decide_eq_true_iff]
      exact le_total _ _
  have same : (hits.mergeSort fun a b => !decide (a.scoreOrZero < b.scoreOrZero)) =
      hits.mergeSort notWorse := by
    simpa using List.map_mergeSort (f := id) agree
  rw [same]
  refine sorted.imp_of_mem fun {a b} first second inOrder => ?_
  have decided := agree a (List.mem_mergeSort.mp first) b (List.mem_mergeSort.mp second)
  rw [inOrder, Bool.not_eq_true', decide_eq_false_iff_not] at decided
  exact decided

section Search

variable {s : Shelf} {rows : List Row} {vector : Vector64} {filter : Filter}

def scoreOf (vector : Vector64) (r : TextRecord) : Option Float :=
  score? (vector.map single) (storedRow r).vector

def Matches (filter : Filter) (r : TextRecord) : Prop :=
  ∀ column value, (column, value) ∈ filter → (storedRow r).column? column = some value

def Shelf.findable (s : Shelf) (vector : Vector64) (filter : Filter) : Finset String :=
  s.keys.filter fun id => (s.lookup id).any fun r =>
    (storedRow r).satisfies filter && (scoreOf vector r).isSome

/-- An answer to a search: as many of the records that can be found as are asked for, each once, with its
score and its metadata, the best first and none left out for a worse one. -/
structure Nearest (s : Shelf) (vector : Vector64) (topK : Nat) (filter : Filter)
    (hits : List (Hit Float)) : Prop where
  count : hits.length = min topK (s.findable vector filter).card
  once : (hits.map (·.id)).Nodup
  kept : ∀ h ∈ hits, ∃ r score, s.lookup h.id = some r ∧ Matches filter r ∧
    scoreOf vector r = some score ∧ h.score = some score ∧ h.metadata? = some r.metadata
  ordered : hits.Pairwise fun a b => ¬ a.scoreOrZero < b.scoreOrZero
  best : ∀ h ∈ hits, ∀ id ∈ s.findable vector filter, id ∉ hits.map (·.id) →
    ∀ r score, s.lookup id = some r → scoreOf vector r = some score → ¬ h.scoreOrZero < score

theorem satisfies_iff {r : TextRecord} :
    (storedRow r).satisfies filter = true ↔ Matches filter r := by
  simp only [Row.satisfies, List.all_eq_true, beq_iff_eq, Prod.forall, Matches]

theorem mem_findable {id : String} : id ∈ s.findable vector filter ↔
    ∃ r score, s.lookup id = some r ∧ Matches filter r ∧ scoreOf vector r = some score := by
  simp only [Shelf.findable, Finset.mem_filter, Finmap.mem_keys, Finmap.mem_iff, Option.any_eq_true,
    Bool.and_eq_true, satisfies_iff, Option.isSome_iff_exists]
  constructor
  · rintro ⟨_, r, found, matching, score, scored⟩
    exact ⟨r, score, found, matching, scored⟩
  · rintro ⟨r, score, found, matching, scored⟩
    exact ⟨⟨r, found⟩, r, found, matching, score, scored⟩

theorem score?_number {xs ys : Vector64} {score : Float} (scored : score? xs ys = some score) :
    score.isNaN = false := by
  simp only [score?] at scored
  split at scored
  · simp at scored
  · rename_i number
    obtain rfl := Option.some.inj scored
    simpa using number

def allHits (rows : List Row) (vector : Vector64) (filter : Filter) : List (Hit Float) :=
  (rows.filter (·.satisfies filter)).filterMap (hitOf (vector.map single))

theorem hitOf_eq_some_iff {row : Row} {h : Hit Float} : hitOf vector row = some h ↔
    ∃ score, score? vector row.vector = some score ∧ ⟨row.id, some score, some row.metadata⟩ = h := by
  rw [hitOf, Option.map_eq_some_iff]

theorem hits_ids_sublist (rows : List Row) (vector : Vector64) :
    ((rows.filterMap (hitOf vector)).map (·.id)).Sublist (rows.map (·.id)) := by
  induction rows with
  | nil => exact List.Sublist.refl _
  | cons row rows ih =>
      cases hit : hitOf vector row with
      | none =>
          rw [List.filterMap_cons_none hit]
          exact ih.cons _
      | some h =>
          obtain ⟨score, _, rfl⟩ := hitOf_eq_some_iff.mp hit
          rw [List.filterMap_cons_some hit]
          exact ih.cons_cons _

theorem allHits_ids_nodup (lists : Lists s rows) : ((allHits rows vector filter).map (·.id)).Nodup := by
  have among : ((rows.filter (·.satisfies filter)).map (·.id)).Sublist (rows.map (·.id)) :=
    List.filter_sublist.map _
  exact lists.once.sublist ((hits_ids_sublist _ _).trans among)

theorem mem_allHits (lists : Lists s rows) {h : Hit Float} : h ∈ allHits rows vector filter ↔
    ∃ r score, s.lookup h.id = some r ∧ Matches filter r ∧ scoreOf vector r = some score ∧
      h.score = some score ∧ h.metadata? = some r.metadata := by
  simp only [allHits, List.mem_filterMap, List.mem_filter, hitOf_eq_some_iff]
  constructor
  · rintro ⟨row, ⟨member, matching⟩, score, scored, rfl⟩
    obtain ⟨r, found, rfl⟩ := (lists.row row.id row).mp ⟨member, rfl⟩
    exact ⟨r, score, found, satisfies_iff.mp matching, scored, rfl, rfl⟩
  · rintro ⟨r, score, found, matching, scored, isScore, isMetadata⟩
    obtain ⟨member, own⟩ := (lists.row h.id (storedRow r)).mpr ⟨r, found, rfl⟩
    refine ⟨storedRow r, ⟨member, satisfies_iff.mpr matching⟩, score, scored, ?_⟩
    obtain ⟨id, _, _⟩ := h
    subst own isScore isMetadata
    rfl

theorem mem_ids_allHits (lists : Lists s rows) {id : String} :
    id ∈ (allHits rows vector filter).map (·.id) ↔ id ∈ s.findable vector filter := by
  simp only [List.mem_map, mem_allHits lists, mem_findable]
  constructor
  · rintro ⟨h, ⟨r, score, found, matching, scored, _⟩, rfl⟩
    exact ⟨r, score, found, matching, scored⟩
  · rintro ⟨r, score, found, matching, scored⟩
    exact ⟨⟨id, some score, some r.metadata⟩, ⟨r, score, found, matching, scored, rfl, rfl⟩, rfl⟩

theorem Lists.nearest (lists : Lists s rows) (vector : Vector64) (topK : Nat) (filter : Filter) :
    Nearest s vector topK filter (nearest rows (vector.map single) topK filter) := by
  let found := allHits rows vector filter
  let sorted := found.mergeSort fun a b => !decide (a.scoreOrZero < b.scoreOrZero)
  have perm : sorted.Perm found := List.mergeSort_perm _ _
  have numbers (h : Hit Float) (member : h ∈ found) : h.scoreOrZero.isNaN = false := by
    obtain ⟨r, score, _, _, scored, isScore, _⟩ := (mem_allHits lists).mp member
    rw [Hit.scoreOrZero, isScore]
    exact score?_number scored
  have inOrder : sorted.Pairwise fun a b => ¬ a.scoreOrZero < b.scoreOrZero :=
    pairwise_mergeSort_scores numbers
  have once : (sorted.map (·.id)).Nodup := (perm.map _).nodup_iff.mpr (allHits_ids_nodup lists)
  have ids : (sorted.map (·.id)).toFinset = s.findable vector filter := by
    ext id
    rw [List.mem_toFinset, (perm.map (·.id)).mem_iff, mem_ids_allHits lists]
  have size : sorted.length = (s.findable vector filter).card := by
    rw [← ids, List.toFinset_card_of_nodup once, List.length_map]
  have answer : Store.nearest rows (vector.map single) topK filter = sorted.take topK := rfl
  rw [answer]
  refine ⟨?_, ?_, fun h member => ?_, inOrder.sublist (List.take_sublist _ _), ?_⟩
  · rw [List.length_take, size]
  · exact once.sublist ((List.take_sublist _ _).map _)
  · exact (mem_allHits lists).mp (perm.mem_iff.mp (List.mem_of_mem_take member))
  · intro h member id findable omitted r score isRecord scored
    rw [← ids, List.mem_toFinset, ← List.take_append_drop topK sorted, List.map_append,
      List.mem_append, or_iff_right omitted, List.mem_map] at findable
    obtain ⟨other, behind, rfl⟩ := findable
    obtain ⟨r', score', isRecord', _, scored', isScore, _⟩ :=
      (mem_allHits lists).mp (perm.mem_iff.mp (List.mem_of_mem_drop behind))
    obtain rfl := Option.some.inj (isRecord.symm.trans isRecord')
    obtain rfl := Option.some.inj (scored.symm.trans scored')
    rw [← List.take_append_drop topK sorted, List.pairwise_append] at inOrder
    have notWorse := inOrder.2.2 h member other behind
    rwa [Hit.scoreOrZero, Hit.scoreOrZero, isScore] at notWorse

end Search

end Groundwork.Store
