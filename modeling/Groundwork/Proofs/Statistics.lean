import Groundwork.Proofs.Text.Sorting
import Groundwork.Statistics
import Mathlib.Data.List.Forall2
import Mathlib.Data.List.Perm.Basic

/-!
The most common tags of files. Tags are ranked by how often they occur and then by the first file that has
them. Between tags that agree in both it is the order in which the tags of this file are enumerated that
decides, so the most common ones are the same for every enumeration if such tags come after them all.
-/

namespace Groundwork

namespace EnhancedStats

open Text

theorem getElem?_iff_countP {α : Type} {r : α → α → Prop} [DecidableRel r] {xs : List α}
    (asymm : ∀ a b, r a b → ¬ r b a) (ordered : xs.Pairwise r) {x : α} {n : Nat} :
    xs[n]? = some x ↔ x ∈ xs ∧ xs.countP (fun y => r y x) = n := by
  induction xs generalizing n with
  | nil => simp
  | cons y ys ih =>
      obtain ⟨least, rest⟩ := List.pairwise_cons.mp ordered
      have noneBefore : (y :: ys).countP (fun z => r z y) = 0 := by
        rw [List.countP_eq_zero]
        intro z member
        rw [decide_eq_true_eq]
        rcases List.mem_cons.mp member with rfl | later
        · exact fun before => asymm z z before before
        · exact asymm y z (least z later)
      have oneMore (later : x ∈ ys) :
          (y :: ys).countP (fun z => r z x) = ys.countP (fun z => r z x) + 1 :=
        List.countP_cons_of_pos (decide_eq_true (least x later))
      cases n with
      | zero =>
          rw [List.getElem?_cons_zero, Option.some.injEq, List.mem_cons]
          constructor
          · rintro rfl
            exact ⟨Or.inl rfl, noneBefore⟩
          · rintro ⟨rfl | later, none⟩
            · rfl
            · rw [oneMore later] at none
              omega
      | succ n =>
          rw [List.getElem?_cons_succ, ih rest, List.mem_cons]
          constructor
          · rintro ⟨later, counted⟩
            rw [oneMore later]
            exact ⟨Or.inr later, by omega⟩
          · rintro ⟨rfl | later, counted⟩
            · omega
            · rw [oneMore later] at counted
              exact ⟨later, by omega⟩

section Ranking

variable {texts : List String} {t u : String}

def Precedes (texts : List String) (t u : String) : Prop :=
  texts.count u < texts.count t ∨ texts.count t = texts.count u ∧ texts.idxOf t < texts.idxOf u

instance (texts : List String) : DecidableRel (Precedes texts) :=
  fun _ _ => inferInstanceAs (Decidable (_ ∨ _))

theorem Precedes.asymm (before : Precedes texts t u) : ¬ Precedes texts u t := by
  simp only [Precedes] at before ⊢
  omega

def ranking (texts : List String) : List String :=
  (distinct texts).mergeSort fun t u => texts.count u ≤ texts.count t

theorem mostCommon_eq (limit : Nat) (texts : List String) :
    mostCommon limit texts = (ranking texts).take limit := by
  have paired : ((distinct texts).map fun t => (t, texts.count t)).mergeSort (fun a b => b.2 ≤ a.2) =
      (ranking texts).map fun t => (t, texts.count t) := by
    rw [ranking]
    exact (List.map_mergeSort (f := fun t => (t, texts.count t)) fun _ _ _ _ => rfl).symm
  rw [mostCommon]
  simp only [paired]
  rw [← List.map_take, List.map_map]
  exact List.map_id _

theorem ranking_perm (texts : List String) : (ranking texts).Perm (distinct texts) :=
  List.mergeSort_perm _ _

theorem ranking_pairwise (texts : List String) : (ranking texts).Pairwise (Precedes texts) := by
  have trans (a b c : String) : decide (texts.count b ≤ texts.count a) →
      decide (texts.count c ≤ texts.count b) → decide (texts.count c ≤ texts.count a) := by
    simp only [decide_eq_true_eq]
    omega
  have total (a b : String) :
      decide (texts.count b ≤ texts.count a) || decide (texts.count a ≤ texts.count b) := by
    simp only [Bool.or_eq_true, decide_eq_true_eq]
    omega
  rw [List.pairwise_iff_forall_sublist]
  intro a b both
  have atLeast : texts.count b ≤ texts.count a := by
    simpa using List.pairwise_iff_forall_sublist.mp
      (List.pairwise_mergeSort trans total (distinct texts)) both
  rcases Nat.lt_or_eq_of_le atLeast with more | equal
  · exact Or.inl more
  · -- Sorting keeps equally common texts in their order, which is that of their first places.
    let alike (x : String) : Bool := texts.count x = texts.count a
    have level : ((distinct texts).filter alike).Pairwise fun t u =>
        decide (texts.count u ≤ texts.count t) = true := by
      refine List.pairwise_of_forall_mem_list fun x first y second => ?_
      have equalFirst := (List.mem_filter.mp first).2
      have equalSecond := (List.mem_filter.mp second).2
      simp only [alike, decide_eq_true_eq] at equalFirst equalSecond
      simp [equalFirst, equalSecond]
    have kept := (List.sublist_mergeSort trans total level List.filter_sublist).filter alike
    rw [List.filter_filter] at kept
    simp only [Bool.and_self] at kept
    have same : (distinct texts).filter alike = (ranking texts).filter alike :=
      kept.eq_of_length ((ranking_perm texts).filter alike).length_eq.symm
    have among := both.filter alike
    rw [List.filter_eq_self.mpr (by simp [alike, equal]), ← same] at among
    exact Or.inr ⟨equal.symm, List.pairwise_iff_forall_sublist.mp (distinct_pairwise texts)
      (among.trans List.filter_sublist)⟩

theorem getElem?_ranking {n : Nat} : (ranking texts)[n]? = some t ↔
    t ∈ texts ∧ (distinct texts).countP (fun u => Precedes texts u t) = n := by
  rw [getElem?_iff_countP (fun _ _ => Precedes.asymm) (ranking_pairwise texts),
    (ranking_perm texts).mem_iff, mem_distinct, (ranking_perm texts).countP_eq]

end Ranking

section Lists

variable {lists others : List (List String)} {t u : String}

def firstWith (lists : List (List String)) (t : String) : Nat := lists.findIdx (·.contains t)

theorem firstWith_of_mem {list : List String} (member : t ∈ list) (lists : List (List String)) :
    firstWith (list :: lists) t = 0 := by
  simp [firstWith, List.findIdx_cons, member]

theorem firstWith_of_notMem {list : List String} (fresh : t ∉ list) (lists : List (List String)) :
    firstWith (list :: lists) t = firstWith lists t + 1 := by
  simp [firstWith, List.findIdx_cons, fresh]

theorem idxOf_lt_of_firstWith_lt (earlier : firstWith lists t < firstWith lists u) :
    lists.flatten.idxOf t < lists.flatten.idxOf u := by
  induction lists with
  | nil => simp [firstWith] at earlier
  | cons list lists ih =>
      have absent : u ∉ list := by
        intro member
        rw [firstWith_of_mem member] at earlier
        omega
      rw [List.flatten_cons, List.idxOf_append_of_notMem absent]
      by_cases member : t ∈ list
      · rw [List.idxOf_append_of_mem member]
        exact Nat.lt_add_right _ (List.idxOf_lt_length_iff.mpr member)
      · rw [firstWith_of_notMem member, firstWith_of_notMem absent] at earlier
        rw [List.idxOf_append_of_notMem member]
        have later := ih (by omega)
        omega

theorem idxOf_le_of_front (front : ∀ list ∈ lists, t ∈ list → list.idxOf t = 0)
    (same : firstWith lists t = firstWith lists u) :
    lists.flatten.idxOf t ≤ lists.flatten.idxOf u := by
  induction lists with
  | nil => rfl
  | cons list lists ih =>
      by_cases member : t ∈ list
      · rw [List.flatten_cons, List.idxOf_append_of_mem member, front list List.mem_cons_self member]
        exact Nat.zero_le _
      · rw [firstWith_of_notMem member] at same
        have absent : u ∉ list := by
          intro isThere
          rw [firstWith_of_mem isThere] at same
          omega
        rw [firstWith_of_notMem absent] at same
        rw [List.flatten_cons, List.idxOf_append_of_notMem member, List.idxOf_append_of_notMem absent]
        have later := ih (fun other among => front other (List.mem_cons_of_mem _ among)) (by omega)
        omega

theorem firstWith_congr (same : List.Forall₂ List.Perm lists others) (t : String) :
    firstWith lists t = firstWith others t := by
  induction same with
  | nil => rfl
  | @cons list other _ _ perm _ ih =>
      by_cases member : t ∈ list
      · rw [firstWith_of_mem member, firstWith_of_mem (perm.mem_iff.mp member)]
      · rw [firstWith_of_notMem member, firstWith_of_notMem (mt perm.mem_iff.mpr member), ih]

/-- Whether `t` is ranked before `u` in whatever order each list stands. -/
def Outranks (lists : List (List String)) (t u : String) : Prop :=
  lists.flatten.count u < lists.flatten.count t ∨
    lists.flatten.count t = lists.flatten.count u ∧ firstWith lists t < firstWith lists u

instance (lists : List (List String)) : DecidableRel (Outranks lists) :=
  fun _ _ => inferInstanceAs (Decidable (_ ∨ _))

def Level (lists : List (List String)) (t u : String) : Prop :=
  lists.flatten.count t = lists.flatten.count u ∧ firstWith lists t = firstWith lists u

instance (lists : List (List String)) : DecidableRel (Level lists) :=
  fun _ _ => inferInstanceAs (Decidable (_ ∧ _))

def above (lists : List (List String)) (t : String) : Nat :=
  (distinct lists.flatten).countP fun u => Outranks lists u t

theorem Level.above_eq (level : Level lists t u) : above lists t = above lists u := by
  obtain ⟨count, first⟩ := level
  refine List.countP_congr fun v _ => ?_
  rw [decide_eq_true_eq, decide_eq_true_eq, Outranks, Outranks, count, first]

theorem Outranks.precedes (outranks : Outranks lists t u) : Precedes lists.flatten t u :=
  outranks.imp_right (And.imp_right idxOf_lt_of_firstWith_lt)

theorem precedes_iff (apart : ¬ Level lists t u) :
    Precedes lists.flatten t u ↔ Outranks lists t u := by
  refine ⟨?_, Outranks.precedes⟩
  rintro (more | ⟨equal, before⟩)
  · exact Or.inl more
  · refine Or.inr ⟨equal, ?_⟩
    have different : firstWith lists t ≠ firstWith lists u := fun same => apart ⟨equal, same⟩
    have notLater : ¬ firstWith lists u < firstWith lists t := by
      intro later
      have reversed := idxOf_lt_of_firstWith_lt later
      omega
    omega

theorem above_le (lists : List (List String)) (t : String) :
    above lists t ≤ (distinct lists.flatten).countP fun u => Precedes lists.flatten u t := by
  refine List.countP_mono_left fun u _ outranks => ?_
  rw [decide_eq_true_eq] at outranks ⊢
  exact outranks.precedes

theorem getElem?_ranking_of_level {n : Nat} (member : t ∈ lists.flatten)
    (alone : ∀ u ∈ lists.flatten, Level lists u t → ¬ Precedes lists.flatten u t)
    (place : above lists t = n) : (ranking lists.flatten)[n]? = some t := by
  refine getElem?_ranking.mpr ⟨member, ?_⟩
  rw [← place, above]
  refine List.countP_congr fun u among => ?_
  rw [decide_eq_true_eq, decide_eq_true_eq]
  by_cases level : Level lists u t
  · have unranked : ¬ Outranks lists u t := by
      simp only [Outranks, level.1, level.2]
      omega
    exact iff_of_false (alone u (mem_distinct.mp among) level) unranked
  · exact precedes_iff level

section Arrangement

variable (same : List.Forall₂ List.Perm lists others)

include same

theorem flatten_perm : lists.flatten.Perm others.flatten := List.Perm.flatten_congr same

theorem outranks_congr : Outranks lists t u ↔ Outranks others t u := by
  simp only [Outranks, (flatten_perm same).count_eq, firstWith_congr same]

theorem level_congr : Level lists t u ↔ Level others t u := by
  simp only [Level, (flatten_perm same).count_eq, firstWith_congr same]

theorem above_congr (t : String) : above lists t = above others t := by
  rw [above, above, (distinct_perm (flatten_perm same)).countP_eq]
  refine List.countP_congr fun u _ => ?_
  rw [decide_eq_true_eq, decide_eq_true_eq, outranks_congr same]

end Arrangement

theorem getElem?_ranking_iff {n k : Nat} (within : k < n)
    (apart : ∀ t ∈ lists.flatten, ∀ u ∈ lists.flatten, u ≠ t → Level lists u t →
      n ≤ above lists t) :
    (ranking lists.flatten)[k]? = some t ↔ t ∈ lists.flatten ∧ above lists t = k := by
  have placed (member : t ∈ lists.flatten) (few : above lists t < n) :
      (ranking lists.flatten)[above lists t]? = some t := by
    refine getElem?_ranking_of_level member (fun u among level before => ?_) rfl
    by_cases same : u = t
    · subst same
      exact before.asymm before
    · have many := apart t member u among same level
      omega
  constructor
  · intro found
    obtain ⟨member, place⟩ := getElem?_ranking.mp found
    have bound := above_le lists t
    have few : above lists t < n := by omega
    exact ⟨member, (getElem?_ranking.mp (placed member few)).2.symm.trans place⟩
  · rintro ⟨member, rfl⟩
    exact placed member within

theorem take_ranking_congr {n : Nat} (same : List.Forall₂ List.Perm lists others)
    (apart : ∀ t ∈ lists.flatten, ∀ u ∈ lists.flatten, u ≠ t → Level lists u t →
      n ≤ above lists t) :
    (ranking others.flatten).take n = (ranking lists.flatten).take n := by
  have apartOthers : ∀ t ∈ others.flatten, ∀ u ∈ others.flatten, u ≠ t → Level others u t →
      n ≤ above others t := by
    intro t member u among different level
    rw [← above_congr same]
    exact apart t ((flatten_perm same).mem_iff.mpr member) u ((flatten_perm same).mem_iff.mpr among)
      different ((level_congr same).mpr level)
  refine List.ext_getElem? fun k => ?_
  rw [List.getElem?_take, List.getElem?_take]
  split
  · rename_i within
    ext t
    rw [getElem?_ranking_iff within apartOthers, getElem?_ranking_iff within apart,
      (flatten_perm same).mem_iff, above_congr same]
  · rfl

def toFront (t : String) (list : List String) : List String :=
  if t ∈ list then t :: list.erase t else list

theorem toFront_perm (t : String) (list : List String) : list.Perm (toFront t list) := by
  rw [toFront]
  split
  · rename_i member
    exact List.perm_cons_erase member
  · exact List.Perm.refl list

theorem idxOf_toFront {list : List String} (member : t ∈ toFront t list) :
    (toFront t list).idxOf t = 0 := by
  rw [toFront] at member ⊢
  split
  · exact List.idxOf_cons_self
  · rename_i absent
    rw [if_neg absent] at member
    exact absurd member absent

theorem forall₂_toFront (t : String) (lists : List (List String)) :
    List.Forall₂ List.Perm lists (lists.map (toFront t)) :=
  List.forall₂_map_right_iff.mpr (List.forall₂_same.mpr fun list _ => toFront_perm t list)

theorem getElem?_ranking_toFront (member : t ∈ lists.flatten) :
    (ranking (lists.map (toFront t)).flatten)[above lists t]? = some t := by
  have same := forall₂_toFront t lists
  refine getElem?_ranking_of_level ((flatten_perm same).mem_iff.mp member) ?_ (above_congr same t).symm
  intro u _ level before
  -- Moved to the front of its lists the text comes before all that are level with it.
  have front : ∀ list ∈ lists.map (toFront t), t ∈ list → list.idxOf t = 0 := by
    intro list among
    obtain ⟨original, _, rfl⟩ := List.mem_map.mp among
    exact idxOf_toFront
  have first := idxOf_le_of_front front level.2.symm
  rcases before with more | ⟨_, earlier⟩
  · exact absurd level.1 (Nat.ne_of_gt more)
  · omega

end Lists

structure Retagged (r other : FileRecord) : Prop where
  rest : other = { r with tags := other.tags }
  tags : Option.Rel List.Perm r.tags other.tags

def tagLists (files : List FileRecord) : List (List String) := files.map fun r => r.tags.getD []

theorem topTags_eq (files : List FileRecord) (summaries : List SummaryResult) :
    (of files summaries).topTags = (ranking (tagLists files).flatten).take 10 := by
  rw [tagLists, ← List.flatMap_def, ← mostCommon_eq]
  rfl

theorem perm_getD {tags others : Option (List String)} (same : Option.Rel List.Perm tags others) :
    (tags.getD []).Perm (others.getD []) := by
  cases same with
  | some perm => exact perm
  | none => exact List.Perm.refl []

section Retagged

variable {files others : List FileRecord}

theorem forall₂_tagLists (same : List.Forall₂ Retagged files others) :
    List.Forall₂ List.Perm (tagLists files) (tagLists others) := by
  rw [tagLists, tagLists, List.forall₂_map_left_iff, List.forall₂_map_right_iff]
  exact same.imp fun _ _ retagged => perm_getD retagged.tags

def untagged (r : FileRecord) : FileRecord := { r with tags := none }

theorem map_untagged (same : List.Forall₂ Retagged files others) :
    others.map untagged = files.map untagged := by
  induction same with
  | nil => rfl
  | cons retagged _ ih => rw [List.map_cons, List.map_cons, ih, congrArg untagged retagged.rest]; rfl

theorem of_untagged (files : List FileRecord) (summaries : List SummaryResult) :
    of files summaries =
      { of (files.map untagged) summaries with topTags := (of files summaries).topTags } := by
  simp only [of, severitiesOf, List.map_map, List.countP_map, List.flatMap_map]
  rfl

theorem of_retagged (same : List.Forall₂ Retagged files others) (summaries : List SummaryResult) :
    of others summaries = { of files summaries with topTags := (of others summaries).topTags } := by
  rw [of_untagged others, map_untagged same, of_untagged files]

def withFront (t : String) (files : List FileRecord) : List FileRecord :=
  files.map fun r => { r with tags := r.tags.map (toFront t) }

theorem retagged_withFront (t : String) (files : List FileRecord) :
    List.Forall₂ Retagged files (withFront t files) := by
  refine List.forall₂_map_right_iff.mpr (List.forall₂_same.mpr fun r _ => ⟨rfl, ?_⟩)
  cases tags : r.tags with
  | none => exact .none
  | some list => exact .some (toFront_perm t list)

theorem tagLists_withFront (t : String) (files : List FileRecord) :
    tagLists (withFront t files) = (tagLists files).map (toFront t) := by
  rw [tagLists, tagLists, withFront, List.map_map, List.map_map]
  refine List.map_congr_left fun r _ => ?_
  rw [Function.comp_apply, Function.comp_apply]
  cases r.tags <;> rfl

end Retagged

/-- However the tags of each file are enumerated, all figures but the most common tags are the same. These
are the same if and only if at least ten tags outrank each one that is level with another. -/
theorem topTags_retagged_iff (files : List FileRecord) (summaries : List SummaryResult) :
    (∀ others, List.Forall₂ Retagged files others → of others summaries =
      { of files summaries with topTags := (of others summaries).topTags }) ∧
    ((∀ others, List.Forall₂ Retagged files others →
        (of others summaries).topTags = (of files summaries).topTags) ↔
      ∀ t ∈ (tagLists files).flatten, ∀ u ∈ (tagLists files).flatten, u ≠ t →
        Level (tagLists files) u t → 10 ≤ above (tagLists files) t) := by
  refine ⟨fun others same => of_retagged same summaries, ?_, ?_⟩
  · intro unchanged t member u among different level
    by_contra notMany
    have shown (x : String) (isTag : x ∈ (tagLists files).flatten) :
        (of files summaries).topTags[above (tagLists files) x]? =
          if above (tagLists files) x < 10 then some x else none := by
      rw [← unchanged _ (retagged_withFront x files), topTags_eq, tagLists_withFront,
        List.getElem?_take, getElem?_ranking_toFront isTag]
    have first := shown t member
    have second := shown u among
    have few : above (tagLists files) t < 10 := by omega
    rw [level.above_eq, first, if_pos few, if_pos few, Option.some.injEq] at second
    exact different second.symm
  · intro apart others same
    rw [topTags_eq, topTags_eq]
    exact take_ranking_congr (forall₂_tagLists same) apart

def taggedFile (tags : List String) : FileRecord :=
  { path := "src/api/client.ts", language := "typescript", tags := some tags }

theorem retagged_swap (first second : String) : List.Forall₂ Retagged
    [taggedFile [first, second]] [taggedFile [second, first]] :=
  .cons ⟨rfl, .some (.swap _ _ _)⟩ .nil

theorem topTags_retagged_twoTags :
    of [taggedFile ["api", "typescript"]] [] =
        { of [taggedFile ["typescript", "api"]] [] with
          topTags := (of [taggedFile ["api", "typescript"]] []).topTags } ∧
      ¬ ∀ others, List.Forall₂ Retagged [taggedFile ["typescript", "api"]] others →
        (of others []).topTags = (of [taggedFile ["typescript", "api"]] []).topTags := by
  obtain ⟨figures, sameTags⟩ := topTags_retagged_iff [taggedFile ["typescript", "api"]] []
  refine ⟨figures _ (retagged_swap "typescript" "api"), ?_⟩
  rw [sameTags]
  intro apart
  have many := apart "api" (by decide) "typescript" (by decide) (by decide) (by decide)
  revert many
  decide

theorem topTags_enumerated :
    List.Forall₂ Retagged [taggedFile ["typescript", "api"]] [taggedFile ["api", "typescript"]] ∧
      (of [taggedFile ["typescript", "api"]] []).topTags = ["typescript", "api"] ∧
      (of [taggedFile ["api", "typescript"]] []).topTags = ["api", "typescript"] := by
  refine ⟨retagged_swap "typescript" "api", ?_, ?_⟩
  · rw [topTags_eq, ranking, List.mergeSort_of_pairwise (by decide)]
    decide
  · rw [topTags_eq, ranking, List.mergeSort_of_pairwise (by decide)]
    decide

end EnhancedStats

end Groundwork
