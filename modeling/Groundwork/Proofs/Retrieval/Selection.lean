import Groundwork.Proofs.Text.Distinct
import Groundwork.Retrieval.Selection
import Mathlib.Order.Lattice

/-!
Which hits are shown. The hits of a second search join those of the first one if their path is new. Of
the suitable hits of one path the first one with the highest score is kept, at the place where the path
occurs first. Those that are kept are put in order by adjusted score, and in their own order where
these are equal.
-/

namespace Groundwork.Retrieval

variable {S : Type}

def pathsOf (hits : List (Hit S)) : List String := hits.map (·.path)

theorem mem_pathsOf {hits : List (Hit S)} {path : String} :
    path ∈ pathsOf hits ↔ ∃ h ∈ hits, h.path = path := List.mem_map

theorem pathsOf_concat (hits : List (Hit S)) (h : Hit S) :
    pathsOf (hits ++ [h]) = pathsOf hits ++ [h.path] := by
  rw [pathsOf, List.map_append]
  rfl

section Joined

def newHits (first second : List (Hit S)) : List (Hit S) :=
  (second.zipIdx.filter fun (h, i) => !(pathsOf (first ++ second.take i)).contains h.path).map (·.1)

theorem newHits_concat (first second : List (Hit S)) (h : Hit S) :
    newHits first (second ++ [h]) = newHits first second ++
      if h.path ∈ pathsOf (first ++ second) then [] else [h] := by
  have last : (second ++ [h]).zipIdx = second.zipIdx ++ [(h, second.length)] := by
    simp [List.zipIdx_append]
  have same : ∀ entry ∈ second.zipIdx,
      (!(pathsOf (first ++ (second ++ [h]).take entry.2)).contains entry.1.path) =
        !(pathsOf (first ++ second.take entry.2)).contains entry.1.path := by
    intro entry member
    have bound : entry.2 < second.length := by
      simpa using List.snd_lt_of_mem_zipIdx member
    rw [List.take_append_of_le_length (by omega)]
  rw [newHits, last, List.filter_append, List.filter_congr same, List.map_append]
  congr 1
  by_cases old : h.path ∈ pathsOf (first ++ second)
  · rw [if_pos old, List.filter_cons_of_neg (by simpa using old)]
    rfl
  · rw [if_neg old, List.filter_cons_of_pos (by simpa using old)]
    rfl

theorem newHits_subset (first second : List (Hit S)) : newHits first second ⊆ second := by
  intro h member
  obtain ⟨⟨_, i⟩, chosen, rfl⟩ := List.mem_map.mp member
  exact (List.mem_zipIdx' (List.mem_filter.mp chosen).1).2 ▸ List.getElem_mem _

theorem mem_pathsOf_joined (first second : List (Hit S)) {path : String} :
    path ∈ pathsOf (first ++ newHits first second) ↔ path ∈ pathsOf (first ++ second) := by
  induction second using List.reverseRecOn with
  | nil => rfl
  | append_singleton second h ih =>
      rw [newHits_concat, ← List.append_assoc, ← List.append_assoc, pathsOf_concat]
      split
      · rename_i old
        rw [List.append_nil, ih, List.mem_append, List.mem_singleton]
        constructor
        · exact Or.inl
        · rintro (before | rfl)
          · exact before
          · exact old
      · rw [pathsOf_concat, List.mem_append, List.mem_append, ih]

theorem mergeHits_eq (first second : List (Hit S)) :
    mergeHits first second = first ++ newHits first second := by
  induction second using List.reverseRecOn with
  | nil => exact (List.append_nil first).symm
  | append_singleton second h ih =>
      have step : mergeHits first (second ++ [h]) =
          if (mergeHits first second).any (·.path == h.path) then mergeHits first second
          else mergeHits first second ++ [h] := List.foldl_append
      have seen : (mergeHits first second).any (·.path == h.path) = true ↔
          h.path ∈ pathsOf (first ++ second) := by
        rw [ih, ← mem_pathsOf_joined, mem_pathsOf, List.any_eq_true]
        simp only [beq_iff_eq]
      rw [step, newHits_concat]
      by_cases old : h.path ∈ pathsOf (first ++ second)
      · rw [if_pos (seen.mpr old), if_pos old, List.append_nil, ih]
      · rw [if_neg (mt seen.mp old), if_neg old, ih, List.append_assoc]

end Joined

section Places

variable {hits kept before after : List (Hit S)} {h k next : Hit S}

theorem paths_append (paths : pathsOf kept = Text.distinct (pathsOf hits))
    (fresh : h.path ∉ pathsOf hits) :
    pathsOf (kept ++ [h]) = Text.distinct (pathsOf (hits ++ [h])) := by
  rw [pathsOf_concat, pathsOf_concat, Text.distinct_concat_of_notMem fresh, paths]

theorem paths_replace (paths : pathsOf (before ++ k :: after) = Text.distinct (pathsOf hits))
    (known : h.path ∈ pathsOf hits) (same : next.path = k.path) :
    pathsOf (before ++ next :: after) = Text.distinct (pathsOf (hits ++ [h])) := by
  rw [pathsOf_concat, Text.distinct_concat_of_mem known, ← paths, pathsOf, List.map_append,
    List.map_cons, same, pathsOf, List.map_append, List.map_cons]

theorem exists_place (paths : pathsOf kept = Text.distinct (pathsOf hits))
    (known : h.path ∈ pathsOf hits) : ∃ before k after, kept = before ++ k :: after ∧
      k.path = h.path ∧ h.path ∉ pathsOf before ∧ h.path ∉ pathsOf after := by
  have member : h.path ∈ pathsOf kept := by
    rwa [paths, Text.mem_distinct]
  obtain ⟨k, among, same⟩ := mem_pathsOf.mp member
  obtain ⟨before, after, rfl⟩ := List.append_of_mem among
  have once : (pathsOf (before ++ k :: after)).Nodup := by
    rw [paths]
    exact Text.distinct_nodup _
  rw [pathsOf, List.map_append, List.map_cons, List.nodup_middle, List.nodup_cons, List.mem_append,
    not_or, same] at once
  exact ⟨before, k, after, rfl, same, once.1.1, once.1.2⟩

end Places

section Keeping

variable [LT S] [DecidableLT S] {kept before : List (Hit S)} {h k : Hit S}

theorem keepBest_append (fresh : h.path ∉ pathsOf before) (rest : List (Hit S)) :
    keepBest h (before ++ rest) = (keepBest h rest).map (before ++ ·) := by
  induction before with
  | nil => cases made : keepBest h rest <;> simp [made, Except.map]
  | cons first before ih =>
      obtain ⟨differs, others⟩ := not_or.mp (mt List.mem_cons.mpr fresh)
      rw [List.cons_append, keepBest, if_neg (Ne.symm differs), ih others]
      cases keepBest h rest <;> rfl

theorem keepBest_new (fresh : h.path ∉ pathsOf kept) : keepBest h kept = .ok (kept ++ [h]) := by
  have alone := keepBest_append fresh []
  rwa [List.append_nil] at alone

theorem keepBest_old {new old : S} (fresh : h.path ∉ pathsOf before) (same : k.path = h.path)
    (scored : h.score = some new) (scoredOld : k.score = some old) (after : List (Hit S)) :
    keepBest h (before ++ k :: after) = .ok (before ++ (if old < new then h else k) :: after) := by
  rw [keepBest_append fresh, keepBest, if_pos same, scored, scoredOld]
  dsimp only
  split <;> rfl

theorem keepBest_unscored (fresh : h.path ∉ pathsOf before) (same : k.path = h.path)
    (missing : h.score = none ∨ k.score = none) (after : List (Hit S)) :
    keepBest h (before ++ k :: after) = .error .missingKey := by
  rw [keepBest_append fresh, keepBest, if_pos same]
  rcases missing with new | old
  · rw [new]
    rfl
  · rw [old]
    cases h.score <;> rfl

theorem bestByPath_concat (hits : List (Hit S)) (h : Hit S) :
    bestByPath (hits ++ [h]) = bestByPath hits >>= keepBest h := by
  rw [bestByPath, List.foldlM_append]
  exact bind_congr fun kept => bind_pure _

end Keeping

section Best

variable [LinearOrder S] [OfNat S 0] {hits kept : List (Hit S)} {h k : Hit S}

def Scored (h : Hit S) : Prop := h.score = some h.scoreOrZero

omit [LinearOrder S] in
theorem scored_of_isSome (isSome : h.score.isSome) : Scored h := by
  obtain ⟨score, found⟩ := Option.isSome_iff_exists.mp isSome
  rw [Scored, Hit.scoreOrZero, found]
  rfl

/-- A hit that none before it with its path reaches and none after it with its path exceeds. -/
def FirstBest (hits : List (Hit S)) (h : Hit S) : Prop :=
  ∃ before after, hits = before ++ h :: after ∧
    (∀ o ∈ before, o.path = h.path → o.scoreOrZero < h.scoreOrZero) ∧
      ∀ o ∈ after, o.path = h.path → o.scoreOrZero ≤ h.scoreOrZero

theorem FirstBest.mem (best : FirstBest hits k) : k ∈ hits := by
  obtain ⟨before, after, rfl, _⟩ := best
  exact List.mem_append_right before List.mem_cons_self

theorem FirstBest.highest (best : FirstBest hits k) {o : Hit S} (member : o ∈ hits)
    (same : o.path = k.path) : o.scoreOrZero ≤ k.scoreOrZero := by
  obtain ⟨before, after, rfl, below, within⟩ := best
  rcases List.mem_append.mp member with first | rest
  · exact le_of_lt (below o first same)
  · rcases List.mem_cons.mp rest with rfl | last
    · exact le_refl _
    · exact within o last same

theorem FirstBest.extend (best : FirstBest hits k)
    (notBetter : h.path = k.path → h.scoreOrZero ≤ k.scoreOrZero) : FirstBest (hits ++ [h]) k := by
  obtain ⟨before, after, rfl, below, within⟩ := best
  refine ⟨before, after ++ [h], by simp, below, ?_⟩
  intro o member same
  rcases List.mem_append.mp member with old | new
  · exact within o old same
  · rw [List.mem_singleton.mp new] at same ⊢
    exact notBetter same

theorem firstBest_concat (below : ∀ o ∈ hits, o.path = h.path → o.scoreOrZero < h.scoreOrZero) :
    FirstBest (hits ++ [h]) h :=
  ⟨hits, [], rfl, below, by simp⟩

theorem FirstBest.unique {other : Hit S} (best : FirstBest hits h) (alsoBest : FirstBest hits other)
    (same : other.path = h.path) : other = h := by
  obtain ⟨before, after, rfl, below, within⟩ := best
  obtain ⟨earlier, later, split, belowOther, withinOther⟩ := alsoBest
  rcases List.append_eq_append_iff.mp split with ⟨between, rfl, rest⟩ | ⟨between, rfl, rest⟩
  · cases between with
    | nil => exact (List.cons.inj rest).1.symm
    | cons first between =>
        obtain ⟨rfl, rfl⟩ := List.cons.inj rest
        have less := belowOther h (by simp) same.symm
        exact absurd (within other (by simp) same) (not_le.mpr less)
  · cases between with
    | nil => exact (List.cons.inj rest).1
    | cons first between =>
        obtain ⟨rfl, rfl⟩ := List.cons.inj rest
        have less := below other (by simp) same
        exact absurd (withinOther h (by simp) same.symm) (not_le.mpr less)

structure Represents (hits kept : List (Hit S)) : Prop where
  paths : pathsOf kept = Text.distinct (pathsOf hits)
  best : ∀ k ∈ kept, FirstBest hits k

theorem Represents.append (represents : Represents hits kept) (fresh : h.path ∉ pathsOf hits) :
    Represents (hits ++ [h]) (kept ++ [h]) := by
  have freshKept : h.path ∉ pathsOf kept := by
    rwa [represents.paths, Text.mem_distinct]
  refine ⟨paths_append represents.paths fresh, ?_⟩
  intro k among
  rcases List.mem_append.mp among with before | last
  · refine (represents.best k before).extend fun same => absurd ?_ freshKept
    exact mem_pathsOf.mpr ⟨k, before, same.symm⟩
  · rw [List.mem_singleton.mp last]
    exact firstBest_concat fun o before same => absurd (mem_pathsOf.mpr ⟨o, before, same⟩) fresh

theorem Represents.replace {before after : List (Hit S)}
    (represents : Represents hits (before ++ k :: after)) (same : k.path = h.path)
    (notBefore : h.path ∉ pathsOf before) (notAfter : h.path ∉ pathsOf after) :
    Represents (hits ++ [h])
      (before ++ (if k.scoreOrZero < h.scoreOrZero then h else k) :: after) := by
  have bestOld := represents.best k (by simp)
  have known : h.path ∈ pathsOf hits := mem_pathsOf.mpr ⟨k, bestOld.mem, same⟩
  have unmoved : (if k.scoreOrZero < h.scoreOrZero then h else k).path = k.path := by
    split
    · exact same.symm
    · rfl
  have elsewhere (o : Hit S) (side : List (Hit S)) (within : o ∈ side)
      (absent : h.path ∉ pathsOf side) (best : FirstBest hits o) : FirstBest (hits ++ [h]) o :=
    best.extend fun equal => absurd (mem_pathsOf.mpr ⟨o, within, equal.symm⟩) absent
  refine ⟨paths_replace represents.paths known unmoved, ?_⟩
  intro o member
  rcases List.mem_append.mp member with first | rest
  · exact elsewhere o before first notBefore (represents.best o (by simp [first]))
  · rcases List.mem_cons.mp rest with rfl | last
    · split
      · rename_i better
        refine firstBest_concat fun x earlier equal => ?_
        exact lt_of_le_of_lt (bestOld.highest earlier (equal.trans same.symm)) better
      · rename_i notBetter
        exact bestOld.extend fun _ => not_lt.mp notBetter
    · exact elsewhere o after last notAfter (represents.best o (by simp [last]))

theorem Represents.keepBest (represents : Represents hits kept)
    (scored : ∀ o ∈ hits ++ [h], Scored o) :
    ∃ next, Retrieval.keepBest h kept = .ok next ∧ Represents (hits ++ [h]) next := by
  by_cases old : h.path ∈ pathsOf hits
  · obtain ⟨before, k, after, rfl, same, notBefore, notAfter⟩ := exists_place represents.paths old
    have scoredOld := scored k (by simp [(represents.best k (by simp)).mem])
    exact ⟨_, keepBest_old notBefore same (scored h (by simp)) scoredOld after,
      represents.replace same notBefore notAfter⟩
  · have fresh : h.path ∉ pathsOf kept := by
      rwa [represents.paths, Text.mem_distinct]
    exact ⟨kept ++ [h], keepBest_new fresh, represents.append old⟩

theorem bestByPath_represents (scored : ∀ o ∈ hits, Scored o) :
    ∃ kept, bestByPath hits = .ok kept ∧ Represents hits kept := by
  induction hits using List.reverseRecOn with
  | nil => exact ⟨[], rfl, rfl, by simp⟩
  | append_singleton hits h ih =>
      obtain ⟨kept, made, represents⟩ := ih fun o member => scored o (List.mem_append_left _ member)
      obtain ⟨next, stepped, nextRepresents⟩ := represents.keepBest scored
      exact ⟨next, by rw [bestByPath_concat, made]; exact stepped, nextRepresents⟩

end Best

section Order

variable [LinearOrder S] {ranked : List (Ranked S)}

def Precedes (paths : List String) (a b : Ranked S) : Prop :=
  b.adjusted < a.adjusted ∨
    a.adjusted = b.adjusted ∧ paths.idxOf a.hit.path < paths.idxOf b.hit.path

theorem sortRanked_perm (ranked : List (Ranked S)) : (sortRanked ranked).Perm ranked :=
  List.mergeSort_perm ranked _

theorem notBelow_trans (a b c : Ranked S) (first : (!decide (a.adjusted < b.adjusted)) = true)
    (second : (!decide (b.adjusted < c.adjusted)) = true) :
    (!decide (a.adjusted < c.adjusted)) = true := by
  simp only [Bool.not_eq_true', decide_eq_false_iff_not, not_lt] at *
  exact le_trans second first

theorem notBelow_total (a b : Ranked S) :
    (!decide (a.adjusted < b.adjusted) || !decide (b.adjusted < a.adjusted)) = true := by
  simp only [Bool.or_eq_true, Bool.not_eq_true', decide_eq_false_iff_not, not_lt]
  exact le_total b.adjusted a.adjusted

theorem sortRanked_filter (ranked : List (Ranked S)) (score : S) :
    (sortRanked ranked).filter (fun r => r.adjusted = score) =
      ranked.filter fun r => r.adjusted = score := by
  have level : (ranked.filter fun r => r.adjusted = score).Pairwise fun a b =>
      (!decide (a.adjusted < b.adjusted)) = true := by
    refine List.pairwise_of_forall_mem_list fun a first b second => ?_
    have equalFirst : a.adjusted = score := by simpa using (List.mem_filter.mp first).2
    have equalSecond : b.adjusted = score := by simpa using (List.mem_filter.mp second).2
    simp [equalFirst, equalSecond]
  have kept := List.sublist_mergeSort notBelow_trans notBelow_total level List.filter_sublist
  have filtered := kept.filter fun r => decide (r.adjusted = score)
  rw [List.filter_filter] at filtered
  simp only [Bool.and_self] at filtered
  exact (filtered.eq_of_length ((sortRanked_perm ranked).filter _).length_eq.symm).symm

theorem sortRanked_pairwise {paths : List String}
    (inOrder : ranked.Pairwise fun a b => paths.idxOf a.hit.path < paths.idxOf b.hit.path) :
    (sortRanked ranked).Pairwise (Precedes paths) := by
  rw [List.pairwise_iff_forall_sublist]
  intro a b both
  have sorted := List.pairwise_iff_forall_sublist.mp
    (List.pairwise_mergeSort notBelow_trans notBelow_total ranked) both
  simp only [Bool.not_eq_true', decide_eq_false_iff_not, not_lt] at sorted
  rcases lt_or_eq_of_le sorted with less | equal
  · exact Or.inl less
  · refine Or.inr ⟨equal.symm, ?_⟩
    have kept := both.filter fun r => decide (r.adjusted = a.adjusted)
    rw [sortRanked_filter, List.filter_eq_self.mpr (by simp [equal])] at kept
    exact List.pairwise_iff_forall_sublist.mp inOrder (kept.trans List.filter_sublist)

end Order

end Groundwork.Retrieval
