import Groundwork.Graph.FileGraph
import Mathlib.Data.List.Nodup
import Mathlib.Logic.Relation

/-!
What every graph built by adding edges has in common: its adjacency lists hold positions of the graph,
none of them twice and none beside itself, and the dependents are the dependencies read backwards.
-/

namespace Groundwork.Graph.FileGraph

structure Sound (g : FileGraph) : Prop where
  dependenciesSize : g.dependencies.length = g.size
  dependentsSize : g.dependents.length = g.size
  bounded : ∀ {i j}, g.HasEdge i j → j < g.size
  irreflexive : ∀ i, ¬ g.HasEdge i i
  transposed : ∀ i j, i ∈ g.dependentsOf j ↔ g.HasEdge i j
  dependenciesUnique : ∀ i, (g.dependenciesOf i).Nodup
  dependentsUnique : ∀ i, (g.dependentsOf i).Nodup

theorem getD_modify_append (rows : List (List Nat)) (row query value : Nat)
    (bound : row < rows.length) :
    (rows.modify row (· ++ [value])).getD query [] =
      rows.getD query [] ++ if row = query then [value] else [] := by
  rw [List.getD_eq_getElem?_getD, List.getElem?_modify, List.getD_eq_getElem?_getD]
  by_cases same : row = query
  · subst query
    simp [List.getElem?_eq_getElem bound]
  · cases rows[query]? <;> simp [same]

theorem position?_bound {g : FileGraph} {path : String} {i : Nat}
    (found : g.position? path = some i) : i < g.size := by
  simp only [position?, Option.map_eq_some_iff] at found
  obtain ⟨offset, offsetFound, rfl⟩ := found
  have below := List.findIdx?_eq_some_iff_getElem.mp offsetFound
  obtain ⟨offsetBound, _⟩ := below
  have offsetSize : offset < g.size := by simpa [size] using offsetBound
  omega

theorem Sound.sourceBound {g : FileGraph} (sound : g.Sound) {i j : Nat} (edge : g.HasEdge i j) :
    i < g.size := by
  by_contra outside
  have missing : g.dependencies[i]? = none := by
    rw [List.getElem?_eq_none_iff, sound.dependenciesSize]
    omega
  simp [HasEdge, dependenciesOf, missing] at edge

theorem dependenciesOf_ofPaths (paths : List String) (i : Nat) :
    (ofPaths paths).dependenciesOf i = [] := by
  simp only [ofPaths, dependenciesOf, List.getD_eq_getElem?_getD, List.getElem?_map]
  cases paths[i]? <;> rfl

theorem not_hasEdge_ofPaths (paths : List String) (i j : Nat) : ¬ (ofPaths paths).HasEdge i j := by
  simp [HasEdge, dependenciesOf_ofPaths]

theorem ofPaths_sound (paths : List String) : (ofPaths paths).Sound := by
  have noEdge := not_hasEdge_ofPaths paths
  have noDependents (i : Nat) : (ofPaths paths).dependentsOf i = [] := dependenciesOf_ofPaths paths i
  exact {
    dependenciesSize := by simp [ofPaths, size]
    dependentsSize := by simp [ofPaths, size]
    bounded := by
      intro i j edge
      exact absurd edge (noEdge i j)
    irreflexive := fun i => noEdge i i
    transposed := by simp [noEdge, noDependents]
    dependenciesUnique := by simp [dependenciesOf_ofPaths]
    dependentsUnique := by simp [noDependents] }

theorem addEdge_cases (g : FileGraph) (source target : String) :
    (g.addEdge source target).2 = g ∨
      ∃ i j, i < g.size ∧ j < g.size ∧ i ≠ j ∧ ¬ g.HasEdge i j ∧
        (g.addEdge source target).2 = g.withEdge i j := by
  unfold addEdge
  split
  · rename_i i j sourceFound targetFound
    split
    · exact Or.inl rfl
    · rename_i fresh
      rw [not_or] at fresh
      exact Or.inr ⟨i, j, position?_bound sourceFound, position?_bound targetFound,
        fresh.1, fresh.2, rfl⟩
  · exact Or.inl rfl

section WithEdge

variable {g : FileGraph} (sound : g.Sound) {i j : Nat}
include sound

theorem dependenciesOf_withEdge (bound : i < g.size) (query : Nat) :
    (g.withEdge i j).dependenciesOf query =
      g.dependenciesOf query ++ if i = query then [j] else [] :=
  getD_modify_append _ _ _ _ (by rw [sound.dependenciesSize]; exact bound)

theorem dependentsOf_withEdge (bound : j < g.size) (query : Nat) :
    (g.withEdge i j).dependentsOf query =
      g.dependentsOf query ++ if j = query then [i] else [] :=
  getD_modify_append _ _ _ _ (by rw [sound.dependentsSize]; exact bound)

theorem hasEdge_withEdge (bound : i < g.size) (a b : Nat) :
    (g.withEdge i j).HasEdge a b ↔ g.HasEdge a b ∨ i = a ∧ j = b := by
  rw [HasEdge, dependenciesOf_withEdge sound bound, List.mem_append]
  by_cases same : i = a
  · simp [same, HasEdge, eq_comm]
  · simp [same, HasEdge]

end WithEdge

theorem withEdge_sound {g : FileGraph} (sound : g.Sound) {i j : Nat} (sourceBound : i < g.size)
    (targetBound : j < g.size) (different : i ≠ j) (fresh : ¬ g.HasEdge i j) :
    (g.withEdge i j).Sound where
  dependenciesSize := by simpa [withEdge, size] using sound.dependenciesSize
  dependentsSize := by simpa [withEdge, size] using sound.dependentsSize
  bounded {a b} edge := by
    rcases (hasEdge_withEdge sound sourceBound a b).mp edge with old | ⟨_, rfl⟩
    · exact sound.bounded old
    · exact targetBound
  irreflexive a edge := by
    rcases (hasEdge_withEdge sound sourceBound a a).mp edge with old | ⟨rfl, same⟩
    · exact sound.irreflexive a old
    · exact different same.symm
  transposed a b := by
    rw [hasEdge_withEdge sound sourceBound, dependentsOf_withEdge sound targetBound, List.mem_append,
      sound.transposed]
    by_cases same : j = b
    · simp [same, eq_comm]
    · simp [same]
  dependenciesUnique a := by
    rw [dependenciesOf_withEdge sound sourceBound]
    by_cases same : i = a
    · subst a
      rw [if_pos rfl]
      exact (sound.dependenciesUnique i).append (List.nodup_singleton j)
        (List.disjoint_singleton.mpr fresh)
    · simpa [same] using sound.dependenciesUnique a
  dependentsUnique b := by
    rw [dependentsOf_withEdge sound targetBound]
    by_cases same : j = b
    · subst b
      have unseen : i ∉ g.dependentsOf j := fun member => fresh ((sound.transposed i j).mp member)
      rw [if_pos rfl]
      exact (sound.dependentsUnique j).append (List.nodup_singleton i)
        (List.disjoint_singleton.mpr unseen)
    · simpa [same] using sound.dependentsUnique b

theorem addEdge_sound {g : FileGraph} (sound : g.Sound) (source target : String) :
    (g.addEdge source target).2.Sound := by
  rcases addEdge_cases g source target with
    unchanged | ⟨i, j, sourceBound, targetBound, different, fresh, changed⟩
  · rw [unchanged]
    exact sound
  · rw [changed]
    exact withEdge_sound sound sourceBound targetBound different fresh

theorem addEdges_sound {g : FileGraph} (sound : g.Sound) (pairs : List (String × String)) :
    (g.addEdges pairs).Sound := by
  induction pairs generalizing g with
  | nil => exact sound
  | cons pair pairs ih => exact ih (addEdge_sound sound pair.1 pair.2)

end Groundwork.Graph.FileGraph
