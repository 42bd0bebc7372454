import Groundwork.Proofs.Graph.Edges

/-!
Adding edges one after the other, between any paths. A path stands for its last position in the list. An
edge is new if both its ends are known, at different positions, and it is not there yet; whatever is not
new leaves the graph as it is.
-/

namespace Groundwork.Graph.FileGraph

def IsLast (paths : List String) (path : String) (i : Nat) : Prop :=
  paths[i]? = some path ∧ ∀ k, i < k → paths[k]? ≠ some path

structure IsNew (g : FileGraph) (source target : String) (i j : Nat) : Prop where
  source : IsLast g.paths source i
  target : IsLast g.paths target j
  different : i ≠ j
  absent : ¬ g.HasEdge i j

theorem IsLast.bound {paths : List String} {path : String} {i : Nat} (last : IsLast paths path i) :
    i < paths.length := (List.getElem?_eq_some_iff.mp last.1).1

theorem IsNew.sourceBound {g : FileGraph} {source target : String} {i j : Nat}
    (new : g.IsNew source target i j) : i < g.size := new.source.bound

variable {g : FileGraph} {path source target : String} {i j : Nat}

theorem position?_eq_some_iff : g.position? path = some i ↔ IsLast g.paths path i := by
  have fromEnd (k : Nat) (bound : k < g.size) :
      g.paths.reverse[k]? = g.paths[g.size - 1 - k]? := List.getElem?_reverse bound
  simp only [position?, Option.map_eq_some_iff, List.idxOf?, List.findIdx?_eq_some_iff_getElem,
    beq_iff_eq]
  constructor
  · rintro ⟨offset, ⟨bound, found, before⟩, rfl⟩
    have inside : offset < g.size := by simpa [size] using bound
    constructor
    · rw [← fromEnd offset inside, List.getElem?_eq_getElem bound, found]
    · intro k later atPath
      have known : k < g.size := (List.getElem?_eq_some_iff.mp atPath).1
      have sooner := before (g.size - 1 - k) (by omega)
      apply sooner
      have mirrored := fromEnd (g.size - 1 - k) (by omega)
      rw [show g.size - 1 - (g.size - 1 - k) = k by omega, atPath] at mirrored
      exact (List.getElem?_eq_some_iff.mp mirrored).2
  · rintro ⟨atPath, last⟩
    have inside : i < g.size := (List.getElem?_eq_some_iff.mp atPath).1
    have back : g.size - 1 - (g.size - 1 - i) = i := by omega
    refine ⟨g.size - 1 - i, ⟨by simp only [List.length_reverse]; unfold size at inside ⊢; omega, ?_, ?_⟩, back⟩
    · have mirrored := fromEnd (g.size - 1 - i) (by omega)
      rw [back, atPath] at mirrored
      exact (List.getElem?_eq_some_iff.mp mirrored).2
    · intro k sooner found
      apply last (g.size - 1 - k) (by omega)
      rw [← fromEnd k (by omega)]
      exact List.getElem?_eq_some_iff.mpr ⟨_, found⟩

theorem isLast_of_nodup {paths : List String} (unique : paths.Nodup) :
    IsLast paths path i ↔ paths[i]? = some path := by
  refine ⟨And.left, fun found => ⟨found, fun k later again => ?_⟩⟩
  have inside := (List.getElem?_eq_some_iff.mp found).1
  have same := (List.getElem?_inj inside unique).mp (found.trans again.symm)
  omega

theorem addEdge_new (new : g.IsNew source target i j) :
    g.addEdge source target = (true, g.withEdge i j) := by
  have fresh : ¬ (i = j ∨ g.HasEdge i j) := not_or.mpr ⟨new.different, new.absent⟩
  rw [addEdge, position?_eq_some_iff.mpr new.source, position?_eq_some_iff.mpr new.target]
  exact if_neg fresh

theorem addEdge_old (old : ∀ i j, ¬ g.IsNew source target i j) :
    g.addEdge source target = (false, g) := by
  unfold addEdge
  split
  · rename_i i j sourceFound targetFound
    split
    · rfl
    · rename_i fresh
      rw [not_or] at fresh
      exact absurd ⟨position?_eq_some_iff.mp sourceFound, position?_eq_some_iff.mp targetFound,
        fresh.1, fresh.2⟩ (old i j)
  · rfl

theorem addEdge_fst_iff : (g.addEdge source target).1 = true ↔ ∃ i j, g.IsNew source target i j := by
  constructor
  · intro added
    by_contra old
    push Not at old
    rw [addEdge_old old] at added
    simp at added
  · rintro ⟨i, j, new⟩
    rw [addEdge_new new]

theorem addEdge_paths (g : FileGraph) (source target : String) :
    (g.addEdge source target).2.paths = g.paths := by
  by_cases new : ∃ i j, g.IsNew source target i j
  · obtain ⟨i, j, new⟩ := new
    rw [addEdge_new new, withEdge]
  · push Not at new
    rw [addEdge_old new]

theorem addEdges_paths (g : FileGraph) (pairs : List (String × String)) :
    (g.addEdges pairs).paths = g.paths := by
  induction pairs generalizing g with
  | nil => rfl
  | cons pair pairs ih => exact (ih _).trans (addEdge_paths g pair.1 pair.2)

theorem hasEdge_addEdge (sound : g.Sound) : (g.addEdge source target).2.HasEdge i j ↔
    g.HasEdge i j ∨ i ≠ j ∧ IsLast g.paths source i ∧ IsLast g.paths target j := by
  by_cases new : ∃ a b, g.IsNew source target a b
  · obtain ⟨a, b, new⟩ := new
    have asked : (i ≠ j ∧ IsLast g.paths source i ∧ IsLast g.paths target j) ↔ a = i ∧ b = j := by
      constructor
      · rintro ⟨_, first, second⟩
        have sourceAt := (position?_eq_some_iff.mpr new.source).symm.trans (position?_eq_some_iff.mpr first)
        have targetAt := (position?_eq_some_iff.mpr new.target).symm.trans (position?_eq_some_iff.mpr second)
        exact ⟨Option.some.inj sourceAt, Option.some.inj targetAt⟩
      · rintro ⟨rfl, rfl⟩
        exact ⟨new.different, new.source, new.target⟩
    rw [addEdge_new new, hasEdge_withEdge sound new.sourceBound, asked]
  · push Not at new
    rw [addEdge_old new, or_iff_left_of_imp]
    rintro ⟨different, first, second⟩
    exact not_not.mp fun absent => new i j ⟨first, second, different, absent⟩

theorem hasEdge_addEdges (sound : g.Sound) (pairs : List (String × String)) :
    (g.addEdges pairs).HasEdge i j ↔ g.HasEdge i j ∨
      i ≠ j ∧ ∃ pair ∈ pairs, IsLast g.paths pair.1 i ∧ IsLast g.paths pair.2 j := by
  induction pairs generalizing g with
  | nil => simp [addEdges]
  | cons pair pairs ih =>
      have next := ih (addEdge_sound sound pair.1 pair.2)
      rw [addEdge_paths, hasEdge_addEdge sound, or_assoc, ← and_or_left] at next
      simpa only [addEdges, List.foldl_cons, List.exists_mem_cons_iff] using next

/-- Every graph made from a list of paths by asking for edges keeps its adjacency lists sound, tells
truly whether an edge that is asked for is new, and has just that edge more if it is. -/
theorem addEdges_invariant (paths : List String) (pairs : List (String × String)) :
    let g := (ofPaths paths).addEdges pairs
    g.paths = paths ∧ g.Sound ∧ (∀ i j, i ∈ g.dependentsOf j → i < g.size) ∧
      ∀ source target,
        ((g.addEdge source target).1 = true ↔ ∃ i j, g.IsNew source target i j) ∧
        (∀ i j, g.IsNew source target i j → ∀ a b,
          (g.addEdge source target).2.HasEdge a b ↔ g.HasEdge a b ∨ i = a ∧ j = b) ∧
        ((g.addEdge source target).1 = false → (g.addEdge source target).2 = g) := by
  intro g
  have sound : g.Sound := addEdges_sound (ofPaths_sound paths) pairs
  refine ⟨addEdges_paths _ _, sound, fun i j importer => ?_, fun source target => ⟨addEdge_fst_iff, ?_, ?_⟩⟩
  · exact sound.sourceBound ((sound.transposed i j).mp importer)
  · intro i j new a b
    rw [addEdge_new new]
    exact hasEdge_withEdge sound new.sourceBound a b
  · intro refused
    by_cases new : ∃ i j, g.IsNew source target i j
    · rw [addEdge_fst_iff.mpr new] at refused
      simp at refused
    · push Not at new
      rw [addEdge_old new]

end Groundwork.Graph.FileGraph
