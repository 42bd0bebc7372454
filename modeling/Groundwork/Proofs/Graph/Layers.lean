import Groundwork.Proofs.Graph.Layering

/-!
The layers of a graph. The layer of a number holds the positions of that height, and one last layer
holds what reaches a cycle, if there is anything.
-/

namespace Groundwork.Graph.FileGraph

variable {g : FileGraph}

open Classical in
noncomputable def atHeight (g : FileGraph) (height : Nat) : List Nat :=
  (List.range g.size).filter fun i => g.IsHeight i height

open Classical in
noncomputable def caught (g : FileGraph) : List Nat :=
  (List.range g.size).filter fun i => g.ReachesCycle i

theorem mem_atHeight {i height : Nat} :
    i ∈ g.atHeight height ↔ i < g.size ∧ g.IsHeight i height := by
  simp [atHeight]

theorem mem_caught (sound : g.Sound) {i : Nat} : i ∈ g.caught ↔ g.ReachesCycle i := by
  simp only [caught, List.mem_filter, List.mem_range, decide_eq_true_eq, and_iff_right_iff_imp]
  rintro ⟨j, path, cycle⟩
  rcases Relation.ReflTransGen.cases_head path with rfl | ⟨next, edge, _⟩
  · obtain ⟨next, edge, _⟩ := Relation.TransGen.head'_iff.mp cycle
    exact sound.sourceBound edge
  · exact sound.sourceBound edge

theorem atHeight_increasing (height : Nat) : (g.atHeight height).Pairwise (· < ·) :=
  List.pairwise_lt_range.filter _

theorem caught_increasing : g.caught.Pairwise (· < ·) := List.pairwise_lt_range.filter _

theorem exists_lower (sound : g.Sound) {i height lower : Nat} (bound : i < g.size)
    (isHeight : g.IsHeight i height) (atMost : lower ≤ height) : ∃ j, j ∈ g.atHeight lower := by
  induction height generalizing i with
  | zero =>
      obtain rfl : lower = 0 := Nat.le_zero.mp atMost
      exact ⟨i, mem_atHeight.mpr ⟨bound, isHeight⟩⟩
  | succ height ih =>
      rcases Nat.lt_or_eq_of_le atMost with less | rfl
      · obtain ⟨_, j, edge, isLower⟩ := isHeight_succ_iff.mp isHeight
        exact ih (sound.bounded edge) isLower (Nat.le_of_lt_succ less)
      · exact ⟨i, mem_atHeight.mpr ⟨bound, isHeight⟩⟩

theorem height_lt_of_empty (sound : g.Sound) {i height top : Nat} (empty : g.atHeight top = [])
    (bound : i < g.size) (isHeight : g.IsHeight i height) : height < top := by
  by_contra above
  obtain ⟨j, member⟩ := exists_lower sound bound isHeight (Nat.le_of_not_lt above)
  simp [empty] at member

theorem Placing.current_eq {height counts placed current}
    (placing : Placing g height counts placed current) : current = g.atHeight height :=
  placing.increasing.eq_of_mem_iff (atHeight_increasing height) fun i => by
    rw [placing.present, mem_atHeight]

theorem Placing.remaining_eq (sound : g.Sound) {height counts placed}
    (placing : Placing g height counts placed []) : g.remaining placed = g.caught := by
  have empty : g.atHeight height = [] := placing.current_eq.symm
  refine List.filter_congr fun i member => ?_
  have bound := List.mem_range.mp member
  have settled : i ∈ placed ↔ ∃ lower, g.IsHeight i lower := by
    rw [placing.lower, and_iff_right bound]
    constructor
    · rintro ⟨lower, _, isLower⟩
      exact ⟨lower, isLower⟩
    · rintro ⟨lower, isLower⟩
      exact ⟨lower, height_lt_of_empty sound empty bound isLower, isLower⟩
  rw [exists_height_iff sound] at settled
  by_cases reaches : g.ReachesCycle i <;> simp [settled, reaches]

noncomputable def caughtLayer (g : FileGraph) : List (List Nat) :=
  if g.caught.isEmpty then [] else [g.caught]

theorem Placing.room {height counts placed current}
    (placing : Placing g height counts placed current) : (current ++ placed).length ≤ g.size := by
  have unique : (current ++ placed).Nodup :=
    placing.currentUnique.append placing.placedUnique fun _ => placing.apart
  have inside : current ++ placed ⊆ List.range g.size := by
    intro i member
    rcases List.mem_append.mp member with isCurrent | isPlaced
    · exact List.mem_range.mpr ((placing.present i).mp isCurrent).1
    · exact List.mem_range.mpr ((placing.lower i).mp isPlaced).1
  simpa using (unique.subperm inside).length_le

theorem Placing.current_nil {height counts placed current}
    (placing : Placing g height counts placed current) (full : g.size ≤ placed.length) :
    current = [] := by
  have room := placing.room
  rw [List.length_append] at room
  exact List.length_eq_zero_iff.mp (by omega)

theorem Placing.finished (sound : g.Sound) {height counts placed}
    (placing : Placing g height counts placed []) (rounds : Nat) :
    g.atHeight height = [] ∧ g.layersFrom rounds counts placed [] = some g.caughtLayer :=
  ⟨placing.current_eq.symm, by simp [lastLayer, caughtLayer, placing.remaining_eq sound]⟩

theorem layersFrom_eq (sound : g.Sound) (rounds : Nat) {height counts placed current}
    (placing : Placing g height counts placed current)
    (enough : g.size ≤ rounds + placed.length) :
    ∃ count, g.atHeight (height + count) = [] ∧
      (∀ offset < count, g.atHeight (height + offset) ≠ []) ∧
      g.layersFrom rounds counts placed current =
        some ((List.range' height count).map g.atHeight ++ g.caughtLayer) := by
  -- Every round with a position to place uses up one of the rounds, and `room` bounds the positions.
  induction rounds generalizing height counts placed current with
  | zero =>
      obtain rfl := placing.current_nil (by omega)
      obtain ⟨empty, computed⟩ := placing.finished sound 0
      exact ⟨0, empty, by omega, computed⟩
  | succ rounds ih =>
      cases current with
      | nil =>
          obtain ⟨empty, computed⟩ := placing.finished sound (rounds + 1)
          exact ⟨0, empty, by omega, computed⟩
      | cons i rest =>
          have placesMore : g.size ≤ rounds + (i :: rest ++ placed).length := by
            simp only [List.cons_append, List.length_cons, List.length_append]
            omega
          obtain ⟨count, empty, occupied, computed⟩ := ih (placing.next sound) placesMore
          refine ⟨count + 1, by rwa [Nat.add_right_comm] at empty, ?_, ?_⟩
          · intro offset less
            cases offset with
            | zero => simp [← placing.current_eq]
            | succ offset =>
                have present := occupied offset (Nat.lt_of_succ_lt_succ less)
                rwa [Nat.add_right_comm] at present
          · simp only [layersFrom]
            rw [computed]
            simp only [Option.map_some, List.range'_succ, List.map_cons, ← placing.current_eq,
              List.cons_append]

theorem layers?_eq (sound : g.Sound) : ∃ count, g.atHeight count = [] ∧
    (∀ height < count, g.atHeight height ≠ []) ∧
    g.layers? = some ((List.range count).map g.atHeight ++ g.caughtLayer) := by
  obtain ⟨count, empty, occupied, computed⟩ :=
    layersFrom_eq sound g.size (placing_initial sound) (by simp)
  rw [Nat.zero_add] at empty
  simp only [Nat.zero_add] at occupied
  rw [← List.range_eq_range'] at computed
  exact ⟨count, empty, occupied, computed⟩

def InLayer (layers : List (List Nat)) (number i : Nat) : Prop :=
  ∃ layer, layers[number]? = some layer ∧ i ∈ layer

structure IsLayering (g : FileGraph) (layers : List (List Nat)) : Prop where
  /-- Every position stands in exactly one layer, once. -/
  complete : layers.flatten.Perm (List.range g.size)
  increasing : ∀ layer ∈ layers, layer.Pairwise (· < ·)
  occupied : ∀ layer ∈ layers, layer ≠ []
  /-- The number of a layer is the length of the longest chain from each of its positions. -/
  longest : ∀ i < g.size, ¬ g.ReachesCycle i → ∃ height, g.IsHeight i height ∧
    InLayer layers height i
  first : ∀ i < g.size, g.dependenciesOf i = [] → InLayer layers 0 i
  above : ∀ i < g.size, ¬ g.ReachesCycle i → g.dependenciesOf i ≠ [] → ∃ highest,
    InLayer layers (highest + 1) i ∧ (∃ j, g.HasEdge i j ∧ InLayer layers highest j) ∧
      ∀ j, g.HasEdge i j → ∃ lower ≤ highest, InLayer layers lower j
  /-- What reaches a cycle is one last layer, behind layers of positions that reach none. -/
  last : ∀ i, g.ReachesCycle i → ∃ settled caught, layers = settled ++ [caught] ∧
    (∀ j, j ∈ caught ↔ g.ReachesCycle j) ∧ ∀ layer ∈ settled, ∀ j ∈ layer, ¬ g.ReachesCycle j

theorem height_mem_layers (sound : g.Sound) {count : Nat} (empty : g.atHeight count = [])
    {i height : Nat} (bound : i < g.size) (isHeight : g.IsHeight i height) :
    InLayer ((List.range count).map g.atHeight ++ g.caughtLayer) height i := by
  have less := height_lt_of_empty sound empty bound isHeight
  refine ⟨g.atHeight height, ?_, mem_atHeight.mpr ⟨bound, isHeight⟩⟩
  rw [List.getElem?_append_left (by simpa using less)]
  simp [less]

theorem flatten_caughtLayer : g.caughtLayer.flatten = g.caught := by
  unfold caughtLayer
  split
  · rename_i none
    simpa using (List.isEmpty_iff.mp none).symm
  · simp

theorem mem_heights {count i : Nat} : i ∈ ((List.range count).map g.atHeight).flatten ↔
    ∃ height < count, i ∈ g.atHeight height := by
  simp only [List.mem_flatten, List.mem_map, List.mem_range]
  constructor
  · rintro ⟨_, ⟨height, less, rfl⟩, member⟩
    exact ⟨height, less, member⟩
  · rintro ⟨height, less, member⟩
    exact ⟨_, ⟨height, less, rfl⟩, member⟩

theorem heights_unique (count : Nat) : ((List.range count).map g.atHeight).flatten.Nodup := by
  rw [List.nodup_flatten]
  constructor
  · intro layer member
    obtain ⟨height, _, rfl⟩ := List.mem_map.mp member
    exact (atHeight_increasing height).imp Nat.ne_of_lt
  · refine List.Pairwise.map g.atHeight ?_ List.pairwise_lt_range
    intro first second less
    refine List.disjoint_left.mpr ?_
    intro i isFirst isSecond
    have same := (mem_atHeight.mp isFirst).2.unique (mem_atHeight.mp isSecond).2
    omega

theorem flatten_perm (sound : g.Sound) {count : Nat} (empty : g.atHeight count = []) :
    ((List.range count).map g.atHeight ++ g.caughtLayer).flatten.Perm (List.range g.size) := by
  rw [List.flatten_append, flatten_caughtLayer]
  have apart : List.Disjoint ((List.range count).map g.atHeight).flatten g.caught := by
    rw [List.disjoint_left]
    intro i member reaches
    obtain ⟨height, _, inLayer⟩ := mem_heights.mp member
    exact (exists_height_iff sound i).mp ⟨height, (mem_atHeight.mp inLayer).2⟩
      ((mem_caught sound).mp reaches)
  have unique := (heights_unique count).append (caught_increasing.imp Nat.ne_of_lt) apart
  rw [List.perm_ext_iff_of_nodup unique List.nodup_range]
  intro i
  rw [List.mem_append, mem_heights, List.mem_range]
  constructor
  · rintro (⟨height, _, inLayer⟩ | reaches)
    · exact (mem_atHeight.mp inLayer).1
    · exact List.mem_range.mp (List.mem_of_mem_filter reaches)
  · intro bound
    by_cases reaches : g.ReachesCycle i
    · exact Or.inr ((mem_caught sound).mpr reaches)
    · obtain ⟨height, isHeight⟩ := (exists_height_iff sound i).mpr reaches
      have less := height_lt_of_empty sound empty bound isHeight
      exact Or.inl ⟨height, less, mem_atHeight.mpr ⟨bound, isHeight⟩⟩

theorem layer_cases {count : Nat} {layer : List Nat}
    (member : layer ∈ (List.range count).map g.atHeight ++ g.caughtLayer) :
    (∃ height < count, layer = g.atHeight height) ∨ layer = g.caught ∧ g.caught ≠ [] := by
  rcases List.mem_append.mp member with settled | isLast
  · obtain ⟨height, less, rfl⟩ := List.mem_map.mp settled
    exact Or.inl ⟨height, List.mem_range.mp less, rfl⟩
  · unfold caughtLayer at isLast
    split at isLast
    · simp at isLast
    · rename_i some
      exact Or.inr ⟨List.mem_singleton.mp isLast, by simpa using some⟩

theorem isLayering_of_heights (sound : g.Sound) {count : Nat} (empty : g.atHeight count = [])
    (occupied : ∀ height < count, g.atHeight height ≠ []) :
    IsLayering g ((List.range count).map g.atHeight ++ g.caughtLayer) where
  complete := flatten_perm sound empty
  increasing layer member := by
    rcases layer_cases member with ⟨height, _, rfl⟩ | ⟨rfl, _⟩
    · exact atHeight_increasing height
    · exact caught_increasing
  occupied layer member := by
    rcases layer_cases member with ⟨height, less, rfl⟩ | ⟨rfl, some⟩
    · exact occupied height less
    · exact some
  longest i bound acyclic := by
    obtain ⟨height, isHeight⟩ := (exists_height_iff sound i).mpr acyclic
    exact ⟨height, isHeight, height_mem_layers sound empty bound isHeight⟩
  first i bound none := height_mem_layers sound empty bound (isHeight_zero_iff.mpr none)
  above i bound acyclic some := by
    obtain ⟨height, isHeight⟩ := (exists_height_iff sound i).mpr acyclic
    cases height with
    | zero => exact absurd (isHeight_zero_iff.mp isHeight) some
    | succ highest =>
        obtain ⟨atMost, j, edge, isHighest⟩ := isHeight_succ_iff.mp isHeight
        refine ⟨highest, height_mem_layers sound empty bound isHeight,
          ⟨j, edge, height_mem_layers sound empty (sound.bounded edge) isHighest⟩, ?_⟩
        intro next nextEdge
        obtain ⟨lower, lowerBound, isLower⟩ := atMost next nextEdge
        exact ⟨lower, lowerBound, height_mem_layers sound empty (sound.bounded nextEdge) isLower⟩
  last i reaches := by
    have some : g.caught.isEmpty = false := by
      rw [List.isEmpty_eq_false_iff_exists_mem]
      exact ⟨i, (mem_caught sound).mpr reaches⟩
    refine ⟨(List.range count).map g.atHeight, g.caught, by simp [caughtLayer, some],
      fun j => mem_caught sound, ?_⟩
    intro layer settled j member
    obtain ⟨height, _, rfl⟩ := List.mem_map.mp settled
    exact (exists_height_iff sound j).mp ⟨height, (mem_atHeight.mp member).2⟩

/-- The layering of every graph made by adding edges comes to an end, and its layers are a layering:
the number of each layer is a longest chain, and what reaches a cycle is one last layer. -/
theorem layers_isLayering (paths : List String) (pairs : List (String × String)) :
    ((ofPaths paths).addEdges pairs).layers? = some ((ofPaths paths).addEdges pairs).layers ∧
      IsLayering ((ofPaths paths).addEdges pairs) ((ofPaths paths).addEdges pairs).layers := by
  have sound := addEdges_sound (ofPaths_sound paths) pairs
  obtain ⟨count, empty, occupied, computed⟩ := layers?_eq sound
  have layersEq : ((ofPaths paths).addEdges pairs).layers =
      (List.range count).map ((ofPaths paths).addEdges pairs).atHeight ++
        ((ofPaths paths).addEdges pairs).caughtLayer := by
    rw [layers, computed, Option.getD_some]
  rw [layersEq]
  exact ⟨computed, isLayering_of_heights sound empty occupied⟩

end Groundwork.Graph.FileGraph
