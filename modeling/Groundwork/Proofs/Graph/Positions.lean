import Groundwork.Proofs.Graph.Unresolved
import Mathlib.Tactic.Ring

/-!
Where the nodes of a graph are drawn. A layer is a column of its own, with its positions one below the
other around the height zero, so that no two nodes are drawn at one place. An edge leads to a column on
the left, or stays in the column of the unresolved paths.
-/

namespace Groundwork.Graph

def Node.place (n : Node) : Position := n.position.getD ⟨0, 0⟩

def placeAt (number row size : Nat) : Position :=
  ⟨layerWidth * number, nodeHeight * row - nodeHeight / 2 * (size - 1 : Int)⟩

theorem placeAt_inj {number row size other otherRow otherSize : Nat}
    (same : placeAt number row size = placeAt other otherRow otherSize) : number = other := by
  simp only [placeAt, layerWidth, Position.mk.injEq] at same
  omega

theorem placeAt_row_inj {number row size otherRow : Nat}
    (same : placeAt number row size = placeAt number otherRow size) : row = otherRow := by
  simp only [placeAt, nodeHeight, Position.mk.injEq] at same
  omega

theorem mem_placeLayers {layers : List (List Nat)} {i : Nat} {p : Position} :
    (i, p) ∈ placeLayers layers ↔ ∃ number layer row, layers[number]? = some layer ∧
      layer[row]? = some i ∧ p = placeAt number row layer.length := by
  simp only [placeLayers, placeLayer, List.mem_flatMap, List.mem_map, Prod.exists, Prod.mk.injEq,
    List.mem_zipIdx_iff_getElem?]
  constructor
  · rintro ⟨layer, number, found, _, row, foundRow, rfl, rfl⟩
    exact ⟨number, layer, row, found, foundRow, rfl⟩
  · rintro ⟨number, layer, row, found, foundRow, rfl⟩
    exact ⟨layer, number, found, i, row, foundRow, rfl, rfl⟩

theorem placeLayer_positions (number : Nat) (layer : List Nat) :
    (placeLayer number layer).map (·.1) = layer := by
  simp [placeLayer, Function.comp_def]

theorem placeLayers_positions (layers : List (List Nat)) :
    (placeLayers layers).map (·.1) = layers.flatten := by
  simp only [placeLayers, List.map_flatMap, placeLayer_positions]
  rw [List.flatMap_def, List.zipIdx_map_fst]

theorem placeLayers_injective {layers : List (List Nat)} {first second : Nat × Position}
    (isFirst : first ∈ placeLayers layers) (isSecond : second ∈ placeLayers layers)
    (same : first.2 = second.2) : first = second := by
  obtain ⟨number, layer, row, found, foundRow, place⟩ := mem_placeLayers.mp isFirst
  obtain ⟨other, otherLayer, otherRow, otherFound, otherFoundRow, otherPlace⟩ :=
    mem_placeLayers.mp isSecond
  rw [place, otherPlace] at same
  obtain rfl := placeAt_inj same
  obtain rfl : layer = otherLayer := by simpa [found] using otherFound
  obtain rfl := placeAt_row_inj same
  have member : first.1 = second.1 := by simpa [foundRow] using otherFoundRow
  exact Prod.ext member (by rw [place, otherPlace])

theorem sum_rows (size : Nat) (middle : Int) :
    ((List.range size).map fun row : Nat => nodeHeight * row - middle).sum =
      nodeHeight / 2 * (size * (size - 1)) - size * middle := by
  induction size with
  | zero => simp
  | succ size ih =>
      rw [List.range_succ, List.map_append, List.sum_append, ih]
      simp only [nodeHeight, List.map_cons, List.map_nil, List.sum_cons, List.sum_nil]
      push_cast
      ring

theorem x_of_mem_placeLayer {number : Nat} {layer : List Nat} {p : Position}
    (member : p ∈ (placeLayer number layer).map (·.2)) : p.x = layerWidth * number := by
  simp only [placeLayer, List.mem_map] at member
  obtain ⟨_, ⟨_, _, rfl⟩, rfl⟩ := member
  rfl

theorem sum_placeLayer (number : Nat) (layer : List Nat) :
    ((placeLayer number layer).map (·.2.y)).sum = 0 := by
  have rows : (placeLayer number layer).map (·.2.y) = (List.range layer.length).map fun row : Nat =>
      nodeHeight * row - nodeHeight / 2 * (layer.length - 1 : Int) := by
    rw [List.range_eq_range', ← List.zipIdx_map_snd 0 layer, placeLayer, List.map_map, List.map_map]
    rfl
  rw [rows, sum_rows]
  ring

theorem sum_column (layers : List (List Nat)) (x : Int) :
    ((((placeLayers layers).map (·.2)).filter (·.x = x)).map (·.y)).sum = 0 := by
  have column (number : Nat) (layer : List Nat) :
      ((((placeLayer number layer).map (·.2)).filter (·.x = x)).map (·.y)).sum = 0 := by
    by_cases here : layerWidth * number = x
    · have all : ((placeLayer number layer).map (·.2)).filter (·.x = x) =
          (placeLayer number layer).map (·.2) := by
        rw [List.filter_eq_self]
        intro p member
        rw [decide_eq_true_eq, x_of_mem_placeLayer member, here]
      rw [all, List.map_map]
      exact sum_placeLayer number layer
    · have none : ((placeLayer number layer).map (·.2)).filter (·.x = x) = [] := by
        rw [List.filter_eq_nil_iff]
        intro p member
        rw [decide_eq_true_eq, x_of_mem_placeLayer member]
        exact here
      rw [none, List.map_nil, List.sum_nil]
  unfold placeLayers
  induction layers.zipIdx with
  | nil => rfl
  | cons entry rest ih =>
      simp only [List.flatMap_cons, List.map_append, List.filter_append, List.sum_append, ih, column,
        Int.add_zero]

theorem lookup_of_mem {places : List (Nat × Position)} (unique : (places.map (·.1)).Nodup) {i : Nat}
    {p : Position} (member : (i, p) ∈ places) : places.lookup i = some p := by
  induction places with
  | nil => simp at member
  | cons first rest ih =>
      obtain ⟨absent, restUnique⟩ := List.nodup_cons.mp unique
      rcases List.mem_cons.mp member with rfl | later
      · simp
      · have different : i ≠ first.1 := by
          rintro rfl
          exact absent (List.mem_map.mpr ⟨_, later, rfl⟩)
        rw [List.lookup_cons, beq_false_of_ne different]
        exact ih restUnique later

theorem map_lookup {places : List (Nat × Position)} (unique : (places.map (·.1)).Nodup) :
    ((places.map (·.1)).map fun i => places.lookup i) = places.map fun entry => some entry.2 := by
  rw [List.map_map]
  apply List.map_congr_left
  intro entry member
  exact lookup_of_mem unique member

namespace FileGraph

variable {g : FileGraph}

theorem layers_flatten_perm (sound : g.Sound) : g.layers.flatten.Perm (List.range g.size) := by
  obtain ⟨count, empty, _, layersEq⟩ := layers_eq sound
  rw [layersEq]
  exact flatten_perm sound empty

theorem placed_once (sound : g.Sound) : ((placeLayers g.layers).map (·.1)).Nodup := by
  rw [placeLayers_positions, (layers_flatten_perm sound).nodup_iff]
  exact List.nodup_range

theorem inLayer_cases (sound : g.Sound) {count : Nat} (empty : g.atHeight count = [])
    (layersEq : g.layers = (List.range count).map g.atHeight ++ g.caughtLayer) {i : Nat}
    (bound : i < g.size) :
    (g.ReachesCycle i ∧ InLayer g.layers count i) ∨
      (¬ g.ReachesCycle i ∧ ∃ height < count, g.IsHeight i height ∧ InLayer g.layers height i) := by
  rw [layersEq]
  by_cases reaches : g.ReachesCycle i
  · have member := (mem_caught sound).mpr reaches
    have some : g.caught.isEmpty = false := List.isEmpty_eq_false_iff_exists_mem.mpr ⟨i, member⟩
    exact Or.inl ⟨reaches, g.caught, by simp [caughtLayer, some], member⟩
  · obtain ⟨height, isHeight⟩ := (exists_height_iff sound i).mpr reaches
    exact Or.inr ⟨reaches, height, height_lt_of_empty sound empty bound isHeight, isHeight,
      height_mem_layers sound empty bound isHeight⟩

theorem column_of_inLayer (sound : g.Sound) {number i : Nat} (inLayer : InLayer g.layers number i) :
    ∃ p, (placeLayers g.layers).lookup i = some p ∧ p.x = layerWidth * number := by
  obtain ⟨layer, found, member⟩ := inLayer
  obtain ⟨row, foundRow⟩ := List.getElem?_of_mem member
  have placed := mem_placeLayers.mpr ⟨number, layer, row, found, foundRow, rfl⟩
  exact ⟨_, lookup_of_mem (placed_once sound) placed, rfl⟩

theorem edge_layers (sound : g.Sound) {i j : Nat} (edge : g.HasEdge i j) :
    ∃ source target, InLayer g.layers source i ∧ InLayer g.layers target j ∧ target ≤ source ∧
      (target = source ↔ g.ReachesCycle j) := by
  obtain ⟨count, empty, _, layersEq⟩ := layers_eq sound
  have source := inLayer_cases sound empty layersEq (sound.sourceBound edge)
  rcases inLayer_cases sound empty layersEq (sound.bounded edge) with
    ⟨cyclic, isTarget⟩ | ⟨acyclic, lower, below, isLower, isTarget⟩
  · obtain ⟨other, reached, cycle⟩ := id cyclic
    have reaches : g.ReachesCycle i := ⟨other, reached.head edge, cycle⟩
    rcases source with ⟨_, isSource⟩ | ⟨settled, _⟩
    · exact ⟨count, count, isSource, isTarget, Nat.le_refl count, iff_of_true rfl cyclic⟩
    · exact absurd reaches settled
  · rcases source with ⟨_, isSource⟩ | ⟨_, height, _, isHeight, isSource⟩
    · exact ⟨count, lower, isSource, isTarget, by omega, iff_of_false (by omega) acyclic⟩
    · have higher := isHeight.2 (lower + 1) ⟨j, edge, isLower.1⟩
      exact ⟨height, lower, isSource, isTarget, by omega, iff_of_false (by omega) acyclic⟩

theorem edge_columns (sound : g.Sound) {i j : Nat} (edge : g.HasEdge i j) :
    ∃ p q, (placeLayers g.layers).lookup i = some p ∧ (placeLayers g.layers).lookup j = some q ∧
      q.x ≤ p.x ∧ (q.x = p.x ↔ g.ReachesCycle j) := by
  obtain ⟨source, target, isSource, isTarget, order, level⟩ := edge_layers sound edge
  obtain ⟨p, isPlace, column⟩ := column_of_inLayer sound isSource
  obtain ⟨q, isTargetPlace, targetColumn⟩ := column_of_inLayer sound isTarget
  refine ⟨p, q, isPlace, isTargetPlace, ?_, ?_⟩
  · rw [column, targetColumn, layerWidth]
    omega
  · rw [← level, column, targetColumn, layerWidth]
    omega

theorem mem_unresolvedOf (sound : g.Sound) (unique : g.paths.Nodup) {i : Nat} (bound : i < g.size) :
    g.pathAt i ∈ DependencyGraph.unresolvedOf g ↔ g.ReachesCycle i := by
  rw [unresolvedOf_eq sound, List.mem_map]
  constructor
  · rintro ⟨j, member, same⟩
    have inside := List.mem_range.mp (List.mem_of_mem_filter member)
    obtain rfl := pathAt_injective unique inside bound same
    exact (mem_caught sound).mp member
  · intro reaches
    exact ⟨i, (mem_caught sound).mpr reaches, rfl⟩

end FileGraph

end Groundwork.Graph

namespace Groundwork.DependencyGraph

open Groundwork.Graph

variable {files : List FileRecord}

theorem mem_nodes (distinct : (files.map (·.path)).Nodup) {n : Node}
    (member : n ∈ (ofRecords files).nodes) :
    ∃ i < (FileGraph.ofMap (dependencyMap files)).size,
      n.id = (FileGraph.ofMap (dependencyMap files)).pathAt i ∧
      n.position = (placeLayers (FileGraph.ofMap (dependencyMap files)).layers).lookup i := by
  have paths := FileGraph.ofMap_dependencyMap_paths distinct
  obtain ⟨⟨r, i⟩, found, rfl⟩ := List.mem_map.mp member
  rw [List.mem_zipIdx_iff_getElem?] at found
  obtain ⟨bound, same⟩ := List.getElem?_eq_some_iff.mp found
  have inside : i < (FileGraph.ofMap (dependencyMap files)).size := by
    rw [FileGraph.size, paths, List.length_map]
    exact bound
  refine ⟨i, inside, ?_, rfl⟩
  have named := FileGraph.getElem?_paths inside
  rw [paths, List.getElem?_map, found, Option.map_some, Option.some.injEq] at named
  exact named

theorem places_perm (distinct : (files.map (·.path)).Nodup) :
    ((ofRecords files).nodes.map (·.place)).Perm
      ((placeLayers (FileGraph.ofMap (dependencyMap files)).layers).map (·.2)) := by
  have sound := FileGraph.ofMap_sound (dependencyMap files)
  generalize graph : FileGraph.ofMap (dependencyMap files) = g at sound
  have size : g.size = files.length := by
    rw [← graph, FileGraph.size, FileGraph.ofMap_dependencyMap_paths distinct, List.length_map]
  have positions : (ofRecords files).nodes.map (·.position) =
      (List.range g.size).map fun i => (placeLayers g.layers).lookup i := by
    rw [size, List.range_eq_range', ← List.zipIdx_map_snd 0 files, List.map_map]
    simp only [ofRecords, graph, List.map_map]
    rfl
  have all : ((List.range g.size).map fun i => (placeLayers g.layers).lookup i).Perm
      ((placeLayers g.layers).map fun entry => some entry.2) := by
    rw [← map_lookup (FileGraph.placed_once sound), placeLayers_positions]
    exact (FileGraph.layers_flatten_perm sound).symm.map _
  have places := all.map fun p : Option Position => p.getD ⟨0, 0⟩
  rw [← positions, List.map_map, List.map_map] at places
  exact places

/-- The nodes of records with distinct paths have places of their own, each column is centred on zero,
and no edge leads to the right; it stays in its column exactly if it leads to an unresolved path. -/
theorem places_by_layers (files : List FileRecord) (distinct : (files.map (·.path)).Nodup) :
    ((ofRecords files).nodes.map (·.place)).Nodup ∧
      (∀ x, (((ofRecords files).nodes.filter (·.place.x = x)).map (·.place.y)).sum = 0) ∧
      ∀ a ∈ (ofRecords files).nodes, ∀ b ∈ (ofRecords files).nodes,
        Leads (ofRecords files).edges a.id b.id →
          b.place.x ≤ a.place.x ∧
            (b.place.x = a.place.x ↔ b.id ∈ (ofRecords files).unresolved) := by
  have sound := FileGraph.ofMap_sound (dependencyMap files)
  have perm := places_perm distinct
  refine ⟨?_, ?_, ?_⟩
  · rw [perm.nodup_iff]
    have once := FileGraph.placed_once sound
    exact once.of_map.map_on fun first isFirst second isSecond same =>
      placeLayers_injective isFirst isSecond same
  · intro x
    have column := ((perm.filter (·.x = x)).map (·.y)).sum_eq
    rw [sum_column, List.filter_map, List.map_map] at column
    exact column
  · intro a isSource b isTarget leads
    have unique : (FileGraph.ofMap (dependencyMap files)).paths.Nodup :=
      FileGraph.ofMap_dependencyMap_paths distinct ▸ distinct
    obtain ⟨i, sourceBound, sourceId, sourcePlace⟩ := mem_nodes distinct isSource
    obtain ⟨j, targetBound, targetId, targetPlace⟩ := mem_nodes distinct isTarget
    obtain ⟨first, second, edge, sourceSame, targetSame⟩ := (FileGraph.leads_iff sound _ _).mp leads
    rw [sourceId] at sourceSame
    rw [targetId] at targetSame
    obtain rfl := FileGraph.pathAt_injective unique (sound.sourceBound edge) sourceBound sourceSame
    obtain rfl := FileGraph.pathAt_injective unique (sound.bounded edge) targetBound targetSame
    obtain ⟨p, q, isPlace, isTargetPlace, order, level⟩ := FileGraph.edge_columns sound edge
    have unresolved : b.id ∈ (ofRecords files).unresolved ↔ q.x = p.x := by
      rw [level, targetId]
      exact FileGraph.mem_unresolvedOf sound unique targetBound
    rw [isPlace] at sourcePlace
    rw [isTargetPlace] at targetPlace
    simp only [Node.place, sourcePlace, targetPlace, Option.getD_some]
    exact ⟨order, unresolved.symm⟩

theorem places_knot : (knot.map (·.path)).Nodup ∧
    (ofRecords knot).nodes.map (·.place) = [⟨0, 0⟩, ⟨250, -120⟩, ⟨250, 0⟩, ⟨250, 120⟩] ∧
    ((ofRecords knot).nodes.map (·.place)).Nodup ∧
    (((ofRecords knot).nodes.filter (·.place.x = 250)).map (·.place.y)).sum = 0 ∧
    ∀ a ∈ (ofRecords knot).nodes, ∀ b ∈ (ofRecords knot).nodes, a.id = "y.ts" →
      (b.id = "x.ts" → b.place.x = a.place.x) ∧ (b.id = "w.ts" → b.place.x < a.place.x) := by
  obtain ⟨distinct, unresolved⟩ := unresolved_knot_paths
  obtain ⟨apart, centred, edges⟩ := places_by_layers knot distinct
  refine ⟨distinct, by decide +kernel, apart, centred 250, ?_⟩
  intro a isSource b isTarget source
  have column := edges a isSource b isTarget
  rw [source, unresolved] at column
  constructor
  · intro target
    rw [target] at column
    exact ((column (by decide +kernel)).2).mpr (by decide)
  · intro target
    rw [target] at column
    obtain ⟨order, level⟩ := column (by decide +kernel)
    have different := mt level.mp (by decide)
    omega

end Groundwork.DependencyGraph
