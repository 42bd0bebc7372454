import Groundwork.Proofs.Graph.Imports
import Groundwork.Proofs.Graph.Positions
import Groundwork.Proofs.Text.Sorting

/-!
Graphs of the same records in another order. Positions change, but a position and the one that stands for
its path in the other graph have the same chains of dependencies, hence the same height, and reach a cycle
together. So every node stays in its column; only the order in the column may change.
-/

namespace Groundwork.Graph

theorem resolve?_congr {known others : List String} (same : ∀ path, path ∈ known ↔ path ∈ others)
    (file specifier : String) : resolve? known file specifier = resolve? others file specifier := by
  have tests : known.contains = others.contains := by
    funext path
    rw [Bool.eq_iff_iff, List.contains_iff_mem, List.contains_iff_mem, same]
  rw [resolve?, resolve?, tests]

namespace FileGraph

structure Reordered (g h : FileGraph) : Prop where
  sound : g.Sound
  otherSound : h.Sound
  unique : g.paths.Nodup
  paths : g.paths.Perm h.paths
  leads : Leads g.edges = Leads h.edges

structure Meets (g h : FileGraph) (i j : Nat) : Prop where
  inside : i < g.size
  otherInside : j < h.size
  path : g.pathAt i = h.pathAt j

variable {g h : FileGraph} {i j : Nat}

theorem Meets.symm (meets : Meets g h i j) : Meets h g j i :=
  ⟨meets.otherInside, meets.inside, meets.path.symm⟩

namespace Reordered

theorem otherUnique (same : Reordered g h) : h.paths.Nodup := same.paths.nodup_iff.mp same.unique

theorem symm (same : Reordered g h) : Reordered h g :=
  ⟨same.otherSound, same.sound, same.otherUnique, same.paths.symm, same.leads.symm⟩

theorem refl (sound : g.Sound) (unique : g.paths.Nodup) : Reordered g g :=
  ⟨sound, sound, unique, List.Perm.refl _, rfl⟩

theorem exists_meets (same : Reordered g h) (inside : i < g.size) : ∃ j, Meets g h i j := by
  have known : g.pathAt i ∈ h.paths :=
    same.paths.mem_iff.mp (List.mem_of_getElem? (getElem?_paths inside))
  obtain ⟨j, found⟩ := List.mem_iff_getElem?.mp known
  obtain ⟨otherInside, path⟩ := getElem?_paths_iff.mp found
  exact ⟨j, inside, otherInside, path.symm⟩

theorem hasEdge (same : Reordered g h) {k : Nat} (meets : Meets g h i j) (edge : g.HasEdge i k) :
    ∃ l, Meets g h k l ∧ h.HasEdge j l := by
  have leads : Leads h.edges (g.pathAt i) (g.pathAt k) := by
    rw [← same.leads]
    exact (leads_iff same.sound _ _).mpr ⟨i, k, edge, rfl, rfl⟩
  obtain ⟨source, l, otherEdge, sourcePath, targetPath⟩ := (leads_iff same.otherSound _ _).mp leads
  have source_eq : source = j := by
    apply pathAt_injective same.otherUnique (same.otherSound.sourceBound otherEdge) meets.otherInside
    rw [sourcePath, meets.path]
  subst source
  exact ⟨l, ⟨same.sound.bounded edge, same.otherSound.bounded otherEdge, targetPath.symm⟩, otherEdge⟩

theorem hasChain (same : Reordered g h) {length : Nat} (meets : Meets g h i j)
    (chain : g.HasChain length i) : h.HasChain length j := by
  induction length generalizing i j with
  | zero => trivial
  | succ length ih =>
      obtain ⟨k, edge, tail⟩ := chain
      obtain ⟨l, next, otherEdge⟩ := same.hasEdge meets edge
      exact ⟨l, otherEdge, ih next tail⟩

theorem isHeight (same : Reordered g h) {height : Nat} (meets : Meets g h i j)
    (isHeight : g.IsHeight i height) : h.IsHeight j height := by
  constructor
  · exact same.hasChain meets isHeight.1
  · intro length chain
    exact isHeight.2 length (same.symm.hasChain meets.symm chain)

theorem reachesCycle_iff (same : Reordered g h) (meets : Meets g h i j) :
    g.ReachesCycle i ↔ h.ReachesCycle j := by
  rw [← leadsToCycle_pathAt same.sound same.unique meets.inside,
    ← leadsToCycle_pathAt same.otherSound same.otherUnique meets.otherInside, meets.path]
  simp only [LeadsToCycle, same.leads]

theorem atHeight_ne_nil (same : Reordered g h) {height : Nat} (occupied : g.atHeight height ≠ []) :
    h.atHeight height ≠ [] := by
  obtain ⟨i, member⟩ := List.exists_mem_of_ne_nil _ occupied
  obtain ⟨inside, isHeight⟩ := mem_atHeight.mp member
  obtain ⟨j, meets⟩ := same.exists_meets inside
  exact List.ne_nil_of_mem (mem_atHeight.mpr ⟨meets.otherInside, same.isHeight meets isHeight⟩)

theorem layer (same : Reordered g h) (meets : Meets g h i j) :
    ∃ number, InLayer g.layers number i ∧ InLayer h.layers number j := by
  obtain ⟨count, empty, occupied, layersEq⟩ := layers_eq same.sound
  obtain ⟨otherCount, otherEmpty, otherOccupied, otherLayersEq⟩ := layers_eq same.otherSound
  have counts : count = otherCount := by
    rcases Nat.lt_trichotomy count otherCount with less | equal | more
    · exact absurd empty (same.symm.atHeight_ne_nil (otherOccupied count less))
    · exact equal
    · exact absurd otherEmpty (same.atHeight_ne_nil (occupied otherCount more))
  subst otherCount
  have first := inLayer_cases same.sound empty layersEq meets.inside
  have second := inLayer_cases same.otherSound otherEmpty otherLayersEq meets.otherInside
  rcases first with ⟨reaches, inLayer⟩ | ⟨settled, height, _, isHeight, inLayer⟩
  · rcases second with ⟨_, otherInLayer⟩ | ⟨settled, _⟩
    · exact ⟨count, inLayer, otherInLayer⟩
    · exact absurd ((same.reachesCycle_iff meets).mp reaches) settled
  · rcases second with ⟨reaches, _⟩ | ⟨_, otherHeight, _, isOtherHeight, otherInLayer⟩
    · exact absurd ((same.reachesCycle_iff meets).mpr reaches) settled
    · have equal := (same.isHeight meets isHeight).unique isOtherHeight
      subst otherHeight
      exact ⟨height, inLayer, otherInLayer⟩

theorem columns (same : Reordered g h) (meets : Meets g h i j) :
    ∃ p q, (placeLayers g.layers).lookup i = some p ∧ (placeLayers h.layers).lookup j = some q ∧
      p.x = q.x := by
  obtain ⟨number, inLayer, otherInLayer⟩ := same.layer meets
  obtain ⟨p, isPlace, column⟩ := column_of_inLayer same.sound inLayer
  obtain ⟨q, isOtherPlace, otherColumn⟩ := column_of_inLayer same.otherSound otherInLayer
  exact ⟨p, q, isPlace, isOtherPlace, column.trans otherColumn.symm⟩

theorem edges_perm (same : Reordered g h) : g.edges.Perm h.edges := by
  have first := edges_nodup same.sound same.unique
  have second := edges_nodup same.otherSound same.otherUnique
  apply (List.perm_ext_iff_of_nodup first second).mpr
  intro e
  change Leads g.edges e.source e.target ↔ Leads h.edges e.source e.target
  rw [same.leads]

theorem entryPoints_perm (same : Reordered g h) : g.entryPoints.Perm h.entryPoints := by
  have nodup {f : FileGraph} (unique : f.paths.Nodup) : f.entryPoints.Nodup := by
    rw [← map_pathAt_range] at unique
    exact (List.filter_sublist.map f.pathAt).nodup unique
  apply (List.perm_ext_iff_of_nodup (nodup same.unique) (nodup same.otherUnique)).mpr
  intro path
  rw [mem_entryPoints_iff same.sound same.unique, mem_entryPoints_iff same.otherSound same.otherUnique,
    same.paths.mem_iff, same.leads]

theorem unresolved_perm (same : Reordered g h) :
    (DependencyGraph.unresolvedOf g).Perm (DependencyGraph.unresolvedOf h) := by
  rw [unresolvedOf_eq same.sound, unresolvedOf_eq same.otherSound, map_caught same.sound same.unique,
    map_caught same.otherSound same.otherUnique]
  apply (List.perm_ext_iff_of_nodup (same.unique.filter _) (same.otherUnique.filter _)).mpr
  intro path
  simp only [List.mem_filter, decide_eq_true_eq]
  rw [LeadsToCycle, LeadsToCycle, same.leads, same.paths.mem_iff]

end Reordered

theorem leads_dependencyMap {files : List FileRecord} (distinct : (files.map (·.path)).Nodup)
    (source target : String) : Leads (ofMap (dependencyMap files)).edges source target ↔
      source ≠ target ∧ ∃ r ∈ files, r.path = source ∧
        ∃ specifier ∈ r.imports, resolve? (files.map (·.path)) source specifier = some target := by
  have known := dependencyMap_paths distinct
  rw [leads_ofMap (known.symm ▸ distinct), dependsOn_dependencyMap distinct, known]
  apply and_iff_left_of_imp
  rintro ⟨_, r, _, _, specifier, _, resolved⟩
  exact resolve?_known resolved

theorem reordered_of_perm {files others : List FileRecord} (perm : files.Perm others)
    (distinct : (files.map (·.path)).Nodup) :
    Reordered (ofMap (dependencyMap files)) (ofMap (dependencyMap others)) := by
  have pathsPerm := perm.map (·.path)
  have otherDistinct := pathsPerm.nodup_iff.mp distinct
  exact {
    sound := ofMap_sound _
    otherSound := ofMap_sound _
    unique := by rwa [ofMap_dependencyMap_paths distinct]
    paths := by rwa [ofMap_dependencyMap_paths distinct, ofMap_dependencyMap_paths otherDistinct]
    leads := by
      funext source target
      rw [eq_iff_iff, leads_dependencyMap distinct, leads_dependencyMap otherDistinct]
      have resolved := resolve?_congr (fun path => pathsPerm.mem_iff (a := path)) source
      simp only [perm.mem_iff, resolved] }

end FileGraph

def FileGraph.columnOf (g : FileGraph) (path : String) : Int :=
  (((g.position? path).bind fun i => (placeLayers g.layers).lookup i).getD ⟨0, 0⟩).x

theorem FileGraph.Reordered.columnOf {g h : FileGraph} (same : Reordered g h) {j : Nat}
    (inside : j < h.size) : ∃ p, (placeLayers h.layers).lookup j = some p ∧
      p.x = g.columnOf (h.pathAt j) := by
  obtain ⟨i, meets⟩ := same.symm.exists_meets inside
  obtain ⟨p, q, isPlace, isOtherPlace, column⟩ := same.symm.columns meets
  have position : g.position? (h.pathAt j) = some i := by
    rw [position?_eq_some_iff, isLast_of_nodup same.unique, getElem?_paths_iff]
    exact ⟨meets.otherInside, meets.path.symm⟩
  refine ⟨p, isPlace, ?_⟩
  rw [FileGraph.columnOf, position, Option.bind_some, isOtherPlace, Option.getD_some, column]

def Node.inColumn (n : Node) : Node :=
  { n with position := n.position.map fun p => { p with y := 0 } }

end Groundwork.Graph

namespace Groundwork.DependencyGraph

open Groundwork.Graph

/-- Graphs that differ in the order of their parts and in the heights in their columns, at most. -/
structure SameUpToOrder (a b : DependencyGraph) : Prop where
  edges : a.edges.Perm b.edges
  entryPoints : a.entryPoints.Perm b.entryPoints
  unresolved : a.unresolved.Perm b.unresolved
  languages : a.languages = b.languages
  columns : ∀ n ∈ a.nodes, ∀ m ∈ b.nodes, n.id = m.id → n.place.x = m.place.x
  nodes : (a.nodes.map Node.inColumn).Perm (b.nodes.map Node.inColumn)

variable {files others : List FileRecord}

theorem languagesOf_perm (perm : files.Perm others) : languagesOf files = languagesOf others :=
  sortTexts_eq_of_perm (Text.distinct_perm ((perm.map (·.language)).filter _))

def nodeIn (column : String → Int) (r : FileRecord) : Node :=
  { nodeOf [] 0 r with position := some ⟨column r.path, 0⟩ }

theorem nodes_inColumn (distinct : (files.map (·.path)).Nodup) {column : String → Int}
    (columns : ∀ i < (FileGraph.ofMap (dependencyMap files)).size, ∃ p,
      (placeLayers (FileGraph.ofMap (dependencyMap files)).layers).lookup i = some p ∧
        p.x = column ((FileGraph.ofMap (dependencyMap files)).pathAt i)) :
    (ofRecords files).nodes.map Node.inColumn = files.map (nodeIn column) := by
  have paths := FileGraph.ofMap_dependencyMap_paths distinct
  have records : files.map (nodeIn column) = (files.zipIdx.map (·.1)).map (nodeIn column) := by
    rw [List.zipIdx_map_fst]
  rw [records, ofRecords, List.map_map, List.map_map]
  apply List.map_congr_left
  rintro ⟨r, i⟩ member
  have found := List.mem_zipIdx_iff_getElem?.mp member
  have path : (FileGraph.ofMap (dependencyMap files)).paths[i]? = some r.path := by
    rw [paths, List.getElem?_map, found, Option.map_some]
  obtain ⟨inside, pathAt⟩ := FileGraph.getElem?_paths_iff.mp path
  obtain ⟨p, isPlace, x⟩ := columns i inside
  simp only [Function.comp_apply, nodeOf, nodeIn, Node.inColumn, isPlace, Option.map_some, x, pathAt]

/-- In another order the records have the same edges, entry points, unresolved paths and languages, and
every node is the same but for its height in its column. -/
theorem ofRecords_reordered (perm : files.Perm others) (distinct : (files.map (·.path)).Nodup) :
    SameUpToOrder (ofRecords files) (ofRecords others) := by
  have same := FileGraph.reordered_of_perm perm distinct
  have otherDistinct := (perm.map (·.path)).nodup_iff.mp distinct
  constructor
  · exact same.edges_perm
  · exact same.entryPoints_perm
  · exact same.unresolved_perm
  · exact languagesOf_perm perm
  · intro n isNode m isOther path
    obtain ⟨i, inside, id, place⟩ := mem_nodes distinct isNode
    obtain ⟨j, otherInside, otherId, otherPlace⟩ := mem_nodes otherDistinct isOther
    have meets : FileGraph.Meets _ _ i j := ⟨inside, otherInside, id.symm.trans (path.trans otherId)⟩
    obtain ⟨p, q, isPlace, isOtherPlace, column⟩ := same.columns meets
    rw [Node.place, Node.place, place, otherPlace, isPlace, isOtherPlace]
    exact column
  · have itself := FileGraph.Reordered.refl same.sound same.unique
    rw [nodes_inColumn distinct fun _ => itself.columnOf,
      nodes_inColumn otherDistinct fun _ => same.columnOf]
    exact perm.map _

theorem ofRecords_reordered_knot : knot.Perm knot.reverse ∧ (knot.map (·.path)).Nodup ∧
    SameUpToOrder (ofRecords knot) (ofRecords knot.reverse) ∧
    (ofRecords knot).unresolved = ["x.ts", "y.ts", "z.ts"] ∧
    (ofRecords knot.reverse).unresolved = ["z.ts", "y.ts", "x.ts"] := by
  have perm : knot.Perm knot.reverse := (List.reverse_perm knot).symm
  obtain ⟨distinct, unresolved⟩ := unresolved_knot_paths
  exact ⟨perm, distinct, ofRecords_reordered perm distinct, unresolved, by decide +kernel⟩

end Groundwork.DependencyGraph
