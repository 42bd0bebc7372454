import Groundwork.Proofs.Graph.Specifiers
import Groundwork.Proofs.Graph.Unresolved
import Groundwork.Proofs.Text.Distinct

/-!
The edges of a graph as the imports that they come from. The same dependencies stand in a map of target
lists, in the adjacency lists of positions and in the list of edges; a file that imports itself, a
repeated import and a target that is no file are left out on the way.
-/

namespace Groundwork.Graph

theorem mem_targetsOf {known : List String} {r : FileRecord} {target : String} :
    target ∈ targetsOf known r ↔
      r.path ≠ target ∧ ∃ specifier ∈ r.imports, resolve? known r.path specifier = some target := by
  rw [targetsOf, Text.mem_distinct, List.mem_filter, List.mem_filterMap, bne_iff_ne, and_comm, ne_comm]

def DependsOn (map : DependencyMap) (source target : String) : Prop :=
  source ≠ target ∧ ∃ targets, (source, targets) ∈ map ∧ target ∈ targets

theorem isEntryPoint_iff {map : DependencyMap} {path : String} :
    isEntryPoint path map = true ↔ ∀ source, ¬ DependsOn map source path := by
  simp only [isEntryPoint, Bool.not_eq_true', List.any_eq_false, Bool.and_eq_true, bne_iff_ne,
    List.contains_iff_mem, DependsOn, not_and, not_exists]
  constructor
  · intro none source different targets entry
    exact none (source, targets) entry different
  · intro none entry member different
    exact none entry.1 different entry.2 member

theorem dependsOn_dependencyMap {files : List FileRecord} (distinct : (files.map (·.path)).Nodup)
    {source target : String} : DependsOn (dependencyMap files) source target ↔
      source ≠ target ∧ ∃ r ∈ files, r.path = source ∧
        ∃ specifier ∈ r.imports, resolve? (files.map (·.path)) source specifier = some target := by
  rw [DependsOn, dependencyMap, foldl_setEntry _ files [] (by simpa using distinct)]
  simp only [List.nil_append, List.mem_map, Prod.mk.injEq]
  refine and_congr_right fun different => ?_
  constructor
  · rintro ⟨targets, ⟨r, member, rfl, rfl⟩, isTarget⟩
    exact ⟨r, member, rfl, (mem_targetsOf.mp isTarget).2⟩
  · rintro ⟨r, member, rfl, imported⟩
    exact ⟨_, ⟨r, member, rfl, rfl⟩, mem_targetsOf.mpr ⟨different, imported⟩⟩

namespace FileGraph

variable {g : FileGraph} {map : DependencyMap}

theorem edges_nodup (sound : g.Sound) (unique : g.paths.Nodup) : g.edges.Nodup := by
  rw [edges, List.nodup_flatMap]
  constructor
  · intro i _
    refine (List.nodup_map_iff_inj_on (sound.dependenciesUnique i)).mpr ?_
    intro j edge k other same
    exact pathAt_injective unique (sound.bounded edge) (sound.bounded other) (Edge.mk.inj same).2
  · refine List.pairwise_lt_range.imp fun {i k} less e first second => ?_
    obtain ⟨j, edge, rfl⟩ := List.mem_map.mp first
    obtain ⟨l, other, same⟩ := List.mem_map.mp second
    have equal := pathAt_injective unique (sound.sourceBound other) (sound.sourceBound edge)
      (Edge.mk.inj same).1
    omega

theorem mem_entryPoints_iff (sound : g.Sound) (unique : g.paths.Nodup) {path : String} :
    path ∈ g.entryPoints ↔ path ∈ g.paths ∧ ∀ source, ¬ Leads g.edges source path := by
  simp only [entryPoints, List.mem_map, List.mem_filter, List.mem_range, List.isEmpty_iff,
    leads_iff sound, not_exists, not_and]
  constructor
  · rintro ⟨i, ⟨bound, none⟩, rfl⟩
    refine ⟨List.mem_of_getElem? (getElem?_paths bound), ?_⟩
    intro source j k edge _ same
    obtain rfl := pathAt_injective unique (sound.bounded edge) bound same
    have importer := (sound.transposed j k).mpr edge
    simp [none] at importer
  · rintro ⟨known, none⟩
    rw [← map_pathAt_range, List.mem_map] at known
    obtain ⟨i, inside, rfl⟩ := known
    have bound := List.mem_range.mp inside
    refine ⟨i, ⟨bound, List.eq_nil_iff_forall_not_mem.mpr fun j importer => ?_⟩, rfl⟩
    exact none (g.pathAt j) j i ((sound.transposed j i).mp importer) rfl rfl

theorem getElem?_paths_iff {i : Nat} {path : String} :
    g.paths[i]? = some path ↔ i < g.size ∧ g.pathAt i = path := by
  constructor
  · intro found
    have bound : i < g.size := (List.getElem?_eq_some_iff.mp found).1
    exact ⟨bound, Option.some.inj ((getElem?_paths bound).symm.trans found)⟩
  · rintro ⟨bound, rfl⟩
    exact getElem?_paths bound

theorem hasEdge_ofMap (keys : (map.map (·.1)).Nodup) {i j : Nat} :
    (ofMap map).HasEdge i j ↔ i < (ofMap map).size ∧ j < (ofMap map).size ∧
      DependsOn map ((ofMap map).pathAt i) ((ofMap map).pathAt j) := by
  have paths : (ofPaths (map.map (·.1))).paths = (ofMap map).paths := (ofMap_paths map).symm
  have unique : (ofMap map).paths.Nodup := (ofMap_paths map).symm ▸ keys
  rw [ofMap, hasEdge_addEdges (ofPaths_sound _), ← ofMap, or_iff_right (not_hasEdge_ofPaths _ i j),
    paths]
  simp only [isLast_of_nodup unique, getElem?_paths_iff, List.mem_flatMap, List.mem_map, DependsOn]
  constructor
  · rintro ⟨different, _, ⟨⟨source, targets⟩, entry, target, isTarget, rfl⟩, ⟨bound, rfl⟩, inside, rfl⟩
    exact ⟨bound, inside, fun same => different (pathAt_injective unique bound inside same),
      targets, entry, isTarget⟩
  · rintro ⟨bound, inside, different, targets, entry, isTarget⟩
    refine ⟨fun same => different (congrArg _ same), _, ⟨_, entry, _, isTarget, rfl⟩, ⟨bound, rfl⟩,
      inside, rfl⟩

theorem leads_ofMap (keys : (map.map (·.1)).Nodup) {source target : String} :
    Leads (ofMap map).edges source target ↔ DependsOn map source target ∧ target ∈ map.map (·.1) := by
  rw [leads_iff (ofMap_sound map), ← ofMap_paths map]
  constructor
  · rintro ⟨i, j, edge, rfl, rfl⟩
    obtain ⟨_, inside, depends⟩ := (hasEdge_ofMap keys).mp edge
    exact ⟨depends, List.mem_of_getElem? (getElem?_paths inside)⟩
  · rintro ⟨depends, known⟩
    obtain ⟨targets, entry, _⟩ := depends.2
    have source : source ∈ (ofMap map).paths := by
      rw [ofMap_paths]
      exact List.mem_map_of_mem (f := Prod.fst) entry
    obtain ⟨i, first⟩ := List.mem_iff_getElem?.mp source
    obtain ⟨j, second⟩ := List.mem_iff_getElem?.mp known
    obtain ⟨bound, rfl⟩ := getElem?_paths_iff.mp first
    obtain ⟨inside, rfl⟩ := getElem?_paths_iff.mp second
    exact ⟨i, j, (hasEdge_ofMap keys).mpr ⟨bound, inside, depends⟩, rfl, rfl⟩

end FileGraph

end Groundwork.Graph

namespace Groundwork.DependencyGraph

open Groundwork.Graph

theorem ids_nodes (files : List FileRecord) :
    (ofRecords files).nodes.map (·.id) = files.map (·.path) := by
  have inOrder : (files.zipIdx.map Prod.fst).map (·.path) = files.map (·.path) := by
    rw [List.zipIdx_map_fst]
  rw [← inOrder, ofRecords, List.map_map, List.map_map]
  rfl

/-- Edges stand for the imports that resolve to another file, each once, and entry points are the files
that no edge leads to, read off the map or off the graph. -/
theorem edges_of_imports {files : List FileRecord} (distinct : (files.map (·.path)).Nodup)
    {map : DependencyMap} (keys : (map.map (·.1)).Nodup) :
    ((ofRecords files).edges.Nodup ∧
      (∀ a b, ⟨a, b⟩ ∈ (ofRecords files).edges ↔ a ≠ b ∧ ∃ r ∈ files, r.path = a ∧
        ∃ specifier ∈ r.imports, resolve? (files.map (·.path)) a specifier = some b) ∧
      ∀ e ∈ (ofRecords files).edges, e.source ∈ (ofRecords files).nodes.map (·.id) ∧
        e.target ∈ (ofRecords files).nodes.map (·.id)) ∧
    ∀ path ∈ map.map (·.1),
      (isEntryPoint path map = true ↔ path ∈ (FileGraph.ofMap map).entryPoints) ∧
      (path ∈ (FileGraph.ofMap map).entryPoints ↔
        ∀ e ∈ (FileGraph.ofMap map).edges, e.target ≠ path) := by
  have known := dependencyMap_paths distinct
  have edges (a b : String) : ⟨a, b⟩ ∈ (ofRecords files).edges ↔ a ≠ b ∧ ∃ r ∈ files, r.path = a ∧
      ∃ specifier ∈ r.imports, resolve? (files.map (·.path)) a specifier = some b := by
    have leads : Leads (ofRecords files).edges a b ↔ _ :=
      FileGraph.leads_ofMap (known.symm ▸ distinct)
    rw [dependsOn_dependencyMap distinct, known] at leads
    refine leads.trans (and_iff_left_of_imp ?_)
    rintro ⟨_, r, _, _, specifier, _, resolved⟩
    exact resolve?_known resolved
  have sound := FileGraph.ofMap_sound
  refine ⟨⟨FileGraph.edges_nodup (sound _) ?_, edges, ?_⟩, ?_⟩
  · rw [FileGraph.ofMap_dependencyMap_paths distinct]
    exact distinct
  · intro e member
    obtain ⟨_, r, isFile, source, specifier, _, resolved⟩ := (edges e.source e.target).mp member
    rw [ids_nodes]
    exact ⟨source ▸ List.mem_map_of_mem isFile, resolve?_known resolved⟩
  · intro path isKey
    have unique : (FileGraph.ofMap map).paths.Nodup := (FileGraph.ofMap_paths map).symm ▸ keys
    have entryPoint : path ∈ (FileGraph.ofMap map).entryPoints ↔ _ :=
      FileGraph.mem_entryPoints_iff (sound map) unique
    rw [FileGraph.ofMap_paths, and_iff_right isKey] at entryPoint
    constructor
    · rw [entryPoint, isEntryPoint_iff]
      simp only [FileGraph.leads_ofMap keys, isKey, and_true]
    · rw [entryPoint]
      exact ⟨fun none e member same => none e.source (same ▸ member),
        fun none source leads => none ⟨source, path⟩ leads rfl⟩

def tangle : DependencyMap := [("a", ["b", "a", "b", "gone"]), ("b", ["b"]), ("c", ["b"])]

theorem edges_of_imports_tangle : (knot.map (·.path)).Nodup ∧ (tangle.map (·.1)).Nodup ∧
    ⟨"y.ts", "w.ts"⟩ ∈ (ofRecords knot).edges ∧ ⟨"w.ts", "y.ts"⟩ ∉ (ofRecords knot).edges ∧
    "a" ∈ (FileGraph.ofMap tangle).entryPoints ∧ "b" ∉ (FileGraph.ofMap tangle).entryPoints := by
  have distinct : (knot.map (·.path)).Nodup := by decide
  have keys : (tangle.map (·.1)).Nodup := by decide
  obtain ⟨⟨_, edges, _⟩, entryPoints⟩ := edges_of_imports distinct keys
  refine ⟨distinct, keys, ?_, ?_, ?_, ?_⟩
  · exact (edges "y.ts" "w.ts").mpr (by decide)
  · exact fun edge => absurd ((edges "w.ts" "y.ts").mp edge) (by decide)
  · exact (entryPoints "a" (by decide)).1.mp (by decide)
  · exact fun first => absurd ((entryPoints "b" (by decide)).1.mpr first) (by decide)

end Groundwork.DependencyGraph
