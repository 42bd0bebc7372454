import Groundwork.Graph.Basic
import Groundwork.Proofs.Graph.Additions
import Groundwork.Proofs.Graph.Paths

/-!
The graph of records with distinct paths. Its positions are those of the records, and a chain of the
edges that are given out, from path to path, is a chain of dependencies between positions.
-/

namespace Groundwork.Graph

open Relation

def Leads (edges : List Edge) (source target : String) : Prop := ⟨source, target⟩ ∈ edges

instance (edges : List Edge) (source target : String) : Decidable (Leads edges source target) :=
  inferInstanceAs (Decidable (⟨source, target⟩ ∈ edges))

def LeadsToCycle (edges : List Edge) (path : String) : Prop :=
  ∃ other, ReflTransGen (Leads edges) path other ∧ TransGen (Leads edges) other other

theorem setEntry_of_notMem {path : String} (targets : List String) {map : DependencyMap}
    (fresh : path ∉ map.map (·.1)) : setEntry path targets map = map ++ [(path, targets)] := by
  induction map with
  | nil => rfl
  | cons entry rest ih =>
      simp only [List.map_cons, List.mem_cons, not_or] at fresh
      rw [setEntry, if_neg (Ne.symm fresh.1), ih fresh.2, List.cons_append]

theorem foldl_setEntry (known : List String) (files : List FileRecord) (map : DependencyMap)
    (distinct : (map.map (·.1) ++ files.map (·.path)).Nodup) :
    files.foldl (fun map r => setEntry r.path (targetsOf known r) map) map =
      map ++ files.map fun r => (r.path, targetsOf known r) := by
  induction files generalizing map with
  | nil => simp
  | cons r rest ih =>
      have fresh : r.path ∉ map.map (·.1) := by
        intro old
        exact (List.nodup_append.mp distinct).2.2 _ old _ (by simp) rfl
      rw [List.foldl_cons, setEntry_of_notMem _ fresh, ih]
      · simp
      · simpa using distinct

theorem dependencyMap_paths {files : List FileRecord} (distinct : (files.map (·.path)).Nodup) :
    (dependencyMap files).map (·.1) = files.map (·.path) := by
  rw [dependencyMap, foldl_setEntry _ files [] (by simpa using distinct)]
  simp

namespace FileGraph

variable {g : FileGraph}

theorem ofMap_paths (map : DependencyMap) : (ofMap map).paths = map.map (·.1) :=
  addEdges_paths _ _

theorem ofMap_dependencyMap_paths {files : List FileRecord}
    (distinct : (files.map (·.path)).Nodup) :
    (ofMap (dependencyMap files)).paths = files.map (·.path) := by
  rw [ofMap_paths, dependencyMap_paths distinct]

theorem ofMap_sound (map : DependencyMap) : (ofMap map).Sound :=
  addEdges_sound (ofPaths_sound _) _

theorem getElem?_paths {i : Nat} (bound : i < g.size) : g.paths[i]? = some (g.pathAt i) := by
  rw [pathAt, List.getD_eq_getElem?_getD, List.getElem?_eq_getElem bound, Option.getD_some]

theorem map_pathAt_range (g : FileGraph) : (List.range g.size).map g.pathAt = g.paths := by
  apply List.ext_getElem?
  intro i
  by_cases bound : i < g.size
  · simp [getElem?_paths bound, bound]
  · have outside : g.paths.length ≤ i := Nat.le_of_not_lt bound
    simp [bound, outside]

theorem pathAt_injective (unique : g.paths.Nodup) {i j : Nat} (first : i < g.size)
    (second : j < g.size) (same : g.pathAt i = g.pathAt j) : i = j := by
  apply (List.getElem?_inj first unique).mp
  rw [getElem?_paths first, getElem?_paths second, same]

theorem leads_iff (sound : g.Sound) (source target : String) : Leads g.edges source target ↔
    ∃ i j, g.HasEdge i j ∧ g.pathAt i = source ∧ g.pathAt j = target := by
  simp only [Leads, edges, List.mem_flatMap, List.mem_map, List.mem_range, Edge.mk.injEq]
  constructor
  · rintro ⟨i, _, j, edge, first, second⟩
    exact ⟨i, j, edge, first, second⟩
  · rintro ⟨i, j, edge, first, second⟩
    exact ⟨i, sound.sourceBound edge, j, edge, first, second⟩

theorem leads_pathAt (sound : g.Sound) {i j : Nat} (chain : TransGen g.HasEdge i j) :
    TransGen (Leads g.edges) (g.pathAt i) (g.pathAt j) :=
  chain.lift g.pathAt fun i j edge => (leads_iff sound _ _).mpr ⟨i, j, edge, rfl, rfl⟩

theorem exists_chain (sound : g.Sound) (unique : g.paths.Nodup) {i : Nat} {target : String}
    (bound : i < g.size) (chain : TransGen (Leads g.edges) (g.pathAt i) target) :
    ∃ j, j < g.size ∧ g.pathAt j = target ∧ TransGen g.HasEdge i j := by
  have follow {k : Nat} {next : String} (inside : k < g.size)
      (leads : Leads g.edges (g.pathAt k) next) :
      ∃ j, j < g.size ∧ g.pathAt j = next ∧ g.HasEdge k j := by
    obtain ⟨first, second, edge, same, target⟩ := (leads_iff sound _ _).mp leads
    obtain rfl := pathAt_injective unique (sound.sourceBound edge) inside same
    exact ⟨second, sound.bounded edge, target, edge⟩
  induction chain with
  | single leads =>
      obtain ⟨j, inside, target, edge⟩ := follow bound leads
      exact ⟨j, inside, target, .single edge⟩
  | tail _ leads ih =>
      obtain ⟨k, inside, rfl, chain⟩ := ih
      obtain ⟨j, insideNext, target, edge⟩ := follow inside leads
      exact ⟨j, insideNext, target, chain.tail edge⟩

theorem exists_cycle_iff (sound : g.Sound) (unique : g.paths.Nodup) :
    (∃ path, TransGen (Leads g.edges) path path) ↔ ∃ i, TransGen g.HasEdge i i := by
  constructor
  · rintro ⟨path, cycle⟩
    obtain ⟨_, leads, _⟩ := TransGen.head'_iff.mp cycle
    obtain ⟨i, _, edge, rfl, _⟩ := (leads_iff sound _ _).mp leads
    have bound := sound.sourceBound edge
    obtain ⟨j, inside, same, chain⟩ := exists_chain sound unique bound cycle
    obtain rfl := pathAt_injective unique inside bound same
    exact ⟨j, chain⟩
  · rintro ⟨i, cycle⟩
    exact ⟨g.pathAt i, leads_pathAt sound cycle⟩

theorem leadsToCycle_pathAt (sound : g.Sound) (unique : g.paths.Nodup) {i : Nat}
    (bound : i < g.size) : LeadsToCycle g.edges (g.pathAt i) ↔ g.ReachesCycle i := by
  have onCycle {j : Nat} (inside : j < g.size)
      (cycle : TransGen (Leads g.edges) (g.pathAt j) (g.pathAt j)) : TransGen g.HasEdge j j := by
    obtain ⟨k, insideToo, same, chain⟩ := exists_chain sound unique inside cycle
    obtain rfl := pathAt_injective unique insideToo inside same
    exact chain
  constructor
  · rintro ⟨other, reached, cycle⟩
    rcases reflTransGen_iff_eq_or_transGen.mp reached with rfl | chain
    · exact ⟨i, .refl, onCycle bound cycle⟩
    · obtain ⟨j, inside, rfl, positions⟩ := exists_chain sound unique bound chain
      exact ⟨j, positions.to_reflTransGen, onCycle inside cycle⟩
  · rintro ⟨j, reached, cycle⟩
    refine ⟨g.pathAt j, ?_, leads_pathAt sound cycle⟩
    rcases reflTransGen_iff_eq_or_transGen.mp reached with rfl | chain
    · exact .refl
    · exact (leads_pathAt sound chain).to_reflTransGen

end FileGraph

section Alike

structure Alike (r other : FileRecord) : Prop where
  path : r.path = other.path
  language : r.language = other.language
  imports : r.imports = other.imports
  functions : r.functions = other.functions
  classes : r.classes = other.classes
  lines : r.linesOfCode = other.linesOfCode

theorem Alike.targetsOf {r other : FileRecord} (alike : Alike r other) (known : List String) :
    targetsOf known r = targetsOf known other := by
  rw [Graph.targetsOf, Graph.targetsOf, alike.path, alike.imports]

theorem Alike.nodeOf {r other : FileRecord} (alike : Alike r other) (places : List (Nat × Position))
    (i : Nat) : DependencyGraph.nodeOf places i r = DependencyGraph.nodeOf places i other := by
  have kind : NodeKind.ofRecord r = NodeKind.ofRecord other := by
    rw [NodeKind.ofRecord, NodeKind.ofRecord, alike.language, alike.classes, alike.functions]
  rw [DependencyGraph.nodeOf, DependencyGraph.nodeOf, kind, alike.path, alike.language,
    alike.functions, alike.classes, alike.lines]

variable {f : FileRecord → FileRecord}

theorem dependencyMap_map (alike : ∀ r, Alike (f r) r) (files : List FileRecord) :
    dependencyMap (files.map f) = dependencyMap files := by
  have paths : (files.map f).map (·.path) = files.map (·.path) := by
    rw [List.map_map]
    exact List.map_congr_left fun r _ => (alike r).path
  have step (map : DependencyMap) (r : FileRecord) :
      setEntry (f r).path (targetsOf (files.map (·.path)) (f r)) map =
        setEntry r.path (targetsOf (files.map (·.path)) r) map := by
    rw [(alike r).path, (alike r).targetsOf]
  rw [dependencyMap, dependencyMap, paths, List.foldl_map]
  simp only [step]

theorem ofRecords_map (alike : ∀ r, Alike (f r) r) (files : List FileRecord) :
    DependencyGraph.ofRecords (files.map f) = DependencyGraph.ofRecords files := by
  have languages : DependencyGraph.languagesOf (files.map f) = DependencyGraph.languagesOf files := by
    have same : (files.map f).map (·.language) = files.map (·.language) := by
      rw [List.map_map]
      exact List.map_congr_left fun r _ => (alike r).language
    rw [DependencyGraph.languagesOf, same, ← DependencyGraph.languagesOf]
  have nodes (places : List (Nat × Position)) :
      ((files.map f).zipIdx.map fun place => DependencyGraph.nodeOf places place.2 place.1) =
        files.zipIdx.map fun place => DependencyGraph.nodeOf places place.2 place.1 := by
    rw [List.zipIdx_map, List.map_map]
    exact List.map_congr_left fun place _ => (alike place.1).nodeOf places place.2
  simp only [DependencyGraph.ofRecords, dependencyMap_map alike, languages]
  congr 1
  exact nodes _

end Alike

end Groundwork.Graph
