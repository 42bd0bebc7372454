import Groundwork.Proofs.Graph.CycleMembers
import Groundwork.Proofs.Graph.Layers
import Groundwork.Proofs.Graph.Records

/-!
The unresolved paths of a graph. The rounds of the layering leave over what reaches a cycle. The last
layer is theirs exactly if the search for cycles has found one of its positions, so that the two ways
of looking for cycles agree on every graph.
-/

namespace Groundwork.Graph.FileGraph

open Relation

variable {g : FileGraph}

def settledFrom (g : FileGraph) : Nat → List Int → List Nat → List (List Nat)
  | _, _, [] => []
  | 0, _, _ :: _ => []
  | rounds + 1, counts, i :: rest =>
    let (counts, freed) := release counts ((i :: rest).flatMap g.dependentsOf)
    (i :: rest) :: g.settledFrom rounds counts freed.mergeSort

def settledLayers (g : FileGraph) : List (List Nat) :=
  g.settledFrom g.size g.dependencyCounts
    ((List.range g.size).filter fun i => g.dependencyCounts[i]? = some 0)

def leftOver (g : FileGraph) : List Nat := g.remaining g.settledLayers.flatten

theorem remaining_congr {placed others : List Nat} (same : ∀ i, i ∈ placed ↔ i ∈ others) :
    g.remaining placed = g.remaining others := by
  apply List.filter_congr
  intro i _
  simp [same i]

theorem settledFrom_ends (sound : g.Sound) (rounds : Nat) {height counts placed current}
    (placing : Placing g height counts placed current)
    (enough : g.size ≤ rounds + placed.length) :
    ∃ top final all, Placing g top final all [] ∧
      (∀ i, i ∈ all ↔ i ∈ (g.settledFrom rounds counts current).flatten ∨ i ∈ placed) ∧
      g.layersFrom rounds counts placed current =
        some (g.settledFrom rounds counts current ++ g.lastLayer all) := by
  induction rounds generalizing height counts placed current with
  | zero =>
      obtain rfl := placing.current_nil (by omega)
      exact ⟨height, counts, placed, placing, by simp [settledFrom], by simp [settledFrom]⟩
  | succ rounds ih =>
      cases current with
      | nil => exact ⟨height, counts, placed, placing, by simp [settledFrom], by simp [settledFrom]⟩
      | cons i rest =>
          have placesMore : g.size ≤ rounds + (i :: rest ++ placed).length := by
            simp only [List.cons_append, List.length_cons, List.length_append]
            omega
          obtain ⟨top, final, all, ended, covers, computed⟩ := ih (placing.next sound) placesMore
          refine ⟨top, final, all, ended, ?_, ?_⟩
          · intro j
            simp only [covers, settledFrom, List.flatten_cons, List.mem_append]
            rw [or_left_comm, or_assoc]
          · simp only [layersFrom, settledFrom]
            rw [computed]
            simp only [Option.map_some, List.cons_append]

theorem layers?_eq_settled (sound : g.Sound) :
    g.layers? = some (g.settledLayers ++ g.lastLayer g.settledLayers.flatten) ∧
      g.leftOver = g.caught := by
  obtain ⟨top, final, all, ended, covers, computed⟩ :=
    settledFrom_ends sound g.size (placing_initial sound) (by simp)
  have same (i : Nat) : i ∈ all ↔ i ∈ g.settledLayers.flatten := by
    rw [covers]
    simp [settledLayers]
  have left : g.remaining all = g.remaining g.settledLayers.flatten := remaining_congr same
  constructor
  · rw [layers?, computed, lastLayer, lastLayer, left, settledLayers]
  · rw [leftOver, ← left, ended.remaining_eq sound]

theorem mem_cycleMembers_of_sound (sound : g.Sound) (i : Nat) :
    i ∈ g.cycleMembers ↔ TransGen g.HasEdge i i := by
  obtain ⟨final, computed, idle, numbered⟩ := Search.run_spec sound
  simp only [cycleMembers, computed, List.mem_filter, List.mem_range, List.contains_iff_mem,
    idle.consistent.members]
  constructor
  · rintro ⟨_, _, cycle⟩
    exact cycle
  · intro cycle
    obtain ⟨_, edge, _⟩ := TransGen.head'_iff.mp cycle
    have bound := sound.sourceBound edge
    exact ⟨bound, ⟨numbered i bound, by simp [idle.stack]⟩, cycle⟩

theorem caught_eq_nil_iff (sound : g.Sound) : g.caught = [] ↔ g.cycleMembers = [] := by
  simp only [List.eq_nil_iff_forall_not_mem, mem_caught sound, mem_cycleMembers_of_sound sound]
  constructor
  · intro acyclic i cycle
    exact acyclic i ⟨i, .refl, cycle⟩
  · rintro acyclic i ⟨j, _, cycle⟩
    exact acyclic j cycle

theorem layers_eq (sound : g.Sound) : ∃ count, g.atHeight count = [] ∧
    (∀ height < count, g.atHeight height ≠ []) ∧
    g.layers = (List.range count).map g.atHeight ++ g.caughtLayer := by
  obtain ⟨count, empty, occupied, computed⟩ := layers?_eq sound
  exact ⟨count, empty, occupied, by rw [layers, computed, Option.getD_some]⟩

theorem last_cases (sound : g.Sound) {last : List Nat} (isLast : g.layers.getLast? = some last) :
    (g.caught ≠ [] ∧ last = g.caught) ∨
      (g.caught = [] ∧ last ≠ [] ∧ ∀ i ∈ last, ¬ g.ReachesCycle i) := by
  obtain ⟨count, _, occupied, layersEq⟩ := layers_eq sound
  rw [layersEq] at isLast
  by_cases none : g.caught = []
  · have settled : last ∈ (List.range count).map g.atHeight := by
      apply List.mem_of_getLast?
      simpa [caughtLayer, none] using isLast
    obtain ⟨height, inRange, rfl⟩ := List.mem_map.mp settled
    refine Or.inr ⟨none, occupied height (List.mem_range.mp inRange), ?_⟩
    intro i member
    exact (exists_height_iff sound i).mp ⟨height, (mem_atHeight.mp member).2⟩
  · have some : g.caught = last := by
      simpa [caughtLayer, none] using isLast
    exact Or.inl ⟨none, some.symm⟩

/-- The last layer has a position on a cycle exactly if it is what the rounds leave over. -/
theorem last_any_iff (sound : g.Sound) {last : List Nat} (isLast : g.layers.getLast? = some last) :
    last.any g.cycleMembers.contains = true ↔ last = g.leftOver := by
  rw [(layers?_eq_settled sound).2]
  simp only [List.any_eq_true, List.contains_iff_mem, mem_cycleMembers_of_sound sound]
  rcases last_cases sound isLast with ⟨some, rfl⟩ | ⟨none, occupied, acyclic⟩
  · refine iff_of_true ?_ rfl
    obtain ⟨i, reaches⟩ := List.exists_mem_of_ne_nil _ some
    obtain ⟨j, _, cycle⟩ := (mem_caught sound).mp reaches
    exact ⟨j, (mem_caught sound).mpr ⟨j, .refl, cycle⟩, cycle⟩
  · refine iff_of_false ?_ (none ▸ occupied)
    rintro ⟨i, member, cycle⟩
    exact acyclic i member ⟨i, .refl, cycle⟩

structure PassesAgree (g : FileGraph) : Prop where
  searchEnds : ∃ final, Search.run g = .ok final
  layersEnd : g.layers? = some (g.settledLayers ++ g.lastLayer g.settledLayers.flatten)
  somethingLeft : g.leftOver ≠ [] ↔ g.cycleMembers ≠ []
  lastIsLeftOver : ∀ last, g.layers.getLast? = some last →
    (last.any g.cycleMembers.contains = true ↔ last = g.leftOver)

theorem passesAgree (sound : g.Sound) : g.PassesAgree := by
  obtain ⟨computed, left⟩ := layers?_eq_settled sound
  obtain ⟨final, searched, _⟩ := Search.run_spec sound
  refine ⟨⟨final, searched⟩, computed, ?_, fun _ => last_any_iff sound⟩
  rw [left]
  exact not_congr (caught_eq_nil_iff sound)

theorem unresolvedOf_eq (sound : g.Sound) :
    DependencyGraph.unresolvedOf g = g.caught.map g.pathAt := by
  cases isLast : g.layers.getLast? with
  | none =>
      obtain ⟨count, _, _, layersEq⟩ := layers_eq sound
      have none : g.caughtLayer = [] := by
        rw [List.getLast?_eq_none_iff, layersEq, List.append_eq_nil_iff] at isLast
        exact isLast.2
      have caught : g.caught = [] := by rw [← flatten_caughtLayer, none, List.flatten_nil]
      simp [DependencyGraph.unresolvedOf, isLast, caught]
  | some last =>
      have flag := last_any_iff sound isLast
      rw [(layers?_eq_settled sound).2] at flag
      simp only [DependencyGraph.unresolvedOf, isLast]
      rcases last_cases sound isLast with ⟨_, rfl⟩ | ⟨none, occupied, _⟩
      · rw [if_pos (flag.mpr rfl)]
      · rw [if_neg, none, List.map_nil]
        intro found
        exact occupied ((flag.mp found).trans none)

open Classical in
theorem map_caught (sound : g.Sound) (unique : g.paths.Nodup) :
    g.caught.map g.pathAt = g.paths.filter fun path => LeadsToCycle g.edges path := by
  have named : g.caught =
      (List.range g.size).filter fun i => LeadsToCycle g.edges (g.pathAt i) := by
    apply List.filter_congr
    intro i member
    rw [leadsToCycle_pathAt sound unique (List.mem_range.mp member)]
  rw [named, ← map_pathAt_range, List.filter_map]
  rfl

end Groundwork.Graph.FileGraph

namespace Groundwork.DependencyGraph

open Groundwork.Graph Relation

open Classical in
/-- The unresolved paths of records with distinct paths are those from which a cycle of the edges can
be reached, in the order of the records. There are none exactly if the edges have no cycle. -/
theorem unresolved_eq_filter (files : List FileRecord) (distinct : (files.map (·.path)).Nodup) :
    (ofRecords files).unresolved = ((files.map (·.path)).filter fun path =>
        LeadsToCycle (ofRecords files).edges path) ∧
      ((ofRecords files).unresolved = [] ↔
        ∀ path, ¬ TransGen (Leads (ofRecords files).edges) path path) ∧
      (FileGraph.ofMap (dependencyMap files)).PassesAgree := by
  have sound := FileGraph.ofMap_sound (dependencyMap files)
  have paths := FileGraph.ofMap_dependencyMap_paths distinct
  have unique : (FileGraph.ofMap (dependencyMap files)).paths.Nodup := paths ▸ distinct
  have caught : (ofRecords files).unresolved =
      (FileGraph.ofMap (dependencyMap files)).caught.map
        (FileGraph.ofMap (dependencyMap files)).pathAt := FileGraph.unresolvedOf_eq sound
  refine ⟨?_, ?_, FileGraph.passesAgree sound⟩
  · rw [caught, FileGraph.map_caught sound unique, paths]
    rfl
  · rw [caught, List.map_eq_nil_iff, FileGraph.caught_eq_nil_iff sound, ← not_exists]
    have cyclic := FileGraph.exists_cycle_iff sound unique
    simp only [ofRecords]
    rw [cyclic, List.eq_nil_iff_forall_not_mem, not_exists]
    simp only [FileGraph.mem_cycleMembers_of_sound sound]

def knot : List FileRecord :=
  [{ path := "w.ts", language := "typescript" },
    { path := "x.ts", language := "typescript", imports := ["./y"] },
    { path := "y.ts", language := "typescript", imports := ["./x", "./w"] },
    { path := "z.ts", language := "typescript", imports := ["./y"] }]

theorem unresolved_knot_paths : (knot.map (·.path)).Nodup ∧
    (ofRecords knot).unresolved = ["x.ts", "y.ts", "z.ts"] :=
  ⟨by decide, by decide +kernel⟩

theorem unresolved_knot : (knot.map (·.path)).Nodup ∧
    (ofRecords knot).unresolved = ["x.ts", "y.ts", "z.ts"] ∧
    LeadsToCycle (ofRecords knot).edges "z.ts" ∧ ¬ LeadsToCycle (ofRecords knot).edges "w.ts" := by
  classical
  obtain ⟨distinct, unresolved⟩ := unresolved_knot_paths
  have filtered := (unresolved_eq_filter knot distinct).1
  have member (path : String) : path ∈ ["x.ts", "y.ts", "z.ts"] ↔
      path ∈ knot.map (·.path) ∧ LeadsToCycle (ofRecords knot).edges path := by
    rw [← unresolved, filtered, List.mem_filter, decide_eq_true_eq]
  refine ⟨distinct, unresolved, ((member "z.ts").mp (by decide)).2, ?_⟩
  intro leads
  exact absurd ((member "w.ts").mpr ⟨by decide, leads⟩) (by decide)

end Groundwork.DependencyGraph
