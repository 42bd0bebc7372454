import Groundwork.Proofs.Graph.Edges
import Mathlib.Algebra.Order.BigOperators.Group.List
import Mathlib.Algebra.Order.Ring.Nat
import Mathlib.Data.Fintype.EquivFin
import Mathlib.Data.Nat.Find

/-!
Chains of dependencies. A position has a height if the chains that start at it have a longest one; in a
graph with sound adjacency lists these are the positions from which no cycle can be reached.
-/

namespace Groundwork.Graph.FileGraph

open Relation

variable {g : FileGraph}

def ReachesCycle (g : FileGraph) (i : Nat) : Prop :=
  ∃ j, ReflTransGen g.HasEdge i j ∧ TransGen g.HasEdge j j

def HasChain (g : FileGraph) : (length i : Nat) → Prop
  | 0, _ => True
  | length + 1, i => ∃ j, g.HasEdge i j ∧ HasChain g length j

def IsHeight (g : FileGraph) (i height : Nat) : Prop :=
  g.HasChain height i ∧ ∀ length, g.HasChain length i → length ≤ height

theorem IsHeight.unique {i first second : Nat} (isFirst : g.IsHeight i first)
    (isSecond : g.IsHeight i second) : first = second :=
  Nat.le_antisymm (isSecond.2 first isFirst.1) (isFirst.2 second isSecond.1)

theorem HasChain.shorter {i : Nat} {length : Nat} (chain : g.HasChain (length + 1) i) :
    g.HasChain length i := by
  induction length generalizing i with
  | zero => trivial
  | succ length ih =>
      obtain ⟨j, edge, tail⟩ := chain
      exact ⟨j, edge, ih tail⟩

theorem exists_height {i : Nat} (bound : Nat)
    (bounded : ∀ length, g.HasChain length i → length ≤ bound) :
    ∃ height, g.IsHeight i height := by
  classical
  refine ⟨Nat.findGreatest (fun length => g.HasChain length i) bound, ?_, ?_⟩
  · exact Nat.findGreatest_spec (P := fun length => g.HasChain length i) (Nat.zero_le bound) trivial
  · intro length chain
    exact Nat.le_findGreatest (bounded length chain) chain

theorem isHeight_zero_iff {i : Nat} : g.IsHeight i 0 ↔ g.dependenciesOf i = [] := by
  constructor
  · intro height
    rw [List.eq_nil_iff_forall_not_mem]
    intro j edge
    exact absurd (height.2 1 ⟨j, edge, trivial⟩) (by omega)
  · intro none
    refine ⟨trivial, ?_⟩
    intro length chain
    cases length with
    | zero => exact Nat.le_refl 0
    | succ length =>
        obtain ⟨j, edge, _⟩ := chain
        simp [HasEdge, none] at edge

theorem isHeight_succ_iff {i height : Nat} : g.IsHeight i (height + 1) ↔
    (∀ j, g.HasEdge i j → ∃ lower, lower ≤ height ∧ g.IsHeight j lower) ∧
      ∃ j, g.HasEdge i j ∧ g.IsHeight j height := by
  constructor
  · intro isHeight
    have bounded (j : Nat) (edge : g.HasEdge i j) (length : Nat) (chain : g.HasChain length j) :
        length ≤ height := Nat.le_of_succ_le_succ (isHeight.2 (length + 1) ⟨j, edge, chain⟩)
    refine ⟨?_, ?_⟩
    · intro j edge
      obtain ⟨lower, isLower⟩ := exists_height _ (bounded j edge)
      exact ⟨lower, bounded j edge lower isLower.1, isLower⟩
    · obtain ⟨j, edge, chain⟩ := isHeight.1
      exact ⟨j, edge, chain, bounded j edge⟩
  · rintro ⟨below, j, edge, isHeight⟩
    refine ⟨⟨j, edge, isHeight.1⟩, ?_⟩
    intro length chain
    cases length with
    | zero => omega
    | succ length =>
        obtain ⟨other, otherEdge, tail⟩ := chain
        obtain ⟨lower, lowerBound, isLower⟩ := below other otherEdge
        have tailBound := isLower.2 length tail
        omega

theorem HasChain.prepend {i j length : Nat} (path : TransGen g.HasEdge i j)
    (chain : g.HasChain length j) : g.HasChain (length + 1) i := by
  induction path using TransGen.head_induction_on with
  | single edge => exact ⟨j, edge, chain⟩
  | head edge _ ih => exact HasChain.shorter ⟨_, edge, ih⟩

theorem ReachesCycle.hasChain {i : Nat} (reaches : g.ReachesCycle i) (length : Nat) :
    g.HasChain length i := by
  obtain ⟨j, path, cycle⟩ := reaches
  have onCycle : g.HasChain length j := by
    induction length with
    | zero => trivial
    | succ length ih => exact HasChain.prepend cycle ih
  rcases reflTransGen_iff_eq_or_transGen.mp path with same | path
  · exact same ▸ onCycle
  · exact HasChain.shorter (HasChain.prepend path onCycle)

/-- Without a cycle to reach, going along dependencies comes to an end: no set of positions that is
left by none of its members can be entered. -/
theorem exists_leaving (sound : g.Sound) {i : Nat} (acyclic : ¬ g.ReachesCycle i)
    (inside : Nat → Prop) (start : inside i) :
    ∃ j, inside j ∧ ∀ next, g.HasEdge j next → ¬ inside next := by
  by_contra stays
  push Not at stays
  let Reached := { j : Fin (g.size + 1) // ReflTransGen g.HasEdge i j }
  let before (a b : Reached) : Prop := TransGen g.HasEdge b.1 a.1
  have transitive : IsTrans Reached before := ⟨fun a b c ab bc => bc.trans ab⟩
  have irreflexive : Std.Irrefl before := ⟨fun a cycle => acyclic ⟨a.1, a.2, cycle⟩⟩
  have wellFounded : WellFounded before := Finite.wellFounded_of_trans_of_irrefl before
  have never : ∀ a : Reached, ¬ inside a.1 := by
    intro a
    induction a using wellFounded.induction with
    | _ a ih =>
        intro member
        obtain ⟨next, edge, nextMember⟩ := stays a.1 member
        have bound : next < g.size + 1 := Nat.lt_succ_of_lt (sound.bounded edge)
        exact ih ⟨⟨next, bound⟩, a.2.tail edge⟩ (TransGen.single edge) nextMember
  by_cases outside : i < g.size + 1
  · exact never ⟨⟨i, outside⟩, ReflTransGen.refl⟩ start
  · obtain ⟨next, edge, _⟩ := stays i start
    have bound := sound.sourceBound edge
    omega

theorem exists_height_iff (sound : g.Sound) (i : Nat) :
    (∃ height, g.IsHeight i height) ↔ ¬ g.ReachesCycle i := by
  constructor
  · rintro ⟨height, isHeight⟩ reaches
    have bound := isHeight.2 (height + 1) (reaches.hasChain (height + 1))
    omega
  · intro acyclic
    by_contra unbounded
    obtain ⟨j, isUnbounded, leaves⟩ := exists_leaving sound acyclic
      (fun j => ¬ ∃ height, g.IsHeight j height) unbounded
    apply isUnbounded
    have heights (next : Nat) (edge : g.HasEdge j next) : ∃ height, g.IsHeight next height :=
      not_not.mp (leaves next edge)
    choose! heightOf isHeight using heights
    refine exists_height (((g.dependenciesOf j).map heightOf).sum + 1) ?_
    intro length chain
    cases length with
    | zero => omega
    | succ length =>
        obtain ⟨next, edge, tail⟩ := chain
        have tailBound := (isHeight next edge).2 length tail
        have sumBound := List.le_sum_of_mem (List.mem_map_of_mem (f := heightOf) edge)
        omega

end Groundwork.Graph.FileGraph
