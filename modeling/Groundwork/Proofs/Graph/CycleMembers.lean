import Groundwork.Proofs.Graph.SearchSteps
import Mathlib.Data.List.Perm.Subperm

/-!
The search as a whole. Every step keeps the state consistent and brings its end nearer, so that the
search comes to an end with all positions closed and has found exactly those on a cycle.
-/

namespace Groundwork.Graph.Search

open Relation

variable {g : FileGraph} {s : Search}

/-- No position is taken up more often than this: once for each that has no number yet, and once more
for each that waits for another, now or later. -/
def stepsLeft (g : FileGraph) (s : Search) : Nat :=
  match s.work with
  | [] => 0
  | (_, 0) :: rest => 2 * (g.size - s.numbers.length) + rest.length - 1
  | (_, _ + 1) :: rest => 2 * (g.size - s.numbers.length) + rest.length + 1

theorem stepsLeft_le (s : Search) :
    s.stepsLeft g ≤ 2 * (g.size - s.numbers.length) + s.work.length := by
  unfold stepsLeft
  split <;> rename_i rest <;> rw [rest] <;> simp only [List.length_cons, List.length_nil] <;> omega

theorem Consistent.room (consistent : Consistent g s) {i : Nat} (bound : i < g.size)
    (fresh : ¬ s.Numbered i) : s.numbers.length < g.size := by
  rw [numbered_iff] at fresh
  have unique : (i :: s.entered).Nodup := List.nodup_cons.mpr ⟨fresh, consistent.enteredOnce⟩
  have inside : i :: s.entered ⊆ List.range g.size := by
    intro j member
    rcases List.mem_cons.mp member with rfl | old
    · exact List.mem_range.mpr bound
    · exact List.mem_range.mpr (consistent.bounded j old)
  have length := (unique.subperm inside).length_le
  simpa [entered, Nat.succ_le_iff] using length

theorem extends_withWork (work : List (Nat × Nat)) (part : List Nat) :
    s.Extends { s with work := work } part :=
  ⟨fun _ _ => rfl, fun _ _ => rfl, fun _ known => known⟩

theorem goOn_spec (sound : g.Sound) (consistent : Consistent g s) (next : Nat) {i : Nat}
    {left older : List Nat} (shape : s.stack = left ++ i :: older)
    (frame : Frame g s i ((g.dependenciesOf i).take next) left older)
    (waiting : Waiting g s i s.work older) :
    ∃ later, goOn g i next s = .ok later ∧ Consistent g later ∧ Ready g later ∧
      later.numbers = s.numbers ∧
      later.stepsLeft g ≤ 2 * (g.size - s.numbers.length) + s.work.length := by
  obtain ⟨scanned, relowered, result⟩ :=
    scan_spec consistent shape (List.take_append_drop next _).symm frame next
  have scannedConsistent := consistent.relowered relowered
  have scannedShape := relowered.stack.trans shape
  have scannedWaiting := waiting.extend (relowered.extends (consistent.outside shape).2)
  rcases result with ⟨done, frameAll⟩ | ⟨before, child, after, split, fresh, frameBefore, found⟩
  · rw [List.take_append_drop] at frameAll
    rw [← relowered.work] at scannedWaiting
    obtain ⟨later, computed, leaves⟩ :=
      leave_spec sound scannedConsistent scannedShape frameAll scannedWaiting
    have numbers := leaves.numbers.trans relowered.numbers
    refine ⟨later, ?_, leaves.consistent, leaves.ready, numbers, ?_⟩
    · rw [goOn, done]
      exact computed
    · rw [← numbers, ← relowered.work, ← leaves.work]
      exact stepsLeft_le later
  · have place : (g.dependenciesOf i)[next + before.length]? = some child := by
      rw [← List.getElem?_drop, split]
      simp
    have edge : g.HasEdge i child := List.mem_of_getElem? place
    have seen : (g.dependenciesOf i).take next ++ before =
        (g.dependenciesOf i).take (next + before.length) := by
      rw [List.take_add, split, List.take_left]
    rw [seen] at frameBefore
    refine ⟨{ scanned with work := (child, 0) :: (i, next + before.length + 1) :: s.work },
      by rw [goOn, found]; rfl, scannedConsistent.congr rfl rfl rfl, ?_, relowered.numbers, ?_⟩
    · refine .entering rfl (sound.bounded edge) ?_ ?_
      · exact fun known => fresh ((relowered.numbered child).mp known)
      · have waitingChild := Waiting.waits frameBefore place scannedWaiting
        rw [← scannedShape] at waitingChild
        exact waitingChild.extend (extends_withWork _ _)
    · simp only [stepsLeft, relowered.numbers, List.length_cons]
      omega

structure Steps (g : FileGraph) (s later : Search) : Prop where
  consistent : Consistent g later
  ready : Ready g later
  nearer : later.stepsLeft g < s.stepsLeft g
  keeps : ∀ j, s.Numbered j → later.Numbered j
  topNumbered : ∀ i next rest, s.work = (i, next) :: rest → later.Numbered i

theorem step_spec (sound : g.Sound) (consistent : Consistent g s) (ready : Ready g s)
    (busy : s.work ≠ []) : ∃ later, s.step g = .ok later ∧ Steps g s later := by
  cases ready with
  | idle none _ => exact absurd none busy
  | @entering i work top bound fresh waiting =>
      have known : ∀ j ∈ s.stack, s.Numbered j := consistent.stackNumbered
      have room := consistent.room bound fresh
      have popped : Consistent g { s with work := work } := consistent.congr rfl rfl rfl
      have entered := enter_consistent popped bound fresh
      have extended := enter_extends (s := { s with work := work }) fresh known
      obtain ⟨later, computed, laterConsistent, laterReady, numbers, bounded⟩ :=
        goOn_spec sound entered 0 (List.nil_append _).symm (enter_frame s.stack)
          ((waiting.extend (extends_withWork work _)).extend extended)
      have numbered (j : Nat) : later.Numbered j ↔ j = i ∨ s.Numbered j := by
        rw [Numbered, number?, numbers]
        exact enter_numbered (s := { s with work := work }) j
      refine ⟨later, ?_, laterConsistent, laterReady, ?_, ?_, ?_⟩
      · rw [step, top]
        exact computed
      · have length : (enter { s with work := work } i).numbers.length = s.numbers.length + 1 := rfl
        have rest : (enter { s with work := work } i).work = work := rfl
        rw [length, rest] at bounded
        simp only [stepsLeft, top]
        simp only [stepsLeft] at bounded
        omega
      · intro j old
        exact (numbered j).mpr (Or.inr old)
      · intro j next rest same
        rw [top, List.cons.injEq, Prod.mk.injEq] at same
        exact (numbered j).mpr (Or.inl same.1.1.symm)
  | @resuming i next work left older top shape frame waiting =>
      have popped : Consistent g { s with work := work } := consistent.congr rfl rfl rfl
      obtain ⟨later, computed, laterConsistent, laterReady, numbers, bounded⟩ :=
        goOn_spec sound popped (next + 1) shape (frame.extend (extends_withWork work _))
          (waiting.extend (extends_withWork work _))
      have numbered (j : Nat) : later.Numbered j ↔ s.Numbered j := by
        rw [Numbered, number?, numbers]
        exact Iff.rfl
      refine ⟨later, ?_, laterConsistent, laterReady, ?_, ?_, ?_⟩
      · rw [step, top]
        exact computed
      · simp only [stepsLeft, top]
        simp only [stepsLeft] at bounded
        omega
      · intro j old
        exact (numbered j).mpr old
      · intro j place rest same
        rw [top, List.cons.injEq, Prod.mk.injEq] at same
        refine (numbered j).mpr (consistent.stackNumbered j ?_)
        rw [shape, same.1.1]
        simp

structure Idle (g : FileGraph) (s : Search) : Prop where
  consistent : Consistent g s
  work : s.work = []
  stack : s.stack = []

theorem Ready.isIdle (ready : Ready g s) (consistent : Consistent g s) (none : s.work = []) :
    Idle g s := by
  cases ready with
  | idle _ stack => exact ⟨consistent, none, stack⟩
  | entering top => simp [none] at top
  | resuming top => simp [none] at top

theorem Ready.none_of_stepsLeft (ready : Ready g s) (consistent : Consistent g s)
    (finished : s.stepsLeft g = 0) : s.work = [] := by
  cases ready with
  | idle none _ => exact none
  | entering top bound fresh _ =>
      have room := consistent.room bound fresh
      simp only [stepsLeft, top] at finished
      omega
  | resuming top =>
      simp only [stepsLeft, top] at finished
      omega

theorem exhaust_spec (sound : g.Sound) (steps : Nat) (consistent : Consistent g s)
    (ready : Ready g s) (enough : s.stepsLeft g ≤ steps) :
    ∃ final, exhaust g steps s = .ok final ∧ Idle g final ∧
      (∀ j, s.Numbered j → final.Numbered j) ∧
      ∀ i next rest, s.work = (i, next) :: rest → final.Numbered i := by
  -- Each step brings the end nearer, so what is left to do stays within the steps that are left.
  induction steps generalizing s with
  | zero =>
      have none := ready.none_of_stepsLeft consistent (Nat.le_zero.mp enough)
      exact ⟨s, by simp [exhaust, none], ready.isIdle consistent none, fun _ known => known,
        by simp [none]⟩
  | succ steps ih =>
      by_cases none : s.work = []
      · exact ⟨s, by simp [exhaust, none], ready.isIdle consistent none, fun _ known => known,
          by simp [none]⟩
      · obtain ⟨later, computed, stepped⟩ := step_spec sound consistent ready none
        have nearer := stepped.nearer
        obtain ⟨final, exhausted, idle, keeps, _⟩ :=
          ih stepped.consistent stepped.ready (by omega)
        refine ⟨final, ?_, idle, fun j known => keeps j (stepped.keeps j known), ?_⟩
        · rw [exhaust, if_neg (by simpa using none), computed]
          exact exhausted
        · intro i next rest top
          exact keeps i (stepped.topNumbered i next rest top)

theorem searchFrom_spec (sound : g.Sound) (idle : Idle g s) {root : Nat} (bound : root < g.size) :
    ∃ final, searchFrom g s root = .ok final ∧ Idle g final ∧
      (∀ j, s.Numbered j → final.Numbered j) ∧ final.Numbered root := by
  cases known : s.number? root with
  | some n => exact ⟨s, by rw [searchFrom, known], idle, fun _ numbered => numbered, ⟨n, known⟩⟩
  | none =>
      have consistent : Consistent g { s with work := [(root, 0)] } :=
        idle.consistent.congr rfl rfl rfl
      have waiting : Waiting g { s with work := [(root, 0)] } root [] s.stack := by
        rw [idle.stack]
        exact .done root
      have ready : Ready g { s with work := [(root, 0)] } :=
        .entering rfl bound ((not_numbered_iff root).mpr known) waiting
      obtain ⟨final, computed, finalIdle, keeps, rootNumbered⟩ :=
        exhaust_spec sound (2 * g.size) consistent ready (by
          simp only [stepsLeft, List.length_nil]
          omega)
      exact ⟨final, by rw [searchFrom, known]; exact computed, finalIdle, keeps,
        rootNumbered root 0 [] rfl⟩

theorem searchAll_spec (sound : g.Sound) (idle : Idle g s) (roots : List Nat)
    (bounded : ∀ root ∈ roots, root < g.size) :
    ∃ final, roots.foldlM (searchFrom g) s = .ok final ∧ Idle g final ∧
      (∀ j, s.Numbered j → final.Numbered j) ∧ ∀ root ∈ roots, final.Numbered root := by
  induction roots generalizing s with
  | nil => exact ⟨s, rfl, idle, fun _ known => known, by simp⟩
  | cons root roots ih =>
      obtain ⟨middle, searched, middleIdle, keeps, rootNumbered⟩ :=
        searchFrom_spec sound idle (bounded root List.mem_cons_self)
      obtain ⟨final, computed, finalIdle, keepsLater, rootsNumbered⟩ :=
        ih middleIdle fun other member => bounded other (List.mem_cons_of_mem root member)
      refine ⟨final, ?_, finalIdle, fun j known => keepsLater j (keeps j known), ?_⟩
      · rw [List.foldlM_cons, searched]
        exact computed
      · intro other member
        rcases List.mem_cons.mp member with rfl | later
        · exact keepsLater other rootNumbered
        · exact rootsNumbered other later

theorem start_idle (g : FileGraph) : Idle g {} where
  work := rfl
  stack := rfl
  consistent := by
    constructor <;> simp [entered, number?, Closed, Numbered]

theorem run_spec (sound : g.Sound) : ∃ final, run g = .ok final ∧ Idle g final ∧
    ∀ i < g.size, final.Numbered i := by
  obtain ⟨final, computed, idle, _, numbered⟩ :=
    searchAll_spec sound (start_idle g) (List.range g.size) fun _ => List.mem_range.mp
  exact ⟨final, computed, idle, fun i bound => numbered i (List.mem_range.mpr bound)⟩

end Groundwork.Graph.Search

namespace Groundwork.Graph.FileGraph

open Relation

/-- The search comes to an end on every graph made by adding edges, without taking from an empty stack,
and has then found exactly the positions from which a chain of dependencies leads back to themselves. -/
theorem mem_cycleMembers_iff (paths : List String) (pairs : List (String × String)) :
    (∃ final, Search.run ((ofPaths paths).addEdges pairs) = .ok final) ∧
      ∀ i, i ∈ ((ofPaths paths).addEdges pairs).cycleMembers ↔
        TransGen ((ofPaths paths).addEdges pairs).HasEdge i i := by
  have sound := addEdges_sound (ofPaths_sound paths) pairs
  obtain ⟨final, computed, idle, numbered⟩ := Search.run_spec sound
  refine ⟨⟨final, computed⟩, ?_⟩
  intro i
  simp only [cycleMembers, computed, List.mem_filter, List.mem_range, List.contains_iff_mem]
  rw [idle.consistent.members]
  constructor
  · rintro ⟨_, _, cycle⟩
    exact cycle
  · intro cycle
    obtain ⟨next, edge, _⟩ := TransGen.head'_iff.mp cycle
    have bound := sound.sourceBound edge
    exact ⟨bound, ⟨numbered i bound, by simp [idle.stack]⟩, cycle⟩

end Groundwork.Graph.FileGraph
