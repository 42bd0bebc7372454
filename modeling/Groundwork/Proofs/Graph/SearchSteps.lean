import Groundwork.Proofs.Graph.SearchFrames

/-!
The parts of a step of the search: entering a position, looking at its dependencies, leaving it and
closing its component.
-/

namespace Groundwork.Graph.Search

open Relation

variable {g : FileGraph} {s : Search}

structure Relowered (i : Nat) (s later : Search) : Prop where
  numbers : later.numbers = s.numbers
  stack : later.stack = s.stack
  members : later.members = s.members
  work : later.work = s.work
  lows : ∀ j, j ≠ i → later.low? j = s.low? j

theorem Relowered.refl (i : Nat) (s : Search) : Relowered i s s :=
  ⟨rfl, rfl, rfl, rfl, fun _ _ => rfl⟩

theorem Relowered.trans {i : Nat} {middle later : Search} (first : Relowered i s middle)
    (second : Relowered i middle later) : Relowered i s later where
  numbers := second.numbers.trans first.numbers
  stack := second.stack.trans first.stack
  members := second.members.trans first.members
  work := second.work.trans first.work
  lows j different := (second.lows j different).trans (first.lows j different)

theorem relowered_setLow (i low : Nat) : Relowered i s (s.setLow i low) :=
  ⟨rfl, rfl, rfl, rfl, fun j different => by rw [low?_setLow, if_neg different]⟩

theorem Relowered.numberOf {i : Nat} {later : Search} (relowered : Relowered i s later) (j : Nat) :
    later.numberOf j = s.numberOf j := by
  rw [Search.numberOf, number?, relowered.numbers, ← number?, ← Search.numberOf]

theorem Relowered.numbered {i : Nat} {later : Search} (relowered : Relowered i s later) (j : Nat) :
    later.Numbered j ↔ s.Numbered j := by
  rw [Numbered, number?, relowered.numbers, ← number?, ← Numbered]

theorem Relowered.extends {i : Nat} {later : Search} (relowered : Relowered i s later)
    {part : List Nat} (outside : i ∉ part) : s.Extends later part := by
  constructor
  · intro j _
    rw [number?, number?, relowered.numbers]
  · intro j member
    exact relowered.lows j fun same => outside (same ▸ member)
  · intro j known
    exact (relowered.numbered j).mpr known

theorem Consistent.congr {later : Search} (consistent : Consistent g s)
    (numbers : later.numbers = s.numbers) (stack : later.stack = s.stack)
    (members : later.members = s.members) : Consistent g later := by
  obtain ⟨numbersOf, lowsOf, stackOf, membersOf, workOf⟩ := s
  obtain ⟨numbersLater, lowsLater, stackLater, membersLater, workLater⟩ := later
  subst numbers stack members
  exact ⟨consistent.bounded, consistent.enteredOnce, consistent.distinct, consistent.counted,
    consistent.stackNumbered, consistent.youngest, consistent.closedEdges, consistent.members⟩

theorem Consistent.relowered {i : Nat} {later : Search} (consistent : Consistent g s)
    (relowered : Relowered i s later) : Consistent g later :=
  consistent.congr relowered.numbers relowered.stack relowered.members

theorem Consistent.stackOnce (consistent : Consistent g s) : s.stack.Nodup :=
  consistent.youngest.imp fun less same => by simp [same] at less

theorem numberOf_eq {i n : Nat} (known : s.number? i = some n) : s.numberOf i = n := by
  rw [numberOf, known, Option.getD_some]

theorem lowOf_eq {i n : Nat} (known : s.low? i = some n) : s.lowOf i = n := by
  rw [lowOf, known, Option.getD_some]

section Entering

variable {i : Nat}

theorem enter_numbered (j : Nat) : (s.enter i).Numbered j ↔ j = i ∨ s.Numbered j := by
  rw [Numbered, number?_enter]
  by_cases same : j = i
  · simp [same]
  · simp [same, Numbered]

theorem enter_extends (fresh : ¬ s.Numbered i) {part : List Nat}
    (known : ∀ j ∈ part, s.Numbered j) : s.Extends (s.enter i) part := by
  have different {j : Nat} (member : j ∈ part) : j ≠ i := by
    rintro rfl
    exact fresh (known j member)
  constructor
  · intro j member
    rw [number?_enter, if_neg (different member)]
  · intro j member
    rw [low?_enter, if_neg (different member)]
  · intro j numbered
    exact (enter_numbered j).mpr (Or.inr numbered)

theorem enter_closed (consistent : Consistent g s) (fresh : ¬ s.Numbered i) (j : Nat) :
    (s.enter i).Closed j ↔ s.Closed j := by
  have notOpen : i ∉ s.stack := fun member => fresh (consistent.stackNumbered i member)
  have stack : (s.enter i).stack = i :: s.stack := rfl
  rw [Closed, Closed, enter_numbered, stack, List.mem_cons]
  constructor
  · rintro ⟨rfl | numbered, outside⟩
    · exact absurd (Or.inl rfl) outside
    · exact ⟨numbered, fun member => outside (Or.inr member)⟩
  · rintro ⟨numbered, outside⟩
    refine ⟨Or.inr numbered, ?_⟩
    rintro (rfl | member)
    · exact fresh numbered
    · exact outside member

theorem enter_distinct (consistent : Consistent g s) (j k n : Nat)
    (first : (s.enter i).number? j = some n) (second : (s.enter i).number? k = some n) : j = k := by
  rw [number?_enter] at first second
  split at first <;> split at second
  · simp_all
  · obtain rfl := Option.some.inj first
    exact absurd (consistent.counted k _ second) (Nat.lt_irrefl _)
  · obtain rfl := Option.some.inj second
    exact absurd (consistent.counted j _ first) (Nat.lt_irrefl _)
  · exact consistent.distinct j k n first second

theorem enter_youngest (consistent : Consistent g s) (fresh : ¬ s.Numbered i) :
    (s.enter i).stack.Pairwise fun j k => (s.enter i).numberOf k < (s.enter i).numberOf j := by
  have unchanged {j : Nat} (numbered : s.Numbered j) : (s.enter i).number? j = s.number? j :=
    (enter_extends fresh (List.forall_mem_singleton.mpr numbered)).numbers j (by simp)
  refine List.pairwise_cons.mpr ⟨?_, ?_⟩
  · intro j member
    obtain ⟨n, known⟩ := consistent.stackNumbered j member
    have own : (s.enter i).number? i = some s.numbers.length := by rw [number?_enter, if_pos rfl]
    rw [numberOf_eq ((unchanged ⟨n, known⟩).trans known), numberOf_eq own]
    exact consistent.counted j n known
  · refine consistent.youngest.imp_of_mem ?_
    intro j k jMember kMember less
    rwa [numberOf, numberOf, unchanged (consistent.stackNumbered j jMember),
      unchanged (consistent.stackNumbered k kMember)]

theorem enter_consistent (consistent : Consistent g s) (bound : i < g.size)
    (fresh : ¬ s.Numbered i) : Consistent g (s.enter i) where
  bounded j member := by
    rcases List.mem_cons.mp member with rfl | old
    · exact bound
    · exact consistent.bounded j old
  enteredOnce := List.nodup_cons.mpr
    ⟨fun member => fresh ((numbered_iff i).mpr member), consistent.enteredOnce⟩
  distinct := enter_distinct consistent
  counted j n known := by
    rw [number?_enter] at known
    refine Nat.lt_succ_iff.mpr ?_
    split at known
    · exact Nat.le_of_eq (Option.some.inj known).symm
    · exact Nat.le_of_lt (consistent.counted j n known)
  stackNumbered j member := by
    rcases List.mem_cons.mp member with rfl | old
    · exact (enter_numbered j).mpr (Or.inl rfl)
    · exact (enter_numbered j).mpr (Or.inr (consistent.stackNumbered j old))
  youngest := enter_youngest consistent fresh
  closedEdges j k jClosed edge := by
    have old := (enter_closed consistent fresh j).mp jClosed
    exact (enter_closed consistent fresh k).mpr (consistent.closedEdges j k old edge)
  members j := by
    rw [enter_closed consistent fresh]
    exact consistent.members j

theorem enter_frame (older : List Nat) : Frame g (s.enter i) i [] [] older := by
  have number : (s.enter i).numberOf i = s.numbers.length :=
    numberOf_eq (by rw [number?_enter, if_pos rfl])
  have low : (s.enter i).low? i = some s.numbers.length := by rw [low?_enter, if_pos rfl]
  exact {
    lowKnown := ⟨_, low⟩
    lowAtMost := Nat.le_of_eq ((lowOf_eq low).trans number.symm)
    lowReached := ⟨i, List.mem_cons_self, by rw [lowOf_eq low, number], ReflTransGen.refl⟩
    entered := by simp
    returns := by simp
    leftSeen := by simp
    ownSeen := by simp }

end Entering

section Scanning

variable {i : Nat} {left older : List Nat}

theorem Consistent.above (consistent : Consistent g s) (shape : s.stack = left ++ i :: older) :
    (∀ j ∈ left, s.numberOf i < s.numberOf j) ∧ ∀ j ∈ older, s.numberOf j < s.numberOf i := by
  have youngest := consistent.youngest
  rw [shape, List.pairwise_append, List.pairwise_cons] at youngest
  exact ⟨fun j member => youngest.2.2 j member i List.mem_cons_self, youngest.2.1.1⟩

theorem Consistent.outside (consistent : Consistent g s) (shape : s.stack = left ++ i :: older) :
    i ∉ left ∧ i ∉ older := by
  obtain ⟨above, below⟩ := consistent.above shape
  exact ⟨fun member => Nat.lt_irrefl _ (above i member), fun member => Nat.lt_irrefl _ (below i member)⟩

theorem Frame.lookAt {seen : List Nat} {j n : Nat} (consistent : Consistent g s)
    (shape : s.stack = left ++ i :: older) (frame : Frame g s i seen left older)
    (edge : g.HasEdge i j) (known : s.number? j = some n) :
    ∃ later, (if s.stack.contains j then s.lower i n else .ok s) = .ok later ∧
      Relowered i s later ∧ Frame g later i (seen ++ [j]) left older := by
  have numbered : s.Numbered j := ⟨n, known⟩
  have number : s.numberOf j = n := numberOf_eq known
  by_cases member : j ∈ s.stack
  · have reached : n < s.lowOf i →
        ∃ k ∈ i :: older, s.numberOf k = n ∧ ReflTransGen g.HasEdge i k := by
      intro less
      refine ⟨j, ?_, number, ReflTransGen.single edge⟩
      rw [shape, List.mem_append] at member
      rcases member with isLeft | below
      · have aboveOwn := (consistent.above shape).1 j isLeft
        have atMost := frame.lowAtMost
        omega
      · exact below
    obtain ⟨computed, lowered⟩ := frame.lowered reached
    refine ⟨_, by rw [if_pos (by simpa using member), computed], relowered_setLow i _, ?_⟩
    refine lowered.see numbered ?_
    intro _
    rw [lowOf_setLow_self, numberOf_setLow, number]
    exact Nat.min_le_right _ _
  · refine ⟨s, by rw [if_neg (by simpa using member)], Relowered.refl i s, ?_⟩
    refine frame.see numbered ?_
    intro isOlder
    exact absurd (by simp [shape, isOlder]) member

theorem scan_cons {j n : Nat} (known : s.number? j = some n) (next : Nat) (rest : List Nat) :
    scan i next (j :: rest) s =
      (if s.stack.contains j then s.lower i n else .ok s) >>= scan i (next + 1) rest := by
  simp only [scan, known]
  split <;> rfl

theorem scan_spec (consistent : Consistent g s) (shape : s.stack = left ++ i :: older)
    {seen rest : List Nat} (split : g.dependenciesOf i = seen ++ rest)
    (frame : Frame g s i seen left older) (next : Nat) :
    ∃ later, Relowered i s later ∧
      ((scan i next rest s = .ok (later, false) ∧ Frame g later i (seen ++ rest) left older) ∨
        ∃ before child after, rest = before ++ child :: after ∧ ¬ s.Numbered child ∧
          Frame g later i (seen ++ before) left older ∧
          scan i next rest s = .ok
            ({ later with work := (child, 0) :: (i, next + before.length + 1) :: s.work }, true)) := by
  induction rest generalizing s seen next with
  | nil => exact ⟨s, Relowered.refl i s, Or.inl ⟨rfl, by simpa using frame⟩⟩
  | cons j rest ih =>
      cases known : s.number? j with
      | none =>
          refine ⟨s, Relowered.refl i s, Or.inr ⟨[], j, rest, rfl, ?_, by simpa using frame, ?_⟩⟩
          · exact (not_numbered_iff j).mpr known
          · simp only [scan, known, List.length_nil, Nat.add_zero]
      | some n =>
          have edge : g.HasEdge i j := by simp [FileGraph.HasEdge, split]
          obtain ⟨middle, computed, relowered, looked⟩ :=
            frame.lookAt consistent shape edge known
          obtain ⟨later, reloweredLater, result⟩ := ih (consistent.relowered relowered)
            (relowered.stack.trans shape) (by simpa using split) looked (next + 1)
          have scanned : scan i next (j :: rest) s = scan i (next + 1) rest middle := by
            rw [scan_cons known, computed]
            rfl
          refine ⟨later, relowered.trans reloweredLater, ?_⟩
          rw [scanned]
          rcases result with ⟨done, frameLater⟩ | ⟨before, child, after, rfl, fresh, frameLater, found⟩
          · exact Or.inl ⟨done, by simpa using frameLater⟩
          · refine Or.inr ⟨j :: before, child, after, rfl, ?_, by simpa using frameLater, ?_⟩
            · rwa [relowered.numbered] at fresh
            · rw [found, relowered.work, List.length_cons]
              simp only [Nat.add_assoc, Nat.add_comm 1]

end Scanning

section Closing

variable {i : Nat} {left older : List Nat}

@[simp] theorem numberOf_withClosed (component rest : List Nat) (j : Nat) :
    (s.withClosed component rest).numberOf j = s.numberOf j := rfl

@[simp] theorem numbered_withClosed (component rest : List Nat) (j : Nat) :
    (s.withClosed component rest).Numbered j ↔ s.Numbered j := Iff.rfl

theorem popThrough_append (outside : i ∉ left) :
    popThrough i (left ++ i :: older) = .ok (left ++ [i], older) := by
  induction left with
  | nil => simp [popThrough]
  | cons top left ih =>
      rw [List.mem_cons, not_or] at outside
      simp only [List.cons_append, popThrough, if_neg (Ne.symm outside.1), ih outside.2]
      rfl

theorem close_eq (shape : s.stack = left ++ i :: older) (outside : i ∉ left) :
    s.close i = .ok (s.withClosed (left ++ [i]) older) := by
  rw [close, shape, popThrough_append outside]
  rfl

theorem reaches_closed (closedEdges : ∀ i j, s.Closed i → g.HasEdge i j → s.Closed j) {j k : Nat}
    (closed : s.Closed j) (reached : ReflTransGen g.HasEdge j k) : s.Closed k := by
  induction reached with
  | refl => exact closed
  | tail _ edge ih => exact closedEdges _ _ ih edge

theorem withClosed_closed (consistent : Consistent g s) (shape : s.stack = left ++ i :: older)
    (j : Nat) : (s.withClosed (left ++ [i]) older).Closed j ↔ s.Closed j ∨ j ∈ left ++ [i] := by
  have splits : s.stack = (left ++ [i]) ++ older := by rw [shape, List.append_cons]
  have once := consistent.stackOnce
  rw [splits, List.nodup_append] at once
  rw [Closed, Closed, numbered_withClosed, splits, List.mem_append (s := left ++ [i]), not_or]
  constructor
  · rintro ⟨known, outside⟩
    by_cases inside : j ∈ left ++ [i]
    · exact Or.inr inside
    · exact Or.inl ⟨known, inside, outside⟩
  · rintro (⟨known, _, outside⟩ | inside)
    · exact ⟨known, outside⟩
    · refine ⟨consistent.stackNumbered j (by rw [splits]; exact List.mem_append_left _ inside), ?_⟩
      intro below
      exact once.2.2 j inside j below rfl

theorem withClosed_edges (consistent : Consistent g s) (shape : s.stack = left ++ i :: older)
    (frame : Frame g s i (g.dependenciesOf i) left older) (root : s.lowOf i = s.numberOf i)
    (j k : Nat) (closed : (s.withClosed (left ++ [i]) older).Closed j) (edge : g.HasEdge j k) :
    (s.withClosed (left ++ [i]) older).Closed k := by
  have seen (known : s.Numbered k ∧ (k ∈ older → s.lowOf i ≤ s.numberOf k)) :
      (s.withClosed (left ++ [i]) older).Closed k := by
    refine ⟨known.1, ?_⟩
    intro isOlder
    have below := (consistent.above shape).2 k isOlder
    have atLeast := known.2 isOlder
    omega
  rcases (withClosed_closed consistent shape j).mp closed with old | new
  · exact (withClosed_closed consistent shape k).mpr
      (Or.inl (consistent.closedEdges j k old edge))
  · rcases List.mem_append.mp new with isLeft | own
    · exact seen (frame.leftSeen j isLeft k edge)
    · obtain rfl := List.mem_singleton.mp own
      exact seen (frame.ownSeen k edge)

theorem component_returns (consistent : Consistent g s) (shape : s.stack = left ++ i :: older)
    (frame : Frame g s i (g.dependenciesOf i) left older) (root : s.lowOf i = s.numberOf i)
    (j : Nat) (member : j ∈ left ++ [i]) : ReflTransGen g.HasEdge j i := by
  -- Each member reaches one with a lower number, which is a member too because nothing that is closed
  -- leads out to the positions below.
  induction number : s.numberOf j using Nat.strongRecOn generalizing j with
  | ind n ih =>
      rcases List.mem_append.mp member with isLeft | own
      · obtain ⟨k, inFrame, less, reached⟩ := frame.returns j isLeft
        have closed : (s.withClosed (left ++ [i]) older).Closed k :=
          reaches_closed (withClosed_edges consistent shape frame root)
            ((withClosed_closed consistent shape j).mpr (Or.inr member)) reached
        have inComponent : k ∈ left ++ [i] := by
          rw [List.append_cons, List.mem_append] at inFrame
          exact inFrame.resolve_right closed.2
        exact reached.trans (ih (s.numberOf k) (by omega) k inComponent rfl)
      · rw [List.mem_singleton.mp own]

theorem alone_acyclic (sound : g.Sound) (consistent : Consistent g s)
    (shape : s.stack = i :: older) (frame : Frame g s i (g.dependenciesOf i) [] older)
    (root : s.lowOf i = s.numberOf i) : ¬ TransGen g.HasEdge i i := by
  intro cycle
  obtain ⟨k, edge, back⟩ := TransGen.head'_iff.mp cycle
  have shape' : s.stack = [] ++ i :: older := shape
  have closed := withClosed_edges consistent shape' frame root i k
    ((withClosed_closed consistent shape' i).mpr (Or.inr (by simp))) edge
  rcases (withClosed_closed consistent shape' k).mp closed with old | same
  · exact (reaches_closed consistent.closedEdges old back).2 (by simp [shape])
  · obtain rfl := List.mem_singleton.mp same
    exact sound.irreflexive k edge

theorem together_cyclic (consistent : Consistent g s) (shape : s.stack = left ++ i :: older)
    (frame : Frame g s i (g.dependenciesOf i) left older) (root : s.lowOf i = s.numberOf i)
    (several : left ≠ []) (j : Nat) (member : j ∈ left ++ [i]) : TransGen g.HasEdge j j := by
  have cycle (k : Nat) (isLeft : k ∈ left) :
      TransGen g.HasEdge i k ∧ TransGen g.HasEdge k i := by
    have back := component_returns consistent shape frame root k (List.mem_append_left _ isLeft)
    have less := (consistent.above shape).1 k isLeft
    have different : k ≠ i := by
      rintro rfl
      exact Nat.lt_irrefl _ less
    rcases reflTransGen_iff_eq_or_transGen.mp (frame.entered k isLeft) with same | forth
    · exact absurd same different
    · rcases reflTransGen_iff_eq_or_transGen.mp back with same | back
      · exact absurd same.symm different
      · exact ⟨forth, back⟩
  rcases List.mem_append.mp member with isLeft | own
  · exact (cycle j isLeft).2.trans (cycle j isLeft).1
  · obtain rfl := List.mem_singleton.mp own
    obtain ⟨k, isLeft⟩ := List.exists_mem_of_ne_nil left several
    exact (cycle k isLeft).1.trans (cycle k isLeft).2

theorem close_members (sound : g.Sound) (consistent : Consistent g s)
    (shape : s.stack = left ++ i :: older) (frame : Frame g s i (g.dependenciesOf i) left older)
    (root : s.lowOf i = s.numberOf i) (j : Nat) :
    j ∈ (s.withClosed (left ++ [i]) older).members ↔
      (s.withClosed (left ++ [i]) older).Closed j ∧ TransGen g.HasEdge j j := by
  rw [withClosed_closed consistent shape]
  -- A position that closes alone is on no cycle; several that close together all become members.
  cases left with
  | nil =>
      have members : (s.withClosed ([] ++ [i]) older).members = s.members := rfl
      rw [members, consistent.members]
      constructor
      · rintro ⟨closed, cycle⟩
        exact ⟨Or.inl closed, cycle⟩
      · rintro ⟨closed | own, cycle⟩
        · exact ⟨closed, cycle⟩
        · obtain rfl := List.mem_singleton.mp own
          exact absurd cycle (alone_acyclic sound consistent shape frame root)
  | cons top left =>
      have members : (s.withClosed (top :: left ++ [i]) older).members =
          (top :: left ++ [i]) ++ s.members := by
        simp [withClosed]
      rw [members, List.mem_append, consistent.members]
      constructor
      · rintro (inside | ⟨closed, cycle⟩)
        · exact ⟨Or.inr inside, together_cyclic consistent shape frame root (by simp) j inside⟩
        · exact ⟨Or.inl closed, cycle⟩
      · rintro ⟨closed | inside, cycle⟩
        · exact Or.inr ⟨closed, cycle⟩
        · exact Or.inl inside

theorem close_consistent (sound : g.Sound) (consistent : Consistent g s)
    (shape : s.stack = left ++ i :: older) (frame : Frame g s i (g.dependenciesOf i) left older)
    (root : s.lowOf i = s.numberOf i) : Consistent g (s.withClosed (left ++ [i]) older) := by
  have keeps : older.Sublist s.stack := by
    rw [shape, List.append_cons]
    exact List.sublist_append_right _ _
  exact {
    bounded := consistent.bounded
    enteredOnce := consistent.enteredOnce
    distinct := consistent.distinct
    counted := consistent.counted
    stackNumbered := fun j member => consistent.stackNumbered j (keeps.subset member)
    youngest := consistent.youngest.sublist keeps
    closedEdges := withClosed_edges consistent shape frame root
    members := close_members sound consistent shape frame root }

end Closing

section Leaving

/-- A state between two steps: nothing is at work, or the topmost position at work is about to be
entered, or it has been entered and waits to be taken up again. -/
inductive Ready (g : FileGraph) (s : Search) : Prop
  | idle : s.work = [] → s.stack = [] → Ready g s
  | entering {i : Nat} {work : List (Nat × Nat)} :
      s.work = (i, 0) :: work → i < g.size → ¬ s.Numbered i → Waiting g s i work s.stack → Ready g s
  | resuming {i next : Nat} {work : List (Nat × Nat)} {left older : List Nat} :
      s.work = (i, next + 1) :: work → s.stack = left ++ i :: older →
      Frame g s i ((g.dependenciesOf i).take (next + 1)) left older → Waiting g s i work older →
      Ready g s

variable {i : Nat} {left older : List Nat}

theorem take_succ_eq {entries : List Nat} {next child : Nat} (entry : entries[next]? = some child) :
    entries.take (next + 1) = entries.take next ++ [child] := by
  rw [List.take_add_one, entry, Option.toList_some]

/-- A position that is left and stays open joins the frame of the one that it was entered from. -/
theorem Frame.absorb {later : Search} {parent : Nat} {seen parentLeft parentOlder : List Nat}
    (relowered : Relowered parent s later)
    (own : Frame g s i (g.dependenciesOf i) left (parentLeft ++ parent :: parentOlder))
    (frame : Frame g later parent seen parentLeft parentOlder) (numbered : s.Numbered i)
    (edge : g.HasEdge parent i) (lowAtMost : later.lowOf parent ≤ s.lowOf i)
    (stays : s.lowOf i < s.numberOf i) :
    Frame g later parent (seen ++ [i]) (left ++ i :: parentLeft) parentOlder := by
  have inner {k : Nat} (member : k ∈ parentOlder) : k ∈ parentLeft ++ parent :: parentOlder := by
    simp [member]
  have whole : (left ++ i :: parentLeft) ++ parent :: parentOlder =
      left ++ i :: (parentLeft ++ parent :: parentOlder) := by simp
  have seenLater (k : Nat) (known : s.Numbered k ∧
      (k ∈ parentLeft ++ parent :: parentOlder → s.lowOf i ≤ s.numberOf k)) :
      later.Numbered k ∧ (k ∈ parentOlder → later.lowOf parent ≤ later.numberOf k) := by
    refine ⟨(relowered.numbered k).mpr known.1, ?_⟩
    intro member
    rw [relowered.numberOf]
    exact Nat.le_trans lowAtMost (known.2 (inner member))
  have parts {j : Nat} (member : j ∈ left ++ i :: parentLeft) :
      j ∈ left ∨ j = i ∨ j ∈ parentLeft := by simpa using member
  refine { frame with entered := ?_, returns := ?_, leftSeen := ?_, ownSeen := ?_ }
  · intro j member
    rcases parts member with isLeft | rfl | isParentLeft
    · exact (own.entered j isLeft).head edge
    · exact ReflTransGen.single edge
    · exact frame.entered j isParentLeft
  · intro j member
    rw [whole]
    rcases parts member with isLeft | rfl | isParentLeft
    · obtain ⟨k, inFrame, less, reached⟩ := own.returns j isLeft
      exact ⟨k, inFrame, by rwa [relowered.numberOf, relowered.numberOf], reached⟩
    · obtain ⟨k, inFrame, number, reached⟩ := own.lowReached
      refine ⟨k, List.mem_append_right left inFrame, ?_, reached⟩
      rw [relowered.numberOf, relowered.numberOf, number]
      exact stays
    · obtain ⟨k, inFrame, less, reached⟩ := frame.returns j isParentLeft
      refine ⟨k, ?_, less, reached⟩
      exact List.mem_append_right left (List.mem_cons_of_mem i inFrame)
  · intro j member k jEdge
    rcases parts member with isLeft | rfl | isParentLeft
    · exact seenLater k (own.leftSeen j isLeft k jEdge)
    · exact seenLater k (own.ownSeen k jEdge)
    · exact frame.leftSeen j isParentLeft k jEdge
  · intro k member
    rcases List.mem_append.mp member with before | last
    · exact frame.ownSeen k before
    · obtain rfl := List.mem_singleton.mp last
      exact seenLater k ⟨numbered, fun _ => Nat.le_of_lt stays⟩

structure Leaves (g : FileGraph) (s later : Search) : Prop where
  consistent : Consistent g later
  ready : Ready g later
  work : later.work = s.work
  numbers : later.numbers = s.numbers

theorem leaves_to {later : Search} {parent next : Nat} {work : List (Nat × Nat)}
    (consistent : Consistent g s) (rest : s.work = (parent, next + 1) :: work)
    (shape : s.stack = left ++ parent :: older) (relowered : Relowered parent s later)
    (entry : (g.dependenciesOf parent)[next]? = some i)
    (frame : Frame g later parent ((g.dependenciesOf parent).take next ++ [i]) left older)
    (waiting : Waiting g s parent work older) : Leaves g s later where
  consistent := consistent.relowered relowered
  work := relowered.work
  numbers := relowered.numbers
  ready := by
    rw [← take_succ_eq entry] at frame
    exact .resuming (relowered.work.trans rest) (relowered.stack.trans shape) frame
      (waiting.extend (relowered.extends (consistent.outside shape).2))

theorem leave_root (sound : g.Sound) (consistent : Consistent g s)
    (shape : s.stack = left ++ i :: older) (frame : Frame g s i (g.dependenciesOf i) left older)
    (waiting : Waiting g s i s.work older) (root : s.lowOf i = s.numberOf i) :
    ∃ later, (s.withClosed (left ++ [i]) older).passDown (s.lowOf i) = .ok later ∧
      Leaves g s later := by
  have numbered := consistent.stackNumbered i (by simp [shape])
  have below := (consistent.above shape).2
  have closed := close_consistent sound consistent shape frame root
  have workSame : (s.withClosed (left ++ [i]) older).work = s.work := rfl
  have waitingClosed : Waiting g (s.withClosed (left ++ [i]) older) i s.work older :=
    waiting.extend ⟨fun _ _ => rfl, fun _ _ => rfl, fun _ known => known⟩
  generalize rest : s.work = work at waitingClosed
  rw [rest] at workSame
  cases waitingClosed with
  | done =>
      refine ⟨s.withClosed (left ++ [i]) [], by rw [passDown, workSame], closed, ?_, rfl, rfl⟩
      exact .idle workSame rfl
  | @waits _ parent next work parentLeft parentOlder parentFrame entry waitingParent =>
      have parentBelow : s.numberOf parent < s.numberOf i := below parent (by simp)
      have parentLow := parentFrame.lowAtMost
      rw [numberOf_withClosed] at parentLow
      obtain ⟨computed, lowered⟩ := parentFrame.lowered (n := s.lowOf i) (by omega)
      refine ⟨_, by rw [passDown, workSame]; exact computed, ?_⟩
      have leaves := leaves_to closed workSame rfl (relowered_setLow parent _) entry
        (lowered.see numbered ?_) waitingParent
      · exact ⟨leaves.consistent, leaves.ready, leaves.work, leaves.numbers⟩
      · intro _
        rw [lowOf_setLow_self, numberOf_setLow]
        exact Nat.le_trans (Nat.min_le_right _ _) (Nat.le_of_eq root)

theorem leave_inner (consistent : Consistent g s) (shape : s.stack = left ++ i :: older)
    (frame : Frame g s i (g.dependenciesOf i) left older) (waiting : Waiting g s i s.work older)
    (stays : s.lowOf i < s.numberOf i) :
    ∃ later, s.passDown (s.lowOf i) = .ok later ∧ Leaves g s later := by
  have numbered := consistent.stackNumbered i (by simp [shape])
  obtain ⟨k, inFrame, number, reached⟩ := frame.lowReached
  have isOlder : k ∈ older := by
    rcases List.mem_cons.mp inFrame with rfl | below
    · omega
    · exact below
  generalize rest : s.work = work at waiting
  cases waiting with
  | done => simp at isOlder
  | @waits _ parent next work parentLeft parentOlder parentFrame entry waitingParent =>
      have edge : g.HasEdge parent i := List.mem_of_getElem? entry
      have parentShape : s.stack = (left ++ i :: parentLeft) ++ parent :: parentOlder := by
        rw [shape, List.append_assoc, List.cons_append]
      have parentReaches : s.lowOf i < s.lowOf parent → ∃ j ∈ parent :: parentOlder,
          s.numberOf j = s.lowOf i ∧ ReflTransGen g.HasEdge parent j := by
        intro less
        refine ⟨k, ?_, number, reached.head edge⟩
        rcases List.mem_append.mp isOlder with isLeft | below
        · have above := (consistent.above parentShape).1 k (by simp [isLeft])
          have parentLow := parentFrame.lowAtMost
          omega
        · exact below
      obtain ⟨computed, lowered⟩ := parentFrame.lowered parentReaches
      have relowered := relowered_setLow (s := s) parent (min (s.lowOf parent) (s.lowOf i))
      refine ⟨_, by rw [passDown, rest]; exact computed, ?_⟩
      refine leaves_to consistent rest parentShape relowered entry ?_ waitingParent
      refine Frame.absorb relowered frame lowered numbered edge ?_ stays
      rw [lowOf_setLow_self]
      exact Nat.min_le_right _ _

theorem leave_spec (sound : g.Sound) (consistent : Consistent g s)
    (shape : s.stack = left ++ i :: older) (frame : Frame g s i (g.dependenciesOf i) left older)
    (waiting : Waiting g s i s.work older) :
    ∃ later, s.leave i = .ok later ∧ Leaves g s later := by
  obtain ⟨number, numberKnown⟩ := consistent.stackNumbered i (by simp [shape])
  obtain ⟨low, lowKnown⟩ := frame.lowKnown
  have numberIs := numberOf_eq numberKnown
  have lowIs := lowOf_eq lowKnown
  by_cases root : low = number
  · obtain ⟨later, computed, leaves⟩ :=
      leave_root sound consistent shape frame waiting (by omega)
    refine ⟨later, ?_, leaves⟩
    simp only [leave, numberKnown, lowKnown, if_pos root, close_eq shape (consistent.outside shape).1]
    rw [← lowIs]
    exact computed
  · have atMost := frame.lowAtMost
    obtain ⟨later, computed, leaves⟩ :=
      leave_inner consistent shape frame waiting (by omega)
    refine ⟨later, ?_, leaves⟩
    simp only [leave, numberKnown, lowKnown, if_neg root]
    rw [← lowIs]
    exact computed

end Leaving

end Groundwork.Graph.Search
