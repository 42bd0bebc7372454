import Groundwork.Proofs.Planning.Proposals
import Groundwork.Proofs.Text.Distinct

/-!
How phases come from the items of an answer. Items without an id, a title or a description are as good as
absent, and of the others the first ones become phases, as many as are wanted. Their ids tell their
positions from then on, and a dependency leads to the last earlier phase that was given its id.
-/

namespace Groundwork.Planning

section Ids

theorem phaseId_injective : Function.Injective phaseId := by
  intro position other same
  have digits := congrArg String.toList ((String.append_right_inj _).mp same)
  rw [String.toList_ofList, String.toList_ofList] at digits
  have read := congrArg (fun cs => Nat.ofDigitChars 10 cs 0) digits
  simp only [Decimal.padLeft, Nat.ofDigitChars_append, Nat.ofDigitChars_replicate_zero, Nat.mul_zero,
    Nat.ofDigitChars_ten_toDigits] at read
  omega

theorem phaseId_eq (position : Nat) :
    phaseId position =
      "phase-" ++ (if position < 9 then "0" else "") ++ toString (position + 1) := by
  have short := Nat.length_toDigits_le_iff (b := 10) (n := position + 1) (k := 1) (by decide) (by decide)
  have some := Nat.length_toDigits_pos (b := 10) (n := position + 1)
  rw [phaseId, String.append_assoc, String.append_right_inj]
  apply String.toList_injective
  rw [String.toList_ofList, String.toList_append, Nat.toString_eq_ofList_toDigits,
    String.toList_ofList, Decimal.padLeft]
  split
  · have one : (Nat.toDigits 10 (position + 1)).length = 1 := by omega
    rw [one]
    rfl
  · have many : 2 ≤ (Nat.toDigits 10 (position + 1)).length := by omega
    rw [Nat.sub_eq_zero_of_le many]
    rfl

end Ids

section Items

variable {allowed : List String} {limit : Int} {item : Json} {items : List Json} {position : Nat}
  {names : Renaming} {phases : List Phase}

def isComplete : Json → Bool
  | .obj m => hasRequired m
  | _ => false

theorem isComplete_iff : isComplete item = true ↔ ItemKind.of item ≠ .passedOver := by
  cases item with
  | obj m =>
      by_cases there : hasRequired m = true
      · by_cases lists : hasLists m = true <;> simp [isComplete, ItemKind.of, there, lists]
      · simp [isComplete, ItemKind.of, there]
  | null | bool | int | float | str | arr => simp [isComplete, ItemKind.of]

def renumber (allowed : List String) (names : Renaming) (position : Nat) : List Phase → List Phase
  | [] => []
  | given :: rest =>
    normalizePhase allowed ((given.id, phaseId position) :: names) position given ::
      renumber allowed ((given.id, phaseId position) :: names) (position + 1) rest

theorem length_renumber (given : List Phase) :
    (renumber allowed names position given).length = given.length := by
  induction given generalizing names position with
  | nil => rfl
  | cons p rest ih => simp [renumber, ih]

/-- Taking phases is reading the first complete items and renumbering what is read. -/
theorem takePhases_eq_ok_iff : takePhases allowed limit items position names = .ok phases ↔
    ∃ given, List.Forall₂ Reads ((items.filter isComplete).take (limit - position).toNat) given ∧
      renumber allowed names position given = phases := by
  induction items generalizing position names phases with
  | nil => simp [takePhases, renumber]
  | cons item rest ih =>
      by_cases full : limit ≤ position
      · have none : (limit - position).toNat = 0 := by omega
        simp [takePhases_full full, none, renumber]
      · have room : (limit - position).toNat = (limit - (position + 1 : Nat)).toNat + 1 := by omega
        cases kind : ItemKind.of item with
        | usable =>
            obtain ⟨p, reads⟩ := exists_reads_iff.mpr kind
            have complete : isComplete item = true := isComplete_iff.mpr (by simp [kind])
            rw [takePhases_read allowed rest names full reads, List.filter_cons_of_pos complete, room,
              List.take_succ_cons]
            constructor
            · intro taken
              obtain ⟨others, next, rfl⟩ := ok_of_map taken
              obtain ⟨given, readsRest, rfl⟩ := ih.mp next
              exact ⟨p :: given, .cons reads readsRest, rfl⟩
            · rintro ⟨_, readsAll, rfl⟩
              obtain ⟨q, given, readsFirst, readsRest, rfl⟩ := List.forall₂_cons_left_iff.mp readsAll
              obtain rfl := reads.unique readsFirst
              rw [ih.mpr ⟨given, readsRest, rfl⟩]
              rfl
        | broken =>
            have complete : isComplete item = true := isComplete_iff.mpr (by simp [kind])
            rw [takePhases_broken full kind, List.filter_cons_of_pos complete, room,
              List.take_succ_cons]
            refine ⟨by simp, ?_⟩
            rintro ⟨_, readsAll, _⟩
            obtain ⟨q, _, readsFirst, _⟩ := List.forall₂_cons_left_iff.mp readsAll
            have usable := exists_reads_iff.mp ⟨q, readsFirst⟩
            simp [kind] at usable
        | passedOver =>
            have incomplete : ¬ isComplete item = true := by simp [isComplete_iff, kind]
            rw [takePhases_passedOver full kind, List.filter_cons_of_neg incomplete]
            exact ih

theorem normalizePhases_eq_ok_iff {answer : Json} :
    normalizePhases answer allowed limit = .ok phases ↔ ∃ items given, phaseItems? answer = some items ∧
      List.Forall₂ Reads ((items.filter isComplete).take limit.toNat) given ∧ given ≠ [] ∧
      renumber allowed [] 0 given = phases := by
  have start : limit - (0 : Nat) = limit := by omega
  have taken (items : List Json) : takePhases allowed limit items 0 [] = .ok phases ↔ ∃ given,
      List.Forall₂ Reads ((items.filter isComplete).take limit.toNat) given ∧
        renumber allowed [] 0 given = phases := by
    rw [takePhases_eq_ok_iff, start]
  constructor
  · intro made
    unfold normalizePhases at made
    split at made
    · simp at made
    · rename_i items listed
      split at made
      · simp at made
      · simp at made
      · rename_i found some made'
        cases made
        obtain ⟨given, reads, same⟩ := (taken items).mp made'
        refine ⟨items, given, listed, reads, ?_, same⟩
        rintro rfl
        exact some same.symm
  · rintro ⟨items, given, listed, reads, some, same⟩
    unfold normalizePhases
    simp only [listed, (taken items).mpr ⟨given, reads, same⟩]
    cases given with
    | nil => exact absurd rfl some
    | cons p rest =>
        subst same
        rfl

end Items

section Names

/-- Of the phases before, the last one that was given the id stands where the new id says. -/
def NamedLast (before : List Phase) (id new : String) : Prop :=
  ∃ earlier q later, before = earlier ++ q :: later ∧ q.id = id ∧ (∀ r ∈ later, r.id ≠ id) ∧
    new = phaseId earlier.length

variable {before : List Phase} {own : Phase} {id new : String} {names : Renaming}

theorem concat_eq_split {α : Type} {xs front back : List α} {x y : α}
    (same : xs ++ [x] = front ++ y :: back) :
    (front = xs ∧ y = x ∧ back = []) ∨ ∃ between, xs = front ++ y :: between ∧ back = between ++ [x] := by
  rcases List.eq_nil_or_concat' back with rfl | ⟨between, last, rfl⟩
  · obtain ⟨fronts, lasts⟩ := List.append_inj' same rfl
    exact Or.inl ⟨fronts.symm, (List.cons.inj lasts).1.symm, rfl⟩
  · rw [← List.cons_append, ← List.append_assoc] at same
    obtain ⟨fronts, lasts⟩ := List.append_inj' same rfl
    exact Or.inr ⟨between, fronts, by rw [lasts]⟩

theorem namedLast_concat_self (before : List Phase) (own : Phase) :
    NamedLast (before ++ [own]) own.id new ↔ new = phaseId before.length := by
  constructor
  · rintro ⟨earlier, q, later, same, named, outside, rfl⟩
    rcases concat_eq_split same with ⟨rfl, _, _⟩ | ⟨between, _, rfl⟩
    · rfl
    · exact absurd rfl (outside own (by simp))
  · rintro rfl
    exact ⟨before, own, [], rfl, rfl, by simp, rfl⟩

theorem namedLast_concat_of_ne (other : own.id ≠ id) :
    NamedLast (before ++ [own]) id new ↔ NamedLast before id new := by
  constructor
  · rintro ⟨earlier, q, later, same, named, outside, rfl⟩
    rcases concat_eq_split same with ⟨_, rfl, _⟩ | ⟨between, within, rfl⟩
    · exact absurd named other
    · exact ⟨earlier, q, between, within, named,
        fun r member => outside r (List.mem_append_left _ member), rfl⟩
  · rintro ⟨earlier, q, later, rfl, named, outside, rfl⟩
    refine ⟨earlier, q, later ++ [own], by simp, named, ?_, rfl⟩
    intro r member
    rcases List.mem_append.mp member with old | last
    · exact outside r old
    · rwa [List.mem_singleton.mp last]

theorem NamedLast.mem (named : NamedLast before id new) : id ∈ before.map (·.id) := by
  obtain ⟨earlier, q, later, rfl, rfl, _⟩ := named
  simp

theorem exists_namedLast (member : id ∈ before.map (·.id)) : ∃ new, NamedLast before id new := by
  induction before using List.reverseRecOn with
  | nil => simp at member
  | append_singleton before own ih =>
      by_cases same : own.id = id
      · subst same
        exact ⟨_, (namedLast_concat_self before own).mpr rfl⟩
      · have old : id ∈ before.map (·.id) := by simpa [Ne.symm same] using member
        obtain ⟨new, named⟩ := ih old
        exact ⟨new, (namedLast_concat_of_ne same).mpr named⟩

theorem NamedLast.ne_next (named : NamedLast before id new) : new ≠ phaseId before.length := by
  obtain ⟨earlier, q, later, rfl, _, _, rfl⟩ := named
  intro same
  have length := phaseId_injective same
  simp at length

def Tells (names : Renaming) (before : List Phase) : Prop :=
  ∀ id new, List.lookup id names = some new ↔ NamedLast before id new

theorem tells_nil : Tells [] [] := by
  intro id new
  simp [NamedLast]

theorem Tells.next (tells : Tells names before) (own : Phase) :
    Tells ((own.id, phaseId before.length) :: names) (before ++ [own]) := by
  intro id new
  rw [List.lookup_cons]
  by_cases same : own.id = id
  · subst same
    rw [namedLast_concat_self, beq_self_eq_true]
    simp [eq_comm]
  · rw [namedLast_concat_of_ne same, beq_false_of_ne (Ne.symm same)]
    exact tells id new

theorem renameDependencies_kept {own : String} {ids : List String}
    (found : List.lookup id names = some new) (other : new ≠ own) :
    renameDependencies names own (id :: ids) = new :: renameDependencies names own ids := by
  simp [renameDependencies, found, other]

theorem renameDependencies_dropped {own : String} {ids : List String}
    (onlyOwn : ∀ new, List.lookup id names = some new → new = own) :
    renameDependencies names own (id :: ids) = renameDependencies names own ids := by
  cases found : List.lookup id names with
  | none => simp [renameDependencies, found]
  | some new => simp [renameDependencies, found, onlyOwn new found]

theorem renameDependencies_known (tells : Tells names before) (own : Phase) (ids : List String) :
    List.Forall₂ (NamedLast before)
      (ids.filter fun id => id != own.id && (before.map (·.id)).contains id)
      (renameDependencies ((own.id, phaseId before.length) :: names) (phaseId before.length) ids) := by
  induction ids with
  | nil => exact .nil
  | cons id ids ih =>
      by_cases same : id = own.id
      · -- The phase's own id means the phase itself now, even if an earlier phase was given it too.
        rw [List.filter_cons_of_neg (by simp [same]), renameDependencies_dropped]
        · exact ih
        · intro new found
          rw [same, List.lookup_cons_self] at found
          exact (Option.some.inj found).symm
      · have others : List.lookup id ((own.id, phaseId before.length) :: names) =
            List.lookup id names := by rw [List.lookup_cons, beq_false_of_ne same]
        cases found : List.lookup id names with
        | none =>
            have unnamed : id ∉ before.map (·.id) := by
              intro member
              obtain ⟨new, named⟩ := exists_namedLast member
              simp [(tells id new).mpr named] at found
            rw [List.filter_cons_of_neg (by simpa [same] using unnamed),
              renameDependencies_dropped (by simp [others, found])]
            exact ih
        | some new =>
            have named := (tells id new).mp found
            rw [List.filter_cons_of_pos (by simpa [same] using named.mem),
              renameDependencies_kept (others.trans found) named.ne_next]
            exact .cons named ih

end Names

section Kept

structure KeptAs (allowed : List String) (before : List Phase) (given kept : Phase) : Prop where
  id : kept.id = "phase-" ++ (if before.length < 9 then "0" else "") ++ toString (before.length + 1)
  title : kept.title = given.title
  description : kept.description = given.description
  reasoning : kept.reasoning = given.reasoning
  files : ∀ path, path ∈ kept.relevantFiles ↔ path ∈ given.relevantFiles ∧ path ∈ allowed
  filesInOrder : kept.relevantFiles.Pairwise fun path other =>
    given.relevantFiles.idxOf path < given.relevantFiles.idxOf other
  dependencies : List.Forall₂ (NamedLast before)
    (given.dependencies.filter fun id => id != given.id && (before.map (·.id)).contains id)
    kept.dependencies
  complexity : kept.complexity = labelOr "medium" levels given.complexity
  priority : kept.priority = labelOr "medium" levels given.priority
  category : kept.category = labelOr "improvement" categories given.category

variable {allowed : List String} {before given phases : List Phase} {names : Renaming} {limit : Int}
  {answer : Json}

theorem normalizePhase_keptAs (tells : Tells names before) (own : Phase) :
    KeptAs allowed before own
      (normalizePhase allowed ((own.id, phaseId before.length) :: names) before.length own) where
  id := phaseId_eq before.length
  title := rfl
  description := rfl
  reasoning := rfl
  files path := by simp [normalizePhase, Text.mem_distinct]
  filesInOrder := (Text.distinct_pairwise _).filter _
  dependencies := renameDependencies_known tells own own.dependencies
  complexity := rfl
  priority := rfl
  category := rfl

theorem renumber_keptAs (tells : Tells names before) {offset : Nat} {own : Phase}
    (there : given[offset]? = some own) :
    ∃ p, (renumber allowed names before.length given)[offset]? = some p ∧
      KeptAs allowed (before ++ given.take offset) own p := by
  induction given generalizing before names offset with
  | nil => simp at there
  | cons first rest ih =>
      cases offset with
      | zero =>
          obtain rfl : first = own := by simpa using there
          exact ⟨_, rfl, by simpa using normalizePhase_keptAs tells first⟩
      | succ offset =>
          have later : rest[offset]? = some own := by simpa using there
          obtain ⟨p, found, kept⟩ := ih (tells.next first) later
          rw [List.length_append] at found
          rw [List.append_assoc] at kept
          exact ⟨p, found, kept⟩

/-- The phases of an answer are its first complete items, each with an id for its position, its allowed
files and its dependencies on the items before it. Other items might as well not be there. -/
theorem normalizePhases_fromItems (made : normalizePhases answer allowed limit = .ok phases) :
    ∃ items given, phaseItems? answer = some items ∧
      List.Forall₂ Reads ((items.filter isComplete).take limit.toNat) given ∧
      phases.length = given.length ∧
      (∀ position own, given[position]? = some own → ∃ p, phases[position]? = some p ∧
        KeptAs allowed (given.take position) own p) ∧
      ∀ other more, phaseItems? other = some more → more.filter isComplete = items.filter isComplete →
        normalizePhases other allowed limit = .ok phases := by
  obtain ⟨items, given, listed, reads, some, rfl⟩ := normalizePhases_eq_ok_iff.mp made
  refine ⟨items, given, listed, reads, length_renumber given, ?_, ?_⟩
  · intro position own there
    simpa using renumber_keptAs tells_nil there
  · intro other more listedMore same
    exact normalizePhases_eq_ok_iff.mpr ⟨more, given, listedMore, same ▸ reads, some, rfl⟩

def tangledItems : List Json :=
  let item (id : Json) (files dependencies : List String) : Json :=
    .obj [("id", id), ("title", .str "Patch"), ("description", .str "Fix"),
      ("relevantFiles", .strings files), ("dependencies", .strings dependencies)]
  [item (.str "a") ["x.ts", "made/up.ts", "x.ts"] ["b"], .str "junk",
    item (.str "a") [] ["a", "gone"], .obj [("title", .str "Patch")],
    item (.str "b") ["y.ts"] ["a", "b", "a"], item (.int 5) ["y.ts", "x.ts"] ["b", "5", "a"],
    item (.str "c") [] []]

theorem tangledItems_normalized : ∃ phases,
    normalizePhases (.arr tangledItems) ["x.ts", "y.ts"] 4 = .ok phases ∧
    phases.map (fun p => (p.id, p.relevantFiles, p.dependencies)) =
      [("phase-01", ["x.ts"], []), ("phase-02", [], []),
        ("phase-03", ["y.ts"], ["phase-02", "phase-02"]),
        ("phase-04", ["y.ts", "x.ts"], ["phase-03", "phase-02"])] := by
  apply ok_of_shown
  decide +kernel

theorem normalizePhases_fromItems_tangled : ∃ phases,
    normalizePhases (.arr tangledItems) ["x.ts", "y.ts"] 4 = .ok phases ∧
    phases.map (fun p => (p.id, p.relevantFiles, p.dependencies)) =
      [("phase-01", ["x.ts"], []), ("phase-02", [], []),
        ("phase-03", ["y.ts"], ["phase-02", "phase-02"]),
        ("phase-04", ["y.ts", "x.ts"], ["phase-03", "phase-02"])] ∧
    ∃ items given, phaseItems? (.arr tangledItems) = some items ∧
      List.Forall₂ Reads ((items.filter isComplete).take 4) given ∧ phases.length = given.length ∧
      ∀ position own, given[position]? = some own → ∃ p, phases[position]? = some p ∧
        KeptAs ["x.ts", "y.ts"] (given.take position) own p := by
  obtain ⟨phases, made, shown⟩ := tangledItems_normalized
  obtain ⟨items, given, listed, reads, length, kept, _⟩ := normalizePhases_fromItems made
  exact ⟨phases, made, shown, items, given, listed, reads, length, kept⟩

end Kept

end Groundwork.Planning
