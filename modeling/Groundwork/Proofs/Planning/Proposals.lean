import Groundwork.Proofs.Planning.Sequence

/-!
Phases that a provider proposes. Usable items are taken until there are enough of them, a broken item
before that ends everything, and all others are passed over. What is taken fits from the first position
on.
-/

namespace Groundwork.Planning

inductive ItemKind where
  | usable
  | broken
  | passedOver
  deriving DecidableEq, Repr

def isIterable : Json → Bool
  | .arr _ => true
  | .str _ => true
  | .obj _ => true
  | _ => false

def hasRequired (m : Json.Members) : Bool :=
  ["id", "title", "description"].all fun name => (m.lookup name).isSome

def hasLists (m : Json.Members) : Bool :=
  ["relevantFiles", "dependencies"].all fun name => (m.lookup name).all isIterable

def ItemKind.of : Json → ItemKind
  | .obj m => if !hasRequired m then passedOver else if hasLists m then usable else broken
  | _ => passedOver

section Reading

variable {m : Json.Members}

theorem required_of_isSome {name : String} (there : (m.lookup name).isSome = true) :
    ∃ s, Phase.required name m = .ok s := by
  obtain ⟨value, found⟩ := Option.isSome_iff_exists.mp there
  exact ⟨value.shown, by rw [Phase.required, found]⟩

theorem required_of_not_isSome {name : String} (absent : ¬ (m.lookup name).isSome = true) :
    Phase.required name m = .error .missingKey := by
  rw [Phase.required, Option.not_isSome_iff_eq_none.mp absent]

theorem listMember_of_all {name : String} (iterable : (m.lookup name).all isIterable = true) :
    ∃ texts, Phase.listMember name m = .ok texts := by
  unfold Phase.listMember
  cases found : m.lookup name with
  | none => exact ⟨[], rfl⟩
  | some value =>
      rw [found, Option.all_some] at iterable
      cases value with
      | arr | str | obj => exact ⟨_, rfl⟩
      | null | bool | int | float => simp [isIterable] at iterable

theorem listMember_of_not_all {name : String} (stuck : ¬ (m.lookup name).all isIterable = true) :
    Phase.listMember name m = .error .wrongKind := by
  unfold Phase.listMember
  cases found : m.lookup name with
  | none => simp [found] at stuck
  | some value =>
      rw [found, Option.all_some] at stuck
      cases value with
      | arr | str | obj => simp [isIterable] at stuck
      | null | bool | int | float => rfl

theorem ofMembers_passedOver (absent : ¬ hasRequired m = true) :
    Phase.ofMembers m = .error .missingKey := by
  unfold Phase.ofMembers
  by_cases id : (m.lookup "id").isSome = true
  · obtain ⟨_, readId⟩ := required_of_isSome id
    by_cases title : (m.lookup "title").isSome = true
    · obtain ⟨_, readTitle⟩ := required_of_isSome title
      by_cases description : (m.lookup "description").isSome = true
      · simp [hasRequired, id, title, description] at absent
      · simp [readId, readTitle, required_of_not_isSome description, bind, Except.bind]
    · simp [readId, required_of_not_isSome title, bind, Except.bind]
  · simp [required_of_not_isSome id, bind, Except.bind]

theorem ofMembers_required (there : hasRequired m = true) : ∃ id title description,
    Phase.required "id" m = .ok id ∧ Phase.required "title" m = .ok title ∧
      Phase.required "description" m = .ok description := by
  simp only [hasRequired, List.all_cons, List.all_nil, Bool.and_true, Bool.and_eq_true] at there
  obtain ⟨id, readId⟩ := required_of_isSome there.1
  obtain ⟨title, readTitle⟩ := required_of_isSome there.2.1
  obtain ⟨description, readDescription⟩ := required_of_isSome there.2.2
  exact ⟨id, title, description, readId, readTitle, readDescription⟩

theorem ofMembers_usable (there : hasRequired m = true) (lists : hasLists m = true) :
    ∃ p, Phase.ofMembers m = .ok p := by
  obtain ⟨_, _, _, readId, readTitle, readDescription⟩ := ofMembers_required there
  simp only [hasLists, List.all_cons, List.all_nil, Bool.and_true, Bool.and_eq_true] at lists
  obtain ⟨_, readFiles⟩ := listMember_of_all lists.1
  obtain ⟨_, readDependencies⟩ := listMember_of_all lists.2
  unfold Phase.ofMembers
  rw [readId, readTitle, readDescription, readFiles, readDependencies]
  exact ⟨_, rfl⟩

theorem ofMembers_broken (there : hasRequired m = true) (lists : ¬ hasLists m = true) :
    Phase.ofMembers m = .error .wrongKind := by
  obtain ⟨_, _, _, readId, readTitle, readDescription⟩ := ofMembers_required there
  unfold Phase.ofMembers
  by_cases files : (m.lookup "relevantFiles").all isIterable = true
  · obtain ⟨_, readFiles⟩ := listMember_of_all files
    by_cases dependencies : (m.lookup "dependencies").all isIterable = true
    · simp [hasLists, files, dependencies] at lists
    · simp [readId, readTitle, readDescription, readFiles, listMember_of_not_all dependencies, bind,
        Except.bind]
  · simp [readId, readTitle, readDescription, listMember_of_not_all files, bind, Except.bind]

theorem ofMembers_cases (m : Json.Members) :
    (ItemKind.of (.obj m) = .usable ∧ ∃ p, Phase.ofMembers m = .ok p) ∨
      (ItemKind.of (.obj m) = .broken ∧ Phase.ofMembers m = .error .wrongKind) ∨
      (ItemKind.of (.obj m) = .passedOver ∧ Phase.ofMembers m = .error .missingKey) := by
  by_cases there : hasRequired m = true
  · by_cases lists : hasLists m = true
    · exact Or.inl ⟨by simp [ItemKind.of, there, lists], ofMembers_usable there lists⟩
    · exact Or.inr (Or.inl ⟨by simp [ItemKind.of, there, lists], ofMembers_broken there lists⟩)
  · exact Or.inr (Or.inr ⟨by simp [ItemKind.of, there], ofMembers_passedOver there⟩)

def Reads (item : Json) (given : Phase) : Prop :=
  ∃ m, item = .obj m ∧ Phase.ofMembers m = .ok given

theorem exists_reads_iff {item : Json} : (∃ given, Reads item given) ↔ ItemKind.of item = .usable := by
  constructor
  · rintro ⟨given, m, rfl, read⟩
    rcases ofMembers_cases m with ⟨usable, _⟩ | ⟨_, other⟩ | ⟨_, other⟩
    · exact usable
    · simp [read] at other
    · simp [read] at other
  · intro kind
    cases item with
    | obj m =>
        rcases ofMembers_cases m with ⟨_, given, read⟩ | ⟨other, _⟩ | ⟨other, _⟩
        · exact ⟨given, m, rfl, read⟩
        · simp [kind] at other
        · simp [kind] at other
    | null | bool | int | float | str | arr => simp [ItemKind.of] at kind

theorem Reads.unique {item : Json} {given other : Phase} (reads : Reads item given)
    (readsOther : Reads item other) : given = other := by
  obtain ⟨m, rfl, read⟩ := reads
  obtain ⟨_, same, readOther⟩ := readsOther
  cases same
  exact Except.ok.inj (read.symm.trans readOther)

end Reading

section Taking

variable {allowed : List String} {limit : Int} {item : Json} {rest items : List Json} {position : Nat}
  {names : Renaming}

theorem takePhases_full (full : limit ≤ position) :
    takePhases allowed limit items position names = .ok [] := by
  unfold takePhases
  cases items with
  | nil => rfl
  | cons item rest => exact if_pos full

theorem takePhases_read {given : Phase} (allowed : List String) (rest : List Json) (names : Renaming)
    (room : ¬ limit ≤ position) (reads : Reads item given) :
    takePhases allowed limit (item :: rest) position names =
      (takePhases allowed limit rest (position + 1) ((given.id, phaseId position) :: names)).map
        (normalizePhase allowed ((given.id, phaseId position) :: names) position given :: ·) := by
  obtain ⟨m, rfl, read⟩ := reads
  conv_lhs => unfold takePhases
  rw [if_neg room]
  simp only [read]
  cases takePhases allowed limit rest (position + 1) ((given.id, phaseId position) :: names) <;> rfl

theorem takePhases_usable (allowed : List String) (rest : List Json) (names : Renaming)
    (room : ¬ limit ≤ position) (kind : ItemKind.of item = .usable) : ∃ p,
    takePhases allowed limit (item :: rest) position names =
      (takePhases allowed limit rest (position + 1) ((p.id, phaseId position) :: names)).map
        (normalizePhase allowed ((p.id, phaseId position) :: names) position p :: ·) := by
  obtain ⟨p, reads⟩ := exists_reads_iff.mpr kind
  exact ⟨p, takePhases_read allowed rest names room reads⟩

theorem takePhases_broken (room : ¬ limit ≤ position) (kind : ItemKind.of item = .broken) :
    takePhases allowed limit (item :: rest) position names = .error .wrongKind := by
  unfold takePhases
  rw [if_neg room]
  cases item with
  | obj m =>
      rcases ofMembers_cases m with ⟨other, _⟩ | ⟨_, read⟩ | ⟨other, _⟩
      · simp [kind] at other
      · simp only [read]
      · simp [kind] at other
  | null | bool | int | float | str | arr => simp [ItemKind.of] at kind

theorem takePhases_passedOver (room : ¬ limit ≤ position) (kind : ItemKind.of item = .passedOver) :
    takePhases allowed limit (item :: rest) position names =
      takePhases allowed limit rest position names := by
  conv_lhs => unfold takePhases
  rw [if_neg room]
  cases item with
  | obj m =>
      rcases ofMembers_cases m with ⟨other, _⟩ | ⟨other, _⟩ | ⟨_, read⟩
      · simp [kind] at other
      · simp [kind] at other
      · simp only [read]
  | null | bool | int | float | str | arr => rfl

def usableCount (items : List Json) : Nat := items.countP fun item => ItemKind.of item = .usable

theorem usableCount_cons (item : Json) (rest : List Json) : usableCount (item :: rest) =
    usableCount rest + if ItemKind.of item = .usable then 1 else 0 := by
  simp [usableCount, List.countP_cons]

/-- A broken item is met while there is still room for phases. -/
def BreaksOff (room : Int) (items : List Json) : Prop :=
  ∃ before item after, items = before ++ item :: after ∧ ItemKind.of item = .broken ∧
    (usableCount before : Int) < room

theorem not_breaksOff_of_full {room : Int} (full : room ≤ 0) : ¬ BreaksOff room items := by
  rintro ⟨before, item, after, _, _, less⟩
  omega

theorem breaksOff_cons {room : Int} (some : 0 < room) : BreaksOff room (item :: rest) ↔
    ItemKind.of item = .broken ∨
      BreaksOff (if ItemKind.of item = .usable then room - 1 else room) rest := by
  constructor
  · rintro ⟨before, broken, after, same, kind, less⟩
    cases before with
    | nil =>
        obtain ⟨rfl, rfl⟩ := List.cons.inj same
        exact Or.inl kind
    | cons first before =>
        obtain ⟨rfl, rfl⟩ := List.cons.inj same
        refine Or.inr ⟨before, broken, after, rfl, kind, ?_⟩
        rw [usableCount_cons] at less
        split
        · rename_i usable
          rw [if_pos usable] at less
          omega
        · omega
  · rintro (kind | ⟨before, broken, after, rfl, kind, less⟩)
    · exact ⟨[], item, rest, rfl, kind, by simpa [usableCount] using some⟩
    · refine ⟨item :: before, broken, after, rfl, kind, ?_⟩
      rw [usableCount_cons]
      split at less
      · rename_i usable
        rw [if_pos usable]
        omega
      · rename_i other
        rw [if_neg other]
        omega

theorem takePhases_cases (allowed : List String) (limit : Int) (items : List Json) (position : Nat)
    (names : Renaming) :
    (BreaksOff (limit - position) items ∧
      takePhases allowed limit items position names = .error .wrongKind) ∨
    (¬ BreaksOff (limit - position) items ∧
      ∃ phases, takePhases allowed limit items position names = .ok phases ∧
        (phases ≠ [] ↔ position < limit ∧ ∃ item ∈ items, ItemKind.of item = .usable)) := by
  -- A usable item takes up room and the next position at the same time, so the room that is left and
  -- the position always add up to the limit.
  induction items generalizing position names with
  | nil => exact Or.inr ⟨by simp [BreaksOff], [], rfl, by simp⟩
  | cons item rest ih =>
      by_cases full : limit ≤ position
      · exact Or.inr ⟨not_breaksOff_of_full (by omega), [], takePhases_full full, by simp; omega⟩
      · rw [breaksOff_cons (by omega : 0 < limit - position)]
        cases kind : ItemKind.of item with
        | broken => exact Or.inl ⟨Or.inl rfl, takePhases_broken full kind⟩
        | usable =>
            obtain ⟨p, takes⟩ := takePhases_usable allowed rest names full kind
            have less : limit - position - 1 = limit - (position + 1 : Nat) := by omega
            rw [takes, if_pos rfl, less]
            rcases ih (position + 1) ((p.id, phaseId position) :: names) with
              ⟨breaks, failed⟩ | ⟨whole, phases, made, _⟩
            · exact Or.inl ⟨Or.inr breaks, by rw [failed]; rfl⟩
            · refine Or.inr ⟨by simpa using whole, _, by rw [made]; rfl, ?_⟩
              simp [kind]
              omega
        | passedOver =>
            rw [takePhases_passedOver full kind, if_neg (by simp)]
            simpa [kind] using ih position names

end Taking

section Fitting

theorem labelOr_valid {texts : List String} {default : String} (valid : default ∈ texts)
    (label : Json) : ∃ s ∈ texts, labelOr default texts label = .str s := by
  unfold labelOr
  split
  · rename_i known
    cases label with
    | str s => exact ⟨s, by simpa [isLabel] using known, rfl⟩
    | null | bool | int | float | arr | obj => simp [isLabel] at known
  · exact ⟨default, valid, rfl⟩

def Before (position : Nat) (names : Renaming) : Prop :=
  ∀ entry ∈ names, ∃ earlier < position, entry.2 = phaseId earlier

variable {allowed : List String} {position : Nat} {names : Renaming}

theorem Before.next (before : Before position names) (id : String) :
    Before (position + 1) ((id, phaseId position) :: names) := by
  intro entry member
  rcases List.mem_cons.mp member with rfl | old
  · exact ⟨position, Nat.lt_succ_self position, rfl⟩
  · obtain ⟨earlier, less, same⟩ := before entry old
    exact ⟨earlier, Nat.lt_succ_of_lt less, same⟩

theorem mem_renameDependencies (known : Before (position + 1) names) {dependencies : List String}
    {d : String} (member : d ∈ renameDependencies names (phaseId position) dependencies) :
    ∃ earlier < position, d = phaseId earlier := by
  simp only [renameDependencies, List.mem_filter, List.mem_filterMap, bne_iff_ne] at member
  obtain ⟨⟨id, _, found⟩, notOwn⟩ := member
  obtain ⟨before, after, rfl, _⟩ := List.lookup_eq_some_iff.mp found
  obtain ⟨earlier, less, rfl⟩ := known (id, d) (by simp)
  have different : earlier ≠ position := fun same => notOwn (same ▸ rfl)
  exact ⟨earlier, by omega, rfl⟩

theorem normalizePhase_fits (known : Before (position + 1) names) (p : Phase) :
    FitsAt allowed position (normalizePhase allowed names position p) where
  id := rfl
  dependencies _ member := mem_renameDependencies known member
  files := by
    refine ⟨(Text.distinct_nodup _).filter _, ?_⟩
    intro path member
    simpa using (List.mem_filter.mp member).2
  complexity := labelOr_valid (by decide) p.complexity
  priority := labelOr_valid (by decide) p.priority
  category := labelOr_valid (by decide) p.category

theorem takePhases_fit {limit : Int} (items : List Json) {phases : List Phase}
    (before : Before position names)
    (taken : takePhases allowed limit items position names = .ok phases) :
    Fit allowed position phases := by
  induction items generalizing position names phases with
  | nil =>
      cases taken
      exact .nil position
  | cons item rest ih =>
      by_cases full : limit ≤ position
      · rw [takePhases_full full] at taken
        cases taken
        exact .nil position
      · cases kind : ItemKind.of item with
        | usable =>
            obtain ⟨p, takes⟩ := takePhases_usable allowed rest names full kind
            rw [takes] at taken
            obtain ⟨others, next, rfl⟩ := ok_of_map taken
            exact .cons (normalizePhase_fits (before.next p.id) p) (ih (before.next p.id) next)
        | broken => simp [takePhases_broken full kind] at taken
        | passedOver =>
            rw [takePhases_passedOver full kind] at taken
            exact ih before taken

end Fitting

end Groundwork.Planning
