import Groundwork.Proofs.Request.Shapes
import Groundwork.Request.Model

/-!
Which places a check reports. A check follows a shape if it reports the places that are violated, and no
others; it may only be silent about what is in a list that it reports as too long.
Checks that follow shapes are put together to one that follows the shape of the whole.
-/

namespace Groundwork.Request

variable {α β : Type}

def Reported (result : Except (List Violation) α) (path : List String) : Prop :=
  ∃ violations, result = .error violations ∧ ∃ v ∈ violations, v.path = path

section Results

variable {result : Except (List Violation) α} {path : List String}

theorem not_reported_ok {a : α} : ¬ Reported (.ok a : Except (List Violation) α) path := by
  rintro ⟨_, ⟨⟩, _⟩

theorem reported_error {violations : List Violation} :
    Reported (.error violations : Except (List Violation) α) path ↔ ∃ v ∈ violations, v.path = path :=
  ⟨fun ⟨_, same, there⟩ => Except.error.inj same ▸ there, fun there => ⟨_, rfl, there⟩⟩

theorem reported_fail {problem : Problem} : Reported (fail problem : Except (List Violation) α) path ↔
    path = [] := by
  simp [fail, reported_error, eq_comm]

theorem reported_map {f : α → β} : Reported (result.map f) path ↔ Reported result path := by
  cases result with
  | ok a => exact iff_of_false not_reported_ok not_reported_ok
  | error violations => exact reported_error.trans reported_error.symm

theorem reported_within {step : String} : Reported (within step result) path ↔
    ∃ below, path = step :: below ∧ Reported result below := by
  cases result with
  | ok a => exact iff_of_false not_reported_ok fun ⟨_, _, reported⟩ => not_reported_ok reported
  | error violations =>
      simp only [within, reported_error, List.mem_map]
      constructor
      · rintro ⟨_, ⟨v, member, rfl⟩, rfl⟩
        exact ⟨v.path, rfl, v, member, rfl⟩
      · rintro ⟨_, rfl, v, member, rfl⟩
        exact ⟨_, ⟨v, member, rfl⟩, rfl⟩

theorem reported_both {other : Except (List Violation) β} :
    Reported (both result other) path ↔ Reported result path ∨ Reported other path := by
  cases result <;> cases other <;>
    simp [both, reported_error, not_reported_ok, or_and_right, exists_or]

theorem both_ne_error_nil {other : Except (List Violation) β} (first : result ≠ .error [])
    (second : other ≠ .error []) : both result other ≠ .error [] := by
  cases result <;> cases other <;> simp_all [both]

theorem within_ne_error_nil {step : String} (speaks : result ≠ .error []) :
    within step result ≠ .error [] := by
  cases result <;> simp_all [within]

theorem map_ne_error_nil {f : α → β} (speaks : result ≠ .error []) : result.map f ≠ .error [] := by
  cases result <;> simp_all [Except.map]

end Results

/-- The place is in a list that is reported, and that has more items than are declared. -/
def Behind (result : Except (List Violation) α) (shape : Shape) (v : Json) (path : List String) : Prop :=
  ∃ above step below, path = above ++ step :: below ∧ Overfull shape v above ∧ Reported result above

def Answered (result : Except (List Violation) α) (shape : Shape) (v : Json) (path : List String) : Prop :=
  Reported result path ∨ Behind result shape v path

theorem Answered.of_part {result : Except (List Violation) α} {whole : Except (List Violation) β}
    {shape outer : Shape} {v w : Json} {path : List String}
    (answered : Answered result shape v path) (front : List String)
    (reports : ∀ {below}, Reported result below → Reported whole (front ++ below))
    (leads : ∀ {below inner found}, Leads shape v below inner found →
      Leads outer w (front ++ below) inner found) : Answered whole outer w (front ++ path) := by
  rcases answered with reported | ⟨above, step, below, rfl, ⟨least, most, item, items, inner, more⟩, reported⟩
  · exact Or.inl (reports reported)
  · exact Or.inr ⟨front ++ above, step, below, (List.append_assoc ..).symm,
      ⟨least, most, item, items, leads inner, more⟩, reports reported⟩

structure Follows (check : Json → Except (List Violation) α) (shape : Shape) : Prop where
  speaks : ∀ v, check v ≠ .error []
  sound : ∀ {v path}, Reported (check v) path → Violated shape v path
  complete : ∀ {v path}, Violated shape v path → Answered (check v) shape v path

section Leaves

theorem Follows.of_leaf {check : Json → Except (List Violation) α} {shape : Shape}
    (leaf : ∀ {v path}, Violated shape v path ↔ path = [] ∧ ¬ shape.Holds v)
    (decides : ∀ v, (∃ a, check v = .ok a) ∧ shape.Holds v ∨
      (∃ problem, check v = fail problem) ∧ ¬ shape.Holds v) : Follows check shape where
  speaks v := by
    rcases decides v with ⟨⟨a, accepted⟩, -⟩ | ⟨⟨problem, refused⟩, -⟩
    · simp [accepted]
    · simp [refused, fail]
  sound := by
    intro v path reported
    rcases decides v with ⟨⟨a, accepted⟩, -⟩ | ⟨⟨problem, refused⟩, broken⟩
    · exact absurd (accepted ▸ reported) not_reported_ok
    · exact leaf.mpr ⟨reported_fail.mp (refused ▸ reported), broken⟩
  complete := by
    intro v path violated
    obtain ⟨rfl, broken⟩ := leaf.mp violated
    rcases decides v with ⟨-, holds⟩ | ⟨⟨problem, refused⟩, -⟩
    · exact absurd holds broken
    · exact Or.inl (refused ▸ reported_fail.mpr rfl)

theorem textBetween_follows (least : Nat) (most : Option Nat) :
    Follows (textBetween least most) (.text least most) := by
  refine .of_leaf violated_text fun v => ?_
  cases v with
  | str s =>
      by_cases short : s.toList.length < least
      · refine Or.inr ⟨⟨_, if_pos short⟩, ?_⟩
        rintro ⟨_, ⟨⟩, enough, _⟩
        omega
      · cases most with
        | none =>
            refine Or.inl ⟨⟨s, ?_⟩, s, rfl, by omega, by simp⟩
            simp only [textBetween, if_neg short]
        | some most =>
            by_cases long : most < s.toList.length
            · refine Or.inr ⟨⟨.tooLong most, ?_⟩, ?_⟩
              · simp only [textBetween, if_neg short, if_pos long]
              · rintro ⟨_, ⟨⟩, -, bounded⟩
                exact absurd (bounded most rfl) (by omega)
            · refine Or.inl ⟨⟨s, ?_⟩, s, rfl, by omega, by rintro _ ⟨⟩; omega⟩
              simp only [textBetween, if_neg short, if_neg long]
  | _ => exact Or.inr ⟨⟨_, rfl⟩, by rintro ⟨_, ⟨⟩, _⟩⟩

theorem among_follows (choices : List String) : Follows (among choices) (.among choices) := by
  refine .of_leaf violated_among fun v => ?_
  cases v with
  | str s =>
      by_cases chosen : s ∈ choices
      · exact Or.inl ⟨⟨s, by simp [among, chosen]⟩, s, chosen, rfl⟩
      · refine Or.inr ⟨⟨.notAmong choices, by simp [among, chosen]⟩, ?_⟩
        rintro ⟨_, there, ⟨⟩⟩
        exact chosen there
  | _ => exact Or.inr ⟨⟨_, rfl⟩, by rintro ⟨_, _, ⟨⟩⟩⟩

end Leaves

section Numbers

theorem number_decides (v : Json) :
    (∃ x, number v = .ok x) ∨ ∃ problem, number v = fail problem := by
  cases v with
  | str s =>
      cases read : Decimal.readFloat? s with
      | none => exact Or.inr ⟨.unreadableNumber, by simp only [number, read]⟩
      | some x => exact Or.inl ⟨x, by simp only [number, read]⟩
  | float x => exact Or.inl ⟨x, rfl⟩
  | int n => exact Or.inl ⟨_, rfl⟩
  | bool b => exact Or.inl ⟨_, rfl⟩
  | _ => exact Or.inr ⟨_, rfl⟩

theorem holds_number {least most : Int} {v : Json} {x : Float} (read : number v = .ok x) :
    (Shape.number least most).Holds v ↔ Float.ofInt least ≤ x ∧ x ≤ Float.ofInt most := by
  constructor
  · rintro ⟨y, same, bounded⟩
    obtain rfl := Except.ok.inj (read.symm.trans same)
    exact bounded
  · exact fun bounded => ⟨x, read, bounded⟩

theorem numberBetween_follows (least most : Int) :
    Follows (numberBetween least most) (.number least most) := by
  refine .of_leaf violated_number fun v => ?_
  rcases number_decides v with ⟨x, read⟩ | ⟨problem, unread⟩
  · have checked : numberBetween least most v =
        if !decide (x ≤ Float.ofInt most) then fail (.above most)
        else if !decide (Float.ofInt least ≤ x) then fail (.below least) else .ok x := by
      rw [numberBetween, read]
      rfl
    rw [checked, holds_number read]
    by_cases high : x ≤ Float.ofInt most
    · by_cases low : Float.ofInt least ≤ x
      · exact Or.inl ⟨⟨x, by simp [high, low]⟩, low, high⟩
      · exact Or.inr ⟨⟨.below least, by simp [high, low]⟩, fun within => low within.1⟩
    · exact Or.inr ⟨⟨.above most, by simp [high]⟩, fun within => high within.2⟩
  · refine Or.inr ⟨⟨problem, ?_⟩, ?_⟩
    · rw [numberBetween, unread]
      rfl
    · rintro ⟨x, same, -⟩
      rw [unread] at same
      cases same

end Numbers

section Parts

variable {check : Json → Except (List Violation) α} {shape : Shape}

theorem Follows.orNull (follows : Follows check shape) : Follows (orNull check) (.orNull shape) where
  speaks v := by
    cases v with
    | null => simp [Request.orNull]
    | _ => exact map_ne_error_nil (follows.speaks _)
  sound := by
    intro v path reported
    rw [violated_orNull]
    cases v with
    | null => exact absurd reported not_reported_ok
    | _ => exact ⟨by simp, follows.sound (reported_map.mp reported)⟩
  complete := by
    intro v path violated
    obtain ⟨given, violated⟩ := violated_orNull.mp violated
    refine (follows.complete violated).of_part [] (fun reported => ?_)
      fun leads => .unlessNull given leads
    cases v with
    | null => exact absurd rfl given
    | _ => exact reported_map.mpr reported

theorem reported_each {i : Nat} {items : List Json} {path : List String} :
    Reported (each check i items) path ↔ ∃ (k : Nat) (item : Json) (below : List String),
      items[k]? = some item ∧ path = toString (i + k) :: below ∧ Reported (check item) below := by
  induction items generalizing i with
  | nil =>
      simp only [each, List.getElem?_nil]
      exact iff_of_false not_reported_ok (by simp)
  | cons first rest ih =>
      rw [each, reported_map, reported_both, reported_within, ih]
      constructor
      · rintro (⟨below, rfl, reported⟩ | ⟨k, item, below, stands, rfl, reported⟩)
        · exact ⟨0, first, below, rfl, rfl, reported⟩
        · exact ⟨k + 1, item, below, stands, by rw [Nat.add_right_comm, Nat.add_assoc], reported⟩
      · rintro ⟨_ | k, item, below, stands, rfl, reported⟩
        · obtain rfl := Option.some.inj stands
          exact Or.inl ⟨below, rfl, reported⟩
        · exact Or.inr ⟨k, item, below, stands, by rw [Nat.add_right_comm, Nat.add_assoc], reported⟩

theorem each_ne_error_nil (speaks : ∀ v, check v ≠ .error []) (i : Nat) (items : List Json) :
    each check i items ≠ .error [] := by
  induction items generalizing i with
  | nil => simp [each]
  | cons first rest ih =>
      exact map_ne_error_nil (both_ne_error_nil (within_ne_error_nil (speaks first)) (ih (i + 1)))

theorem length_each {i : Nat} {items : List Json} {values : List α}
    (accepted : each check i items = .ok values) : values.length = items.length := by
  induction items generalizing i values with
  | nil => cases accepted; rfl
  | cons first rest ih =>
      rw [each] at accepted
      cases head : check first <;> cases tail : each check (i + 1) rest <;>
        simp [within, both, head, tail, Except.map] at accepted
      obtain rfl := accepted
      simp [ih tail]

section Items

variable {least : Nat} {most : Option Nat} {items : List Json} {path : List String}

theorem Follows.items_sound (follows : Follows check shape)
    (reported : Reported (each check 0 items) path) :
    Violated (.list least most shape) (.arr items) path := by
  obtain ⟨k, item, below, stands, rfl, inner⟩ := reported_each.mp reported
  exact violated_list.mpr
    (Or.inr ⟨items, k, item, below, rfl, stands, by rw [Nat.zero_add], follows.sound inner⟩)

theorem Follows.items_complete (follows : Follows check shape) {k : Nat} {item : Json}
    {below : List String} (stands : items[k]? = some item) (violated : Violated shape item below) :
    Answered (each check 0 items) (.list least most shape) (.arr items) (toString k :: below) :=
  (follows.complete violated).of_part [toString k]
    (fun reported => reported_each.mpr ⟨k, item, _, stands, by rw [Nat.zero_add]; rfl, reported⟩)
    fun leads => .item stands leads

end Items

theorem Follows.list (follows : Follows check shape) :
    Follows (Request.list check) (.list 0 none shape) where
  speaks v := by
    cases v with
    | arr items => exact each_ne_error_nil follows.speaks 0 items
    | _ => simp [Request.list, fail]
  sound := by
    intro v path reported
    cases v with
    | arr items => exact follows.items_sound reported
    | _ => exact violated_list.mpr (Or.inl ⟨reported_fail.mp reported, by rintro ⟨_, ⟨⟩, _⟩⟩)
  complete := by
    intro v path violated
    rcases violated_list.mp violated with ⟨rfl, broken⟩ | ⟨items, k, item, below, rfl, stands, rfl, inner⟩
    · cases v with
      | arr items => exact absurd ⟨items, rfl, Nat.zero_le _, by simp⟩ broken
      | _ => exact Or.inl (reported_fail.mpr rfl)
    · exact follows.items_complete stands inner

section Bounds

variable {least most : Nat} {items : List Json} {path : List String}

theorem listBetween_overfull (more : most < items.length) :
    listBetween least most check (.arr items) = fail (.tooManyItems most items.length) :=
  if_pos more

theorem listBetween_items (enough : items.length ≤ most) :
    listBetween least most check (.arr items) = match each check 0 items with
      | .ok values =>
        if values.length < least then fail (.tooFewItems least values.length) else .ok values
      | .error violations => .error violations :=
  if_neg (Nat.not_lt.mpr enough)

theorem reported_listBetween (few : least ≤ 1) :
    Reported (listBetween least most check (.arr items)) path ↔
      path = [] ∧ ¬ (least ≤ items.length ∧ items.length ≤ most) ∨
      items.length ≤ most ∧ Reported (each check 0 items) path := by
  by_cases more : most < items.length
  · have exceeded : ¬ (least ≤ items.length ∧ items.length ≤ most) := by omega
    rw [listBetween_overfull more, reported_fail]
    exact ⟨fun whole => Or.inl ⟨whole, exceeded⟩, fun either => either.elim And.left (by omega)⟩
  · have enough := Nat.not_lt.mp more
    rw [listBetween_items enough]
    cases checked : each check 0 items with
    | ok values =>
        have same := length_each checked
        have nothing : ¬ Reported (.ok values : Except (List Violation) (List α)) path := not_reported_ok
        by_cases fewer : values.length < least
        · have short : ¬ (least ≤ items.length ∧ items.length ≤ most) := by omega
          simp only [if_pos fewer, reported_fail]
          exact ⟨fun whole => Or.inl ⟨whole, short⟩,
            fun either => either.elim And.left fun inner => absurd inner.2 nothing⟩
        · simp only [if_neg fewer]
          refine iff_of_false nothing ?_
          rintro (⟨-, beyond⟩ | ⟨-, inner⟩)
          · exact beyond ⟨by omega, enough⟩
          · exact nothing inner
    | error violations =>
        have some : items ≠ [] := by
          rintro rfl
          cases checked
        have many := List.length_pos_iff.mpr some
        refine ⟨fun inner => Or.inr ⟨enough, inner⟩, ?_⟩
        rintro (⟨-, beyond⟩ | ⟨-, inner⟩)
        · exact absurd ⟨by omega, enough⟩ beyond
        · exact inner

theorem listBetween_ne_error_nil (speaks : ∀ v, check v ≠ .error []) (v : Json) :
    listBetween least most check v ≠ .error [] := by
  cases v with
  | arr items =>
      by_cases more : most < items.length
      · simp [listBetween_overfull more, fail]
      · have inner := each_ne_error_nil speaks 0 items
        rw [listBetween_items (Nat.not_lt.mp more)]
        cases checked : each check 0 items with
        | ok values =>
            dsimp only
            split <;> simp [fail]
        | error violations => rwa [checked] at inner
  | _ => simp [Request.listBetween, fail]

end Bounds

theorem Follows.listBetween (follows : Follows check shape) {least : Nat} (few : least ≤ 1) (most : Nat) :
    Follows (Request.listBetween least most check) (.list least (some most) shape) where
  speaks := listBetween_ne_error_nil follows.speaks
  sound := by
    intro v path reported
    cases v with
    | arr items =>
        rcases (reported_listBetween few).mp reported with ⟨rfl, beyond⟩ | ⟨-, inner⟩
        · refine violated_list.mpr (Or.inl ⟨rfl, ?_⟩)
          rintro ⟨_, ⟨⟩, enough, bounded⟩
          exact beyond ⟨enough, bounded most rfl⟩
        · exact follows.items_sound inner
    | _ => exact violated_list.mpr (Or.inl ⟨reported_fail.mp reported, by rintro ⟨_, ⟨⟩, _⟩⟩)
  complete := by
    intro v path violated
    rcases violated_list.mp violated with ⟨rfl, broken⟩ | ⟨items, k, item, below, rfl, stands, rfl, inner⟩
    · cases v with
      | arr items =>
          refine Or.inl ((reported_listBetween few).mpr (Or.inl ⟨rfl, ?_⟩))
          rintro ⟨enough, bounded⟩
          exact broken ⟨items, rfl, enough, by rintro _ ⟨⟩; exact bounded⟩
      | _ => exact Or.inl (reported_fail.mpr rfl)
    · by_cases more : most < items.length
      · exact Or.inr ⟨[], toString k, below, rfl, ⟨least, most, shape, items, .here _ _, more⟩,
          (reported_listBetween few).mpr (Or.inl ⟨rfl, by omega⟩)⟩
      · exact (follows.items_complete stands inner).of_part []
          (fun reported => (reported_listBetween few).mpr (Or.inr ⟨Nat.not_lt.mp more, reported⟩)) id

end Parts

section Members

structure Covers (check : Json.Members → Except (List Violation) α)
    (slots : List (List String × Bool × Shape)) : Prop where
  speaks : ∀ m, check m ≠ .error []
  sound : ∀ {m path}, Reported (check m) path → ∃ slot ∈ slots, SlotViolated slot m path
  complete : ∀ {all m path slot}, slots ⊆ all → slot ∈ slots → SlotViolated slot m path →
    Answered (check m) (.object all) (.obj m) path

variable {check : Json → Except (List Violation) α} {shape : Shape} {names : List String}

theorem Covers.of_member {needed : Bool} {rest : Except (List Violation) α}
    (follows : Follows check shape)
    (missing : needed = true ∧ rest = within (names.headD "") (fail .required) ∨
      needed = false ∧ ∃ a, rest = .ok a) :
    Covers (fun m => match find? names m with
      | some (name, value) => within name (check value)
      | none => rest) [(names, needed, shape)] where
  speaks m := by
    cases found : find? names m with
    | some member => exact within_ne_error_nil (follows.speaks _)
    | none => rcases missing with ⟨-, rfl⟩ | ⟨-, a, rfl⟩ <;> simp [within, fail]
  sound := by
    intro m path reported
    refine ⟨_, List.mem_singleton_self _, ?_⟩
    cases found : find? names m with
    | some member =>
        rw [found] at reported
        obtain ⟨below, rfl, inner⟩ := reported_within.mp reported
        exact Or.inl ⟨_, _, below, found, rfl, follows.sound inner⟩
    | none =>
        rw [found] at reported
        rcases missing with ⟨rfl, rfl⟩ | ⟨-, a, rfl⟩
        · obtain ⟨below, rfl, inner⟩ := reported_within.mp reported
          obtain rfl := reported_fail.mp inner
          exact Or.inr ⟨rfl, found, rfl⟩
        · exact absurd reported not_reported_ok
  complete := by
    intro all m path slot within member violated
    obtain rfl := List.mem_singleton.mp member
    rcases violated with ⟨name, value, below, found, rfl, inner⟩ | ⟨isNeeded, found, rfl⟩
    · rw [found]
      exact (follows.complete inner).of_part [name]
        (fun reported => reported_within.mpr ⟨_, rfl, reported⟩)
        fun leads => .member (within member) found leads
    · rw [found]
      rcases missing with ⟨-, rfl⟩ | ⟨rfl, -⟩
      · exact Or.inl (reported_within.mpr ⟨[], rfl, reported_fail.mpr rfl⟩)
      · cases isNeeded

theorem Follows.field (follows : Follows check shape) (names : List String) :
    Covers (Request.field names check) [(names, true, shape)] :=
  .of_member follows (Or.inl ⟨rfl, rfl⟩)

theorem Follows.fieldOr (follows : Follows check shape) (names : List String) (default : α) :
    Covers (Request.fieldOr default names check) [(names, false, shape)] :=
  .of_member follows (Or.inr ⟨rfl, default, rfl⟩)

variable {members : Json.Members → Except (List Violation) α}
  {others : Json.Members → Except (List Violation) β} {slots more : List (List String × Bool × Shape)}

theorem Covers.map {f : α → β} (covers : Covers members slots) :
    Covers (fun m => (members m).map f) slots where
  speaks m := map_ne_error_nil (covers.speaks m)
  sound reported := covers.sound (reported_map.mp reported)
  complete within declared violated := (covers.complete within declared violated).of_part []
    reported_map.mpr id

theorem Covers.both (covers : Covers members slots) (rest : Covers others more) :
    Covers (fun m => both (members m) (others m)) (slots ++ more) where
  speaks m := both_ne_error_nil (covers.speaks m) (rest.speaks m)
  sound := by
    intro m path reported
    rcases reported_both.mp reported with first | second
    · obtain ⟨slot, declared, violated⟩ := covers.sound first
      exact ⟨slot, List.mem_append_left _ declared, violated⟩
    · obtain ⟨slot, declared, violated⟩ := rest.sound second
      exact ⟨slot, List.mem_append_right _ declared, violated⟩
  complete := by
    intro all m path slot within declared violated
    obtain ⟨first, second⟩ := List.append_subset.mp within
    rcases List.mem_append.mp declared with declared | declared
    · exact (covers.complete first declared violated).of_part []
        (fun reported => reported_both.mpr (Or.inl reported)) id
    · exact (rest.complete second declared violated).of_part []
        (fun reported => reported_both.mpr (Or.inr reported)) id

theorem Covers.object {model : String} (covers : Covers members slots) :
    Follows (Request.object model members) (.object slots) where
  speaks v := by
    cases v with
    | obj m => exact covers.speaks m
    | _ => simp [Request.object, fail]
  sound := by
    intro v path reported
    rw [violated_object]
    cases v with
    | obj m => exact Or.inr ⟨m, rfl, covers.sound reported⟩
    | _ => exact Or.inl ⟨reported_fail.mp reported, by simp⟩
  complete := by
    intro v path violated
    rcases violated_object.mp violated with ⟨rfl, other⟩ | ⟨m, rfl, slot, declared, violated⟩
    · cases v with
      | obj m => exact absurd rfl (other m)
      | _ => exact Or.inl (reported_fail.mpr rfl)
    · exact covers.complete (List.Subset.refl _) declared violated

end Members

end Groundwork.Request
