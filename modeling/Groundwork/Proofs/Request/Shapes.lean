import Groundwork.Request.Check
import Mathlib.Data.List.Basic

/-!
What is declared about data, apart from how it is checked. A shape says of each place in a value what has to
hold there; a place is reached by names of members and positions in lists. A place is violated if something is
missing there that is needed, or if something is there of which the shape does not hold.
-/

namespace Groundwork.Request

/-- What is declared about a value. A member of an object goes by one of its names, and is needed or not. -/
inductive Shape where
  | text (least : Nat) (most : Option Nat)
  | among (choices : List String)
  | number (least most : Int)
  | orNull (shape : Shape)
  | list (least : Nat) (most : Option Nat) (item : Shape)
  | object (slots : List (List String × Bool × Shape))

/-- What has to hold of a value by itself. The parts of a list or an object have places of their own. -/
def Shape.Holds : Shape → Json → Prop
  | .text least most, v =>
    ∃ s, v = .str s ∧ least ≤ s.toList.length ∧ ∀ bound ∈ most, s.toList.length ≤ bound
  | .among choices, v => ∃ s ∈ choices, v = .str s
  | .number least most, v =>
    ∃ x, Request.number v = .ok x ∧ Float.ofInt least ≤ x ∧ x ≤ Float.ofInt most
  | .orNull _, _ => True
  | .list least most _, v =>
    ∃ items, v = .arr items ∧ least ≤ items.length ∧ ∀ bound ∈ most, items.length ≤ bound
  | .object _, v => ∃ m, v = .obj m

/-- A path leads from a value of some shape to a place, at which another shape is declared, and to the value
that is there, if one is there. What is missing without being needed has no place. -/
inductive Leads : Shape → Json → List String → Shape → Option Json → Prop where
  | here (shape : Shape) (v : Json) : Leads shape v [] shape (some v)
  | unlessNull {shape inner : Shape} {v : Json} {path : List String} {found : Option Json}
      (given : v ≠ .null) (leads : Leads shape v path inner found) :
      Leads (.orNull shape) v path inner found
  | item {least : Nat} {most : Option Nat} {shape inner : Shape} {items : List Json} {k : Nat}
      {v : Json} {path : List String} {found : Option Json} (stands : items[k]? = some v)
      (leads : Leads shape v path inner found) :
      Leads (.list least most shape) (.arr items) (toString k :: path) inner found
  | member {slots : List (List String × Bool × Shape)} {names : List String} {needed : Bool}
      {shape inner : Shape} {m : Json.Members} {name : String} {v : Json} {path : List String}
      {found : Option Json} (declared : (names, needed, shape) ∈ slots)
      (given : find? names m = some (name, v)) (leads : Leads shape v path inner found) :
      Leads (.object slots) (.obj m) (name :: path) inner found
  | missing {slots : List (List String × Bool × Shape)} {names : List String} {shape : Shape}
      {m : Json.Members} (declared : (names, true, shape) ∈ slots) (absent : find? names m = none) :
      Leads (.object slots) (.obj m) [names.headD ""] shape none

def Violated (shape : Shape) (v : Json) (path : List String) : Prop :=
  ∃ inner found, Leads shape v path inner found ∧ ∀ value ∈ found, ¬ inner.Holds value

def Overfull (shape : Shape) (v : Json) (path : List String) : Prop :=
  ∃ least most item items, Leads shape v path (.list least (some most) item) (some (.arr items)) ∧
    most < items.length

section Places

variable {shape : Shape} {v : Json} {path : List String}

theorem violated_here (broken : ¬ shape.Holds v) : Violated shape v [] :=
  ⟨shape, some v, .here shape v, by rintro _ ⟨⟩; exact broken⟩

theorem violated_leaf (leaf : ∀ inner found, Leads shape v path inner found →
    path = [] ∧ inner = shape ∧ found = some v) :
    Violated shape v path ↔ path = [] ∧ ¬ shape.Holds v := by
  constructor
  · rintro ⟨inner, found, leads, broken⟩
    obtain ⟨rfl, rfl, rfl⟩ := leaf inner found leads
    exact ⟨rfl, broken v rfl⟩
  · rintro ⟨rfl, broken⟩
    exact violated_here broken

theorem violated_text {least : Nat} {most : Option Nat} :
    Violated (.text least most) v path ↔ path = [] ∧ ¬ (Shape.text least most).Holds v :=
  violated_leaf fun _ _ leads => by cases leads; exact ⟨rfl, rfl, rfl⟩

theorem violated_among {choices : List String} :
    Violated (.among choices) v path ↔ path = [] ∧ ¬ (Shape.among choices).Holds v :=
  violated_leaf fun _ _ leads => by cases leads; exact ⟨rfl, rfl, rfl⟩

theorem violated_number {least most : Int} :
    Violated (.number least most) v path ↔ path = [] ∧ ¬ (Shape.number least most).Holds v :=
  violated_leaf fun _ _ leads => by cases leads; exact ⟨rfl, rfl, rfl⟩

theorem violated_orNull : Violated (.orNull shape) v path ↔ v ≠ .null ∧ Violated shape v path := by
  constructor
  · rintro ⟨inner, found, leads, broken⟩
    cases leads with
    | here => exact absurd trivial (broken v rfl)
    | unlessNull given leads => exact ⟨given, inner, found, leads, broken⟩
  · rintro ⟨given, inner, found, leads, broken⟩
    exact ⟨inner, found, .unlessNull given leads, broken⟩

theorem violated_list {least : Nat} {most : Option Nat} :
    Violated (.list least most shape) v path ↔
      path = [] ∧ ¬ (Shape.list least most shape).Holds v ∨
      ∃ (items : List Json) (k : Nat) (item : Json) (below : List String),
        v = .arr items ∧ items[k]? = some item ∧ path = toString k :: below ∧
        Violated shape item below := by
  constructor
  · rintro ⟨inner, found, leads, broken⟩
    cases leads with
    | here => exact Or.inl ⟨rfl, broken v rfl⟩
    | item stands leads => exact Or.inr ⟨_, _, _, _, rfl, stands, rfl, inner, found, leads, broken⟩
  · rintro (⟨rfl, broken⟩ | ⟨items, k, item, below, rfl, stands, rfl, inner, found, leads, broken⟩)
    · exact violated_here broken
    · exact ⟨inner, found, .item stands leads, broken⟩

def SlotViolated (slot : List String × Bool × Shape) (m : Json.Members) (path : List String) : Prop :=
  (∃ name v below, find? slot.1 m = some (name, v) ∧ path = name :: below ∧
    Violated slot.2.2 v below) ∨
  slot.2.1 = true ∧ find? slot.1 m = none ∧ path = [slot.1.headD ""]

theorem violated_object {slots : List (List String × Bool × Shape)} :
    Violated (.object slots) v path ↔ path = [] ∧ (∀ m, v ≠ .obj m) ∨
      ∃ m, v = .obj m ∧ ∃ slot ∈ slots, SlotViolated slot m path := by
  constructor
  · rintro ⟨inner, found, leads, broken⟩
    cases leads with
    | here => exact Or.inl ⟨rfl, fun m same => broken v rfl ⟨m, same⟩⟩
    | member declared given leads =>
        exact Or.inr ⟨_, rfl, _, declared, Or.inl ⟨_, _, _, given, rfl, inner, found, leads, broken⟩⟩
    | missing declared none => exact Or.inr ⟨_, rfl, _, declared, Or.inr ⟨rfl, none, rfl⟩⟩
  · rintro (⟨rfl, other⟩ | ⟨m, rfl, ⟨names, needed, shape⟩, declared, given | absent⟩)
    · exact violated_here fun ⟨m, same⟩ => other m same
    · obtain ⟨name, value, below, given, rfl, inner, found, leads, broken⟩ := given
      exact ⟨inner, found, .member declared given leads, broken⟩
    · obtain ⟨isNeeded, none, rfl⟩ := absent
      dsimp only at isNeeded
      subst isNeeded
      exact ⟨shape, Option.none, .missing declared none, by simp⟩

end Places

end Groundwork.Request
