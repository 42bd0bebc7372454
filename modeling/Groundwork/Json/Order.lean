import Groundwork.Json.Value

/-!
Sorting by JSON values. Numbers have an order, texts have one, and lists are compared by the first items
in which they differ. Values of other kinds, or of different kinds, cannot be compared.
-/

namespace Groundwork.Json

inductive Number where
  | below
  | finite (value : Rat)
  | above
  | undefined

namespace Number

def less : Number → Number → Bool
  | finite a, finite b => a < b
  | finite _, above => true
  | below, finite _ => true
  | below, above => true
  | _, _ => false

def same : Number → Number → Bool
  | finite a, finite b => a == b
  | below, below => true
  | above, above => true
  | _, _ => false

def ofFloat (x : Float) : Number :=
  match Decimal.Exact.ofFloat x with
  | .infinite negative => if negative then below else above
  | .notANumber => undefined
  | value => finite value.toRat

end Number

def number? : Json → Option Number
  | int n => some (.finite n)
  | bool b => some (.finite (if b then 1 else 0))
  | float x => some (.ofFloat x)
  | _ => none

def lessNumbers? (x y : Json) : Option Bool :=
  match number? x, number? y with
  | some a, some b => some (a.less b)
  | _, _ => none

mutual

def same : Json → Json → Bool
  | null, null => true
  | str s, str t => s == t
  | arr xs, arr ys => sameItems xs ys
  | obj xs, obj ys => xs.length == ys.length && sameMembers xs ys
  | int n, y => ((number? y).map (Number.same (.finite n))).getD false
  | bool b, y => ((number? y).map (Number.same (.finite (if b then 1 else 0)))).getD false
  | float x, y => ((number? y).map (Number.same (.ofFloat x))).getD false
  | _, _ => false

def sameItems : List Json → List Json → Bool
  | [], [] => true
  | x :: xs, y :: ys => same x y && sameItems xs ys
  | _, _ => false

def sameMembers : List (String × Json) → List (String × Json) → Bool
  | [], _ => true
  | (name, x) :: xs, ys => ((ys.lookup name).map (same x)).getD false && sameMembers xs ys

end

mutual

def less? : Json → Json → Option Bool
  | str s, str t => some (s < t)
  | arr xs, arr ys => lessItems? xs ys
  | x, y => lessNumbers? x y

def lessItems? : List Json → List Json → Option Bool
  | x :: xs, y :: ys => if same x y then lessItems? xs ys else less? x y
  | [], _ :: _ => some true
  | _, [] => some false

end

def Sortable (keys : List Json) : Prop := keys.Pairwise fun x y => (less? x y).isSome

instance (keys : List Json) : Decidable (Sortable keys) :=
  inferInstanceAs (Decidable (List.Pairwise _ keys))

/-- The items in an order in which none stands behind one that `before` puts it before; where neither
comes before the other they keep their order. -/
def sortBy? {α : Type} (before : Json → Json → Option Bool) (items : List (Json × α)) :
    Option (List α) :=
  if Sortable (items.map (·.1)) then
    some ((items.mergeSort fun a b => before b.1 a.1 != some true).map (·.2))
  else none

def ascending? {α : Type} (items : List (Json × α)) : Option (List α) := sortBy? less? items

def descending? {α : Type} (items : List (Json × α)) : Option (List α) :=
  sortBy? (fun a b => less? b a) items

end Groundwork.Json
