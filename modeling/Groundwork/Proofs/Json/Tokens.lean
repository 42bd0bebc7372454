import Groundwork.Json.Reader
import Groundwork.Proofs.Each
import Groundwork.Proofs.Text.Pieces
import Mathlib.Data.List.TakeWhile

/-!
How far the smallest parts of a document go: space, texts, words and numbers. Each is read in the same way
wherever it stands, whatever follows, except that nothing may follow a number that the number would go on
with.
-/

namespace Groundwork.Json

open Text (Halts takeWhile_append halts_append)

section Space

def IsSpace (cs : List Char) : Prop := ∀ c ∈ cs, Place.isSpace c = true

theorem isSpace_nil : IsSpace [] := fun c mem => by cases mem

theorem skipSpace_append {space rest : List Char} (isSpace : IsSpace space)
    (bare : Halts Place.isSpace rest) (offset : Nat) :
    Place.skipSpace ⟨offset, space ++ rest⟩ = ⟨offset + space.length, rest⟩ := by
  simp only [Place.skipSpace, Place.advance, takeWhile_append isSpace bare, List.drop_left]

theorem exists_space (p : Place) : ∃ space, IsSpace space ∧ Halts Place.isSpace p.skipSpace.rest ∧
    p.rest = space ++ p.skipSpace.rest := by
  have split := List.takeWhile_append_dropWhile (p := Place.isSpace) (l := p.rest)
  have left : p.skipSpace.rest = p.rest.dropWhile Place.isSpace :=
    (congrArg (List.drop (p.rest.takeWhile Place.isSpace).length) split).symm.trans List.drop_left
  refine ⟨p.rest.takeWhile Place.isSpace, fun c => List.mem_takeWhile_imp, ?_, ?_⟩
  · rw [left]
    exact Text.halts_dropWhile Place.isSpace p.rest
  · rw [left, split]

end Space

section Texts

def pairAhead? : List Char → Option (Option Nat)
  | '\\' :: 'u' :: more => if more.length < 5 then none else some (hexFour? (more.take 4))
  | _ => none

/-- The rest of a text, after which nothing can turn its beginning into another escape. -/
def Settled (cs : List Char) : Prop := cs ≠ [] ∧ ∀ rest, pairAhead? (cs ++ rest) = pairAhead? cs

theorem settled_of_escape {cs : List Char} (long : 5 ≤ cs.length) : Settled ('\\' :: 'u' :: cs) := by
  refine ⟨by simp, fun rest => ?_⟩
  have longer : ¬ (cs ++ rest).length < 5 := by
    rw [List.length_append]
    omega
  rw [List.cons_append, List.cons_append, pairAhead?, pairAhead?, if_neg longer, if_neg (by omega),
    List.take_append_of_le_length (by omega)]

theorem settled_of_plain {c : Char} (plain : c ≠ '\\') (cs : List Char) : Settled (c :: cs) := by
  refine ⟨by simp, fun rest => ?_⟩
  rw [List.cons_append, pairAhead?.eq_2, pairAhead?.eq_2]
  all_goals
    intro more same
    exact plain (List.cons.inj same).1

theorem settled_of_simple {c : Char} (simple : c ≠ 'u') (cs : List Char) :
    Settled ('\\' :: c :: cs) := by
  refine ⟨by simp, fun rest => ?_⟩
  rw [List.cons_append, List.cons_append, pairAhead?.eq_2, pairAhead?.eq_2]
  all_goals
    intro more same
    exact simple (List.cons.inj (List.cons.inj same).2).1

theorem length_of_hexFour? {cs : List Char} {n : Nat} (read : hexFour? cs = some n) : cs.length = 4 := by
  unfold hexFour? at read
  split at read
  · rfl
  · cases read

theorem pairAhead?_take {cs : List Char} {low : Option Nat} (ahead : pairAhead? cs = some low) :
    (cs.take 6).length = 6 ∧ ∀ rest, rest ≠ [] → pairAhead? (cs.take 6 ++ rest) = some low := by
  unfold pairAhead? at ahead
  split at ahead
  · rename_i more
    split at ahead
    · cases ahead
    · rename_i long
      have four : (more.take 4).length = 4 := by
        rw [List.length_take]
        omega
      refine ⟨by simp only [List.take_succ_cons, List.length_cons, four], fun rest some => ?_⟩
      have first : 0 < rest.length := List.length_pos_iff.mpr some
      have longer : ¬ (more.take 4 ++ rest).length < 5 := by
        rw [List.length_append]
        omega
      rw [List.take_succ_cons, List.take_succ_cons, List.cons_append, List.cons_append, pairAhead?,
        if_neg longer, List.take_append_of_le_length (by omega), List.take_take, Nat.min_self]
      exact ahead
  · cases ahead

def unitWith (n : Nat) (ahead : Option (Option Nat)) : Option (Char × Nat) :=
  if 0xd800 ≤ n ∧ n < 0xdc00 then
    match ahead with
    | none => some (charOfUnit n, 0)
    | some none => none
    | some (some low) =>
      if 0xdc00 ≤ low ∧ low < 0xe000 then
        some (Char.ofNat (0x10000 + (n - 0xd800) * 0x400 + (low - 0xdc00)), 6)
      else some (charOfUnit n, 0)
  else some (charOfUnit n, 0)

theorem unitWith_length {n k : Nat} {ahead : Option (Option Nat)} {c : Char}
    (made : unitWith n ahead = some (c, k)) : k = 0 ∨ k = 6 ∧ ∃ low, ahead = some low := by
  unfold unitWith at made
  split at made
  · split at made
    · cases made
      exact Or.inl rfl
    · cases made
    · split at made
      · obtain ⟨_, rfl⟩ := Prod.mk.inj (Option.some.inj made)
        exact Or.inr ⟨rfl, _, rfl⟩
      · cases made
        exact Or.inl rfl
  · cases made
    exact Or.inl rfl

theorem readUnit_eq {digits : List Char} (four : digits.length = 4) (mark : Char) (behind : List Char)
    (offset : Nat) : readUnit ⟨offset, mark :: (digits ++ behind)⟩ =
      match hexFour? digits with
      | none => .error ⟨.unicodeEscape, offset⟩
      | some n =>
        if behind.isEmpty then .error ⟨.unicodeEscape, offset⟩
        else match unitWith n (pairAhead? behind) with
          | some (c, k) => .ok (c, ⟨offset + 5 + k, behind.drop k⟩)
          | none => .error ⟨.unicodeEscape, offset + 6⟩ := by
  have ahead : (digits ++ behind).take 4 = digits := by
    rw [List.take_append_of_le_length (by omega), List.take_of_length_le (by omega)]
  have left : (mark :: (digits ++ behind)).drop 5 = behind := by
    rw [List.drop_succ_cons, List.drop_append_of_le_length (by omega), List.drop_of_length_le (by omega),
      List.nil_append]
  simp only [readUnit, Place.advance, List.drop_succ_cons, List.drop_zero, ahead, left]
  cases hexFour? digits with
  | none => rfl
  | some n =>
      cases behind with
      | nil => rfl
      | cons d behind =>
          simp only [List.isEmpty_cons, Bool.false_eq_true, if_false, unitWith]
          by_cases high : 0xd800 ≤ n ∧ n < 0xdc00
          · simp only [if_pos high]
            generalize d :: behind = cs
            by_cases escape : ∃ more, cs = '\\' :: 'u' :: more
            · obtain ⟨more, rfl⟩ := escape
              simp only [pairAhead?]
              split
              · rfl
              · cases hexFour? (more.take 4) with
                | none => rfl
                | some low =>
                    dsimp only
                    split <;> rfl
            · have none : pairAhead? cs = none :=
                pairAhead?.eq_2 cs fun more same => escape ⟨more, same⟩
              rw [none]
              split
              · exact absurd ⟨_, rfl⟩ escape
              · rfl
          · simp only [if_neg high]
            rfl

theorem readUnit_takes {p after : Place} {c : Char} (taken : readUnit p = .ok (c, after)) :
    ∃ unit, 5 ≤ unit.length ∧ p.rest = unit ++ after.rest ∧
      ∀ more tail, after.rest = more ++ tail → Settled more → ∀ offset rest,
        readUnit ⟨offset, unit ++ (more ++ rest)⟩ = .ok (c, ⟨offset + unit.length, more ++ rest⟩) := by
  obtain ⟨offset, cs⟩ := p
  obtain ⟨mark, digits, behind, rfl, four⟩ :
      ∃ mark digits behind, cs = mark :: (digits ++ behind) ∧ digits.length = 4 := by
    cases found : hexFour? ((cs.drop 1).take 4) with
    | none =>
        simp only [readUnit, found, Place.error] at taken
        cases taken
    | some n =>
        have four := length_of_hexFour? found
        cases cs with
        | nil => cases four
        | cons mark cs =>
            exact ⟨mark, cs.take 4, cs.drop 4, by rw [List.take_append_drop], four⟩
  rw [readUnit_eq four] at taken
  cases found : hexFour? digits with
  | none =>
      rw [found] at taken
      cases taken
  | some n =>
      simp only [found] at taken
      split at taken
      · cases taken
      · rename_i some
        split at taken
        · rename_i c' k made
          cases taken
          rcases unitWith_length made with rfl | ⟨rfl, low, ahead⟩
          · refine ⟨mark :: digits, by simp [four], by simp, ?_⟩
            intro more tail behind_eq settled offset rest
            have same : pairAhead? (more ++ rest) = pairAhead? behind := by
              rw [settled.2 rest, ← settled.2 tail, ← behind_eq, List.drop_zero]
            have nonempty : (more ++ rest).isEmpty = false := by
              simp [settled.1]
            rw [List.cons_append, readUnit_eq four, found]
            simp only [nonempty, same, made, List.drop_zero, List.length_cons, four]
            rfl
          · obtain ⟨six, stays⟩ := pairAhead?_take ahead
            refine ⟨mark :: (digits ++ behind.take 6), by simp [four], by simp, ?_⟩
            intro more tail _ settled offset rest
            have nonempty : more ++ rest ≠ [] := by
              simp [settled.1]
            have same := (stays _ nonempty).trans ahead.symm
            have behind' : (behind.take 6 ++ (more ++ rest)).isEmpty = false := by
              simp [nonempty]
            have left : (behind.take 6 ++ (more ++ rest)).drop 6 = more ++ rest :=
              List.drop_left' six
            rw [List.cons_append, List.append_assoc, readUnit_eq four, found]
            simp only [behind', same, made, left, List.length_cons, List.length_append, four, six]
            rfl
        · cases taken

theorem readText_unit (start fuel offset : Nat) (cs read : List Char) :
    readText start (fuel + 1) ⟨offset, '\\' :: 'u' :: cs⟩ read =
      readUnit ⟨offset + 1, 'u' :: cs⟩ >>= fun (c, after) => readText start fuel after (c :: read) :=
  rfl

theorem readText_simple {c d : Char} (simple : c ≠ 'u') (known : simpleEscape? c = some d)
    (start fuel offset : Nat) (cs read : List Char) :
    readText start (fuel + 1) ⟨offset, '\\' :: c :: cs⟩ read =
      readText start fuel ⟨offset + 2, cs⟩ (d :: read) := by
  rw [readText]
  split
  · rename_i same
    cases same
  · rename_i same
    cases same
  · rename_i same
    cases same
  · rename_i same
    exact absurd (List.cons.inj (List.cons.inj same).2).1 simple
  · rename_i same
    cases same
    simp only [known]
    rfl
  · rename_i other same
    cases same
    exact (other c cs rfl rfl).elim

theorem readText_plain {c : Char} (quote : c ≠ '"') (escape : c ≠ '\\') (shown : ¬ c.toNat ≤ 31)
    (start fuel offset : Nat) (cs read : List Char) :
    readText start (fuel + 1) ⟨offset, c :: cs⟩ read =
      readText start fuel ⟨offset + 1, cs⟩ (c :: read) := by
  rw [readText]
  split
  · rename_i same
    cases same
  · rename_i same
    exact absurd (List.cons.inj same).1 quote
  · rename_i same
    exact absurd (List.cons.inj same).1 escape
  · rename_i same
    exact absurd (List.cons.inj same).1 escape
  · rename_i same
    exact absurd (List.cons.inj same).1 escape
  · rename_i same
    cases same
    rw [if_neg shown]
    rfl

/-- With `read` before it, `used` is the rest of the text `s`, wherever it stands and whatever follows. -/
structure Ends (used read : List Char) (s : String) : Prop where
  settled : Settled used
  last : used.getLast? = some '"'
  reads : ∀ start fuel offset rest, used.length ≤ fuel →
    readText start fuel ⟨offset, used ++ rest⟩ read = .ok (s, ⟨offset + used.length, rest⟩)

theorem Ends.cons {piece used read read' : List Char} {s : String} (ends : Ends used read' s)
    (nonempty : piece ≠ []) (settled : Settled (piece ++ used))
    (step : ∀ start fuel offset rest, readText start (fuel + 1) ⟨offset, piece ++ (used ++ rest)⟩ read =
      readText start fuel ⟨offset + piece.length, used ++ rest⟩ read') :
    Ends (piece ++ used) read s := by
  refine ⟨settled, ?_, ?_⟩
  · rw [List.getLast?_append_of_ne_nil _ ends.settled.1, ends.last]
  · intro start fuel offset rest enough
    have some : 0 < piece.length := List.length_pos_iff.mpr nonempty
    rw [List.length_append] at enough ⊢
    cases fuel with
    | zero => omega
    | succ fuel =>
        rw [List.append_assoc, step, ends.reads start fuel _ rest (by omega), Nat.add_assoc]

theorem ends_quote (read : List Char) : Ends ['"'] read (String.ofList read.reverse) := by
  refine ⟨settled_of_plain (by decide) [], rfl, ?_⟩
  intro start fuel offset rest enough
  cases fuel with
  | zero => cases enough
  | succ fuel => rfl

theorem Ends.unit {p next after : Place} {c : Char} {tail used read : List Char} {s : String}
    (ends : Ends used (c :: read) s) (begins : p.rest = 'u' :: tail) (taken : readUnit p = .ok (c, next))
    (next_eq : next.rest = used ++ after.rest) :
    ∃ more, '\\' :: p.rest = more ++ after.rest ∧ Ends more read s := by
  obtain ⟨unit, long, rest_eq, unit_takes⟩ := readUnit_takes taken
  obtain ⟨digits, rfl⟩ : ∃ digits, unit = 'u' :: digits := by
    cases unit with
    | nil => cases long
    | cons d digits =>
        obtain ⟨rfl, -⟩ := List.cons.inj (begins.symm.trans rest_eq)
        exact ⟨digits, rfl⟩
  refine ⟨'\\' :: 'u' :: digits ++ used, ?_, ends.cons (by simp) ?_ ?_⟩
  · rw [rest_eq, next_eq]
    simp
  · have some : 0 < used.length := List.length_pos_iff.mpr ends.settled.1
    have enough : 5 ≤ (digits ++ used).length := by
      rw [List.length_cons] at long
      rw [List.length_append]
      omega
    exact settled_of_escape enough
  · intro start fuel offset rest
    have read := unit_takes used after.rest next_eq ends.settled (offset + 1) rest
    rw [List.cons_append] at read
    rw [List.cons_append, List.cons_append, readText_unit, read, Nat.add_right_comm]
    rfl

theorem readText_takes (start fuel : Nat) : ∀ {p after : Place} {read : List Char} {s : String},
    readText start fuel p read = .ok (s, after) →
    ∃ used, p.rest = used ++ after.rest ∧ Ends used read s := by
  -- Induction on the fuel of the given reading. One piece is read in front of a rest that is settled, so
  -- it is read in the same way in front of anything.
  induction fuel with
  | zero =>
      intro p after read s taken
      cases taken
  | succ fuel ih =>
      intro p after read s taken
      obtain ⟨offset, cs⟩ := p
      rw [readText] at taken
      dsimp only at taken
      split at taken
      · cases taken
      · -- the closing quote
        cases taken
        exact ⟨['"'], rfl, ends_quote read⟩
      · cases taken
      · -- an escape for a code unit
        obtain ⟨⟨c, next⟩, unit_taken, rest_taken⟩ := bind_eq_ok_iff.mp taken
        obtain ⟨used, next_eq, ends⟩ := ih rest_taken
        exact ends.unit rfl unit_taken next_eq
      · -- an escape for one character
        rename_i c tail simple
        split at taken
        · rename_i d known
          obtain ⟨used, next_eq, ends⟩ := ih taken
          refine ⟨['\\', c] ++ used, ?_, ends.cons (by simp) (settled_of_simple simple used) ?_⟩
          · simpa [Place.advance] using next_eq
          · intro start' fuel' offset' rest
            exact readText_simple simple known start' fuel' offset' _ read
        · cases taken
      · -- a character for itself
        rename_i c tail quote lone unit simple
        split at taken
        · cases taken
        · rename_i shown
          obtain ⟨used, next_eq, ends⟩ := ih taken
          have plain : c ≠ '\\' := by
            rintro rfl
            cases tail with
            | nil => exact lone rfl rfl
            | cons d tail => exact simple d tail rfl rfl
          refine ⟨[c] ++ used, ?_, ends.cons (by simp) (settled_of_plain plain used) ?_⟩
          · simpa [Place.advance] using next_eq
          · intro start' fuel' offset' rest
            exact readText_plain quote plain shown start' fuel' offset' _ read

end Texts

section Numbers

variable {cs rest sign whole fraction exponent : List Char}

def goesOn (c : Char) : Bool := Text.isAsciiDigit c || c == '.' || c == 'e' || c == 'E'

def IsDigits (cs : List Char) : Prop := cs ≠ [] ∧ ∀ c ∈ cs, Text.isAsciiDigit c = true

def IsSign (cs : List Char) : Prop := cs = [] ∨ cs = ['-']

def IsWhole (cs : List Char) : Prop := cs = ['0'] ∨ IsDigits cs ∧ Halts (· == '0') cs

def IsFraction (cs : List Char) : Prop := cs = [] ∨ ∃ digits, IsDigits digits ∧ cs = '.' :: digits

def IsExponent (cs : List Char) : Prop :=
  cs = [] ∨ ∃ mark sign digits, (mark = 'e' ∨ mark = 'E') ∧ (sign = ['+'] ∨ IsSign sign) ∧
    IsDigits digits ∧ cs = mark :: (sign ++ digits)

def takeSign : List Char → List Char
  | '-' :: _ => ['-']
  | _ => []

theorem takeSign_shape (cs : List Char) : IsSign (takeSign cs) ∧ takeSign cs <+: cs := by
  unfold takeSign
  split
  · rename_i rest
    exact ⟨Or.inr rfl, rest, rfl⟩
  · exact ⟨Or.inl rfl, cs, rfl⟩

theorem takeWhole_prefix (cs : List Char) : takeWhole cs <+: cs := by
  unfold takeWhole
  split
  · rename_i rest
    exact ⟨rest, rfl⟩
  · exact List.takeWhile_prefix _

theorem takeWhole_shape (some : takeWhole cs ≠ []) : IsWhole (takeWhole cs) := by
  by_cases zero : ∃ rest, cs = '0' :: rest
  · obtain ⟨rest, rfl⟩ := zero
    exact Or.inl rfl
  · rw [takeWhole.eq_2 cs fun rest same => zero ⟨rest, same⟩] at some ⊢
    refine Or.inr ⟨⟨some, fun c => List.mem_takeWhile_imp⟩, ?_⟩
    intro c first
    cases cs with
    | nil => cases first
    | cons d cs =>
        rw [List.takeWhile_cons] at first
        split at first
        · cases first
          exact beq_false_of_ne fun same => zero ⟨cs, by rw [same]⟩
        · cases first

theorem takeFraction_shape (cs : List Char) : IsFraction (takeFraction cs) ∧ takeFraction cs <+: cs := by
  unfold takeFraction
  split
  · rename_i rest
    dsimp only
    split
    · exact ⟨Or.inl rfl, List.nil_prefix⟩
    · rename_i some
      refine ⟨Or.inr ⟨_, ⟨?_, fun c => List.mem_takeWhile_imp⟩, rfl⟩, ?_⟩
      · simpa using some
      · exact List.cons_prefix_cons.mpr ⟨rfl, List.takeWhile_prefix _⟩
  · exact ⟨Or.inl rfl, List.nil_prefix⟩

theorem takeWhole_append (shape : IsWhole whole) (halts : Halts Text.isAsciiDigit rest) :
    takeWhole (whole ++ rest) = whole := by
  rcases shape with rfl | ⟨⟨some, digits⟩, zero⟩
  · rfl
  · cases whole with
    | nil => exact absurd rfl some
    | cons c whole =>
        have other : c ≠ '0' := ne_of_beq_false (zero c rfl)
        rw [List.cons_append, takeWhole.eq_2, ← List.cons_append, takeWhile_append digits halts]
        intro tail same
        exact other (List.cons.inj same).1

theorem takeFraction_append (shape : IsFraction fraction)
    (halts : Halts (fun c => Text.isAsciiDigit c || c == '.') rest) :
    takeFraction (fraction ++ rest) = fraction := by
  rcases shape with rfl | ⟨digits, ⟨some, all⟩, rfl⟩
  · cases rest with
    | nil => rfl
    | cons c rest =>
        rw [List.nil_append, takeFraction.eq_2]
        rintro tail same
        obtain ⟨rfl, -⟩ := List.cons.inj same
        cases halts '.' rfl
  · have past : Halts Text.isAsciiDigit rest := fun c first =>
      (Bool.or_eq_false_iff.mp (halts c first)).1
    simp only [List.cons_append, takeFraction, takeWhile_append all past]
    rw [if_neg (by simpa using some)]

def takeMark : List Char → List Char
  | '+' :: _ => ['+']
  | '-' :: _ => ['-']
  | _ => []

theorem takeExponent_cons (c : Char) (cs : List Char) : takeExponent (c :: cs) =
    if c = 'e' ∨ c = 'E' then
      if ((cs.drop (takeMark cs).length).takeWhile Text.isAsciiDigit).isEmpty then []
      else c :: (takeMark cs ++ (cs.drop (takeMark cs).length).takeWhile Text.isAsciiDigit)
    else [] :=
  rfl

theorem takeMark_shape (cs : List Char) :
    (takeMark cs = ['+'] ∨ IsSign (takeMark cs)) ∧ takeMark cs <+: cs := by
  unfold takeMark
  split
  · rename_i rest
    exact ⟨Or.inl rfl, rest, rfl⟩
  · rename_i rest
    exact ⟨Or.inr (Or.inr rfl), rest, rfl⟩
  · exact ⟨Or.inr (Or.inl rfl), List.nil_prefix⟩

theorem takeExponent_shape (cs : List Char) : IsExponent (takeExponent cs) ∧ takeExponent cs <+: cs := by
  cases cs with
  | nil => exact ⟨Or.inl rfl, List.nil_prefix⟩
  | cons c cs =>
      rw [takeExponent_cons]
      split
      · rename_i letter
        split
        · exact ⟨Or.inl rfl, List.nil_prefix⟩
        · rename_i some
          obtain ⟨mark, first⟩ := takeMark_shape cs
          refine ⟨Or.inr ⟨c, _, _, letter, mark, ⟨?_, fun c => List.mem_takeWhile_imp⟩, rfl⟩, ?_⟩
          · simpa using some
          · have parts := (List.prefix_append_right_inj (takeMark cs)).mpr
              (List.takeWhile_prefix Text.isAsciiDigit (l := cs.drop (takeMark cs).length))
            rw [List.prefix_iff_eq_append.mp first] at parts
            exact List.cons_prefix_cons.mpr ⟨rfl, parts⟩
      · exact ⟨Or.inl rfl, List.nil_prefix⟩

theorem takeMark_append (shape : sign = ['+'] ∨ IsSign sign)
    (halts : Halts (fun c => c == '+' || c == '-') rest) : takeMark (sign ++ rest) = sign := by
  rcases shape with rfl | rfl | rfl
  · rfl
  · cases rest with
    | nil => rfl
    | cons c rest =>
        have other := Bool.or_eq_false_iff.mp (halts c rfl)
        rw [List.nil_append, takeMark.eq_3]
        · rintro tail same
          exact ne_of_beq_false other.1 (List.cons.inj same).1
        · rintro tail same
          exact ne_of_beq_false other.2 (List.cons.inj same).1
  · rfl

theorem IsDigits.halts {kind : Char → Bool} {digits : List Char} (isDigits : IsDigits digits)
    (apart : ∀ c, Text.isAsciiDigit c = true → kind c = false) : Halts kind (digits ++ rest) :=
  Text.halts_of_run isDigits.1 isDigits.2 apart rest

theorem not_digit_of_eq {c d : Char} (other : Text.isAsciiDigit d = false)
    (digit : Text.isAsciiDigit c = true) : (c == d) = false := by
  refine beq_false_of_ne ?_
  rintro rfl
  rw [other] at digit
  cases digit

theorem takeExponent_append (shape : IsExponent exponent)
    (halts : Halts (fun c => Text.isAsciiDigit c || (c == 'e' || c == 'E')) rest) :
    takeExponent (exponent ++ rest) = exponent := by
  rcases shape with rfl | ⟨mark, sign, digits, letter, signed, isDigits, rfl⟩
  · cases rest with
    | nil => rfl
    | cons c rest =>
        have other := Bool.or_eq_false_iff.mp (Bool.or_eq_false_iff.mp (halts c rfl)).2
        rw [List.nil_append, takeExponent_cons, if_neg]
        rintro (rfl | rfl)
        · cases other.1
        · cases other.2
  · have past : Halts Text.isAsciiDigit rest := fun c first =>
      (Bool.or_eq_false_iff.mp (halts c first)).1
    have signs : Halts (fun c => c == '+' || c == '-') (digits ++ rest) := by
      refine isDigits.halts fun c digit => ?_
      rw [not_digit_of_eq (by decide) digit, not_digit_of_eq (by decide) digit, Bool.or_self]
    rw [List.cons_append, List.append_assoc, takeExponent_cons, takeMark_append signed signs,
      if_pos letter, List.drop_left, takeWhile_append isDigits.2 past, if_neg]
    simpa using isDigits.1

def numberOf (sign whole fraction exponent : List Char) : Except Cause Json :=
  if whole.isEmpty then .error .value
  else if fraction.isEmpty && exponent.isEmpty then
    if maxDigits < whole.length then .error .tooManyDigits
    else .ok (int (if sign.isEmpty then (Decimal.digitsValue whole : Int) else -Decimal.digitsValue whole))
  else match Decimal.readPlain? (whole ++ fraction ++ exponent) with
    | some (mantissa, e) => .ok (float (Decimal.toFloat (!sign.isEmpty) mantissa e))
    | none => .error .value

theorem readNumber_of_parts {p : Place}
    (parts : p.rest = sign ++ (whole ++ (fraction ++ (exponent ++ rest))))
    (signed : takeSign p.rest = sign)
    (taken : takeWhole (whole ++ (fraction ++ (exponent ++ rest))) = whole)
    (broken : takeFraction (fraction ++ (exponent ++ rest)) = fraction)
    (raised : takeExponent (exponent ++ rest) = exponent) :
    readNumber p = match numberOf sign whole fraction exponent with
      | .ok v =>
        .ok (v, ⟨p.offset + (sign ++ (whole ++ (fraction ++ exponent))).length, rest⟩)
      | .error cause => p.error cause := by
  have behind : p.rest.drop (sign ++ (whole ++ (fraction ++ exponent))).length = rest := by
    simp only [parts, List.length_append, ← List.drop_drop, List.drop_left]
  have length : sign.length + whole.length + fraction.length + exponent.length =
      (sign ++ (whole ++ (fraction ++ exponent))).length := by
    simp only [List.length_append]
    omega
  unfold readNumber
  extract_lets first body run point raise after value
  have first_eq : first = sign := signed
  have body_eq : body = whole ++ (fraction ++ (exponent ++ rest)) := by
    simp only [body, first_eq, parts, List.drop_left]
  have run_eq : run = whole := by rw [← taken, ← body_eq]
  have point_eq : point = fraction := by
    simp only [point, body_eq, run_eq, List.drop_left, broken]
  have raise_eq : raise = exponent := by
    simp only [raise, body_eq, run_eq, point_eq, ← List.drop_drop, List.drop_left, raised]
  have after_eq : after =
      ⟨p.offset + (sign ++ (whole ++ (fraction ++ exponent))).length, rest⟩ := by
    simp only [after, first_eq, run_eq, point_eq, raise_eq, Place.advance, length, behind]
  have value_eq : value = Decimal.digitsValue whole := by rw [← run_eq]
  rw [first_eq, run_eq, point_eq, raise_eq, after_eq, value_eq, numberOf]
  split
  · rfl
  · split
    · split <;> rfl
    · cases Decimal.readPlain? (whole ++ fraction ++ exponent) <;> rfl

theorem digit_of_whole (shape : IsWhole whole) : IsDigits whole := by
  rcases shape with rfl | ⟨digits, -⟩
  · refine ⟨by simp, fun c mem => ?_⟩
    rw [List.mem_singleton.mp mem]
    decide
  · exact digits

theorem readNumber_append (signed : IsSign sign) (shape : IsWhole whole) (broken : IsFraction fraction)
    (raised : IsExponent exponent) (halts : Halts goesOn rest) (offset : Nat) :
    readNumber ⟨offset, sign ++ (whole ++ (fraction ++ (exponent ++ rest)))⟩ =
      match numberOf sign whole fraction exponent with
      | .ok v => .ok (v, ⟨offset + (sign ++ (whole ++ (fraction ++ exponent))).length, rest⟩)
      | .error cause => .error ⟨cause, offset⟩ := by
  have past_exponent : Halts (fun c => Text.isAsciiDigit c || (c == 'e' || c == 'E')) rest := by
    refine halts.mono fun c kept => ?_
    simp only [goesOn, Bool.or_eq_true] at kept ⊢
    tauto
  have past_fraction : Halts (fun c => Text.isAsciiDigit c || c == '.') (exponent ++ rest) := by
    rcases raised with rfl | ⟨mark, sign, digits, rfl | rfl, -, -, rfl⟩
    · refine halts.mono fun c kept => ?_
      simp only [goesOn, Bool.or_eq_true] at kept ⊢
      tauto
    all_goals
      intro c first
      cases first
      decide
  have past_whole : Halts Text.isAsciiDigit (fraction ++ (exponent ++ rest)) := by
    rcases broken with rfl | ⟨digits, -, rfl⟩
    · refine past_fraction.mono fun c digit => ?_
      rw [digit, Bool.true_or]
    · intro c first
      cases first
      decide
  have sign_eq : takeSign (sign ++ (whole ++ (fraction ++ (exponent ++ rest)))) = sign := by
    rcases signed with rfl | rfl
    · obtain ⟨some, digits⟩ := digit_of_whole shape
      refine takeSign.eq_2 _ fun tail same => ?_
      cases whole with
      | nil => exact some rfl
      | cons d whole =>
          have digit := digits d List.mem_cons_self
          rw [(List.cons.inj same).1] at digit
          cases digit
    · rfl
  exact readNumber_of_parts rfl sign_eq (takeWhole_append shape past_whole)
    (takeFraction_append broken past_fraction) (takeExponent_append raised past_exponent)

def IsNumeral (cs : List Char) : Prop :=
  ∃ sign whole fraction exponent, IsSign sign ∧ IsWhole whole ∧ IsFraction fraction ∧
    IsExponent exponent ∧ cs = sign ++ (whole ++ (fraction ++ exponent))

theorem exists_parts (p : Place) : ∃ sign whole fraction exponent rest,
    IsSign sign ∧ (whole ≠ [] → IsWhole whole) ∧ IsFraction fraction ∧ IsExponent exponent ∧
      p.rest = sign ++ (whole ++ (fraction ++ (exponent ++ rest))) ∧
      readNumber p = match numberOf sign whole fraction exponent with
        | .ok v =>
          .ok (v, ⟨p.offset + (sign ++ (whole ++ (fraction ++ exponent))).length, rest⟩)
        | .error cause => p.error cause := by
  obtain ⟨signed, body, sign_split⟩ := takeSign_shape p.rest
  obtain ⟨behind, whole_split⟩ := takeWhole_prefix body
  obtain ⟨broken, ahead, fraction_split⟩ := takeFraction_shape behind
  obtain ⟨raised, rest, exponent_split⟩ := takeExponent_shape ahead
  have parts := sign_split
  rw [← whole_split, ← fraction_split, ← exponent_split] at parts
  refine ⟨_, _, _, _, rest, signed, takeWhole_shape, broken, raised, parts.symm, ?_⟩
  exact readNumber_of_parts parts.symm rfl (by rw [exponent_split, fraction_split, whole_split])
    (by rw [exponent_split, fraction_split]) (by rw [exponent_split])

theorem readNumber_takes {p after : Place} {v : Json} (taken : readNumber p = .ok (v, after)) :
    ∃ used, p.rest = used ++ after.rest ∧ IsNumeral used ∧ ∀ offset rest, Halts goesOn rest →
      readNumber ⟨offset, used ++ rest⟩ = .ok (v, ⟨offset + used.length, rest⟩) := by
  obtain ⟨sign, whole, fraction, exponent, rest, signed, shape, broken, raised, parts, number_eq⟩ :=
    exists_parts p
  rw [number_eq] at taken
  have some : whole ≠ [] := by
    rintro rfl
    cases taken
  have read (offset : Nat) {others : List Char} (halts : Halts goesOn others) :=
    readNumber_append signed (shape some) broken raised halts offset
  generalize numberOf sign whole fraction exponent = number at taken read
  cases number with
  | error cause => cases taken
  | ok value =>
      cases taken
      refine ⟨sign ++ (whole ++ (fraction ++ exponent)), ?_,
        ⟨_, _, _, _, signed, shape some, broken, raised, rfl⟩, ?_⟩
      · simp only [List.append_assoc]
        exact parts
      · intro offset others halts
        simp only [List.append_assoc]
        exact read offset halts

theorem numberOf_cause (refused : numberOf sign whole fraction exponent = .error .tooManyDigits) :
    maxDigits < whole.length := by
  unfold numberOf at refused
  split at refused
  · cases refused
  · split at refused
    · split at refused
      · assumption
      · cases refused
    · split at refused
      · cases refused
      · cases refused

theorem IsNumeral.starts (number : IsNumeral cs) : ∃ c more, cs = c :: more ∧
    (Text.isAsciiDigit c = true ∨
      c = '-' ∧ ∃ d others, more = d :: others ∧ Text.isAsciiDigit d = true) := by
  obtain ⟨sign, whole, fraction, exponent, signed, shape, -, -, rfl⟩ := number
  obtain ⟨some, digits⟩ := digit_of_whole shape
  cases whole with
  | nil => exact absurd rfl some
  | cons d whole =>
      have digit := digits d List.mem_cons_self
      rcases signed with rfl | rfl
      · exact ⟨d, _, rfl, Or.inl digit⟩
      · exact ⟨'-', _, rfl, Or.inr ⟨rfl, d, _, rfl, digit⟩⟩

theorem IsDigits.last {digits : List Char} (isDigits : IsDigits digits) (cs : List Char) :
    ∃ c ∈ (cs ++ digits).getLast?, Text.isAsciiDigit c = true := by
  rw [List.getLast?_append_of_ne_nil _ isDigits.1, List.getLast?_eq_getLast_of_ne_nil isDigits.1]
  exact ⟨_, rfl, isDigits.2 _ (List.getLast_mem isDigits.1)⟩

theorem IsNumeral.ends (number : IsNumeral cs) : ∃ c ∈ cs.getLast?, Text.isAsciiDigit c = true := by
  obtain ⟨sign, whole, fraction, exponent, -, shape, broken, raised, rfl⟩ := number
  simp only [← List.append_assoc]
  rcases raised with rfl | ⟨mark, sign', digits, -, -, isDigits, rfl⟩
  · rw [List.append_nil]
    rcases broken with rfl | ⟨digits, isDigits, rfl⟩
    · rw [List.append_nil]
      exact (digit_of_whole shape).last _
    · rw [← List.singleton_append, ← List.append_assoc]
      exact isDigits.last _
  · rw [← List.cons_append, ← List.append_assoc]
    exact isDigits.last _

end Numbers

section Words

theorem readWord?_eq_some {p after : Place} {v : Json} (taken : readWord? p = some (v, after)) :
    ∃ word, (word, v) ∈ words ∧ p.rest = word.toList ++ after.rest := by
  obtain ⟨⟨word, value⟩, found, same⟩ := Option.map_eq_some_iff.mp taken
  cases same
  have starts := List.find?_some found
  obtain ⟨rest, parts⟩ := List.isPrefixOf_iff_prefix.mp starts
  refine ⟨word, List.mem_of_find?_eq_some found, ?_⟩
  have left : p.rest.drop word.length = rest := by
    rw [← parts, ← String.length_toList, List.drop_left]
  rw [Place.advance, left, parts]

theorem readWord?_word {word : String} {v : Json} (mem : (word, v) ∈ words) (offset : Nat)
    (rest : List Char) : readWord? ⟨offset, word.toList ++ rest⟩ =
      some (v, ⟨offset + word.toList.length, rest⟩) := by
  simp only [words, List.mem_cons, List.not_mem_nil, or_false] at mem
  rcases mem with same | same | same | same | same | same
  all_goals
    cases same
    rfl

theorem readWord?_number {cs : List Char} (number : IsNumeral cs) (offset : Nat) (rest : List Char) :
    readWord? ⟨offset, cs ++ rest⟩ = none := by
  cases found : readWord? ⟨offset, cs ++ rest⟩ with
  | none => rfl
  | some result =>
      obtain ⟨v, after⟩ := result
      obtain ⟨word, mem, parts⟩ := readWord?_eq_some found
      obtain ⟨c, more, rfl, start⟩ := number.starts
      simp only [words, List.mem_cons, List.not_mem_nil, or_false] at mem
      rcases start with digit | ⟨rfl, d, others, rfl, digit⟩
      · rcases mem with same | same | same | same | same | same
        all_goals
          cases same
          obtain ⟨rfl, -⟩ := List.cons.inj parts
          cases digit
      · rcases mem with same | same | same | same | same | same
        all_goals
          cases same
          obtain ⟨first, parts⟩ := List.cons.inj parts
        iterate 5 cases first
        obtain ⟨rfl, -⟩ := List.cons.inj parts
        cases digit

end Words

end Groundwork.Json
