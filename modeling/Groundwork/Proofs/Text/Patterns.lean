import Groundwork.Proofs.Text.Pieces
import Groundwork.Text.Scan
import Mathlib.Data.List.Forall2
import Mathlib.Data.Nat.Find

/-!
Patterns of text. A pattern is a regular expression over classes of characters, with the edges of words and
lines; what it fits depends on the character before and on the text behind. A search for the first place of a
condition finds the first fit of a pattern if the condition holds where a fit begins.
-/

namespace Groundwork.Text

inductive Pattern where
  | nothing
  | letter (allowed : Char → Bool)
  | repeated (allowed : Char → Bool)
  | wordEdge
  | lineStart
  | lineEnd
  | followed (first second : Pattern)
  | either (first second : Pattern)

/-- The last character of a text, or the one before it if it is empty. -/
def lastOf (before : Option Char) (cs : List Char) : Option Char := cs.getLast?.or before

@[simp] theorem lastOf_nil (before : Option Char) : lastOf before [] = before := rfl

@[simp] theorem lastOf_none (cs : List Char) : lastOf none cs = cs.getLast? := Option.or_none

theorem lastOf_append (before : Option Char) (cs ds : List Char) :
    lastOf before (cs ++ ds) = lastOf (lastOf before cs) ds := by
  rw [lastOf, List.getLast?_append, Option.or_assoc]
  rfl

theorem lastOf_cons (before : Option Char) (c : Char) (cs : List Char) :
    lastOf before (c :: cs) = lastOf (some c) cs := lastOf_append before [c] cs

namespace Pattern

/-- Whether the pattern fits the text `found` between the character `before` and the text `after`. -/
def Fits : Pattern → (before : Option Char) → (found after : List Char) → Prop
  | nothing, _, found, _ => found = []
  | letter allowed, _, found, _ => ∃ c, found = [c] ∧ allowed c = true
  | repeated allowed, _, found, _ => ∀ c ∈ found, allowed c = true
  | wordEdge, before, found, after => found = [] ∧ Text.wordEdge before after = true
  | lineStart, before, found, _ => found = [] ∧ ∀ c ∈ before, c = '\n'
  | lineEnd, _, found, after => found = [] ∧ ∀ c ∈ after.head?, c = '\n'
  | followed p q, before, found, after => ∃ x y, found = x ++ y ∧ p.Fits before x (y ++ after) ∧
      q.Fits (lastOf before x) y after
  | either p q, before, found, after => p.Fits before found after ∨ q.Fits before found after

def Begins (p : Pattern) (before : Option Char) (text : List Char) : Prop :=
  ∃ found after, text = found ++ after ∧ p.Fits before found after

def inOrder : List Pattern → Pattern := List.foldr followed nothing

def oneOf : List Pattern → Pattern := List.foldr either (letter fun _ => false)

def sign (c : Char) : Pattern := letter (· == c)

/-- A word letter by letter, where `same` says which characters stand for a letter. -/
def spelled (same : Char → Char → Bool) (w : String) : Pattern :=
  inOrder (w.toList.map fun l => letter (same l))

def word (w : String) : Pattern := spelled (fun l c => c == l) w

def blanks : Pattern := repeated isBlank

variable {p q : Pattern} {before : Option Char} {text found after : List Char} {allowed : Char → Bool}

/-! Where a fit begins. -/

@[simp] theorem begins_nothing : nothing.Begins before text := ⟨[], text, rfl, rfl⟩

theorem begins_followed : (followed p q).Begins before text ↔
    ∃ x rest, text = x ++ rest ∧ p.Fits before x rest ∧ q.Begins (lastOf before x) rest := by
  constructor
  · rintro ⟨_, after, rfl, x, y, rfl, first, second⟩
    exact ⟨x, y ++ after, List.append_assoc x y after, first, y, after, rfl, second⟩
  · rintro ⟨x, _, rfl, first, y, after, rfl, second⟩
    exact ⟨x ++ y, after, (List.append_assoc x y after).symm, x, y, rfl, first, second⟩

theorem begins_letter : (followed (letter allowed) q).Begins before text ↔
    ∃ c rest, text = c :: rest ∧ allowed c = true ∧ q.Begins (some c) rest := by
  rw [begins_followed]
  constructor
  · rintro ⟨_, rest, rfl, ⟨c, rfl, fits⟩, later⟩
    exact ⟨c, rest, rfl, fits, later⟩
  · rintro ⟨c, rest, rfl, fits, later⟩
    exact ⟨[c], rest, rfl, ⟨c, rfl, fits⟩, later⟩

theorem begins_repeated : (followed (repeated allowed) q).Begins before text ↔
    ∃ run rest, text = run ++ rest ∧ (∀ c ∈ run, allowed c = true) ∧
      q.Begins (lastOf before run) rest := begins_followed

theorem begins_wordEdge : (followed wordEdge q).Begins before text ↔
    Text.wordEdge before text = true ∧ q.Begins before text := by
  rw [begins_followed]
  constructor
  · rintro ⟨_, _, rfl, ⟨rfl, edge⟩, later⟩
    exact ⟨edge, later⟩
  · rintro ⟨edge, later⟩
    exact ⟨[], text, rfl, ⟨rfl, edge⟩, later⟩

theorem begins_lineStart : (followed lineStart q).Begins before text ↔
    Text.lineStart before text = true ∧ q.Begins before text := by
  have same : Text.lineStart before text = true ↔ ∀ c ∈ before, c = '\n' := by
    cases before <;> simp [Text.lineStart]
  rw [begins_followed, same]
  constructor
  · rintro ⟨_, _, rfl, ⟨rfl, start⟩, later⟩
    exact ⟨start, later⟩
  · rintro ⟨start, later⟩
    exact ⟨[], text, rfl, ⟨rfl, start⟩, later⟩

theorem begins_either : (either p q).Begins before text ↔
    p.Begins before text ∨ q.Begins before text := by
  constructor
  · rintro ⟨found, after, whole, first | second⟩
    · exact Or.inl ⟨found, after, whole, first⟩
    · exact Or.inr ⟨found, after, whole, second⟩
  · rintro (⟨found, after, whole, first⟩ | ⟨found, after, whole, second⟩)
    · exact ⟨found, after, whole, Or.inl first⟩
    · exact ⟨found, after, whole, Or.inr second⟩

theorem fits_oneOf {ps : List Pattern} : (oneOf ps).Fits before found after ↔
    ∃ p ∈ ps, p.Fits before found after := by
  induction ps with
  | nil => simp [oneOf, Fits]
  | cons p ps ih =>
      rw [List.exists_mem_cons_iff, ← ih]
      rfl

theorem begins_oneOf {ps : List Pattern} : (oneOf ps).Begins before text ↔
    ∃ p ∈ ps, p.Begins before text := by
  constructor
  · rintro ⟨found, after, whole, fits⟩
    obtain ⟨p, member, own⟩ := fits_oneOf.mp fits
    exact ⟨p, member, found, after, whole, own⟩
  · rintro ⟨p, member, found, after, whole, own⟩
    exact ⟨found, after, whole, fits_oneOf.mpr ⟨p, member, own⟩⟩

theorem begins_oneOf_map {α : Type} {xs : List α} {f : α → Pattern} :
    (oneOf (xs.map f)).Begins before text ↔ ∃ x ∈ xs, (f x).Begins before text := by
  simp [begins_oneOf]

theorem fits_spelled {same : Char → Char → Bool} {w : String} :
    (spelled same w).Fits before found after ↔
      List.Forall₂ (fun l c => same l c = true) w.toList found := by
  rw [spelled]
  induction w.toList generalizing before found with
  | nil => simp [inOrder, Fits]
  | cons l letters ih =>
      rw [List.forall₂_cons_left_iff]
      constructor
      · rintro ⟨_, rest, rfl, ⟨c, rfl, fits⟩, later⟩
        exact ⟨c, rest, fits, ih.mp later, rfl⟩
      · rintro ⟨c, rest, fits, later, rfl⟩
        exact ⟨[c], rest, rfl, ⟨c, rfl, fits⟩, ih.mpr later⟩

theorem fits_word {w : String} : (word w).Fits before found after ↔ found = w.toList := by
  rw [word, fits_spelled]
  simp only [beq_iff_eq]
  constructor
  · intro same
    have equal : List.Forall₂ Eq found w.toList := same.flip
    rwa [List.forall₂_eq_eq_eq] at equal
  · rintro rfl
    exact List.forall₂_same.mpr fun _ _ => rfl

theorem begins_spelled {same : Char → Char → Bool} {w : String} :
    (followed (spelled same w) q).Begins before text ↔ ∃ found rest, text = found ++ rest ∧
      List.Forall₂ (fun l c => same l c = true) w.toList found ∧
        q.Begins (lastOf before found) rest := by
  simp only [begins_followed, fits_spelled]

theorem begins_word {w : String} : (followed (word w) q).Begins before text ↔
    ∃ rest, text = w.toList ++ rest ∧ q.Begins (lastOf before w.toList) rest := by
  rw [begins_followed]
  constructor
  · rintro ⟨found, rest, rfl, fits, later⟩
    obtain rfl := fits_word.mp fits
    exact ⟨rest, rfl, later⟩
  · rintro ⟨rest, rfl, later⟩
    exact ⟨w.toList, rest, rfl, fits_word.mpr rfl, later⟩

/-! What does not depend on the character before. -/

def isFree : Pattern → Bool
  | wordEdge | lineStart => false
  | followed p q | either p q => p.isFree && q.isFree
  | nothing | letter _ | repeated _ | lineEnd => true

theorem Fits.from {p : Pattern} {before found after} (fits : p.Fits before found after) (free : p.isFree = true)
    (other : Option Char) : p.Fits other found after := by
  induction p generalizing before found after other with
  | nothing | letter | repeated | lineEnd => exact fits
  | wordEdge | lineStart => simp [isFree] at free
  | followed p q first second =>
      rw [isFree, Bool.and_eq_true] at free
      obtain ⟨x, y, rfl, begins, ends⟩ := fits
      exact ⟨x, y, rfl, first begins free.1 other, second ends free.2 _⟩
  | either p q first second =>
      rw [isFree, Bool.and_eq_true] at free
      exact fits.imp (first · free.1 other) (second · free.2 other)

theorem begins_of_free (free : p.isFree = true) (other : Option Char) :
    p.Begins before text ↔ p.Begins other text :=
  ⟨fun ⟨found, after, whole, fits⟩ => ⟨found, after, whole, fits.from free other⟩,
    fun ⟨found, after, whole, fits⟩ => ⟨found, after, whole, fits.from free before⟩⟩

/-! What a fit cannot begin with. -/

/-- Every fit has a first character, which is not of the kind. -/
def Avoids (kind : Char → Bool) (p : Pattern) : Prop :=
  ∀ before found after, p.Fits before found after → ∃ c rest, found = c :: rest ∧ kind c = false

section Avoids

variable {kind : Char → Bool}

theorem Avoids.not_begins (avoids : Avoids kind p) {c : Char} {rest : List Char} (ofKind : kind c = true) :
    ¬ p.Begins before (c :: rest) := by
  rintro ⟨found, after, whole, fits⟩
  obtain ⟨d, ds, rfl, other⟩ := avoids before found after fits
  obtain ⟨rfl, _⟩ := List.cons.inj whole
  rw [other] at ofKind
  cases ofKind

theorem Avoids.followed (avoids : Avoids kind p) : Avoids kind (followed p q) := by
  rintro before _ after ⟨x, y, rfl, begins, _⟩
  obtain ⟨c, rest, rfl, other⟩ := avoids before x (y ++ after) begins
  exact ⟨c, rest ++ y, rfl, other⟩

theorem avoids_letter (none : ∀ c, allowed c = true → kind c = false) :
    Avoids kind (letter allowed) := by
  rintro before _ after ⟨c, rfl, fits⟩
  exact ⟨c, [], rfl, none c fits⟩

theorem avoids_sign {c : Char} (none : kind c = false) : Avoids kind (sign c) :=
  avoids_letter fun d same => by rwa [beq_iff_eq.mp same]

theorem avoids_spelled {same : Char → Char → Bool} {w : String} {first : Char} {others : List Char}
    (letters : w.toList = first :: others) (none : ∀ c, same first c = true → kind c = false) :
    Avoids kind (spelled same w) := by
  intro before found after fits
  rw [fits_spelled, letters, List.forall₂_cons_left_iff] at fits
  obtain ⟨c, rest, own, _, rfl⟩ := fits
  exact ⟨c, rest, rfl, none c own⟩

theorem avoids_word {w : String} {first : Char} {others : List Char}
    (letters : w.toList = first :: others) (none : kind first = false) : Avoids kind (word w) :=
  avoids_spelled letters fun c same => by rwa [beq_iff_eq.mp same]

theorem avoids_wordEdge (later : Avoids kind q) : Avoids kind (Pattern.followed wordEdge q) := by
  rintro before _ after ⟨_, y, rfl, ⟨rfl, _⟩, ends⟩
  exact later _ y after ends

theorem avoids_either (first : Avoids kind p) (second : Avoids kind q) : Avoids kind (either p q) :=
  fun before found after fits => fits.elim (first before found after) (second before found after)

theorem avoids_oneOf {ps : List Pattern} (each : ∀ p ∈ ps, Avoids kind p) : Avoids kind (oneOf ps) := by
  intro before found after fits
  obtain ⟨p, member, own⟩ := fits_oneOf.mp fits
  exact each p member before found after own

end Avoids

theorem begins_skipped (free : q.isFree = true) (avoids : Avoids allowed q) :
    (followed (repeated allowed) q).Begins before text ↔
      q.Begins before (text.dropWhile allowed) := by
  rw [begins_repeated]
  constructor
  · rintro ⟨run, rest, rfl, all, begins⟩
    rw [begins_of_free free before] at begins
    rw [List.dropWhile_append_of_pos all]
    rwa [dropWhile_of_halts]
    intro c first
    cases kept : allowed c with
    | false => rfl
    | true =>
        obtain ⟨others, rfl⟩ := List.head?_eq_some_iff.mp first
        exact absurd begins (avoids.not_begins kept)
  · intro begins
    refine ⟨text.takeWhile allowed, text.dropWhile allowed, List.takeWhile_append_dropWhile.symm, ?_, ?_⟩
    · exact fun c member => List.mem_takeWhile_imp member
    · rwa [begins_of_free free before]

end Pattern

/-! The first fit. -/

section Search

variable {spot : Spot} {before : Option Char} {text : List Char}

theorem exists_place_cons {c : Char} : (∃ start rest, c :: text = start ++ rest ∧
      spot (lastOf before start) rest = true) ↔
    spot before (c :: text) = true ∨ ∃ start rest, text = start ++ rest ∧
      spot (lastOf (some c) start) rest = true := by
  constructor
  · rintro ⟨start, rest, whole, holds⟩
    cases start with
    | nil => exact Or.inl (whole ▸ holds)
    | cons d start =>
        obtain ⟨rfl, rfl⟩ := List.cons.inj whole
        rw [lastOf_cons] at holds
        exact Or.inr ⟨start, rest, rfl, holds⟩
  · rintro (holds | ⟨start, rest, rfl, holds⟩)
    · exact ⟨[], c :: text, rfl, holds⟩
    · exact ⟨c :: start, rest, rfl, by rwa [lastOf_cons]⟩

theorem search_isSome_iff : (search spot before text).isSome = true ↔
    ∃ start rest, text = start ++ rest ∧ spot (lastOf before start) rest = true := by
  induction text generalizing before with
  | nil =>
      rw [search]
      constructor
      · intro found
        split at found
        next holds => exact ⟨[], [], rfl, holds⟩
        next => simp at found
      · rintro ⟨start, rest, whole, holds⟩
        obtain ⟨rfl, rfl⟩ := List.append_eq_nil_iff.mp whole.symm
        rw [lastOf_nil] at holds
        rw [if_pos holds]
        rfl
  | cons c text ih =>
      rw [exists_place_cons, search]
      split
      next holds => simp [holds]
      next fails => rw [Option.isSome_map, ih, or_iff_right fails]

def IsFirst (spot : Spot) (before : Option Char) (text start : List Char) : Prop :=
  ∃ rest, text = start ++ rest ∧ spot (lastOf before start) rest = true ∧
    ∀ start' rest', text = start' ++ rest' → spot (lastOf before start') rest' = true →
      start.length ≤ start'.length

theorem exists_isFirst {n : Nat} (found : search spot before text = some n) :
    ∃ start, start.length = n ∧ IsFirst spot before text start := by
  induction text generalizing before n with
  | nil =>
      rw [search] at found
      split at found
      next holds =>
        obtain rfl := Option.some.inj found
        exact ⟨[], rfl, [], rfl, holds, fun _ _ _ _ => Nat.zero_le _⟩
      next => simp at found
  | cons c text ih =>
      rw [search] at found
      split at found
      next holds =>
        obtain rfl := Option.some.inj found
        exact ⟨[], rfl, c :: text, rfl, holds, fun _ _ _ _ => Nat.zero_le _⟩
      next fails =>
        obtain ⟨m, deeper, rfl⟩ := Option.map_eq_some_iff.mp found
        obtain ⟨start, rfl, rest, rfl, holds, first⟩ := ih deeper
        refine ⟨c :: start, rfl, rest, rfl, by rwa [lastOf_cons], ?_⟩
        intro start' rest' whole holds'
        cases start' with
        | nil => exact absurd (whole ▸ holds') fails
        | cons d start' =>
            obtain ⟨rfl, behind⟩ := List.cons.inj whole
            rw [lastOf_cons] at holds'
            exact Nat.succ_le_succ (first start' rest' behind holds')

theorem search_eq_some_iff {n : Nat} : search spot before text = some n ↔
    ∃ start, start.length = n ∧ IsFirst spot before text start := by
  constructor
  · exact exists_isFirst
  · rintro ⟨start, rfl, rest, whole, holds, first⟩
    obtain ⟨m, found⟩ :=
      Option.isSome_iff_exists.mp (search_isSome_iff.mpr ⟨start, rest, whole, holds⟩)
    obtain ⟨other, rfl, rest', whole', holds', first'⟩ := exists_isFirst found
    rw [found, Nat.le_antisymm (first' start rest whole holds) (first other rest' whole' holds')]

end Search

structure FirstFit (p : Pattern) (text start found after : List Char) : Prop where
  whole : text = start ++ (found ++ after)
  fits : p.Fits start.getLast? found after
  first : ∀ start' found' after', text = start' ++ (found' ++ after') →
    p.Fits start'.getLast? found' after' → start.length ≤ start'.length

theorem FirstFit.length_eq {p : Pattern} {text start found after start' found' after' : List Char}
    (fit : FirstFit p text start found after) (other : FirstFit p text start' found' after') :
    start.length = start'.length :=
  Nat.le_antisymm (fit.first start' found' after' other.whole other.fits)
    (other.first start found after fit.whole fit.fits)

def Pattern.Occurs (p : Pattern) (text : List Char) : Prop :=
  ∃ start found after, text = start ++ (found ++ after) ∧ p.Fits start.getLast? found after

theorem Pattern.Occurs.exists_firstFit {p : Pattern} {text : List Char} (occurs : p.Occurs text) :
    ∃ start found after, FirstFit p text start found after := by
  classical
  let At (n : Nat) : Prop := ∃ start found after, text = start ++ (found ++ after) ∧
    p.Fits start.getLast? found after ∧ start.length = n
  have some : ∃ n, At n := by
    obtain ⟨start, found, after, whole, fits⟩ := occurs
    exact ⟨start.length, start, found, after, whole, fits, rfl⟩
  obtain ⟨start, found, after, whole, fits, length⟩ := Nat.find_spec some
  refine ⟨start, found, after, whole, fits, fun start' found' after' whole' fits' => ?_⟩
  exact length ▸ Nat.find_min' some ⟨start', found', after', whole', fits', rfl⟩

section Find

variable {spot : Spot} {p : Pattern} {text : List Char}

theorem find?_eq_some_iff (same : ∀ before rest, spot before rest = true ↔ p.Begins before rest)
    {n : Nat} : find? spot text = some n ↔
      ∃ start found after, FirstFit p text start found after ∧ start.length = n := by
  rw [find?, search_eq_some_iff]
  simp only [IsFirst, lastOf_none, same]
  constructor
  · rintro ⟨start, length, _, rfl, ⟨found, after, rfl, fits⟩, first⟩
    refine ⟨start, found, after, ⟨rfl, fits, ?_⟩, length⟩
    exact fun start' found' after' whole fits' =>
      first start' _ whole ⟨found', after', rfl, fits'⟩
  · rintro ⟨start, found, after, ⟨rfl, fits, first⟩, length⟩
    refine ⟨start, length, _, rfl, ⟨found, after, rfl, fits⟩, ?_⟩
    rintro start' _ whole ⟨found', after', rfl, fits'⟩
    exact first start' found' after' whole fits'

theorem find?_isSome_iff (same : ∀ before rest, spot before rest = true ↔ p.Begins before rest) :
    (find? spot text).isSome = true ↔ p.Occurs text := by
  rw [find?, search_isSome_iff]
  simp only [lastOf_none, same]
  constructor
  · rintro ⟨start, _, rfl, found, after, rfl, fits⟩
    exact ⟨start, found, after, rfl, fits⟩
  · rintro ⟨start, found, after, rfl, fits⟩
    exact ⟨start, found ++ after, rfl, found, after, rfl, fits⟩

end Find

end Groundwork.Text
