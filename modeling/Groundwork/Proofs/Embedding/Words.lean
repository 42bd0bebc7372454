import Groundwork.Proofs.Embedding.Identifiers
import Groundwork.Proofs.Text.Ascii

/-!
The words of an identifier. They are the matches of a regular expression, found one behind the other: capitals
with no small letter behind them, small letters with or without a capital before them, and digits. A run of
capitals leaves its last one to the small letters behind it. Together the words are the identifier without its
underscores.
-/

namespace Groundwork.Embedding

open Text

/-- A regular expression whose matches are tried in order: runs from the longest down, and the first of two
alternatives before the second. `notAhead` takes nothing and fails before a forbidden character. -/
inductive Regex where
  | nothing
  | letter (allowed : Char → Bool)
  | repeated (allowed : Char → Bool)
  | notAhead (forbidden : Char → Bool)
  | followed (first second : Regex)
  | either (first second : Regex)

namespace Regex

def runRests (allowed : Char → Bool) : List Char → List (List Char)
  | [] => [[]]
  | c :: rest => if allowed c then runRests allowed rest ++ [c :: rest] else [c :: rest]

/-- What is left of a text behind each match at its start, in the order in which they are tried. -/
def rests : Regex → List Char → List (List Char)
  | nothing, text => [text]
  | letter _, [] => []
  | letter allowed, c :: rest => if allowed c then [rest] else []
  | repeated allowed, text => runRests allowed text
  | notAhead forbidden, text => if text.head?.any forbidden then [] else [text]
  | followed p q, text => (p.rests text).flatMap q.rests
  | either p q, text => p.rests text ++ q.rests text

def begun (start allowed : Char → Bool) : Regex := followed (letter start) (repeated allowed)

def several (allowed : Char → Bool) : Regex := begun allowed allowed

def identifier : Regex := begun isIdentifierStart isIdentifierPart

def acronym : Regex := followed (several isAsciiUpper) (notAhead isAsciiLower)

def plainWord : Regex := followed (either (letter isAsciiUpper) nothing) (several isAsciiLower)

def word : Regex := either acronym (either plainWord (several isAsciiDigit))

/-- The matches found in a text from the left: behind the last one, or else behind a character at which none
begins, the first one that is tried. Each of them takes something. -/
inductive Finds (p : Regex) : List Char → List (List Char) → Prop where
  | none (fails : p.rests [] = []) : Finds p [] []
  | pass {c : Char} {rest : List Char} {found : List (List Char)} (fails : p.rests (c :: rest) = [])
      (further : Finds p rest found) : Finds p (c :: rest) found
  | first {text w rest : List Char} {found : List (List Char)} (whole : text = w ++ rest)
      (filled : w ≠ []) (tried : (p.rests text).head? = some rest) (further : Finds p rest found) :
      Finds p text (w :: found)

section Order

variable {p q : Regex} {text rest run : List Char} {c : Char} {start allowed : Char → Bool}

theorem Finds.unique {found others : List (List Char)} (finds : p.Finds text found)
    (again : p.Finds text others) : found = others := by
  induction finds generalizing others with
  | none fails =>
      cases again with
      | none => rfl
      | first whole filled tried further => exact absurd (List.append_eq_nil_iff.mp whole.symm).1 filled
  | pass fails _ ih =>
      cases again with
      | pass _ further => exact ih further
      | first whole filled tried further => simp [fails] at tried
  | first whole filled tried _ ih =>
      cases again with
      | none => exact absurd (List.append_eq_nil_iff.mp whole.symm).1 filled
      | pass fails => simp [fails] at tried
      | first whole' _ tried' further' =>
          obtain rfl := Option.some.inj (tried.symm.trans tried')
          obtain rfl := List.append_cancel_right (whole.symm.trans whole')
          rw [ih further']

theorem Finds.skip {skipped : List Char} {found : List (List Char)} (further : p.Finds rest found)
    (fails : ∀ c ∈ skipped, ∀ rest, p.rests (c :: rest) = []) : p.Finds (skipped ++ rest) found := by
  induction skipped with
  | nil => exact further
  | cons c skipped ih =>
      obtain ⟨first, others⟩ := List.forall_mem_cons.mp fails
      exact .pass (first _) (ih others)

/-! What is tried, by the kind of expression. -/

theorem runRests_cons : runRests allowed (c :: rest) =
    if allowed c then runRests allowed rest ++ [c :: rest] else [c :: rest] := rfl

theorem rests_letter : (letter allowed).rests (c :: rest) = if allowed c then [rest] else [] := rfl

theorem rests_notAhead : (notAhead allowed).rests text =
    if text.head?.any allowed then [] else [text] := rfl

theorem rests_followed : (followed p q).rests text = (p.rests text).flatMap q.rests := rfl

theorem rests_either : (either p q).rests text = p.rests text ++ q.rests text := rfl

theorem rests_begun : (begun start allowed).rests text =
    ((letter start).rests text).flatMap (runRests allowed) := rfl

theorem rests_acronym : acronym.rests text =
    ((several isAsciiUpper).rests text).flatMap (notAhead isAsciiLower).rests := rfl

theorem rests_plainWord : plainWord.rests text =
    ((letter isAsciiUpper).rests text ++ [text]).flatMap (several isAsciiLower).rests := rfl

theorem rests_word : word.rests text =
    acronym.rests text ++ (plainWord.rests text ++ (several isAsciiDigit).rests text) := rfl

theorem rests_letter_pos (fits : allowed c = true) : (letter allowed).rests (c :: rest) = [rest] :=
  if_pos fits

theorem rests_letter_neg (halts : Halts allowed text) : (letter allowed).rests text = [] := by
  cases text with
  | nil => rfl
  | cons c text => rw [rests_letter, if_neg (ne_true_of_eq_false (halts c rfl))]

theorem head?_runRests (allowed : Char → Bool) (text : List Char) :
    (runRests allowed text).head? = some (text.dropWhile allowed) := by
  induction text with
  | nil => rfl
  | cons c text ih =>
      rw [runRests_cons, List.dropWhile_cons]
      split
      · rw [List.head?_append, ih]
        rfl
      · rfl

theorem runRests_of_halts (halts : Halts allowed text) : runRests allowed text = [text] := by
  cases text with
  | nil => rfl
  | cons c text => rw [runRests_cons, if_neg (ne_true_of_eq_false (halts c rfl))]

theorem runRests_concat (all : ∀ d ∈ run, allowed d = true) (last : allowed c = true)
    (halts : Halts allowed rest) :
    ∃ others, runRests allowed (run ++ c :: rest) = rest :: (c :: rest) :: others := by
  induction run with
  | nil =>
      refine ⟨[], ?_⟩
      rw [List.nil_append, runRests_cons, if_pos last, runRests_of_halts halts]
      rfl
  | cons d run ih =>
      obtain ⟨first, later⟩ := List.forall_mem_cons.mp all
      obtain ⟨others, tried⟩ := ih later
      refine ⟨others ++ [d :: (run ++ c :: rest)], ?_⟩
      rw [List.cons_append, runRests_cons, if_pos first, tried]
      rfl

theorem rests_begun_pos (fits : start c = true) :
    (begun start allowed).rests (c :: rest) = runRests allowed rest := by
  rw [rests_begun, rests_letter_pos fits]
  exact List.append_nil _

theorem rests_begun_neg (halts : Halts start text) : (begun start allowed).rests text = [] := by
  rw [rests_begun, rests_letter_neg halts]
  rfl

theorem head?_begun (fits : start c = true) (all : ∀ d ∈ run, allowed d = true)
    (halts : Halts allowed rest) : ((begun start allowed).rests (c :: (run ++ rest))).head? = some rest := by
  rw [rests_begun_pos fits, head?_runRests, List.dropWhile_append_of_pos all, dropWhile_of_halts halts]

theorem head?_several (filled : run ≠ []) (all : ∀ d ∈ run, allowed d = true)
    (halts : Halts allowed rest) : ((several allowed).rests (run ++ rest)).head? = some rest := by
  obtain ⟨c, run, rfl⟩ := List.exists_cons_of_ne_nil filled
  obtain ⟨first, others⟩ := List.forall_mem_cons.mp all
  exact head?_begun first others halts

theorem rests_notAhead_pos (halts : Halts allowed text) : (notAhead allowed).rests text = [text] := by
  cases text with
  | nil => rfl
  | cons c text => simp [rests_notAhead, halts c rfl]

theorem rests_notAhead_neg (fits : allowed c = true) : (notAhead allowed).rests (c :: rest) = [] := by
  simp [rests_notAhead, fits]

theorem head?_followed (first : (p.rests text).head? = some run) (second : (q.rests run).head? = some rest) :
    ((followed p q).rests text).head? = some rest := by
  obtain ⟨others, tried⟩ := List.head?_eq_some_iff.mp first
  rw [rests_followed, tried, List.flatMap_cons, List.head?_append, second]
  rfl

theorem rests_several_pos (fits : allowed c = true) :
    (several allowed).rests (c :: rest) = runRests allowed rest := rests_begun_pos fits

theorem rests_several_neg (halts : Halts allowed text) : (several allowed).rests text = [] :=
  rests_begun_neg halts

theorem rests_acronym_neg (noCapital : Halts isAsciiUpper text) : acronym.rests text = [] := by
  rw [rests_acronym, rests_several_neg noCapital]
  rfl

theorem rests_plainWord_small (noCapital : Halts isAsciiUpper text) :
    plainWord.rests text = (several isAsciiLower).rests text := by
  rw [rests_plainWord, rests_letter_neg noCapital]
  exact List.append_nil _

theorem rests_word_neg (noCapital : Halts isAsciiUpper text) (noSmall : Halts isAsciiLower text)
    (noDigit : Halts isAsciiDigit text) : word.rests text = [] := by
  rw [rests_word, rests_acronym_neg noCapital, rests_plainWord_small noCapital,
    rests_several_neg noSmall, rests_several_neg noDigit]
  rfl

end Order

end Regex

section Classes

variable {c : Char}

def isWordPart (c : Char) : Bool := isAsciiUpper c || isAsciiLower c || isAsciiDigit c

theorem isWordPart_iff (part : isIdentifierPart c = true) : isWordPart c = (c != '_') := by
  by_cases joint : c = '_'
  · subst joint
    rfl
  · rw [bne_iff_ne.mpr joint]
    rw [isIdentifierPart, isIdentifierStart, isAsciiLetter, beq_false_of_ne joint, Bool.or_false,
      Bool.or_comm (isAsciiLower c)] at part
    exact part

end Classes

inductive Cut : List Char → List Char → Prop where
  | capitals {w rest : List Char} (filled : w ≠ []) (all : ∀ c ∈ w, isAsciiUpper c = true)
      (ends : Halts isAsciiUpper rest) (noSmall : Halts isAsciiLower rest) : Cut w rest
  | beforeCapital {w rest : List Char} {u l : Char} (filled : w ≠ [])
      (all : ∀ c ∈ w, isAsciiUpper c = true) (upper : isAsciiUpper u = true)
      (lower : isAsciiLower l = true) : Cut w (u :: l :: rest)
  | capitalized {w rest : List Char} {u : Char} (upper : isAsciiUpper u = true) (filled : w ≠ [])
      (all : ∀ c ∈ w, isAsciiLower c = true) (ends : Halts isAsciiLower rest) : Cut (u :: w) rest
  | small {w rest : List Char} (filled : w ≠ []) (all : ∀ c ∈ w, isAsciiLower c = true)
      (ends : Halts isAsciiLower rest) : Cut w rest
  | digits {w rest : List Char} (filled : w ≠ []) (all : ∀ c ∈ w, isAsciiDigit c = true)
      (ends : Halts isAsciiDigit rest) : Cut w rest

section Cuts

variable {w rest text : List Char} {c : Char}

theorem Cut.filled (cut : Cut w rest) : w ≠ [] := by
  cases cut with
  | capitals filled | beforeCapital filled | small filled | digits filled => exact filled
  | capitalized => exact List.cons_ne_nil _ _

theorem Cut.parts (cut : Cut w rest) : ∀ c ∈ w, isWordPart c = true := by
  unfold isWordPart
  cases cut with
  | capitals _ all | beforeCapital _ all => exact fun c member => by rw [all c member]; rfl
  | small _ all => exact fun c member => by rw [all c member, Bool.or_true, Bool.true_or]
  | digits _ all => exact fun c member => by rw [all c member, Bool.or_true]
  | capitalized upper _ all =>
      refine List.forall_mem_cons.mpr ⟨by rw [upper]; rfl, fun c member => ?_⟩
      rw [all c member, Bool.or_true, Bool.true_or]

theorem exists_cut_upper (upper : isAsciiUpper c = true) (text : List Char) :
    ∃ w rest, c :: text = w ++ rest ∧ Cut w rest := by
  obtain ⟨run, rest, rfl, all, ends⟩ := exists_run isAsciiUpper text
  have allUpper : ∀ d ∈ c :: run, isAsciiUpper d = true := List.forall_mem_cons.mpr ⟨upper, all⟩
  by_cases noSmall : Halts isAsciiLower rest
  · exact ⟨c :: run, rest, rfl, .capitals (List.cons_ne_nil c run) allUpper ends noSmall⟩
  · cases rest with
    | nil => exact absurd halts_nil noSmall
    | cons l later =>
        have lower : isAsciiLower l = true := by simpa [Halts] using noSmall
        rcases List.eq_nil_or_concat run with rfl | ⟨init, u, rfl⟩
        · obtain ⟨small, rest, rfl, allSmall, stops⟩ := exists_run isAsciiLower later
          have allLower : ∀ d ∈ l :: small, isAsciiLower d = true :=
            List.forall_mem_cons.mpr ⟨lower, allSmall⟩
          exact ⟨c :: l :: small, rest, rfl,
            .capitalized upper (List.cons_ne_nil l small) allLower stops⟩
        · rw [List.concat_eq_append] at allUpper ⊢
          rw [← List.cons_append, List.forall_mem_append] at allUpper
          refine ⟨c :: init, u :: l :: later, by simp, ?_⟩
          exact .beforeCapital (List.cons_ne_nil c init) allUpper.1
            (allUpper.2 u (List.mem_singleton_self u)) lower

theorem exists_cut (part : isWordPart c = true) (text : List Char) :
    ∃ w rest, c :: text = w ++ rest ∧ Cut w rest := by
  simp only [isWordPart, Bool.or_eq_true] at part
  rcases part with (upper | lower) | digit
  · exact exists_cut_upper upper text
  · obtain ⟨run, rest, rfl, all, ends⟩ := exists_run isAsciiLower text
    exact ⟨c :: run, rest, rfl,
      .small (List.cons_ne_nil c run) (List.forall_mem_cons.mpr ⟨lower, all⟩) ends⟩
  · obtain ⟨run, rest, rfl, all, ends⟩ := exists_run isAsciiDigit text
    exact ⟨c :: run, rest, rfl,
      .digits (List.cons_ne_nil c run) (List.forall_mem_cons.mpr ⟨digit, all⟩) ends⟩

theorem wordLength_eq {capitals : List Char} (all : ∀ d ∈ capitals, isAsciiUpper d = true)
    (ends : Halts isAsciiUpper rest) : wordLength (capitals ++ rest) =
      if 1 < capitals.length then
        if 0 < (rest.takeWhile isAsciiLower).length then capitals.length - 1 else capitals.length
      else if capitals.length = 1 then
        if 0 < (rest.takeWhile isAsciiLower).length then
          1 + (rest.takeWhile isAsciiLower).length else 1
      else if 0 < (rest.takeWhile isAsciiLower).length then (rest.takeWhile isAsciiLower).length
      else (rest.takeWhile isAsciiDigit).length := by
  rw [wordLength, takeWhile_append all ends, List.drop_left]
  rcases capitals with _ | ⟨u, _ | ⟨v, capitals⟩⟩
  · rfl
  · rfl
  · simp

theorem wordLength_of_halts (noCapital : Halts isAsciiUpper text) : wordLength text =
    if 0 < (text.takeWhile isAsciiLower).length then (text.takeWhile isAsciiLower).length
    else (text.takeWhile isAsciiDigit).length := by
  have none : ∀ d ∈ ([] : List Char), isAsciiUpper d = true := by simp
  exact wordLength_eq none noCapital

theorem Cut.wordLength_eq (cut : Cut w rest) : wordLength (w ++ rest) = w.length := by
  have positive : 0 < w.length := List.length_pos_iff.mpr cut.filled
  -- In each case the runs of capitals, small letters and digits at the start are known.
  cases cut with
  | capitals _ all ends noSmall =>
      rw [Embedding.wordLength_eq all ends, takeWhile_of_halts noSmall]
      rcases Nat.lt_or_eq_of_le positive with many | one
      · simp [many]
      · simp [← one]
  | @beforeCapital _ later u l _ all upper lower =>
      have allUpper : ∀ d ∈ w ++ [u], isAsciiUpper d = true :=
        List.forall_mem_append.mpr ⟨all, List.forall_mem_singleton.mpr upper⟩
      have whole : w ++ u :: l :: later = (w ++ [u]) ++ l :: later := by simp
      rw [whole, Embedding.wordLength_eq allUpper (halts_cons (not_upper_of_lower lower) _),
        List.takeWhile_cons_of_pos lower]
      simp [positive]
  | @capitalized w _ u upper filled all ends =>
      have some : 0 < w.length := List.length_pos_iff.mpr filled
      have first : u :: w ++ rest = [u] ++ (w ++ rest) := rfl
      rw [first, Embedding.wordLength_eq (List.forall_mem_singleton.mpr upper)
          (halts_of_run filled all (fun _ => not_upper_of_lower) rest), takeWhile_append all ends]
      simp [some, Nat.add_comm]
  | small filled all ends =>
      have noCapital := halts_of_run filled all (fun _ => not_upper_of_lower) rest
      rw [wordLength_of_halts noCapital, takeWhile_append all ends, if_pos positive]
  | digits filled all ends =>
      have noCapital := halts_of_run filled all (fun _ => not_upper_of_digit) rest
      have noSmall := halts_of_run filled all (fun _ => not_lower_of_digit) rest
      rw [wordLength_of_halts noCapital, takeWhile_append all ends, takeWhile_of_halts noSmall]
      rfl

theorem Cut.tried (cut : Cut w rest) : (Regex.word.rests (w ++ rest)).head? = some rest := by
  rw [Regex.rests_word, List.head?_append, List.head?_append]
  cases cut with
  | capitals filled all ends noSmall =>
      have whole : (Regex.acronym.rests (w ++ rest)).head? = some rest :=
        Regex.head?_followed (Regex.head?_several filled all ends)
          (by rw [Regex.rests_notAhead_pos noSmall]; rfl)
      rw [whole]
      rfl
  | @beforeCapital _ later u l filled all upper lower =>
      obtain ⟨c, w, rfl⟩ := List.exists_cons_of_ne_nil filled
      obtain ⟨first, others⟩ := List.forall_mem_cons.mp all
      have ends : Halts isAsciiUpper (l :: later) := halts_cons (not_upper_of_lower lower) _
      obtain ⟨further, tried⟩ := Regex.runRests_concat others upper ends
      rw [Regex.rests_acronym, List.cons_append, Regex.rests_several_pos first, tried,
        List.flatMap_cons, List.flatMap_cons, Regex.rests_notAhead_neg lower,
        Regex.rests_notAhead_pos (halts_cons (not_lower_of_upper upper) _)]
      rfl
  | @capitalized w _ u upper filled all ends =>
      have noCapital := halts_of_run filled all (fun _ => not_upper_of_lower) rest
      obtain ⟨l, small, rfl⟩ := List.exists_cons_of_ne_nil filled
      have lower : isAsciiLower l = true := all l List.mem_cons_self
      have noAcronym : Regex.acronym.rests (u :: l :: small ++ rest) = [] := by
        rw [Regex.rests_acronym, List.cons_append, Regex.rests_several_pos upper,
          Regex.runRests_of_halts noCapital]
        exact (List.append_nil _).trans (Regex.rests_notAhead_neg lower)
      have plain : (Regex.plainWord.rests (u :: l :: small ++ rest)).head? = some rest := by
        refine Regex.head?_followed ?_ (Regex.head?_several filled all ends)
        rw [Regex.rests_either, List.cons_append, Regex.rests_letter_pos upper]
        rfl
      rw [noAcronym, plain]
      rfl
  | small filled all ends =>
      have noCapital := halts_of_run filled all (fun _ => not_upper_of_lower) rest
      rw [Regex.rests_acronym_neg noCapital, Regex.rests_plainWord_small noCapital,
        Regex.head?_several filled all ends]
      rfl
  | digits filled all ends =>
      have noCapital := halts_of_run filled all (fun _ => not_upper_of_digit) rest
      have noSmall := halts_of_run filled all (fun _ => not_lower_of_digit) rest
      rw [Regex.rests_acronym_neg noCapital, Regex.rests_plainWord_small noCapital,
        Regex.rests_several_neg noSmall, Regex.head?_several filled all ends]
      rfl

theorem wordsOf_cut (cut : Cut w rest) : wordsOf (w ++ rest) = w :: wordsOf rest := by
  obtain ⟨c, others, rfl⟩ := List.exists_cons_of_ne_nil cut.filled
  have length : wordLength (c :: (others ++ rest)) = others.length + 1 := cut.wordLength_eq
  rw [List.cons_append, wordsOf, length]
  simp

end Cuts

/-- The words of a text, with characters between them that belong to none. -/
inductive Splits : List Char → List (List Char) → Prop where
  | none : Splits [] []
  | pass {c : Char} {rest : List Char} {words : List (List Char)} (apart : isWordPart c = false)
      (further : Splits rest words) : Splits (c :: rest) words
  | cut {w rest : List Char} {words : List (List Char)} (cut : Cut w rest)
      (further : Splits rest words) : Splits (w ++ rest) (w :: words)

section Words

variable {text rest : List Char} {words : List (List Char)} {c : Char}

theorem halts_apart (apart : isWordPart c = false) (rest : List Char) :
    Halts isAsciiUpper (c :: rest) ∧ Halts isAsciiLower (c :: rest) ∧ Halts isAsciiDigit (c :: rest) := by
  simp only [isWordPart, Bool.or_eq_false_iff] at apart
  exact ⟨halts_cons apart.1.1 rest, halts_cons apart.1.2 rest, halts_cons apart.2 rest⟩

theorem wordsOf_pass (apart : isWordPart c = false) (rest : List Char) :
    wordsOf (c :: rest) = wordsOf rest := by
  obtain ⟨noCapital, noSmall, noDigit⟩ := halts_apart apart rest
  have zero : wordLength (c :: rest) = 0 := by
    rw [wordLength_of_halts noCapital, takeWhile_of_halts noSmall, takeWhile_of_halts noDigit]
    rfl
  rw [wordsOf, zero]
  rfl

theorem splits_wordsOf (text : List Char) : Splits text (wordsOf text) := by
  induction length : text.length using Nat.strongRecOn generalizing text with
  | ind n ih =>
      cases text with
      | nil =>
          rw [wordsOf]
          exact .none
      | cons c rest =>
          cases part : isWordPart c with
          | false =>
              rw [wordsOf_pass part]
              exact .pass part (ih _ (by rw [← length]; exact Nat.lt_succ_self _) rest rfl)
          | true =>
              obtain ⟨w, later, whole, cut⟩ := exists_cut part rest
              have shorter : later.length < n := by
                have positive : 0 < w.length := List.length_pos_iff.mpr cut.filled
                rw [← length, whole, List.length_append]
                omega
              rw [whole, wordsOf_cut cut]
              exact .cut cut (ih _ shorter later rfl)

theorem Splits.finds (splits : Splits text words) : Regex.word.Finds text words := by
  induction splits with
  | none => exact .none (Regex.rests_word_neg halts_nil halts_nil halts_nil)
  | pass apart _ ih =>
      obtain ⟨noCapital, noSmall, noDigit⟩ := halts_apart apart _
      exact .pass (Regex.rests_word_neg noCapital noSmall noDigit) ih
  | cut cut _ ih => exact .first rfl cut.filled cut.tried ih

theorem Splits.flatten_eq (splits : Splits text words) : words.flatten = text.filter isWordPart := by
  induction splits with
  | none => rfl
  | pass apart _ ih => rw [List.filter_cons_of_neg (ne_true_of_eq_false apart), ih]
  | cut cut _ ih => rw [List.flatten_cons, List.filter_append, List.filter_eq_self.mpr cut.parts, ih]

theorem Splits.parts (splits : Splits text words) {w : List Char} (member : w ∈ words) :
    ∀ c ∈ w, isIdentifierPart c = true := by
  intro c among
  have kept : c ∈ text.filter isWordPart := by
    rw [← splits.flatten_eq]
    exact List.mem_flatten_of_mem member among
  have part := (List.mem_filter.mp kept).2
  rw [isWordPart, Bool.or_comm (isAsciiUpper c)] at part
  rw [isIdentifierPart, isIdentifierStart, isAsciiLetter, Bool.or_right_comm, part, Bool.true_or]

theorem Identifies.parts {names : List (List Char)} (found : Identifies text names) :
    ∀ name ∈ names, ∀ c ∈ name, isIdentifierPart c = true := by
  induction found with
  | none => simp
  | first _ begins goesOn _ _ ih =>
      refine List.forall_mem_cons.mpr ⟨?_, ih⟩
      exact List.forall_mem_cons.mpr ⟨isIdentifierPart_of_start begins, goesOn⟩

theorem Identifies.finds {names : List (List Char)} (found : Identifies text names) :
    Regex.identifier.Finds text names := by
  have fails {c : Char} (apart : isIdentifierStart c = false) (rest : List Char) :
      Regex.identifier.rests (c :: rest) = [] := Regex.rests_begun_neg (halts_cons apart rest)
  induction found with
  | none plain =>
      have all := (Regex.Finds.none rfl).skip fun c member => fails (plain c member)
      rwa [List.append_nil] at all
  | first plain begins goesOn ends _ ih =>
      refine Regex.Finds.skip ?_ fun c member => fails (plain c member)
      exact .first rfl (List.cons_ne_nil _ _) (Regex.head?_begun begins goesOn ends) ih

theorem finds_identifier_iff {names : List (List Char)} :
    Regex.identifier.Finds text names ↔ names = identifiers text := by
  have found := (identifies_iff.mpr (Eq.refl (identifiers text))).finds
  constructor
  · exact fun finds => finds.unique found
  · rintro rfl
    exact found

theorem finds_word_iff : Regex.word.Finds text words ↔ words = wordsOf text := by
  have found := (splits_wordsOf text).finds
  constructor
  · exact fun finds => finds.unique found
  · rintro rfl
    exact found

end Words

section Case

variable {cs : List Char}

theorem lt_of_isIdentifierPart {c : Char} (part : isIdentifierPart c = true) : c.toNat < 128 := by
  simp only [isIdentifierPart, isIdentifierStart, isAsciiLetter, Bool.or_eq_true, isAsciiLower_iff,
    isAsciiUpper_iff, isAsciiDigit_iff, beq_iff_eq] at part
  rcases part with ((small | capital) | rfl) | digit
  · omega
  · omega
  · decide
  · omega

theorem lowered_eq (parts : ∀ c ∈ cs, isIdentifierPart c = true) :
    lowered cs = lower (String.ofList cs) := by
  rw [lower, String.toList_ofList,
    lowerFrom_ascii fun c member => lt_of_isIdentifierPart (parts c member)]
  rfl

theorem length_lower (parts : ∀ c ∈ cs, isIdentifierPart c = true) :
    (lower (String.ofList cs)).length = cs.length := by
  rw [← lowered_eq parts, lowered, String.length_ofList, List.length_map]

theorem tokensOf_eq (parts : ∀ c ∈ cs, isIdentifierPart c = true) : tokensOf cs =
    ⟨lower (String.ofList cs), 2⟩ ::
      if 2 ≤ (wordsOf cs).length then
        ((wordsOf cs).map fun w => lower (String.ofList w)).filter (1 < ·.length) |>.map (⟨·, 1⟩)
      else [] := by
  have each (w : List Char) (member : w ∈ wordsOf cs) := (splits_wordsOf cs).parts member
  have longer : (wordsOf cs).filter (fun w => 1 < w.length) =
      (wordsOf cs).filter fun w => 1 < (lower (String.ofList w)).length :=
    List.filter_congr fun w member => by rw [length_lower (each w member)]
  have small : ∀ w ∈ (wordsOf cs).filter fun w => 1 < (lower (String.ofList w)).length,
      (⟨lowered w, 1⟩ : Token) = ⟨lower (String.ofList w), 1⟩ :=
    fun w member => by rw [lowered_eq (each w (List.mem_of_mem_filter member))]
  rw [tokensOf, lowered_eq parts, longer, List.map_congr_left small, List.filter_map, List.map_map]
  simp only [Function.comp_def, Nat.succ_le_iff]

end Case

/-- The tokens of a text are its identifiers, each followed by its words if they are at least two, and the words
of an identifier are all of it but the underscores. -/
theorem tokens_spelled (text : String) :
    tokens text = (identifiers text.toList).flatMap (fun name =>
      ⟨lower (String.ofList name), 2⟩ ::
        if 2 ≤ (wordsOf name).length then
          ((wordsOf name).map fun w => lower (String.ofList w)).filter (1 < ·.length) |>.map (⟨·, 1⟩)
        else []) ∧
    (∀ names, Regex.identifier.Finds text.toList names ↔ names = identifiers text.toList) ∧
    ∀ name ∈ identifiers text.toList,
      (∀ words, Regex.word.Finds name words ↔ words = wordsOf name) ∧
      (wordsOf name).flatten = name.filter (· != '_') := by
  have parts := (identifies_iff.mpr (Eq.refl (identifiers text.toList))).parts
  refine ⟨?_, fun _ => finds_identifier_iff, fun name member => ⟨fun _ => finds_word_iff, ?_⟩⟩
  · exact List.flatMap_congr fun name member => tokensOf_eq (parts name member)
  · rw [(splits_wordsOf name).flatten_eq]
    exact List.filter_congr fun c among => isWordPart_iff (parts name member c among)

theorem tokens_spelled_server :
    Regex.identifier.Finds "HTTPServer_v2(x)".toList ["HTTPServer_v2".toList, "x".toList] ∧
      Regex.word.Finds "HTTPServer_v2".toList (wordsOf "HTTPServer_v2".toList) ∧
      (wordsOf "HTTPServer_v2".toList).flatten = "HTTPServerv2".toList := by
  obtain ⟨_, names, each⟩ := tokens_spelled "HTTPServer_v2(x)"
  obtain ⟨words, spelled⟩ := each "HTTPServer_v2".toList (by decide)
  refine ⟨(names _).mpr (by decide), (words _).mpr rfl, ?_⟩
  rw [spelled]
  decide

end Groundwork.Embedding
