import Groundwork.Issue.Detection
import Groundwork.Proofs.Text.Patterns

/-!
The patterns that the rules look for. Each condition that a rule searches with holds exactly where a fit of its
pattern begins.
-/

namespace Groundwork

open Text Pattern

namespace Text

variable {w : String} {before : Option Char} {text rest tail : List Char}

theorem after?_eq_some_iff : after? w text = some tail ↔ text = w.toList ++ tail := by
  rw [after?]
  constructor
  · intro found
    split at found
    next isPrefix =>
      obtain ⟨rest, rfl⟩ := List.isPrefixOf_iff_prefix.mp isPrefix
      obtain rfl := Option.some.inj found
      rw [← String.length_toList, List.drop_left]
    next => simp at found
  · rintro rfl
    rw [if_pos (List.isPrefixOf_iff_prefix.mpr (List.prefix_append _ _)), ← String.length_toList,
      List.drop_left]

theorem wordAfter?_eq_some_iff : wordAfter? w before text = some tail ↔
    Text.wordEdge before text = true ∧ text = w.toList ++ tail := by
  rw [wordAfter?]
  split
  next edge => rw [after?_eq_some_iff, and_iff_right edge]
  next none => simp [none]

theorem any_after_iff {behind : List Char → Bool} :
    (after? w text).any behind = true ↔ ∃ tail, text = w.toList ++ tail ∧ behind tail = true := by
  rw [Option.any_eq_true]
  simp only [after?_eq_some_iff]

theorem any_wordAfter_iff {behind : List Char → Bool} : (wordAfter? w before text).any behind = true ↔
    Text.wordEdge before text = true ∧ ∃ tail, text = w.toList ++ tail ∧ behind tail = true := by
  rw [Option.any_eq_true]
  simp only [wordAfter?_eq_some_iff, and_assoc, exists_and_left]

end Text

namespace Issue

variable {before : Option Char} {rest : List Char}

theorem begins_one {allowed : Char → Bool} : (inOrder [letter allowed]).Begins before rest ↔
    rest.head?.any allowed = true := by
  refine begins_letter.trans ?_
  cases rest <;> simp

/-! Words. -/

def wordPattern (words : List String) (later : List Pattern) : Pattern :=
  oneOf (words.map fun w => inOrder (.wordEdge :: word w :: later))

theorem wordPattern_iff {words : List String} {later : List Pattern} {behind : List Char → Bool}
    (same : ∀ w ∈ words, ∀ tail, behind tail = true ↔
      (inOrder later).Begins (lastOf before w.toList) tail) :
    words.any (fun w => (wordAfter? w before rest).any behind) = true ↔
      (wordPattern words later).Begins before rest := by
  rw [List.any_eq_true, wordPattern, begins_oneOf_map]
  refine exists_congr fun w => and_congr_right fun member => ?_
  rw [any_wordAfter_iff]
  refine Iff.symm (begins_wordEdge.trans (and_congr_right fun _ => begins_word.trans ?_))
  exact exists_congr fun tail => and_congr_right fun _ => (same w member tail).symm

theorem avoids_wordPattern {words : List String} {later : List Pattern}
    (visible : ∀ w ∈ words, w.toList.head?.any (fun c => !isBlank c) = true) :
    Avoids isBlank (wordPattern words later) := by
  refine avoids_oneOf fun p member => ?_
  obtain ⟨w, listed, rfl⟩ := List.mem_map.mp member
  obtain ⟨c, first, shown⟩ := (Option.any_eq_true _ _).mp (visible w listed)
  obtain ⟨others, letters⟩ := List.head?_eq_some_iff.mp first
  exact avoids_wordEdge (avoids_word letters ((Bool.not_eq_true' _).mp shown)).followed

def callPattern (names : List String) : Pattern := wordPattern names [blanks, sign '(']

theorem begins_opened : (inOrder [blanks, sign '(']).Begins before rest ↔
    ((skipBlanks rest).head? == some '(') = true := by
  have avoids : Avoids isBlank (inOrder [sign '(']) := (avoids_sign (by decide)).followed
  refine (begins_skipped rfl avoids).trans (begins_one.trans ?_)
  rw [skipBlanks]
  cases (rest.dropWhile isBlank).head? <;> simp

theorem callOf_iff (names : List String) (before : Option Char) (rest : List Char) :
    callOf names before rest = true ↔ (callPattern names).Begins before rest := by
  rw [callPattern, ← wordPattern_iff fun _ _ _ => begins_opened.symm, callOf]
  congr! 3 with name
  cases wordAfter? name before rest <;> rfl

def wholePattern (words : List String) : Pattern := wordPattern words [.wordEdge]

theorem begins_wordEnd {w : String} (ends : isWordAt w.toList.getLast? = true) (tail : List Char) :
    (inOrder [.wordEdge]).Begins (lastOf before w.toList) tail ↔ (!isWordAt tail.head?) = true := by
  have last : isWordAt (lastOf before w.toList) = true := by
    rw [lastOf]
    cases found : w.toList.getLast? with
    | none => simp [found, isWordAt] at ends
    | some c => rwa [found] at ends
  rw [inOrder, List.foldr_cons, begins_wordEdge, Text.wordEdge, last]
  simp

theorem wholeWord_iff {words : List String} (ends : ∀ w ∈ words, isWordAt w.toList.getLast? = true)
    (before : Option Char) (rest : List Char) :
    wholeWord words before rest = true ↔ (wholePattern words).Begins before rest := by
  rw [wholePattern, ← wordPattern_iff fun w member tail => (begins_wordEnd (ends w member) tail).symm,
    wholeWord]
  congr! 3 with w
  cases wordAfter? w before rest <;> rfl

def wordBlankPattern (words : List String) : Pattern := wordPattern words [letter isBlank]

theorem wordThenBlank_iff (words : List String) (before : Option Char) (rest : List Char) :
    wordThenBlank words before rest = true ↔ (wordBlankPattern words).Begins before rest := by
  rw [wordBlankPattern, ← wordPattern_iff fun _ _ _ => begins_one.symm, wordThenBlank]
  congr! 3 with w
  cases wordAfter? w before rest with
  | none => rfl
  | some tail => cases tail <;> rfl

/-! Quoted texts that are given to a name. -/

def notQuote (c : Char) : Bool := !isQuote c

def quotedPattern : Pattern :=
  inOrder [letter isQuote, letter notQuote, repeated notQuote, letter isQuote]

def assignPattern : Pattern := followed blanks (followed (sign '=') (followed blanks quotedPattern))

theorem begins_closed {body : List Char} :
    (inOrder [letter notQuote, repeated notQuote, letter isQuote]).Begins before body ↔
      (body.takeWhile notQuote).isEmpty = false ∧
        (body.dropWhile notQuote).head?.any isQuote = true := by
  have avoids : Avoids notQuote (inOrder [letter isQuote]) :=
    (avoids_letter fun c quote => by rw [notQuote, quote, Bool.not_true]).followed
  have closed (before : Option Char) (rest : List Char) :
      (inOrder [repeated notQuote, letter isQuote]).Begins before rest ↔
        (rest.dropWhile notQuote).head?.any isQuote = true :=
    (begins_skipped rfl avoids).trans begins_one
  constructor
  · intro begins
    obtain ⟨c, rest, rfl, plain, later⟩ := begins_letter.mp begins
    rw [List.takeWhile_cons_of_pos plain, List.dropWhile_cons_of_pos plain]
    exact ⟨rfl, (closed _ rest).mp later⟩
  · rintro ⟨some, later⟩
    cases body with
    | nil => cases some
    | cons c rest =>
        have plain : notQuote c = true := by
          by_contra none
          rw [List.takeWhile_cons_of_neg none] at some
          cases some
        rw [List.dropWhile_cons_of_pos plain] at later
        exact begins_letter.mpr ⟨c, rest, rfl, plain, (closed _ rest).mpr later⟩

theorem begins_quoted {cs : List Char} : quotedPattern.Begins before cs ↔ ∃ quote body,
    cs = quote :: body ∧ isQuote quote = true ∧ (body.takeWhile notQuote).isEmpty = false ∧
      (body.dropWhile notQuote).head?.any isQuote = true := by
  refine begins_letter.trans (exists_congr fun quote => exists_congr fun body => ?_)
  exact and_congr_right fun _ => and_congr_right fun _ => begins_closed

theorem avoids_quoted : Avoids isBlank quotedPattern := by
  refine (avoids_letter fun c quote => ?_).followed
  rw [isQuote, Bool.or_eq_true, beq_iff_eq, beq_iff_eq] at quote
  rcases quote with rfl | rfl <;> decide

theorem begins_assign : assignPattern.Begins before rest ↔ ∃ tail quote body,
    skipBlanks rest = '=' :: tail ∧ skipBlanks tail = quote :: body ∧ isQuote quote = true ∧
      (body.takeWhile notQuote).isEmpty = false ∧
        (body.dropWhile notQuote).head?.any isQuote = true := by
  have quoted (before : Option Char) (tail : List Char) :=
    (begins_skipped rfl avoids_quoted : (followed blanks quotedPattern).Begins before tail ↔ _).trans
      begins_quoted
  refine (begins_skipped rfl (avoids_sign (by decide)).followed).trans (begins_letter.trans ?_)
  constructor
  · rintro ⟨c, tail, skipped, equals, later⟩
    obtain rfl := beq_iff_eq.mp equals
    obtain ⟨quote, body, rest⟩ := (quoted _ tail).mp later
    exact ⟨tail, quote, body, skipped, rest⟩
  · rintro ⟨tail, quote, body, skipped, rest⟩
    exact ⟨'=', tail, skipped, rfl, (quoted _ tail).mpr ⟨quote, body, rest⟩⟩

theorem assignsText_iff : assignsText rest = true ↔ assignPattern.Begins before rest := by
  rw [begins_assign, assignsText]
  constructor
  · intro assigns
    split at assigns
    next tail skipped =>
      split at assigns
      next quote body opened =>
        rw [Bool.and_eq_true, Bool.and_eq_true, drop_takeWhile, Bool.not_eq_true'] at assigns
        exact ⟨tail, quote, body, skipped, opened, assigns.1.1, assigns.1.2, assigns.2⟩
      next => cases assigns
    next => cases assigns
  · rintro ⟨tail, quote, body, skipped, opened, quotes, some, closes⟩
    simp only [skipped, opened]
    rw [Bool.and_eq_true, Bool.and_eq_true, drop_takeWhile, Bool.not_eq_true']
    exact ⟨⟨quotes, some⟩, closes⟩

theorem afterIgnoringCase?_eq_some_iff {letters tail : List Char} :
    afterIgnoringCase? letters rest = some tail ↔ ∃ found, rest = found ++ tail ∧
      List.Forall₂ (fun l c => ignoringCase l c = true) letters found := by
  induction letters generalizing rest with
  | nil =>
      rw [afterIgnoringCase?]
      constructor
      · intro same
        exact ⟨[], Option.some.inj same, .nil⟩
      · rintro ⟨found, rfl, spelt⟩
        cases spelt
        rfl
  | cons l letters ih =>
      simp only [List.forall₂_cons_left_iff]
      constructor
      · intro same
        cases rest with
        | nil => cases same
        | cons c rest =>
            rw [afterIgnoringCase?] at same
            split at same
            next fits =>
              obtain ⟨found, rfl, spelt⟩ := ih.mp same
              exact ⟨c :: found, rfl, c, found, fits, spelt, rfl⟩
            next => cases same
      · rintro ⟨_, rfl, c, found, fits, spelt, rfl⟩
        rw [List.cons_append, afterIgnoringCase?, if_pos fits]
        exact ih.mpr ⟨found, rfl, spelt⟩

def passwordPattern : Pattern := followed (spelled ignoringCase "password") assignPattern

theorem begins_spelled_any {w : String} {q : Pattern} {behind : List Char → Bool}
    (same : ∀ before rest, behind rest = true ↔ q.Begins before rest) :
    (followed (spelled ignoringCase w) q).Begins before rest ↔
      (afterIgnoringCase? w.toList rest).any behind = true := by
  rw [Option.any_eq_true, begins_spelled]
  simp only [afterIgnoringCase?_eq_some_iff]
  constructor
  · rintro ⟨found, tail, whole, spelt, later⟩
    exact ⟨tail, ⟨found, whole, spelt⟩, (same _ tail).mpr later⟩
  · rintro ⟨tail, ⟨found, whole, spelt⟩, later⟩
    exact ⟨found, tail, whole, spelt, (same _ tail).mp later⟩

theorem passwordText_iff (before : Option Char) (rest : List Char) :
    passwordText before rest = true ↔ passwordPattern.Begins before rest := by
  rw [passwordPattern, begins_spelled_any fun _ _ => assignsText_iff, passwordText]
  cases afterIgnoringCase? "password".toList rest <;> rfl

def keyPattern : Pattern := followed (spelled ignoringCase "key") assignPattern

def keyText (rest : List Char) : Bool := (afterIgnoringCase? "key".toList rest).any assignsText

theorem keyText_iff : keyText rest = true ↔ keyPattern.Begins before rest := by
  rw [keyPattern, begins_spelled_any fun _ _ => assignsText_iff, keyText]

def isJoint (c : Char) : Bool := c == '_' || c == '-'

theorem avoids_joint : Avoids isJoint keyPattern := by
  refine (avoids_spelled rfl fun c same => ?_).followed
  cases joint : isJoint c with
  | false => rfl
  | true =>
      rw [isJoint, Bool.or_eq_true, beq_iff_eq, beq_iff_eq] at joint
      rcases joint with rfl | rfl <;> exact absurd same (by decide)

theorem fits_joint {found after : List Char} : (either nothing (letter isJoint)).Fits before found after ↔
    found = [] ∨ ∃ c, found = [c] ∧ isJoint c = true := Iff.rfl

def afterJoint (rest : List Char) : List Char :=
  match rest with
  | '_' :: more => more
  | '-' :: more => more
  | _ => rest

theorem begins_joined : (followed (either nothing (letter isJoint)) keyPattern).Begins before rest ↔
    keyText (afterJoint rest) = true := by
  rw [begins_followed]
  simp only [fits_joint]
  constructor
  · rintro ⟨_, tail, rfl, rfl | ⟨c, rfl, joint⟩, later⟩
    · have own : afterJoint tail = tail := by
        cases tail with
        | nil => rfl
        | cons c tail =>
            have plain : ¬ isJoint c = true := fun joint => avoids_joint.not_begins joint later
            rw [afterJoint]
            · intro more same
              obtain ⟨rfl, _⟩ := List.cons.inj same
              exact plain (by decide)
            · intro more same
              obtain ⟨rfl, _⟩ := List.cons.inj same
              exact plain (by decide)
      rw [List.nil_append, own]
      exact keyText_iff.mpr later
    · rw [isJoint, Bool.or_eq_true, beq_iff_eq, beq_iff_eq] at joint
      rcases joint with rfl | rfl <;> exact keyText_iff.mpr later
  · intro key
    rw [afterJoint.eq_def] at key
    split at key
    next more => exact ⟨['_'], more, rfl, Or.inr ⟨'_', rfl, rfl⟩, keyText_iff.mp key⟩
    next more => exact ⟨['-'], more, rfl, Or.inr ⟨'-', rfl, rfl⟩, keyText_iff.mp key⟩
    next => exact ⟨[], rest, rfl, Or.inl rfl, keyText_iff.mp key⟩

def apiKeyPattern : Pattern :=
  followed (spelled ignoringCase "api") (followed (either nothing (letter isJoint)) keyPattern)

theorem apiKeyText_iff (before : Option Char) (rest : List Char) :
    apiKeyText before rest = true ↔ apiKeyPattern.Begins before rest := by
  have joined (before : Option Char) (tail : List Char) :
      keyText (afterJoint tail) = true ↔
        (followed (either nothing (letter isJoint)) keyPattern).Begins before tail :=
    begins_joined.symm
  rw [apiKeyPattern, begins_spelled_any joined, apiKeyText]
  cases afterIgnoringCase? "api".toList rest with
  | none => rfl
  | some tail =>
      rw [Option.any_some, keyText]
      dsimp only
      split
      next later found =>
        have key : afterIgnoringCase? "key".toList (afterJoint tail) = some later := found
        rw [key, Option.any_some]
      next fails =>
        have key : afterIgnoringCase? "key".toList (afterJoint tail) = none := fails
        rw [key, Option.any_none]

/-! Lines that begin in a certain way. -/

def printed : Pattern := inOrder [word "print", blanks, sign '(']

def printPattern : Pattern := followed .lineStart (followed blanks printed)

theorem avoids_printed : Avoids isBlank printed := (avoids_word rfl (by decide)).followed

theorem printLine_iff (before : Option Char) (rest : List Char) :
    printLine before rest = true ↔ printPattern.Begins before rest := by
  have opened : printed.Begins before (skipBlanks rest) ↔ (after? "print" (skipBlanks rest)).any
      (fun tail => (skipBlanks tail).head? == some '(') = true := by
    rw [any_after_iff]
    exact begins_word.trans (exists_congr fun tail => and_congr_right fun _ => begins_opened)
  rw [printLine, Bool.and_eq_true]
  refine Iff.trans (and_congr_right fun _ => ?_)
    (begins_lineStart.trans (and_congr_right fun _ => begins_skipped rfl avoids_printed)).symm
  rw [← skipBlanks, opened]
  cases after? "print" (skipBlanks rest) <;> rfl

def notBreak (c : Char) : Bool := c != '\n'

def colonPattern : Pattern :=
  inOrder [letter notBreak, repeated notBreak, sign ':', blanks, .lineEnd]

theorem begins_ended {tail : List Char} : (inOrder [.lineEnd]).Begins before tail ↔ Halts notBreak tail := by
  have closes : Halts notBreak tail ↔ ∀ c ∈ tail.head?, c = '\n' := by
    simp [Halts, notBreak]
  rw [closes]
  refine begins_followed.trans ?_
  constructor
  · rintro ⟨_, _, rfl, ⟨rfl, ended⟩, _⟩
    exact ended
  · intro ended
    exact ⟨[], tail, rfl, ⟨rfl, ended⟩, begins_nothing⟩

theorem begins_colon : colonPattern.Begins before rest ↔ ∃ c run spaces tail,
    rest = (c :: run) ++ ':' :: (spaces ++ tail) ∧ (∀ d ∈ c :: run, notBreak d = true) ∧
      (∀ d ∈ spaces, isBlank d = true) ∧ Halts notBreak tail := by
  have closed (before : Option Char) (cs : List Char) :
      (inOrder [sign ':', blanks, .lineEnd]).Begins before cs ↔ ∃ spaces tail,
        cs = ':' :: (spaces ++ tail) ∧ (∀ d ∈ spaces, isBlank d = true) ∧ Halts notBreak tail := by
    refine begins_letter.trans ?_
    constructor
    · rintro ⟨c, _, rfl, colon, later⟩
      obtain rfl := beq_iff_eq.mp colon
      obtain ⟨spaces, tail, rfl, all, ended⟩ := begins_repeated.mp later
      exact ⟨spaces, tail, rfl, all, begins_ended.mp ended⟩
    · rintro ⟨spaces, tail, rfl, all, ended⟩
      exact ⟨':', _, rfl, rfl, begins_repeated.mpr ⟨spaces, tail, rfl, all, begins_ended.mpr ended⟩⟩
  refine begins_letter.trans ?_
  constructor
  · rintro ⟨c, _, rfl, first, later⟩
    obtain ⟨run, _, rfl, all, behind⟩ := begins_repeated.mp later
    obtain ⟨spaces, tail, rfl, blank, ended⟩ := (closed _ _).mp behind
    exact ⟨c, run, spaces, tail, rfl, List.forall_mem_cons.mpr ⟨first, all⟩, blank, ended⟩
  · rintro ⟨c, run, spaces, tail, rfl, all, blank, ended⟩
    obtain ⟨first, all⟩ := List.forall_mem_cons.mp all
    exact ⟨c, _, rfl, first, begins_repeated.mpr
      ⟨run, _, rfl, all, (closed _ _).mpr ⟨spaces, tail, rfl, blank, ended⟩⟩⟩

theorem endsInColon_iff : endsInColon rest = true ↔ colonPattern.Begins before rest := by
  have shape : endsInColon rest = true ↔
      ∃ d ds, (rest.takeWhile notBreak).reverse.dropWhile isBlank = ':' :: d :: ds := by
    rw [endsInColon]
    constructor
    · intro ends
      split at ends
      next d ds same => exact ⟨d, ds, same⟩
      next => cases ends
    · rintro ⟨d, ds, same⟩
      change (rest.takeWhile (· != '\n')).reverse.dropWhile isBlank = _ at same
      simp only [same]
  rw [shape, begins_colon]
  constructor
  · rintro ⟨d, ds, same⟩
    obtain ⟨spaces, line, blank⟩ := trimEnd_append isBlank (rest.takeWhile notBreak)
    rw [trimEnd, same, List.reverse_cons, List.append_assoc, List.singleton_append] at line
    obtain ⟨c, run, first⟩ := List.exists_cons_of_ne_nil (l := (d :: ds).reverse) (by simp)
    rw [first] at line
    refine ⟨c, run, spaces, rest.dropWhile notBreak, ?_, ?_, blank, halts_dropWhile notBreak rest⟩
    · conv_lhs => rw [← List.takeWhile_append_dropWhile (p := notBreak) (l := rest), line]
      simp
    · intro e member
      refine List.mem_takeWhile_imp (l := rest) ?_
      rw [line]
      exact List.mem_append_left _ member
  · rintro ⟨c, run, spaces, tail, rfl, all, blank, ended⟩
    have line : ((c :: run) ++ ':' :: (spaces ++ tail)).takeWhile notBreak =
        (c :: run) ++ ':' :: spaces.takeWhile notBreak := by
      rw [List.takeWhile_append_of_pos all, List.takeWhile_cons_of_pos (by decide),
        takeWhile_append_of_halts ended]
    obtain ⟨d, ds, last⟩ := List.exists_cons_of_ne_nil (l := (c :: run).reverse) (by simp)
    refine ⟨d, ds, ?_⟩
    rw [line, List.reverse_append, List.reverse_cons, List.append_assoc, last,
      List.dropWhile_append_of_pos ?_]
    · rfl
    · intro e member
      rw [List.mem_reverse] at member
      exact blank e ((List.takeWhile_prefix notBreak).subset member)

def headerPattern : Pattern := followed (letter isBlank) (followed blanks colonPattern)

theorem begins_header : headerPattern.Begins before rest ↔ ∃ c run tail, rest = c :: (run ++ tail) ∧
    isBlank c = true ∧ (∀ d ∈ run, isBlank d = true) ∧ endsInColon tail = true := by
  refine begins_letter.trans ?_
  constructor
  · rintro ⟨c, _, rfl, blank, later⟩
    obtain ⟨run, tail, rfl, all, colon⟩ := begins_repeated.mp later
    exact ⟨c, run, tail, rfl, blank, all, endsInColon_iff.mpr colon⟩
  · rintro ⟨c, run, tail, rfl, blank, all, colon⟩
    exact ⟨c, _, rfl, blank, begins_repeated.mpr ⟨run, tail, rfl, all, endsInColon_iff.mp colon⟩⟩

theorem loopHeader_iff (before : Option Char) (rest : List Char) :
    loopHeader rest = true ↔ headerPattern.Begins before rest := by
  rw [begins_header]
  induction rest with
  | nil => simp [loopHeader]
  | cons c rest ih =>
      rw [loopHeader, Bool.and_eq_true, Bool.or_eq_true, ih]
      constructor
      · rintro ⟨blank, colon | ⟨d, run, tail, rfl, next, all, colon⟩⟩
        · exact ⟨c, [], rest, rfl, blank, fun _ member => (List.not_mem_nil member).elim, colon⟩
        · exact ⟨c, d :: run, tail, rfl, blank, List.forall_mem_cons.mpr ⟨next, all⟩, colon⟩
      · rintro ⟨c, run, tail, whole, blank, all, colon⟩
        obtain ⟨rfl, rfl⟩ := List.cons.inj whole
        refine ⟨blank, ?_⟩
        cases run with
        | nil => exact Or.inl colon
        | cons d run =>
            obtain ⟨next, all⟩ := List.forall_mem_cons.mp all
            exact Or.inr ⟨d, run, tail, rfl, next, all, colon⟩

def forPattern : Pattern := followed (word "for") headerPattern

def asyncPattern : Pattern :=
  followed (word "async") (followed (letter isBlank) (followed blanks forPattern))

def loopPattern : Pattern := followed .lineStart (followed blanks (either forPattern asyncPattern))

def afterAsync (rest : List Char) : List Char :=
  match after? "async" rest with
  | some (c :: more) => if isBlank c then skipBlanks more else rest
  | _ => rest

def forLine (rest : List Char) : Bool := (after? "for" rest).any loopHeader

theorem forLine_iff : forLine rest = true ↔ forPattern.Begins before rest := by
  rw [forLine, any_after_iff]
  refine Iff.trans ?_ begins_word.symm
  exact exists_congr fun tail => and_congr_right fun _ => loopHeader_iff _ tail

theorem avoids_for : Avoids isBlank forPattern := (avoids_word rfl (by decide)).followed

theorem avoids_loop : Avoids isBlank (either forPattern asyncPattern) :=
  avoids_either avoids_for (avoids_word rfl (by decide)).followed

theorem begins_async : asyncPattern.Begins before rest ↔ ∃ c more, after? "async" rest = some (c :: more) ∧
    isBlank c = true ∧ forLine (skipBlanks more) = true := by
  have skipped (before : Option Char) (more : List Char) :
      (followed blanks forPattern).Begins before more ↔ forLine (skipBlanks more) = true :=
    (begins_skipped rfl avoids_for).trans forLine_iff.symm
  rw [asyncPattern, begins_word]
  simp only [begins_letter, skipped, after?_eq_some_iff]
  constructor
  · rintro ⟨_, rfl, c, more, rfl, blank, later⟩
    exact ⟨c, more, rfl, blank, later⟩
  · rintro ⟨c, more, rfl, blank, later⟩
    exact ⟨c :: more, rfl, c, more, rfl, blank, later⟩

theorem begins_loop : (either forPattern asyncPattern).Begins before rest ↔
    forLine rest = true ∨ forLine (afterAsync rest) = true := by
  rw [begins_either, ← forLine_iff, begins_async, afterAsync.eq_def]
  constructor
  · rintro (plain | ⟨c, more, async, blank, later⟩)
    · exact Or.inl plain
    · rw [async]
      simp only
      rw [if_pos blank]
      exact Or.inr later
  · rintro (plain | later)
    · exact Or.inl plain
    · split at later
      next c more async =>
        split at later
        next blank => exact Or.inr ⟨c, more, async, blank, later⟩
        next => exact Or.inl later
      next => exact Or.inl later

theorem loopLine_eq : loopLine before rest = (Text.lineStart before rest &&
    (forLine (skipBlanks rest) || forLine (afterAsync (skipBlanks rest)))) := by
  change (_ && [skipBlanks rest, afterAsync (skipBlanks rest)].any _) = _
  rw [List.any_cons, List.any_cons, List.any_nil, Bool.or_false, forLine, forLine]
  congr 2
  · cases after? "for" (skipBlanks rest) <;> rfl
  · cases after? "for" (afterAsync (skipBlanks rest)) <;> rfl

theorem loopLine_iff (before : Option Char) (rest : List Char) :
    loopLine before rest = true ↔ loopPattern.Begins before rest := by
  rw [loopLine_eq, Bool.and_eq_true, Bool.or_eq_true]
  exact (and_congr_right fun _ => begins_loop.symm).trans
    (begins_lineStart.trans (and_congr_right fun _ => begins_skipped rfl avoids_loop)).symm

/-! Comments. -/

def markerPattern (start : String) : Pattern :=
  followed (word start) (followed blanks (oneOf (markers.map word)))

theorem begins_plain {w : String} : (word w).Begins before rest ↔ w.toList.isPrefixOf rest = true := by
  rw [List.isPrefixOf_iff_prefix]
  constructor
  · rintro ⟨found, after, rfl, fits⟩
    obtain rfl := fits_word.mp fits
    exact List.prefix_append _ _
  · rintro ⟨after, rfl⟩
    exact ⟨w.toList, after, rfl, fits_word.mpr rfl⟩

theorem markerAfter_iff (start : String) (before : Option Char) (rest : List Char) :
    markerAfter start before rest = true ↔ (markerPattern start).Begins before rest := by
  have avoids : Avoids isBlank (oneOf (markers.map word)) := by
    refine avoids_oneOf fun p member => ?_
    obtain ⟨marker, listed, rfl⟩ := List.mem_map.mp member
    simp only [markers, List.mem_cons, List.not_mem_nil, or_false] at listed
    rcases listed with rfl | rfl | rfl | rfl <;> exact avoids_word rfl (by decide)
  have marked (before : Option Char) (tail : List Char) :
      (followed blanks (oneOf (markers.map word))).Begins before tail ↔
        markers.any (fun marker => marker.toList.isPrefixOf (skipBlanks tail)) = true := by
    refine (begins_skipped rfl avoids).trans ?_
    rw [List.any_eq_true, begins_oneOf_map]
    exact exists_congr fun marker => and_congr_right fun _ => begins_plain
  have whole : (markerPattern start).Begins before rest ↔ (after? start rest).any (fun tail =>
      markers.any fun marker => marker.toList.isPrefixOf (skipBlanks tail)) = true := by
    rw [any_after_iff]
    exact begins_word.trans (exists_congr fun tail => and_congr_right fun _ => marked _ tail)
  rw [whole, markerAfter]
  cases after? start rest <;> rfl

end Issue

end Groundwork
