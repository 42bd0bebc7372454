import Groundwork.Completion.Fence
import Groundwork.Proofs.Json.Extent
import Groundwork.Proofs.Text.Ascii
import Groundwork.Proofs.Text.Pieces

/-!
What stands between the fences of a completion. An opening and a closing fence are taken off each by itself,
with the blanks next to them, and never a character of the document between them.
-/

namespace Groundwork.Completion

open Text

section Blanks

variable {cs rest before after : List Char}

def Blanks (cs : List Char) : Prop := ∀ c ∈ cs, isBlank c = true

structure Clean (cs : List Char) : Prop where
  first : Halts isBlank cs
  last : Halts isBlank cs.reverse

theorem Blanks.nil : Blanks [] := fun c mem => by cases mem

theorem Blanks.append (first : Blanks cs) (second : Blanks rest) : Blanks (cs ++ rest) := by
  intro c mem
  rcases List.mem_append.mp mem with mem | mem
  · exact first c mem
  · exact second c mem

theorem Blanks.reverse (blanks : Blanks cs) : Blanks cs.reverse :=
  fun c mem => blanks c (List.mem_reverse.mp mem)

theorem Clean.trim (clean : Clean cs) : trim isBlank cs = cs := by
  rw [Text.trim, dropWhile_of_halts clean.first, trimEnd, dropWhile_of_halts clean.last,
    List.reverse_reverse]

theorem Clean.nil : Clean [] := ⟨halts_nil, halts_nil⟩

theorem Clean.append (first : Clean cs) (second : Clean rest) : Clean (cs ++ rest) := by
  refine ⟨halts_append first.first second.first, ?_⟩
  rw [List.reverse_append]
  exact halts_append second.last first.last

theorem Clean.append_around {gap : List Char} (first : Clean cs) (second : Clean rest)
    (some : cs ≠ []) (some' : rest ≠ []) : Clean (cs ++ (gap ++ rest)) := by
  refine ⟨?_, ?_⟩
  · cases cs with
    | nil => exact absurd rfl some
    | cons c cs => exact first.first
  · rw [List.reverse_append, List.reverse_append, List.append_assoc]
    cases reversed : rest.reverse with
    | nil => exact absurd (List.reverse_eq_nil_iff.mp reversed) some'
    | cons c others =>
        have last := second.last
        rw [reversed] at last
        exact last

theorem trim_around (clean : Clean cs) (blank : Blanks before) (blank' : Blanks after) :
    Text.trim isBlank (before ++ (cs ++ after)) = cs := by
  rw [Text.trim, List.dropWhile_append_of_pos blank]
  cases cs with
  | nil =>
      rw [List.nil_append, List.dropWhile_eq_nil_iff.mpr blank']
      rfl
  | cons c cs =>
      have halts : Halts isBlank (c :: cs ++ after) := fun d first => clean.first d first
      rw [dropWhile_of_halts halts, trimEnd, List.reverse_append,
        List.dropWhile_append_of_pos blank'.reverse, dropWhile_of_halts clean.last,
        List.reverse_reverse]

theorem halts_of_append (halts : Halts isBlank (cs ++ rest)) : Halts isBlank cs := by
  cases cs with
  | nil => exact halts_nil
  | cons c cs => exact halts

theorem exists_trimEnd (halts : Halts isBlank cs) : ∃ gap, Blanks gap ∧
    cs = trimEnd isBlank cs ++ gap ∧ Clean (trimEnd isBlank cs) := by
  obtain ⟨gap, whole, blanks⟩ := trimEnd_append isBlank cs
  refine ⟨gap, blanks, whole, ?_, ?_⟩
  · rw [whole] at halts
    exact halts_of_append halts
  · rw [trimEnd, List.reverse_reverse]
    exact halts_dropWhile isBlank cs.reverse

theorem exists_trim (cs : List Char) : ∃ before after, Blanks before ∧ Blanks after ∧
    cs = before ++ (Text.trim isBlank cs ++ after) ∧ Clean (Text.trim isBlank cs) := by
  obtain ⟨gap, blanks, whole, clean⟩ := exists_trimEnd (halts_dropWhile isBlank cs)
  refine ⟨cs.takeWhile isBlank, gap, fun c => List.mem_takeWhile_imp, blanks, ?_, clean⟩
  rw [Text.trim, ← whole, List.takeWhile_append_dropWhile]

end Blanks

section Opening

variable {rest opening : List Char}

def IsWord (cs : List Char) : Prop :=
  List.Forall₂ (fun letter c => sameLetter letter c = true) "json".toList cs

theorem afterWord?_eq_some_iff {word text : List Char} : afterWord? word text = some rest ↔
    ∃ spelled, List.Forall₂ (fun letter c => sameLetter letter c = true) word spelled ∧
      text = spelled ++ rest := by
  induction word generalizing text with
  | nil => simp [afterWord?]
  | cons letter word ih =>
      cases text with
      | nil => simp [afterWord?]
      | cons c text =>
          rw [afterWord?]
          split
          · rename_i same
            rw [ih]
            constructor
            · rintro ⟨spelled, spells, rfl⟩
              exact ⟨c :: spelled, List.Forall₂.cons same spells, rfl⟩
            · rintro ⟨spelled, spells, whole⟩
              cases spells with
              | cons first spells =>
                  obtain ⟨rfl, rfl⟩ := List.cons.inj whole
                  exact ⟨_, spells, rfl⟩
          · rename_i other
            constructor
            · intro found
              cases found
            · rintro ⟨spelled, spells, whole⟩
              cases spells with
              | cons first spells =>
                  obtain ⟨rfl, -⟩ := List.cons.inj whole
                  exact absurd first other

/-- What is taken off before `rest`: nothing, or a fence with the word behind it, if it is there, and
blanks. -/
inductive Opening (rest : List Char) : List Char → Prop
  | absent : ¬ fence <+: rest → Opening rest []
  | bare {gap : List Char} : Blanks gap → (∀ word more, IsWord word → gap ++ rest ≠ word ++ more) →
      Opening rest (fence ++ gap)
  | worded {word gap : List Char} : IsWord word → Blanks gap → Opening rest (fence ++ (word ++ gap))

theorem dropOpening_fence (inner : List Char) : dropOpening (fence ++ inner) =
    ((afterWord? "json".toList inner).getD inner).dropWhile isBlank := by
  rw [dropOpening, if_pos (List.isPrefixOf_iff_prefix.mpr (List.prefix_append fence inner)),
    List.drop_left]

theorem dropOpening_of_unopened {text : List Char} (other : ¬ fence <+: text) :
    dropOpening text = text := by
  rw [dropOpening, if_neg]
  exact fun starts => other (List.isPrefixOf_iff_prefix.mp starts)

theorem dropOpening_append (opened : Opening rest opening) (halts : Halts isBlank rest) :
    dropOpening (opening ++ rest) = rest := by
  cases opened with
  | absent other =>
      exact dropOpening_of_unopened other
  | @bare gap blanks no_word =>
      have none : afterWord? "json".toList (gap ++ rest) = none := by
        cases found : afterWord? "json".toList (gap ++ rest) with
        | none => rfl
        | some more =>
            obtain ⟨word, isWord, same⟩ := afterWord?_eq_some_iff.mp found
            exact absurd same (no_word word more isWord)
      rw [List.append_assoc, dropOpening_fence, none, Option.getD_none,
        List.dropWhile_append_of_pos blanks, dropWhile_of_halts halts]
  | @worded word gap isWord blanks =>
      have some : afterWord? "json".toList (word ++ (gap ++ rest)) = some (gap ++ rest) :=
        afterWord?_eq_some_iff.mpr ⟨word, isWord, rfl⟩
      rw [List.append_assoc, List.append_assoc, dropOpening_fence, some, Option.getD_some,
        List.dropWhile_append_of_pos blanks, dropWhile_of_halts halts]

theorem exists_opening {text : List Char} (clean : Clean text) : ∃ opening,
    Opening (dropOpening text) opening ∧ text = opening ++ dropOpening text ∧
      Clean (dropOpening text) := by
  suffices found : ∃ opening, Opening (dropOpening text) opening ∧ text = opening ++ dropOpening text ∧
      Halts isBlank (dropOpening text) by
    obtain ⟨opening, opened, parts, halts⟩ := found
    refine ⟨opening, opened, parts, halts, ?_⟩
    have last := clean.last
    rw [parts, List.reverse_append] at last
    exact halts_of_append last
  by_cases starts : fence <+: text
  · obtain ⟨inner, rfl⟩ := starts
    rw [dropOpening_fence]
    have split (cs : List Char) := List.takeWhile_append_dropWhile (p := isBlank) (l := cs)
    have blanks (cs : List Char) : Blanks (cs.takeWhile isBlank) := fun c => List.mem_takeWhile_imp
    cases found : afterWord? "json".toList inner with
    | none =>
        refine ⟨_, Opening.bare (blanks inner) ?_, ?_, halts_dropWhile isBlank inner⟩
        · intro word more isWord same
          rw [Option.getD_none, split] at same
          rw [afterWord?_eq_some_iff.mpr ⟨word, isWord, same⟩] at found
          cases found
        · rw [Option.getD_none, List.append_assoc, split]
    | some behind =>
        obtain ⟨word, isWord, rfl⟩ := afterWord?_eq_some_iff.mp found
        refine ⟨_, Opening.worded isWord (blanks behind), ?_, halts_dropWhile isBlank behind⟩
        rw [Option.getD_some, List.append_assoc, List.append_assoc, split]
  · rw [dropOpening_of_unopened starts]
    exact ⟨[], Opening.absent starts, rfl, clean.first⟩

end Opening

section Closing

variable {inner closing : List Char}

/-- What is taken off behind `inner`: nothing, or a fence and the blanks between both. -/
inductive Closing (inner : List Char) : List Char → Prop
  | absent : ¬ fence <:+ inner → Closing inner []
  | fenced {gap : List Char} : Blanks gap → (inner = [] → gap = []) → Closing inner (gap ++ fence)

theorem dropClosing_fence (before : List Char) :
    dropClosing (before ++ fence) = trimEnd isBlank before := by
  rw [dropClosing, if_pos (List.isSuffixOf_iff_suffix.mpr (List.suffix_append before fence)),
    List.length_append, Nat.add_sub_cancel, List.take_left]

theorem dropClosing_of_unclosed {text : List Char} (other : ¬ fence <:+ text) :
    dropClosing text = text := by
  rw [dropClosing, if_neg]
  exact fun ends => other (List.isSuffixOf_iff_suffix.mp ends)

theorem dropClosing_append (closed : Closing inner closing) (clean : Clean inner) :
    dropClosing (inner ++ closing) = inner := by
  cases closed with
  | absent other =>
      rw [List.append_nil]
      exact dropClosing_of_unclosed other
  | @fenced gap blanks _ =>
      rw [← List.append_assoc, dropClosing_fence, trimEnd, List.reverse_append,
        List.dropWhile_append_of_pos blanks.reverse, dropWhile_of_halts clean.last,
        List.reverse_reverse]

theorem exists_closing {text : List Char} (clean : Clean text) : ∃ closing,
    Closing (dropClosing text) closing ∧ text = dropClosing text ++ closing ∧
      Clean (dropClosing text) := by
  by_cases ends : fence <:+ text
  · obtain ⟨before, rfl⟩ := ends
    rw [dropClosing_fence]
    obtain ⟨gap, blanks, whole, inner⟩ := exists_trimEnd (halts_of_append clean.first)
    refine ⟨gap ++ fence, Closing.fenced blanks ?_, ?_, inner⟩
    · -- Nothing but blanks stands before the fence, and a clean text does not begin with one.
      intro none
      rw [none, List.nil_append] at whole
      subst whole
      cases before with
      | nil => rfl
      | cons c before =>
          have blank := blanks c List.mem_cons_self
          rw [clean.first c rfl] at blank
          cases blank
    · rw [← List.append_assoc, ← whole]
  · rw [dropClosing_of_unclosed ends]
    exact ⟨[], Closing.absent ends, (List.append_nil text).symm, clean⟩

end Closing

section Unfenced

variable {text inner rest opening : List Char}

structure Unfenced (text inner : List Char) : Prop where
  clean : Clean inner
  parts : ∃ before opening closing after, Blanks before ∧ Blanks after ∧
    Opening (inner ++ closing) opening ∧ Closing inner closing ∧
      text = before ++ (opening ++ (inner ++ (closing ++ after)))

theorem fence_clean : Clean fence := by
  constructor
  all_goals
    intro c first
    cases first
    decide

def blankCodes : List Nat :=
  List.range' 9 5 ++ (List.range' 28 5 ++ (List.range' 0x2000 11 ++
    [0x85, 0xa0, 0x1680, 0x2028, 0x2029, 0x202f, 0x205f, 0x3000]))

theorem sameLetter_of_isBlank {c : Char} (blank : isBlank c = true) :
    ∀ letter ∈ "json".toList, sameLetter letter c = false := by
  have code : c.toNat ∈ blankCodes := by
    simp only [isBlank, Bool.or_eq_true, Bool.and_eq_true, decide_eq_true_eq, beq_iff_eq] at blank
    simp only [blankCodes, List.mem_append, List.mem_range'_1, List.mem_cons, List.not_mem_nil, or_false]
    omega
  have checked : ("json".toList.all fun letter => blankCodes.all fun n =>
      !sameLetter letter (Char.ofNat n)) = true := by
    decide +kernel
  intro letter mem
  have other := List.all_eq_true.mp (List.all_eq_true.mp checked letter mem) c.toNat code
  rw [Char.ofNat_toNat] at other
  exact Bool.not_eq_true' _ ▸ other

theorem solid_of_spelled {letters word : List Char}
    (spelled : List.Forall₂ (fun letter c => sameLetter letter c = true) letters word)
    (known : letters ⊆ "json".toList) : ∀ c ∈ word, isBlank c = false := by
  induction spelled with
  | nil => simp
  | @cons letter d letters word same _ ih =>
      have solid : isBlank d = false := by
        cases blank : isBlank d with
        | false => rfl
        | true =>
            rw [sameLetter_of_isBlank blank letter (known List.mem_cons_self)] at same
            cases same
      intro c mem
      rcases List.mem_cons.mp mem with rfl | mem
      · exact solid
      · exact ih (fun l later => known (List.mem_cons_of_mem letter later)) c mem

theorem IsWord.clean {word : List Char} (isWord : IsWord word) : Clean word ∧ word ≠ [] := by
  have solid := solid_of_spelled isWord fun _ mem => mem
  refine ⟨⟨?_, ?_⟩, ?_⟩
  · exact fun c first => solid c (List.mem_of_mem_head? first)
  · exact fun c first => solid c (List.mem_reverse.mp (List.mem_of_mem_head? first))
  · rintro rfl
    cases isWord

theorem Opening.cut (opened : Opening rest opening) (clean : Clean rest) : ∃ kept gap,
    Opening rest kept ∧ Blanks gap ∧ Clean (kept ++ rest) ∧ opening ++ rest = kept ++ (rest ++ gap) := by
  -- Only if nothing is left does the text end with its opening, and then the blanks behind that are the
  -- last ones of the text, which are gone before the opening is looked for.
  by_cases empty : rest = []
  · subst empty
    cases opened with
    | absent other => exact ⟨[], [], Opening.absent other, Blanks.nil, Clean.nil, rfl⟩
    | @bare gap blanks no_word =>
        have no_word : ∀ word more, IsWord word → ([] : List Char) ++ [] ≠ word ++ more := by
          intro word more isWord same
          exact isWord.clean.2 (List.append_eq_nil_iff.mp same.symm).1
        refine ⟨fence ++ [], gap, Opening.bare Blanks.nil no_word, blanks, fence_clean, ?_⟩
        simp
    | @worded word gap isWord blanks =>
        refine ⟨fence ++ (word ++ []), gap, Opening.worded isWord Blanks.nil, blanks, ?_, ?_⟩
        · rw [List.append_nil, List.append_nil]
          exact fence_clean.append isWord.clean.1
        · simp
  · refine ⟨opening, [], opened, Blanks.nil, ?_, by rw [List.append_nil]⟩
    have fence_some : fence ≠ [] := by simp [fence]
    cases opened with
    | absent other => exact clean
    | bare blanks no_word =>
        rw [List.append_assoc]
        exact fence_clean.append_around clean fence_some empty
    | worded isWord blanks =>
        rw [List.append_assoc]
        exact fence_clean.append_around clean fence_some empty

theorem clean_closing {closing : List Char} (clean : Clean inner) (closed : Closing inner closing) :
    Clean (inner ++ closing) := by
  cases closed with
  | absent other =>
      rw [List.append_nil]
      exact clean
  | fenced blanks alone =>
      by_cases empty : inner = []
      · rw [empty, alone empty]
        exact fence_clean
      · exact clean.append_around fence_clean empty (by simp [fence])

theorem unfenced_iff : Unfenced text inner ↔ unfence text = inner := by
  constructor
  · rintro ⟨clean, before, opening, closing, after, blank, blank', opened, closed, rfl⟩
    have whole := clean_closing clean closed
    obtain ⟨kept, gap, opened', blank'', clean', parts⟩ := opened.cut whole
    have text_eq : before ++ (opening ++ (inner ++ (closing ++ after))) =
        before ++ ((kept ++ (inner ++ closing)) ++ (gap ++ after)) := by
      rw [← List.append_assoc inner, ← List.append_assoc opening, parts]
      simp only [List.append_assoc]
    rw [text_eq, unfence, trim_around clean' blank (blank''.append blank'),
      dropOpening_append opened' whole.first, dropClosing_append closed clean, clean.trim]
  · rintro rfl
    obtain ⟨before, after, blank, blank', parts, clean⟩ := exists_trim text
    obtain ⟨opening, opened, opening_eq, rest_clean⟩ := exists_opening clean
    obtain ⟨closing, closed, closing_eq, inner_clean⟩ := exists_closing rest_clean
    rw [unfence, inner_clean.trim]
    refine ⟨inner_clean, before, opening, closing, after, blank, blank', ?_, closed, ?_⟩
    · rw [← closing_eq]
      exact opened
    · rw [← List.append_assoc (dropClosing _), ← closing_eq, ← List.append_assoc opening, ← opening_eq]
      exact parts

end Unfenced

section Documents

variable {c : Char} {cs front document back : List Char} {value : Json}

theorem isBlank_of_isSpace (space : Json.Place.isSpace c = true) : isBlank c = true := by
  simp only [Json.Place.isSpace, Bool.or_eq_true, beq_iff_eq] at space
  rcases space with ((rfl | rfl) | rfl) | rfl
  all_goals decide

theorem solid_of_opens (ends : Json.opens c = true ∨ Json.closes c = true) :
    isBlank c = false ∧ sameLetter 'j' c = false ∧ c ≠ backtick := by
  have code : c.toNat < 128 := by
    have of_digit (digit : isAsciiDigit c = true) : c.toNat < 128 := by
      rw [isAsciiDigit_iff] at digit
      omega
    have of_mem {known : List Char} (mem : known.contains c = true)
        (low : known.all (·.toNat < 128) = true) : c.toNat < 128 :=
      of_decide_eq_true (List.all_eq_true.mp low c (List.contains_iff_mem.mp mem))
    rcases ends with opened | closed
    · rcases Bool.or_eq_true_iff.mp opened with digit | mem
      · exact of_digit digit
      · exact of_mem mem (by decide)
    · rcases Bool.or_eq_true_iff.mp closed with digit | mem
      · exact of_digit digit
      · exact of_mem mem (by decide)
  have checked : ∀ n < 128, Json.opens (Char.ofNat n) = true ∨ Json.closes (Char.ofNat n) = true →
      isBlank (Char.ofNat n) = false ∧ sameLetter 'j' (Char.ofNat n) = false ∧
        Char.ofNat n ≠ backtick := by
    decide +kernel
  have checked := checked c.toNat code
  rw [Char.ofNat_toNat] at checked
  exact checked ends

theorem clean_of_framed (framed : Json.Framed cs) : Clean cs := by
  obtain ⟨⟨c, first, opened⟩, d, last, closed⟩ := framed
  refine ⟨?_, ?_⟩
  · intro c' first'
    cases Option.mem_unique first first'
    exact (solid_of_opens (Or.inl opened)).1
  · intro d' last'
    rw [List.head?_reverse] at last'
    cases Option.mem_unique last last'
    exact (solid_of_opens (Or.inr closed)).1

theorem no_fence_before (framed : Json.Framed cs) (rest : List Char) : ¬ fence <+: cs ++ rest := by
  rintro ⟨more, same⟩
  obtain ⟨c, others, rfl, opened⟩ := framed.exists_cons
  have first := (List.cons.inj same).1
  exact (solid_of_opens (Or.inl opened)).2.2 first.symm

theorem no_fence_behind (framed : Json.Framed cs) : ¬ fence <:+ cs := by
  rintro ⟨before, rfl⟩
  obtain ⟨-, c, last, closed⟩ := framed
  have fence_last : (before ++ fence).getLast? = some backtick := by
    rw [List.getLast?_append_of_ne_nil _ (by simp [fence])]
    rfl
  rw [fence_last] at last
  cases last
  exact (solid_of_opens (Or.inr closed)).2.2 rfl

theorem no_word_before {gap : List Char} (blanks : Blanks gap) (framed : Json.Framed cs)
    (rest : List Char) : ∀ word more, IsWord word → gap ++ (cs ++ rest) ≠ word ++ more := by
  intro word more isWord same
  have solid := solid_of_spelled isWord fun _ mem => mem
  have spelled : List.Forall₂ (fun letter c => sameLetter letter c = true) ['j', 's', 'o', 'n'] word :=
    isWord
  cases spelled with
  | @cons _ d _ word first _ =>
      cases gap with
      | cons b gap =>
          obtain ⟨rfl, -⟩ := List.cons.inj same
          have blank := blanks b List.mem_cons_self
          rw [solid b List.mem_cons_self] at blank
          cases blank
      | nil =>
          obtain ⟨c, others, rfl, opened⟩ := framed.exists_cons
          obtain ⟨rfl, -⟩ := List.cons.inj same
          rw [(solid_of_opens (Or.inl opened)).2.1] at first
          cases first

inductive Front : List Char → Prop
  | blank {cs : List Char} : Blanks cs → Front cs
  | fenced {before word gap : List Char} : Blanks before → word = [] ∨ IsWord word → Blanks gap →
      Front (before ++ (fence ++ (word ++ gap)))

inductive Back : List Char → Prop
  | blank {cs : List Char} : Blanks cs → Back cs
  | fenced {gap after : List Char} : Blanks gap → Blanks after → Back (gap ++ (fence ++ after))

theorem Front.split (isFront : Front front) (framed : Json.Framed cs) (rest : List Char) :
    ∃ before opening, Blanks before ∧ Opening (cs ++ rest) opening ∧ front = before ++ opening := by
  cases isFront with
  | blank blanks =>
      exact ⟨front, [], blanks, Opening.absent (no_fence_before framed rest), (List.append_nil _).symm⟩
  | @fenced before word gap blank word_or blanks =>
      rcases word_or with rfl | isWord
      · exact ⟨before, _, blank, Opening.bare blanks (no_word_before blanks framed rest), rfl⟩
      · exact ⟨before, _, blank, Opening.worded isWord blanks, rfl⟩

theorem Back.split (isBack : Back back) (framed : Json.Framed cs) :
    ∃ closing after, Closing cs closing ∧ Blanks after ∧ back = closing ++ after := by
  cases isBack with
  | blank blanks => exact ⟨[], back, Closing.absent (no_fence_behind framed), blanks, rfl⟩
  | @fenced gap after blanks blank =>
      refine ⟨gap ++ fence, after, Closing.fenced blanks ?_, blank, by rw [List.append_assoc]⟩
      rintro rfl
      obtain ⟨c, more, none, -⟩ := framed.exists_cons
      cases none

theorem unfenced_framed (framed : Json.Framed cs) (isFront : Front front) (isBack : Back back) :
    Unfenced (front ++ (cs ++ back)) cs := by
  obtain ⟨closing, after, closed, blank', rfl⟩ := isBack.split framed
  obtain ⟨before, opening, blank, opened, rfl⟩ := isFront.split framed closing
  refine ⟨clean_of_framed framed, before, opening, closing, after, blank, blank', opened, closed, ?_⟩
  simp only [List.append_assoc]

theorem Front.append {space : List Char} (isFront : Front front) (blanks : Blanks space) :
    Front (front ++ space) := by
  cases isFront with
  | blank blank => exact Front.blank (blank.append blanks)
  | fenced blank word_or gap =>
      have longer := Front.fenced blank word_or (gap.append blanks)
      simpa only [List.append_assoc] using longer

theorem Back.prepend {space : List Char} (blanks : Blanks space) (isBack : Back back) :
    Back (space ++ back) := by
  cases isBack with
  | blank blank => exact Back.blank (blanks.append blank)
  | fenced gap blank =>
      have longer := Back.fenced (blanks.append gap) blank
      simpa only [List.append_assoc] using longer

theorem document_unfenced (readable : Json.read document = .ok value) (isFront : Front front)
    (isBack : Back back) :
    ∃ inner, Unfenced (front ++ (document ++ back)) inner ∧ Json.read inner = .ok value := by
  obtain ⟨before, used, after, rfl, space, space', framed, read_used⟩ := Json.read_framed readable
  have blank : Blanks before := fun c mem => isBlank_of_isSpace (space c mem)
  have blank' : Blanks after := fun c mem => isBlank_of_isSpace (space' c mem)
  have unfenced := unfenced_framed framed (isFront.append blank) (isBack.prepend blank')
  exact ⟨used, by simpa only [List.append_assoc] using unfenced, read_used⟩

theorem parseJson_of_unfenced {text : String} {inner : List Char} (unfenced : Unfenced text.toList inner) :
    parseJson text = if inner = [] then .error (.generation .emptyJson)
      else (Json.read inner).mapError (failureOf inner) := by
  rw [parseJson, unfenced_iff.mp unfenced]
  by_cases empty : inner = []
  · rw [if_pos (List.isEmpty_iff.mpr empty), if_pos empty]
  · rw [if_neg (fun none => empty (List.isEmpty_iff.mp none)), if_neg empty]
    cases Json.read inner <;> rfl

theorem parseJson_eq_ok_iff {text : String} : parseJson text = .ok value ↔
    ∃ inner, Unfenced text.toList inner ∧ Json.read inner = .ok value := by
  constructor
  · intro parsed
    have unfenced := unfenced_iff.mpr (Eq.refl (unfence text.toList))
    rw [parseJson_of_unfenced unfenced] at parsed
    split at parsed
    · cases parsed
    · cases readable : Json.read (unfence text.toList) with
      | ok value =>
          rw [readable] at parsed
          cases parsed
          exact ⟨_, unfenced, readable⟩
      | error e =>
          rw [readable] at parsed
          cases parsed
  · rintro ⟨inner, unfenced, readable⟩
    have some : inner ≠ [] := by
      rintro rfl
      cases readable
    rw [parseJson_of_unfenced unfenced, if_neg some, readable]
    rfl

theorem parseJson_error {text : String} {failure : Failure} (failed : parseJson text = .error failure) :
    (∃ fault, failure = .generation fault) ∨ failure = .data .badValue ∧
      ∃ inner, Unfenced text.toList inner ∧ Json.LongNumber inner := by
  have unfenced := unfenced_iff.mpr (Eq.refl (unfence text.toList))
  rw [parseJson_of_unfenced unfenced] at failed
  split at failed
  · cases failed
    exact Or.inl ⟨_, rfl⟩
  · cases refused : Json.read (unfence text.toList) with
    | ok value =>
        rw [refused] at failed
        cases failed
    | error e =>
        rw [refused] at failed
        cases failed
        unfold failureOf
        split
        · rename_i many
          exact Or.inr ⟨rfl, _, unfenced, Json.read_cause refused many⟩
        · exact Or.inl ⟨_, rfl⟩

def longDigits : List Char := List.replicate (Json.maxDigits + 1) '1'

theorem isWhole_longDigits : Json.IsWhole longDigits := by
  have ones : ∀ c ∈ longDigits, c = '1' := fun c mem => List.eq_of_mem_replicate mem
  refine Or.inr ⟨⟨by simp [longDigits], ?_⟩, ?_⟩
  · intro c mem
    rw [ones c mem]
    decide
  · intro c first
    rw [ones c (List.mem_of_mem_head? first)]
    decide

theorem parseJson_longMember {tail : List Char} (halts : Halts Json.goesOn tail)
    (last : ∃ c ∈ tail.getLast?, Json.closes c = true) :
    parseJson (String.ofList ("\x7b\"n\": ".toList ++ (longDigits ++ tail))) =
      .error (.data .badValue) := by
  have many : Json.maxDigits < longDigits.length := by
    rw [longDigits, List.length_replicate]
    omega
  have refused := Json.read_longMember isWhole_longDigits many halts
  have framed : Json.Framed ("\x7b\"n\": ".toList ++ (longDigits ++ tail)) :=
    ⟨⟨'\x7b', rfl, by decide⟩, Json.last_append (Json.last_append last _) _⟩
  have unfenced := unfenced_framed framed (Front.blank Blanks.nil) (Back.blank Blanks.nil)
  rw [List.nil_append, List.append_nil] at unfenced
  rw [← String.toList_ofList (l := "\x7b\"n\": ".toList ++ (longDigits ++ tail))] at unfenced
  rw [parseJson_of_unfenced unfenced, if_neg (by simp), String.toList_ofList, refused]
  rfl

/-- A document is found with or without a fence at either end, whatever stands in it. Any other text is a
failed generation, except for a number with too many digits, which no handler knows. -/
theorem parseJson_fenced (text : String) :
    (∀ front document back value, Front front → Back back → Json.read document = .ok value →
      text.toList = front ++ (document ++ back) → parseJson text = .ok value) ∧
    ∃ inner, (∀ other, Unfenced text.toList other ↔ other = inner) ∧
      (inner = [] → parseJson text = .error (.generation .emptyJson)) ∧
      (∀ value, Json.read inner = .ok value → parseJson text = .ok value) ∧
      ∀ e, Json.read inner = .error e → inner ≠ [] →
        (e.cause ≠ .tooManyDigits →
          parseJson text = .error (.generation (.invalidJson (e.message inner)))) ∧
        (e.cause = .tooManyDigits →
          Json.LongNumber inner ∧ parseJson text = .error (.data .badValue)) := by
  refine ⟨?_, unfence text.toList, ?_, ?_, ?_, ?_⟩
  · intro front document back value isFront isBack readable parts
    have unfenced := document_unfenced readable isFront isBack
    rw [← parts] at unfenced
    exact parseJson_eq_ok_iff.mpr unfenced
  · exact fun other => unfenced_iff.trans eq_comm
  · intro empty
    rw [parseJson_of_unfenced (unfenced_iff.mpr rfl), if_pos empty]
  · exact fun value readable => parseJson_eq_ok_iff.mpr ⟨_, unfenced_iff.mpr rfl, readable⟩
  · intro e refused some
    rw [parseJson_of_unfenced (unfenced_iff.mpr rfl), if_neg some, refused, Except.mapError]
    refine ⟨?_, ?_⟩
    · intro other
      rw [failureOf, if_neg other]
    · intro many
      rw [failureOf, if_pos many]
      exact ⟨Json.read_cause refused many, rfl⟩

theorem parseJson_fenced_backticks :
    parseJson "```JSON\n\x7b\"a\": \"``` b\"\x7d\n```" = .ok (.obj [("a", .str "``` b")]) := by
  have word : IsWord "JSON".toList := by
    change List.Forall₂ _ ['j', 's', 'o', 'n'] ['J', 'S', 'O', 'N']
    decide
  have line : Blanks ['\n'] := by
    intro c mem
    rw [List.mem_singleton.mp mem]
    decide
  exact (parseJson_fenced _).1 _ "\x7b\"a\": \"``` b\"\x7d".toList _ _
    (Front.fenced Blanks.nil (Or.inr word) line) (Back.fenced line Blanks.nil) rfl rfl

/-- A later member of the same name would make this the number one. -/
theorem repeatedMember_unread :
    parseJson (String.ofList ("\x7b\"n\": ".toList ++ (longDigits ++ ", \"n\": 1\x7d".toList))) =
      .error (.data .badValue) := by
  refine parseJson_longMember ?_ ⟨'\x7d', rfl, by decide⟩
  intro c first
  cases first
  decide

end Documents

end Groundwork.Completion
