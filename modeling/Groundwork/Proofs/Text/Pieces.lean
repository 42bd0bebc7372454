import Groundwork.Text.Basic
import Mathlib.Data.List.DropRight

/-!
Trimming texts and cutting them into pieces. What is trimmed off at the end follows what is kept, and
the last piece of a text stands behind its last separator.
-/

namespace Groundwork.Text

theorem trimEnd_eq (p : Char → Bool) (cs : List Char) : trimEnd p cs = cs.rdropWhile p := rfl

theorem trimEnd_append (p : Char → Bool) (cs : List Char) :
    ∃ rest, cs = trimEnd p cs ++ rest ∧ ∀ c ∈ rest, p c = true :=
  ⟨cs.rtakeWhile p, (List.rdropWhile_append_rtakeWhile).symm, fun _ => List.mem_rtakeWhile_imp⟩

theorem trimEnd_concat {p : Char → Bool} (cs : List Char) {c : Char} (keeps : p c = false) :
    trimEnd p (cs ++ [c]) = cs ++ [c] :=
  List.rdropWhile_concat_neg p cs c (by simp [keeps])

theorem dropWhile_of_trim_eq {p : Char → Bool} {cs : List Char} (trimmed : trim p cs = cs) :
    cs.dropWhile p = cs := by
  obtain ⟨rest, whole, _⟩ := trimEnd_append p (cs.dropWhile p)
  rw [← trim, trimmed] at whole
  have suffix := List.dropWhile_suffix p (l := cs)
  exact suffix.eq_of_length_le (by rw [whole, List.length_append]; omega)

theorem dropWhile_of_append {p : Char → Bool} {cs : List Char} (rest : List Char)
    (kept : (cs ++ rest).dropWhile p = cs ++ rest) : cs.dropWhile p = cs := by
  cases cs with
  | nil => rfl
  | cons c cs =>
      rw [List.cons_append, List.dropWhile_cons] at kept
      split at kept
      · have shorter := (List.dropWhile_suffix p (l := cs ++ rest)).length_le
        rw [kept, List.length_cons] at shorter
        omega
      · rename_i keeps
        rw [List.dropWhile_cons, if_neg keeps]

theorem dropWhile_append_cons {p : Char → Bool} {c : Char} (keeps : p c = false) (cs rest : List Char) :
    (cs ++ c :: rest).dropWhile p = cs.dropWhile p ++ c :: rest := by
  induction cs with
  | nil => simp [keeps]
  | cons d cs ih =>
      rw [List.cons_append, List.dropWhile_cons, List.dropWhile_cons, ih]
      split <;> rfl

theorem trimEnd_append_cons {p : Char → Bool} {c : Char} (keeps : p c = false)
    (cs rest : List Char) : trimEnd p (cs ++ c :: rest) = cs ++ c :: trimEnd p rest := by
  rw [trimEnd, List.reverse_append, List.reverse_cons, List.append_assoc, List.singleton_append,
    dropWhile_append_cons keeps, trimEnd]
  simp

theorem trim_trim (p : Char → Bool) (cs : List Char) : trim p (trim p cs) = trim p cs := by
  have kept : (trim p cs).dropWhile p = trim p cs := by
    obtain ⟨rest, whole, _⟩ := trimEnd_append p (cs.dropWhile p)
    have stays : (trim p cs ++ rest).dropWhile p = trim p cs ++ rest := by
      rw [trim, ← whole, List.dropWhile_idempotent]
    exact dropWhile_of_append rest stays
  rw [trim, kept, trim, trimEnd_eq, trimEnd_eq, List.rdropWhile_idempotent]

theorem strip_strip (s : String) : strip (strip s) = strip s := by
  rw [strip, strip, String.toList_ofList, trim_trim]

theorem endsWith_iff (s ending : String) :
    endsWith s ending = true ↔ ∃ start, s.toList = start ++ ending.toList := by
  rw [endsWith, List.isSuffixOf_iff_suffix]
  exact ⟨fun ⟨start, whole⟩ => ⟨start, whole.symm⟩, fun ⟨start, whole⟩ => ⟨start, whole.symm⟩⟩

theorem dropEnd_append {s ending : String} {n : Nat} (length : ending.toList.length = n)
    (ends : endsWith s ending = true) : s.toList = (dropEnd n s).toList ++ ending.toList := by
  obtain ⟨start, whole⟩ := (endsWith_iff s ending).mp ends
  rw [dropEnd, String.toList_ofList, whole, List.length_append, length, Nat.add_sub_cancel,
    List.take_left]

theorem dropWhile_of_none {p : Char → Bool} {cs : List Char} (none : ∀ c ∈ cs, p c = false) :
    cs.dropWhile p = cs := by
  cases cs with
  | nil => rfl
  | cons c cs => rw [List.dropWhile_cons, none c List.mem_cons_self, if_neg Bool.false_ne_true]

theorem trimEnd_of_none {p : Char → Bool} {cs : List Char} (none : ∀ c ∈ cs, p c = false) :
    trimEnd p cs = cs := by
  rw [trimEnd, dropWhile_of_none fun c member => none c (List.mem_reverse.mp member),
    List.reverse_reverse]

theorem count_dropWhile {p : Char → Bool} {c : Char} (keeps : p c = false) (cs : List Char) :
    (cs.dropWhile p).count c = cs.count c := by
  induction cs with
  | nil => rfl
  | cons d cs ih =>
      rw [List.dropWhile_cons]
      split
      · rename_i dropped
        have other : d ≠ c := by
          rintro rfl
          simp [keeps] at dropped
        rw [ih, List.count_cons_of_ne other]
      · rfl

section Runs

variable {kind : Char → Bool} {cs rest : List Char}

def Halts (kind : Char → Bool) (cs : List Char) : Prop := ∀ c ∈ cs.head?, kind c = false

theorem halts_nil : Halts kind [] := fun c first => by cases first

theorem halts_cons {c : Char} (apart : kind c = false) (cs : List Char) : Halts kind (c :: cs) := by
  rintro d ⟨⟩
  exact apart

theorem halts_of_run {other : Char → Bool} (filled : cs ≠ []) (all : ∀ c ∈ cs, other c = true)
    (apart : ∀ c, other c = true → kind c = false) (rest : List Char) : Halts kind (cs ++ rest) := by
  cases cs with
  | nil => exact absurd rfl filled
  | cons c cs => exact halts_cons (apart c (all c List.mem_cons_self)) (cs ++ rest)

theorem Halts.mono {kind' : Char → Bool} (halts : Halts kind cs)
    (fewer : ∀ c, kind' c = true → kind c = true) : Halts kind' cs := by
  intro c first
  cases kept : kind' c with
  | false => rfl
  | true => rw [← halts c first, fewer c kept]

theorem halts_append (first : Halts kind cs) (second : Halts kind rest) : Halts kind (cs ++ rest) := by
  cases cs with
  | nil => exact second
  | cons c cs => exact first

theorem takeWhile_append (all : ∀ c ∈ cs, kind c = true) (halts : Halts kind rest) :
    (cs ++ rest).takeWhile kind = cs := by
  rw [List.takeWhile_append_of_pos all]
  cases rest with
  | nil => simp
  | cons c rest => simp [halts c rfl]

theorem takeWhile_append_of_halts (halts : Halts kind rest) :
    (cs ++ rest).takeWhile kind = cs.takeWhile kind := by
  induction cs with
  | nil =>
      cases rest with
      | nil => rfl
      | cons c rest => simp [halts c rfl]
  | cons c cs ih => rw [List.cons_append, List.takeWhile_cons, List.takeWhile_cons, ih]

theorem takeWhile_of_halts (halts : Halts kind cs) : cs.takeWhile kind = [] := by
  cases cs with
  | nil => rfl
  | cons c cs => rw [List.takeWhile_cons, halts c rfl, if_neg Bool.false_ne_true]

theorem dropWhile_of_halts (halts : Halts kind cs) : cs.dropWhile kind = cs := by
  cases cs with
  | nil => rfl
  | cons c cs => rw [List.dropWhile_cons, halts c rfl, if_neg Bool.false_ne_true]

theorem drop_takeWhile (kind : Char → Bool) (cs : List Char) :
    cs.drop (cs.takeWhile kind).length = cs.dropWhile kind := by
  conv_lhs => arg 2; rw [← List.takeWhile_append_dropWhile (p := kind) (l := cs)]
  exact List.drop_left

theorem halts_dropWhile (kind : Char → Bool) (cs : List Char) : Halts kind (cs.dropWhile kind) := by
  intro c first
  have stopped := List.head?_dropWhile_not kind cs
  rw [Option.mem_def.mp first] at stopped
  exact stopped

theorem exists_run (kind : Char → Bool) (cs : List Char) : ∃ run rest, cs = run ++ rest ∧
    (∀ c ∈ run, kind c = true) ∧ Halts kind rest :=
  ⟨cs.takeWhile kind, cs.dropWhile kind, List.takeWhile_append_dropWhile.symm,
    fun _ member => List.mem_takeWhile_imp member, halts_dropWhile kind cs⟩

end Runs

section Pieces

variable {sep : Char}

theorem splitChars_ne_nil (sep : Char) (cs : List Char) : splitChars sep cs ≠ [] := by
  induction cs with
  | nil => simp [splitChars]
  | cons c cs _ =>
      rw [splitChars]
      split
      · simp
      · split <;> simp

theorem splitChars_of_notMem {cs : List Char} (none : sep ∉ cs) : splitChars sep cs = [cs] := by
  induction cs with
  | nil => rfl
  | cons c cs ih =>
      rw [List.mem_cons, not_or] at none
      rw [splitChars, if_neg (Ne.symm none.1), ih none.2]

theorem splitChars_append (cs rest : List Char) :
    splitChars sep (cs ++ sep :: rest) = splitChars sep cs ++ splitChars sep rest := by
  induction cs with
  | nil => simp [splitChars]
  | cons c cs ih =>
      rw [List.cons_append, splitChars, splitChars, ih]
      by_cases same : c = sep
      · simp [same]
      · rw [if_neg same, if_neg same]
        cases pieces : splitChars sep cs with
        | nil => exact absurd pieces (splitChars_ne_nil sep cs)
        | cons piece pieces => rfl

theorem splitChars_cons (sep : Char) (cs : List Char) (c : Char) :
    ∃ piece pieces, splitChars sep cs = piece :: pieces ∧ splitChars sep (c :: cs) =
      if c = sep then [] :: piece :: pieces else (c :: piece) :: pieces := by
  cases split : splitChars sep cs with
  | nil => exact absurd split (splitChars_ne_nil sep cs)
  | cons piece pieces =>
      refine ⟨piece, pieces, rfl, ?_⟩
      rw [splitChars, split]

theorem splitChars_injective (sep : Char) : Function.Injective (splitChars sep) := by
  intro cs
  induction cs with
  | nil =>
      intro ds same
      cases ds with
      | nil => rfl
      | cons d ds =>
          obtain ⟨piece, pieces, _, split⟩ := splitChars_cons sep ds d
          rw [split] at same
          split at same <;> simp [splitChars] at same
  | cons c cs ih =>
      intro ds same
      obtain ⟨piece, pieces, first, split⟩ := splitChars_cons sep cs c
      cases ds with
      | nil =>
          rw [split] at same
          split at same <;> simp [splitChars] at same
      | cons d ds =>
          obtain ⟨other, others, second, otherSplit⟩ := splitChars_cons sep ds d
          rw [split, otherSplit] at same
          by_cases atFirst : c = sep
          · by_cases atSecond : d = sep
            · rw [if_pos atFirst, if_pos atSecond, ← first, ← second] at same
              rw [ih (List.cons.inj same).2, atFirst, atSecond]
            · simp [atFirst, atSecond] at same
          · by_cases atSecond : d = sep
            · simp [atFirst, atSecond] at same
            · rw [if_neg atFirst, if_neg atSecond, List.cons.injEq, List.cons.injEq] at same
              obtain ⟨⟨rfl, rfl⟩, rfl⟩ := same
              rw [ih (first.trans second.symm)]

theorem split_injective (sep : Char) : Function.Injective (split sep) := by
  intro s t same
  have ofLists : Function.Injective (List.map String.ofList) :=
    List.map_injective_iff.mpr fun cs ds equal => String.ofList_injective equal
  exact String.toList_injective (splitChars_injective sep (ofLists same))

theorem length_splitChars (sep : Char) (cs : List Char) :
    (splitChars sep cs).length = cs.count sep + 1 := by
  induction cs with
  | nil => rfl
  | cons c cs ih =>
      obtain ⟨piece, pieces, first, split⟩ := splitChars_cons sep cs c
      rw [first] at ih
      rw [split, List.count_cons]
      by_cases same : c = sep
      · simp [same] at ih ⊢
        exact ih
      · simp [same] at ih ⊢
        exact ih

theorem cut_eq_iff {x : Char} {a b c d : List Char} (first : x ∉ a) (second : x ∉ c) :
    a ++ x :: b = c ++ x :: d ↔ a = c ∧ b = d := by
  induction a generalizing c with
  | nil =>
      cases c with
      | nil => simp
      | cons y c =>
          have different : x ≠ y := fun same => second (by simp [same])
          simp [different]
  | cons y a ih =>
      have different : x ≠ y := fun same => first (by simp [same])
      cases c with
      | nil => simp [Ne.symm different]
      | cons z c =>
          have inner := ih (fun member => first (List.mem_cons_of_mem y member))
            fun member => second (List.mem_cons_of_mem z member)
          simp [inner, and_assoc]

theorem exists_lastPiece (sep : Char) (cs : List Char) :
    sep ∉ cs ∨ ∃ start piece, cs = start ++ sep :: piece ∧ sep ∉ piece := by
  induction cs with
  | nil => exact Or.inl List.not_mem_nil
  | cons c cs ih =>
      rcases ih with none | ⟨start, piece, rfl, outside⟩
      · by_cases same : c = sep
        · exact Or.inr ⟨[], cs, by rw [same, List.nil_append], none⟩
        · refine Or.inl ?_
          rw [List.mem_cons, not_or]
          exact ⟨Ne.symm same, none⟩
      · exact Or.inr ⟨c :: start, piece, rfl, outside⟩

theorem mem_of_mem_splitChars {cs : List Char} :
    ∀ piece ∈ splitChars sep cs, ∀ c ∈ piece, c ∈ cs := by
  induction cs with
  | nil => simp [splitChars]
  | cons d cs ih =>
      obtain ⟨first, others, pieces, split⟩ := splitChars_cons sep cs d
      intro piece member c inside
      rw [split] at member
      rw [pieces] at ih
      split at member
      · rcases List.mem_cons.mp member with rfl | later
        · cases inside
        · exact List.mem_cons_of_mem d (ih piece later c inside)
      · rcases List.mem_cons.mp member with rfl | later
        · rcases List.mem_cons.mp inside with rfl | inside
          · exact List.mem_cons_self
          · exact List.mem_cons_of_mem d (ih first List.mem_cons_self c inside)
        · exact List.mem_cons_of_mem d (ih piece (List.mem_cons_of_mem first later) c inside)

theorem take_splitChars (sep : Char) (cs rest : List Char) :
    (splitChars sep (cs ++ rest)).take (cs.count sep) = (splitChars sep cs).dropLast := by
  rcases exists_lastPiece sep cs with none | ⟨start, piece, rfl, outside⟩
  · rw [List.count_eq_zero.mpr none, splitChars_of_notMem none]
    rfl
  · have count : (start ++ sep :: piece).count sep = (splitChars sep start).length := by
      rw [length_splitChars, List.count_append, List.count_cons_self, List.count_eq_zero.mpr outside]
    rw [count, List.append_assoc, List.cons_append, splitChars_append, splitChars_append,
      splitChars_of_notMem outside, List.take_left, List.dropLast_concat]

theorem exists_lastLine (sep : Char) (cs : List Char) : ∃ start piece pieces, cs = start ++ piece ∧
    (∀ c ∈ start.getLast?, c = sep) ∧ splitChars sep cs = pieces ++ [piece] := by
  rcases exists_lastPiece sep cs with none | ⟨start, piece, rfl, outside⟩
  · exact ⟨[], cs, [], rfl, by simp, splitChars_of_notMem none⟩
  · refine ⟨start ++ [sep], piece, splitChars sep start, by simp, by simp, ?_⟩
    rw [splitChars_append, splitChars_of_notMem outside]

end Pieces

theorem notMem_join {c : Char} {sep : String} {parts : List String} (apart : c ∉ sep.toList)
    (plain : ∀ part ∈ parts, c ∉ part.toList) : c ∉ (join sep parts).toList := by
  induction parts with
  | nil => simp [join]
  | cons part parts ih =>
      obtain ⟨first, later⟩ := List.forall_mem_cons.mp plain
      cases parts with
      | nil => simpa [join] using first
      | cons next parts =>
          rw [join, String.intercalate_cons_cons, ← join, String.toList_append,
            String.toList_append, List.mem_append, List.mem_append]
          exact not_or.mpr ⟨not_or.mpr ⟨first, apart⟩, ih later⟩

theorem notMem_toDigits {c : Char} (other : c.isDigit = false) (n : Nat) : c ∉ Nat.toDigits 10 n := by
  intro member
  have digit := Nat.isDigit_of_mem_toDigits (by decide) (by decide) member
  rw [other] at digit
  cases digit

theorem toDigits_injective {i j : Nat} (same : Nat.toDigits 10 i = Nat.toDigits 10 j) : i = j := by
  have read := congrArg (fun digits => Nat.ofDigitChars 10 digits 0) same
  simpa using read

end Groundwork.Text
