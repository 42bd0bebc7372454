import Groundwork.Embedding.Tokens
import Groundwork.Proofs.Text.Pieces

/-!
The identifiers of a text. Each one begins at the first character behind the one before it that can begin an
identifier, and goes on as long as it can. A separator, which holds no character of identifiers, keeps
apart those of the texts before and behind it.
-/

namespace Groundwork.Embedding

open Text

theorem isIdentifierPart_of_start {c : Char} (begins : isIdentifierStart c = true) :
    isIdentifierPart c = true := by
  rw [isIdentifierPart, begins, Bool.true_or]

theorem not_start_of_not_part {c : Char} (apart : isIdentifierPart c = false) :
    isIdentifierStart c = false := by
  rw [isIdentifierPart, Bool.or_eq_false_iff] at apart
  exact apart.1

def Plain (text : List Char) : Prop := ∀ c ∈ text, isIdentifierStart c = false

inductive Identifies : List Char → List (List Char) → Prop where
  | none {text : List Char} (plain : Plain text) : Identifies text []
  | first {skipped cs rest : List Char} {c : Char} {others : List (List Char)}
      (plain : Plain skipped) (begins : isIdentifierStart c = true)
      (goesOn : ∀ d ∈ cs, isIdentifierPart d = true) (ends : Halts isIdentifierPart rest)
      (further : Identifies rest others) :
      Identifies (skipped ++ c :: (cs ++ rest)) ((c :: cs) :: others)

section Reading

variable {text rest current : List Char} {c : Char}

theorem identifiers_begin (begins : isIdentifierStart c = true) (rest : List Char) :
    identifiers (c :: rest) = identifiersFrom [c] rest := by
  simp [identifiers, identifiersFrom, begins]

theorem identifiers_pass (apart : isIdentifierStart c = false) (rest : List Char) :
    identifiers (c :: rest) = identifiers rest := by
  simp [identifiers, identifiersFrom, apart]

theorem identifiersFrom_part (begun : current ≠ []) (goesOn : isIdentifierPart c = true)
    (rest : List Char) :
    identifiersFrom current (c :: rest) = identifiersFrom (c :: current) rest := by
  simp [identifiersFrom, begun, goesOn]

theorem identifiers_plain (plain : Plain text) (rest : List Char) :
    identifiers (text ++ rest) = identifiers rest := by
  induction text with
  | nil => rfl
  | cons c text ih =>
      obtain ⟨first, others⟩ := List.forall_mem_cons.mp plain
      rw [List.cons_append, identifiers_pass first, ih others]

theorem identifiersFrom_ended (begun : current ≠ []) (ends : Halts isIdentifierPart rest) :
    identifiersFrom current rest = current.reverse :: identifiers rest := by
  cases rest with
  | nil => simp [identifiersFrom, identifiers, begun]
  | cons c rest =>
      have apart := ends c rfl
      rw [identifiers_pass (not_start_of_not_part apart)]
      simp [identifiersFrom, identifiers, begun, apart]

theorem identifiersFrom_begun {cs : List Char} (begun : current ≠ [])
    (goesOn : ∀ d ∈ cs, isIdentifierPart d = true) (ends : Halts isIdentifierPart rest) :
    identifiersFrom current (cs ++ rest) = (current.reverse ++ cs) :: identifiers rest := by
  induction cs generalizing current with
  | nil => rw [List.nil_append, identifiersFrom_ended begun ends, List.append_nil]
  | cons d cs ih =>
      obtain ⟨first, others⟩ := List.forall_mem_cons.mp goesOn
      rw [List.cons_append, identifiersFrom_part begun first, ih (List.cons_ne_nil d current) others]
      simp

theorem Identifies.identifiers_eq {ids : List (List Char)} (found : Identifies text ids) :
    identifiers text = ids := by
  induction found with
  | none plain =>
      have all := identifiers_plain plain []
      rwa [List.append_nil] at all
  | first plain begins goesOn ends _ ih =>
      rw [identifiers_plain plain, identifiers_begin begins,
        identifiersFrom_begun (List.cons_ne_nil _ _) goesOn ends, ih]
      rfl

theorem exists_identifies (text : List Char) : ∃ ids, Identifies text ids := by
  induction length : text.length using Nat.strongRecOn generalizing text with
  | ind n ih =>
      let skipped := text.takeWhile fun c => !isIdentifierStart c
      have plain : Plain skipped := fun c member => by simpa using List.mem_takeWhile_imp member
      have whole : skipped ++ text.dropWhile (fun c => !isIdentifierStart c) = text :=
        List.takeWhile_append_dropWhile
      cases behind : text.dropWhile fun c => !isIdentifierStart c with
      | nil =>
          rw [behind, List.append_nil] at whole
          exact ⟨[], .none (whole ▸ plain)⟩
      | cons c later =>
          have begins : isIdentifierStart c = true := by
            have stopped := halts_dropWhile (fun c => !isIdentifierStart c) text c (by rw [behind]; rfl)
            simpa using stopped
          rw [behind] at whole
          have shorter : (later.dropWhile isIdentifierPart).length < n := by
            have bound := List.length_dropWhile_le isIdentifierPart later
            rw [← length, ← whole, List.length_append, List.length_cons]
            omega
          obtain ⟨others, further⟩ := ih _ shorter _ rfl
          have goesOn : ∀ d ∈ later.takeWhile isIdentifierPart, isIdentifierPart d = true :=
            fun d member => List.mem_takeWhile_imp member
          have found := Identifies.first plain begins goesOn (halts_dropWhile isIdentifierPart later) further
          rw [List.takeWhile_append_dropWhile, whole] at found
          exact ⟨_, found⟩

theorem identifies_iff {ids : List (List Char)} : Identifies text ids ↔ identifiers text = ids := by
  refine ⟨Identifies.identifiers_eq, ?_⟩
  rintro rfl
  obtain ⟨ids, found⟩ := exists_identifies text
  rwa [found.identifiers_eq]

end Reading

section Separators

variable {text rest : List Char} {ids others : List (List Char)}

theorem Identifies.skip (found : Identifies rest others) (plain : Plain text) :
    Identifies (text ++ rest) others :=
  identifies_iff.mpr ((identifiers_plain plain rest).trans found.identifiers_eq)

theorem Identifies.append (found : Identifies text ids) (ends : Halts isIdentifierPart rest)
    (further : Identifies rest others) : Identifies (text ++ rest) (ids ++ others) := by
  induction found with
  | none plain => exact further.skip plain
  | first plain begins goesOn stops _ ih =>
      rw [List.append_assoc, List.cons_append, List.append_assoc]
      exact .first plain begins goesOn (halts_append stops ends) ih

theorem identifiers_separated {sep : List Char} (filled : sep ≠ [])
    (separates : ∀ c ∈ sep, isIdentifierPart c = false) (before behind : List Char) :
    identifiers (before ++ (sep ++ behind)) = identifiers before ++ identifiers behind := by
  have plain : Plain sep := fun c member => not_start_of_not_part (separates c member)
  have ends : Halts isIdentifierPart (sep ++ behind) := by
    cases sep with
    | nil => exact absurd rfl filled
    | cons c sep =>
        rintro d ⟨⟩
        exact separates _ List.mem_cons_self
  obtain ⟨ids, found⟩ := exists_identifies before
  obtain ⟨others, further⟩ := exists_identifies behind
  rw [(found.append ends (further.skip plain)).identifiers_eq, found.identifiers_eq,
    further.identifiers_eq]

end Separators

end Groundwork.Embedding
