import Groundwork.Proofs.Store.Tables
import Groundwork.Proofs.Text.Ascii
import Groundwork.Proofs.Text.Pieces

/-!
Namespaces with different tables do not get in each other's way, and namespaces with one table cannot be
told apart. The table of a namespace is its text with an underscore for every character that is not
allowed, so different namespaces may have one table.
-/

namespace Groundwork.Store

open Text

def cleanChar (c : Char) : Char := if isNameChar c then c else '_'

def cleanText (s : String) : String := String.ofList (s.toList.map cleanChar)

theorem cleanName_eq (nspace : String) : cleanName nspace = cleanText (strip nspace) := rfl

theorem cleanChar_iff {c x : Char} (allowed : isNameChar x = true) (other : x ≠ '_') :
    cleanChar c = x ↔ c = x := by
  unfold cleanChar
  split
  · rfl
  · rename_i notAllowed
    constructor
    · intro same
      exact absurd same.symm other
    · rintro rfl
      exact absurd allowed notAllowed

theorem cleanChar_hyphen_iff (c : Char) : cleanChar c = '-' ↔ c = '-' :=
  cleanChar_iff (by decide) (by decide)

theorem cleanText_of_allowed {s : String} (allowed : ∀ c ∈ s.toList, isNameChar c = true) :
    cleanText s = s := by
  have unchanged : s.toList.map cleanChar = s.toList :=
    List.map_congr_left (fun c member => if_pos (allowed c member)) |>.trans (List.map_id' _)
  rw [cleanText, unchanged, String.ofList_toList]

theorem hyphens_cleanText (s : String) :
    (cleanText s).toList.count '-' = s.toList.count '-' := by
  have same (c : Char) : (cleanChar c == '-') = (c == '-') := by
    rw [Bool.eq_iff_iff, beq_iff_eq, beq_iff_eq]
    exact cleanChar_hyphen_iff c
  rw [cleanText, String.toList_ofList, List.count_eq_countP, List.count_eq_countP, List.countP_map]
  exact List.countP_congr fun c _ => by rw [Function.comp_apply, same]

theorem isBlank_of_allowed {c : Char} (allowed : isNameChar c = true) : isBlank c = false := by
  have range : 45 ≤ c.toNat ∧ c.toNat ≤ 122 := by
    simp only [isNameChar, isAsciiLetter, Bool.or_eq_true, beq_iff_eq, isAsciiLower_iff,
      isAsciiUpper_iff, isAsciiDigit_iff] at allowed
    rcases allowed with ((((small | capital) | digit) | rfl) | rfl) | rfl
    · omega
    · omega
    · omega
    · decide
    · decide
    · decide
  simp only [isBlank, Bool.or_eq_false_iff, Bool.and_eq_false_iff, decide_eq_false_iff_not, beq_eq_false_iff_ne]
  omega

/-- What is done for another namespace leaves this one alone: its table stays as it is, an empty one
stays empty, and a search finds what it found before or, as only some tables are listed, nothing. -/
structure Unaffected (nspace : String) (db later : Database) : Prop where
  table : ∀ name, tableName nspace = .ok name → later.lookup name = db.lookup name
  empty : countRows db nspace = .ok 0 → countRows later nspace = .ok 0
  search : ∀ vector topK filter,
    query later nspace vector topK filter = query db nspace vector topK filter ∨
      query later nspace vector topK filter = .ok []

theorem Keeps.unaffected {db later : Database} {nspace other : String} (keeps : Keeps other db later)
    (apart : tableName other ≠ tableName nspace) : Unaffected nspace db later := by
  have different {name : String} (named : tableName nspace = .ok name) : tableName other ≠ .ok name :=
    fun same => apart (same.trans named.symm)
  refine ⟨fun name named => keeps.others name (different named), fun empty => ?_, ?_⟩
  · refine keeps.countRows_zero (fun same => apart ?_) empty
    rw [tableName, tableName, same]
  · intro vector topK filter
    cases named : tableName nspace with
    | error failure =>
        left
        simp [query, named, bind, Except.bind]
    | ok name =>
        by_cases isListed : name ∈ Store.listed later
        · have opened : open? later name = open? db name := by
            rw [open?_eq, open?_eq, if_pos isListed,
              if_pos (keeps.listed (different named) isListed),
              keeps.others name (different named)]
          left
          simp only [query, named, bind, Except.bind, opened]
        · right
          have opened : open? later name = none := by
            rw [open?_eq, if_neg isListed]
          simp only [query, named, bind, Except.bind, opened]
          rfl

theorem query_shared {nspace other : String} (shared : tableName nspace = tableName other)
    (db : Database) (vector : Vector64) (topK : Int) (filter : Filter)
    (hits : List (Retrieval.Hit Float)) :
    query db nspace vector topK filter = .ok hits ↔ query db other vector topK filter = .ok hits := by
  cases named : tableName other with
  | error failure => simp [query, shared, named, bind, Except.bind]
  | ok name =>
      simp only [query, shared, named, bind, Except.bind, throw, throwThe, MonadExceptOf.throw]
      cases open? db name with
      | none => exact Iff.rfl
      | some table =>
          cases condition? filter with
          | error failure => exact Iff.rfl
          | ok condition =>
              cases table with
              | info dimension metric => simp
              | rows dimension rows =>
                  by_cases fits : dimension = vector.length ∧ 0 < topK
                  · simp [fits]
                  · simp [fits]

theorem upsert_shared {nspace other : String} (shared : tableName nspace = tableName other)
    (db : Database) (rows : List TextRecord) (made : Nat × Database) :
    upsert db nspace rows = .ok made ↔ upsert db other rows = .ok made := by
  cases rows with
  | nil => exact Iff.rfl
  | cons first rest =>
      cases named : tableName other with
      | error failure => simp [upsert, shared, named, bind, Except.bind]
      | ok name =>
          simp only [upsert, shared, named, bind, Except.bind, throw, throwThe, MonadExceptOf.throw]
          split
          · simp
          · cases open? db name with
            | none =>
                by_cases hidden : (db.lookup name).isSome
                · simp [hidden]
                · simp [hidden]
            | some table =>
                cases table with
                | info dimension metric => simp
                | rows dimension old =>
                    by_cases same : dimension = first.vector.length
                    · simp [same]
                    · simp [same]

end Groundwork.Store
