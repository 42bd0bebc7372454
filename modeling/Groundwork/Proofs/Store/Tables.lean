import Groundwork.Proofs.Text.Sorting
import Groundwork.Store.Database

/-!
Tables of a database as they are seen through the listing. A table is listed if few enough names stand
before its own, so a new table can hide another one but never bring one to light.
-/

namespace Groundwork.Store

def names (db : Database) : List String := db.map (·.1)

theorem mem_take_of_sorted {xs : List String} (sorted : xs.Pairwise (· ≤ ·)) (x : String) (n : Nat) :
    x ∈ xs.take n ↔ x ∈ xs ∧ xs.countP (· < x) < n := by
  induction xs generalizing n with
  | nil => simp
  | cons y xs ih =>
      obtain ⟨least, rest⟩ := List.pairwise_cons.mp sorted
      cases n with
      | zero => simp
      | succ n =>
          rw [List.take_succ_cons, List.mem_cons, List.mem_cons, ih rest]
          by_cases same : x = y
          · subst y
            have none : (x :: xs).countP (· < x) = 0 := by
              rw [List.countP_eq_zero]
              intro z member
              rw [decide_eq_true_eq, String.not_lt]
              rcases List.mem_cons.mp member with rfl | later
              · exact String.le_refl z
              · exact least z later
            exact ⟨fun _ => ⟨Or.inl rfl, by omega⟩, fun _ => Or.inl rfl⟩
          · have countFirst (member : x ∈ xs) : (y :: xs).countP (· < x) = xs.countP (· < x) + 1 := by
              have less : y < x :=
                String.not_le.mp fun atMost => same (String.le_antisymm atMost (least x member))
              exact List.countP_cons_of_pos (decide_eq_true less)
            constructor
            · rintro (rfl | ⟨member, few⟩)
              · exact absurd rfl same
              · rw [countFirst member]
                exact ⟨Or.inr member, by omega⟩
            · rintro ⟨rfl | member, few⟩
              · exact absurd rfl same
              · rw [countFirst member] at few
                exact Or.inr ⟨member, by omega⟩

theorem mem_listed_iff (db : Database) (name : String) :
    name ∈ listed db ↔ name ∈ names db ∧ (names db).countP (· < name) < listingLimit := by
  have perm := sortTexts_perm (names db)
  rw [listed, mem_take_of_sorted (sortTexts_sorted _), ← names, perm.mem_iff, perm.countP_eq]

theorem lookup_setEntry {α : Type} (name query : String) (value : α) (entries : List (String × α)) :
    (setEntry name value entries).lookup query =
      if query = name then some value else entries.lookup query := by
  induction entries with
  | nil =>
      by_cases same : query = name
      · simp [setEntry, same]
      · simp [setEntry, List.lookup_cons, beq_false_of_ne same, same]
  | cons entry entries ih =>
      obtain ⟨n, v⟩ := entry
      rw [setEntry]
      by_cases own : n = name
      · subst n
        rw [if_pos rfl]
        by_cases same : query = name
        · simp [same]
        · simp [List.lookup_cons, beq_false_of_ne same, same]
      · rw [if_neg own]
        by_cases here : query = n
        · subst n
          simp [own]
        · simp [List.lookup_cons, beq_false_of_ne here, ih]

theorem isSome_lookup_iff (db : Database) (name : String) :
    (db.lookup name).isSome = true ↔ name ∈ names db := by
  rw [List.lookup_isSome_iff, names, List.mem_map]
  constructor
  · rintro ⟨entry, member, same⟩
    exact ⟨entry, member, (beq_iff_eq.mp same).symm⟩
  · rintro ⟨entry, member, rfl⟩
    exact ⟨entry, member, beq_self_eq_true _⟩

theorem names_setEntry (name : String) (table : Table) (db : Database) :
    names (setEntry name table db) = if name ∈ names db then names db else names db ++ [name] := by
  induction db with
  | nil => simp [setEntry, names]
  | cons entry db ih =>
      obtain ⟨n, t⟩ := entry
      rw [setEntry]
      by_cases own : n = name
      · simp [own, names]
      · rw [if_neg own]
        simp only [names, List.map_cons, List.mem_cons, Ne.symm own, false_or] at ih ⊢
        by_cases known : name ∈ db.map (·.1)
        · simp [ih, known]
        · simp [ih, known]

theorem names_filter (name : String) (db : Database) :
    names (db.filter (·.1 != name)) = (names db).filter (· != name) := by
  rw [names, names, List.filter_map]
  rfl

theorem lookup_filter_of_ne {name other : String} (different : other ≠ name) (db : Database) :
    (db.filter (·.1 != name)).lookup other = db.lookup other := by
  induction db with
  | nil => rfl
  | cons entry db ih =>
      obtain ⟨n, table⟩ := entry
      by_cases dropped : n = name
      · subst n
        rw [List.filter_cons_of_neg (by simp), ih, List.lookup_cons, beq_false_of_ne different]
      · rw [List.filter_cons_of_pos (by simpa using dropped), List.lookup_cons, List.lookup_cons, ih]

/-- Nothing but the table of a namespace has changed, and no table is gone. -/
structure Keeps (nspace : String) (db later : Database) : Prop where
  others : ∀ name, tableName nspace ≠ .ok name → later.lookup name = db.lookup name
  names : (names db).Sublist (names later)

theorem Keeps.refl (nspace : String) (db : Database) : Keeps nspace db db :=
  ⟨fun _ _ => rfl, List.Sublist.refl _⟩

theorem Keeps.trans {nspace : String} {db middle later : Database} (first : Keeps nspace db middle)
    (second : Keeps nspace middle later) : Keeps nspace db later where
  others name other := (second.others name other).trans (first.others name other)
  names := first.names.trans second.names

theorem Keeps.listed {nspace name : String} {db later : Database} (keeps : Keeps nspace db later)
    (other : tableName nspace ≠ .ok name) (isListed : name ∈ listed later) : name ∈ listed db := by
  rw [mem_listed_iff] at isListed ⊢
  obtain ⟨member, few⟩ := isListed
  rw [← isSome_lookup_iff, keeps.others name other, isSome_lookup_iff] at member
  exact ⟨member, Nat.lt_of_le_of_lt keeps.names.countP_le few⟩

theorem open?_eq (db : Database) (name : String) :
    open? db name = if name ∈ listed db then db.lookup name else none := by
  simp [open?]

theorem countRows_eq {nspace name : String} (named : tableName nspace = .ok name) (db : Database) :
    countRows db nspace = .ok (match open? db name with
      | some table => table.count
      | none => 0) := by
  rw [countRows, named]
  rfl

theorem countRows_listed {db : Database} {nspace name : String} {table : Table}
    (named : tableName nspace = .ok name) (isListed : name ∈ listed db)
    (found : db.lookup name = some table) : countRows db nspace = .ok table.count := by
  rw [countRows_eq named, open?_eq, if_pos isListed, found]

theorem countRows_unlisted {db : Database} {nspace name : String}
    (named : tableName nspace = .ok name) (hidden : name ∉ listed db) :
    countRows db nspace = .ok 0 := by
  rw [countRows_eq named, open?_eq, if_neg hidden]

theorem Keeps.countRows_zero {nspace other : String} {db later : Database}
    (keeps : Keeps nspace db later) (different : cleanName other ≠ cleanName nspace)
    (empty : countRows db other = .ok 0) : countRows later other = .ok 0 := by
  cases named : tableName other with
  | error failure => simp [countRows, named, bind, Except.bind] at empty
  | ok name =>
      have notSame : tableName nspace ≠ .ok name := by
        intro same
        rw [tableName] at named same
        split at named
        · simp at named
        · split at same
          · simp at same
          · rw [Except.ok.injEq] at named same
            exact different (named.trans same.symm)
      rw [countRows_eq named, open?_eq] at empty ⊢
      by_cases isListed : name ∈ Store.listed later
      · rw [if_pos (keeps.listed notSame isListed)] at empty
        rw [if_pos isListed, keeps.others name notSame]
        exact empty
      · rw [if_neg isListed]

def Filled (db : Database) (nspace : String) : Prop :=
  ∃ name dimension rows, tableName nspace = .ok name ∧ rows ≠ [] ∧
    db.lookup name = some (.rows dimension rows)

def IsListed (db : Database) (nspace : String) : Prop :=
  ∃ name, tableName nspace = .ok name ∧ name ∈ listed db

theorem Filled.counts {db : Database} {nspace : String} (filled : Filled db nspace) :
    ∃ n, countRows db nspace = .ok n ∧ (0 < n ↔ IsListed db nspace) := by
  obtain ⟨name, dimension, rows, named, some, found⟩ := filled
  have isListed : IsListed db nspace ↔ name ∈ listed db := by
    constructor
    · rintro ⟨same, sameNamed, isListed⟩
      obtain rfl := Except.ok.inj (named.symm.trans sameNamed)
      exact isListed
    · exact fun isListed => ⟨name, named, isListed⟩
  rw [countRows_eq named, open?_eq, found, isListed]
  by_cases member : name ∈ listed db
  · rw [if_pos member]
    exact ⟨rows.length, rfl, by simp [member, List.length_pos_iff, some]⟩
  · rw [if_neg member]
    exact ⟨0, rfl, by simp [member]⟩

theorem upsert_ok {db later : Database} {nspace : String} {first : TextRecord}
    {rest : List TextRecord} {n : Nat} (put : upsert db nspace (first :: rest) = .ok (n, later)) :
    ∃ name dimension old, tableName nspace = .ok name ∧
      (db.lookup name = some (.rows dimension old) ∨ db.lookup name = none ∧ old = []) ∧
      later = setEntry name (.rows dimension (merge old ((first :: rest).map storedRow))) db := by
  cases named : tableName nspace with
  | error failure => simp [upsert, named, bind, Except.bind] at put
  | ok name =>
      simp only [upsert, named, bind, Except.bind, throw, throwThe, MonadExceptOf.throw] at put
      split at put
      · simp at put
      · split at put
        · rename_i d old opened
          split at put
          · simp only [pure, Except.pure, Except.ok.injEq, Prod.mk.injEq] at put
            have found : db.lookup name = some (.rows d old) := by
              rw [open?_eq] at opened
              split at opened
              · exact opened
              · simp at opened
            exact ⟨name, d, old, rfl, Or.inl found, put.2.symm⟩
          · simp at put
        · simp at put
        · split at put
          · simp at put
          · rename_i absent
            simp only [pure, Except.pure, Except.ok.injEq, Prod.mk.injEq] at put
            rw [Option.not_isSome_iff_eq_none] at absent
            exact ⟨name, _, [], rfl, Or.inr ⟨absent, rfl⟩, put.2.symm⟩

theorem setEntry_keeps {nspace name : String} (named : tableName nspace = .ok name) (table : Table)
    (db : Database) : Keeps nspace db (setEntry name table db) where
  others other different := by
    have notSame : other ≠ name := by
      rintro rfl
      exact different named
    rw [lookup_setEntry, if_neg notSame]
  names := by
    rw [names_setEntry]
    split
    · exact List.Sublist.refl _
    · exact List.sublist_append_left _ _

theorem upsert_keeps {db later : Database} {nspace : String} {rows : List TextRecord} {n : Nat}
    (put : upsert db nspace rows = .ok (n, later)) : Keeps nspace db later := by
  cases rows with
  | nil =>
      simp only [upsert, Except.ok.injEq, Prod.mk.injEq] at put
      rw [← put.2]
      exact Keeps.refl nspace db
  | cons first rest =>
      obtain ⟨name, dimension, old, named, _, rfl⟩ := upsert_ok put
      exact setEntry_keeps named _ db

theorem upsert_filled {db later : Database} {nspace : String} {rows : List TextRecord} {n : Nat}
    (some : rows ≠ []) (put : upsert db nspace rows = .ok (n, later)) : Filled later nspace := by
  cases rows with
  | nil => exact absurd rfl some
  | cons first rest =>
      obtain ⟨name, dimension, old, named, _, rfl⟩ := upsert_ok put
      refine ⟨name, dimension, _, named, ?_, by rw [lookup_setEntry, if_pos rfl]⟩
      simp [merge]

end Groundwork.Store
