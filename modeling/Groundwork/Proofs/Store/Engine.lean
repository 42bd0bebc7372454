import Groundwork.Proofs.Store.Merging
import Groundwork.Proofs.Store.Nearest

/-!
What the store asks of the engine that keeps its tables, and what it adds to it. The tables in memory are one
engine that obeys the laws, and what is done to a database is what the store does with them.
-/

namespace Groundwork.Store

open Retrieval

/-- The operations of an engine. Rows that it refuses to make a table of or to merge lead to no state. -/
structure Engine (σ : Type) where
  content : σ → String → Option Table
  listing : σ → List String
  create : σ → String → List Row → Option σ
  merge : σ → String → List Row → Option σ
  search : σ → String → Vector64 → Int → Filter → Option (List (Hit Float))
  drop : σ → String → σ

/-- A row as a table keeps it, in single precision. -/
def Row.kept (r : Row) : Row := { r with vector := r.vector.map single }

def fits (dimension : Nat) (rows : List Row) : Bool :=
  decide (0 < dimension) && rows.all (·.vector.length == dimension)

theorem dimension_of_fits {dimension : Nat} {row : Row} {rows : List Row}
    (fit : fits dimension (row :: rows) = true) : dimension = row.vector.length := by
  have first := List.all_eq_true.mp (Bool.and_eq_true_iff.mp fit).2 row List.mem_cons_self
  exact (beq_iff_eq.mp first).symm

def Ranked (rows : List Row) (vector : Vector64) (topK : Nat) (filter : Filter)
    (hits : List (Hit Float)) : Prop :=
  ∃ all : List (Hit Float), all.Perm (allHits rows vector filter) ∧
    all.Pairwise (fun a b => ¬ a.scoreOrZero < b.scoreOrZero) ∧ hits = all.take topK

def AlikeBut {σ : Type} (e : Engine σ) (name : String) (s later : σ) : Prop :=
  ∀ other, other ≠ name → e.content later other = e.content s other

/-- The laws of an engine. A listing shows the first ten tables in the order of their names. -/
structure Engine.Lawful {σ : Type} (e : Engine σ) : Prop where
  listing : ∀ s, ∃ all : List String, all.Pairwise (· < ·) ∧
    (∀ name, name ∈ all ↔ (e.content s name).isSome = true) ∧ e.listing s = all.take 10
  create : ∀ s name rows dimension, rows ≠ [] → fits dimension rows = true → e.content s name = none →
    ∃ later, e.create s name rows = some later ∧
      e.content later name = some (.rows dimension (rows.map Row.kept)) ∧ AlikeBut e name s later
  known : ∀ s name rows, (e.content s name).isSome = true → e.create s name rows = none
  merge : ∀ s name rows dimension old, e.content s name = some (.rows dimension old) →
    fits dimension rows = true → (rows.map (·.id)).Nodup → ∃ later merged, e.merge s name rows = some later ∧
      e.content later name = some (.rows dimension merged) ∧ AlikeBut e name s later ∧
      ∀ row, row ∈ merged ↔ (row ∈ old ∧ row.id ∉ rows.map (·.id)) ∨ row ∈ rows.map Row.kept
  search : ∀ s name vector topK filter rows, e.content s name = some (.rows vector.length rows) →
    0 < topK → ∃ hits, e.search s name vector topK filter = some hits ∧
      Ranked rows vector topK.toNat filter hits
  drop : ∀ s name, e.content (e.drop s name) name = none ∧ AlikeBut e name s (e.drop s name)

namespace Engine

variable {σ : Type} (e : Engine σ) (s : σ)

def upsert (nspace : String) (records : List TextRecord) : Except Failure (Nat × σ) :=
  if records.isEmpty then .ok (0, s)
  else do
    let name ← tableName nspace
    let rows := records.map Row.ofRecord
    let put := if (e.listing s).contains name then e.merge s name rows else e.create s name rows
    match put with
    | some later => return (records.length, later)
    | none => throw (upsertFailed nspace)

def query (nspace : String) (vector : Vector64) (topK : Int) (filter : Filter) :
    Except Failure (List (Hit Float)) := do
  let name ← tableName nspace
  if (e.listing s).contains name then
    let _ ← condition? filter
    match e.search s name vector topK filter with
    | some hits => return hits
    | none => throw (queryFailed nspace)
  else return []

def countRows (nspace : String) : Except Failure Nat := do
  let name ← tableName nspace
  if (e.listing s).contains name then return ((e.content s name).map Table.count).getD 0
  else return 0

def delete (nspace : String) : Except Failure (Bool × σ) := do
  let name ← tableName nspace
  if (e.listing s).contains name then return (true, e.drop s name) else return (false, s)

section Upserts

variable {e s} {nspace name : String} {records : List TextRecord} {dimension : Nat}

theorem Lawful.isSome_of_listed (lawful : e.Lawful) (listed : name ∈ e.listing s) :
    (e.content s name).isSome = true := by
  obtain ⟨all, _, there, shown⟩ := lawful.listing s
  rw [shown] at listed
  exact (there name).mp (List.mem_of_mem_take listed)

theorem upsert_eq (named : tableName nspace = .ok name) (filled : records ≠ []) :
    e.upsert s nspace records =
      match if name ∈ e.listing s then e.merge s name (records.map Row.ofRecord)
        else e.create s name (records.map Row.ofRecord) with
      | some later => .ok (records.length, later)
      | none => .error (upsertFailed nspace) := by
  rw [upsert, if_neg (by simpa using filled), named]
  simp only [bind, Except.bind, List.contains_iff_mem]
  rfl

/-- Records make a table, are merged into one that is listed, and are refused by one that is not. -/
theorem Lawful.upsert (lawful : e.Lawful) (named : tableName nspace = .ok name) (filled : records ≠ [])
    (fit : fits dimension (records.map Row.ofRecord) = true) (once : (records.map (·.id)).Nodup) :
    (e.content s name = none → ∃ later, e.upsert s nspace records = .ok (records.length, later) ∧
        e.content later name = some (.rows dimension (records.map storedRow)) ∧ AlikeBut e name s later) ∧
      (∀ old, e.content s name = some (.rows dimension old) → name ∈ e.listing s → ∃ later merged,
        e.upsert s nspace records = .ok (records.length, later) ∧
          e.content later name = some (.rows dimension merged) ∧ AlikeBut e name s later ∧
          ∀ row, row ∈ merged ↔
            (row ∈ old ∧ row.id ∉ records.map (·.id)) ∨ row ∈ records.map storedRow) ∧
      ((e.content s name).isSome = true → name ∉ e.listing s →
        e.upsert s nspace records = .error (upsertFailed nspace)) := by
  rw [upsert_eq named filled]
  refine ⟨fun absent => ?_, fun old found listed => ?_, fun isThere hidden => ?_⟩
  · have hidden : name ∉ e.listing s := fun listed => by
      have isThere := lawful.isSome_of_listed listed
      rw [absent] at isThere
      cases isThere
    obtain ⟨later, made, content, alike⟩ :=
      lawful.create s name (records.map Row.ofRecord) dimension (by simpa using filled) fit absent
    rw [if_neg hidden, made]
    exact ⟨later, rfl, by rw [content, List.map_map]; rfl, alike⟩
  · obtain ⟨later, merged, made, content, alike, among⟩ :=
      lawful.merge s name (records.map Row.ofRecord) dimension old found fit (by rwa [List.map_map])
    rw [if_pos listed, made]
    rw [List.map_map, List.map_map] at among
    exact ⟨later, merged, rfl, content, alike, among⟩
  · rw [if_neg hidden, lawful.known s name _ isThere]

end Upserts

end Engine

structure Tables where
  db : Database
  once : (names db).Nodup

namespace Tables

theorem setEntry_once (t : Tables) (name : String) (table : Table) :
    (names (setEntry name table t.db)).Nodup := by
  rw [names_setEntry]
  split
  · exact t.once
  · rename_i new
    exact t.once.append (List.nodup_singleton _) (List.disjoint_singleton.mpr new)

def set (t : Tables) (name : String) (table : Table) : Tables :=
  ⟨setEntry name table t.db, t.setEntry_once name table⟩

def drop (t : Tables) (name : String) : Tables where
  db := t.db.filter (·.1 != name)
  once := by
    rw [names_filter]
    exact t.once.filter _

def engine : Engine Tables where
  content t name := t.db.lookup name
  listing t := listed t.db
  create t name rows := match rows with
    | [] => none
    | first :: _ =>
      if fits first.vector.length rows && (t.db.lookup name).isNone then
        some (t.set name (.rows first.vector.length (rows.map Row.kept)))
      else none
  merge t name rows := match t.db.lookup name with
    | some (.rows dimension old) =>
      if fits dimension rows then some (t.set name (.rows dimension (Store.merge old (rows.map Row.kept))))
      else none
    | _ => none
  search t name vector topK filter := match t.db.lookup name with
    | some (.rows dimension rows) =>
      if dimension = vector.length ∧ 0 < topK then
        some (nearest rows (vector.map single) topK.toNat filter)
      else none
    | _ => none
  drop := drop

theorem lookup_set (t : Tables) (name : String) (table : Table) (query : String) :
    (t.set name table).db.lookup query = if query = name then some table else t.db.lookup query :=
  lookup_setEntry name query table t.db

theorem set_alike (t : Tables) (name : String) (table : Table) :
    AlikeBut engine name t (t.set name table) :=
  fun other different => (t.lookup_set name table other).trans (if_neg different)

theorem lookup_drop (t : Tables) (name : String) : (t.drop name).db.lookup name = none := by
  rw [← Option.not_isSome_iff_eq_none, isSome_lookup_iff, drop, names_filter, List.mem_filter]
  simp

section Operations

variable {t : Tables} {name : String} {dimension : Nat} {old : List Row}

theorem create_engine (first : Row) (rest : List Row) : engine.create t name (first :: rest) =
    if fits first.vector.length (first :: rest) && (t.db.lookup name).isNone then
      some (t.set name (.rows first.vector.length ((first :: rest).map Row.kept)))
    else none := rfl

theorem merge_rows (found : t.db.lookup name = some (.rows dimension old)) (rows : List Row) :
    engine.merge t name rows = if fits dimension rows then
      some (t.set name (.rows dimension (Store.merge old (rows.map Row.kept)))) else none := by
  simp only [engine, found]

theorem merge_info {size : Int} {metric : String} (found : t.db.lookup name = some (.info size metric))
    (rows : List Row) : engine.merge t name rows = none := by
  simp only [engine, found]

theorem search_rows (found : t.db.lookup name = some (.rows dimension old)) (vector : Vector64)
    (topK : Int) (filter : Filter) : engine.search t name vector topK filter =
      if dimension = vector.length ∧ 0 < topK then
        some (nearest old (vector.map single) topK.toNat filter) else none := by
  simp only [engine, found]

theorem search_info {size : Int} {metric : String} (found : t.db.lookup name = some (.info size metric))
    (vector : Vector64) (topK : Int) (filter : Filter) :
    engine.search t name vector topK filter = none := by
  simp only [engine, found]

end Operations

theorem engine_lawful : engine.Lawful where
  listing t := by
    refine ⟨sortTexts (names t.db), ?_, fun name => ?_, rfl⟩
    · refine (sortTexts_sorted _).imp₂ (fun _ _ atMost different => ?_)
        ((sortTexts_perm _).nodup_iff.mpr t.once)
      exact String.not_le.mp fun atLeast => different (String.le_antisymm atMost atLeast)
    · rw [(sortTexts_perm _).mem_iff]
      exact (isSome_lookup_iff t.db name).symm
  create t name rows dimension filled fit absent := by
    obtain ⟨first, rest, rfl⟩ := List.exists_cons_of_ne_nil filled
    obtain rfl := dimension_of_fits fit
    have free : (t.db.lookup name).isNone = true := Option.isNone_iff_eq_none.mpr absent
    rw [create_engine, fit, free]
    exact ⟨_, rfl, (t.lookup_set name _ name).trans (if_pos rfl), t.set_alike name _⟩
  known t name rows isThere := by
    have taken : (t.db.lookup name).isNone = false := by
      rw [Option.isNone_eq_false_iff]
      exact isThere
    cases rows with
    | nil => rfl
    | cons first rest =>
        refine if_neg ?_
        rw [taken, Bool.and_false]
        exact Bool.false_ne_true
  merge t name rows dimension old found fit _ := by
    have merged : engine.merge t name rows =
        some (t.set name (.rows dimension (Store.merge old (rows.map Row.kept)))) :=
      (merge_rows found rows).trans (if_pos fit)
    refine ⟨_, _, merged, (t.lookup_set name _ name).trans (if_pos rfl), t.set_alike name _, fun row => ?_⟩
    rw [mem_merge, List.map_map]
    rfl
  search t name vector topK filter rows found positive := by
    refine ⟨nearest rows (vector.map single) topK.toNat filter, ?_, ?_⟩
    · exact (search_rows found vector topK filter).trans (if_pos ⟨rfl, positive⟩)
    · refine ⟨_, List.mergeSort_perm _ _, pairwise_mergeSort_scores fun h member => ?_, rfl⟩
      obtain ⟨row, _, hit⟩ := List.mem_filterMap.mp member
      obtain ⟨score, scored, rfl⟩ := hitOf_eq_some_iff.mp hit
      exact score?_number scored
  drop t name := ⟨t.lookup_drop name, fun other different => lookup_filter_of_ne different t.db⟩

section Wrapping

variable (t : Tables) (nspace : String)

theorem open?_of_listed {t : Tables} {name : String} (isListed : (engine.listing t).contains name = true) :
    ∃ table, open? t.db name = some table ∧ t.db.lookup name = some table := by
  have isThere : (t.db.lookup name).isSome = true := by
    rw [isSome_lookup_iff]
    exact ((mem_listed_iff t.db name).mp (List.contains_iff_mem.mp isListed)).1
  obtain ⟨table, found⟩ := Option.isSome_iff_exists.mp isThere
  exact ⟨table, (if_pos isListed).trans found, found⟩

theorem open?_of_hidden {t : Tables} {name : String} (hidden : ¬ (engine.listing t).contains name = true) :
    open? t.db name = none := if_neg hidden

theorem fits_ofRecords (dimension : Nat) (records : List TextRecord) :
    fits dimension (records.map Row.ofRecord) =
      !(decide (dimension = 0) || records.any (·.vector.length != dimension)) := by
  rw [fits, Bool.not_or, List.all_map, List.any_eq_not_all_not, Bool.not_not]
  congr 1
  · simp [Nat.pos_iff_ne_zero]
  · refine List.all_congr rfl fun r => ?_
    exact (Bool.not_not _).symm

theorem upsert_cons {name : String} (named : tableName nspace = .ok name) (first : TextRecord)
    (rest : List TextRecord) : upsert t.db nspace (first :: rest) =
      if fits first.vector.length ((first :: rest).map Row.ofRecord) then
        match open? t.db name with
        | some (.rows d old) =>
          if d = first.vector.length then .ok ((first :: rest).length,
            setEntry name (.rows d (merge old ((first :: rest).map storedRow))) t.db)
          else .error (upsertFailed nspace)
        | some (.info _ _) => .error (upsertFailed nspace)
        | none =>
          if (t.db.lookup name).isSome then .error (upsertFailed nspace)
          else .ok ((first :: rest).length,
            setEntry name (.rows first.vector.length ((first :: rest).map storedRow)) t.db)
      else .error (upsertFailed nspace) := by
  have uniform : (decide (first.vector.length = 0) ||
      (first :: rest).any (·.vector.length != first.vector.length)) =
      !fits first.vector.length ((first :: rest).map Row.ofRecord) := by
    rw [fits_ofRecords, Bool.not_not]
  rw [upsert, named]
  simp only [bind, Except.bind, uniform]
  cases fits first.vector.length ((first :: rest).map Row.ofRecord) <;> rfl

theorem upsert_listed {name : String} (named : tableName nspace = .ok name) (first : TextRecord)
    (rest : List TextRecord) (isListed : name ∈ engine.listing t) :
    (engine.upsert t nspace (first :: rest)).map (fun (n, later) => (n, later.db)) =
      upsert t.db nspace (first :: rest) := by
  obtain ⟨table, opened, found⟩ := open?_of_listed (List.contains_iff_mem.mpr isListed)
  rw [Engine.upsert_eq named (List.cons_ne_nil _ _), if_pos isListed, upsert_cons t nspace named, opened]
  cases table with
  | info dimension metric =>
      rw [merge_info found]
      cases fits first.vector.length ((first :: rest).map Row.ofRecord) <;> rfl
  | rows dimension old =>
      rw [merge_rows found]
      by_cases same : dimension = first.vector.length
      · subst same
        cases fits first.vector.length ((first :: rest).map Row.ofRecord)
        · rfl
        · simp
          rfl
      · have refused : ¬ fits dimension ((first :: rest).map Row.ofRecord) = true :=
          fun fit => same (dimension_of_fits fit)
        simp only [if_neg refused, if_neg same]
        cases fits first.vector.length ((first :: rest).map Row.ofRecord) <;> rfl

theorem upsert_hidden {name : String} (named : tableName nspace = .ok name) (first : TextRecord)
    (rest : List TextRecord) (hidden : name ∉ engine.listing t) :
    (engine.upsert t nspace (first :: rest)).map (fun (n, later) => (n, later.db)) =
      upsert t.db nspace (first :: rest) := by
  have created : engine.create t name ((first :: rest).map Row.ofRecord) =
      if fits first.vector.length ((first :: rest).map Row.ofRecord) &&
          (t.db.lookup name).isNone then
        some (t.set name (.rows first.vector.length (((first :: rest).map Row.ofRecord).map Row.kept)))
      else none := create_engine _ _
  have closed : open? t.db name = none :=
    open?_of_hidden fun isListed => hidden (List.contains_iff_mem.mp isListed)
  rw [Engine.upsert_eq named (List.cons_ne_nil _ _), if_neg hidden, upsert_cons t nspace named, closed,
    created]
  cases fits first.vector.length ((first :: rest).map Row.ofRecord)
  · rfl
  · cases t.db.lookup name
    · simp
      rfl
    · rfl

theorem upsert_engine (records : List TextRecord) :
    (engine.upsert t nspace records).map (fun (n, later) => (n, later.db)) =
      upsert t.db nspace records := by
  cases records with
  | nil => rfl
  | cons first rest =>
      cases named : tableName nspace with
      | error failure =>
          rw [Engine.upsert, upsert, named]
          rfl
      | ok name =>
          by_cases isListed : name ∈ engine.listing t
          · exact upsert_listed t nspace named first rest isListed
          · exact upsert_hidden t nspace named first rest isListed

theorem query_engine (vector : Vector64) (topK : Int) (filter : Filter) :
    engine.query t nspace vector topK filter = query t.db nspace vector topK filter := by
  rw [Engine.query, query]
  cases tableName nspace with
  | error failure => rfl
  | ok name =>
      by_cases isListed : (engine.listing t).contains name = true
      · obtain ⟨table, opened, found⟩ := open?_of_listed isListed
        simp only [bind, Except.bind, if_pos isListed, opened]
        cases condition? filter with
        | error failure => rfl
        | ok condition =>
            cases table with
            | info dimension metric => rw [search_info found]
            | rows dimension rows =>
                rw [search_rows found]
                by_cases fit : dimension = vector.length ∧ 0 < topK
                · simp only [if_pos fit]
                · simp only [if_neg fit]
      · simp only [bind, Except.bind, if_neg isListed, open?_of_hidden isListed]

theorem countRows_engine : engine.countRows t nspace = countRows t.db nspace := by
  rw [Engine.countRows, countRows]
  cases tableName nspace with
  | error failure => rfl
  | ok name =>
      by_cases isListed : (engine.listing t).contains name = true
      · obtain ⟨table, opened, found⟩ := open?_of_listed isListed
        have content : engine.content t name = some table := found
        simp only [bind, Except.bind, if_pos isListed, opened, content, Option.map_some, Option.getD_some]
      · simp only [bind, Except.bind, if_neg isListed, open?_of_hidden isListed]

theorem delete_engine : (engine.delete t nspace).map (fun (wasThere, later) => (wasThere, later.db)) =
    delete t.db nspace := by
  rw [Engine.delete, delete]
  cases tableName nspace with
  | error failure => rfl
  | ok name =>
      have same : (listed t.db).contains name = (engine.listing t).contains name := rfl
      by_cases isListed : (engine.listing t).contains name = true
      · simp only [bind, Except.bind, same, if_pos isListed]
        rfl
      · simp only [bind, Except.bind, same, if_neg isListed]
        rfl

end Wrapping

end Tables

end Groundwork.Store
