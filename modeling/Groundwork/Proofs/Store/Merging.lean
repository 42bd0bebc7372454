import Groundwork.Proofs.Store.Tables

/-!
Putting rows into one table time after time. The first rows make the table, later ones are merged into
it by their ids. A table that the listing leaves out takes nothing after its first rows.
-/

namespace Groundwork.Store

section Merge

variable {all old new : List Row}

theorem mem_merge {row : Row} : row ∈ merge old new ↔
    (row ∈ old ∧ row.id ∉ new.map (·.id)) ∨ row ∈ new := by
  rw [merge, List.mem_append, List.mem_filter, Bool.not_eq_true', ← Bool.not_eq_true,
    List.contains_iff_mem]

theorem merge_nil (new : List Row) : merge [] new = new := rfl

theorem merge_nil_right (old : List Row) : merge old [] = old := by
  simp [merge]

theorem merge_ids_nodup (oldOnce : (old.map (·.id)).Nodup) (newOnce : (new.map (·.id)).Nodup) :
    ((merge old new).map (·.id)).Nodup := by
  rw [merge, List.map_append, List.nodup_append]
  have kept : ((old.filter fun r => !(new.map (·.id)).contains r.id).map (·.id)).Sublist
      (old.map (·.id)) := List.Sublist.map _ List.filter_sublist
  refine ⟨oldOnce.sublist kept, newOnce, ?_⟩
  intro id left other right same
  subst same
  obtain ⟨row, member, rfl⟩ := List.mem_map.mp left
  have absent := (List.mem_filter.mp member).2
  rw [List.contains_iff_mem.mpr right] at absent
  simp at absent

theorem mem_merge_iff (once : (all.map (·.id)).Nodup) (oldAmong : old ⊆ all) (newAmong : new ⊆ all)
    {row : Row} : row ∈ merge old new ↔ row ∈ old ∨ row ∈ new := by
  rw [mem_merge]
  constructor
  · rintro (⟨member, _⟩ | member)
    · exact Or.inl member
    · exact Or.inr member
  · rintro (member | member)
    · by_cases replaced : row.id ∈ new.map (·.id)
      · obtain ⟨other, otherMember, same⟩ := List.mem_map.mp replaced
        have equal := List.inj_on_of_nodup_map once (newAmong otherMember) (oldAmong member) same
        exact Or.inr (equal ▸ otherMember)
      · exact Or.inl ⟨member, replaced⟩
    · exact Or.inr member

theorem merge_ne_nil (filled : new ≠ []) : merge old new ≠ [] :=
  List.append_ne_nil_of_right_ne_nil _ filled

end Merge

section Stores

def Stores (db : Database) (nspace : String) (row : Row) : Prop :=
  ∃ name dimension rows, tableName nspace = .ok name ∧
    db.lookup name = some (.rows dimension rows) ∧ row ∈ rows

variable {db later : Database} {nspace : String} {records : List TextRecord} {n : Nat}

theorem storedRow_id (r : TextRecord) : (storedRow r).id = r.id := rfl

theorem upsert_stores (put : upsert db nspace records = .ok (n, later)) {r : TextRecord}
    (member : r ∈ records) : Stores later nspace (storedRow r) := by
  cases records with
  | nil => simp at member
  | cons first rest =>
      obtain ⟨name, dimension, old, named, _, rfl⟩ := upsert_ok put
      refine ⟨name, dimension, _, named, by rw [lookup_setEntry, if_pos rfl], ?_⟩
      exact mem_merge.mpr (Or.inr (List.mem_map_of_mem member))

theorem upsert_stores_other (put : upsert db nspace records = .ok (n, later)) {row : Row}
    (stored : Stores db nspace row) (other : row.id ∉ records.map (·.id)) :
    Stores later nspace row := by
  cases records with
  | nil =>
      simp only [upsert, Except.ok.injEq, Prod.mk.injEq] at put
      rwa [← put.2]
  | cons first rest =>
      obtain ⟨name, dimension, old, named, before, rfl⟩ := upsert_ok put
      obtain ⟨same, size, rows, sameNamed, found, member⟩ := stored
      obtain rfl := Except.ok.inj (named.symm.trans sameNamed)
      refine ⟨name, dimension, _, named, by rw [lookup_setEntry, if_pos rfl], ?_⟩
      rcases before with kept | ⟨absent, _⟩
      · rw [kept, Option.some.injEq, Table.rows.injEq] at found
        obtain ⟨_, rfl⟩ := found
        refine mem_merge.mpr (Or.inl ⟨member, ?_⟩)
        simpa only [List.map_map, Function.comp_def, storedRow_id] using other
      · simp [absent] at found

end Stores

structure OfDimension (dimension : Nat) (rows : List TextRecord) : Prop where
  positive : 0 < dimension
  each : ∀ r ∈ rows, r.vector.length = dimension

instance (size : Nat) (records : List TextRecord) : Decidable (OfDimension size records) :=
  decidable_of_iff (0 < size ∧ ∀ r ∈ records, r.vector.length = size)
    ⟨fun ⟨positive, each⟩ => ⟨positive, each⟩, fun ⟨positive, each⟩ => ⟨positive, each⟩⟩

theorem OfDimension.subset {dimension : Nat} {rows batch : List TextRecord}
    (fits : OfDimension dimension rows) (among : batch ⊆ rows) : OfDimension dimension batch :=
  ⟨fits.positive, fun r member => fits.each r (among member)⟩

theorem setEntry_setEntry {α : Type} (name : String) (first second : α)
    (entries : List (String × α)) :
    setEntry name second (setEntry name first entries) = setEntry name second entries := by
  induction entries with
  | nil => simp [setEntry]
  | cons entry entries ih =>
      obtain ⟨n, v⟩ := entry
      by_cases own : n = name
      · simp [setEntry, own]
      · simp [setEntry, own, ih]

def holding (name : String) (dimension : Nat) (stored : List Row) (db : Database) : Database :=
  if stored = [] then db else setEntry name (.rows dimension stored) db

variable {db : Database} {nspace name : String} {dimension : Nat} {stored : List Row}
  {batch : List TextRecord}

theorem lookup_holding (kept : stored ≠ []) :
    (holding name dimension stored db).lookup name = some (.rows dimension stored) := by
  rw [holding, if_neg kept, lookup_setEntry, if_pos rfl]

theorem mem_listed_setEntry (absent : db.lookup name = none) (table : Table) :
    name ∈ listed (setEntry name table db) ↔ (names db).countP (· < name) < listingLimit := by
  have new : name ∉ names db := by
    rw [← isSome_lookup_iff, absent]
    simp
  have alone : [name].countP (· < name) = 0 := by
    rw [List.countP_singleton, decide_eq_false (String.lt_irrefl name)]
    rfl
  rw [mem_listed_iff, names_setEntry, if_neg new, List.countP_append, alone, Nat.add_zero]
  exact and_iff_right (List.mem_append_right _ (List.mem_singleton_self name))

theorem open?_holding (absent : db.lookup name = none) (kept : stored ≠ []) :
    open? (holding name dimension stored db) name =
      if (names db).countP (· < name) < listingLimit then some (.rows dimension stored) else none := by
  rw [open?_eq, lookup_holding kept, holding, if_neg kept]
  simp only [mem_listed_setEntry absent]

theorem upsert_eq (named : tableName nspace = .ok name) (fits : OfDimension dimension batch)
    (filled : batch ≠ []) (db : Database) : upsert db nspace batch =
      match open? db name with
      | some (.rows d old) =>
        if d = dimension then
          .ok (batch.length, setEntry name (.rows d (merge old (batch.map storedRow))) db)
        else .error (upsertFailed nspace)
      | some (.info _ _) => .error (upsertFailed nspace)
      | none =>
        if (db.lookup name).isSome then .error (upsertFailed nspace)
        else .ok (batch.length, setEntry name (.rows dimension (batch.map storedRow)) db) := by
  cases split : batch with
  | nil => exact absurd split filled
  | cons first rest =>
      subst split
      have length : first.vector.length = dimension := fits.each first List.mem_cons_self
      have uniform : (decide (dimension = 0) ||
          (first :: rest).any (·.vector.length != dimension)) = false := by
        rw [Bool.or_eq_false_iff, List.any_eq_false]
        refine ⟨decide_eq_false (Nat.ne_of_gt fits.positive), fun r member => ?_⟩
        simp [fits.each r member]
      simp only [upsert, named, bind, Except.bind, length, uniform, Bool.false_eq_true, if_false]
      rfl

theorem upsert_absent (named : tableName nspace = .ok name) (absent : db.lookup name = none)
    (fits : OfDimension dimension batch) (filled : batch ≠ []) :
    upsert db nspace batch =
      .ok (batch.length, holding name dimension (batch.map storedRow) db) := by
  have closed : open? db name = none := by
    rw [open?_eq, absent, ite_self]
  have stored : batch.map storedRow ≠ [] := by simpa using filled
  rw [upsert_eq named fits filled, closed, holding, if_neg stored]
  simp [absent]

theorem upsert_holding (named : tableName nspace = .ok name) (absent : db.lookup name = none)
    (few : (names db).countP (· < name) < listingLimit) (fits : OfDimension dimension batch)
    (filled : batch ≠ []) : upsert (holding name dimension stored db) nspace batch =
      .ok (batch.length, holding name dimension (merge stored (batch.map storedRow)) db) := by
  by_cases new : stored = []
  · rw [new, merge_nil, ← upsert_absent named absent fits filled]
    rfl
  · have merged : merge stored (batch.map storedRow) ≠ [] := merge_ne_nil (by simpa using filled)
    rw [upsert_eq named fits filled, open?_holding absent new, if_pos few, holding, holding,
      if_neg new, if_neg merged]
    simp [setEntry_setEntry]

theorem upsert_hidden (named : tableName nspace = .ok name) (absent : db.lookup name = none)
    (many : listingLimit ≤ (names db).countP (· < name)) (fits : OfDimension dimension batch)
    (filled : batch ≠ []) (kept : stored ≠ []) :
    upsert (holding name dimension stored db) nspace batch = .error (upsertFailed nspace) := by
  rw [upsert_eq named fits filled, open?_holding absent kept, if_neg (Nat.not_lt.mpr many),
    lookup_holding kept]
  rfl

end Groundwork.Store
