import Groundwork.Proofs.Store.Merging
import Mathlib.Data.Finmap

/-!
What is kept of a namespace: under each id the record that was put in last. A table lists it if its rows
are these records, each id once; putting in records with ids of their own keeps the two in step.
-/

namespace Groundwork.Store

/-- The record last put in under each id. -/
abbrev Shelf := Finmap fun _ : String => TextRecord

def lastOf (records : List TextRecord) (id : String) : Option TextRecord :=
  records.reverse.find? (·.id == id)

theorem lastOf_cons (r : TextRecord) (records : List TextRecord) (id : String) :
    lastOf (r :: records) id = (lastOf records id).or (if r.id = id then some r else none) := by
  rw [lastOf, List.reverse_cons, List.find?_append, ← lastOf, List.find?_singleton]
  simp only [beq_iff_eq]

theorem lastOf_eq_none_iff {records : List TextRecord} {id : String} :
    lastOf records id = none ↔ id ∉ records.map (·.id) := by
  simp [lastOf, List.find?_eq_none]

theorem lastOf_eq_some_iff {records : List TextRecord} (once : (records.map (·.id)).Nodup)
    {id : String} {r : TextRecord} : lastOf records id = some r ↔ r ∈ records ∧ r.id = id := by
  constructor
  · intro found
    exact ⟨List.mem_reverse.mp (List.mem_of_find?_eq_some found), by simpa using List.find?_some found⟩
  · rintro ⟨member, rfl⟩
    cases found : lastOf records r.id with
    | none =>
        have other := List.find?_eq_none.mp found r (List.mem_reverse.mpr member)
        simp at other
    | some last =>
        have same : last.id = r.id := by simpa using List.find?_some found
        have among := List.mem_reverse.mp (List.mem_of_find?_eq_some found)
        rw [List.inj_on_of_nodup_map once among member same]

namespace Shelf

variable {s : Shelf} {records : List TextRecord} {id : String}

def put (s : Shelf) (records : List TextRecord) : Shelf :=
  records.foldl (fun s r => s.insert r.id r) s

theorem lookup_put (s : Shelf) (records : List TextRecord) (id : String) :
    (s.put records).lookup id = (lastOf records id).or (s.lookup id) := by
  induction records generalizing s with
  | nil => rfl
  | cons r records ih =>
      have step : s.put (r :: records) = put (s.insert r.id r) records := rfl
      rw [step, ih, lastOf_cons, Option.or_assoc]
      by_cases own : r.id = id
      · subst own
        rw [Finmap.lookup_insert, if_pos rfl]
        rfl
      · rw [Finmap.lookup_insert_of_ne _ (Ne.symm own), if_neg own]
        rfl

theorem put_ne_empty (s : Shelf) (filled : records ≠ []) : s.put records ≠ ∅ := by
  obtain ⟨r, member⟩ := List.exists_mem_of_ne_nil records filled
  intro empty
  have unchanged := s.lookup_put records r.id
  rw [empty, Finmap.lookup_empty, eq_comm, Option.or_eq_none_iff, lastOf_eq_none_iff] at unchanged
  exact unchanged.1 (List.mem_map_of_mem member)

theorem put_flatten (s : Shelf) (batches : List (List TextRecord)) :
    s.put batches.flatten = batches.foldl put s := List.foldl_flatten

end Shelf

structure Lists (s : Shelf) (rows : List Row) : Prop where
  once : (rows.map (·.id)).Nodup
  row : ∀ id row, row ∈ rows ∧ row.id = id ↔ ∃ r, s.lookup id = some r ∧ storedRow r = row

namespace Lists

variable {s : Shelf} {rows : List Row} {batch : List TextRecord}

theorem nil : Lists ∅ [] where
  once := List.nodup_nil
  row := by simp

theorem mem_ids_iff (lists : Lists s rows) {id : String} : id ∈ rows.map (·.id) ↔ id ∈ s := by
  rw [List.mem_map, Finmap.mem_iff]
  constructor
  · rintro ⟨row, listed⟩
    obtain ⟨r, found, _⟩ := (lists.row id row).mp listed
    exact ⟨r, found⟩
  · rintro ⟨r, found⟩
    exact ⟨storedRow r, (lists.row id (storedRow r)).mpr ⟨r, found, rfl⟩⟩

theorem length (lists : Lists s rows) : rows.length = s.keys.card := by
  have ids : (rows.map (·.id)).toFinset = s.keys := by
    ext id
    rw [List.mem_toFinset, lists.mem_ids_iff, Finmap.mem_keys]
  rw [← ids, List.toFinset_card_of_nodup lists.once, List.length_map]

theorem merge (lists : Lists s rows) (once : (batch.map (·.id)).Nodup) :
    Lists (s.put batch) (merge rows (batch.map storedRow)) where
  once := by
    refine merge_ids_nodup lists.once ?_
    rwa [List.map_map]
  row id row := by
    rw [Shelf.lookup_put, mem_merge, List.map_map]
    simp only [Option.or_eq_some_iff]
    constructor
    · rintro ⟨⟨old, unchanged⟩ | new, own⟩
      · obtain ⟨r, found, same⟩ := (lists.row id row).mp ⟨old, own⟩
        exact ⟨r, Or.inr ⟨lastOf_eq_none_iff.mpr (own ▸ unchanged), found⟩, same⟩
      · obtain ⟨r, member, rfl⟩ := List.mem_map.mp new
        exact ⟨r, Or.inl ((lastOf_eq_some_iff once).mpr ⟨member, own⟩), rfl⟩
    · rintro ⟨r, last | ⟨unchanged, found⟩, rfl⟩
      · obtain ⟨member, own⟩ := (lastOf_eq_some_iff once).mp last
        exact ⟨Or.inr (List.mem_map_of_mem member), own⟩
      · obtain ⟨old, own⟩ := (lists.row id (storedRow r)).mpr ⟨r, found, rfl⟩
        exact ⟨Or.inl ⟨old, own ▸ lastOf_eq_none_iff.mp unchanged⟩, own⟩

end Lists

end Groundwork.Store
