import Groundwork.Proofs.Store.Ledger

/-!
Records put into one namespace batch by batch. Where no batch has an id twice it makes no difference how
they are cut: the table has one row for each id, that of its last record. A batch with an id twice leaves
both records in the table.
-/

namespace Groundwork.Store

section Batches

variable {batches : List (List TextRecord)} {batch : List TextRecord} {rows : List Row} {s : Shelf}

def hasId (id : String) (batch : List TextRecord) : Bool := batch.any (·.id == id)

theorem hasId_iff {id : String} : hasId id batch = true ↔ id ∈ batch.map (·.id) := by
  simp [hasId]

def lastBatch? (batches : List (List TextRecord)) (id : String) : Option (List TextRecord) :=
  batches.reverse.find? (hasId id)

theorem lastBatch?_cons (batch : List TextRecord) (batches : List (List TextRecord)) (id : String) :
    lastBatch? (batch :: batches) id =
      (lastBatch? batches id).or (if hasId id batch then some batch else none) := by
  rw [lastBatch?, List.reverse_cons, List.find?_append, ← lastBatch?, List.find?_singleton]

def rowsOf (rows : List Row) (id : String) : List Row := rows.filter (·.id == id)

theorem rowsOf_merge (rows : List Row) (batch : List TextRecord) (id : String) :
    rowsOf (merge rows (batch.map storedRow)) id =
      if hasId id batch then rowsOf (batch.map storedRow) id else rowsOf rows id := by
  have ids : (batch.map storedRow).map (·.id) = batch.map (·.id) := by rw [List.map_map]; rfl
  rw [rowsOf, merge, List.filter_append, List.filter_filter, ids]
  by_cases has : hasId id batch = true
  · have member : id ∈ batch.map (·.id) := hasId_iff.mp has
    have replaced : rows.filter (fun r => r.id == id && !(batch.map (·.id)).contains r.id) = [] := by
      refine List.filter_eq_nil_iff.mpr fun r _ => ?_
      by_cases own : r.id = id
      · simpa [own] using member
      · simp [own]
    rw [replaced, List.nil_append, if_pos has, rowsOf]
  · have absent : id ∉ batch.map (·.id) := mt hasId_iff.mpr has
    have kept : rows.filter (fun r => r.id == id && !(batch.map (·.id)).contains r.id) =
        rows.filter (·.id == id) := by
      refine List.filter_congr fun r _ => ?_
      by_cases own : r.id = id
      · simpa [own] using absent
      · simp [own]
    have new : (batch.map storedRow).filter (·.id == id) = [] := by
      refine List.filter_eq_nil_iff.mpr fun r member own => ?_
      exact absent (ids ▸ List.mem_map.mpr ⟨r, member, beq_iff_eq.mp own⟩)
    rw [kept, new, List.append_nil, if_neg has, rowsOf]

theorem length_rowsOf (rows : List Row) (id : String) :
    (rowsOf rows id).length = (rows.map (·.id)).count id := by
  rw [rowsOf, ← List.countP_eq_length_filter, List.count_eq_countP, List.countP_map]
  rfl

def mergeAll (rows : List Row) (batches : List (List TextRecord)) : List Row :=
  batches.foldl (fun rows batch => merge rows (batch.map storedRow)) rows

theorem rowsOf_mergeAll (rows : List Row) (batches : List (List TextRecord)) (id : String) :
    rowsOf (mergeAll rows batches) id =
      (lastBatch? batches id).elim (rowsOf rows id) fun batch => rowsOf (batch.map storedRow) id := by
  induction batches generalizing rows with
  | nil => rfl
  | cons batch batches ih =>
      have step : mergeAll rows (batch :: batches) =
        mergeAll (merge rows (batch.map storedRow)) batches := rfl
      rw [step, ih, lastBatch?_cons, rowsOf_merge]
      cases lastBatch? batches id with
      | some later => rfl
      | none => cases hasId id batch <;> rfl

theorem Lists.mergeAll (lists : Lists s rows)
    (once : ∀ batch ∈ batches, (batch.map (·.id)).Nodup) :
    Lists (s.put batches.flatten) (mergeAll rows batches) := by
  rw [Shelf.put_flatten]
  induction batches generalizing s rows with
  | nil => exact lists
  | cons batch batches ih =>
      exact ih (lists.merge (once batch List.mem_cons_self)) fun later member =>
        once later (List.mem_cons_of_mem _ member)

/-- An id that a batch has twice is in no other batch, so no two rows are merged with the same one. -/
def Unambiguous (batches : List (List TextRecord)) : Prop :=
  ∀ batch ∈ batches, ∀ r ∈ batch,
    1 < batch.countP (·.id == r.id) → batches.countP (hasId r.id) = 1

instance (batches : List (List TextRecord)) : Decidable (Unambiguous batches) :=
  inferInstanceAs (Decidable (∀ _ ∈ _, _))

theorem lastBatch?_of_alone {id : String} (member : batch ∈ batches) (has : hasId id batch = true)
    (alone : batches.countP (hasId id) = 1) : lastBatch? batches id = some batch := by
  rw [List.countP_eq_length_filter, List.length_eq_one_iff] at alone
  obtain ⟨only, alone⟩ := alone
  have isOnly {other : List TextRecord} (isBatch : other ∈ batches) (other_has : hasId id other) :
      other = only := by
    rw [← List.mem_singleton, ← alone]
    exact List.mem_filter.mpr ⟨isBatch, other_has⟩
  cases found : lastBatch? batches id with
  | none =>
      have missing := List.find?_eq_none.mp found batch (List.mem_reverse.mpr member)
      exact absurd has missing
  | some last =>
      have isBatch := List.mem_reverse.mp (List.mem_of_find?_eq_some found)
      rw [isOnly isBatch (List.find?_some found), isOnly member has]

theorem nodup_of_mergeAll (unambiguous : Unambiguous batches)
    (once : ((mergeAll [] batches).map (·.id)).Nodup) :
    ∀ batch ∈ batches, (batch.map (·.id)).Nodup := by
  refine fun batch member => List.nodup_iff_count_le_one.mpr fun id => Nat.le_of_not_lt fun twice => ?_
  obtain ⟨r, among, rfl⟩ := List.mem_map.mp (List.count_pos_iff.mp (Nat.zero_lt_of_lt twice))
  have has : hasId r.id batch = true := List.any_eq_true.mpr ⟨r, among, beq_self_eq_true _⟩
  have repeated : 1 < batch.countP (·.id == r.id) := by
    rwa [List.count_eq_countP, List.countP_map] at twice
  have last := lastBatch?_of_alone member has (unambiguous batch member r among repeated)
  have atMost := List.nodup_iff_count_le_one.mp once r.id
  rw [← length_rowsOf, rowsOf_mergeAll, last, Option.elim_some, length_rowsOf, List.map_map] at atMost
  exact absurd twice (Nat.not_lt.mpr atMost)

structure StoredFrom (batches : List (List TextRecord)) (stored : List Row) : Prop where
  /-- Batches in which each id occurs once leave one row for each id, that of the last record. -/
  lists : (∀ batch ∈ batches, (batch.map (·.id)).Nodup) →
    Lists (Shelf.put ∅ batches.flatten) stored
  rows : Unambiguous batches → ∀ id, rowsOf stored id =
    (lastBatch? batches id).elim [] fun batch => rowsOf (batch.map storedRow) id
  /-- There are no other batches that leave one row for each id. -/
  once : Unambiguous batches → (stored.map (·.id)).Nodup →
    ∀ batch ∈ batches, (batch.map (·.id)).Nodup

theorem storedFrom_mergeAll (batches : List (List TextRecord)) :
    StoredFrom batches (mergeAll [] batches) where
  lists := Lists.nil.mergeAll
  rows _ id := rowsOf_mergeAll [] batches id
  once := nodup_of_mergeAll

end Batches

section Upserts

variable {db : Database} {nspace name : String} {dimension : Nat} {stored : List Row}
  {batches : List (List TextRecord)} {batch : List TextRecord}

theorem perform_upsert_nil (db : Database) (nspace : String) :
    (Call.upsert nspace []).perform db = (.ok (.number 0), db) := rfl

theorem performAll_upserts (named : tableName nspace = .ok name) (absent : db.lookup name = none)
    (few : (names db).countP (· < name) < listingLimit)
    (fits : ∀ batch ∈ batches, OfDimension dimension batch) (stored : List Row) :
    performAll (holding name dimension stored db) (batches.map (Call.upsert nspace)) =
      (batches.map fun batch => .ok (.number batch.length),
        holding name dimension (mergeAll stored batches) db) := by
  induction batches generalizing stored with
  | nil => rfl
  | cons batch batches ih =>
      have made : (Call.upsert nspace batch).perform (holding name dimension stored db) =
          (.ok (.number batch.length),
            holding name dimension (merge stored (batch.map storedRow)) db) := by
        by_cases filled : batch = []
        · subst filled
          rw [perform_upsert_nil, List.map_nil, merge_nil_right]
          rfl
        · rw [Call.perform, upsert_holding named absent few (fits batch List.mem_cons_self) filled]
      have later := ih (fun other member => fits other (List.mem_cons_of_mem _ member))
        (merge stored (batch.map storedRow))
      rw [List.map_cons, performAll, made]
      simp only [later]
      rfl

theorem performAll_hidden (named : tableName nspace = .ok name) (absent : db.lookup name = none)
    (many : listingLimit ≤ (names db).countP (· < name))
    (fits : ∀ batch ∈ batches, OfDimension dimension batch) (kept : stored ≠ []) :
    (performAll (holding name dimension stored db) (batches.map (Call.upsert nspace))).2 =
      holding name dimension stored db := by
  induction batches with
  | nil => rfl
  | cons batch batches ih =>
      have unchanged : ((Call.upsert nspace batch).perform (holding name dimension stored db)).2 =
          holding name dimension stored db := by
        by_cases filled : batch = []
        · rw [filled, perform_upsert_nil]
        · rw [Call.perform,
            upsert_hidden named absent many (fits batch List.mem_cons_self) filled kept]
      rw [List.map_cons, performAll]
      simp only [unchanged]
      exact ih fun other member => fits other (List.mem_cons_of_mem _ member)

def firstFilled (batches : List (List TextRecord)) : List TextRecord :=
  (batches.find? (!·.isEmpty)).getD []

theorem firstFilled_cons (filled : batch ≠ []) : firstFilled (batch :: batches) = batch := by
  cases batch with
  | nil => exact absurd rfl filled
  | cons first rest => rfl

theorem performAll_first (named : tableName nspace = .ok name) (absent : db.lookup name = none)
    (many : listingLimit ≤ (names db).countP (· < name))
    (fits : ∀ batch ∈ batches, OfDimension dimension batch) :
    (performAll db (batches.map (Call.upsert nspace))).2 =
      holding name dimension ((firstFilled batches).map storedRow) db := by
  induction batches with
  | nil => rfl
  | cons batch batches ih =>
      have later (other : List TextRecord) (member : other ∈ batches) : OfDimension dimension other :=
        fits other (List.mem_cons_of_mem _ member)
      rw [List.map_cons, performAll]
      by_cases filled : batch = []
      · subst filled
        exact ih later
      · have made : (Call.upsert nspace batch).perform db = (.ok (.number batch.length),
            holding name dimension (batch.map storedRow) db) := by
          rw [Call.perform, upsert_absent named absent (fits batch List.mem_cons_self) filled]
        simp only [made, firstFilled_cons filled]
        exact performAll_hidden named absent many later (by simpa using filled)

end Upserts

/-- Records of one dimension are put batch by batch into a table that is not there. If the listing is to
show it, each batch goes in and the table has what the batches come to; if not, it has the first batch
that is not empty. -/
theorem cuts_stored {db : Database} {nspace name : String} {dimension : Nat}
    (named : tableName nspace = .ok name) (absent : db.lookup name = none)
    (batches : List (List TextRecord)) (fits : OfDimension dimension batches.flatten) :
    ((names db).countP (· < name) < listingLimit → ∃ stored, StoredFrom batches stored ∧
      performAll db (batches.map (Call.upsert nspace)) =
        (batches.map fun batch => .ok (.number batch.length), holding name dimension stored db)) ∧
    (listingLimit ≤ (names db).countP (· < name) →
      (performAll db (batches.map (Call.upsert nspace))).2 =
        holding name dimension ((firstFilled batches).map storedRow) db) := by
  have each (batch : List TextRecord) (member : batch ∈ batches) : OfDimension dimension batch :=
    fits.subset fun r among => List.mem_flatten_of_mem member among
  refine ⟨fun few => ⟨mergeAll [] batches, storedFrom_mergeAll batches, ?_⟩, fun many => ?_⟩
  · exact performAll_upserts named absent few each []
  · exact performAll_first named absent many each

def otherRecord : TextRecord := { smallRecord with vector := [0.0, 1.0] }

theorem cuts_stored_small : ∃ stored,
    performAll [] [.upsert "ns" [smallRecord], .upsert "ns" [otherRecord]] =
      ([.ok (.number 1), .ok (.number 1)], holding "ns" 2 stored []) ∧
    Lists (Shelf.put ∅ [smallRecord, otherRecord]) stored := by
  have fits : OfDimension 2 [[smallRecord], [otherRecord]].flatten := by decide
  have named : tableName "ns" = .ok "ns" := by decide
  have absent : ([] : Database).lookup "ns" = none := rfl
  obtain ⟨stored, isStored, performed⟩ :=
    (cuts_stored named absent [[smallRecord], [otherRecord]] fits).1 (by decide)
  exact ⟨stored, performed, isStored.lists (by decide)⟩

theorem smallRecord_twice : ∃ stored,
    performAll [] [.upsert "ns" [smallRecord, otherRecord]] =
      ([.ok (.number 2)], [("ns", .rows 2 stored)]) ∧
    countRows [("ns", .rows 2 stored)] "ns" = .ok 2 ∧
    (Shelf.put ∅ [smallRecord, otherRecord]).keys.card = 1 ∧
    ¬ Lists (Shelf.put ∅ [smallRecord, otherRecord]) stored := by
  have named : tableName "ns" = .ok "ns" := by decide
  have absent : ([] : Database).lookup "ns" = none := rfl
  have fits : ∀ batch ∈ [[smallRecord, otherRecord]], OfDimension 2 batch := by decide
  have isListed (table : Table) : "ns" ∈ listed [("ns", table)] := by
    have few : ["ns"].countP (· < "ns") < listingLimit := by decide
    exact (mem_listed_iff _ _).mpr ⟨List.mem_singleton_self _, few⟩
  refine ⟨_, performAll_upserts named absent (by decide) fits [], ?_, by decide +kernel, ?_⟩
  · rw [countRows_listed named (isListed _) rfl]
    rfl
  · intro lists
    exact absurd lists.once (by decide)

end Groundwork.Store
