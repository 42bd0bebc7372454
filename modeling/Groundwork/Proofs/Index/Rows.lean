import Groundwork.Index.Writing
import Groundwork.Proofs.Index.Entries

/-!
The rows that an analysis is written as: one for each entry, with its id and what is known about it, as
far as there are vectors.
-/

namespace Groundwork.Index

theorem zip_fst {α β : Type} (xs : List α) (ys : List β) :
    (xs.zip ys).map (·.1) = xs.take ys.length := by
  induction xs generalizing ys with
  | nil => simp
  | cons x xs ih => cases ys <;> simp [ih]

theorem rowsOf_ids (all : List Entry) (vectors : List Vector64) :
    (rowsOf all vectors).map (·.id) = (all.map (·.id)).take vectors.length := by
  rw [← List.map_take, ← zip_fst, rowsOf, List.map_map, List.map_map]
  rfl

section Records

variable {perRecord : Bool} {a : Analysis} {vectors : List Vector64} {rows : List TextRecord}

theorem records_eq (made : records perRecord a vectors = .ok rows) :
    ∃ given, rows = rowsOf (entries a) given ∧
      ((perRecord = true → (entries a).length ≤ vectors.length) → (entries a).length ≤ given.length) := by
  cases perRecord with
  | true =>
      obtain rfl := Except.ok.inj made
      exact ⟨vectors, rfl, fun enough => enough rfl⟩
  | false =>
      cases vectors with
      | nil => simp [records] at made
      | cons shared rest =>
          obtain rfl := Except.ok.inj made
          exact ⟨List.replicate (entries a).length shared, rfl, by simp⟩

theorem records_ids_nodup (made : records perRecord a vectors = .ok rows) :
    (rows.map (·.id)).Nodup := by
  obtain ⟨given, rfl, _⟩ := records_eq made
  rw [rowsOf_ids]
  exact (entries_ids_nodup a).sublist (List.take_sublist _ _)

theorem records_ids (made : records perRecord a vectors = .ok rows)
    (enough : perRecord = true → (entries a).length ≤ vectors.length) :
    rows.map (·.id) = (entries a).map (·.id) := by
  obtain ⟨given, rfl, long⟩ := records_eq made
  rw [rowsOf_ids, List.take_of_length_le (by simpa using long enough)]

theorem exists_row (made : records perRecord a vectors = .ok rows)
    (enough : perRecord = true → (entries a).length ≤ vectors.length) {e : Entry}
    (member : e ∈ entries a) : ∃ row ∈ rows, row.id = e.id ∧ row.metadata = e.metadata := by
  obtain ⟨given, rfl, long⟩ := records_eq made
  have paired : e ∈ ((entries a).zip given).map (·.1) := by
    rwa [List.map_fst_zip (long enough)]
  obtain ⟨⟨same, vector⟩, among, rfl⟩ := List.mem_map.mp paired
  exact ⟨_, List.mem_map_of_mem among, rfl, rfl⟩

end Records

theorem fileEntry_mem {a : Analysis} {i : Nat} {f : FileRecord}
    (place : (significantFiles a)[i]? = some f) : fileEntry a i f ∈ entries a := by
  have numbered : (f, i) ∈ (significantFiles a).zipIdx := by
    rw [List.mem_zipIdx_iff_getElem?]
    exact place
  have among : fileEntry a i f ∈
      (significantFiles a).zipIdx.flatMap fun place => fileEntries a place.2 place.1 := by
    refine List.mem_flatMap.mpr ⟨(f, i), numbered, ?_⟩
    simp [fileEntries]
  rw [entries, List.mem_append, List.mem_append]
  exact Or.inl (Or.inr among)

theorem fileEntry_shows (a : Analysis) (i : Nat) (f : FileRecord) :
    (fileEntry a i f).Shows "file" [("filePath", .str f.path), ("description", .str f.description)] :=
  shows_make (by simp [List.lookup_cons])

end Groundwork.Index
