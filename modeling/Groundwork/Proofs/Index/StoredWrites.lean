import Groundwork.Proofs.Batch
import Groundwork.Proofs.Index.Writes
import Groundwork.Proofs.Store.Merging

/-!
Writing into a database. The first batch that is put in fills the table of the namespace, which then
stays filled whatever becomes of the others. If none of them fails the table has every row, provided
that no two rows share an id.
-/

namespace Groundwork

namespace Index

variable {σ τ : Type} {upsert : List TextRecord → StateT τ (StateM σ) (Except Failure Unit)}
  {view : τ → Store.Database} {nspace : String} {stops : Failure → Prop}
  {all : List (List TextRecord)} {t t' : τ}

/-- What is put in goes into one namespace of the database that the state holds, and what fails
leaves that database as it is. -/
structure StoresInto (view : τ → Store.Database) (nspace : String)
    (upsert : List TextRecord → StateT τ (StateM σ) (Except Failure Unit)) : Prop where
  ok : ∀ {rows t t'}, Ran (upsert rows) t (.ok ()) t' →
    ∃ n, Store.upsert (view t) nspace rows = .ok (n, view t')
  error : ∀ {rows t failure t'}, Ran (upsert rows) t (.error failure) t' → view t' = view t

theorem Writes.keeps (stores : StoresInto view nspace upsert) {result : Except Failure Unit}
    (writes : Writes stops upsert all t result t') : Store.Keeps nspace (view t) (view t') := by
  induction writes with
  | done t => exact Store.Keeps.refl nspace (view t)
  | @stopped _ t _ _ => exact Store.Keeps.refl nspace (view t)
  | @failed _ _ t _ _ ran =>
      rw [stores.error ran]
      exact Store.Keeps.refl nspace (view t)
  | written ran _ ih =>
      obtain ⟨n, put⟩ := stores.ok ran
      exact (Store.upsert_keeps put).trans ih

theorem Writes.filled (stores : StoresInto view nspace upsert) {result : Except Failure Unit}
    (writes : Writes stops upsert all t result t') (full : ∀ batch ∈ all, batch ≠ [])
    (before : Store.Filled (view t) nspace) : Store.Filled (view t') nspace := by
  induction writes with
  | done => exact before
  | stopped _ => exact before
  | failed ran => rwa [stores.error ran]
  | @written batch _ _ _ _ _ ran _ ih =>
      obtain ⟨n, put⟩ := stores.ok ran
      exact ih (fun other member => full other (List.mem_cons_of_mem batch member))
        (Store.upsert_filled (full batch List.mem_cons_self) put)

theorem Writes.fills (stores : StoresInto view nspace upsert)
    (writes : Writes stops upsert all t (.ok ()) t') (full : ∀ batch ∈ all, batch ≠ []) (some : all ≠ []) :
    Store.Filled (view t') nspace := by
  cases writes with
  | done => exact absurd rfl some
  | @written batch _ _ _ _ _ ran rest =>
      obtain ⟨n, put⟩ := stores.ok ran
      exact rest.filled stores (fun other member => full other (List.mem_cons_of_mem batch member))
        (Store.upsert_filled (full batch List.mem_cons_self) put)

theorem Writes.stores_other (stores : StoresInto view nspace upsert) {result : Except Failure Unit}
    (writes : Writes stops upsert all t result t') {row : Store.Row}
    (stored : Store.Stores (view t) nspace row) (other : row.id ∉ all.flatten.map (·.id)) :
    Store.Stores (view t') nspace row := by
  induction writes with
  | done => exact stored
  | stopped _ => exact stored
  | failed ran => rwa [stores.error ran]
  | @written batch rest _ _ _ _ ran _ ih =>
      obtain ⟨n, put⟩ := stores.ok ran
      rw [List.flatten_cons, List.map_append, List.mem_append, not_or] at other
      exact ih (Store.upsert_stores_other put stored other.1) other.2

theorem Writes.stores_rows (stores : StoresInto view nspace upsert)
    (writes : Writes stops upsert all t (.ok ()) t') (once : (all.flatten.map (·.id)).Nodup) :
    ∀ row ∈ all.flatten, Store.Stores (view t') nspace (Store.storedRow row) := by
  generalize result : (Except.ok () : Except Failure Unit) = r at writes
  induction writes with
  | done => simp
  | stopped => simp at result
  | failed => simp at result
  | @written batch rest _ _ _ _ ran later ih =>
      obtain ⟨n, put⟩ := stores.ok ran
      rw [List.flatten_cons, List.map_append, List.nodup_append] at once
      obtain ⟨_, restOnce, apart⟩ := once
      intro row member
      rw [List.flatten_cons, List.mem_append] at member
      rcases member with here | among
      · -- What comes after this batch has other ids, so it leaves the row alone.
        refine later.stores_other stores (Store.upsert_stores put here) ?_
        intro repeated
        exact apart row.id (List.mem_map_of_mem here) row.id repeated rfl
      · exact ih restOnce result row among

theorem Writes.exists_failed {failure : Failure} (writes : Writes never upsert all t (.error failure) t') :
    ∃ before batch after middle, all = before ++ batch :: after ∧
      Writes never upsert before t (.ok ()) middle ∧ Ran (upsert batch) middle (.error failure) t' := by
  generalize result : Except.error failure = r at writes
  induction writes with
  | done => simp at result
  | stopped stop => exact stop.elim
  | @failed batch rest t _ _ ran =>
      rw [Except.error.injEq] at result
      subst result
      exact ⟨[], batch, rest, t, rfl, .done t, ran⟩
  | @written first rest _ _ _ _ ran _ ih =>
      obtain ⟨before, batch, after, middle, split, writes, failed⟩ := ih result
      exact ⟨first :: before, batch, after, middle, by rw [split, List.cons_append],
        .written ran writes, failed⟩

end Index

end Groundwork
