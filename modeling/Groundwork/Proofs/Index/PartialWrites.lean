import Groundwork.Proofs.Index.StoredWrites

/-!
What an index that could not be written to its end leaves behind. The batches that were put in before
the failure stay, so the namespace counts rows although it has only a part of them.
-/

namespace Groundwork.Index

variable {σ : Type}

structure Attempts where
  calls : Nat := 0
  database : Store.Database := []

def faultyUpsert (fault : StateM σ (Option Failure)) (nspace : String) (rows : List TextRecord) :
    StateT Attempts (StateM σ) (Except Failure Unit) := do
  modify fun t => { t with calls := t.calls + 1 }
  match ← StateT.lift fault with
  | some failure => return .error failure
  | none =>
    match Store.upsert (← get).database nspace rows with
    | .error failure => return .error failure
    | .ok (_, database) =>
      modify fun t => { t with database }
      return .ok ()

variable {fault : StateM σ (Option Failure)} {nspace : String} {rows : List TextRecord}
  {t t' : Attempts} {result : Except Failure Unit}

theorem faultyUpsert_ran (ran : Ran (faultyUpsert fault nspace rows) t result t') :
    t'.calls = t.calls + 1 ∧
      ((∃ failure, result = .error failure ∧ t'.database = t.database) ∨
        ∃ n, result = .ok () ∧ Store.upsert t.database nspace rows = .ok (n, t'.database)) := by
  obtain ⟨_, counted, counting, next⟩ := ran.of_bind
  obtain rfl := counting.of_modify
  obtain ⟨answer, later, asked, next⟩ := next.of_bind
  obtain rfl := quiet_lift fault _ _ _ asked
  cases answer with
  | some failure =>
      obtain ⟨rfl, rfl⟩ := next.of_pure
      exact ⟨rfl, Or.inl ⟨failure, rfl, rfl⟩⟩
  | none =>
      obtain ⟨read, middle, looked, next⟩ := next.of_bind
      rw [looked.of_get.1, looked.of_get.2] at next
      cases put : Store.upsert t.database nspace rows with
      | error failure =>
          simp only [put] at next
          obtain ⟨rfl, rfl⟩ := next.of_pure
          exact ⟨rfl, Or.inl ⟨failure, rfl, rfl⟩⟩
      | ok stored =>
          obtain ⟨n, database⟩ := stored
          simp only [put] at next
          obtain ⟨_, changed, changing, last⟩ := next.of_bind
          obtain rfl := changing.of_modify
          obtain ⟨rfl, rfl⟩ := last.of_pure
          exact ⟨rfl, Or.inr ⟨n, rfl, rfl⟩⟩

theorem faultyUpsert_storesInto (fault : StateM σ (Option Failure)) (nspace : String) :
    StoresInto Attempts.database nspace (faultyUpsert fault nspace) where
  ok ran := by
    rcases (faultyUpsert_ran ran).2 with ⟨failure, same, _⟩ | ⟨n, _, put⟩
    · simp at same
    · exact ⟨n, put⟩
  error ran := by
    rcases (faultyUpsert_ran ran).2 with ⟨_, _, same⟩ | ⟨_, same, _⟩
    · exact same
    · simp at same

theorem Writes.calls {all : List (List TextRecord)}
    (writes : Writes never (faultyUpsert fault nspace) all t (.ok ()) t') :
    t'.calls = t.calls + all.length := by
  generalize ok : Except.ok () = result at writes
  induction writes with
  | done => simp
  | stopped => simp at ok
  | failed => simp at ok
  | written ran _ ih =>
      rw [ih ok, (faultyUpsert_ran ran).1, List.length_cons]
      omega

/-- After a failure the namespace counts rows exactly if the failing call was not the first one and the
table is listed. -/
theorem failed_write_counts_iff {embedMany : List String → StateM σ (Except Failure (List Vector64))}
    {pause : StateM σ Unit} {batchSize : Int} {perRecord : Bool} {a : Analysis} {failure : Failure}
    (absent : Store.countRows t.database (namespaceOf a.repoUrl a.branch) = .ok 0)
    (ran : Ran (write (fun texts => StateT.lift (embedMany texts)) (faultyUpsert fault)
      (StateT.lift pause) batchSize perRecord a) t (.error failure) t') :
    ∃ n, Store.countRows t'.database (namespaceOf a.repoUrl a.branch) = .ok n ∧
      (0 < n ↔ t.calls + 1 < t'.calls ∧
        Store.IsListed t'.database (namespaceOf a.repoUrl a.branch)) := by
  rcases write_ran (fun _ => quiet_lift _) (quiet_lift pause) ran with
    ⟨_, _, rfl⟩ | ⟨vectors, rows, written, _, _, writes, same⟩
  · exact ⟨0, absent, by omega⟩
  · cases written with
    | ok done => simp [Except.map] at same
    | error other =>
        have stores := faultyUpsert_storesInto fault (namespaceOf a.repoUrl a.branch)
        obtain ⟨before, batch, after, middle, split, earlier, failed⟩ := writes.exists_failed
        have calls : t'.calls = t.calls + before.length + 1 := by
          rw [(faultyUpsert_ran failed).1, earlier.calls]
        rw [stores.error failed]
        cases before with
        | nil =>
            cases earlier
            exact ⟨0, absent, by simp [calls]⟩
        | cons first rest =>
            have full : ∀ other ∈ first :: rest, other ≠ [] := by
              intro other member
              have whole : other ∈ batches (max 1 batchSize).toNat rows := by
                rw [split]
                exact List.mem_append_left _ member
              exact nonempty_of_mem_batches whole
            obtain ⟨n, count, positive⟩ := (earlier.fills stores full (by simp)).counts
            refine ⟨n, count, ?_⟩
            rw [positive, calls, List.length_cons, iff_and_self]
            intro _
            omega

def smallAnalysis : Analysis where
  repoName := "repo"
  repoUrl := "owner/repo"
  branch := "main"
  stats := {
    totalFiles := 1, codeFiles := 1, analyzedFiles := 1, skippedFolders := [], includedSuffixes := [] }
  files := [{ path := "a.py", language := "python" }]

def secondFails : StateM Nat (Option Failure) := do
  let made ← getModify (· + 1)
  return if made = 0 then none else some (Store.upsertFailed "owner-repo-main")

def smallWrite : StateT Attempts (StateM Nat) (Except Failure String) :=
  write (fun texts => StateT.lift (return .ok (texts.map fun _ => [1.0]))) (faultyUpsert secondFails)
    (StateT.lift (return ())) 1 true smallAnalysis

/-- A write that fails at its second batch leaves a namespace that counts one of three rows. -/
theorem smallWrite_leaves_row :
    (entries smallAnalysis).length = 3 ∧
      Store.countRows [] (namespaceOf smallAnalysis.repoUrl smallAnalysis.branch) = .ok 0 ∧
      ((smallWrite.run {}).run 0).1.1 = .error (Store.upsertFailed "owner-repo-main") ∧
      Store.countRows ((smallWrite.run {}).run 0).1.2.database
        (namespaceOf smallAnalysis.repoUrl smallAnalysis.branch) = .ok 1 := by
  refine ⟨?_, ?_, ?_, ?_⟩ <;> decide +kernel

theorem failed_write_counts_small : ∃ t' n,
    Ran smallWrite {} (.error (Store.upsertFailed "owner-repo-main")) t' ∧
      Store.countRows t'.database "owner-repo-main" = .ok n ∧ 0 < n := by
  have absent : Store.countRows ({} : Attempts).database
      (namespaceOf smallAnalysis.repoUrl smallAnalysis.branch) = .ok 0 := by decide +kernel
  have ran : Ran smallWrite {} (.error (Store.upsertFailed "owner-repo-main"))
      ((smallWrite.run {}).run 0).1.2 := ⟨0, _, by with_unfolding_all rfl⟩
  obtain ⟨n, count, positive⟩ := failed_write_counts_iff absent ran
  have nspace : namespaceOf smallAnalysis.repoUrl smallAnalysis.branch = "owner-repo-main" := by decide
  rw [nspace] at count positive
  refine ⟨_, n, ran, count, positive.mpr ⟨by decide +kernel, "owner-repo-main", ?_⟩⟩
  exact ⟨by decide +kernel, by decide +kernel⟩

end Groundwork.Index
