import Groundwork.Proofs.Service.Indexing

/-!
The calls that a request makes to the store, and the namespaces in them.
-/

namespace Groundwork

inductive StoreCall where
  | countRows (nspace : String)
  | upsert (nspace : String) (rows : List TextRecord)
  | query (nspace : String) (vector : Vector64) (topK : Int) (filter : Store.Filter)

variable {σ α : Type}

def StoreCall.noted (call : StoreCall) (x : StateM σ α) : StateT (List StoreCall) (StateM σ) α := do
  modify fun calls => calls ++ [call]
  StateT.lift x

def Backend.traced (b : Backend (StateM σ)) : Backend (StateT (List StoreCall) (StateM σ)) where
  parse := b.parse
  fetcher :=
    { fetch := fun url branch => StateT.lift (b.fetcher.fetch url branch)
      release := fun checkout => StateT.lift (b.fetcher.release checkout) }
  ensureIndex := StateT.lift b.ensureIndex
  countRows nspace := (StoreCall.countRows nspace).noted (b.countRows nspace)
  upsert nspace rows := (StoreCall.upsert nspace rows).noted (b.upsert nspace rows)
  query nspace vector topK filter :=
    (StoreCall.query nspace vector topK filter).noted (b.query nspace vector topK filter)
  embed texts := StateT.lift (b.embed texts)
  ask call := StateT.lift (b.ask call)
  pause seconds := StateT.lift (b.pause seconds)
  keepArtifact nspace text := StateT.lift (b.keepArtifact nspace text)

theorem Backend.traced_quiet (b : Backend (StateM σ)) : b.traced.Quiet where
  fetch _ _ := quiet_lift _
  release _ := quiet_lift _
  embed _ := quiet_lift _
  ask _ := quiet_lift _
  pause _ := quiet_lift _
  keepArtifact _ _ := quiet_lift _

theorem noted_ran {call : StoreCall} {x : StateM σ α} {calls calls' : List StoreCall} {a : α}
    (ran : Ran (call.noted x) calls a calls') : calls' = calls ++ [call] := by
  obtain ⟨_, middle, noting, made⟩ := ran.of_bind
  rw [quiet_lift x _ _ _ made]
  exact noting.of_modify

theorem writes_calls {b : Backend (StateM σ)} {nspace : String} {all : List (List TextRecord)}
    {calls calls' : List StoreCall} {result : Except Failure Unit}
    {stops : Failure → Prop}
    (writes : Index.Writes stops (b.traced.upsert nspace) all calls result calls') :
    ∃ made, calls' = calls ++ made.map (StoreCall.upsert nspace) ∧ made <+: all ∧
      (result = .ok () → made = all) := by
  induction writes with
  | done calls => exact ⟨[], by simp, List.nil_prefix, fun _ => rfl⟩
  | stopped _ => exact ⟨[], by simp, List.nil_prefix, by simp⟩
  | @failed batch rest _ _ _ ran =>
      refine ⟨[batch], by simpa using noted_ran ran, ?_, by simp⟩
      exact List.prefix_cons_inj batch |>.mpr List.nil_prefix
  | @written batch rest _ _ _ _ ran _ ih =>
      obtain ⟨made, callsIs, isPrefix, whole⟩ := ih
      refine ⟨batch :: made, ?_, (List.prefix_cons_inj batch).mpr isPrefix, ?_⟩
      · rw [callsIs, noted_ran ran]
        simp
      · intro ok
        rw [whole ok]

namespace Service

/-- How a call of `index` may use the store: it counts the rows of one namespace and then, if there
are none, puts batches into another one, and the first one is that of the result. -/
structure UsesNamespaces (counted written : String) (calls : List StoreCall)
    (result : Except Failure IndexResult) : Prop where
  callsAre : calls = [] ∨ ∃ made : List (List TextRecord),
    calls = .countRows counted :: made.map (.upsert written)
  resultIs : ∀ x, result = .ok x → x.nspace = counted ∧ calls ≠ [] ∧
    (x.cached = true → calls = [.countRows counted])

theorem hiddenUnlessRequest_ok {publicMessage : String} {inner : Except Failure α} {x : α}
    (same : hiddenUnlessRequest publicMessage inner = .ok x) : inner = .ok x := by
  cases inner with
  | ok y => exact same
  | error failure => cases failure <;> simp [hiddenUnlessRequest, hidden] at same

theorem Indexing.calls {c : Configuration} {b : Backend (StateM σ)} {url branch : String}
    {calls : List StoreCall} {result : Except Failure IndexResult}
    (indexing : Indexing c b.traced url branch [] result calls) :
    UsesNamespaces (Index.namespaceOf url branch)
      (Index.namespaceOf (Analysis.trimUrl url) branch) calls result := by
  have ensured {answer : Except Failure Unit} {ready : List StoreCall}
      (ran : Ran b.traced.ensureIndex [] answer ready) : ready = [] :=
    quiet_lift b.ensureIndex _ _ _ ran
  have counted {answer : Except Failure Nat} {ready later : List StoreCall}
      (isReady : ready = []) (ran : Ran (b.traced.countRows (Index.namespaceOf url branch)) ready
        answer later) : later = [.countRows (Index.namespaceOf url branch)] := by
    rw [noted_ran ran, isReady, List.nil_append]
  cases indexing with
  | notReady ran => exact ⟨Or.inl (ensured ran), by simp⟩
  | stopped isReady counting => exact ⟨Or.inr ⟨[], counted (ensured isReady) counting⟩, by simp⟩
  | cached isReady counting _ resultIs =>
      have calls := counted (ensured isReady) counting
      refine ⟨Or.inr ⟨[], calls⟩, ?_⟩
      intro x same
      rw [← Except.ok.inj (resultIs.symm.trans same)]
      exact ⟨rfl, by simp [calls], fun _ => calls⟩
  | @written _ _ _ _ _ _ written _ isReady counting _ _ writes resultIs =>
      obtain ⟨made, calls, _, _⟩ := writes_calls writes
      rw [counted (ensured isReady) counting] at calls
      refine ⟨Or.inr ⟨made, calls⟩, ?_⟩
      intro x same
      subst resultIs
      cases written with
      | error failure => simp [Except.map] at same
      | ok done =>
          rw [← Except.ok.inj same]
          exact ⟨rfl, by simp [calls], by simp [writtenAnswer]⟩

theorem index_calls (c : Configuration) (b : Backend (StateM σ)) {payload : Json} {r : IndexRequest}
    (accepted : Request.validate Request.index payload = .ok r) {calls : List StoreCall}
    {result : Except Failure IndexResult} (ran : Ran (index c b.traced payload) [] result calls) :
    UsesNamespaces (Index.namespaceOf r.repoUrl r.branch)
      (Index.namespaceOf (Analysis.trimUrl r.repoUrl) r.branch) calls result := by
  obtain ⟨inner, indexing, rfl⟩ := index_ran b.traced_quiet accepted ran
  have uses := indexing.calls
  exact ⟨uses.callsAre, fun x same => uses.resultIs x (hiddenUnlessRequest_ok same)⟩

theorem search_calls (b : Backend (StateM σ)) {question : Json} {r : SearchRequest}
    (accepted : Request.validate Request.search question = .ok r) {calls : List StoreCall}
    {result : Except Failure (List SearchHit)} (ran : Ran (search b.traced question) [] result calls) :
    calls = [] ∨ ∃ vector,
      calls = [.query (Index.namespaceOf r.repoUrl r.branch) vector r.limit []] := by
  rw [search, accepted] at ran
  obtain ⟨hits, found, searching, last⟩ := ran.of_bind
  rw [last.of_pure.2]
  obtain ⟨answer, middle, finding, next⟩ := searching.of_bind
  have shown : found = middle := by
    split at next
    · exact next.of_pure.2
    · split at next
      · exact next.of_pure.2
      · exact next.of_pure.2
  rw [shown]
  obtain ⟨vectors, embedded, embedding, asking⟩ := finding.of_bind
  rw [b.traced_quiet.embed _ _ _ _ embedding] at asking
  split at asking
  · exact Or.inr ⟨_, noted_ran asking⟩
  · exact Or.inl asking.of_pure.2
  · exact Or.inl asking.of_pure.2

end Service

end Groundwork
