import Groundwork.Proofs.Each
import Groundwork.Proofs.Index.Namespaces
import Groundwork.Proofs.Request.Checks
import Groundwork.Proofs.Service.StoreBackend
import Groundwork.Proofs.Service.StoreCalls

/-!
The namespaces of a repository. Its rows are counted and searched in the namespace of the location as
it was given, but put into that of the location without an ending `.git`. Where the two differ, a
repository that has been indexed is not found again.
-/

namespace Groundwork

namespace IndexRequest

def readNamespace (r : IndexRequest) : String := Index.namespaceOf r.repoUrl r.branch

def writtenNamespace (r : IndexRequest) : String :=
  Index.namespaceOf (Analysis.trimUrl r.repoUrl) r.branch

end IndexRequest

namespace Request

theorem location_stripped {value : Json} {url : String} (accepted : location value = .ok url) :
    Text.strip url = url := by
  cases given : textBetween 1 none value with
  | error violations => simp [location, given, bind, Except.bind] at accepted
  | ok text =>
      simp only [location, given, bind, Except.bind] at accepted
      split at accepted
      · rw [← Except.ok.inj accepted, Text.strip_strip]
      · simp [fail] at accepted

theorem index_stripped {payload : Json} {r : IndexRequest}
    (accepted : validate index payload = .ok r) : Text.strip r.repoUrl = r.repoUrl := by
  cases checked : index payload with
  | error violations => simp [validate, checked] at accepted
  | ok other =>
      obtain rfl : other = r := by simpa [validate, checked] using accepted
      cases payload with
      | obj m =>
          rw [index, object, indexMembers] at checked
          cases fields : both (field ["repo_url"] location m)
            (fieldOr "main" ["branch"] (textBetween 1 none) m) with
          | error violations => simp [fields, Except.map] at checked
          | ok both =>
              rw [fields, Except.map, Except.ok.injEq] at checked
              obtain ⟨value, located⟩ := field_ok (both_ok fields).1
              rw [← checked]
              exact location_stripped located
      | _ => simp [index, object, fail] at checked

end Request

namespace Service

variable {σ : Type}

theorem records_ne_nil {perRecord : Bool} {a : Analysis} {vectors : List Vector64}
    {rows : List TextRecord} (made : Index.records perRecord a vectors = .ok rows)
    (some : perRecord = false ∨ vectors ≠ []) : rows ≠ [] := by
  cases vectors with
  | nil =>
      obtain rfl : perRecord = false := by simpa using some
      simp [Index.records] at made
  | cons first rest =>
      cases perRecord <;>
        simp only [Index.records, Bool.false_eq_true, if_false, if_true, Except.ok.injEq] at made <;>
        subst made <;> simp [Index.rowsOf, Index.entries]

theorem textsFor_ne_nil (perRecord : Bool) (a : Analysis) : Index.textsFor perRecord a ≠ [] := by
  cases perRecord <;> simp [Index.textsFor, Index.entries]

theorem hashed_length {o : Outside (StateM σ)} {c : Configuration}
    (hashed : Text.lower c.embeddings.provider ≠ "openai") {texts : List String} {s s' : Store}
    {vectors : List Vector64} (ran : Ran ((o.backend c).embed texts) s (.ok vectors) s') :
    vectors.length = texts.length := by
  have embedder : Embedder.ofSettings c.embeddings = .hashed c.embeddings.dimension := by
    rw [Embedder.ofSettings, if_neg (by simpa using hashed)]
  have answer : Embedder.hashedMany c.embeddings.dimension texts = .ok vectors := by
    simp only [Outside.backend, embedder] at ran
    rcases guarded_cases c.embeddings.unfit
      (Embedder.hashed c.embeddings.dimension).neededSettings
      (StateT.lift ((Embedder.hashed c.embeddings.dimension).embedMany o.send texts)) with same | same
    · rw [same] at ran
      obtain ⟨world, later, answered⟩ := ran
      exact congrArg (·.1.1) answered
    · rw [same] at ran
      cases ran.of_pure.1
  rw [Embedder.hashedMany] at answer
  split at answer
  · rename_i mapped
    rw [← Except.ok.inj answer]
    exact length_of_mapM mapped
  · simp at answer

variable {o : Outside (StateM σ)} {c : Configuration} {payload : Json} {r : IndexRequest}
  {s s' : Store} {x : IndexResult}

/-- What a call of `index` that got an answer has done to the store. -/
theorem index_stored (accepted : Request.validate Request.index payload = .ok r)
    (ran : Ran (index c (o.backend c) payload) s (.ok x) s') :
    ∃ ready, s.ensureIndex c.embeddings.dimension c.store.readyAttempts = (.ok (), ready) ∧
      x.nspace = r.readNamespace ∧
      ((x.cached = true ∧ s' = ready ∧
          ∃ n, Store.countRows ready.current r.readNamespace = .ok (n + 1)) ∨
        (x.cached = false ∧ Store.countRows ready.current r.readNamespace = .ok 0 ∧
          ∃ a summaries rows, Surveyed (o.backend c) r.repoUrl r.branch ready a ∧
            RowsFor c (o.backend c) a summaries rows ∧
            Index.Writes (PauseFails c (o.backend c)) ((o.backend c).upsert r.writtenNamespace)
              (batches (max 1 c.store.batchSize).toNat rows) ready (.ok ()) s')) := by
  obtain ⟨inner, indexing, same⟩ := index_ran (Outside.backend_quiet o c) accepted ran
  obtain rfl := hiddenUnlessRequest_ok same.symm
  cases indexing with
  | @cached ready _ n a _ isReady counting _ same =>
      obtain rfl := Except.ok.inj same
      obtain ⟨count, rfl⟩ := Outside.countRows_ran counting
      exact ⟨_, ((Outside.ensureIndex_ran isReady).2 rfl).ensured, heldAnswer_nspace _ a, Or.inl ⟨rfl, rfl, n, count.symm⟩⟩
  | @written ready counted _ a summaries rows written _ isReady counting surveyed rowsFor writes result =>
      obtain ⟨count, rfl⟩ := Outside.countRows_ran counting
      cases written with
      | error failure => simp [Except.map] at result
      | ok done =>
          obtain rfl := Except.ok.inj result
          exact ⟨_, ((Outside.ensureIndex_ran isReady).2 rfl).ensured, writtenAnswer_nspace _ a summaries,
            Or.inr ⟨rfl, count.symm, a, summaries, rows, surveyed, rowsFor, writes⟩⟩

theorem second_cached_iff (accepted : Request.validate Request.index payload = .ok r)
    {first second : IndexResult} {s'' : Store}
    (ranFirst : Ran (index c (o.backend c) payload) s (.ok first) s') (fresh : first.cached = false)
    (ranSecond : Ran (index c (o.backend c) payload) s' (.ok second) s'') :
    second.cached = true ↔
      Store.cleanName r.readNamespace = Store.cleanName r.writtenNamespace ∧
        ∃ n, Store.countRows s'.current r.writtenNamespace = .ok (n + 1) := by
  obtain ⟨ready, ensured, _, ⟨cached, _⟩ | ⟨_, empty, a, summaries, rows, surveyed, rowsFor, writes⟩⟩ :=
    index_stored accepted ranFirst
  · simp [cached] at fresh
  · have stores := Outside.upsert_storesInto o c r.writtenNamespace
    have keeps := writes.keeps stores
    have info := keeps.hasInfo (Store.ensureIndex_hasInfo ensured)
    have gate : second.cached = true ↔
        ∃ n, Store.countRows s'.current r.readNamespace = .ok (n + 1) := by
      obtain ⟨again, ensuredAgain, _, outcome⟩ := index_stored accepted ranSecond
      have same := Store.ensureIndex_of_hasInfo info c.embeddings.dimension c.store.readyAttempts
      rw [ensuredAgain] at same
      obtain rfl : again = s' := same
      rcases outcome with ⟨cached, _, counted⟩ | ⟨notCached, none, _⟩
      · simp [cached, counted]
      · simp [notCached, none]
    rw [gate]
    by_cases tables : Store.cleanName r.readNamespace = Store.cleanName r.writtenNamespace
    · have counts : Store.countRows s'.current r.readNamespace =
          Store.countRows s'.current r.writtenNamespace := by
        simp only [Store.countRows, Store.tableName, tables]
      simp [counts, tables]
    · have none := keeps.countRows_zero tables empty
      simp [none, tables]

theorem written_counted_iff (accepted : Request.validate Request.index payload = .ok r)
    (ran : Ran (index c (o.backend c) payload) s (.ok x) s') (fresh : x.cached = false)
    (full : c.embeddings.perRecord = false ∨ Text.lower c.embeddings.provider ≠ "openai") :
    (∃ n, Store.countRows s'.current r.writtenNamespace = .ok (n + 1)) ↔
      Store.IsListed s'.current r.writtenNamespace := by
  obtain ⟨ready, _, _, ⟨cached, _⟩ | ⟨_, _, a, summaries, rows, surveyed, rowsFor, writes⟩⟩ :=
    index_stored accepted ran
  · simp [cached] at fresh
  · obtain ⟨vectors, t, _, embedded, made⟩ := rowsFor
    have vectorsLeft : c.embeddings.perRecord = false ∨ vectors ≠ [] := by
      refine full.imp_right fun hashed => ?_
      rintro rfl
      have length := hashed_length hashed embedded
      exact textsFor_ne_nil _ _ (List.eq_nil_of_length_eq_zero length.symm)
    have filled := writes.fills (Outside.upsert_storesInto o c r.writtenNamespace)
      (fun _ => nonempty_of_mem_batches) (batches_ne_nil (records_ne_nil made vectorsLeft))
    obtain ⟨n, count, positive⟩ := filled.counts
    rw [count, ← positive]
    constructor
    · rintro ⟨m, same⟩
      rw [Except.ok.inj same]
      exact Nat.succ_pos m
    · intro some
      exact ⟨n - 1, by rw [Nat.sub_add_cancel some]⟩

/-- Which namespaces a repository has. The rows are counted and searched in one and put into the other;
the two are the same exactly if what stands before an ending `.git` needs no trimming itself or happens
to repeat what is trimmed off. Whether the next call is answered as cached follows from their tables. -/
theorem index_namespaces (accepted : Request.validate Request.index payload = .ok r)
    (c : Configuration) :
    (∀ (b : Backend (StateM σ)) calls result, Ran (index c b.traced payload) [] result calls →
      UsesNamespaces r.readNamespace r.writtenNamespace calls result) ∧
    (∀ (b : Backend (StateM σ)) question q calls answer,
      Request.validate Request.search question = .ok q → q.toIndexRequest = r →
      Ran (search b.traced question) [] answer calls →
      calls = [] ∨ ∃ vector, calls = [.query r.readNamespace vector q.limit []]) ∧
    (r.writtenNamespace = r.readNamespace ↔
      Text.endsWith r.repoUrl ".git" = false ∨
        Index.trimLocation (Analysis.trimUrl r.repoUrl) = Analysis.trimUrl r.repoUrl ∨
          Index.Coincides (Analysis.trimUrl r.repoUrl)) ∧
    (∀ (o : Outside (StateM σ)) s first s' second s'',
      Ran (index c (o.backend c) payload) s (.ok first) s' → first.cached = false →
      Ran (index c (o.backend c) payload) s' (.ok second) s'' →
      (second.cached = true ↔
        Store.cleanName r.readNamespace = Store.cleanName r.writtenNamespace ∧
          ∃ n, Store.countRows s'.current r.writtenNamespace = .ok (n + 1)) ∧
      (c.embeddings.perRecord = false ∨ Text.lower c.embeddings.provider ≠ "openai" →
        ((∃ n, Store.countRows s'.current r.writtenNamespace = .ok (n + 1)) ↔
          Store.IsListed s'.current r.writtenNamespace))) := by
  refine ⟨?_, ?_, ?_, ?_⟩
  · intro b calls result ran
    exact index_calls c b accepted ran
  · rintro b question q calls answer asked rfl ran
    exact search_calls b asked ran
  · exact Index.namespaceOf_trimUrl_iff (Request.index_stripped accepted) r.branch
  · intro o s first s' second s'' ranFirst fresh ranSecond
    exact ⟨second_cached_iff accepted ranFirst fresh ranSecond,
      written_counted_iff accepted ranFirst fresh⟩

/-- A location whose last part is only the ending: the rows are counted in one namespace and put into
another one. -/
theorem namespaces_differ :
    Request.validate Request.index (.obj [("repo_url", .str "/srv/acme/shop/.git")]) =
        .ok ⟨"/srv/acme/shop/.git", "main"⟩ ∧
      IndexRequest.readNamespace ⟨"/srv/acme/shop/.git", "main"⟩ = "shop--main" ∧
      IndexRequest.writtenNamespace ⟨"/srv/acme/shop/.git", "main"⟩ = "acme-shop-main" := by
  refine ⟨rfl, ?_, ?_⟩ <;> decide

def smallWorld : Outside (StateM Unit) where
  parse _ _ := none
  fetcher :=
    { fetch := fun _ _ => return .ok ⟨"repo_0", .empty⟩
      release := fun _ => return () }
  send _ := return .answered 200 "\x7b\"data\": [\x7b\"embedding\": [1.0]\x7d]\x7d"
  ask _ := return .ok ""
  pause _ := return .ok ()
  files :=
    { at? := fun _ => return none
      makeFolder := fun _ => return .ok ()
      write := fun _ _ => return .ok () }

def remoteDigests : Configuration :=
  ⟨.ofText "/home",
    [("embeddings",
      [("provider", .str "openai"), ("api_key", .str "key"), ("per_record", .bool false)])]⟩

def smallIndex : StateT Store (StateM Unit) (Except Failure IndexResult) :=
  index remoteDigests (smallWorld.backend remoteDigests)
    (.obj [("repo_url", .str "/srv/acme/shop/.git")])

theorem smallIndex_ran : ∃ first,
    Ran smallIndex {} (.ok first) ((smallIndex.run {}).run ()).1.2 ∧ first.cached = false := by
  have ok : ((smallIndex.run {}).run ()).1.1.toOption.map (·.cached) = some false := by decide +kernel
  exact exists_ran_ok ok

/-- The repository has a row, and yet no second call is answered as cached. -/
theorem index_namespaces_smallWorld : ∃ first s',
    Ran smallIndex {} (.ok first) s' ∧ first.cached = false ∧
      (∃ n, Store.countRows s'.current "acme-shop-main" = .ok (n + 1)) ∧
      ∀ second s'', Ran smallIndex s' (.ok second) s'' → second.cached = false := by
  obtain ⟨first, ranFirst, fresh⟩ := smallIndex_ran
  refine ⟨first, _, ranFirst, fresh, ?_⟩
  have accepted : Request.validate Request.index (.obj [("repo_url", .str "/srv/acme/shop/.git")]) =
      .ok ⟨"/srv/acme/shop/.git", "main"⟩ := rfl
  have reads : IndexRequest.readNamespace ⟨"/srv/acme/shop/.git", "main"⟩ = "shop--main" := by decide
  have writes : IndexRequest.writtenNamespace ⟨"/srv/acme/shop/.git", "main"⟩ = "acme-shop-main" := by
    decide
  obtain ⟨_, _, _, runs⟩ := index_namespaces (σ := Unit) accepted remoteDigests
  rw [reads, writes] at runs
  constructor
  · rw [← writes, written_counted_iff accepted ranFirst fresh (Or.inl rfl), writes]
    refine ⟨"acme-shop-main", by decide +kernel, (Store.mem_listed_iff _ _).mpr ?_⟩
    exact ⟨by decide +kernel, by decide +kernel⟩
  · intro second s'' ranSecond
    have cachedIff := (runs smallWorld _ _ _ _ _ ranFirst fresh ranSecond).1
    rw [← Bool.not_eq_true, cachedIff]
    rintro ⟨tables, _⟩
    revert tables
    decide

end Service

end Groundwork
