import Groundwork.Proofs.Graph.Records
import Groundwork.Proofs.Service.Namespaces

/-!
Indexing a repository that has rows in the store. Only the graph is made again: nothing is asked for,
embedded, put in or waited for. The graph is that of the first time, since it does not look at what
enrichment and summaries add to the records.
-/

namespace Groundwork

open Groundwork.Graph

theorem alike_enrich (r : FileRecord) : Alike r.enrich r := ⟨rfl, rfl, rfl, rfl, rfl, rfl⟩

theorem Summary.alike_applyTo (results : List SummaryResult) (r : FileRecord) :
    Alike (applyTo results r) r := by
  rw [applyTo]
  split
  · exact ⟨rfl, rfl, rfl, rfl, rfl, rfl⟩
  · split <;> exact ⟨rfl, rfl, rfl, rfl, rfl, rfl⟩

namespace Service

theorem completed_graph (a : Analysis) (summaries : List SummaryResult) :
    DependencyGraph.ofRecords (completed a summaries).files = DependencyGraph.ofRecords a.files := by
  rw [completed, Summary.apply, ofRecords_map (Summary.alike_applyTo summaries),
    ofRecords_map alike_enrich]

variable {σ τ : Type} {o : Outside (StateM σ)} {c : Configuration} {payload : Json} {r : IndexRequest}
  {s s' ready : Store} {n : Nat} {x : IndexResult}

theorem indexBranch_held {url branch : String}
    (ensured : Outside.Ensured c s ready)
    (held : Store.countRows ready.current (Index.namespaceOf url branch) = .ok (n + 1)) :
    (indexBranch c (o.backend c) url branch).run.run s = (do
      match ← o.fetcher.fetch url branch with
      | .error failure => return (.error failure, ready)
      | .ok checkout =>
        o.fetcher.release checkout
        let a := Analysis.ofTree o.parse checkout.tree url branch
        return (.ok (heldAnswer (Index.namespaceOf url branch) a), ready)) := by
  have waited : (ExceptT.mk (o.backend c).ensureIndex).run.run s = pure (.ok (), ready) :=
    ensured.run o
  have counted : (ExceptT.mk ((o.backend c).countRows (Index.namespaceOf url branch))).run.run ready =
      pure (.ok (n + 1), ready) := by
    rw [← held]
    rfl
  have gate : (isCached (o.backend c) (Index.namespaceOf url branch)).run.run ready =
      pure (.ok true, ready) := run_tryBind_ok counted
  rw [indexBranch, run_tryBind_ok waited, run_tryBind_ok gate, survey, Fetcher.withCheckout,
    bind_assoc]
  refine run_tryBind_lift.trans (bind_congr fun answer => ?_)
  cases answer <;> rfl

theorem index_held (accepted : Request.validate Request.index payload = .ok r)
    (ensured : Outside.Ensured c s ready)
    (held : Store.countRows ready.current r.readNamespace = .ok (n + 1)) :
    (index c (o.backend c) payload).run s = (do
      match ← o.fetcher.fetch r.repoUrl r.branch with
      | .error failure =>
        return (hiddenUnlessRequest "Failed to index repository" (.error failure), ready)
      | .ok checkout =>
        o.fetcher.release checkout
        let a := Analysis.ofTree o.parse checkout.tree r.repoUrl r.branch
        return (.ok (heldAnswer r.readNamespace a), ready)) := by
  rw [index, accepted, StateT.run_bind, indexBranch_held ensured held, bind_assoc]
  refine bind_congr fun answer => ?_
  cases answer <;> rfl

theorem index_graph (accepted : Request.validate Request.index payload = .ok r)
    (ran : Ran (index c (o.backend c) payload) s (.ok x) s') :
    x.nspace = r.readNamespace ∧ ∃ a t, Surveyed (o.backend c) r.repoUrl r.branch t a ∧
      x.graph = DependencyGraph.ofRecords a.files ∧ x.repository = a.stats := by
  obtain ⟨inner, indexing, same⟩ := index_ran (Outside.backend_quiet o c) accepted ran
  obtain rfl := hiddenUnlessRequest_ok same.symm
  cases indexing with
  | @cached _ _ _ a _ _ _ surveyed answer =>
      obtain rfl := Except.ok.inj answer
      exact ⟨heldAnswer_nspace _ a, a, _, surveyed, rfl, rfl⟩
  | @written _ _ _ a summaries _ written _ _ _ surveyed _ _ answer =>
      cases written with
      | error failure => simp [Except.map] at answer
      | ok done =>
          obtain rfl := Except.ok.inj answer
          exact ⟨writtenAnswer_nspace _ a summaries, a, _, surveyed, completed_graph a summaries, rfl⟩

/-- A repository whose rows are counted, once the index has been made sure of, is fetched and its graph
is made again, and that is all. An index that was there is left as it is. The graph is that of every
answer for the same checkout, whatever the settings, the provider and the store. -/
theorem index_again (accepted : Request.validate Request.index payload = .ok r)
    (ensured : Outside.Ensured c s ready)
    (held : Store.countRows ready.current r.readNamespace = .ok (n + 1)) :
    (index c (o.backend c) payload).run s = (do
      match ← o.fetcher.fetch r.repoUrl r.branch with
      | .error failure =>
        return (hiddenUnlessRequest "Failed to index repository" (.error failure), ready)
      | .ok checkout =>
        o.fetcher.release checkout
        let a := Analysis.ofTree o.parse checkout.tree r.repoUrl r.branch
        return (.ok (heldAnswer r.readNamespace a), ready)) ∧
    (∀ name, name ≠ Store.infoTable → ready.current.lookup name = s.current.lookup name) ∧
    (Store.HasInfo s.current → ready = s) ∧
    (∀ a summaries, DependencyGraph.ofRecords (completed a summaries).files =
      DependencyGraph.ofRecords a.files) ∧
    ∀ (other : Outside (StateM τ)) c' s₁ x s₂ checkout, other.parse = o.parse →
      (∀ world, ((other.fetcher.fetch r.repoUrl r.branch).run world).1 = .ok checkout) →
      Ran (index c' (other.backend c') payload) s₁ (.ok x) s₂ →
      x.nspace = r.readNamespace ∧
      x.graph = DependencyGraph.ofRecords
        (Analysis.ofTree o.parse checkout.tree r.repoUrl r.branch).files ∧
      x.repository = (Analysis.ofTree o.parse checkout.tree r.repoUrl r.branch).stats := by
  refine ⟨index_held accepted ensured held, fun name other => ?_, fun info => ?_, completed_graph, ?_⟩
  · have kept := Store.ensureIndex_lookup s c.embeddings.dimension c.store.readyAttempts other
    rwa [ensured.ensured] at kept
  · have same := Store.ensureIndex_of_hasInfo info c.embeddings.dimension c.store.readyAttempts
    rwa [ensured.ensured] at same
  · intro other c' s₁ x s₂ checkout parses fetches ran
    obtain ⟨named, a, t, ⟨fetched, fetching, rfl⟩, graph, stats⟩ := index_graph accepted ran
    obtain ⟨world, later, outcome⟩ := fetching
    have same : Except.ok fetched = Except.ok checkout :=
      (congrArg (·.1.1) outcome).symm.trans (fetches world)
    obtain rfl := Except.ok.inj same
    rw [← parses]
    exact ⟨named, graph, stats⟩

def shopPayload : Json := .obj [("repo_url", .str "https://github.com/acme/shop")]

def shopTable : Store.Table := .rows 1 [Store.storedRow ⟨"shop-overview", [1.0], []⟩]

def shopStore (others : Store.Database) : Store :=
  { databases := [("vibeplan", others ++ [("acme-shop-main", shopTable)])] }

def described : Store.Database := [(Store.infoTable, .info 256 "cosine")]

theorem shop_accepted : Request.validate Request.index shopPayload =
    .ok ⟨"https://github.com/acme/shop", "main"⟩ := rfl

theorem shop_readNamespace :
    IndexRequest.readNamespace ⟨"https://github.com/acme/shop", "main"⟩ = "acme-shop-main" := by
  decide

theorem shop_tableName : Store.tableName "acme-shop-main" = .ok "acme-shop-main" := by decide

theorem remoteDigests_ensured {s ready : Store} (ensured : s.ensureIndex
    remoteDigests.embeddings.dimension remoteDigests.store.readyAttempts = (.ok (), ready)) :
    Outside.Ensured remoteDigests s ready :=
  ⟨by decide, fun _ => by decide, ensured⟩

theorem shop_ensured : Outside.Ensured remoteDigests (shopStore described) (shopStore described) := by
  have info : Store.HasInfo (shopStore described).current := by decide
  exact remoteDigests_ensured (Prod.ext (by decide +kernel) (Store.ensureIndex_of_hasInfo info _ _))

theorem shop_listed {db : Store.Database} (named : "acme-shop-main" ∈ Store.names db)
    (few : (Store.names db).countP (· < "acme-shop-main") < Store.listingLimit) :
    "acme-shop-main" ∈ Store.listed db := (Store.mem_listed_iff _ _).mpr ⟨named, few⟩

theorem shop_held :
    Store.countRows (shopStore described).current
      (IndexRequest.readNamespace ⟨"https://github.com/acme/shop", "main"⟩) = .ok 1 := by
  have isListed : "acme-shop-main" ∈ Store.listed (shopStore described).current :=
    shop_listed (by decide) (by decide)
  rw [shop_readNamespace]
  exact Store.countRows_listed shop_tableName isListed rfl

theorem index_again_shop :
    (index remoteDigests (smallWorld.backend remoteDigests) shopPayload).run (shopStore described) =
      pure (.ok (heldAnswer "acme-shop-main"
        (Analysis.ofTree (fun _ _ => none) .empty "https://github.com/acme/shop" "main")),
        shopStore described) := by
  rw [← shop_readNamespace]
  obtain ⟨run, _⟩ :=
    index_again (σ := Unit) (τ := Unit) (o := smallWorld) shop_accepted shop_ensured shop_held
  exact run.trans rfl

def shopNeighbours : Store.Database :=
  ["a1", "a2", "a3", "a4", "a5", "a6", "a7", "a8", "a9"].map fun name => (name, shopTable)

def brokenWorld : Outside (StateM Unit) :=
  { smallWorld with
    fetcher := { smallWorld.fetcher with fetch := fun url _ => return .error (.clone (.failed url "")) } }

def impatient : Configuration := ⟨.ofText "/home", [("store", [("ready_attempts", .int 0)])]⟩

theorem shop_describes : ∃ x s', Ran (index remoteDigests (smallWorld.backend remoteDigests) shopPayload)
    (shopStore []) (.ok x) s' ∧ Store.HasInfo s'.current := by
  obtain ⟨ready, readyIs⟩ : ∃ ready, ((shopStore []).ensureIndex remoteDigests.embeddings.dimension
      remoteDigests.store.readyAttempts).2 = ready := ⟨_, rfl⟩
  have succeeds : ((shopStore []).ensureIndex remoteDigests.embeddings.dimension
      remoteDigests.store.readyAttempts).1 = .ok () := by decide +kernel
  have ensured : (shopStore []).ensureIndex remoteDigests.embeddings.dimension
      remoteDigests.store.readyAttempts = (.ok (), ready) := Prod.ext succeeds readyIs
  have isListed : "acme-shop-main" ∈ Store.listed ready.current := by
    rw [← readyIs]
    exact shop_listed (by decide +kernel) (by decide +kernel)
  have found : ready.current.lookup "acme-shop-main" = some shopTable := by
    rw [← readyIs, Store.ensureIndex_lookup _ _ _ (by decide)]
    rfl
  have held : Store.countRows ready.current
      (IndexRequest.readNamespace ⟨"https://github.com/acme/shop", "main"⟩) = .ok (0 + 1) := by
    rw [shop_readNamespace]
    exact Store.countRows_listed shop_tableName isListed found
  have run := index_held (o := smallWorld) shop_accepted (remoteDigests_ensured ensured) held
  exact ⟨_, ready, ⟨(), (), congrFun run ()⟩, Store.ensureIndex_hasInfo ensured⟩

theorem shop_impatient (x : IndexResult) (s' : Store) :
    ¬ Ran (index impatient (smallWorld.backend impatient) shopPayload) (shopStore described)
      (.ok x) s' := by
  intro ran
  obtain ⟨ready, ensured, _⟩ := index_stored shop_accepted ran
  have refused : ((shopStore described).ensureIndex impatient.embeddings.dimension
      impatient.store.readyAttempts).1 ≠ .ok () := by decide +kernel
  exact refused (congrArg Prod.fst ensured)

theorem shop_unlisted {x : IndexResult} {s' : Store}
    (ran : Ran (index remoteDigests (smallWorld.backend remoteDigests) shopPayload)
      (shopStore (described ++ shopNeighbours)) (.ok x) s') : x.cached = false := by
  obtain ⟨ready, ensured, _, ⟨_, _, n, counted⟩ | ⟨fresh, _⟩⟩ := index_stored shop_accepted ran
  · have info : Store.HasInfo (shopStore (described ++ shopNeighbours)).current := by decide
    have same := Store.ensureIndex_of_hasInfo info remoteDigests.embeddings.dimension
      remoteDigests.store.readyAttempts
    rw [ensured] at same
    subst same
    have hidden : "acme-shop-main" ∉ Store.listed (shopStore (described ++ shopNeighbours)).current := by
      rw [Store.mem_listed_iff]
      decide
    rw [shop_readNamespace, Store.countRows_unlisted shop_tableName hidden] at counted
    simp at counted
  · exact fresh

/-- The rows are there, and yet: a missing table of the index is made; without a look at the index there
is no answer; without a checkout there is no graph; and a table that is not listed is not found. -/
theorem shop_notAsBefore :
    (Store.countRows (shopStore []).current "acme-shop-main" = .ok 1 ∧
      ¬ Store.HasInfo (shopStore []).current ∧ ∃ x s',
        Ran (index remoteDigests (smallWorld.backend remoteDigests) shopPayload) (shopStore [])
          (.ok x) s' ∧ Store.HasInfo s'.current) ∧
    (∀ x s', ¬ Ran (index impatient (smallWorld.backend impatient) shopPayload) (shopStore described)
      (.ok x) s') ∧
    Ran (index remoteDigests (brokenWorld.backend remoteDigests) shopPayload) (shopStore described)
      (.error (.service "Failed to index repository")) (shopStore described) ∧
    ((shopStore (described ++ shopNeighbours)).current.lookup "acme-shop-main" = some shopTable ∧
      ∀ x s', Ran (index remoteDigests (smallWorld.backend remoteDigests) shopPayload)
        (shopStore (described ++ shopNeighbours)) (.ok x) s' → x.cached = false) := by
  have run := index_held (o := brokenWorld) shop_accepted shop_ensured shop_held
  refine ⟨⟨?_, by decide, shop_describes⟩, shop_impatient, ⟨(), (), congrFun run ()⟩, rfl, ?_⟩
  · have isListed : "acme-shop-main" ∈ Store.listed (shopStore []).current :=
      shop_listed (by decide) (by decide)
    exact Store.countRows_listed shop_tableName isListed rfl
  · intro x s' ran
    exact shop_unlisted ran

end Service

end Groundwork
