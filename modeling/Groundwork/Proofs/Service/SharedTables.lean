import Groundwork.Proofs.Service.Namespaces
import Groundwork.Proofs.Store.Isolation

/-!
Repositories and branches that share a table. The name of a table joins owner, repository and branch with
hyphens, of which each of them may have some itself, and a part of a location that is missing is given a
name of its own. So neither repositories nor branches are kept apart by their tables.
-/

namespace Groundwork

open Text

namespace IndexRequest

def owner (r : IndexRequest) : String := Index.ownerPart (Index.trimLocation r.repoUrl)

def repository (r : IndexRequest) : String := Index.lastPart (Index.trimLocation r.repoUrl)

/-! What the store makes of owner, repository and branch. The two ends of a namespace are stripped. -/

def cleanOwner (r : IndexRequest) : String :=
  Store.cleanText (.ofList (r.owner.toList.dropWhile isBlank))

def cleanRepository (r : IndexRequest) : String := Store.cleanText r.repository

def cleanBranch (r : IndexRequest) : String :=
  Store.cleanText (.ofList (trimEnd isBlank r.branch.toList))

theorem cleanName_readNamespace (r : IndexRequest) :
    (Store.cleanName r.readNamespace).toList = r.cleanOwner.toList ++
      '-' :: (r.cleanRepository.toList ++ '-' :: r.cleanBranch.toList) := by
  have whole : r.readNamespace.toList =
      r.owner.toList ++ '-' :: (r.repository.toList ++ '-' :: r.branch.toList) := by
    rw [readNamespace, Index.namespaceOf_eq, Index.label]
    simp [owner, repository]
  have hyphen : isBlank '-' = false := by decide
  rw [Store.cleanName_eq, Store.cleanText, strip, String.toList_ofList, String.toList_ofList, trim,
    whole, dropWhile_append_cons hyphen, trimEnd_append_cons hyphen, trimEnd_append_cons hyphen]
  have stays : Store.cleanChar '-' = '-' := by decide
  simp [cleanOwner, cleanRepository, cleanBranch, Store.cleanText, stays]

theorem tableName_readNamespace (r : IndexRequest) :
    Store.tableName r.readNamespace = .ok (Store.cleanName r.readNamespace) := by
  have some : (Store.cleanName r.readNamespace).isEmpty = false := by
    rw [← Bool.not_eq_true, String.isEmpty_iff, ← String.toList_eq_nil_iff, cleanName_readNamespace]
    simp
  rw [Store.tableName, some]
  rfl

def namePieces (r : IndexRequest) : List String :=
  split '-' r.cleanOwner ++ split '-' r.cleanRepository ++ split '-' r.cleanBranch

theorem shared_iff (r r' : IndexRequest) :
    Store.tableName r.readNamespace = Store.tableName r'.readNamespace ↔
      r.namePieces = r'.namePieces := by
  have pieces (r : IndexRequest) :
      split '-' (Store.cleanName r.readNamespace) = r.namePieces := by
    rw [split, cleanName_readNamespace, splitChars_append, splitChars_append, List.map_append,
      List.map_append, ← List.append_assoc]
    rfl
  rw [tableName_readNamespace, tableName_readNamespace, Except.ok.injEq, ← pieces, ← pieces]
  exact ⟨congrArg _, fun same => split_injective '-' same⟩

theorem shared_iff_of_hyphens {r r' : IndexRequest}
    (owners : r.owner.toList.count '-' = r'.owner.toList.count '-')
    (repositories : r.repository.toList.count '-' = r'.repository.toList.count '-') :
    Store.tableName r.readNamespace = Store.tableName r'.readNamespace ↔
      r.cleanOwner = r'.cleanOwner ∧ r.cleanRepository = r'.cleanRepository ∧
        r.cleanBranch = r'.cleanBranch := by
  have hyphen : isBlank '-' = false := by decide
  have lengthOwner (r : IndexRequest) :
      (split '-' r.cleanOwner).length = r.owner.toList.count '-' + 1 := by
    rw [split, List.length_map, length_splitChars, cleanOwner, Store.hyphens_cleanText,
      String.toList_ofList, count_dropWhile hyphen]
  have lengthRepository (r : IndexRequest) :
      (split '-' r.cleanRepository).length = r.repository.toList.count '-' + 1 := by
    rw [split, List.length_map, length_splitChars, cleanRepository, Store.hyphens_cleanText]
  rw [shared_iff]
  constructor
  · intro same
    obtain ⟨fronts, branches⟩ := List.append_inj same (by
      rw [List.length_append, List.length_append, lengthOwner, lengthOwner, lengthRepository,
        lengthRepository, owners, repositories])
    obtain ⟨ownersSame, repositoriesSame⟩ := List.append_inj fronts (by
      rw [lengthOwner, lengthOwner, owners])
    exact ⟨split_injective '-' ownersSame, split_injective '-' repositoriesSame,
      split_injective '-' branches⟩
  · rintro ⟨ownersSame, repositoriesSame, branchesSame⟩
    rw [namePieces, namePieces, ownersSame, repositoriesSame, branchesSame]

structure Allowed (r : IndexRequest) : Prop where
  owner : ∀ c ∈ r.owner.toList, Store.isNameChar c = true
  repository : ∀ c ∈ r.repository.toList, Store.isNameChar c = true
  branch : ∀ c ∈ r.branch.toList, Store.isNameChar c = true

theorem Allowed.clean {r : IndexRequest} (allowed : r.Allowed) :
    r.cleanOwner = r.owner ∧ r.cleanRepository = r.repository ∧ r.cleanBranch = r.branch := by
  have ownerKept : r.owner.toList.dropWhile isBlank = r.owner.toList :=
    dropWhile_of_none fun c member => Store.isBlank_of_allowed (allowed.owner c member)
  have branchKept : trimEnd isBlank r.branch.toList = r.branch.toList :=
    trimEnd_of_none fun c member => Store.isBlank_of_allowed (allowed.branch c member)
  refine ⟨?_, Store.cleanText_of_allowed allowed.repository, ?_⟩
  · rw [cleanOwner, ownerKept, String.ofList_toList]
    exact Store.cleanText_of_allowed allowed.owner
  · rw [cleanBranch, branchKept, String.ofList_toList]
    exact Store.cleanText_of_allowed allowed.branch

end IndexRequest

namespace Service

open IndexRequest

variable {σ : Type} {o : Outside (StateM σ)} {c : Configuration} {payload other : Json}
  {r r' : IndexRequest} {s s' later : Store}

theorem index_keeps (accepted : Request.validate Request.index payload = .ok r)
    {result : Except Failure IndexResult} (ran : Ran (index c (o.backend c) payload) s result s') :
    Store.Keeps r.writtenNamespace
        (s.ensureIndex c.embeddings.dimension c.store.readyAttempts).2.current s'.current ∨
      Outside.Unnameable c ∧ s' = s := by
  obtain ⟨inner, indexing, _⟩ := index_ran (Outside.backend_quiet o c) accepted ran
  have readyIs {ready : Store} (isReady : Ran (o.backend c).ensureIndex s (.ok ()) ready) :
      (s.ensureIndex c.embeddings.dimension c.store.readyAttempts).2 = ready :=
    congrArg Prod.snd ((Outside.ensureIndex_ran isReady).2 rfl).ensured
  cases indexing with
  | notReady ensured =>
      refine (Outside.ensureIndex_ran ensured).1.imp_left fun same => ?_
      rw [same]
      exact Store.Keeps.refl _ _
  | stopped isReady counting =>
      rw [readyIs isReady, (Outside.countRows_ran counting).2]
      exact Or.inl (Store.Keeps.refl _ _)
  | cached isReady counting =>
      rw [readyIs isReady, (Outside.countRows_ran counting).2]
      exact Or.inl (Store.Keeps.refl _ _)
  | written isReady counting _ _ writes =>
      rw [readyIs isReady, ← (Outside.countRows_ran counting).2]
      exact Or.inl (writes.keeps (Outside.upsert_storesInto o c r.writtenNamespace))

theorem cached_shared (accepted : Request.validate Request.index payload = .ok r)
    (accepted' : Request.validate Request.index other = .ok r')
    (shared : Store.tableName r.readNamespace = Store.tableName r'.readNamespace) {x x' : IndexResult}
    (ran : Ran (index c (o.backend c) payload) s (.ok x) s')
    (ran' : Ran (index c (o.backend c) other) s (.ok x') later) : x.cached = x'.cached := by
  obtain ⟨ready, ensured, _, outcome⟩ := index_stored accepted ran
  obtain ⟨ready', ensured', _, outcome'⟩ := index_stored accepted' ran'
  obtain rfl : ready = ready' := congrArg Prod.snd (ensured.symm.trans ensured')
  have counts : Store.countRows ready.current r.readNamespace =
      Store.countRows ready.current r'.readNamespace := by
    rw [Store.countRows, Store.countRows, shared]
  rw [counts] at outcome
  rcases outcome with ⟨cached, _, n, some⟩ | ⟨notCached, none, _⟩
  · rcases outcome' with ⟨cached', _⟩ | ⟨_, none, _⟩
    · rw [cached, cached']
    · simp [some] at none
  · rcases outcome' with ⟨_, _, n, some⟩ | ⟨notCached', _⟩
    · simp [some] at none
    · rw [notCached, notCached']

/-- When two repositories or branches share a table, and what follows for the one from what is done for
the other. -/
theorem tables_shared (r r' : IndexRequest) :
    (Store.tableName r.readNamespace = Store.tableName r'.readNamespace ↔
      r.namePieces = r'.namePieces) ∧
    (r.owner.toList.count '-' = r'.owner.toList.count '-' →
      r.repository.toList.count '-' = r'.repository.toList.count '-' →
      (Store.tableName r.readNamespace = Store.tableName r'.readNamespace ↔
        r.cleanOwner = r'.cleanOwner ∧ r.cleanRepository = r'.cleanRepository ∧
          r.cleanBranch = r'.cleanBranch) ∧
      (r.Allowed → r'.Allowed →
        (Store.tableName r.readNamespace = Store.tableName r'.readNamespace ↔
          r.owner = r'.owner ∧ r.repository = r'.repository ∧ r.branch = r'.branch))) ∧
    (Store.tableName r.writtenNamespace ≠ Store.tableName r'.readNamespace →
      ∀ (o : Outside (StateM σ)) c payload result s s',
        Request.validate Request.index payload = .ok r →
        Ran (index c (o.backend c) payload) s result s' →
        Store.Unaffected r'.readNamespace
            (s.ensureIndex c.embeddings.dimension c.store.readyAttempts).2.current s'.current ∨
          Outside.Unnameable c ∧ s' = s) ∧
    (Store.tableName r.readNamespace = Store.tableName r'.readNamespace →
      (∀ db vector topK filter hits, Store.query db r.readNamespace vector topK filter = .ok hits ↔
        Store.query db r'.readNamespace vector topK filter = .ok hits) ∧
      (∀ db rows made, Store.upsert db r.readNamespace rows = .ok made ↔
        Store.upsert db r'.readNamespace rows = .ok made) ∧
      ∀ (o : Outside (StateM σ)) c payload other s x s' x' later,
        Request.validate Request.index payload = .ok r →
        Request.validate Request.index other = .ok r' →
        Ran (index c (o.backend c) payload) s (.ok x) s' →
        Ran (index c (o.backend c) other) s (.ok x') later → x.cached = x'.cached) := by
  refine ⟨shared_iff r r', ?_, ?_, ?_⟩
  · intro owners repositories
    have clean := shared_iff_of_hyphens owners repositories
    refine ⟨clean, fun allowed allowed' => ?_⟩
    obtain ⟨owner, repository, branch⟩ := allowed.clean
    obtain ⟨owner', repository', branch'⟩ := allowed'.clean
    rw [clean, owner, owner', repository, repository', branch, branch']
  · intro apart o c payload result s s' accepted ran
    exact (index_keeps accepted ran).imp_left fun keeps => keeps.unaffected apart
  · intro shared
    refine ⟨fun db => Store.query_shared shared db, fun db => Store.upsert_shared shared db, ?_⟩
    intro o c payload other s x s' x' later accepted accepted' ran ran'
    exact cached_shared accepted accepted' shared ran ran'

/-- Two owners, two branches and a missing owner that are not kept apart. -/
theorem tables_collide :
    (∀ r ∈ [⟨"https://github.com/a-b/c", "main"⟩, ⟨"https://github.com/a/b-c", "main"⟩,
        ⟨"https://github.com/acme/shop", "feature/x"⟩, ⟨"https://github.com/acme/shop", "feature_x"⟩,
        ⟨"shop/", "main"⟩, (⟨"local/shop", "main"⟩ : IndexRequest)],
      Request.validate Request.index
        (.obj [("repo_url", .str r.repoUrl), ("branch", .str r.branch)]) = .ok r) ∧
    Store.tableName (readNamespace ⟨"https://github.com/a-b/c", "main"⟩) =
      Store.tableName (readNamespace ⟨"https://github.com/a/b-c", "main"⟩) ∧
    Store.tableName (readNamespace ⟨"https://github.com/acme/shop", "feature/x"⟩) =
      Store.tableName (readNamespace ⟨"https://github.com/acme/shop", "feature_x"⟩) ∧
    Store.tableName (readNamespace ⟨"shop/", "main"⟩) =
      Store.tableName (readNamespace ⟨"local/shop", "main"⟩) := by
  have hyphenOwner : readNamespace ⟨"https://github.com/a-b/c", "main"⟩ = "a-b-c-main" := by
    decide +kernel
  have hyphenName : readNamespace ⟨"https://github.com/a/b-c", "main"⟩ = "a-b-c-main" := by
    decide +kernel
  have slash : readNamespace ⟨"https://github.com/acme/shop", "feature/x"⟩ = "acme-shop-feature/x" := by
    decide +kernel
  have underscore : readNamespace ⟨"https://github.com/acme/shop", "feature_x"⟩ =
      "acme-shop-feature_x" := by
    decide +kernel
  have single : readNamespace ⟨"shop/", "main"⟩ = "local-shop-main" := by
    decide +kernel
  have double : readNamespace ⟨"local/shop", "main"⟩ = "local-shop-main" := by
    decide +kernel
  rw [hyphenOwner, hyphenName, slash, underscore, single, double]
  refine ⟨?_, rfl, ?_, rfl⟩
  · simp only [List.forall_mem_cons]
    exact ⟨rfl, rfl, rfl, rfl, rfl, rfl, by simp⟩
  · rw [Store.tableName, Store.tableName]
    decide +kernel

end Service

end Groundwork
