import Groundwork.Proofs.Index.Rows
import Groundwork.Proofs.Service.Namespaces
import Groundwork.Proofs.Summary.Descriptions

/-!
Descriptions of the files of a repository that is being indexed. A description that says that a file
could not be read or parsed is kept by enrichment but not by summaries: if path, counts or issues call
for a text and the provider answers, the text stands in its place, also in the row of the file.
-/

namespace Groundwork.Service

variable {σ τ : Type}

/-- Attempts at a text for each of the files that need one, with what the provider answered. No call is
sent if the setting for the length of a text cannot be used. -/
structure Answered (settings : SummarySettings) (b : Backend (StateT τ (StateM σ)))
    (files : List FileRecord) (attempts : List Summary.Attempt) : Prop where
  requests : attempts.map (·.request) = if settings.enabled then Summary.requestsFor files else []
  outcomes : ∀ a ∈ attempts, (∃ t t', Ran (b.ask (Summary.call settings a.request)) t a.outcome t') ∨
    "content_chars" ∈ settings.unfit ∧ a.outcome = .error (.data .wrongKind)

theorem guarded_outcome {unfit : List String} {name : String} {α : Type}
    {work : StateT τ (StateM σ) (Except Failure α)} {outcome : Except Failure α} {t t' : τ}
    (ran : Ran (guarded unfit [name] work) t outcome t') :
    Ran work t outcome t' ∨ name ∈ unfit ∧ outcome = .error (.data .wrongKind) := by
  by_cases odd : name ∈ unfit
  · rw [guarded, Summary.needed_of_unfit (by simpa using odd)] at ran
    exact Or.inr ⟨odd, ran.of_pure.1⟩
  · rw [guarded, Summary.needed_of_fit (by simpa using odd)] at ran
    exact Or.inl ran

theorem summarize_answered {settings : SummarySettings} {b : Backend (StateT τ (StateM σ))}
    {files : List FileRecord} {results : List SummaryResult} {t t' : τ}
    (ran : Ran (summarize settings b files).run t (.ok results) t') :
    ∃ attempts, Answered settings b files attempts ∧ results = attempts.map (·.result) := by
  rcases summarize_ran ran with
    ⟨disabled, same, _⟩ | ⟨enabled, ⟨_, same, _⟩ | ⟨attempts, events, asked, same, happens, perm⟩⟩
  · cases same
    exact ⟨[], ⟨by simp [disabled], by simp⟩, rfl⟩
  · cases same
  · refine ⟨attempts, ⟨by rw [asked, if_pos enabled], ?_⟩, Except.ok.inj same⟩
    intro a member
    obtain ⟨t, t', gives⟩ := happens.answered a (perm.mem_iff.mpr member)
    obtain ⟨outcome, calling, given⟩ := Ran.of_tryLift gives
    cases given
    exact (guarded_outcome calling).imp_left fun ran => ⟨t, t', ran⟩

structure Described (enabled : Bool) (files : List FileRecord) (attempts : List Summary.Attempt)
    (f final : FileRecord) : Prop where
  path : final.path = f.path
  enriched : f.enrich.description = f.description
  kept : (enabled = true → ∀ g ∈ files, g.path = f.path → ¬ g.Eligible) →
    final.description = f.description
  decided : enabled = true → ∀ g ∈ files, g.path = f.path → g.Eligible →
    ∃ a ∈ attempts, a.request.path = f.path ∧
      (∀ text, a.outcome = .ok text → final.description = text) ∧
      ∀ failure, a.outcome = .error failure → final.description = f.description

section Attempts

variable {settings : SummarySettings} {b : Backend (StateT τ (StateM σ))} {files : List FileRecord}
  {attempts : List Summary.Attempt} {path : String}

theorem Answered.asked_iff (answered : Answered settings b (files.map (·.enrich)) attempts) :
    (∃ a ∈ attempts, a.request.path = path) ↔
      settings.enabled = true ∧ ∃ g ∈ files, g.path = path ∧ g.Eligible := by
  have paths : (∃ a ∈ attempts, a.request.path = path) ↔
      path ∈ (attempts.map (·.request)).map (·.path) := by
    simp
  rw [paths, answered.requests]
  cases settings.enabled with
  | false => simp
  | true =>
      simp only [if_true, Summary.requestsFor, List.map_map, List.mem_map, List.mem_filter, true_and]
      constructor
      · rintro ⟨_, ⟨⟨g, member, rfl⟩, needs⟩, same⟩
        exact ⟨g, member, same, g.enrich_needsSummary.mp (by simpa using needs)⟩
      · rintro ⟨g, member, same, eligible⟩
        exact ⟨g.enrich, ⟨⟨g, member, rfl⟩, by simpa using g.enrich_needsSummary.mpr eligible⟩, same⟩

theorem Answered.described (answered : Answered settings b (files.map (·.enrich)) attempts)
    {f : FileRecord} (degraded : f.isDegraded = true) :
    Described settings.enabled files attempts f
      (Summary.applyTo (attempts.map (·.result)) f.enrich) := by
  have enriched := FileRecord.enrich_description degraded
  by_cases asked : ∃ a ∈ attempts, a.request.path = f.enrich.path
  · obtain ⟨a, member, path, text, failure⟩ := Summary.exists_applied asked
    have final : (Summary.applyTo (attempts.map (·.result)) f.enrich).path = f.path := by
      cases outcome : a.outcome with
      | ok t => rw [text t outcome]; rfl
      | error e => rw [failure e outcome]; rfl
    refine ⟨final, enriched, ?_, ?_⟩
    · intro none
      obtain ⟨enabled, g, among, same, eligible⟩ := answered.asked_iff.mp asked
      exact absurd eligible (none enabled g among same)
    · intro _ g _ _ _
      refine ⟨a, member, path, ?_, ?_⟩
      · intro t outcome
        rw [text t outcome]
      · intro e outcome
        rw [failure e outcome]
        exact enriched
  · have other : Summary.applyTo (attempts.map (·.result)) f.enrich = f.enrich := by
      refine Summary.applyTo_other fun a member same => asked ⟨a, member, same⟩
    rw [other]
    refine ⟨rfl, enriched, fun _ => enriched, ?_⟩
    intro enabled g among same eligible
    exact absurd (answered.asked_iff.mpr ⟨enabled, g, among, same, eligible⟩) asked

end Attempts

variable {o : Outside (StateM σ)} {c : Configuration} {payload : Json} {r : IndexRequest}
  {s s' : Store} {x : IndexResult}

theorem file_stored {a : Analysis} {summaries : List SummaryResult} {rows : List TextRecord}
    {ready : Store} (rowsFor : RowsFor c (o.backend c) a summaries rows)
    (writes : Index.Writes (PauseFails c (o.backend c)) ((o.backend c).upsert r.writtenNamespace)
      (batches (max 1 c.store.batchSize).toNat rows) ready (.ok ()) s')
    (full : c.embeddings.perRecord = false ∨ Text.lower c.embeddings.provider ≠ "openai") {i : Nat}
    {final : FileRecord} (place : (Index.significantFiles (completed a summaries))[i]? = some final) :
    ∃ row, Store.Stores s'.current r.writtenNamespace row ∧
      row.id = (Index.Key.file i).id a.repoName ∧
      row.metadata.lookup "filePath" = some (.str final.path) ∧
      row.metadata.lookup "description" = some (.str final.description) := by
  obtain ⟨vectors, t, _, embedded, made⟩ := rowsFor
  have enough : c.embeddings.perRecord = true →
      (Index.entries (completed a summaries)).length ≤ vectors.length := by
    intro each
    rcases full with whole | hashed
    · rw [whole] at each
      simp at each
    · rw [hashed_length hashed embedded, Index.textsFor, if_pos each, List.length_map]
  obtain ⟨row, member, id, metadata⟩ := Index.exists_row made enough (Index.fileEntry_mem place)
  have stored := writes.stores_rows (Outside.upsert_storesInto o c r.writtenNamespace)
    (by rw [batches_flatten]; exact Index.records_ids_nodup made) row (by rwa [batches_flatten])
  have shows := Index.fileEntry_shows (completed a summaries) i final
  refine ⟨Store.storedRow row, stored, id, ?_, ?_⟩
  · change row.metadata.lookup "filePath" = _
    rw [metadata]
    exact shows ("filePath", .str final.path) (by simp)
  · change row.metadata.lookup "description" = _
    rw [metadata]
    exact shows ("description", .str final.description) (by simp)

/-- What becomes of the description of a file that could not be read or parsed when its repository is
written into the store. It is kept unless summaries are on, a file with that path needs one and the
provider answers; then the text that decides for the path takes its place. The row of the file shows the
same. A file that could not be read needs a summary by its path alone. -/
theorem degraded_described (accepted : Request.validate Request.index payload = .ok r)
    (ran : Ran (index c (o.backend c) payload) s (.ok x) s') (fresh : x.cached = false) :
    (∀ path content, (FileRecord.unreadable path content).Eligible ↔
      Assessment.isExcluded path = false ∧ Assessment.isSensitive path = true) ∧
    ∃ a attempts t, Surveyed (o.backend c) r.repoUrl r.branch t a ∧
      Answered c.summaries (o.backend c) (a.files.map (·.enrich)) attempts ∧
      ∀ f ∈ a.files, f.isDegraded = true →
        ∃ final ∈ (completed a (attempts.map (·.result))).files,
          Described c.summaries.enabled a.files attempts f final ∧
          ∀ i, (Index.significantFiles (completed a (attempts.map (·.result))))[i]? = some final →
            c.embeddings.perRecord = false ∨ Text.lower c.embeddings.provider ≠ "openai" →
            ∃ row, Store.Stores s'.current r.writtenNamespace row ∧
              row.id = (Index.Key.file i).id a.repoName ∧
              row.metadata.lookup "filePath" = some (.str final.path) ∧
              row.metadata.lookup "description" = some (.str final.description) := by
  refine ⟨FileRecord.eligible_unreadable, ?_⟩
  obtain ⟨ready, _, _, ⟨cached, _⟩ | ⟨_, _, a, summaries, rows, surveyed, rowsFor, writes⟩⟩ :=
    index_stored accepted ran
  · simp [cached] at fresh
  · have ⟨_, t, summarized, _⟩ := rowsFor
    obtain ⟨attempts, answered, rfl⟩ := summarize_answered summarized
    refine ⟨a, attempts, ready, surveyed, answered, ?_⟩
    intro f member degraded
    refine ⟨_, ?_, answered.described degraded, fun i place full => ?_⟩
    · rw [completed, Summary.apply, List.map_map]
      exact List.mem_map_of_mem member
    · exact file_stored rowsFor writes full place

def loginTree : FileTree :=
  .folder [("src", .folder [("auth", .folder [("login.ts", .file { bytes := ⟨#[255]⟩ })])])]

def loginWorld : Outside (StateM Unit) :=
  { smallWorld with
    fetcher := { smallWorld.fetcher with fetch := fun _ _ => return .ok ⟨"repo_0", loginTree⟩ }
    ask := fun _ => return .ok "Signs users in." }

def loginBackend : Backend (StateT Store (StateM Unit)) := loginWorld.backend remoteDigests

def loginIndex : StateT Store (StateM Unit) (Except Failure IndexResult) :=
  index remoteDigests loginBackend (.obj [("repo_url", .str "https://github.com/acme/shop")])

def loginAnalysis : Analysis :=
  Analysis.ofTree loginBackend.parse loginTree "https://github.com/acme/shop" "main"

def loginFile : FileRecord := .unreadable "src/auth/login.ts" { bytes := ⟨#[255]⟩ }

theorem loginAnalysis_files : loginAnalysis.files = [loginFile] := by decide +kernel

theorem loginFile_degraded : loginFile.isDegraded = true := by decide

theorem loginFile_eligible : loginFile.Eligible :=
  (FileRecord.eligible_unreadable _ _).mpr ⟨by decide, by decide⟩

theorem loginIndex_ran : ∃ x s', Ran loginIndex {} (.ok x) s' ∧ x.cached = false := by
  have ok : ((loginIndex.run {}).run ()).1.1.toOption.map (·.cached) = some false := by decide +kernel
  obtain ⟨x, ran, fresh⟩ := exists_ran_ok ok
  exact ⟨x, _, ran, fresh⟩

def loginResults : List SummaryResult := [⟨"src/auth/login.ts", "Signs users in.", true, none⟩]

theorem login_outcomes {attempts : List Summary.Attempt}
    (answered : Answered remoteDigests.summaries loginBackend (loginAnalysis.files.map (·.enrich))
      attempts) : ∀ a ∈ attempts, a.outcome = .ok "Signs users in." := by
  intro a member
  rcases answered.outcomes a member with ⟨t, t', world, later, same⟩ | ⟨odd, _⟩
  · exact (congrArg (·.1.1) same).symm
  · cases odd

theorem login_results {attempts : List Summary.Attempt}
    (answered : Answered remoteDigests.summaries loginBackend (loginAnalysis.files.map (·.enrich))
      attempts) : attempts.map (·.result) = loginResults := by
  have byRequest : attempts.map (·.result) = (attempts.map (·.request)).map fun request =>
      ⟨request.path, "Signs users in.", true, none⟩ := by
    rw [List.map_map]
    refine List.map_congr_left fun a member => ?_
    rw [Summary.Attempt.result, login_outcomes answered a member]
    rfl
  have enabled : remoteDigests.summaries.enabled = true := rfl
  have path : loginFile.enrich.path = "src/auth/login.ts" := rfl
  have needs : loginFile.enrich.needsSummary = some true :=
    (FileRecord.enrich_needsSummary _).mpr loginFile_eligible
  rw [byRequest, answered.requests, if_pos enabled, loginAnalysis_files]
  simp [Summary.requestsFor, needs, path, loginResults]

theorem login_completed : (completed loginAnalysis loginResults).files =
    [{ loginFile.enrich with description := "Signs users in.", summarySource := some .generated }] := by
  rw [completed, loginAnalysis_files]
  rfl

theorem degraded_described_login : ∃ x s', Ran loginIndex {} (.ok x) s' ∧ x.cached = false ∧
    loginFile.description = "Could not read file content" ∧
    ∃ row, Store.Stores s'.current "acme-shop-main" row ∧
      row.metadata.lookup "filePath" = some (.str "src/auth/login.ts") ∧
      row.metadata.lookup "description" = some (.str "Signs users in.") := by
  have accepted : Request.validate Request.index
      (.obj [("repo_url", .str "https://github.com/acme/shop")]) =
        .ok ⟨"https://github.com/acme/shop", "main"⟩ := rfl
  have writes : IndexRequest.writtenNamespace ⟨"https://github.com/acme/shop", "main"⟩ =
      "acme-shop-main" := by decide
  have significant : Index.significantFiles (completed loginAnalysis loginResults) =
      (completed loginAnalysis loginResults).files := by
    rw [Index.significantFiles, login_completed]
    decide +kernel
  have member : loginFile ∈ loginAnalysis.files := by
    rw [loginAnalysis_files]
    exact List.mem_singleton_self _
  obtain ⟨x, s', ran, fresh⟩ := loginIndex_ran
  obtain ⟨_, a, attempts, t, ⟨checkout, ⟨world, later, fetched⟩, analysed⟩, answered, each⟩ :=
    degraded_described accepted ran fresh
  obtain rfl : (⟨"repo_0", loginTree⟩ : Checkout) = checkout :=
    Except.ok.inj (congrArg (·.1.1) fetched)
  obtain rfl : a = loginAnalysis := analysed
  obtain ⟨final, among, described, stored⟩ := each loginFile member loginFile_degraded
  obtain ⟨attempt, tried, _, texts, _⟩ := described.decided rfl loginFile member rfl loginFile_eligible
  have text : final.description = "Signs users in." := texts _ (login_outcomes answered attempt tried)
  rw [login_results answered, ← significant] at among
  obtain ⟨i, place⟩ := List.mem_iff_getElem?.mp among
  rw [login_results answered, writes] at stored
  obtain ⟨row, isStored, _, path, description⟩ := stored i place (Or.inl rfl)
  rw [described.path] at path
  rw [text] at description
  exact ⟨x, s', ran, fresh, rfl, row, isStored, path, description⟩

/-- The analyzer says of the only file that it could not be read. Enrichment says so, too, and in what is
written the file has a text. -/
theorem login_notKept : loginAnalysis.files.map (fun f => (f.path, f.description)) =
      [("src/auth/login.ts", "Could not read file content")] ∧
    (loginAnalysis.files.map (·.enrich)).map (·.description) = ["Could not read file content"] ∧
    ∃ results, Ran (summarize remoteDigests.summaries loginBackend
        (loginAnalysis.files.map (·.enrich))).run {} (.ok results) {} ∧
      (completed loginAnalysis results).files.map (·.description) = ["Signs users in."] := by
  refine ⟨?_, ?_, ?_⟩
  · rw [loginAnalysis_files]
    rfl
  · rw [loginAnalysis_files, List.map_singleton, List.map_singleton,
      FileRecord.enrich_description loginFile_degraded]
    rfl
  · have works : (((summarize remoteDigests.summaries loginBackend
        (loginAnalysis.files.map (·.enrich))).run.run {}).run ()).1.1.toOption.map (·.length) =
          some 1 := by decide +kernel
    obtain ⟨results, ran, _⟩ := exists_ran_ok works
    have quiet := Outside.backend_quiet loginWorld remoteDigests
    rw [summarize_quiet quiet.ask quiet.pause _ _ _ _ _ ran] at ran
    obtain ⟨attempts, answered, rfl⟩ := summarize_answered ran
    refine ⟨_, ran, ?_⟩
    rw [login_results answered, login_completed]
    rfl

end Groundwork.Service
