import Groundwork.Proofs.Index.Writes
import Groundwork.Proofs.Repository.Checkouts
import Groundwork.Proofs.Summary.Runs
import Groundwork.Service

/-!
What indexing a branch does to the state: the index is made sure of, the rows of the namespace are
counted, and only if there are none the entries are written.
-/

namespace Groundwork

variable {σ τ : Type}

/-- A backend whose state is only the store: everything else leaves it as it is. -/
structure Backend.Quiet (b : Backend (StateT τ (StateM σ))) : Prop where
  fetch : ∀ url branch, Groundwork.Quiet (b.fetcher.fetch url branch)
  release : ∀ checkout, Groundwork.Quiet (b.fetcher.release checkout)
  embed : ∀ texts, Groundwork.Quiet (b.embed texts)
  ask : ∀ call, Groundwork.Quiet (b.ask call)
  pause : ∀ seconds, Groundwork.Quiet (b.pause seconds)
  keepArtifact : ∀ nspace text, Groundwork.Quiet (b.keepArtifact nspace text)

namespace Service

variable {c : Configuration} {b : Backend (StateT τ (StateM σ))} {nspace url branch : String}
  {t t' : τ}

theorem isCached_ran {result : Except Failure Bool} (ran : Ran (isCached b nspace).run t result t') :
    ∃ count, Ran (b.countRows nspace) t count t' ∧ result = count.map fun n => decide (0 < n) := by
  rcases ran.of_tryBind with ⟨failure, counted, rfl⟩ | ⟨count, middle, counted, last⟩
  · exact ⟨.error failure, counted, rfl⟩
  · obtain ⟨rfl, rfl⟩ := last.of_tryPure
    exact ⟨.ok count, counted, rfl⟩

def Surveyed (b : Backend (StateT τ (StateM σ))) (url branch : String) (t : τ) (a : Analysis) : Prop :=
  ∃ checkout, Ran (b.fetcher.fetch url branch) t (.ok checkout) t ∧
    a = Analysis.ofTree b.parse checkout.tree url branch

theorem survey_ran (quiet : b.Quiet) {result : Except Failure Analysis}
    (ran : Ran (survey b url branch).run t result t') :
    t' = t ∧ ∀ a, result = .ok a → Surveyed b url branch t a := by
  rcases Fetcher.withCheckout_ran ran with
    ⟨failure, fetched, rfl⟩ | ⟨checkout, held, left, fetched, working, releasing⟩
  · exact ⟨quiet.fetch _ _ _ _ _ fetched, by simp⟩
  · obtain rfl := quiet.fetch _ _ _ _ _ fetched
    obtain ⟨rfl, rfl⟩ := working.of_pure
    refine ⟨quiet.release _ _ _ _ releasing, ?_⟩
    intro a same
    exact ⟨checkout, fetched, (Except.ok.inj same).symm⟩

theorem guarded_cases (unfit names : List String) {α : Type}
    (work : StateT τ (StateM σ) (Except Failure α)) :
    guarded unfit names work = work ∨
      guarded unfit names work = pure (.error (.data .wrongKind)) := by
  unfold guarded needed
  split
  · exact Or.inl rfl
  · rename_i fault refused
    split at refused
    · cases refused
      exact Or.inr rfl
    · cases refused

theorem ok_of_guarded {unfit names : List String} {α : Type} {value : α}
    {work : StateT τ (StateM σ) (Except Failure α)}
    (ran : Ran (guarded unfit names work) t (.ok value) t') : Ran work t (.ok value) t' := by
  rcases guarded_cases unfit names work with same | same
  · rwa [same] at ran
  · rw [same] at ran
    cases ran.of_pure.1

theorem guarded_quiet {unfit names : List String} {α : Type}
    {work : StateT τ (StateM σ) (Except Failure α)} (quiet : Quiet work) :
    Quiet (guarded unfit names work) := by
  rcases guarded_cases unfit names work with same | same
  · rwa [same]
  · rw [same]
    exact quiet_pure _

theorem summaryWorld_quiet (ask : ∀ call, Quiet (b.ask call)) (pause : ∀ seconds, Quiet (b.pause seconds))
    (settings : SummarySettings) : (summaryWorld settings b).Quiet where
  ask := by
    intro request t result t' gives
    obtain ⟨_, ran, _⟩ := Ran.of_tryLift gives
    exact guarded_quiet (ask _) _ _ _ ran
  pause gives := guarded_quiet (pause _) _ _ _ gives
  report gives := (Ran.of_tryPure gives).2

theorem summarize_ran {settings : SummarySettings} {files : List FileRecord}
    {result : Except Failure (List SummaryResult)}
    (ran : Ran (summarize settings b files).run t result t') :
    (settings.enabled = false ∧ result = .ok [] ∧ t' = t) ∨
      settings.enabled = true ∧
        ((∃ failure, result = .error failure ∧
            (t' = t ∨ ∃ events, Summary.Stops (summaryWorld settings b) t events failure t')) ∨
          ∃ (attempts : List Summary.Attempt) (events : List Summary.Event),
            attempts.map (·.request) = Summary.requestsFor files ∧
              result = .ok (attempts.map (·.result)) ∧
              Summary.Happens (summaryWorld settings b) t events t' ∧
              (Summary.callsOf events).Perm attempts) := by
  rw [summarize] at ran
  by_cases enabled : settings.enabled = true
  · rw [if_pos enabled] at ran
    refine Or.inr ⟨enabled, ?_⟩
    split at ran
    · rename_i run made
      have fair : (summaryWorld settings b).Fair (Summary.requestsFor files) := List.Perm.refl _
      obtain ⟨queue, _, comes⟩ := Summary.generate_comes fair made ran
      rcases comes with ⟨results, events, same, happens, attempts, asked, rfl, perm⟩ |
        ⟨failure, events, same, stops, _⟩
      · exact Or.inr ⟨attempts, events, asked, same, happens, perm⟩
      · exact Or.inl ⟨failure, same, Or.inr ⟨events, stops⟩⟩
    · obtain ⟨same, rfl⟩ := Ran.of_pure ran
      exact Or.inl ⟨_, same, Or.inl rfl⟩
  · rw [if_neg enabled] at ran
    exact Or.inl ⟨Bool.not_eq_true _ ▸ enabled, ran.of_tryPure⟩

theorem summarize_quiet (ask : ∀ call, Quiet (b.ask call)) (pause : ∀ seconds, Quiet (b.pause seconds))
    (settings : SummarySettings) (files : List FileRecord) : Quiet (summarize settings b files).run := by
  have quiet := summaryWorld_quiet ask pause settings
  intro t result t' ran
  rcases summarize_ran ran with ⟨_, _, same⟩ | ⟨_, ⟨_, _, same | ⟨_, stops⟩⟩ | ⟨_, _, _, _, happens, _⟩⟩
  · exact same
  · exact same
  · exact stops.quiet quiet
  · exact happens.quiet quiet

def completed (a : Analysis) (summaries : List SummaryResult) : Analysis :=
  { a with files := Summary.apply (a.files.map (·.enrich)) summaries }

/-- What an index is written from: the analysis with results for its files, and vectors for its
texts. -/
def RowsFor (c : Configuration) (b : Backend (StateT τ (StateM σ))) (a : Analysis)
    (summaries : List SummaryResult) (rows : List TextRecord) : Prop :=
  ∃ vectors t, Ran (summarize c.summaries b (a.files.map (·.enrich))).run t (.ok summaries) t ∧
    Ran (b.embed (Index.textsFor c.embeddings.perRecord (completed a summaries))) t (.ok vectors) t ∧
    Index.records c.embeddings.perRecord (completed a summaries) vectors = .ok rows

def heldAnswer (nspace : String) (a : Analysis) : IndexResult :=
  { nspace, graph := DependencyGraph.ofRecords a.files, cached := true, repository := a.stats }

def writtenAnswer (nspace : String) (a : Analysis) (summaries : List SummaryResult) : IndexResult where
  nspace
  graph := DependencyGraph.ofRecords (completed a summaries).files
  cached := false
  repository := a.stats
  enhanced := some (EnhancedStats.of (completed a summaries).files summaries)

@[simp] theorem heldAnswer_nspace (nspace : String) (a : Analysis) :
    (heldAnswer nspace a).nspace = nspace := rfl

@[simp] theorem writtenAnswer_nspace (nspace : String) (a : Analysis)
    (summaries : List SummaryResult) : (writtenAnswer nspace a summaries).nspace = nspace := rfl

def PauseFails (c : Configuration) (b : Backend (StateT τ (StateM σ))) (failure : Failure) : Prop :=
  ∃ t t', Ran (pauseBy b c.store.unfit "batch_pause" c.store.batchPause).run t (.error failure) t'

theorem works_writeRows (pause : ∀ seconds, Quiet (b.pause seconds)) (c : Configuration)
    (nspace : String) : Index.Works (PauseFails c b) (b.upsert nspace)
      (fun rows => (ExceptT.lift (b.upsert nspace rows) :
        ExceptT Failure (StateT τ (StateM σ)) (Except Failure Unit)))
      (pauseBy b c.store.unfit "batch_pause" c.store.batchPause) where
  put gives := by
    obtain ⟨answer, ran, same⟩ := Ran.of_tryLift gives
    exact ⟨answer, same, ran⟩
  pause := by
    intro t result t' gives
    refine ⟨guarded_quiet (pause _) _ _ _ gives, ?_⟩
    rintro failure rfl
    exact ⟨t, t', gives⟩

theorem embedding_ran (embed : ∀ texts, Quiet (b.embed texts)) {unfit names texts : List String}
    {result : Except Failure (Except Failure (List Vector64))}
    (ran : Ran (ExceptT.lift (do
        match ← b.embed texts with
        | .ok vectors => guarded unfit names (return .ok vectors)
        | .error failure => return .error failure) :
      ExceptT Failure (StateT τ (StateM σ)) (Except Failure (List Vector64))).run t result t') :
    t' = t ∧ ∃ answer, result = .ok answer ∧
      ∀ vectors, answer = .ok vectors → Ran (b.embed texts) t (.ok vectors) t := by
  obtain ⟨answer, lifted, rfl⟩ := Ran.of_tryLift ran
  obtain ⟨given, middle, asked, next⟩ := lifted.of_bind
  obtain rfl := embed _ _ _ _ asked
  cases given with
  | error failure =>
      obtain ⟨rfl, rfl⟩ := next.of_pure
      exact ⟨rfl, _, rfl, by simp⟩
  | ok vectors =>
      dsimp only at next
      rcases guarded_cases unfit names
        (pure (.ok vectors) : StateT τ (StateM σ) (Except Failure (List Vector64))) with same | same
      · rw [same] at next
        obtain ⟨rfl, rfl⟩ := next.of_pure
        refine ⟨rfl, _, rfl, ?_⟩
        rintro _ ⟨⟩
        exact asked
      · rw [same] at next
        obtain ⟨rfl, rfl⟩ := next.of_pure
        exact ⟨rfl, _, rfl, by simp⟩

theorem writeRows_ran (embed : ∀ texts, Quiet (b.embed texts)) (pause : ∀ seconds, Quiet (b.pause seconds))
    {a : Analysis} {result : Except Failure (Except Failure String)}
    (ran : Ran (writeRows c b a).run t result t') :
    (∃ failure, result.bind id = .error failure ∧ t' = t) ∨
      ∃ vectors rows written, Ran (b.embed (Index.textsFor c.embeddings.perRecord a)) t (.ok vectors) t ∧
        Index.records c.embeddings.perRecord a vectors = .ok rows ∧
        Index.Writes (PauseFails c b) (b.upsert (Index.namespaceOf a.repoUrl a.branch))
          (batches (max 1 c.store.batchSize).toNat rows) t written t' ∧
        result.bind id = written.map fun _ => Index.namespaceOf a.repoUrl a.branch := by
  have gives : Traced.Gives (writeRows c b a) t result t' := ran
  rw [writeRows] at gives
  rcases Index.write_gives gives with ⟨failure, asked, rfl⟩ | ⟨answer, middle, asked, outcome⟩
  · exact Or.inl ⟨failure, rfl, (embedding_ran embed asked).1⟩
  · obtain ⟨rfl, _, same, given⟩ := embedding_ran embed asked
    cases same
    rcases outcome with ⟨failure, _, rfl, rfl⟩ | ⟨rows, written, made, taken, rfl⟩
    · exact Or.inl ⟨failure, rfl, rfl⟩
    · cases answer with
      | error failure => cases made
      | ok vectors =>
          have writes := Index.takeSteps_writes (works_writeRows pause c _) taken
          refine Or.inr ⟨vectors, rows, _, given vectors rfl, made, writes, ?_⟩
          cases written <;> rfl

theorem storeIndex_outcome {a : Analysis} {summaries : List SummaryResult}
    {result : Except Failure IndexResult} (ran : Ran (storeIndex c b nspace a summaries).run t result t') :
    ∃ wrote, Ran (writeRows c b a).run t wrote t' ∧
      result = (wrote.bind id).map fun _ =>
        { nspace, graph := DependencyGraph.ofRecords a.files, cached := false, repository := a.stats,
          enhanced := some (EnhancedStats.of a.files summaries) } := by
  rcases ran.of_tryBind with ⟨failure, wrote, rfl⟩ | ⟨answer, middle, wrote, next⟩
  · exact ⟨_, wrote, rfl⟩
  · refine ⟨.ok answer, ?_⟩
    rcases next.of_tryBind with ⟨failure, joined, rfl⟩ | ⟨name, later, joined, last⟩
    · obtain ⟨rfl, rfl⟩ := Ran.of_pure joined
      exact ⟨wrote, rfl⟩
    · obtain ⟨same, rfl⟩ := Ran.of_pure joined
      obtain ⟨rfl, rfl⟩ := last.of_tryPure
      subst same
      exact ⟨wrote, rfl⟩

theorem storeIndex_ran (quiet : b.Quiet) {a : Analysis} {summaries : List SummaryResult}
    (summarized : Ran (summarize c.summaries b (a.files.map (·.enrich))).run t (.ok summaries) t)
    {result : Except Failure IndexResult}
    (ran : Ran (storeIndex c b nspace (completed a summaries) summaries).run t result t') :
    (∃ failure, result = .error failure ∧ t' = t) ∨
      ∃ rows written, RowsFor c b a summaries rows ∧
        Index.Writes (PauseFails c b) (b.upsert (Index.namespaceOf a.repoUrl a.branch))
          (batches (max 1 c.store.batchSize).toNat rows) t written t' ∧
        result = written.map fun _ => writtenAnswer nspace a summaries := by
  obtain ⟨wrote, writing, rfl⟩ := storeIndex_outcome ran
  rcases writeRows_ran quiet.embed quiet.pause writing with
    ⟨failure, same, rfl⟩ | ⟨vectors, rows, written, embedded, made, writes, same⟩
  · exact Or.inl ⟨failure, by rw [same]; rfl, rfl⟩
  · refine Or.inr ⟨rows, written, ⟨vectors, t, summarized, embedded, made⟩, writes, ?_⟩
    rw [same]
    cases written <;> rfl

theorem writeIndex_ran (quiet : b.Quiet) {a : Analysis} {result : Except Failure IndexResult}
    (ran : Ran (writeIndex c b nspace a).run t result t') :
    (∃ failure, result = .error failure ∧ t' = t) ∨
      ∃ summaries rows written, RowsFor c b a summaries rows ∧
        Index.Writes (PauseFails c b) (b.upsert (Index.namespaceOf a.repoUrl a.branch))
          (batches (max 1 c.store.batchSize).toNat rows) t written t' ∧
        result = written.map fun _ => writtenAnswer nspace a summaries := by
  have unchanged := summarize_quiet quiet.ask quiet.pause c.summaries (a.files.map (·.enrich))
  rcases ran.of_tryBind with ⟨failure, summarized, rfl⟩ | ⟨summaries, middle, summarized, next⟩
  · exact Or.inl ⟨failure, rfl, unchanged _ _ _ summarized⟩
  · obtain rfl := unchanged _ _ _ summarized
    dsimp only at next
    split at next
    · rcases next.of_tryBind with ⟨failure, kept, rfl⟩ | ⟨_, later, kept, last⟩
      · exact Or.inl ⟨failure, rfl, quiet.keepArtifact _ _ _ _ _ kept⟩
      · obtain rfl := quiet.keepArtifact _ _ _ _ _ kept
        exact (storeIndex_ran quiet summarized last).imp_right fun written => ⟨summaries, written⟩
    · exact (storeIndex_ran quiet summarized next).imp_right fun written => ⟨summaries, written⟩

inductive Indexing (c : Configuration) (b : Backend (StateT τ (StateM σ))) (url branch : String)
    (t : τ) : Except Failure IndexResult → τ → Prop
  | notReady {failure : Failure} {t' : τ} :
      Ran b.ensureIndex t (.error failure) t' → Indexing c b url branch t (.error failure) t'
  | stopped {ready t' : τ} {count : Except Failure Nat} {failure : Failure} :
      Ran b.ensureIndex t (.ok ()) ready →
      Ran (b.countRows (Index.namespaceOf url branch)) ready count t' →
      Indexing c b url branch t (.error failure) t'
  | cached {ready t' : τ} {n : Nat} {a : Analysis} {result : Except Failure IndexResult} :
      Ran b.ensureIndex t (.ok ()) ready →
      Ran (b.countRows (Index.namespaceOf url branch)) ready (.ok (n + 1)) t' →
      Surveyed b url branch t' a → result = .ok (heldAnswer (Index.namespaceOf url branch) a) →
      Indexing c b url branch t result t'
  | written {ready counted t' : τ} {a : Analysis} {summaries : List SummaryResult}
      {rows : List TextRecord} {written : Except Failure Unit} {result : Except Failure IndexResult} :
      Ran b.ensureIndex t (.ok ()) ready →
      Ran (b.countRows (Index.namespaceOf url branch)) ready (.ok 0) counted →
      Surveyed b url branch counted a → RowsFor c b a summaries rows →
      Index.Writes (PauseFails c b) (b.upsert (Index.namespaceOf (Analysis.trimUrl url) branch))
        (batches (max 1 c.store.batchSize).toNat rows) counted written t' →
      result = (written.map fun _ => writtenAnswer (Index.namespaceOf url branch) a summaries) →
      Indexing c b url branch t result t'

theorem indexBranch_ran (quiet : b.Quiet) {result : Except Failure IndexResult}
    (ran : Ran (indexBranch c b url branch).run t result t') :
    Indexing c b url branch t result t' := by
  rcases ran.of_tryBind with ⟨failure, notReady, rfl⟩ | ⟨_, ready, isReady, next⟩
  · exact .notReady notReady
  · rcases next.of_tryBind with ⟨failure, gate, rfl⟩ | ⟨cached, counted, gate, next⟩
    · obtain ⟨count, counting, _⟩ := isCached_ran gate
      exact .stopped isReady counting
    · obtain ⟨count, counting, cachedIs⟩ := isCached_ran gate
      rcases next.of_tryBind with ⟨failure, surveyed, rfl⟩ | ⟨a, later, surveyed, last⟩
      · obtain ⟨rfl, _⟩ := survey_ran quiet surveyed
        exact .stopped isReady counting
      · obtain ⟨rfl, surveyedIs⟩ := survey_ran quiet surveyed
        obtain ⟨checkout, fetched, rfl⟩ := surveyedIs a rfl
        match count, cachedIs with
        | .ok 0, cachedIs =>
            obtain rfl : cached = false := by simpa [Except.map] using cachedIs
            rcases writeIndex_ran quiet last with
              ⟨failure, rfl, rfl⟩ | ⟨summaries, rows, written, rowsFor, writes, result⟩
            · exact .stopped isReady counting
            · exact .written isReady counting ⟨checkout, fetched, rfl⟩ rowsFor writes result
        | .ok (n + 1), cachedIs =>
            obtain rfl : cached = true := by simpa [Except.map] using cachedIs
            obtain ⟨rfl, rfl⟩ := last.of_tryPure
            exact .cached isReady counting ⟨checkout, fetched, rfl⟩ rfl
        | .error failure, cachedIs => simp [Except.map] at cachedIs

theorem index_ran (quiet : b.Quiet) {payload : Json} {r : IndexRequest}
    (accepted : Request.validate Request.index payload = .ok r) {result : Except Failure IndexResult}
    (ran : Ran (index c b payload) t result t') :
    ∃ inner, Indexing c b r.repoUrl r.branch t inner t' ∧
      result = hiddenUnlessRequest "Failed to index repository" inner := by
  rw [index, accepted] at ran
  obtain ⟨inner, middle, branchRan, last⟩ := ran.of_bind
  obtain ⟨rfl, rfl⟩ := last.of_pure
  exact ⟨inner, indexBranch_ran quiet branchRan, rfl⟩

end Service

end Groundwork
