import Groundwork.Configuration
import Groundwork.Embedding.Basic
import Groundwork.Graph.Basic
import Groundwork.Index.Writing
import Groundwork.Json.Writer
import Groundwork.Planning.Expansion
import Groundwork.Planning.Overview
import Groundwork.Planning.Planner
import Groundwork.Repository.Checkout
import Groundwork.Repository.Files
import Groundwork.Repository.Survey
import Groundwork.Request.Model
import Groundwork.Statistics
import Groundwork.Store.Database

/-!
All stages together: indexing a repository, searching it and planning work on it. A request that
breaks a rule is answered with every violation. Any other failure is answered with a fixed text that
tells nothing about its cause.
-/

namespace Groundwork

structure Backend (m : Type → Type) where
  parse : Parser
  fetcher : Fetcher m
  ensureIndex : m (Except Failure Unit)
  countRows : String → m (Except Failure Nat)
  upsert : String → List TextRecord → m (Except Failure Unit)
  query : String → Vector64 → Int → Store.Filter → m (Except Failure (List (Retrieval.Hit Float)))
  embed : List String → m (Except Failure (List Vector64))
  ask : Completion.Call → m (Except Failure String)
  pause : Float → m (Except Failure Unit)
  keepArtifact : String → String → m (Except Failure Unit)

structure Outside (m : Type → Type) where
  parse : Parser
  fetcher : Fetcher m
  send : HttpRequest → m HttpOutcome
  ask : Completion.Call → m (Except Failure String)
  pause : Float → m (Except Failure Unit)
  files : Files m

namespace Outside

variable {m : Type → Type} [Monad m]

def artifactFile (home : FilePath) (nspace : String) : FilePath :=
  (home.append (.ofText "debug")).append (.ofText (nspace ++ "-analysis.json"))

def keepArtifact (o : Outside m) (home : FilePath) (nspace text : String) :
    m (Except Failure Unit) := do
  match ← o.files.makeFolder (home.append (.ofText "debug")) with
  | .error fault => return .error (.file fault)
  | .ok () => return (← o.files.write (artifactFile home nspace) text).mapError .file

def wait (o : Outside m) (seconds : Float) : Nat → m (Except Failure Unit)
  | 0 => return .ok ()
  | pauses + 1 => do
    match ← o.pause seconds with
    | .ok () => wait o seconds pauses
    | .error failure => return .error failure

def ensureIndex (o : Outside m) (c : Configuration) : StateT Store m (Except Failure Unit) :=
  guarded c.store.unfit ["index_name"] fun s => do
    let unfit := if s.indexes.contains s.index then [] else c.embeddings.unfit
    let (result, made) := s.ensureIndex c.embeddings.dimension c.store.readyAttempts
    let pauses := made.waitPauses c.store.readyAttempts
    match needed unfit ["dim"] with
    | .error fault => return (.error (.data fault), s)
    | .ok () =>
      let waited ← guarded c.store.unfit ("ready_attempts" :: if pauses = 0 then [] else ["ready_interval"])
        (o.wait c.store.readyInterval pauses)
      return (waited.bind fun _ => result, made)

def backend (o : Outside m) (c : Configuration) : Backend (StateT Store m) where
  parse := o.parse
  fetcher :=
    { fetch := fun url branch => StateT.lift (o.fetcher.fetch url branch)
      release := fun checkout => StateT.lift (o.fetcher.release checkout) }
  ensureIndex := o.ensureIndex c
  countRows nspace := do return Store.countRows (← get).current nspace
  upsert nspace rows := do
    match Store.upsert (← get).current nspace rows with
    | .ok (_, db) =>
      modify (·.setCurrent db)
      return .ok ()
    | .error failure => return .error failure
  query nspace vector topK filter := guarded c.store.unfit ["index_name"] do
    return Store.query (← get).current nspace vector topK filter
  embed texts :=
    let embedder := Embedder.ofSettings c.embeddings
    guarded c.embeddings.unfit embedder.neededSettings (StateT.lift (embedder.embedMany o.send texts))
  ask call := StateT.lift (o.ask call)
  pause seconds := StateT.lift (o.pause seconds)
  keepArtifact nspace text := StateT.lift (o.keepArtifact c.home nspace text)

end Outside

structure IndexResult where
  nspace : String
  graph : DependencyGraph
  cached : Bool
  repository : AnalysisStats
  enhanced : Option EnhancedStats := none

def IndexResult.toJson (r : IndexResult) : Json :=
  let enhanced := match r.enhanced with
    | some stats => [("enhanced_analysis", stats.toJson)]
    | none => []
  .obj [("namespace", .str r.nspace), ("dependencyGraph", r.graph.toJson),
    ("cached", .bool r.cached),
    ("stats", .obj ([("repository", r.repository.toJson), ("graph", r.graph.statsJson)] ++ enhanced))]

structure PhasePlan where
  request : PhaseRequest
  analysis : PromptAnalysis
  phases : List Phase
  context : RelevantContext

def PhasePlan.toJson (p : PhasePlan) : Json :=
  .obj [("namespace", .str p.request.nspace), ("user_prompt", .str p.request.prompt),
    ("prompt_analysis", p.analysis.toJson), ("phases", .arr (p.phases.map (·.toJson))),
    ("total_phases", .int p.phases.length), ("context_files_used", .int p.context.total),
    ("context_summary", (p.context.overview 5).toJson)]

structure Preview where
  request : PhaseRequest
  context : RelevantContext

namespace Preview

def fileJson (f : ContextFile) : Json :=
  .obj [("path", .str f.path), ("language", .orNull (f.language.map .str)),
    ("description", .orNull (f.description.map .str)),
    ("similarity", .float (RelevantContext.topFile f).similarity),
    ("content_preview", .str (Text.clip 200 f.content ++ "..."))]

def summaryJson (c : RelevantContext) : Json :=
  let o := c.overview 5
  .obj [("total_files_found", .int o.total), ("languages_found", .strings o.languages),
    ("file_types", .strings o.fileTypes), ("relevant_files", .arr (c.files.map fileJson))]

def toJson (p : Preview) : Json :=
  .obj [("namespace", .str p.request.nspace), ("user_prompt", .str p.request.prompt),
    ("context_summary", summaryJson p.context)]

end Preview

namespace Service

variable {m : Type → Type} [Monad m]

def hidden {α : Type} (publicMessage : String) : Except Failure α → Except Failure α
  | .ok value => .ok value
  | .error _ => .error (.service publicMessage)

/-- The same, but violations of a request are shown. -/
def hiddenUnlessRequest {α : Type} (publicMessage : String) : Except Failure α → Except Failure α
  | .error (.request violations) => .error (.request violations)
  | result => hidden publicMessage result

def find (b : Backend m) (q : Retrieval.Query) :
    m (Except Failure (List (Retrieval.Hit Float))) := do
  match ← b.embed [q.text] with
  | .ok (vector :: _) => b.query q.nspace vector q.topK q.filter
  | .ok [] => return .error (.data .outOfRange)
  | .error failure => return .error failure

def pauseBy (b : Backend m) (unfit : List String) (name : String) (seconds : Float) :
    ExceptT Failure m Unit :=
  ExceptT.mk (guarded unfit [name] (b.pause seconds))

def summaryWorld (settings : SummarySettings) (b : Backend m) :
    Summary.World (ExceptT Failure m) where
  ask request :=
    ExceptT.lift (guarded settings.unfit ["content_chars"] (b.ask (Summary.call settings request)))
  pause why := pauseBy b settings.unfit why.setting (why.seconds settings)
  report _ _ := return ()

def summarize (settings : SummarySettings) (b : Backend m) (files : List FileRecord) :
    ExceptT Failure m (List SummaryResult) :=
  if settings.enabled then
    match Summary.generate (summaryWorld settings b) settings (Summary.requestsFor files) with
    | .ok run => run
    | .error fault => throw (.data fault)
  else return []

def isCached (b : Backend m) (nspace : String) : ExceptT Failure m Bool := do
  return decide (0 < (← ExceptT.mk (b.countRows nspace)))

def survey (b : Backend m) (url branch : String) : ExceptT Failure m Analysis :=
  b.fetcher.withCheckout url branch fun checkout =>
    return .ok (Analysis.ofTree b.parse checkout.tree url branch)

/-- Embeds an analysis and writes its rows. A size of the batches is looked for behind the embedding. -/
def writeRows (c : Configuration) (b : Backend m) (a : Analysis) :
    ExceptT Failure m (Except Failure String) :=
  let embed (texts : List String) : m (Except Failure (List Vector64)) := do
    match ← b.embed texts with
    | .ok vectors => guarded c.store.unfit ["batch_size"] (return .ok vectors)
    | .error failure => return .error failure
  Index.write (fun texts => ExceptT.lift (embed texts))
    (fun nspace rows => ExceptT.lift (b.upsert nspace rows))
    (pauseBy b c.store.unfit "batch_pause" c.store.batchPause) c.store.batchSize
    c.embeddings.perRecord a

def storeIndex (c : Configuration) (b : Backend m) (nspace : String) (a : Analysis)
    (summaries : List SummaryResult) : ExceptT Failure m IndexResult := do
  let wrote ← writeRows c b a
  let _ ← ExceptT.mk (pure wrote)
  return {
    nspace
    graph := DependencyGraph.ofRecords a.files
    cached := false
    repository := a.stats
    enhanced := some (EnhancedStats.of a.files summaries) }

def writeIndex (c : Configuration) (b : Backend m) (nspace : String) (a : Analysis) :
    ExceptT Failure m IndexResult := do
  let enriched := a.files.map (·.enrich)
  let summaries ← summarize c.summaries b enriched
  let full := { a with files := Summary.apply enriched summaries }
  if c.workspace.writeDebugArtifacts then
    ExceptT.mk (b.keepArtifact nspace (full.toJson.indented 0))
  storeIndex c b nspace full summaries

/-- Indexes one branch. Of a repository that is in the store only the graph is made again. -/
def indexBranch (c : Configuration) (b : Backend m) (url branch : String) :
    ExceptT Failure m IndexResult := do
  let nspace := Index.namespaceOf url branch
  ExceptT.mk b.ensureIndex
  let cached ← isCached b nspace
  let a ← survey b url branch
  if cached then
    return { nspace, graph := DependencyGraph.ofRecords a.files, cached, repository := a.stats }
  else writeIndex c b nspace a

def index (c : Configuration) (b : Backend m) (payload : Json) :
    m (Except Failure IndexResult) := do
  match Request.validate Request.index payload with
  | .error failure => return .error failure
  | .ok r =>
    return hiddenUnlessRequest "Failed to index repository" (← (indexBranch c b r.repoUrl r.branch).run)

def search (b : Backend m) (payload : Json) : m (Except Failure (List SearchHit)) := do
  match Request.validate Request.search payload with
  | .error failure => return .error failure
  | .ok r =>
    let nspace := Index.namespaceOf r.repoUrl r.branch
    return hidden "Search failed" (← Index.search (find b) nspace r.query r.limit)

def given (s : Option String) (other : String) : String :=
  match s with
  | some s => if s.isEmpty then other else s
  | none => other

/-- The files that are relevant to a goal: none if a setting for the search cannot be used. -/
def contextFor (c : Configuration) (b : Backend m) (nspace query kind : String) : m RelevantContext :=
  let names := RetrievalSettings.kinds.map (·.1)
  Retrieval.findContext
    (fun q => do
      let found ← find b q
      guarded c.retrieval.unfit names (return found))
    c.retrieval nspace query kind none

def phases (c : Configuration) (b : Backend m) (payload : Json) (strategy : Option String) :
    m (Except Failure PhasePlan) := do
  match Request.validate Request.phases payload with
  | .error failure => return .error failure
  | .ok r =>
    let analysis := Planning.analyzePrompt r.prompt
    let context ← contextFor c b r.nspace r.prompt (given r.contextKind analysis.kind)
    let unfitName := if (given strategy "").isEmpty then ["strategy"] else []
    let phases ← guarded c.planner.unfit unfitName
      (Planning.generatePhases c.planner (some b.ask) r.prompt context (some analysis) strategy)
    let capped ← guarded c.planner.unfit ["max_phases"] (return phases)
    return hidden "Failed to generate phases" (capped.map fun phases => ⟨r, analysis, phases, context⟩)

def preview (c : Configuration) (b : Backend m) (payload : Json) : m (Except Failure Preview) := do
  match Request.validate Request.phases payload with
  | .error failure => return .error failure
  | .ok r =>
    return .ok ⟨r, ← contextFor c b r.nspace r.prompt (given r.contextKind "improvement")⟩

def plan (c : Configuration) (b : Backend m) (payload : Json) :
    m (Except Failure DetailedPlan) := do
  match Request.validate Request.plan payload with
  | .error failure => return .error failure
  | .ok r =>
    return hidden PlanningFault.publicMessage
      (← Planning.expandPhase c.planner (contextFor c b r.nspace) b.ask r.phase
        (r.files.map (·.toJson)))

def analyzeFolder (parse : Parser) (root : FilePath) (tree : Option FileTree) :
    Except Failure Analysis :=
  match tree with
  | some (.folder entries) =>
    let a := Analysis.ofTree parse (.folder entries) root.text "local"
    .ok { a with files := a.files.map (·.enrich) }
  | _ => .error (.service "Failed to analyze directory")

def promptJson (prompt : String) : Json :=
  .obj [("user_prompt", .str prompt), ("analysis", (Planning.analyzePrompt prompt).toJson)]

end Service

end Groundwork
