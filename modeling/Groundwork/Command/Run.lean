import Groundwork.Command.Basic
import Groundwork.Command.Screen
import Groundwork.Graph.Export
import Groundwork.Service

/-!
Running commands. A command ends by showing something, by refusing with a message, by rejecting a
request with every violation, or because its command line makes no sense. Any other failure breaks
it off.
-/

namespace Groundwork.Command

/-- What commands work with. Paths without a root are taken from the working folder. -/
structure World (m : Type → Type) where
  files : Files m
  environment : Environment
  userHome : FilePath
  workingFolder : FilePath
  defaultConfig : FilePath
  parse : Parser
  fetcher : Fetcher m
  send : HttpRequest → m HttpOutcome
  pause : Float → m (Except Failure Unit)
  loadStore : FilePath → m Store
  keepStore : FilePath → Store → m Unit

inductive Stop where
  | refused (message : String)
  | invalid (violations : List String)
  | misused (why : Misuse)
  | broken (failure : Failure)

variable {m : Type → Type} [Monad m]

def orBroken {α : Type} (r : Except Failure α) : ExceptT Stop m α :=
  ExceptT.mk (pure (r.mapError .broken))

def orStop {α : Type} (r : Except Failure α) : ExceptT Stop m α :=
  ExceptT.mk <| pure <| r.mapError fun
    | .request violations => .invalid violations
    | .service message => .refused message
    | failure => .broken failure

def orRefused {α : Type} (r : Except Failure α) : ExceptT Stop m α :=
  ExceptT.mk <| pure <| r.mapError fun
    | .config fault => .refused fault.message
    | failure => .broken failure

def unreadableConfig (file : FilePath) : Stop := .refused (ConfigFault.unreadable file.text).message

def configText (w : World m) (file : FilePath) : ExceptT Stop m (Option String) := do
  match ← ExceptT.lift (w.files.at? file) with
  | some (.file content) =>
    match content.text? with
    | some text => return some text
    | none => throw (if content.isReadable then .broken (.data .badText) else unreadableConfig file)
  | some (.folder _) => throw (unreadableConfig file)
  | _ => return none

def configFileOf (w : World m) (i : Invocation) : FilePath := i.configFile.getD w.defaultConfig

def configuration (w : World m) (i : Invocation) : ExceptT Stop m Configuration := do
  let file := configFileOf w i
  let text ← configText w file
  orRefused (Configuration.load file text w.environment)

def outside (w : World m) (c : Configuration) : Outside m where
  parse := w.parse
  fetcher := w.fetcher
  send := w.send
  ask := (Completion.Provider.ofSettings c.llm).complete w.send
  pause := w.pause
  files := w.files

/-- Names of providers are compared in lower case, which only a text has. -/
def namesProviders (c : Configuration) : Except Failure Unit :=
  if c.embeddings.unfit.contains "provider" || c.llm.unfit.contains "provider" then
    .error (.data .noMember)
  else .ok ()

def checkName (path : FilePath) : Except Failure Unit :=
  if path.text.contains '\x00' then .error (.data .badValue) else .ok ()

def prepare (w : World m) (i : Invocation) : ExceptT Stop m (Configuration × FilePath) := do
  let c ← configuration w i
  let folder ← orBroken (c.storePath w.userHome)
  orBroken (checkName folder)
  match ← ExceptT.lift (w.files.makeFolder folder) with
  | .error _ => throw (.refused "Cannot prepare storage")
  | .ok () =>
    orBroken (namesProviders c)
    let _ ← orBroken (c.clonePath w.userHome)
    return (c, folder)

def served {α : Type} (w : World m) (i : Invocation)
    (action : Configuration → Backend (StateT Store m) → StateT Store m (Except Failure α)) :
    ExceptT Stop m α := do
  let (c, folder) ← prepare w i
  let store ← ExceptT.lift (w.loadStore folder)
  let (result, changed) ← ExceptT.lift
    ((action c ((outside w c).backend c)).run { store with index := c.store.indexName })
  ExceptT.lift (w.keepStore folder changed)
  orStop result

def orDash (texts : String) : String := if texts.isEmpty then "-" else texts

def statsTable (s : EnhancedStats) : Block :=
  .table (some "Analysis") ["Metric", "Value"] <|
    (s.priorities.map fun (grade, count) => [grade.name ++ " priority files", toString count]) ++
    [["AI summaries", toString s.generated ++ " ok / " ++ toString s.failed ++ " failed"],
      ["Issues", toString s.totalIssues], ["Top tags", Text.join ", " s.topTags]]

def indexBlocks (r : IndexResult) : List Block :=
  let status := if r.cached then "already indexed (graph rebuilt)" else "indexed"
  let lines :=
    ["Namespace: [cyan]" ++ r.nspace ++ "[/cyan]", "Status: " ++ status,
      "Files: " ++ toString r.graph.nodes.length ++ " | Dependencies: " ++
        toString r.graph.edges.length,
      "Languages: " ++ orDash (Text.join ", " r.graph.languages),
      "Entry points: " ++ toString r.graph.entryPoints.length]
  .panel "✅ Repository" (Text.join "\n" lines) :: (r.enhanced.map statsTable).toList

def hitRow (h : SearchHit) : List String :=
  let shown (name : String) : String := ((h.metadata.lookup name).getD (.str "")).shown
  [Decimal.fixed 3 h.score, shown "type", orDash (shown "filePath"), Text.clip 80 h.preview]

def phaseBlock (p : Phase) : Block :=
  let dependencies :=
    if p.dependencies.isEmpty then "none" else Text.join ", " p.dependencies
  let files :=
    if p.relevantFiles.isEmpty then "  (no files)"
    else Text.join "\n" (p.relevantFiles.map ("  • " ++ ·))
  .panel (p.id ++ ": " ++ p.title)
    (p.description ++ "\n\n[dim]Files:[/dim]\n" ++ files ++ "\n[dim]Depends on: " ++
      dependencies ++ " | " ++ p.category.shown ++ " | complexity " ++ p.complexity.shown ++
      " | priority " ++ p.priority.shown ++ "[/dim]")

def phasesBlocks (p : PhasePlan) : List Block :=
  .styled ("[bold]Query type:[/bold] " ++ p.analysis.kind ++ "  [bold]Complexity:[/bold] " ++
    p.analysis.complexity ++ "  [bold]Context files:[/bold] " ++ toString p.context.total) ::
  p.phases.map phaseBlock

def previewRow (f : ContextFile) : List String :=
  let language := match f.language with
    | some language => orDash language
    | none => "-"
  [Decimal.fixed 2 (RelevantContext.topFile f).similarity, f.path, language,
    Text.clip 80 (f.description.getD "")]

def previewBlock (p : Preview) : Block :=
  .table (some (toString p.context.total ++ " files"))
    ["Similarity", "File", "Language", "Description"] (p.context.files.map previewRow)

def memberLine : String × Json → Block
  | (name, .arr items) =>
    .styled ("[cyan]" ++ name ++ "[/cyan]: " ++ Text.join ", " (items.map (·.shown)))
  | (name, value) => .styled ("[cyan]" ++ name ++ "[/cyan]: " ++ value.shown)

def analysisBlocks (prompt : String) : List Block :=
  match (Planning.analyzePrompt prompt).toJson with
  | .obj members => members.map memberLine
  | _ => []

def masked : String × Json → Except Failure (String × Json)
  | ("api_key", .str key) =>
    .ok ("api_key", .str (if key.isEmpty then key else Text.clip 4 key ++ "…"))
  | ("api_key", value) => if value.truthy then .error (.data .wrongKind) else .ok ("api_key", value)
  | member => .ok member

def settingsRows (sections : List (String × Json.Members)) : List (List String) :=
  sections.flatMap fun (part, members) =>
    members.map fun (name, value) => [part ++ "." ++ name, value.shown]

def showConfiguration (w : World m) (i : Invocation) : ExceptT Stop m (List Block) := do
  let c ← configuration w i
  let sections ← orBroken <| c.sections.mapM fun (part, members) => do
    return (part, ← members.mapM masked)
  let home := c.home.text
  if i.asJson then
    return [.document (.obj (("home", .str home) ::
      sections.map fun (part, members) => (part, .obj members)))]
  else return [.table none ["Setting", "Value"] (["home", home] :: settingsRows sections)]

def chooseProvider (w : World m) (i : Invocation) (provider : String)
    (model apiKey endpoint : Option String) : ExceptT Stop m (List Block) := do
  let names := Completion.defaultModels.map (·.1)
  let name := Text.strip (Text.lower provider)
  if !names.contains name then
    throw (.refused ("Unknown provider '" ++ name ++ "'. Choose from: " ++ Text.join ", " names))
  let model := Service.given model ((Completion.defaultModels.lookup name).getD "")
  let file := configFileOf w i
  let text ← configText w file
  let changed ← orRefused (Configuration.choose file text
    ⟨name, model, apiKey.getD "", endpoint.getD ""⟩)
  orBroken ((← ExceptT.lift (w.files.makeFolder file.parent)).mapError .file)
  orBroken ((← ExceptT.lift (w.files.write file changed)).mapError .file)
  return [.line ("✅ LLM provider set to: " ++ name),
    .line ("  Model:  " ++ if model.isEmpty then "(default)" else model),
    .line ("  Config: " ++ file.text)]

def exportGraph (w : World m) (i : Invocation) (folder : FilePath) (format : String)
    (output : Option FilePath) (focus : String) : ExceptT Stop m (List Block) := do
  let tree ← ExceptT.lift (w.files.at? folder)
  match tree with
  | some (.folder _) => pure ()
  | _ => throw (.misused (.badValue folder.text))
  let format := Text.lower format
  if !(["json", "dot"].contains format) then throw (.misused (.badValue format))
  let _ ← prepare w i
  let root := (w.workingFolder.append folder).collapse
  let a ← orStop (Service.analyzeFolder w.parse root tree)
  let g := DependencyGraph.ofRecords a.files
  let file := output.getD (w.workingFolder.append (.ofText (root.name ++ "_graph." ++ format)))
  let text := if format = "dot" then Graph.toDot g focus else Graph.toJsonText g focus
  orBroken ((← ExceptT.lift (w.files.write file text)).mapError .file)
  let cycles := if g.unresolved.isEmpty then []
    else [Block.line ("Files in import cycles: " ++ toString g.unresolved.length)]
  return [.line ("Exported graph to " ++ file.text),
    .line ("Files: " ++ toString g.nodes.length ++ " | Dependencies: " ++
      toString g.edges.length)] ++ cycles

def phaseOfFile (w : World m) (file : FilePath) : ExceptT Stop m Json := do
  match ← ExceptT.lift (w.files.at? file) with
  | some (.file content) =>
    match content.text?.bind Json.ofText? with
    | some phase => return phase
    | none => throw (.misused (.badValue file.text))
  | _ => throw (.misused (.badValue file.text))

def ownReferences (phase : Json) : Except Failure (List Json) :=
  let reference (path : Json) : Json :=
    .obj [("path", path), ("language", .null), ("similarity", .float 1.0)]
  match phase with
  | .obj members =>
    match members.lookup "relevantFiles" with
    | none => .ok []
    | some (.arr paths) => .ok ((paths.take 20).map reference)
    | some (.str s) => .ok ((s.toList.take 20).map fun c => reference (.str (String.ofList [c])))
    | some _ => .error (.data .wrongKind)
  | _ => .error (.data .noMember)

def expand (w : World m) (i : Invocation) (nspace : String) (phaseFile : FilePath)
    (files : List String) : ExceptT Stop m (List Block) := do
  let phase ← phaseOfFile w phaseFile
  let given ← ExceptT.mk (pure ((files.mapM FileReference.ofText).mapError .misused))
  let references ← if given.isEmpty then orBroken (ownReferences phase)
    else pure (given.map (·.toJson))
  let payload : Json := .obj [("namespace", .str nspace), ("phase", phase),
    ("top_relevant_files", .arr references)]
  let plan ← served w i fun c b => Service.plan c b payload
  if i.asJson then return [.document plan.toJson]
  else return [.panel "Instruction" plan.instruction, .line plan.plan]

def goal (nspace prompt : String) (kind : Option String) : Json :=
  .obj [("namespace", .str nspace), ("user_prompt", .str prompt),
    ("context_type", .orNull (kind.map .str))]

def blocks (w : World m) (i : Invocation) : ExceptT Stop m (List Block) :=
  let shown {α : Type} (toJson : α → Json) (toBlocks : α → List Block) (value : α) : List Block :=
    if i.asJson then [.document (toJson value)] else toBlocks value
  match i.command with
  | version => return [.line "vibeplan v0.3.0"]
  | index url branch => do
    let payload : Json := .obj [("repo_url", .str url), ("branch", .str branch)]
    return shown (·.toJson) indexBlocks (← served w i fun c b => Service.index c b payload)
  | search url query branch limit => do
    let payload : Json := .obj [("repo_url", .str url), ("branch", .str branch),
      ("query", .str query), ("limit", .int limit)]
    let toBlocks (hits : List SearchHit) : List Block :=
      if hits.isEmpty then [.line "No matches found."]
      else [.table none ["Score", "Type", "File", "Preview"] (hits.map hitRow)]
    return shown (fun hits => .arr (hits.map (·.toJson))) toBlocks
      (← served w i fun _ b => Service.search b payload)
  | phases nspace prompt kind strategy => do
    return shown (·.toJson) phasesBlocks
      (← served w i fun c b => Service.phases c b (goal nspace prompt kind) strategy)
  | plan nspace phaseFile files => expand w i nspace phaseFile files
  | context nspace prompt kind => do
    return shown (·.toJson) (fun p => [previewBlock p])
      (← served w i fun c b => Service.preview c b (goal nspace prompt kind))
  | analyzePrompt prompt => return shown Service.promptJson analysisBlocks prompt
  | graph folder format output focus => exportGraph w i folder format output focus
  | setLlm provider model apiKey endpoint => chooseProvider w i provider model apiKey endpoint
  | showConfig => showConfiguration w i

structure Outcome where
  exitCode : Nat
  output : String := ""
  errors : Option String := none
  crash : Option Failure := none

namespace Outcome

def rendered : List Block → String × Bool
  | [] => ("", true)
  | block :: rest =>
    match block.text? with
    | none => ("", false)
    | some text =>
      let (last, complete) := rendered rest
      (text ++ last, complete)

def crashed (output : String) (failure : Failure) : Outcome :=
  ⟨1, output, some "", some failure⟩

def reported (exitCode : Nat) (lines : List String) : Outcome :=
  match lines.mapM Markup.plain? with
  | some plain => ⟨exitCode, "", some (Block.ofLines plain), none⟩
  | none => crashed "" (.data .badMarkup)

def ofResult : Except Stop (List Block) → Outcome
  | .ok shown =>
    match rendered shown with
    | (text, true) => { exitCode := 0, output := text }
    | (text, false) => crashed text (.data .badMarkup)
  | .error (.refused message) => reported 1 ["[red]❌ " ++ message ++ "[/red]"]
  | .error (.invalid violations) =>
    reported 2 ("[red]❌ Invalid request:[/red]" :: violations.map ("  - " ++ ·))
  | .error (.misused _) => { exitCode := 2 }
  | .error (.broken failure) => crashed "" failure

end Outcome

def run (w : World m) (args : List String) : m Outcome := do
  match Invocation.read args with
  | .error why => return .ofResult (.error (.misused why))
  | .ok i => return .ofResult (← (blocks w i).run)

end Groundwork.Command
