import Groundwork.Completion.Provider
import Groundwork.FilePath
import Groundwork.Toml.Reader
import Groundwork.Toml.Writer

/-!
The configuration: settings by section, taken from the environment, else from a file, else from the
defaults. A value of the file is kept as it is; what it means shows where it is used.
-/

namespace Groundwork

abbrev Environment := List (String × String)

def Environment.value? (env : Environment) (name : String) : Option String :=
  (List.lookup name env).filter (!·.isEmpty)

def Environment.names : List String :=
  ["VIBEPLAN_HOME", "VIBEPLAN_LLM_PROVIDER", "VIBEPLAN_LLM_MODEL", "GROQ_API_KEY",
    "OPENAI_API_KEY", "OPENROUTER_API_KEY"]

structure Configuration where
  home : FilePath
  sections : List (String × Json.Members)

namespace Configuration

def defaultSections : List (String × Json.Members) :=
  [("llm", ({} : LlmSettings).toMembers), ("embeddings", ({} : EmbeddingSettings).toMembers),
    ("store", ({} : StoreSettings).toMembers), ("summaries", ({} : SummarySettings).toMembers),
    ("retrieval", ({} : RetrievalSettings).toMembers),
    ("planner", ({} : PlannerSettings).toMembers),
    ("workspace", ({} : WorkspaceSettings).toMembers)]

def membersOf (c : Configuration) (name : String) : Json.Members := (c.sections.lookup name).getD []

def field (c : Configuration) (part name : String) : Json :=
  ((c.membersOf part).lookup name).getD .null

def overlay (given known : Json.Members) : Json.Members :=
  known.map fun (name, default) => (name, (given.lookup name).getD default)

def sectionOf (document : Json.Members) (name : String) (defaults : Json.Members) :
    Except Failure (String × Json.Members) :=
  match document.lookup name with
  | none => .ok (name, defaults)
  | some (.obj given) => .ok (name, overlay given defaults)
  | some _ => .error (.config (.notATable name))

def set (c : Configuration) (part name : String) (value : Json) : Configuration :=
  { c with sections := c.sections.map fun (n, members) =>
      if n = part then (n, Json.setMember name value members) else (n, members) }

def setText (c : Configuration) (part name : String) : Option String → Configuration
  | some s => c.set part name (.str s)
  | none => c

def keyVariables : List (String × String) :=
  [("groq", "GROQ_API_KEY"), ("openai", "OPENAI_API_KEY"), ("openrouter", "OPENROUTER_API_KEY")]

/-- The variable for the key of a provider. A list or a table cannot name one. -/
def keyVariable : Json → Except DataFault (Option String)
  | .str provider => .ok (keyVariables.lookup provider)
  | .arr _ => .error .wrongKind
  | .obj _ => .error .wrongKind
  | _ => .ok none

def embedsRemotely (c : Configuration) : Bool :=
  match c.field "embeddings" "provider" with
  | .str provider => provider == "openai"
  | _ => false

def applyEnvironment (env : Environment) (c : Configuration) : Except Failure Configuration := do
  let c := (c.setText "llm" "provider" (env.value? "VIBEPLAN_LLM_PROVIDER")).setText "llm" "model"
    (env.value? "VIBEPLAN_LLM_MODEL")
  let keyName ← (keyVariable (c.field "llm" "provider")).mapError .data
  let c := c.setText "llm" "api_key" (keyName.bind env.value?)
  if c.embedsRemotely then return c.setText "embeddings" "api_key" (env.value? "OPENAI_API_KEY")
  else return c

/-- The dimension of remote embeddings where the general default stands. -/
def remoteDimension : Int := 1536

def isDefaultDimension : Json → Bool
  | .int n => n == 256
  | .float x => x == 256.0
  | _ => false

def fitDimension (c : Configuration) : Configuration :=
  if c.embedsRemotely && isDefaultDimension (c.field "embeddings" "dim") then
    c.set "embeddings" "dim" (.int remoteDimension)
  else c

def ofDocument (home : FilePath) (document : Json.Members) (env : Environment) :
    Except Failure Configuration := do
  let sections ← defaultSections.mapM fun (name, defaults) => sectionOf document name defaults
  return (← applyEnvironment env { home, sections }).fitDimension

def readDocument (file : FilePath) : Option String → Except Failure Json.Members
  | none => .ok []
  | some text =>
    match Toml.read text with
    | .ok document => .ok document
    | .error .malformed => .error (.config (.unreadable file.text))
    | .error (.clash fault) => .error (.data fault)

def load (file : FilePath) (text : Option String) (env : Environment) :
    Except Failure Configuration :=
  (readDocument file text).bind fun document => ofDocument file.parent document env

structure ProviderChoice where
  provider : String
  model : String
  apiKey : String := ""
  endpoint : String := ""

def ProviderChoice.toMembers (p : ProviderChoice) : Json.Members :=
  [("provider", .str p.provider), ("model", .str p.model)] ++
    (if p.apiKey.isEmpty then [] else [("api_key", .str p.apiKey)]) ++
    (if p.endpoint.isEmpty then [] else [("endpoint", .str p.endpoint)])

def choose (file : FilePath) (text : Option String) (p : ProviderChoice) :
    Except Failure String :=
  (readDocument file text).map fun document =>
    Toml.write (Json.setMember "llm" (.obj p.toMembers) document)

def llm (c : Configuration) : LlmSettings := .ofMembers (c.membersOf "llm")
def embeddings (c : Configuration) : EmbeddingSettings := .ofMembers (c.membersOf "embeddings")
def store (c : Configuration) : StoreSettings := .ofMembers (c.membersOf "store")
def summaries (c : Configuration) : SummarySettings := .ofMembers (c.membersOf "summaries")
def retrieval (c : Configuration) : RetrievalSettings := .ofMembers (c.membersOf "retrieval")
def planner (c : Configuration) : PlannerSettings := .ofMembers (c.membersOf "planner")
def workspace (c : Configuration) : WorkspaceSettings := .ofMembers (c.membersOf "workspace")

def orDefaultOf (c : Configuration) (name : String) (defaults : List (String × String))
    (other : String) : Json :=
  let value := c.field "llm" name
  if value.truthy then value
  else match c.field "llm" "provider" with
    | .str provider => .str ((defaults.lookup provider).getD other)
    | _ => .str other

def resolvedModel (c : Configuration) : Json :=
  c.orDefaultOf "model" Completion.defaultModels Completion.groqModel

def resolvedEndpoint (c : Configuration) : Json :=
  c.orDefaultOf "endpoint" Completion.defaultEndpoints Completion.groqEndpoint

/-- A path of the configuration; `~` as its first part stands for the home of the user. -/
def expand (userHome : FilePath) (path : String) : Except Failure FilePath :=
  let p := FilePath.ofText path
  match p.root.isEmpty, p.parts with
  | true, first :: rest =>
    if first = "~" then .ok { userHome with parts := userHome.parts ++ rest }
    else if Text.startsWith first "~" then
      .error (.data .unresolved)
    else .ok p
  | _, _ => .ok p

def defaultFile (env : Environment) (userHome : FilePath) : Except Failure FilePath := do
  let home ← match List.lookup "VIBEPLAN_HOME" env with
    | some path => expand userHome path
    | none => pure (userHome.append (.ofText ".vibeplan"))
  return home.append (.ofText "config.toml")

def folder (c : Configuration) (userHome : FilePath) (part name default : String) :
    Except Failure FilePath :=
  match c.field part name with
  | .str path =>
    if path.isEmpty then .ok (c.home.append (.ofText default)) else expand userHome path
  | value =>
    if value.truthy then .error (.data .wrongKind) else .ok (c.home.append (.ofText default))

def storePath (c : Configuration) (userHome : FilePath) : Except Failure FilePath :=
  c.folder userHome "store" "path" "lancedb"

def clonePath (c : Configuration) (userHome : FilePath) : Except Failure FilePath :=
  c.folder userHome "workspace" "clone_dir" "repos"

def neededFolders (c : Configuration) (userHome : FilePath) : Except Failure (List FilePath) := do
  let last := [c.home, ← c.storePath userHome, ← c.clonePath userHome]
  return Text.distinct (last.flatMap FilePath.withFoldersAbove)

end Configuration

end Groundwork
