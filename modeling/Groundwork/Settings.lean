import Groundwork.Failure
import Groundwork.Json.Value

/-!
Settings of the stages and their defaults. What is only handed on to a collaborator stays as it was
written, since a whole number and a double are written differently in a request. A value that cannot be
used for what it is given for is noted, and the stage that needs it fails.
-/

namespace Groundwork

namespace Json

def textOr (default : String) : Option Json → String
  | some value => value.shown
  | none => default

/-- The text of a value that counts as true, otherwise none. -/
def markOr (default : String) : Option Json → String
  | some value => if value.truthy then value.shown else ""
  | none => default

def intOr (default : Int) : Option Json → Int
  | some (int n) => n
  | some (bool b) => if b then 1 else 0
  | _ => default

def floatOr (default : Float) : Option Json → Float
  | some (float x) => x
  | some (int n) => Decimal.toFloat (n < 0) n.natAbs 0
  | some (bool b) => if b then 1.0 else 0.0
  | _ => default

def flagOr (default : Bool) : Option Json → Bool
  | some value => value.truthy
  | none => default

end Json

/-- What a setting has to be where it is used. Any value can be a flag or be handed on. -/
inductive SettingKind where
  | text
  | whole
  | number

def SettingKind.admits : SettingKind → Json → Bool
  | text, .str _ => true
  | whole, .int _ => true
  | whole, .bool _ => true
  | number, .int _ => true
  | number, .bool _ => true
  | number, .float _ => true
  | _, _ => false

def unfitAmong (kinds : List (String × SettingKind)) (m : Json.Members) : List String :=
  (kinds.filter fun (name, kind) => (m.lookup name).any fun value => !kind.admits value).map (·.1)

def needed (unfit names : List String) : Except DataFault Unit :=
  if names.any unfit.contains then .error .wrongKind else .ok ()

def guarded {m : Type → Type} [Monad m] {α : Type} (unfit names : List String)
    (work : m (Except Failure α)) : m (Except Failure α) :=
  match needed unfit names with
  | .ok () => work
  | .error fault => return .error (.data fault)

structure LlmSettings where
  provider : String := "groq"
  model : Json := .str ""
  apiKey : String := ""
  endpoint : String := ""
  timeout : Json := .float 60.0
  unfit : List String := []

namespace LlmSettings

def kinds : List (String × SettingKind) := [("provider", .text)]

def toMembers (s : LlmSettings) : Json.Members :=
  [("provider", .str s.provider), ("model", s.model), ("api_key", .str s.apiKey),
    ("endpoint", .str s.endpoint), ("timeout", s.timeout)]

def ofMembers (m : Json.Members) : LlmSettings :=
  let base : LlmSettings := {}
  { provider := Json.textOr base.provider (m.lookup "provider")
    model := (m.lookup "model").getD base.model
    apiKey := Json.markOr base.apiKey (m.lookup "api_key")
    endpoint := Json.markOr base.endpoint (m.lookup "endpoint")
    timeout := (m.lookup "timeout").getD base.timeout
    unfit := unfitAmong kinds m }

end LlmSettings

structure EmbeddingSettings where
  provider : String := "hash"
  model : Json := .str "text-embedding-3-small"
  dimension : Int := 256
  apiKey : String := ""
  endpoint : String := "https://api.openai.com/v1/embeddings"
  timeout : Json := .float 30.0
  perRecord : Bool := true
  unfit : List String := []

namespace EmbeddingSettings

def kinds : List (String × SettingKind) := [("provider", .text), ("dim", .whole)]

def toMembers (s : EmbeddingSettings) : Json.Members :=
  [("provider", .str s.provider), ("model", s.model), ("dim", .int s.dimension),
    ("api_key", .str s.apiKey), ("endpoint", .str s.endpoint), ("timeout", s.timeout),
    ("per_record", .bool s.perRecord)]

def ofMembers (m : Json.Members) : EmbeddingSettings :=
  let base : EmbeddingSettings := {}
  { provider := Json.textOr base.provider (m.lookup "provider")
    model := (m.lookup "model").getD base.model
    dimension := Json.intOr base.dimension (m.lookup "dim")
    apiKey := Json.markOr base.apiKey (m.lookup "api_key")
    endpoint := Json.textOr base.endpoint (m.lookup "endpoint")
    timeout := (m.lookup "timeout").getD base.timeout
    perRecord := Json.flagOr base.perRecord (m.lookup "per_record")
    unfit := unfitAmong kinds m }

end EmbeddingSettings

structure StoreSettings where
  path : String := ""
  indexName : String := "vibeplan"
  batchSize : Int := 50
  batchPause : Float := 0.5
  readyAttempts : Int := 30
  readyInterval : Float := 1.0
  unfit : List String := []

namespace StoreSettings

def kinds : List (String × SettingKind) :=
  [("index_name", .text), ("batch_size", .whole), ("batch_pause", .number),
    ("ready_attempts", .whole), ("ready_interval", .number)]

def toMembers (s : StoreSettings) : Json.Members :=
  [("path", .str s.path), ("index_name", .str s.indexName), ("batch_size", .int s.batchSize),
    ("batch_pause", .float s.batchPause), ("ready_attempts", .int s.readyAttempts),
    ("ready_interval", .float s.readyInterval)]

def ofMembers (m : Json.Members) : StoreSettings :=
  let base : StoreSettings := {}
  { path := Json.textOr base.path (m.lookup "path")
    indexName := Json.textOr base.indexName (m.lookup "index_name")
    batchSize := Json.intOr base.batchSize (m.lookup "batch_size")
    batchPause := Json.floatOr base.batchPause (m.lookup "batch_pause")
    readyAttempts := Json.intOr base.readyAttempts (m.lookup "ready_attempts")
    readyInterval := Json.floatOr base.readyInterval (m.lookup "ready_interval")
    unfit := unfitAmong kinds m }

end StoreSettings

/-- A number as it was written, whole or not. -/
inductive Amount where
  | whole (n : Int)
  | double (x : Float)

instance (n : Nat) : OfNat Amount n := ⟨.whole n⟩

namespace Amount

def toJson : Amount → Json
  | whole n => .int n
  | double x => .float x

def ofJson (default : Int) : Option Json → Amount
  | some (.float x) => double x
  | value => whole (Json.intOr default value)

end Amount

structure SummarySettings where
  enabled : Bool := true
  concurrency : Amount := 3
  rateLimitDelay : Float := 20.0
  maxTokensPerMinute : Int := 5500
  estimatedTokensPerRequest : Int := 600
  parallelMaxFiles : Int := 7
  interCallDelay : Float := 1.0
  rateLimitCooldown : Float := 120.0
  contentChars : Int := 3000
  model : Json := .str "llama-3.1-8b-instant"
  temperature : Json := .float 0.3
  maxTokens : Json := .int 150
  unfit : List String := []

namespace SummarySettings

def kinds : List (String × SettingKind) :=
  [("concurrency", .number), ("rate_limit_delay", .number), ("max_tokens_per_minute", .whole),
    ("estimated_tokens_per_request", .whole), ("parallel_max_files", .whole),
    ("inter_call_delay", .number), ("rate_limit_cooldown", .number), ("content_chars", .whole)]

def toMembers (s : SummarySettings) : Json.Members :=
  [("enabled", .bool s.enabled), ("concurrency", s.concurrency.toJson),
    ("rate_limit_delay", .float s.rateLimitDelay),
    ("max_tokens_per_minute", .int s.maxTokensPerMinute),
    ("estimated_tokens_per_request", .int s.estimatedTokensPerRequest),
    ("parallel_max_files", .int s.parallelMaxFiles),
    ("inter_call_delay", .float s.interCallDelay),
    ("rate_limit_cooldown", .float s.rateLimitCooldown), ("content_chars", .int s.contentChars),
    ("model", s.model), ("temperature", s.temperature), ("max_tokens", s.maxTokens)]

def ofMembers (m : Json.Members) : SummarySettings :=
  let base : SummarySettings := {}
  { enabled := Json.flagOr base.enabled (m.lookup "enabled")
    concurrency := .ofJson 3 (m.lookup "concurrency")
    rateLimitDelay := Json.floatOr base.rateLimitDelay (m.lookup "rate_limit_delay")
    maxTokensPerMinute := Json.intOr base.maxTokensPerMinute (m.lookup "max_tokens_per_minute")
    estimatedTokensPerRequest :=
      Json.intOr base.estimatedTokensPerRequest (m.lookup "estimated_tokens_per_request")
    parallelMaxFiles := Json.intOr base.parallelMaxFiles (m.lookup "parallel_max_files")
    interCallDelay := Json.floatOr base.interCallDelay (m.lookup "inter_call_delay")
    rateLimitCooldown := Json.floatOr base.rateLimitCooldown (m.lookup "rate_limit_cooldown")
    contentChars := Json.intOr base.contentChars (m.lookup "content_chars")
    model := (m.lookup "model").getD base.model
    temperature := (m.lookup "temperature").getD base.temperature
    maxTokens := (m.lookup "max_tokens").getD base.maxTokens
    unfit := unfitAmong kinds m }

end SummarySettings

structure RetrievalSettings where
  topK : Int := 10
  minSimilarity : Float := 0.1
  contentChars : Int := 1500
  unfit : List String := []

namespace RetrievalSettings

def kinds : List (String × SettingKind) :=
  [("top_k", .whole), ("min_similarity", .number), ("content_chars", .whole)]

def toMembers (s : RetrievalSettings) : Json.Members :=
  [("top_k", .int s.topK), ("min_similarity", .float s.minSimilarity),
    ("content_chars", .int s.contentChars)]

def ofMembers (m : Json.Members) : RetrievalSettings :=
  let base : RetrievalSettings := {}
  { topK := Json.intOr base.topK (m.lookup "top_k")
    minSimilarity := Json.floatOr base.minSimilarity (m.lookup "min_similarity")
    contentChars := Json.intOr base.contentChars (m.lookup "content_chars")
    unfit := unfitAmong kinds m }

end RetrievalSettings

structure PlannerSettings where
  strategy : String := "rules"
  maxPhases : Int := 7
  fallbackToRules : Bool := true
  temperature : Json := .float 0.3
  maxTokens : Json := .int 4096
  planTemperature : Json := .float 0.5
  planMaxTokens : Json := .int 8000
  unfit : List String := []

namespace PlannerSettings

def kinds : List (String × SettingKind) := [("strategy", .text), ("max_phases", .whole)]

def toMembers (s : PlannerSettings) : Json.Members :=
  [("strategy", .str s.strategy), ("max_phases", .int s.maxPhases),
    ("fallback_to_rules", .bool s.fallbackToRules), ("temperature", s.temperature),
    ("max_tokens", s.maxTokens), ("plan_temperature", s.planTemperature),
    ("plan_max_tokens", s.planMaxTokens)]

def ofMembers (m : Json.Members) : PlannerSettings :=
  let base : PlannerSettings := {}
  { strategy := Json.textOr base.strategy (m.lookup "strategy")
    maxPhases := Json.intOr base.maxPhases (m.lookup "max_phases")
    fallbackToRules := Json.flagOr base.fallbackToRules (m.lookup "fallback_to_rules")
    temperature := (m.lookup "temperature").getD base.temperature
    maxTokens := (m.lookup "max_tokens").getD base.maxTokens
    planTemperature := (m.lookup "plan_temperature").getD base.planTemperature
    planMaxTokens := (m.lookup "plan_max_tokens").getD base.planMaxTokens
    unfit := unfitAmong kinds m }

end PlannerSettings

structure WorkspaceSettings where
  cloneFolder : String := ""
  keepClones : Bool := false
  cloneTimeout : Json := .float 300.0
  writeDebugArtifacts : Bool := false

namespace WorkspaceSettings

def toMembers (s : WorkspaceSettings) : Json.Members :=
  [("clone_dir", .str s.cloneFolder), ("keep_clones", .bool s.keepClones),
    ("clone_timeout", s.cloneTimeout), ("write_debug_artifacts", .bool s.writeDebugArtifacts)]

def ofMembers (m : Json.Members) : WorkspaceSettings :=
  let base : WorkspaceSettings := {}
  { cloneFolder := Json.textOr base.cloneFolder (m.lookup "clone_dir")
    keepClones := Json.flagOr base.keepClones (m.lookup "keep_clones")
    cloneTimeout := (m.lookup "clone_timeout").getD base.cloneTimeout
    writeDebugArtifacts := Json.flagOr base.writeDebugArtifacts (m.lookup "write_debug_artifacts") }

end WorkspaceSettings

end Groundwork
