import Groundwork.Completion.Exchange
import Groundwork.Failure
import Groundwork.Json.Reader
import Groundwork.Settings

/-!
Providers of completions. A provider turns a call into one request and reads the content out of the
answer. A status of 400 and above is a failure, and a rate limit if it is 429 or the answer says so.
-/

namespace Groundwork

namespace Completion

structure Call where
  system : String
  user : String
  temperature : Json := .float 0.3
  maxTokens : Json := .int 1024
  schema : Option Json := none
  model : Option Json := none

namespace Call

def messages (c : Call) : Json :=
  .arr [.obj [("role", .str "system"), ("content", .str c.system)],
    .obj [("role", .str "user"), ("content", .str c.user)]]

end Call

/-- The two ways of asking: with a key for a list of choices, or locally for one message. -/
inductive Service where
  | groq
  | openAi
  | ollama
  deriving DecidableEq, Repr

namespace Service

def name : Service → String
  | groq => "GroqProvider"
  | openAi => "OpenAIProvider"
  | ollama => "OllamaProvider"

def ofName? : String → Option Service
  | "groq" => some groq
  | "openai" => some openAi
  | "openrouter" => some openAi
  | "ollama" => some ollama
  | _ => none

end Service

def groqModel : String := "llama-3.3-70b-versatile"

def defaultModels : List (String × String) :=
  [("groq", groqModel), ("openai", "gpt-4o-mini"),
    ("openrouter", "meta-llama/llama-3.3-70b-instruct"), ("ollama", "qwen2.5-coder:7b")]

def groqEndpoint : String := "https://api.groq.com/openai/v1/chat/completions"

def defaultEndpoints : List (String × String) :=
  [("groq", groqEndpoint), ("openai", "https://api.openai.com/v1/chat/completions"),
    ("openrouter", "https://openrouter.ai/api/v1/chat/completions"),
    ("ollama", "http://127.0.0.1:11434/api/chat")]

end Completion

namespace LlmSettings

open Completion

def resolvedModel (s : LlmSettings) : Json :=
  if s.model.truthy then s.model else .str ((defaultModels.lookup s.provider).getD groqModel)

def resolvedEndpoint (s : LlmSettings) : String :=
  if s.endpoint.isEmpty then (defaultEndpoints.lookup s.provider).getD groqEndpoint
  else s.endpoint

end LlmSettings

namespace Completion

structure Provider where
  service : Service
  model : Json
  endpoint : String
  apiKey : String
  timeout : Json

namespace Provider

/-- An unknown provider name stands for the first service. -/
def ofSettings (s : LlmSettings) : Provider :=
  { service := (Service.ofName? (Text.lower s.provider)).getD .groq
    model := s.resolvedModel
    endpoint := s.resolvedEndpoint
    apiKey := s.apiKey
    timeout := s.timeout }

def party (p : Provider) : String := p.service.name

def modelFor (p : Provider) (c : Call) : Json :=
  match c.model with
  | some model => if model.truthy then model else p.model
  | none => p.model

def contentType : String × String := ("Content-Type", "application/json")

def responseFormat (schema : Json) : Json :=
  .obj [("type", .str "json_schema"),
    ("json_schema", .obj [("name", (schema.get? "title").getD (.str "response")),
      ("schema", schema)])]

def choicesRequest (p : Provider) (c : Call) : HttpRequest :=
  { url := p.endpoint
    headers := [contentType, ("Authorization", "Bearer " ++ p.apiKey)]
    body := .obj ([("model", p.modelFor c), ("messages", c.messages),
      ("temperature", c.temperature), ("max_tokens", c.maxTokens)] ++
      match c.schema with
      | some schema => [("response_format", responseFormat schema)]
      | none => [])
    timeout := p.timeout }

def messageRequest (p : Provider) (c : Call) : HttpRequest :=
  { url := p.endpoint
    headers := [contentType]
    body := .obj ([("model", p.modelFor c), ("messages", c.messages),
      ("stream", .bool false),
      ("options", .obj [("temperature", c.temperature), ("num_predict", c.maxTokens)])] ++
      match c.schema with
      | some schema => [("format", schema)]
      | none => [])
    timeout := p.timeout }

def request (p : Provider) (c : Call) : Except Failure HttpRequest :=
  match p.service with
  | .ollama => .ok (p.messageRequest c)
  | _ =>
    if p.apiKey.isEmpty then .error (.provider (.noKey p.party)) else .ok (p.choicesRequest c)

def isRateLimit (status : Int) (body : String) : Bool :=
  status = 429 || (400 ≤ status && Text.contains (Text.clip 2000 body) "rate_limit")

def document (p : Provider) : HttpOutcome → Except Failure Json
  | .unreachable reason => .error (.provider (.unreachable p.party reason))
  | .broken failure => .error failure
  | .answered status body =>
    if isRateLimit status body then .error (.rateLimit (.limited p.party status))
    else if 400 ≤ status then .error (.provider (.status p.party status body))
    else match Json.read body.toList with
      | .ok value => .ok value
      | .error _ => .error (.generation (.noJsonBody p.party))

def contentOf : Json → Except Failure Json
  | .obj members => .ok ((members.lookup "content").getD .null)
  | _ => .error (.data .noMember)

def firstChoice (answer : Json) : Except Failure Json :=
  match answer.get? "choices" with
  | some (.arr (choice :: _)) =>
    match choice.get? "message" with
    | some message => contentOf message
    | none => .error (.generation .malformedCompletion)
  | _ => .error (.generation .malformedCompletion)

def onlyMessage : Json → Except Failure Json
  | .obj members =>
    let message := (members.lookup "message").getD .null
    if message.truthy then contentOf message else .ok .null
  | _ => .error (.data .noMember)

def content (p : Provider) (answer : Json) : Except Failure Json :=
  match p.service with
  | .ollama => onlyMessage answer
  | _ => firstChoice answer

end Provider

def textOf : Json → Except Failure String
  | .str s =>
    if (Text.strip s).isEmpty then .error (.generation .noContent) else .ok (Text.strip s)
  | value => if value.truthy then .error (.data .noMember) else .error (.generation .noContent)

def Provider.answer (p : Provider) (outcome : HttpOutcome) : Except Failure String := do
  textOf (← p.content (← p.document outcome))

def Provider.complete {m : Type → Type} [Monad m] (p : Provider)
    (send : HttpRequest → m HttpOutcome) (c : Call) : m (Except Failure String) :=
  match p.request c with
  | .error failure => return .error failure
  | .ok request => return p.answer (← send request)

end Completion

end Groundwork
