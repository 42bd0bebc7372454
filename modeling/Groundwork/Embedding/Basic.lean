import Groundwork.Batch
import Groundwork.Completion.Exchange
import Groundwork.Decimal.Reading
import Groundwork.Embedding.Hashed
import Groundwork.Json.Order
import Groundwork.Json.Reader
import Groundwork.Settings

/-!
Embedders of texts: by hashing, or by a service of the web that is asked for batches of texts. The
vectors of an answer are put into the order of their indices.
-/

namespace Groundwork

namespace Embedding

structure Remote where
  model : Json
  apiKey : String
  endpoint : String := "https://api.openai.com/v1/embeddings"
  dimension : Int := 1536
  timeout : Json := .float 30.0
  batchSize : Int := 64

def elementsOf : Json → Except DataFault (List Json)
  | .arr items => .ok items
  | .str s => .ok (s.toList.map fun c => .str (String.singleton c))
  | .obj members => .ok (members.map fun (name, _) => .str name)
  | _ => .error .wrongKind

def numberOf : Json → Except DataFault Float
  | .float x => .ok x
  | .int n =>
    let x := Float.ofInt n
    if x.isInf then .error .tooLarge else .ok x
  | .bool b => .ok (if b then 1.0 else 0.0)
  | .str s => match Decimal.readFloat? (Text.asciiDigits s) with
    | some x => .ok x
    | none => .error .badValue
  | _ => .error .wrongKind

def memberOf (name : String) : Json → Except DataFault Json
  | .obj members => match members.lookup name with
    | some value => .ok value
    | none => .error .missingKey
  | _ => .error .wrongKind

def indexOf : Json → Except DataFault Json
  | .obj members => .ok ((members.lookup "index").getD (.int 0))
  | _ => .error .noMember

def vectorOf (item : Json) : Except DataFault Vector64 := do
  let entries ← elementsOf (← memberOf "embedding" item)
  return normalize (← entries.mapM numberOf)

def vectorsOf (answer : Json) : Except DataFault (List Vector64) := do
  let items ← elementsOf (← memberOf "data" answer)
  let keyed ← items.mapM fun item => do return (← indexOf item, item)
  match Json.ascending? keyed with
  | some sorted => sorted.mapM vectorOf
  | none => .error .wrongKind

def isMalformed : DataFault → Bool
  | .missingKey => true
  | .wrongKind => true
  | .badValue => true
  | _ => false

namespace Remote

def request (e : Remote) (texts : List String) : HttpRequest :=
  { url := e.endpoint
    headers := [("Content-Type", "application/json"), ("Authorization", "Bearer " ++ e.apiKey)]
    body := .obj [("model", e.model), ("input", .strings texts)]
    timeout := e.timeout }

def answer : HttpOutcome → Except Failure (List Vector64)
  | .unreachable reason => .error (.provider (.unreachable "Embedding" reason))
  | .broken failure => .error failure
  | .answered status body =>
    if 400 ≤ status then .error (.provider (.status "Embedding endpoint" status body))
    else match Json.read body.toList with
      | .error _ => .error (.provider .malformedEmbeddings)
      | .ok document => match vectorsOf document with
        | .ok vectors => .ok vectors
        | .error fault =>
          .error (if isMalformed fault then .provider .malformedEmbeddings else .data fault)

variable {m : Type → Type} [Monad m]

def embedBatch (e : Remote) (send : HttpRequest → m HttpOutcome) (texts : List String) :
    m (Except Failure (List Vector64)) :=
  if e.apiKey.isEmpty then return .error (.provider (.noKey "OpenAI embeddings"))
  else do return answer (← send (e.request texts))

def embedBatches (e : Remote) (send : HttpRequest → m HttpOutcome) :
    List (List String) → m (Except Failure (List Vector64))
  | [] => return .ok []
  | batch :: rest => do
    match ← e.embedBatch send batch with
    | .error failure => return .error failure
    | .ok vectors => return (← e.embedBatches send rest).map (vectors ++ ·)

/-- The vectors of texts, in order. A batch size below zero asks for nothing. -/
def embedMany (e : Remote) (send : HttpRequest → m HttpOutcome) (texts : List String) :
    m (Except Failure (List Vector64)) :=
  if e.batchSize = 0 then return .error (.data .badValue)
  else if e.batchSize < 0 then return .ok []
  else e.embedBatches send (batches e.batchSize.toNat texts)

end Remote

end Embedding

inductive Embedder where
  | hashed (dimension : Int)
  | remote (e : Embedding.Remote)

namespace Embedder

/-- Every name but that of the service means hashing. -/
def ofSettings (s : EmbeddingSettings) : Embedder :=
  if Text.lower s.provider == "openai" then
    .remote
      { model := s.model, apiKey := s.apiKey, endpoint := s.endpoint, dimension := s.dimension,
        timeout := s.timeout }
  else .hashed s.dimension

def dimension : Embedder → Int
  | hashed dimension => dimension
  | remote e => e.dimension

def neededSettings : Embedder → List String
  | hashed _ => ["dim"]
  | remote _ => []

def hashedMany (dimension : Int) (texts : List String) : Except Failure (List Vector64) :=
  match texts.mapM (Embedding.hashedText dimension) with
  | .ok vectors => .ok vectors
  | .error fault => .error (.data fault)

def embedMany {m : Type → Type} [Monad m] (e : Embedder) (send : HttpRequest → m HttpOutcome)
    (texts : List String) : m (Except Failure (List Vector64)) :=
  match e with
  | hashed dimension => return hashedMany dimension texts
  | remote e => e.embedMany send texts

def embedText {m : Type → Type} [Monad m] (e : Embedder) (send : HttpRequest → m HttpOutcome)
    (text : String) : m (Except Failure Vector64) := do
  match ← e.embedMany send [text] with
  | .ok (vector :: _) => return .ok vector
  | .ok [] => return .error (.data .outOfRange)
  | .error failure => return .error failure

end Embedder

end Groundwork
