import Groundwork.Batch
import Groundwork.Embedding.Basic
import Groundwork.Index.Entry
import Groundwork.Index.Naming
import Groundwork.Retrieval.Hit

/-!
Writing the index of a repository into a store, in batches with a pause between them, and searching
it.
-/

namespace Groundwork

structure TextRecord where
  id : String
  vector : Vector64
  metadata : Json.Members

namespace Index

def textsFor (perRecord : Bool) (a : Analysis) : List String :=
  if perRecord then (entries a).map (·.text) else [digest a]

/-- The rows of entries with their vectors, as long as there are both. -/
def rowsOf (all : List Entry) (vectors : List Vector64) : List TextRecord :=
  (all.zip vectors).map fun (e, vector) => ⟨e.id, vector, e.metadata⟩

def records (perRecord : Bool) (a : Analysis) (vectors : List Vector64) :
    Except Failure (List TextRecord) :=
  if perRecord then .ok (rowsOf (entries a) vectors)
  else match vectors with
    | shared :: _ => .ok (rowsOf (entries a) (List.replicate (entries a).length shared))
    | [] => .error (.data .outOfRange)

inductive Step where
  | upsert (batch : List TextRecord)
  | pause

def steps : List (List TextRecord) → List Step
  | [] => []
  | [batch] => [.upsert batch]
  | batch :: rest => .upsert batch :: .pause :: steps rest

/-- The steps that write rows in batches of the given size, which counts as one below one. -/
def writingSteps (batchSize : Int) (rows : List TextRecord) : List Step :=
  steps (batches (max 1 batchSize).toNat rows)

variable {m : Type → Type} [Monad m]

def takeSteps (upsert : List TextRecord → m (Except Failure Unit)) (pause : m Unit) :
    List Step → m (Except Failure Unit)
  | [] => return .ok ()
  | .pause :: rest => do
    pause
    takeSteps upsert pause rest
  | .upsert batch :: rest => do
    match ← upsert batch with
    | .ok () => takeSteps upsert pause rest
    | .error failure => return .error failure

def embed (embedMany : List String → m (Except Failure (List Vector64))) (perRecord : Bool)
    (a : Analysis) : m (Except Failure (List TextRecord)) := do
  return (← embedMany (textsFor perRecord a)).bind (records perRecord a)

def write (embedMany : List String → m (Except Failure (List Vector64)))
    (upsert : String → List TextRecord → m (Except Failure Unit)) (pause : m Unit)
    (batchSize : Int) (perRecord : Bool) (a : Analysis) : m (Except Failure String) := do
  let nspace := namespaceOf a.repoUrl a.branch
  match ← embed embedMany perRecord a with
  | .error failure => return .error failure
  | .ok rows =>
    return (← takeSteps (upsert nspace) pause (writingSteps batchSize rows)).map fun _ => nspace

end Index

structure SearchHit where
  id : String
  score : Float
  metadata : Json.Members

namespace SearchHit

def ofHit (h : Retrieval.Hit Float) : Except DataFault SearchHit :=
  match h.metadata?, h.score with
  | some metadata, some score => .ok ⟨h.id, score, metadata⟩
  | _, _ => .error .missingKey

def preview (h : SearchHit) : String :=
  match h.metadata.lookup "content" with
  | some (.str content) => Text.clip 200 content ++ "..."
  | _ => "No content available"

def toJson (h : SearchHit) : Json :=
  let member (name : String) (default : Json) : Json := (h.metadata.lookup name).getD default
  .obj [("id", .str h.id), ("score", .float h.score), ("type", member "type" (.str "")),
    ("filePath", member "filePath" (.str "")), ("language", member "language" (.str "")),
    ("description", member "description" (.str "")),
    ("linesOfCode", member "linesOfCode" (.int 0)), ("functions", member "functions" (.int 0)),
    ("classes", member "classes" (.int 0)), ("contentPreview", .str h.preview)]

end SearchHit

def Index.search {m : Type → Type} [Monad m]
    (find : Retrieval.Query → m (Except Failure (List (Retrieval.Hit Float))))
    (nspace query : String) (limit : Int) : m (Except Failure (List SearchHit)) := do
  match ← find ⟨nspace, query, limit, []⟩ with
  | .error failure => return .error failure
  | .ok hits => match hits.mapM SearchHit.ofHit with
    | .ok shown => return .ok shown
    | .error fault => return .error (.data fault)

end Groundwork
