import Groundwork.FilePath
import Groundwork.Json.Value
import Groundwork.Failure
import Groundwork.Retrieval.Query

/-!
Hits of a vector search and their adjusted scores. Scores are of any kind of number with addition and
decimal constants; doubles are used when the program runs.
-/

namespace Groundwork.Retrieval

open Text

structure Query where
  nspace : String
  text : String
  topK : Int
  filter : List (String × String) := []
  deriving DecidableEq, Repr

def Query.ofFiles (nspace text : String) (topK : Int) : Query :=
  ⟨nspace, text, topK, [("type", "file")]⟩

structure Hit (S : Type) where
  id : String := ""
  score : Option S := none
  metadata? : Option Json.Members := none

namespace Hit

variable {S : Type}

def metadata (h : Hit S) : Json.Members := h.metadata?.getD []

def metadataText (h : Hit S) (name : String) : String :=
  match h.metadata.lookup name with
  | some value => if value.truthy then value.shown else ""
  | none => ""

def path (h : Hit S) : String := h.metadataText "filePath"

def searchable (h : Hit S) : String := h.metadataText "searchableText"

def scoreOrZero [OfNat S 0] (h : Hit S) : S := h.score.getD 0

end Hit

def schedulingTerms : List String := ["schedul", "queue", "job", "worker", "cron", "task"]

def implementationSuffixes : List String :=
  [".ts", ".tsx", ".js", ".jsx", ".mjs", ".py", ".java", ".go", ".rb", ".rs", ".php", ".cs"]

def configSuffixes : List String := [".json", ".yaml", ".yml", ".toml", ".ini", ".env", ".lock"]

def mentionsScheduling {S : Type} (h : Hit S) : Bool :=
  let name := (FilePath.ofText (lower h.path)).name
  schedulingTerms.any fun term => contains name term || contains h.searchable term

/-- Whether a hit is in one of the script languages; only a text or a plain value can be asked. -/
def isScript {S : Type} (h : Hit S) : Except DataFault Bool :=
  match h.metadata.lookup "language" with
  | some (.str language) => .ok (["typescript", "javascript"].contains language)
  | some (.arr _) => .error .wrongKind
  | some (.obj _) => .error .wrongKind
  | _ => .ok false

def hasUsualLength {S : Type} (h : Hit S) : Bool :=
  let length := h.searchable.toList.length
  500 ≤ length && length ≤ 10000

def rerank {S : Type} [Add S] [Sub S] [OfNat S 0] [OfScientific S] (h : Hit S) (prompt : String)
    (technical : Bool) : Except DataFault S := do
  let path := lower h.path
  let score := h.scoreOrZero
  let score := if concernsScheduling prompt && mentionsScheduling h then score + 0.15 else score
  let score :=
    if technical then
      if endsWithAny path implementationSuffixes && !isTest path then score + 0.1
      else if endsWithAny path configSuffixes then score - 0.1
      else score
    else score
  let score := if ← isScript h then score + 0.05 else score
  return if hasUsualLength h then score + 0.05 else score

end Groundwork.Retrieval
