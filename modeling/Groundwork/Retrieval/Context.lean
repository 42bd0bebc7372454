import Groundwork.Retrieval.Selection
import Groundwork.Settings

/-!
The files of a repository that are relevant to a goal. A search that fails, or hits that cannot be
compared, give the empty context.
-/

namespace Groundwork

structure ContextFile where
  path : String
  content : String := ""
  similarity : Float := 0.5
  metadata : Json.Members := []
  language : Option String := none
  description : Option String := none

def ContextFile.toJson (f : ContextFile) : Json :=
  .obj [("path", .str f.path), ("content", .str f.content), ("similarity", .float f.similarity),
    ("language", .orNull (f.language.map .str)),
    ("description", .orNull (f.description.map .str)), ("metadata", .obj f.metadata)]

structure RelevantContext where
  files : List ContextFile := []
  total : Int := 0

namespace RelevantContext

def paths (c : RelevantContext) : List String := c.files.map (·.path)

def toJson (c : RelevantContext) : Json :=
  .obj [("files", .arr (c.files.map (·.toJson))), ("total_files_found", .int c.total)]

end RelevantContext

namespace Retrieval

def contentOf {S : Type} (h : Hit S) : String :=
  match h.metadata.lookup "content" with
  | some (.str content) => content
  | _ => if h.searchable.isEmpty then "No content available" else h.searchable

def textMember? (name : String) (m : Json.Members) : Option String :=
  match m.lookup name with
  | some (.str s) => some s
  | _ => none

def fileOf (contentChars : Int) (r : Ranked Float) : ContextFile :=
  { path := r.hit.path
    content := Text.cut contentChars (contentOf r.hit)
    similarity := r.hit.scoreOrZero
    metadata :=
      Json.setMember "relevanceScore" (.float (Decimal.roundTo 4 r.adjusted)) r.hit.metadata
    language := textMember? "language" r.hit.metadata
    description := textMember? "description" r.hit.metadata }

def findRanked {S : Type} [Add S] [Sub S] [OfNat S 0] [OfScientific S] [LT S] [DecidableLT S]
    {m : Type → Type} [Monad m] (search : Query → m (Except Failure (List (Hit S))))
    (minSimilarity : S) (topK : Int) (nspace prompt kind : String) : m (List (Ranked S)) := do
  match ← search (Query.ofFiles nspace (expand prompt kind) (topK * 2)) with
  | .error _ => return []
  | .ok first =>
    if fallbackThreshold ≤ first.length then return shown minSimilarity topK prompt kind first
    else match ← search (Query.ofFiles nspace prompt (topK * 2)) with
      | .error _ => return []
      | .ok second => return shown minSimilarity topK prompt kind (mergeHits first second)

def contextOf (contentChars : Int) (ranked : List (Ranked Float)) : RelevantContext :=
  ⟨ranked.map (fileOf contentChars), ranked.length⟩

/-- How many files are wanted. A limit of zero stands for none given. -/
def wantedFiles (settings : RetrievalSettings) : Option Int → Int
  | some n => if n = 0 then settings.topK else n
  | none => settings.topK

def findContext {m : Type → Type} [Monad m]
    (search : Query → m (Except Failure (List (Hit Float)))) (settings : RetrievalSettings)
    (nspace prompt kind : String) (limit : Option Int) : m RelevantContext := do
  return contextOf settings.contentChars
    (← findRanked search settings.minSimilarity (wantedFiles settings limit) nspace prompt kind)

end Retrieval

end Groundwork
