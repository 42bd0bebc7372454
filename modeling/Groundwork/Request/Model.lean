import Groundwork.Failure
import Groundwork.Planning.Phase
import Groundwork.Request.Check

/-!
Requests to the service and the constraints on them.
-/

namespace Groundwork

structure IndexRequest where
  repoUrl : String
  branch : String
  deriving DecidableEq, Repr

structure SearchRequest extends IndexRequest where
  query : String
  limit : Int
  deriving DecidableEq, Repr

structure PhaseRequest where
  nspace : String
  prompt : String
  contextKind : Option String
  deriving DecidableEq, Repr

structure FileReference where
  path : String
  language : Option String
  similarity : Float

structure PlanRequest where
  nspace : String
  phase : Phase
  files : List FileReference

namespace IndexRequest

def toJson (r : IndexRequest) : Json :=
  .obj [("repo_url", .str r.repoUrl), ("branch", .str r.branch)]

end IndexRequest

namespace SearchRequest

def toJson (r : SearchRequest) : Json :=
  .obj [("repo_url", .str r.repoUrl), ("branch", .str r.branch), ("query", .str r.query),
    ("limit", .int r.limit)]

end SearchRequest

namespace PhaseRequest

def toJson (r : PhaseRequest) : Json :=
  .obj [("namespace", .str r.nspace), ("user_prompt", .str r.prompt),
    ("context_type", .orNull (r.contextKind.map .str))]

end PhaseRequest

def FileReference.toJson (f : FileReference) : Json :=
  .obj [("path", .str f.path), ("language", .orNull (f.language.map .str)),
    ("similarity", .float f.similarity)]

def PlanRequest.toJson (r : PlanRequest) : Json :=
  .obj [("namespace", .str r.nspace), ("phase", r.phase.toJson),
    ("top_relevant_files", .arr (r.files.map (·.toJson)))]

namespace Request

/-- A location without blanks at its ends, which has to have a slash. The length is that of the text
as it was given. -/
def location (value : Json) : Except (List Violation) String := do
  let given ← textBetween 1 none value
  let stripped := Text.strip given
  if stripped.toList.contains '/' then return stripped else fail .notLocation

def indexMembers (m : Json.Members) : Except (List Violation) IndexRequest :=
  (both (field ["repo_url"] location m)
    (fieldOr "main" ["branch"] (textBetween 1 none) m)).map fun (url, branch) => ⟨url, branch⟩

def index : Json → Except (List Violation) IndexRequest := object "IndexRequest" indexMembers

def searchMembers (m : Json.Members) : Except (List Violation) SearchRequest :=
  (both (indexMembers m)
    (both (field ["query"] (textBetween 1 none) m)
      (fieldOr 10 ["limit"] (integerBetween 1 100) m))).map
    fun (index, query, limit) => ⟨index, query, limit⟩

def search : Json → Except (List Violation) SearchRequest := object "SearchRequest" searchMembers

def contextKinds : List String := ["specific", "improvement", "refactor", "debug", "feature"]

def nspace : Json → Except (List Violation) String := textBetween 3 (some 100)

def phasesMembers (m : Json.Members) : Except (List Violation) PhaseRequest :=
  (both (field ["namespace"] nspace m)
    (both (field ["user_prompt"] (textBetween 5 (some 1000)) m)
      (fieldOr none ["context_type"] (orNull (among contextKinds)) m))).map
    fun (nspace, prompt, kind) => ⟨nspace, prompt, kind⟩

def phases : Json → Except (List Violation) PhaseRequest := object "PhaseRequest" phasesMembers

def labels (m : Json.Members) : Except (List Violation) (String × String × String) :=
  both (field ["estimatedComplexity", "estimated_complexity"] (among Planning.levels) m)
    (both (field ["priority"] (among Planning.levels) m)
      (field ["category"] (among Planning.categories) m))

def phaseMembers (m : Json.Members) : Except (List Violation) Phase :=
  (both (field ["id"] (textBetween 1 none) m)
    (both (field ["title"] (textBetween 3 (some 200)) m)
      (both (field ["description"] (textBetween 10 (some 2000)) m)
        (both (fieldOr [] ["relevantFiles", "relevant_files"] (list text) m)
          (both (fieldOr [] ["dependencies"] (list text) m)
            (both (labels m) (field ["reasoning"] (textBetween 10 (some 1000)) m))))))).map
    fun (id, title, description, files, dependencies, (complexity, priority, category),
        reasoning) =>
      ⟨id, title, description, files, dependencies, .str complexity, .str priority,
        .str category, reasoning⟩

def phase : Json → Except (List Violation) Phase := object "PhasePayload" phaseMembers

def fileMembers (m : Json.Members) : Except (List Violation) FileReference :=
  (both (field ["path"] (textBetween 1 none) m)
    (both (fieldOr none ["language"] (orNull text) m)
      (field ["similarity"] (numberBetween 0 1) m))).map
    fun (path, language, similarity) => ⟨path, language, similarity⟩

def file : Json → Except (List Violation) FileReference := object "RelevantFileRef" fileMembers

def planMembers (m : Json.Members) : Except (List Violation) PlanRequest :=
  (both (field ["namespace"] nspace m)
    (both (field ["phase"] phase m)
      (field ["top_relevant_files"] (listBetween 1 20 file) m))).map
    fun (nspace, phase, files) => ⟨nspace, phase, files⟩

def plan : Json → Except (List Violation) PlanRequest := object "PlanRequest" planMembers

def validate {α : Type} (check : Json → Except (List Violation) α) (payload : Json) :
    Except Failure α :=
  match check payload with
  | .ok value => .ok value
  | .error violations => .error (.request (violations.map (·.text)))

end Request

end Groundwork
