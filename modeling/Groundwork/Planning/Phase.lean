import Groundwork.Failure
import Groundwork.Json.Value

/-!
Phases of a plan. The three labels of a phase are kept as they were received; a valid label is one of
the texts listed here.
-/

namespace Groundwork

namespace Planning

def levels : List String := ["low", "medium", "high"]

def categories : List String := ["bug_fix", "feature", "refactor", "improvement", "documentation"]

def maxPhases : Int := 7

def phaseId (position : Nat) : String :=
  "phase-" ++ String.ofList (Decimal.padLeft 2 '0' (Nat.toDigits 10 (position + 1)))

def isLabel (texts : List String) : Json → Bool
  | .str s => texts.contains s
  | _ => false

end Planning

structure Phase where
  id : String
  title : String
  description : String
  relevantFiles : List String := []
  dependencies : List String := []
  complexity : Json := .str "medium"
  priority : Json := .str "medium"
  category : Json := .str "improvement"
  reasoning : String := ""

namespace Phase

def toJson (p : Phase) : Json :=
  .obj [("id", .str p.id), ("title", .str p.title), ("description", .str p.description),
    ("relevantFiles", .strings p.relevantFiles), ("dependencies", .strings p.dependencies),
    ("estimatedComplexity", p.complexity), ("priority", p.priority), ("category", p.category),
    ("reasoning", .str p.reasoning)]

/-- The texts of what a value goes through element by element: the elements of a list, the
characters of a text, the names of an object's members. -/
def textsOf : Json → Except DataFault (List String)
  | .arr items => .ok (items.map (·.shown))
  | .str s => .ok (s.toList.map String.singleton)
  | .obj members => .ok (members.map (·.1))
  | _ => .error .wrongKind

def required (name : String) (m : Json.Members) : Except DataFault String :=
  match m.lookup name with
  | some value => .ok value.shown
  | none => .error .missingKey

def listMember (name : String) (m : Json.Members) : Except DataFault (List String) :=
  match m.lookup name with
  | some value => textsOf value
  | none => .ok []

/-- Reads a phase. Identity, title and description have to be there, which is checked before
anything else. -/
def ofMembers (m : Json.Members) : Except DataFault Phase := do
  let id ← required "id" m
  let title ← required "title" m
  let description ← required "description" m
  let files ← listMember "relevantFiles" m
  let dependencies ← listMember "dependencies" m
  return {
    id := id
    title := title
    description := description
    relevantFiles := files
    dependencies := dependencies
    complexity := (m.lookup "estimatedComplexity").getD (.str "medium")
    priority := (m.lookup "priority").getD (.str "medium")
    category := (m.lookup "category").getD (.str "improvement")
    reasoning := ((m.lookup "reasoning").getD (.str "")).shown }

end Phase

end Groundwork
