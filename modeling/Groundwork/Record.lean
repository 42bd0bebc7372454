import Groundwork.Json.Value

/-!
Records of analysed files. A base record holds what was read from the source; enrichment adds the
complexity, the issues and the tags, from which priority and summary source follow.
-/

namespace Groundwork

inductive Grade where
  | low
  | medium
  | high
  | critical
  deriving DecidableEq, Repr

namespace Grade

def name : Grade → String
  | low => "low"
  | medium => "medium"
  | high => "high"
  | critical => "critical"

def descending : List Grade := [critical, high, medium, low]

def rank : Grade → Nat
  | low => 0
  | medium => 1
  | high => 2
  | critical => 3

def ofName? (s : String) : Option Grade := descending.find? (·.name == s)

theorem ofName?_name (g : Grade) : ofName? g.name = some g := by cases g <;> decide

end Grade

structure FunctionInfo where
  name : String
  parameters : List String := []
  returnType : String := "unknown"
  isAsync : Bool := false
  isExported : Bool := false
  deriving DecidableEq, Repr

namespace FunctionInfo

def anonymous : String := "<anonymous>"

def toJson (f : FunctionInfo) : Json :=
  .obj [("name", .str f.name), ("parameters", .strings f.parameters),
    ("returnType", .str f.returnType), ("isAsync", .bool f.isAsync),
    ("isExported", .bool f.isExported)]

end FunctionInfo

structure ClassInfo where
  name : String
  methods : List String := []
  properties : List String := []
  isExported : Bool := false
  deriving DecidableEq, Repr

def ClassInfo.toJson (c : ClassInfo) : Json :=
  .obj [("name", .str c.name), ("methods", .strings c.methods),
    ("properties", .strings c.properties), ("isExported", .bool c.isExported)]

structure Issue where
  kind : String
  severity : Grade
  description : String
  category : String
  line : Option Nat := none
  deriving DecidableEq, Repr

def Issue.toJson (i : Issue) : Json :=
  .obj ([("type", .str i.kind), ("severity", .str i.severity.name),
    ("description", .str i.description), ("category", .str i.category)] ++
    match i.line with
    | some line => [("line", .int line)]
    | none => [])

inductive SummarySource where
  | ruleBased
  | generated
  | pending
  deriving DecidableEq, Repr

namespace SummarySource

def name : SummarySource → String
  | ruleBased => "rule-based"
  | generated => "ai-generated"
  | pending => "pending"

def ofName? (s : String) : Option SummarySource :=
  [ruleBased, generated, pending].find? (·.name == s)

end SummarySource

structure FileRecord where
  path : String
  language : String
  imports : List String := []
  exports : List String := []
  functions : List FunctionInfo := []
  classes : List ClassInfo := []
  variableNames : List String := []
  linesOfCode : Nat := 0
  sizeBytes : Nat := 0
  lastModified : String := ""
  description : String := ""
  content : String := ""
  complexity : Option Nat := none
  issues : Option (List Issue) := none
  tags : Option (List String) := none
  priority : Option Grade := none
  needsSummary : Option Bool := none
  summarySource : Option SummarySource := none
  deriving DecidableEq, Repr

def sortTexts (texts : List String) : List String := texts.mergeSort fun a b => decide (a ≤ b)

namespace FileRecord

def issueList (r : FileRecord) : List Issue := r.issues.getD []

def sortedTags (r : FileRecord) : List String := sortTexts (r.tags.getD [])

def score (r : FileRecord) : Nat := r.complexity.getD 0

def namedFunctions (r : FileRecord) : List String :=
  (r.functions.map (·.name)).filter fun name => name != "" && name != FunctionInfo.anonymous

/-- Derived members appear only for an enriched record. -/
def toJson (r : FileRecord) : Json :=
  .obj ([("path", .str r.path), ("language", .str r.language), ("imports", .strings r.imports),
    ("exports", .strings r.exports), ("functions", .arr (r.functions.map (·.toJson))),
    ("classes", .arr (r.classes.map (·.toJson))), ("variables", .strings r.variableNames),
    ("linesOfCode", .int r.linesOfCode), ("sizeBytes", .int r.sizeBytes),
    ("lastModified", .str r.lastModified), ("description", .str r.description)] ++
    match r.complexity with
    | none => []
    | some complexity =>
      [("complexityScore", .int complexity),
        ("detectedIssues", .arr (r.issueList.map (·.toJson))),
        ("semanticTags", .strings r.sortedTags),
        ("priority", .orNull (r.priority.map (.str ·.name))),
        ("needsAiSummary", .orNull (r.needsSummary.map .bool)),
        ("summaryType", .orNull (r.summarySource.map (.str ·.name)))])

end FileRecord

structure AnalysisStats where
  totalFiles : Nat := 0
  codeFiles : Nat := 0
  analyzedFiles : Nat := 0
  skippedFolders : List String := []
  includedSuffixes : List String := []
  deriving DecidableEq, Repr

def AnalysisStats.toJson (s : AnalysisStats) : Json :=
  .obj [("totalFiles", .int s.totalFiles), ("codeFiles", .int s.codeFiles),
    ("analyzedFiles", .int s.analyzedFiles), ("skippedDirs", .strings s.skippedFolders),
    ("includedExtensions", .strings s.includedSuffixes)]

structure Analysis where
  repoName : String
  repoUrl : String
  branch : String
  stats : AnalysisStats := {}
  files : List FileRecord := []
  deriving DecidableEq, Repr

def Analysis.toJson (a : Analysis) : Json :=
  .obj [("repoName", .str a.repoName), ("repoUrl", .str a.repoUrl), ("branch", .str a.branch),
    ("stats", a.stats.toJson), ("files", .arr (a.files.map (·.toJson)))]

end Groundwork
