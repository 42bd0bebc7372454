import Groundwork.Summary.Generation

/-!
Figures of an analysed repository: how many files have which priority, how many issues there are of
which severity, which tags are most common, and how the summaries came out.
-/

namespace Groundwork

structure EnhancedStats where
  priorities : List (Grade × Nat)
  needingSummary : Nat
  generated : Nat
  failed : Nat
  totalIssues : Nat
  severities : List (Grade × Nat)
  topTags : List String
  deriving DecidableEq, Repr

namespace EnhancedStats

def gradesJson (counts : List (Grade × Nat)) : Json :=
  .obj (counts.map fun (grade, count) => (grade.name, .int count))

def toJson (s : EnhancedStats) : Json :=
  .obj [("priority_breakdown", gradesJson s.priorities),
    ("files_needing_ai_summary", .int s.needingSummary),
    ("ai_summaries_generated", .int s.generated), ("ai_summaries_failed", .int s.failed),
    ("total_issues", .int s.totalIssues), ("issues_by_severity", gradesJson s.severities),
    ("top_tags", .strings s.topTags)]

def countGrades (grades : List Grade) : List (Grade × Nat) :=
  Grade.descending.map fun grade => (grade, grades.count grade)

/-- The most common texts; of equally common ones those that came first. -/
def mostCommon (limit : Nat) (texts : List String) : List String :=
  let counts := (Text.distinct texts).map fun t => (t, texts.count t)
  ((counts.mergeSort fun a b => b.2 ≤ a.2).take limit).map (·.1)

def severitiesOf (files : List FileRecord) : List Grade :=
  files.flatMap fun r => r.issueList.map (·.severity)

def of (files : List FileRecord) (summaries : List SummaryResult) : EnhancedStats :=
  { priorities := countGrades (files.map fun r => r.priority.getD .low)
    needingSummary := files.countP fun r => r.needsSummary == some true
    generated := summaries.countP (·.generated)
    failed := summaries.countP fun s => !s.generated
    totalIssues := (severitiesOf files).length
    severities := countGrades (severitiesOf files)
    topTags := mostCommon 10 (files.flatMap fun r => r.tags.getD []) }

end EnhancedStats

end Groundwork
