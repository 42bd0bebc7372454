import Groundwork.Decimal.Exact
import Groundwork.Record

/-!
How much attention a file needs. The complexity is a weighted count of what the file holds; it, the
path and the issues decide whether the file gets a generated summary and which priority it has.
-/

namespace Groundwork.Assessment

open Decimal Text

def lineBonuses : List (Nat × Nat) := [(100, 2), (300, 3), (500, 5)]

def lineBonus (lines : Nat) : Nat :=
  lineBonuses.foldl
    (fun total (threshold, bonus) => if threshold < lines then total + bonus else total) 0

/-- Two for a function, three for a class, a half for an import, and the bonus for length; a half
that is left over counts as one. The sum is kept in halves, and each step is rounded to a double. -/
def complexity (functions classes imports lines : Nat) : Nat :=
  let counted := nearestWhole (2 * nearestWhole (2 * functions + 3 * classes) + nearestWhole imports)
  let scored := nearestWhole (counted + 2 * lineBonus lines)
  nearestWhole (scored + 1) / 2

def complexityOf (r : FileRecord) : Nat :=
  complexity r.functions.length r.classes.length r.imports.length r.linesOfCode

def excludedParts : List String :=
  ["test", "spec", "__tests__", "package-lock.json", "yarn.lock", "pnpm-lock.yaml", "dist/",
    "build/", ".next/"]

def excludedEndings : List String :=
  [".json", ".yml", ".yaml", ".config.js", ".config.ts", ".md", ".txt"]

/-- Paths that never get a generated summary: tests, build output, data, documentation, and
declaration files that do not stand for hand-written types. -/
def isExcluded (path : String) : Bool :=
  let lowered := lower path
  containsAny lowered excludedParts || endsWithAny lowered excludedEndings ||
    (endsWith lowered ".d.ts" && !contains lowered "types")

def securityParts : List String :=
  ["auth", "api/", "login", "security", "middleware", "guard", "service/", "controller", "route",
    "handler", "validation"]

def businessParts : List String :=
  ["service", "controller", "model", "repository", "manager", "processor", "handler", "engine",
    "core", "business"]

def isSensitive (path : String) : Bool :=
  containsAny (lower path) securityParts || containsAny (lower path) businessParts

def isComplex (r : FileRecord) (complexity : Nat) : Bool :=
  200 < r.linesOfCode || 10 < r.functions.length || 3 < r.classes.length || 10 < complexity

def needsSummary (r : FileRecord) (complexity : Nat) (issues : List Issue) : Bool :=
  !isExcluded r.path && (isComplex r complexity || isSensitive r.path || !issues.isEmpty)

/-- A critical issue comes before complexity, and complexity before the need of a summary. -/
def priority (issues : List Issue) (complexity : Nat) (needsSummary : Bool) : Grade :=
  if issues.any fun issue => issue.severity = .critical then .critical
  else if 15 < complexity then .high
  else if needsSummary then .medium
  else .low

end Groundwork.Assessment
