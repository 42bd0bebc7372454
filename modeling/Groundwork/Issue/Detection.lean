import Groundwork.Record
import Groundwork.Text.Scan

/-!
Issues found in the raw text of a file. Each rule looks for the first place of one kind and knows
nothing of the other rules, so one line can raise several issues. Whether a file counts as Python
decides which spellings a rule looks for; nothing is parsed.
-/

namespace Groundwork.Issue

open Text

def lineOf (content : List Char) (offset : Nat) : Nat := (content.take offset).count '\n' + 1

def isPythonPath (path : String) : Bool := endsWith (lower path) ".py"

def callOf (names : List String) : Spot := fun before rest =>
  names.any fun name => match wordAfter? name before rest with
    | some tail => (skipBlanks tail).head? == some '('
    | none => false

def wholeWord (words : List String) : Spot := fun before rest =>
  words.any fun word => match wordAfter? word before rest with
    | some tail => !isWordAt tail.head?
    | none => false

def wordThenBlank (words : List String) : Spot := fun before rest =>
  words.any fun word => match wordAfter? word before rest with
    | some (c :: _) => isBlank c
    | _ => false

/-- The characters that a lower case letter stands for when case is ignored. Beside the two cases
these are the long s, the Kelvin sign, and the i with a dot too many or too few. -/
def ignoringCase (letter c : Char) : Bool :=
  c == letter || lowerChar c == [letter] ||
    (letter == 's' && c == 'ſ') || (letter == 'i' && (c == 'ı' || c == 'İ'))

def afterIgnoringCase? : List Char → List Char → Option (List Char)
  | [], rest => some rest
  | _ :: _, [] => none
  | letter :: letters, c :: rest =>
    if ignoringCase letter c then afterIgnoringCase? letters rest else none

def isQuote (c : Char) : Bool := c == '\'' || c == '"'

def assignsText (rest : List Char) : Bool :=
  match skipBlanks rest with
  | '=' :: rest => match skipBlanks rest with
    | quote :: body =>
      let inside := body.takeWhile fun c => !isQuote c
      isQuote quote && !inside.isEmpty && (body.drop inside.length).head?.any isQuote
    | [] => false
  | _ => false

def passwordText : Spot := fun _ rest =>
  match afterIgnoringCase? "password".toList rest with
  | some rest => assignsText rest
  | none => false

def apiKeyText : Spot := fun _ rest =>
  match afterIgnoringCase? "api".toList rest with
  | some rest =>
    let rest := match rest with
      | '_' :: more => more
      | '-' :: more => more
      | _ => rest
    match afterIgnoringCase? "key".toList rest with
    | some rest => assignsText rest
    | none => false
  | none => false

def endsInColon (rest : List Char) : Bool :=
  match (rest.takeWhile (· != '\n')).reverse.dropWhile isBlank with
  | ':' :: _ :: _ => true
  | _ => false

def loopHeader : List Char → Bool
  | [] => false
  | c :: rest => isBlank c && (endsInColon rest || loopHeader rest)

/-- A line, or a run of blank lines before it, that opens a loop. -/
def loopLine : Spot := fun before rest =>
  lineStart before rest &&
    let rest := skipBlanks rest
    let bare := match after? "async" rest with
      | some (c :: more) => if isBlank c then skipBlanks more else rest
      | _ => rest
    [rest, bare].any fun rest => match after? "for" rest with
      | some rest => loopHeader rest
      | none => false

def printLine : Spot := fun before rest =>
  lineStart before rest &&
    match after? "print" (skipBlanks rest) with
    | some rest => (skipBlanks rest).head? == some '('
    | none => false

def markers : List String := ["TODO", "FIXME", "XXX", "HACK"]

def markerAfter (sign : String) : Spot := fun _ rest =>
  match after? sign rest with
  | some rest => markers.any fun marker => marker.toList.isPrefixOf (skipBlanks rest)
  | none => false

/-- A rule: what it reports, and the offset at which it finds it. -/
structure Rule where
  kind : String
  severity : Grade
  description : String
  category : String
  offset? : (path : String) → (content : List Char) → Option Nat

def hasText (content : List Char) (needle : String) : Bool := hasRun needle.toList content

def sqlJoins (python : Bool) : List String :=
  if python then ["\" + ", "' + ", ".format(", "\" % ", "' % "] else ["$\x7b", "\" + ", "' + "]

def dangerousCall : Rule where
  kind := "security"
  severity := .critical
  description := "Use of eval() or dynamic Function construction detected"
  category := "dangerous-function"
  offset? path content :=
    find? (callOf (if isPythonPath path then ["eval", "exec"] else ["eval", "Function"])) content

def hardcodedPassword : Rule where
  kind := "security"
  severity := .critical
  description := "Hardcoded password detected"
  category := "hardcoded-credentials"
  offset? _ content := find? passwordText content

def hardcodedKey : Rule where
  kind := "security"
  severity := .high
  description := "Hardcoded API key detected"
  category := "hardcoded-credentials"
  offset? _ content := find? apiKeyText content

def sqlInjection : Rule where
  kind := "security"
  severity := .high
  description :=
    "Potential SQL injection: query built with string concatenation or interpolation"
  category := "sql-injection-risk"
  offset? path content :=
    if (sqlJoins (isPythonPath path)).any (hasText content) then
      find? (wholeWord ["SELECT", "INSERT", "UPDATE"]) content
    else none

def awaitInLoop : Rule where
  kind := "performance"
  severity := .medium
  description := "Sequential await inside a loop; consider running the calls concurrently"
  category := "async-performance"
  offset? path content :=
    let python := isPythonPath path
    let gathers := hasText content (if python then "asyncio.gather" else "Promise.all")
    if gathers || (find? (wordThenBlank ["await"]) content).isNone then none
    else find? (if python then loopLine else callOf ["for"]) content

def missingErrorHandling : Rule where
  kind := "best-practice"
  severity := .medium
  description := "Async code without any try/catch error handling"
  category := "missing-error-handling"
  offset? _ content :=
    if (find? (wholeWord ["try"]) content).isSome then none
    else find? (wordThenBlank ["async", "await"]) content

def debugOutput : Rule where
  kind := "maintainability"
  severity := .low
  description := "Debug output statement left in code"
  category := "debug-code"
  offset? path content :=
    if containsAny (lower path) ["dev", "debug"] then none
    else find? (if isPythonPath path then printLine else callOf ["console.log"]) content

def workLeft : Rule where
  kind := "maintainability"
  severity := .low
  description := "TODO/FIXME/XXX/HACK marker found"
  category := "incomplete-work"
  offset? path content := find? (markerAfter (if isPythonPath path then "#" else "//")) content

def rules : List Rule :=
  [dangerousCall, hardcodedPassword, hardcodedKey, sqlInjection, awaitInLoop,
    missingErrorHandling, debugOutput, workLeft]

def Rule.report? (rule : Rule) (path : String) (content : List Char) : Option Issue :=
  (rule.offset? path content).map fun offset =>
    { kind := rule.kind
      severity := rule.severity
      description := rule.description
      category := rule.category
      line := some (lineOf content offset) }

def detect (path content : String) : List Issue :=
  rules.filterMap (·.report? path content.toList)

end Groundwork.Issue
