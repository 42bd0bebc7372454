import Groundwork.Record

/-!
Entries of the index of a repository. Its overview comes first; then every file that matters with its
functions, classes and grave issues; then a summary for each language. Text that an entry is found by is
in lower case, and contents are clipped.
-/

namespace Groundwork.Index

open Text

/-- What an entry is about. Files are counted among those that matter. -/
inductive Key where
  | overview
  | file (index : Nat)
  | function (index position : Nat)
  | class (index position : Nat)
  | issues (index : Nat)
  | language (name : String)
  deriving DecidableEq, Repr

namespace Key

def kind : Key → String
  | overview => "repository_overview"
  | file _ => "file"
  | function _ _ => "function"
  | «class» _ _ => "class"
  | issues _ => "issues"
  | language _ => "language_summary"

def suffix : Key → String
  | overview => "overview"
  | file i => "file-" ++ toString i
  | function i j => "func-" ++ toString i ++ "-" ++ toString j
  | «class» i j => "class-" ++ toString i ++ "-" ++ toString j
  | issues i => "issues-" ++ toString i
  | language name => "lang-" ++ name

def id (repo : String) (k : Key) : String := repo ++ "-" ++ k.suffix

end Key

structure Entry where
  id : String
  kind : String
  repoName : String
  content : String
  searchable : String
  details : Json.Members := []

namespace Entry

def contentChars : Nat := 1000

def make (repo : String) (key : Key) (content searchable : String) (details : Json.Members) :
    Entry :=
  ⟨key.id repo, key.kind, repo, clip contentChars content, lower searchable, details⟩

def text (e : Entry) : String := e.content ++ "\n" ++ e.searchable

def metadata (e : Entry) : Json.Members :=
  [("type", .str e.kind), ("repoName", .str e.repoName)] ++ e.details ++
    [("content", .str e.content), ("searchableText", .str e.searchable)]

end Entry

def languageCounts (files : List FileRecord) : List (String × Nat) :=
  let languages := files.map (·.language)
  (distinct languages).map fun language => (language, languages.count language)

def significantLanguages : List String := ["typescript", "javascript", "python", "java"]

def structuralParts : List String :=
  ["index", "main", "app", "config", "README", "component", "service", "controller", "model",
    "util", "helper"]

def isImportant (r : FileRecord) : Bool := r.priority == some .high || r.priority == some .critical

def isSignificant (r : FileRecord) : Bool :=
  isImportant r || r.summarySource == some .generated || !r.issueList.isEmpty || 10 < r.score ||
    !r.functions.isEmpty || !r.classes.isEmpty || 20 < r.linesOfCode ||
    significantLanguages.contains r.language || containsAny r.path structuralParts

def maxFiles : Nat := 100

def significantFiles (a : Analysis) : List FileRecord := (a.files.filter isSignificant).take maxFiles

def overviewEntry (a : Analysis) : Entry :=
  let counts := languageCounts a.files
  let listed := join ", " (counts.map fun (language, count) => s!"{language}({count})")
  Entry.make a.repoName .overview
    (s!"Repository: {a.repoName}. {a.stats.totalFiles} total files, " ++
      s!"{a.stats.codeFiles} code files. Languages: {listed}")
    (a.repoName ++ " repository overview statistics " ++ join " " (counts.map (·.1)))
    [("repoUrl", .str a.repoUrl), ("branch", .str a.branch),
      ("totalFiles", .int a.stats.totalFiles)]

def listSentence (label : String) (texts : List String) : String :=
  if texts.isEmpty then "" else " " ++ label ++ ": " ++ join ", " texts ++ "."

def issueTerms (i : Issue) : String := i.kind ++ " " ++ i.severity.name

def classNames (r : FileRecord) : List String := r.classes.map (·.name)

def issuesOf (grade : Grade) (r : FileRecord) : List Issue :=
  r.issueList.filter (·.severity == grade)

def fileContent (r : FileRecord) : String :=
  s!"File: {r.path} ({r.language}). {r.description}. {r.linesOfCode} lines." ++
    listSentence "Functions" r.namedFunctions ++ listSentence "Classes" (classNames r) ++
    (if 10 < r.score then s!" High complexity ({r.score})." else "") ++
    listSentence "Critical issues" ((issuesOf .critical r).map (·.kind)) ++
    listSentence "Tags" r.sortedTags

def fileSearchable (r : FileRecord) : String :=
  join " " <| ([r.path, r.language, r.description] ++ r.namedFunctions ++ classNames r ++
    r.variableNames ++ r.imports ++ r.exports ++ r.sortedTags ++ r.issueList.map issueTerms).filter
      (· != "")

def fileEntry (a : Analysis) (index : Nat) (r : FileRecord) : Entry :=
  Entry.make a.repoName (.file index) (fileContent r) (fileSearchable r)
    [("filePath", .str r.path), ("language", .str r.language),
      ("description", .str r.description), ("linesOfCode", .int r.linesOfCode),
      ("functions", .int r.functions.length), ("classes", .int r.classes.length),
      ("complexityScore", .int r.score), ("hasIssues", .bool !r.issueList.isEmpty),
      ("priority", .str (r.priority.getD .low).name),
      ("summaryType", .str (r.summarySource.getD .ruleBased).name),
      ("importsCount", .int r.imports.length), ("exportsCount", .int r.exports.length),
      ("fileSize", .int r.sizeBytes)]

def functionEntry (a : Analysis) (r : FileRecord) (index position : Nat) (f : FunctionInfo) :
    Entry :=
  let tempo := if f.isAsync then "Async" else "Sync"
  let parameters := join ", " f.parameters
  Entry.make a.repoName (.function index position)
    (s!"Function: {f.name} in {r.path}. Parameters: {parameters}. " ++
      s!"Return type: {f.returnType}. {tempo} function.")
    (join " " [f.name, "function", join " " f.parameters, f.returnType, r.path])
    [("filePath", .str r.path), ("language", .str r.language), ("functionName", .str f.name),
      ("isAsync", .bool f.isAsync), ("isExported", .bool f.isExported),
      ("parameterCount", .int f.parameters.length)]

def functionEntries (a : Analysis) (index : Nat) (r : FileRecord) : List Entry :=
  (r.functions.zipIdx.filter fun (f, _) => f.name != "" && f.name != FunctionInfo.anonymous).map
    fun (f, position) => functionEntry a r index position f

def classEntry (a : Analysis) (r : FileRecord) (index position : Nat) (c : ClassInfo) : Entry :=
  let methods := join ", " c.methods
  let properties := join ", " c.properties
  Entry.make a.repoName (.class index position)
    s!"Class: {c.name} in {r.path}. Methods: {methods}. Properties: {properties}."
    (join " " [c.name, "class", join " " c.methods, join " " c.properties, r.path])
    [("filePath", .str r.path), ("language", .str r.language), ("className", .str c.name),
      ("methodsCount", .int c.methods.length), ("propertiesCount", .int c.properties.length),
      ("isExported", .bool c.isExported)]

def classEntries (a : Analysis) (index : Nat) (r : FileRecord) : List Entry :=
  (r.classes.zipIdx.filter fun (c, _) => c.name != "").map
    fun (c, position) => classEntry a r index position c

def graveIssues (r : FileRecord) : List Issue := issuesOf .critical r ++ issuesOf .high r

def issuesEntry (a : Analysis) (index : Nat) (r : FileRecord) : Entry :=
  let grave := graveIssues r
  let listed := join "; " (grave.map fun i => s!"{i.severity.name} {i.kind} - {i.description}")
  Entry.make a.repoName (.issues index)
    s!"Issues found in {r.path}: {listed}."
    ("issues problems bugs " ++ join " " (grave.map issueTerms) ++ " " ++ r.path)
    [("filePath", .str r.path), ("language", .str r.language),
      ("issuesCount", .int grave.length), ("criticalIssues", .int (issuesOf .critical r).length),
      ("highIssues", .int (issuesOf .high r).length),
      ("issueTypes", .str (join "," (grave.map (·.kind))))]

def fileEntries (a : Analysis) (index : Nat) (r : FileRecord) : List Entry :=
  [fileEntry a index r] ++
    (if isImportant r then functionEntries a index r ++ classEntries a index r else []) ++
    if (graveIssues r).isEmpty then [] else [issuesEntry a index r]

def languageEntry (a : Analysis) (language : String) (count : Nat) : Entry :=
  let files := a.files.filter (·.language == language)
  let functions := files.flatMap (·.namedFunctions)
  let classes := files.flatMap classNames
  let someFunctions := join ", " (functions.take 20)
  let someClasses := join ", " (classes.take 10)
  Entry.make a.repoName (.language language)
    (s!"{language} files in repository: {count} files. " ++
      s!"Functions: {someFunctions}. Classes: {someClasses}.")
    (join " " [language, "programming", join " " functions, join " " classes])
    [("language", .str language), ("totalFiles", .int count)]

def entries (a : Analysis) : List Entry :=
  [overviewEntry a] ++
    (significantFiles a).zipIdx.flatMap (fun (r, index) => fileEntries a index r) ++
    (languageCounts a.files).map fun (language, count) => languageEntry a language count

def digest (a : Analysis) : String :=
  clip 8000 <| join "\n" <|
    ["Repository: " ++ a.repoName,
      "Languages: " ++ join ", " ((languageCounts a.files).map (·.1))] ++
    (a.files.take 10).map fun r => r.path ++ ": " ++ r.description

end Groundwork.Index
