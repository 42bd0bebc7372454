import Groundwork.Index.Writing

/-!
Rows of the store. Beside the vector and the metadata a row has four columns that rows can be chosen by.
A condition on columns is written as equalities in which a quote inside a value is doubled.
-/

namespace Groundwork.Store

structure Row where
  id : String
  vector : Vector64
  kind : String
  filePath : String
  language : String
  repoName : String
  metadata : Json.Members

def textOrEmpty (name : String) (m : Json.Members) : String :=
  match m.lookup name with
  | some value => if value.truthy then value.shown else ""
  | none => ""

namespace Row

def ofRecord (r : TextRecord) : Row :=
  { id := r.id
    vector := r.vector
    kind := match r.metadata.lookup "type" with
      | some value => value.shown
      | none => ""
    filePath := textOrEmpty "filePath" r.metadata
    language := textOrEmpty "language" r.metadata
    repoName := textOrEmpty "repoName" r.metadata
    metadata := r.metadata }

def toJson (r : Row) : Json :=
  .obj [("id", .str r.id), ("vector", .arr (r.vector.map .float)), ("type", .str r.kind),
    ("file_path", .str r.filePath), ("language", .str r.language),
    ("repo_name", .str r.repoName), ("metadata", .obj r.metadata)]

def column? (r : Row) : String → Option String
  | "type" => some r.kind
  | "file_path" => some r.filePath
  | "language" => some r.language
  | "repo_name" => some r.repoName
  | _ => none

end Row

abbrev Filter := List (String × String)

def filterColumns : List String := ["type", "file_path", "language", "repo_name"]

def Row.satisfies (filter : Filter) (r : Row) : Bool :=
  filter.all fun (column, value) => r.column? column == some value

def quoted (value : String) : String := "'" ++ Text.substitute '\'' "''" value ++ "'"

def badColumn? (filter : Filter) : Option String :=
  (filter.map (·.1)).find? fun column => !filterColumns.contains column

def condition? (filter : Filter) : Except Failure (Option String) :=
  match badColumn? filter with
  | some column => .error (.store (.unsupportedColumn column))
  | none =>
    if filter.isEmpty then .ok none
    else .ok (some (Text.join " AND " (filter.map fun (column, value) =>
      column ++ " = " ++ quoted value)))

end Groundwork.Store
