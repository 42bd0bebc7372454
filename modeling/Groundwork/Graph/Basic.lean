import Groundwork.Graph.Cycles
import Groundwork.Graph.Layers

/-!
The dependency graph of a repository: a node for each record, placed by layers, an edge for each
resolved import, and the files that could not be layered because of a cycle.
-/

namespace Groundwork

namespace Graph

inductive NodeKind where
  | classes
  | function
  | module
  | config
  | documentation
  | file
  deriving DecidableEq, Repr

namespace NodeKind

def name : NodeKind → String
  | classes => "class"
  | function => "function"
  | module => "module"
  | config => "config"
  | documentation => "documentation"
  | file => "file"

def ofRecord (r : FileRecord) : NodeKind :=
  if ["typescript", "javascript", "python"].contains r.language then
    if !r.classes.isEmpty then .classes else if !r.functions.isEmpty then function else module
  else if ["json", "yaml"].contains r.language then config
  else if r.language == "markdown" then documentation
  else file

end NodeKind

structure Node where
  id : String
  label : String
  position : Option Position
  language : String
  functionCount : Nat
  classCount : Nat
  lines : Nat
  kind : NodeKind
  deriving DecidableEq, Repr

/-- A node without a place is written at the origin; an empty language is left out. -/
def Node.toJson (n : Node) : Json :=
  .obj [("id", .str n.id), ("type", .str "file"),
    ("position", match n.position with
      | some p => p.toJson
      | none => .obj [("x", .float 0.0), ("y", .float 0.0)]),
    ("data", .obj ([("label", .str n.label), ("functionCount", .int n.functionCount),
      ("classCount", .int n.classCount), ("lines", .int n.lines),
      ("fileType", .str n.kind.name)] ++
      if n.language.isEmpty then [] else [("language", .str n.language)]))]

end Graph

structure DependencyGraph where
  nodes : List Graph.Node
  edges : List Graph.Edge
  languages : List String
  entryPoints : List String
  unresolved : List String
  deriving DecidableEq, Repr

namespace DependencyGraph

open Groundwork.Graph

def statsJson (g : DependencyGraph) : Json :=
  .obj [("totalFiles", .int g.nodes.length), ("totalDependencies", .int g.edges.length),
    ("languages", .strings g.languages), ("entryPoints", .strings g.entryPoints),
    ("unresolved", .strings g.unresolved)]

def toJson (g : DependencyGraph) : Json :=
  .obj [("nodes", .arr (g.nodes.map (·.toJson))), ("edges", .arr (g.edges.map (·.toJson))),
    ("stats", g.statsJson)]

/-- The paths of the last layer, if one of its members lies on a cycle. -/
def unresolvedOf (g : FileGraph) : List String :=
  let cyclic := g.cycleMembers
  match g.layers.getLast? with
  | some last => if last.any cyclic.contains then last.map g.pathAt else []
  | none => []

def nodeOf (places : List (Nat × Position)) (index : Nat) (r : FileRecord) : Node :=
  { id := r.path
    label := (FilePath.ofText r.path).name
    position := places.lookup index
    language := r.language
    functionCount := r.functions.length
    classCount := r.classes.length
    lines := r.linesOfCode
    kind := NodeKind.ofRecord r }

def languagesOf (files : List FileRecord) : List String :=
  sortTexts <| Text.distinct <|
    (files.map (·.language)).filter fun language => language != "" && language != "unknown"

def ofRecords (files : List FileRecord) : DependencyGraph :=
  let g := FileGraph.ofMap (dependencyMap files)
  let places := placeLayers g.layers
  { nodes := files.zipIdx.map fun (r, i) => nodeOf places i r
    edges := g.edges
    languages := languagesOf files
    entryPoints := g.entryPoints
    unresolved := unresolvedOf g }

end DependencyGraph

end Groundwork
