import Groundwork.Graph.Basic
import Groundwork.Json.Writer

/-!
Written forms of a dependency graph, as a drawing description and as a JSON document. With a focus
only the nodes whose id contains it are shown, with their edges and the other ends of these; a focus
that matches nothing shows the whole graph.
-/

namespace Groundwork.Graph

structure Selection where
  ids : List String
  edges : List Edge
  deriving DecidableEq, Repr

def touches (ids : List String) (e : Edge) : Bool := ids.contains e.source || ids.contains e.target

def select (g : DependencyGraph) (focus : String) : Selection :=
  let all := g.nodes.map (·.id)
  let focused := all.filter fun id => Text.contains id focus
  if focus.isEmpty || focused.isEmpty then ⟨all, g.edges⟩
  else
    let edges := g.edges.filter (touches focused)
    let ends := edges.flatMap fun e => [e.source, e.target]
    ⟨all.filter fun id => focused.contains id || ends.contains id, edges⟩

def NodeKind.shape : NodeKind → String
  | .classes => "component"
  | .function => "box"
  | .module => "box"
  | .config => "note"
  | .documentation => "note"
  | .file => "ellipse"

def quote (s : String) : String := "\"" ++ Text.substitute '"' "\\\"" s ++ "\""

def nodeLine (g : DependencyGraph) (n : Node) : String :=
  let attributes := ["label=" ++ quote (n.label ++ "\\n" ++ n.kind.name), "shape=" ++ n.kind.shape] ++
    (if g.entryPoints.contains n.id then ["style=bold"] else []) ++
    (if g.unresolved.contains n.id then ["color=red"] else [])
  "  " ++ quote n.id ++ " [" ++ Text.join ", " attributes ++ "];"

def edgeLine (e : Edge) : String := "  " ++ quote e.source ++ " -> " ++ quote e.target ++ ";"

/-- The drawing description, without a line feed at its end. Of nodes with one id the last is
drawn. -/
def toDot (g : DependencyGraph) (focus : String) : String :=
  let shown := select g focus
  let nodes := shown.ids.filterMap fun id => g.nodes.reverse.find? (·.id == id)
  Text.join "\n" <|
    ["digraph Dependencies \x7b", "  rankdir=LR;"] ++ nodes.map (nodeLine g) ++
      shown.edges.map edgeLine ++ ["\x7d"]

def toDocument (g : DependencyGraph) (focus : String) : Json :=
  let shown := select g focus
  .obj [("nodes", .arr ((g.nodes.filter fun n => shown.ids.contains n.id).map (·.toJson))),
    ("edges", .arr (shown.edges.map (·.toJson))), ("stats", g.statsJson)]

def toJsonText (g : DependencyGraph) (focus : String) : String := (toDocument g focus).indented 0

end Groundwork.Graph
