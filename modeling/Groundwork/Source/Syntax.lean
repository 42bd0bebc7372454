/-!
Syntax trees of source texts, as a parser hands them over. A child may stand for fields of its parent.
Children that are not named are the words and signs of a grammar.
-/

namespace Groundwork.Source

structure Node where
  kind : String
  text : String := ""
  isNamed : Bool := true
  fields : List String := []
  children : List Node := []

namespace Node

def leaf (kind text : String) : Node := { kind, text }

def as (field : String) (n : Node) : Node := { n with fields := [field] }

def namedChildren (n : Node) : List Node := n.children.filter (·.isNamed)

def childrenAt (field : String) (n : Node) : List Node :=
  n.children.filter (·.fields.contains field)

/-- The first child that stands for a field. -/
def child? (field : String) (n : Node) : Option Node :=
  n.children.find? (·.fields.contains field)

def hasChild (kind : String) (n : Node) : Bool := n.children.any (·.kind == kind)

end Node

end Groundwork.Source
