import Groundwork.Source.Script.Extraction

/-!
What stands in the bodies of functions and classes. Nothing that is asked of a declaration but its members
depends on it.
-/

namespace Groundwork.Source.Node

def bodyKinds : List String :=
  Script.functionKinds ++ Script.valueKinds ++ Script.classKinds ++
    ["class", "function_definition", "class_definition"]

def emptied (n : Node) : Node :=
  if n.fields = ["body"] then { n with text := "", children := [] } else n

/-- A node, but of a function or class without what stands in its body. -/
def hollow (n : Node) : Node :=
  if bodyKinds.contains n.kind then { n with text := "", children := n.children.map emptied } else n

def outer (n : Node) : Node :=
  if n.kind = "export_statement" ∨ n.kind = "decorated_definition" then
    { n with text := "", children := n.children.map hollow }
  else n.hollow

variable (n : Node)

@[simp] theorem emptied_kind : n.emptied.kind = n.kind := by
  rw [emptied]
  split <;> rfl

@[simp] theorem emptied_fields : n.emptied.fields = n.fields := by
  rw [emptied]
  split <;> rfl

@[simp] theorem hollow_kind : n.hollow.kind = n.kind := by
  rw [hollow]
  split <;> rfl

@[simp] theorem hollow_fields : n.hollow.fields = n.fields := by
  rw [hollow]
  split <;> rfl

@[simp] theorem hollow_isNamed : n.hollow.isNamed = n.isNamed := by
  rw [hollow]
  split <;> rfl

@[simp] theorem outer_kind : n.outer.kind = n.kind := by
  rw [outer]
  split
  · rfl
  · exact hollow_kind n

@[simp] theorem outer_isNamed : n.outer.isNamed = n.isNamed := by
  rw [outer]
  split
  · rfl
  · exact hollow_isNamed n

variable {n}

theorem hollow_of_kind (other : bodyKinds.contains n.kind = false) : n.hollow = n := by
  rw [hollow, if_neg (by rw [other]; exact Bool.false_ne_true)]

theorem outer_of_kind (wrapper : n.kind ≠ "export_statement") (other : n.kind ≠ "decorated_definition") :
    n.outer = n.hollow :=
  if_neg (not_or.mpr ⟨wrapper, other⟩)

theorem child?_map {f : Node → Node} (fields : ∀ c, (f c).fields = c.fields) (field : String)
    (m : Node) (same : m.children = n.children.map f) : m.child? field = (n.child? field).map f := by
  rw [child?, child?, same, List.find?_map]
  congr 2
  funext c
  exact congrArg (·.contains field) (fields c)

theorem child?_hollow {field : String} (other : field ≠ "body") :
    n.hollow.child? field = n.child? field := by
  rw [hollow]
  split
  · rw [child?_map emptied_fields field _ rfl]
    cases found : n.child? field with
    | none => rfl
    | some c =>
        have stands : field ∈ c.fields := by simpa using List.find?_some found
        rw [Option.map_some, emptied, if_neg]
        intro body
        exact other (List.mem_singleton.mp (body ▸ stands))
  · rfl

theorem hasChild_hollow (kind : String) : n.hollow.hasChild kind = n.hasChild kind := by
  rw [hollow]
  split
  · rw [hasChild, hasChild, List.any_map]
    congr 1
    funext c
    exact congrArg (· == kind) c.emptied_kind
  · rfl

theorem declaredName_hollow : n.hollow.declaredName = n.declaredName := by
  rw [declaredName, declaredName, child?_hollow (by decide)]

theorem child?_outer (wrapper : n.kind = "export_statement" ∨ n.kind = "decorated_definition")
    (field : String) : n.outer.child? field = (n.child? field).map hollow := by
  rw [outer, if_pos wrapper]
  exact child?_map hollow_fields field _ rfl

theorem namedChildren_outer (wrapper : n.kind = "export_statement" ∨ n.kind = "decorated_definition") :
    n.outer.namedChildren = n.namedChildren.map hollow := by
  rw [outer, if_pos wrapper, namedChildren, namedChildren, List.filter_map]
  congr 2
  funext c
  exact c.hollow_isNamed

end Groundwork.Source.Node
