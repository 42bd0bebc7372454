import Groundwork.Source.Outline

/-!
The outline of a script with indented blocks, read off the top level of its syntax tree. A list of public
names, if the module gives one, takes the place of the names that do not begin with an underscore.
-/

namespace Groundwork.Source.Offside

def undecorated? (n : Node) : Option Node :=
  if n.kind = "decorated_definition" then n.child? "definition" else some n

def statements (n : Node) : List Node := n.namedChildren.filterMap undecorated?

def importsOf (n : Node) : List String :=
  if n.kind = "import_statement" then
    ((n.childrenAt "name").filterMap fun name =>
      if name.kind = "aliased_import" then name.child? "name" else some name).map (·.text)
  else if n.kind = "import_from_statement" then ((n.child? "module_name").map (·.text)).toList
  else if n.kind = "future_import_statement" then ["__future__"]
  else []

/-- A plain name that is given a value or only a type. -/
structure Assignment where
  target : String
  value : Option Node

def assignment? (n : Node) : Option Assignment :=
  match n.child? "left" with
  | some left =>
    if n.kind = "assignment" ∧ left.kind = "identifier" then some ⟨left.text, n.child? "right"⟩
    else none
  | none => none

def assignmentsOf (n : Node) : List Assignment :=
  if n.kind = "expression_statement" then n.namedChildren.filterMap assignment? else []

def publicList : String := "__all__"

def literalTexts (value : Node) : List String :=
  (value.namedChildren.filter (·.kind == "string")).map fun item => unquoted item.text

def isPublic (name : String) : Bool := name.toList.head? != some '_'

/-- The name of a parameter; separators and comments have none. -/
def parameterName? (n : Node) : Option String :=
  if ["keyword_separator", "positional_separator", "comment"].contains n.kind then none
  else if ["default_parameter", "typed_default_parameter"].contains n.kind then
    (n.child? "name").map (·.text)
  else if n.kind = "typed_parameter" then some ((n.namedChildren.head?.getD n).text)
  else some n.text

def parameterNames (parameters : Node) : List String :=
  (parameters.namedChildren.filterMap parameterName?).filter (· != "")

def functionInfo (n : Node) : FunctionInfo :=
  { name := n.declaredName
    parameters := ((n.child? "parameters").map parameterNames).getD []
    returnType := ((n.child? "return_type").map (·.text)).getD "unknown"
    isAsync := n.hasChild "async" }

def methodName? (member : Node) : Option String :=
  if member.kind = "function_definition" then (member.child? "name").map (·.text) else none

def classInfo (n : Node) : ClassInfo :=
  let members := ((n.child? "body").map statements).getD []
  { name := n.declaredName
    methods := members.filterMap methodName?
    properties := (members.flatMap assignmentsOf).map (·.target) }

/-- An outline in the making, with the public names that the module listed last. -/
structure Draft where
  outline : Outline := {}
  listed : Option (List String) := none

namespace Draft

def assign (d : Draft) (a : Assignment) : Draft where
  outline := { d.outline with variableNames := d.outline.variableNames ++ [a.target] }
  listed := if a.target = publicList then a.value.map literalTexts <|> d.listed else d.listed

def addStatement (d : Draft) (n : Node) : Draft :=
  if n.kind = "function_definition" then
    { d with outline := { d.outline with functions := d.outline.functions ++ [functionInfo n] } }
  else if n.kind = "class_definition" then
    { d with outline := { d.outline with classes := d.outline.classes ++ [classInfo n] } }
  else if n.kind = "expression_statement" then (assignmentsOf n).foldl assign d
  else { d with outline := { d.outline with imports := d.outline.imports ++ importsOf n } }

def exportedNames (d : Draft) : List String :=
  d.listed.getD ((d.outline.functions.map (·.name)).filter isPublic ++
    (d.outline.classes.map (·.name)).filter isPublic)

def finish (d : Draft) : Outline :=
  let o := Outline.addExports d.exportedNames d.outline
  { o with
    functions := o.functions.map fun f => { f with isExported := o.exports.contains f.name }
    classes := o.classes.map fun c => { c with isExported := o.exports.contains c.name } }

end Draft

def outlineOf (root : Node) : Outline := ((statements root).foldl Draft.addStatement {}).finish

end Groundwork.Source.Offside
