import Groundwork.Source.Outline

/-!
The outline of a script with braces, read off the top level of its syntax tree. An export stands for its
declaration, for a function that it gives as a value, or for the names in its clauses.
-/

namespace Groundwork.Source.Script

def functionKinds : List String := ["function_declaration", "generator_function_declaration"]

def valueKinds : List String := ["function_expression", "function", "generator_function"]

def classKinds : List String := ["class_declaration", "abstract_class_declaration"]

def variableKinds : List String := ["lexical_declaration", "variable_declaration"]

def methodKinds : List String := ["method_definition", "method_signature", "abstract_method_signature"]

def fieldKinds : List String := ["public_field_definition", "field_definition"]

def parameterName (n : Node) : String :=
  match n.child? "pattern", n.child? "left" with
  | some pattern, _ => pattern.text
  | none, some left => if n.kind = "assignment_pattern" then left.text else n.text
  | none, none => n.text

def parameterNames (parameters : Node) : List String :=
  (parameters.namedChildren.filter (·.kind != "comment")).map parameterName

def typeText (n : Node) : String :=
  Text.strip (String.ofList (n.text.toList.dropWhile (· == ':')))

def functionInfo (isExported : Bool) (n : Node) : FunctionInfo :=
  { name := n.declaredName
    parameters := ((n.child? "parameters").map parameterNames).getD []
    returnType := ((n.child? "return_type").map typeText).getD "unknown"
    isAsync := n.hasChild "async"
    isExported }

def methodName? (member : Node) : Option String :=
  if methodKinds.contains member.kind then (member.child? "name").map (·.text) else none

def propertyName? (member : Node) : Option String :=
  if fieldKinds.contains member.kind then
    (member.child? "name" <|> member.child? "property").map (·.text)
  else none

def classInfo (isExported : Bool) (n : Node) : ClassInfo :=
  let members := ((n.child? "body").map (·.namedChildren)).getD []
  { name := n.declaredName
    methods := members.filterMap methodName?
    properties := members.filterMap propertyName?
    isExported }

def variableNames (n : Node) : List String :=
  (n.namedChildren.filter (·.kind == "variable_declarator")).filterMap fun declarator =>
    (declarator.child? "name").map (·.text)

/-- The name under which an entry of a clause is exported. -/
def specifierName? (n : Node) : Option String :=
  if n.kind = "export_specifier" then
    (n.child? "alias" <|> n.child? "name").map fun target => unquoted target.text
  else none

def clauseNames (n : Node) : List String :=
  (n.namedChildren.filter (·.kind == "export_clause")).flatMap fun clause =>
    clause.namedChildren.filterMap specifierName?

def addFunction (isExported : Bool) (n : Node) (o : Outline) : Outline :=
  { o with functions := o.functions ++ [functionInfo isExported n] }

def addClass (isExported : Bool) (n : Node) (o : Outline) : Outline :=
  { o with classes := o.classes ++ [classInfo isExported n] }

def addVariables (n : Node) (o : Outline) : Outline :=
  { o with variableNames := o.variableNames ++ variableNames n }

def addExportedDeclaration (n : Node) (o : Outline) : Outline :=
  if functionKinds.contains n.kind then (addFunction true n o).addExport n.declaredName
  else if classKinds.contains n.kind then (addClass true n o).addExport n.declaredName
  else if variableKinds.contains n.kind then (addVariables n o).addExports (variableNames n)
  else o

def valueFunction? (n : Node) : Option Node :=
  (n.child? "value").filter fun value => valueKinds.contains value.kind

def addExported (n : Node) (o : Outline) : Outline :=
  match n.child? "declaration", valueFunction? n with
  | some declaration, _ => addExportedDeclaration declaration o
  | none, some value => addFunction true value o
  | none, none => o.addExports (clauseNames n)

def addImport (n : Node) (o : Outline) : Outline :=
  match n.child? "source" with
  | some source => { o with imports := o.imports ++ [unquoted source.text] }
  | none => o

def addStatement (o : Outline) (n : Node) : Outline :=
  if n.kind = "import_statement" then addImport n o
  else if n.kind = "export_statement" then addExported n o
  else if functionKinds.contains n.kind then addFunction false n o
  else if classKinds.contains n.kind then addClass false n o
  else if variableKinds.contains n.kind then addVariables n o
  else o

def outlineOf (root : Node) : Outline := root.namedChildren.foldl addStatement {}

end Groundwork.Source.Script
