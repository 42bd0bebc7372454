import Groundwork.Source.Offside.Reading
import Groundwork.Source.Syntax

/-!
Scripts with indented blocks as syntax trees. Only the module level is read, and of a class its own block.
What is no definition, import or assignment becomes a node without children.
-/

namespace Groundwork.Source.Offside.Reader

def plainNode : Node := .leaf "statement" ""

/-! ### Simple statements -/

/-- The pieces between commas. A comma among the parameters of a `lambda` is no separator. -/
def splitCommas : (lambdas : Nat) → List Tree → List (List Tree)
  | _, [] => [[]]
  | lambdas, t :: rest =>
    if t.isPunct "," && lambdas == 0 then [] :: splitCommas 0 rest
    else
      let lambdas := if t.isWord "lambda" then lambdas + 1
        else if t.isPunct ":" then lambdas - 1 else lambdas
      match splitCommas lambdas rest with
      | piece :: pieces => (t :: piece) :: pieces
      | [] => [[t]]

def stringNode (text : String) : Node := .leaf "string" text

def entryNode : List Tree → Node
  | [.token .string text _ _] => stringNode text
  | .token .string text _ _ :: next :: _ =>
    if next.isWord "for" || next.isWord "async" then stringNode text else plainNode
  | _ => plainNode

/-- A value with what stands directly in it: the entries of a list, a tuple or a set, or parts that
follow each other. -/
def valueNode (value : List Tree) : Node :=
  match value with
  | [.group _ children _ _] => { kind := "list", children := (splitCommas 0 children).map entryNode }
  | [.token .string text _ _] => stringNode text
  | _ =>
    if value.all (·.isString) then
      { kind := "concatenated_string", children := value.map fun t => stringNode t.text }
    else if value.any (·.isPunct ",") then
      { kind := "expression_list", children := (splitCommas 0 value).map entryNode }
    else plainNode

def reservedWords : List String :=
  ["lambda", "not", "await", "yield", "return", "del", "assert", "raise", "global", "nonlocal",
    "pass", "break", "continue", "if", "elif", "else", "for", "while", "try", "except", "finally",
    "with", "def", "class", "async", "import", "from"]

def assignmentNode (name : Tree) (value : Option Node) : Node :=
  { kind := "expression_statement"
    children := [{
      kind := "assignment"
      children := (Node.leaf "identifier" name.text).as "left" ::
        (value.map (·.as "right")).toList }] }

/-- An assignment to a plain name, or the annotation of one. -/
def assignment? (trees : List Tree) : Option Node :=
  match trees with
  | name :: sign :: rest =>
    if !name.isAnyWord || name.isOneOf reservedWords then none
    else if sign.isPunct "=" then
      match splitTrees (·.isPunct "=") rest with
      | [value] => some (assignmentNode name (some (valueNode value)))
      | parts =>
        some (assignmentNode name (some { kind := "assignment", children := parts.map entryNode }))
    else if sign.isPunct ":" then
      match rest.dropWhile fun t => !t.isPunct "=" with
      | _ :: value => some (assignmentNode name (some (valueNode value)))
      | [] => some (assignmentNode name none)
    else none
  | _ => none

def importNode (modules : List String) : Node :=
  { kind := "import_statement"
    children := modules.map fun name => (Node.leaf "dotted_name" name).as "name" }

def importFromNode (name : String) : Node :=
  if name = "__future__" then .leaf "future_import_statement" ""
  else if name.isEmpty then .leaf "import_from_statement" ""
  else
    { kind := "import_from_statement"
      children := [(Node.leaf "dotted_name" name).as "module_name"] }

def simpleStatement (source : Array Char) (trees : List Tree) : Node :=
  match trees with
  | [] => plainNode
  | head :: rest =>
    if head.isWord "import" then
      importNode <| (splitTrees (·.isPunct ",") rest).filterMap fun entry =>
        let name := entry.takeWhile fun t => !t.isWord "as"
        if name.isEmpty then none else some (textOfAll source name)
    else if head.isWord "from" then
      importFromNode (textOfAll source (rest.takeWhile fun t => !t.isWord "import"))
    else (assignment? trees).getD plainNode

def simpleStatements (source : Array Char) (trees : List Tree) : List Node :=
  (splitTrees (·.isPunct ";") trees).map (simpleStatement source)

/-! ### Blocks -/

def takeBlock (indent : Nat) (lines : List Line) : List Line × List Line :=
  (lines.takeWhile (indent < ·.indent), lines.dropWhile (indent < ·.indent))

theorem length_takeBlock_snd_le (indent : Nat) (lines : List Line) :
    (takeBlock indent lines).2.length ≤ lines.length := by
  induction lines with
  | nil => simp [takeBlock]
  | cons line rest ih =>
    simp only [takeBlock, List.dropWhile_cons] at ih ⊢
    split
    · simp only [List.length_cons]
      omega
    · exact Nat.le_refl _

def inlineBlock (trees : List Tree) : List Tree := (trees.dropWhile fun t => !t.isPunct ":").drop 1

def parameterNode? (source : Array Char) (entry : List Tree) : Option Node :=
  let name := entry.takeWhile fun t => !(t.isPunct ":" || t.isPunct "=")
  let nameNode : Node := .leaf "identifier" (textOfAll source name)
  let isTyped := (entry.drop name.length).head?.any (·.isPunct ":")
  let hasDefault := entry.any (·.isPunct "=")
  match name with
  | [] => none
  | [t] =>
    if t.isPunct "*" then some (.leaf "keyword_separator" "*")
    else if t.isPunct "/" then some (.leaf "positional_separator" "/")
    else if hasDefault then
      some { kind := if isTyped then "typed_default_parameter" else "default_parameter"
             children := [nameNode.as "name"] }
    else if isTyped then some { kind := "typed_parameter", children := [nameNode] }
    else some nameNode
  | _ => some (if isTyped then { kind := "typed_parameter", children := [nameNode] } else nameNode)

def nameNode (name : Tree) : Node := (Node.leaf "identifier" name.text).as "name"

def function? (source : Array Char) (isAsync : Bool) (trees : List Tree) : Option Node :=
  match trees with
  | name :: rest =>
    if !name.isAnyWord then none
    else
      let afterTypes := rest.dropWhile fun t => !t.isGroup .paren
      let parameters : Node :=
        { kind := "parameters"
          children := match afterTypes with
            | t :: _ => (splitCommas 0 t.children).filterMap (parameterNode? source)
            | [] => [] }
      let returnType : List Node := match afterTypes.drop 1 with
        | arrow :: more =>
          if arrow.isPunct "->" then
            [(Node.leaf "type" (textOfAll source (more.takeWhile fun t => !t.isPunct ":"))).as "return_type"]
          else []
        | [] => []
      let mark : List Node := if isAsync then [{ kind := "async", isNamed := false }] else []
      some { kind := "function_definition"
             children := mark ++ [nameNode name, parameters.as "parameters"] ++ returnType }
  | [] => none

def blockWords : List String :=
  ["if", "elif", "else", "for", "while", "try", "except", "finally", "with", "async"]

def functionLine? (source : Array Char) (trees : List Tree) : Option Node :=
  match trees with
  | word :: rest =>
    if word.isWord "def" then function? source false rest
    else if word.isWord "async" then
      match rest with
      | next :: more => if next.isWord "def" then function? source true more else none
      | [] => none
    else none
  | [] => none

def decoratorNode : Node := .leaf "decorator" ""

/-- Puts what follows decorators under one node with them. -/
def decorated : List Node → List Node
  | [] => []
  | n :: rest =>
    match n.kind == "decorator", decorated rest with
    | true, next :: more =>
      if next.kind == "decorated_definition" then { next with children := n :: next.children } :: more
      else { kind := "decorated_definition", children := [n, next.as "definition"] } :: more
    | _, nodes => n :: nodes

def membersOfLine (source : Array Char) (trees : List Tree) : List Node :=
  match functionLine? source trees with
  | some f => [f]
  | none =>
    if trees.head?.any (·.isPunct "@") then [decoratorNode]
    else if trees.head?.any fun t => t.isOneOf ("class" :: blockWords) then [plainNode]
    else simpleStatements source trees

def class? (source : Array Char) (block : List Line) (trees : List Tree) : Option Node :=
  match trees with
  | name :: rest =>
    if !name.isAnyWord then none
    else
      let own := match block with
        | first :: _ => (block.filter (·.indent ≤ first.indent)).map (·.trees)
        | [] => []
      let inline := inlineBlock rest
      let members := (if inline.isEmpty then own else [inline]).flatMap (membersOfLine source)
      let body : Node := { kind := "block", children := decorated members }
      some { kind := "class_definition", children := [nameNode name, body.as "body"] }
  | [] => none

def statementsOfLine (source : Array Char) (line : Line) (block : List Line) : List Node :=
  match functionLine? source line.trees with
  | some f => [f]
  | none =>
    match line.trees with
    | word :: rest =>
      if word.isWord "class" then [(class? source block rest).getD plainNode]
      else if word.isPunct "@" then [decoratorNode]
      else if word.isOneOf blockWords then [plainNode]
      else simpleStatements source line.trees
    | [] => []

def statementsOfLines (source : Array Char) (lines : List Line) : List Node :=
  match lines with
  | [] => []
  | line :: rest =>
    statementsOfLine source line (takeBlock line.indent rest).1 ++
      statementsOfLines source (takeBlock line.indent rest).2
termination_by lines.length
decreasing_by
  have := length_takeBlock_snd_le line.indent rest
  simp only [List.length_cons]
  omega

def treeOf (text : List Char) : Node :=
  { kind := "module", children := decorated (statementsOfLines text.toArray (linesOf text)) }

end Groundwork.Source.Offside.Reader
