import Groundwork.Source.Script.Extent
import Groundwork.Source.Syntax

/-!
Scripts with braces as syntax trees. Only the module level is read, and of its nodes the parts that
outlines are read off; what is no declaration, import or export becomes a node without children.
-/

namespace Groundwork.Source.Script.Reader

def plainNode : Node := .leaf "expression_statement" ""

/-! ### Parts of declarations -/

def isBinding : Tree → Bool
  | .token .word _ _ _ => true
  | .group .brace _ _ _ => true
  | .group .bracket _ _ _ => true
  | _ => false

def afterDottedName : List Tree → List Tree
  | dot :: name :: rest => if dot.isPunct "." then afterDottedName rest else dot :: name :: rest
  | rest => rest

/-- Drops decorators: a sign, a name or an expression in parentheses, and perhaps arguments. -/
def skipDecorators (dialect : Dialect) : Nat → List Tree → List Tree
  | 0, trees => trees
  | fuel + 1, trees =>
    match trees with
    | sign :: rest =>
      if !sign.isPunct "@" then trees
      else
        let afterHead := match rest with
          | head :: more => if head.isAnyWord then afterDottedName more else more
          | [] => []
        let afterTypes := if dialect.typed then skipTypeArguments afterHead else afterHead
        let afterArguments := match rest, afterTypes with
          | head :: _, .group .paren _ _ onNewLine :: more =>
            if head.isAnyWord && !onNewLine then more else afterTypes
          | _, _ => afterTypes
        skipDecorators dialect fuel afterArguments
    | [] => []

def parameterModifiers : List String :=
  ["public", "private", "protected", "readonly", "override", "static", "declare"]

/-- Drops words before a parameter that are no name, which they are if nothing to bind follows. -/
def skipParameterModifiers : List Tree → List Tree
  | t :: next :: rest =>
    if t.isOneOf parameterModifiers && isBinding next then skipParameterModifiers (next :: rest)
    else t :: next :: rest
  | trees => trees

def parameterNode (dialect : Dialect) (hasDefault : Bool) (text : String) : Node :=
  if dialect.typed then
    { kind := "required_parameter", children := [(Node.leaf "identifier" text).as "pattern"] }
  else if hasDefault then
    { kind := "assignment_pattern", children := [(Node.leaf "identifier" text).as "left"] }
  else .leaf "identifier" text

def parameterNodes (dialect : Dialect) (source : Array Char) : Nat → List Tree → List Node
  | 0, _ => []
  | fuel + 1, trees =>
    match skipParameterModifiers (skipDecorators dialect (trees.length + 1) trees) with
    | [] => []
    | t :: rest =>
      if t.isPunct "," then parameterNodes dialect source fuel rest
      else
        let (pattern, rest) := match t.isPunct "...", rest with
          | true, target :: rest => ([t, target], rest)
          | _, _ => ([t], rest)
        let rest := skipPunct "?" rest
        let rest := if dialect.typed then skipAnnotation rest else rest
        let (hasDefault, rest) := match rest with
          | sign :: value =>
            if sign.isPunct "=" then (true, skipExpression dialect true value) else (false, rest)
          | [] => (false, [])
        let rest := rest.dropWhile fun t => !t.isPunct ","
        parameterNode dialect hasDefault (textOfAll source pattern) ::
          parameterNodes dialect source fuel rest

def nameNode (source : Array Char) (name : Tree) : Node :=
  (Node.leaf "identifier" (textOf source name)).as "name"

def functionNode (kind : String) (dialect : Dialect) (source : Array Char) (isAsync : Bool)
    (parts : FunctionParts) : Node :=
  let parameters : Node :=
    { kind := "formal_parameters"
      children := parameterNodes dialect source (parts.parameters.length + 1) parts.parameters }
  let returnType := parts.returnSpan.map fun span =>
    (Node.leaf "type_annotation" (slice source span)).as "return_type"
  { kind
    children := (if isAsync then [{ kind := "async", text := "async", isNamed := false }] else []) ++
      (parts.name.map (nameNode source)).toList ++ [parameters.as "parameters"] ++ returnType.toList }

/-! ### Members of classes -/

def memberModifiers : List String :=
  ["public", "private", "protected", "static", "readonly", "abstract", "override", "declare",
    "async", "accessor", "get", "set"]

def isMemberName : Tree → Bool
  | .token .word _ _ _ => true
  | .token .string _ _ _ => true
  | .token .number _ _ _ => true
  | .group .bracket _ _ _ => true
  | _ => false

/-- Whether a word at the end of a line goes on with the tree on the next line. A word that can be a
name itself does so only before a generator's mark or, without types, a name in brackets. -/
def joinsLines (dialect : Dialect) (word next : Tree) : Bool :=
  word.isOneOf ["abstract", "accessor"] || next.isPunct "*" ||
    (!dialect.typed && next.isGroup .bracket)

def skipMemberModifiers (dialect : Dialect) : List Tree → List Tree
  | t :: next :: rest =>
    if t.isOneOf memberModifiers && (isMemberName next || next.isPunct "*" ||
        (t.isWord "static" && next.isGroup .brace)) &&
        (!next.onNewLine || joinsLines dialect t next) then
      skipMemberModifiers dialect (next :: rest)
    else if t.isPunct "*" then skipMemberModifiers dialect (next :: rest)
    else t :: next :: rest
  | trees => trees

def isIndexKey (t : Tree) : Bool :=
  match t with
  | .group .bracket (key :: colon :: _) _ _ => key.isAnyWord && colon.isPunct ":"
  | _ => false

def skipField (dialect : Dialect) (trees : List Tree) : List Tree :=
  let trees := if dialect.typed then skipAnnotation trees else trees
  match trees with
  | sign :: value => if sign.isPunct "=" then skipExpression dialect false value else trees
  | [] => []

def namelessMember : Node := .leaf "class_static_block" ""

def member (dialect : Dialect) (source : Array Char) (trees : List Tree) : Node × List Tree :=
  match trees with
  | [] => (namelessMember, [])
  | name :: rest =>
    if name.isGroup .brace then (namelessMember, rest)
    else if isIndexKey name then (namelessMember, skipField dialect rest)
    else if !isMemberName name then (namelessMember, rest)
    else
      let rest := skipPunct "!" (skipPunct "?" rest)
      let nameNode := nameNode source name
      match signature? dialect (some name) rest with
      | some parts => ({ kind := "method_definition", children := [nameNode] }, parts.rest)
      | none =>
        let field : Node := if dialect.typed
          then { kind := "public_field_definition", children := [nameNode] }
          else { kind := "field_definition", children := [nameNode.as "property"] }
        (field, skipField dialect rest)

def members (dialect : Dialect) (source : Array Char) : Nat → List Tree → List Node
  | 0, _ => []
  | fuel + 1, trees =>
    match skipDecorators dialect (trees.length + 1) trees with
    | [] => []
    | t :: rest =>
      if t.isPunct ";" || t.isPunct "," then members dialect source fuel rest
      else
        let (m, rest) := member dialect source (skipMemberModifiers dialect (t :: rest))
        m :: members dialect source fuel rest

/-- A class, which is a declaration only if it has a name. -/
def classNode (dialect : Dialect) (source : Array Char) (parts : ClassParts) : Node :=
  let body : Node :=
    { kind := "class_body"
      children := members dialect source (parts.members.length + 1) parts.members }
  { kind := if parts.name.isSome then "class_declaration" else "class"
    children := (parts.name.map (nameNode source)).toList ++ [body.as "body"] }

/-! ### Statements -/

def declarators (dialect : Dialect) (source : Array Char) :
    Nat → List Tree → List String × List Tree
  | 0, trees => ([], trees)
  | fuel + 1, trees =>
    match trees with
    | [] => ([], [])
    | binding :: rest =>
      if !isBinding binding then ([], trees)
      else
        let rest := skipPunct "!" rest
        let rest := if dialect.typed then skipAnnotation rest else rest
        let rest := match rest with
          | sign :: value => if sign.isPunct "=" then skipExpression dialect true value else rest
          | [] => []
        let name := textOf source binding
        match rest with
        | comma :: more =>
          if comma.isPunct "," then
            let (names, rest) := declarators dialect source fuel more
            (name :: names, rest)
          else ([name], rest)
        | [] => ([name], [])

def endStatement (trees : List Tree) : List Tree := skipPunct ";" trees

def followedByWord (trees : List Tree) : Bool :=
  match trees with
  | t :: _ => t.isAnyWord && !t.onNewLine
  | [] => false

def afterBraces (trees : List Tree) : List Tree :=
  (trees.dropWhile fun t => !t.isGroup .brace).drop 1

def afterNamespace (trees : List Tree) : List Tree :=
  match afterDottedName (trees.drop 1) with
  | .group .brace _ _ _ :: rest => rest
  | rest => endStatement rest

def afterAlias (dialect : Dialect) (trees : List Tree) : List Tree :=
  match skipTypeArguments (trees.drop 1) with
  | _ :: value => endStatement (match afterType? (typeFuel value) 0 value with
    | some rest => rest
    | none => skipExpression dialect false value)
  | [] => []

def variableNode (names : List String) : Node :=
  { kind := "lexical_declaration"
    children := names.map fun name =>
      { kind := "variable_declarator", children := [(Node.leaf "identifier" name).as "name"] } }

/-- A declaration behind its modifiers, and what follows it. A signature has no body, and ambient
declarations, types and namespaces are not looked into. -/
def declaration? (dialect : Dialect) (source : Array Char) :
    Nat → List Tree → Option (Node × List Tree)
  | 0, _ => none
  | _ + 1, [] => none
  | fuel + 1, t :: rest =>
    let bodiless (kind : String) (rest : List Tree) : Option (Node × List Tree) :=
      some (.leaf kind "", rest)
    let function (isAsync : Bool) (trees : List Tree) : Option (Node × List Tree) :=
      (function? dialect trees).map fun parts =>
        match parts.body, parts.name with
        | some _, some _ =>
          (functionNode "function_declaration" dialect source isAsync parts, parts.rest)
        | _, _ => (.leaf "function_signature" "", endStatement parts.rest)
    let classOf (trees : List Tree) : Option (Node × List Tree) :=
      (class? dialect trees).map fun parts => (classNode dialect source parts, parts.rest)
    match t with
    | .token .word w _ _ =>
      if w == "function" then function false rest
      else if w == "async" then
        match rest with
        | next :: more =>
          if next.isWord "function" && !next.onNewLine then function true more else none
        | [] => none
      else if w == "class" then classOf rest
      else if w == "abstract" then
        match rest with
        | next :: more => if next.isWord "class" then classOf more else none
        | [] => none
      else if w == "const" && rest.head?.any (·.isWord "enum") then
        bodiless "enum_declaration" (afterBraces rest)
      else if (w == "const" || w == "let" || w == "var") && rest.head?.any isBinding then
        let (names, rest) := declarators dialect source (rest.length + 1) rest
        some (variableNode names, endStatement rest)
      else if !dialect.typed then none
      else if w == "enum" && followedByWord rest then
        bodiless "enum_declaration" (afterBraces rest)
      else if w == "interface" && followedByWord rest then
        (class? dialect rest).map fun parts => (.leaf "interface_declaration" "", parts.rest)
      else if (w == "namespace" || w == "module") &&
          rest.head?.any (fun next => (next.isAnyWord || next.isString) && !next.onNewLine) then
        bodiless "internal_module" (afterNamespace rest)
      else if w == "global" && rest.head?.any (·.isGroup .brace) then
        bodiless "ambient_declaration" (rest.drop 1)
      else if w == "type" && followedByWord rest then
        bodiless "type_alias_declaration" (afterAlias dialect rest)
      else if w == "declare" && followedByWord rest || w == "declare" &&
          rest.head?.any (·.isWord "global") then
        (declaration? dialect source fuel rest).map fun (_, rest) =>
          (.leaf "ambient_declaration" "", rest)
      else none
    | _ => none

def specifierNode? (source : Array Char) (entry : List Tree) : Option Node :=
  let part (t : Tree) : Node := .leaf (if t.isString then "string" else "identifier") (textOf source t)
  match entry.reverse with
  | [] => none
  | last :: word :: name :: _ =>
    let children := if word.isWord "as" then [(part name).as "name", (part last).as "alias"]
      else [(part last).as "name"]
    some { kind := "export_specifier", children }
  | last :: _ => some { kind := "export_specifier", children := [(part last).as "name"] }

def exportNode (children : List Node) : Node := { kind := "export_statement", children }

def clauseNode (source : Array Char) (entries : List Tree) : Node :=
  exportNode [{
    kind := "export_clause"
    children := (splitTrees (·.isPunct ",") entries).filterMap (specifierNode? source) }]

def afterSource (trees : List Tree) : List Tree :=
  match trees with
  | word :: attributes :: rest =>
    if word.isOneOf ["with", "assert"] && attributes.isGroup .brace then endStatement rest
    else endStatement trees
  | _ => endStatement trees

def afterFrom (trees : List Tree) : List Tree :=
  match trees with
  | word :: source :: rest =>
    if word.isWord "from" && source.isString then afterSource rest else endStatement trees
  | _ => endStatement trees

def importStatement (dialect : Dialect) (source : Array Char) (trees : List Tree) :
    Node × List Tree :=
  let isAlias := match trees with
    | name :: sign :: rest =>
      name.isAnyWord && (sign.isPunct "=" ||
        (sign.isAnyWord && !sign.isWord "from" && rest.head?.any (·.isPunct "=")))
    | _ => false
  let isExpression := trees.head?.any fun t => t.isGroup .paren || t.isPunct "."
  if isAlias || isExpression then (plainNode, endStatement (skipExpression dialect false trees))
  else match trees.dropWhile fun t => !t.isString with
    | name :: rest =>
      let sourceNode := (Node.leaf "string" (textOf source name)).as "source"
      ({ kind := "import_statement", children := [sourceNode] }, afterSource rest)
    | [] => (plainNode, [])

/-- An exported declaration; a class without a name is a value. -/
def exportedNode (declaration : Node) : Node :=
  exportNode [declaration.as (if declaration.kind = "class" then "value" else "declaration")]

def valueFunction? (dialect : Dialect) (source : Array Char) (trees : List Tree) :
    Option (Node × List Tree) :=
  let valueOf (isAsync : Bool) (trees : List Tree) : Option (Node × List Tree) :=
    match function? dialect trees with
    | some parts =>
      if parts.name.isNone && parts.body.isSome then
        let value := functionNode "function_expression" dialect source isAsync parts
        some (exportNode [value.as "value"], endStatement parts.rest)
      else none
    | none => none
  match trees with
  | word :: next :: more =>
    if word.isWord "function" then valueOf false (next :: more)
    else if word.isWord "async" && next.isWord "function" && !next.onNewLine then valueOf true more
    else none
  | _ => none

def exportedDeclaration (dialect : Dialect) (source : Array Char) (isDeclaration : Bool)
    (trees : List Tree) : Node × List Tree :=
  match if isDeclaration then declaration? dialect source (trees.length + 1) trees else none with
  | some (d, rest) => (exportedNode d, endStatement rest)
  | none => (exportNode [], endStatement (skipExpression dialect false trees))

def defaultExport (dialect : Dialect) (source : Array Char) (trees : List Tree) :
    Node × List Tree :=
  let words := ["function", "async", "class", "abstract", "interface"]
  (valueFunction? dialect source trees).getD
    (exportedDeclaration dialect source (trees.head?.any (·.isOneOf words)) trees)

def afterAll (rest : List Tree) : List Tree :=
  afterSource ((rest.dropWhile fun t => !t.isString).drop 1)

def exportStatement (dialect : Dialect) (source : Array Char) (trees : List Tree) :
    Node × List Tree :=
  let trees := skipDecorators dialect (trees.length + 1) trees
  match trees with
  | [] => (exportNode [], [])
  | t :: rest =>
    if t.isWord "default" then
      defaultExport dialect source (skipDecorators dialect (rest.length + 1) rest)
    else if t.isGroup .brace then (clauseNode source t.children, afterFrom rest)
    else if t.isPunct "*" then (exportNode [], afterAll rest)
    else if t.isPunct "=" then (exportNode [], endStatement (skipExpression dialect false rest))
    else if t.isWord "as" then (exportNode [], endStatement (rest.drop 2))
    else if t.isWord "import" then (exportNode [], (importStatement dialect source rest).2)
    else match t.isWord "type", rest with
      | true, .group .brace children _ _ :: rest => (clauseNode source children, afterFrom rest)
      | true, star :: rest =>
        if star.isPunct "*" then (exportNode [], afterAll rest)
        else exportedDeclaration dialect source true trees
      | _, _ => exportedDeclaration dialect source true trees

def skipGroup (enclosure : Enclosure) (trees : List Tree) : List Tree :=
  match trees with
  | t :: rest => if t.isGroup enclosure then rest else trees
  | [] => []

def afterHandlers (trees : List Tree) : List Tree :=
  let trees := match trees with
    | t :: rest => if t.isWord "catch" then skipGroup .brace (skipGroup .paren rest) else trees
    | [] => []
  match trees with
  | t :: rest => if t.isWord "finally" then skipGroup .brace rest else trees
  | [] => []

def statement (dialect : Dialect) (source : Array Char) : Nat → List Tree → Node × List Tree
  | 0, _ => (plainNode, [])
  | _ + 1, [] => (plainNode, [])
  | fuel + 1, trees@(t :: rest) =>
    let nested (trees : List Tree) : List Tree := (statement dialect source fuel trees).2
    let plain : Node × List Tree := (plainNode, endStatement (skipExpressionFrom dialect false
      (trees.length + 1) [] trees))
    match t with
    | .token .punct p _ _ =>
      if p == ";" then (plainNode, rest)
      else if p == "@" then statement dialect source fuel (skipDecorators dialect fuel trees)
      else plain
    | .group .brace _ _ _ => (plainNode, rest)
    | .token .word w _ _ =>
      if rest.head?.any (·.isPunct ":") && !operatorWords.contains w then (plainNode, nested (rest.drop 1))
      else if w == "import" then importStatement dialect source rest
      else if w == "export" then exportStatement dialect source rest
      else if w == "if" then
        let rest := nested (skipGroup .paren rest)
        match rest with
        | next :: more => (plainNode, if next.isWord "else" then nested more else rest)
        | [] => (plainNode, [])
      else if w == "for" || w == "while" || w == "with" then
        (plainNode, nested (skipGroup .paren (skipWord "await" rest)))
      else if w == "do" then
        (plainNode, endStatement (skipGroup .paren (skipWord "while" (nested rest))))
      else if w == "try" then (plainNode, afterHandlers (skipGroup .brace rest))
      else if w == "switch" then (plainNode, skipGroup .brace (skipGroup .paren rest))
      else match declaration? dialect source (trees.length + 1) trees with
        | some found => found
        | none => plain
    | _ => plain

/-- The statements of a list of trees. A step that would read nothing drops one tree. -/
def statements (dialect : Dialect) (source : Array Char) : Nat → List Tree → List Node
  | 0, _ => []
  | _ + 1, [] => []
  | fuel + 1, trees =>
    let (s, rest) := statement dialect source (trees.length + 1) trees
    s :: statements dialect source fuel
      (if rest.length < trees.length then rest else trees.drop 1)

def treeOf (dialect : Dialect) (text : List Char) : Node :=
  let trees := treesOf dialect text
  { kind := "program", children := statements dialect text.toArray (trees.length + 1) trees }

end Groundwork.Source.Script.Reader
