import Groundwork.Source.Script.Reading

/-!
How far types, expressions, functions and classes reach in a list of trees. Every function here gives
back the trees that follow; where a construct may be absent, `none` says that it is not there.
-/

namespace Groundwork.Source.Script

def typeModifiers : List String :=
  ["keyof", "typeof", "unique", "readonly", "infer", "asserts", "abstract", "new", "const", "in",
    "out"]

def canFollowModifier : Tree → Bool
  | .token .word w _ _ => w != "is" && w != "extends"
  | .token .string _ _ _ => true
  | .token .punct p _ _ => p == "<"
  | .group .paren _ _ _ => true
  | .group .bracket _ _ _ => true
  | _ => false

mutual

/-- A type, from a place where an operand of it is due; `conditions` counts the conditional types
that are open around it. -/
def afterType? : Nat → (conditions : Nat) → List Tree → Option (List Tree)
  | 0, _, _ => none
  | _ + 1, _, [] => none
  | fuel + 1, conditions, t :: rest =>
    match t with
    | .token .punct p _ _ =>
      if p == "|" || p == "&" || p == "-" then afterType? fuel conditions rest
      else if p == "<" then
        match afterTypeArguments? fuel rest with
        | some rest => afterType? fuel conditions rest
        | none => none
      else none
    | .token .word w _ _ =>
      if typeModifiers.contains w && rest.head?.any canFollowModifier then
        afterType? fuel conditions rest
      else afterTypeOperand? fuel conditions false rest
    | .token .regex _ _ _ => none
    | .token _ _ _ _ => afterTypeOperand? fuel conditions false rest
    | .group .paren _ _ _ => afterTypeOperand? fuel conditions true rest
    | .group .markup _ _ _ => none
    | .group _ _ _ _ => afterTypeOperand? fuel conditions false rest

/-- The rest of a type after one of its operands; `callable` says that this was a list of
parameters, which an arrow may follow. -/
def afterTypeOperand? :
    Nat → (conditions : Nat) → (callable : Bool) → List Tree → Option (List Tree)
  | 0, _, _, _ => none
  | _ + 1, _, _, [] => some []
  | fuel + 1, conditions, callable, t :: rest =>
    match t with
    | .token .punct p _ _ =>
      if p == "|" || p == "&" || p == "." then afterType? fuel conditions rest
      else if p == "=>" && callable then afterType? fuel conditions rest
      else if p == "<" then
        match afterTypeArguments? fuel rest with
        | some rest => afterTypeOperand? fuel conditions false rest
        | none => some (t :: rest)
      else if p == "?" && conditions != 0 then afterType? fuel conditions rest
      else if p == ":" && conditions != 0 then afterType? fuel (conditions - 1) rest
      else some (t :: rest)
    | .token .word w _ onNewLine =>
      if w == "extends" then afterType? fuel (conditions + 1) rest
      else if w == "is" && !onNewLine then afterType? fuel conditions rest
      else some (t :: rest)
    | .group .bracket _ _ onNewLine =>
      if onNewLine then some (t :: rest) else afterTypeOperand? fuel conditions false rest
    | .group .paren _ _ onNewLine =>
      if callable || onNewLine then some (t :: rest)
      else afterTypeOperand? fuel conditions true rest
    | _ => some (t :: rest)

def afterTypeArguments? : Nat → List Tree → Option (List Tree)
  | 0, _ => none
  | _ + 1, [] => none
  | fuel + 1, t :: rest =>
    if t.isPunct ">" then some rest
    else if t.isPunct "," || t.isPunct "=" then afterTypeArguments? fuel rest
    else match afterType? fuel 0 (t :: rest) with
      | some rest => afterTypeArguments? fuel rest
      | none => none

end

def typeFuel (trees : List Tree) : Nat := 3 * trees.length + 3

def skipType (trees : List Tree) : List Tree := (afterType? (typeFuel trees) 0 trees).getD trees

def skipTypeArguments (trees : List Tree) : List Tree :=
  match trees with
  | t :: rest =>
    if t.isPunct "<" then (afterTypeArguments? (typeFuel rest) rest).getD trees else trees
  | [] => []

def skipPunct (text : String) (trees : List Tree) : List Tree :=
  match trees with
  | t :: rest => if t.isPunct text then rest else trees
  | [] => []

def skipWord (text : String) (trees : List Tree) : List Tree :=
  match trees with
  | t :: rest => if t.isWord text then rest else trees
  | [] => []

def annotation? (trees : List Tree) : Option (Span × List Tree) :=
  match trees with
  | colon :: rest =>
    if colon.isPunct ":" then
      let after := skipType rest
      let consumed := rest.take (rest.length - after.length)
      match consumed.getLast? with
      | some last => some (⟨colon.span.start, last.span.stop⟩, after)
      | none => none
    else none
  | [] => none

def skipAnnotation (trees : List Tree) : List Tree :=
  match annotation? trees with
  | some (_, rest) => rest
  | none => trees

/-- The parts of a function: its name, the trees of its parameters, the span of the type it gives
back, and the trees of its body, which is absent in a mere signature. -/
structure FunctionParts where
  name : Option Tree
  parameters : List Tree
  returnSpan : Option Span
  body : Option (List Tree)
  rest : List Tree

def body? (trees : List Tree) : Option (List Tree × List Tree) :=
  match trees with
  | .group .brace children _ _ :: rest => some (children, rest)
  | _ => none

def signature? (dialect : Dialect) (name : Option Tree) (trees : List Tree) :
    Option FunctionParts :=
  match if dialect.typed then skipTypeArguments trees else trees with
  | .group .paren parameters _ _ :: rest =>
    let (returnSpan, rest) := match if dialect.typed then annotation? rest else none with
      | some (span, rest) => (some span, rest)
      | none => (none, rest)
    match body? rest with
    | some (body, rest) => some ⟨name, parameters, returnSpan, some body, rest⟩
    | none => some ⟨name, parameters, returnSpan, none, rest⟩
  | _ => none

def function? (dialect : Dialect) (trees : List Tree) : Option FunctionParts :=
  match skipPunct "*" trees with
  | name :: rest =>
    if name.isAnyWord then signature? dialect (some name) rest
    else signature? dialect none (name :: rest)
  | [] => none

structure ClassParts where
  name : Option Tree
  members : List Tree
  rest : List Tree

def classBody? (dialect : Dialect) (name : Option Tree) : Nat → List Tree → Option ClassParts
  | 0, _ => none
  | _ + 1, [] => none
  | fuel + 1, t :: rest =>
    match t with
    | .group .brace members _ _ => some ⟨name, members, rest⟩
    | _ =>
      if dialect.typed && t.isPunct "<" then
        match afterTypeArguments? (typeFuel rest) rest with
        | some after => classBody? dialect name fuel after
        | none => classBody? dialect name fuel rest
      else classBody? dialect name fuel rest

def class? (dialect : Dialect) (trees : List Tree) : Option ClassParts :=
  match trees with
  | t :: rest =>
    if t.isAnyWord && !t.isOneOf ["extends", "implements"] then
      classBody? dialect (some t) (rest.length + 1) rest
    else classBody? dialect none (trees.length + 1) trees
  | [] => none

/-- Whether a tree on a new line goes on with the expression before it. -/
def continues : Tree → Bool
  | .token .word w _ _ => w == "in" || w == "instanceof"
  | .token .punct p _ _ => !(["++", "--", "!", "~", "@", "#", ";"].contains p)
  | .token .regex _ _ _ => true
  | .token _ _ _ _ => false
  | .group .brace _ _ _ => false
  | .group _ _ _ _ => true

def followsTypeArguments : List Tree → Bool
  | [] => true
  | .token .punct p _ _ :: _ => !(["!", "~", "+", "-", "++", "--", "@", "<"].contains p)
  | .token .word w _ onNewLine :: _ => onNewLine || w == "as" || w == "satisfies"
  | .token _ _ _ onNewLine :: _ => onNewLine
  | .group .paren _ _ _ :: _ => true
  | .group .template _ _ _ :: _ => true
  | .group _ _ _ onNewLine :: _ => onNewLine

/-- Whether an operand is due within an expression. Braces in it are objects or bodies, and both
end an operand. -/
def isOperandDue : List Tree → Bool
  | .group .brace _ _ _ :: _ => false
  | before => expectsOperand before

/-- One step through an expression, which `before` has begun, the last tree first: the trees read
then and those that remain. There is no step where the expression ends: at a semicolon, at a line
break where no operand is due and the next tree does not go on with it, and, for a `single`
expression, at a comma. -/
def expressionStep? (dialect : Dialect) (single : Bool) (before : List Tree) :
    List Tree → Option (List Tree × List Tree)
  | [] => none
  | t :: rest =>
    let due := isOperandDue before
    let plain := some (t :: before, rest)
    let body := Tree.group .brace [] t.span false
    if t.isPunct ";" || (single && t.isPunct ",") then none
    else if !due && t.onNewLine && !continues t then none
    else if due && t.isWord "function" then
      match function? dialect rest with
      | some parts => some (body :: before, parts.rest)
      | none => plain
    else if due && t.isWord "class" then
      match class? dialect rest with
      | some parts => some (body :: before, parts.rest)
      | none => plain
    else if dialect.typed && t.isPunct "<" then
      match afterTypeArguments? (typeFuel rest) rest with
      | some after => if due || followsTypeArguments after then some (before, after) else plain
      | none => plain
    else if dialect.typed && !due && t.isOneOf ["as", "satisfies"] then
      match afterType? (typeFuel rest) 0 rest with
      | some after => some (before, after)
      | none => plain
    else if dialect.typed && t.isPunct ":" && before.head?.any (·.isGroup .paren) then
      match afterType? (typeFuel rest) 0 rest with
      | some (arrow :: after) => if arrow.isPunct "=>" then some (arrow :: before, after) else plain
      | _ => plain
    else plain

def skipExpressionFrom (dialect : Dialect) (single : Bool) : Nat → List Tree → List Tree → List Tree
  | 0, _, trees => trees
  | fuel + 1, before, trees =>
    match expressionStep? dialect single before trees with
    | some (before, rest) => skipExpressionFrom dialect single fuel before rest
    | none => trees

def skipExpression (dialect : Dialect) (single : Bool) (trees : List Tree) : List Tree :=
  skipExpressionFrom dialect single (trees.length + 1) [.token .punct "=" ⟨0, 0⟩ false] trees

end Groundwork.Source.Script
