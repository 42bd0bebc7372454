import Groundwork.Proofs.Source.Bodies
import Groundwork.Proofs.Source.Exports

/-!
Functions, classes and exports of a script with braces. The outline has what the module level declares,
unwrapped from exports, but a class that an export gives as its value is passed over.
-/

namespace Groundwork.Source.Script

/-- What a statement of the module level stands for: itself, or what it exports as a declaration or as a
value. -/
structure Declared where
  node : Node
  isExported : Bool
  asValue : Bool

namespace Declared

def isFunction (d : Declared) : Bool :=
  if d.asValue then valueKinds.contains d.node.kind else functionKinds.contains d.node.kind

def isClass (d : Declared) : Bool :=
  if d.asValue then d.node.kind == "class" else classKinds.contains d.node.kind

def seen (d : Declared) : String × Bool := (d.node.declaredName, d.isExported)

def function? (d : Declared) : Option FunctionInfo :=
  if d.isFunction then some (functionInfo d.isExported d.node) else none

def class? (d : Declared) : Option ClassInfo :=
  if d.isClass && !d.asValue then some (classInfo d.isExported d.node) else none

end Declared

def declared? (s : Node) : Option Declared :=
  if s.kind = "export_statement" then
    match s.child? "declaration" with
    | some n => some ⟨n, true, false⟩
    | none => (s.child? "value").map (⟨·, true, true⟩)
  else some ⟨s, false, false⟩

def moduleLevel (root : Node) : List Declared := root.namedChildren.filterMap declared?

def given (s : Node) : List String :=
  if s.kind = "export_statement" then
    match declared? s with
    | some d =>
      if d.asValue then if d.isFunction then [] else clauseNames s
      else if d.isFunction || d.isClass then [d.node.declaredName]
      else if variableKinds.contains d.node.kind then variableNames d.node else []
    | none => clauseNames s
  else []

structure Outlines (root : Node) (o : Outline) : Prop where
  functions : o.functions.map (fun f => (f.name, f.isExported)) =
    ((moduleLevel root).filter (·.isFunction)).map (·.seen)
  classes : o.classes.map (fun c => (c.name, c.isExported)) =
    ((moduleLevel root).filter fun d => d.isClass && !d.asValue).map (·.seen)
  exports : o.exports = Outline.exportable (root.namedChildren.flatMap given)
  exportedFunction : ∀ f ∈ o.functions, f.isExported = true → f.name ≠ "" → f.name ∈ o.exports ∨
    ∃ d ∈ moduleLevel root, d.asValue = true ∧ d.isFunction = true ∧ f.name = d.node.declaredName
  exportedClass : ∀ c ∈ o.classes, c.isExported = true → c.name ≠ "" → c.name ∈ o.exports

section Statements

variable {o : Outline} {s n : Node} {isExported : Bool}

structure Adds (s : Node) (o after : Outline) : Prop where
  functions : after.functions = o.functions ++ ((declared? s).bind (·.function?)).toList
  classes : after.classes = o.classes ++ ((declared? s).bind (·.class?)).toList
  exports : ∀ known, o.exports = Outline.exportable known →
    after.exports = Outline.exportable (known ++ given s)

theorem adds_declared {d : Declared} {after : Outline} (declared : declared? s = some d)
    (functions : after.functions = o.functions ++ d.function?.toList)
    (classes : after.classes = o.classes ++ d.class?.toList)
    (exports : ∀ known, o.exports = Outline.exportable known →
      after.exports = Outline.exportable (known ++ given s)) : Adds s o after :=
  ⟨by rwa [declared], by rwa [declared], exports⟩

theorem notFunction_of_class {kind : String} (isClass : classKinds.contains kind = true) :
    functionKinds.contains kind = false := by
  have apart : ∀ kind ∈ classKinds, functionKinds.contains kind = false := by decide
  exact apart kind (by simpa using isClass)

theorem direct_cases (n : Node) (isExported : Bool) :
    (functionKinds.contains n.kind = true ∧ classKinds.contains n.kind = false ∧
        Declared.function? ⟨n, isExported, false⟩ = some (functionInfo isExported n) ∧
        Declared.class? ⟨n, isExported, false⟩ = none) ∨
      (functionKinds.contains n.kind = false ∧ classKinds.contains n.kind = true ∧
        Declared.function? ⟨n, isExported, false⟩ = none ∧
        Declared.class? ⟨n, isExported, false⟩ = some (classInfo isExported n)) ∨
      functionKinds.contains n.kind = false ∧ classKinds.contains n.kind = false ∧
        Declared.function? ⟨n, isExported, false⟩ = none ∧ Declared.class? ⟨n, isExported, false⟩ = none := by
  have asFunction : Declared.function? ⟨n, isExported, false⟩ =
      if functionKinds.contains n.kind then some (functionInfo isExported n) else none := rfl
  have asClass : Declared.class? ⟨n, isExported, false⟩ =
      if classKinds.contains n.kind && true then some (classInfo isExported n) else none := rfl
  rw [asFunction, asClass]
  cases isClass : classKinds.contains n.kind with
  | true =>
      rw [notFunction_of_class isClass]
      exact Or.inr (Or.inl ⟨rfl, rfl, rfl, rfl⟩)
  | false =>
      cases functionKinds.contains n.kind with
      | true => exact Or.inl ⟨rfl, rfl, rfl, rfl⟩
      | false => exact Or.inr (Or.inr ⟨rfl, rfl, rfl, rfl⟩)

theorem variables_adds (n : Node) (o : Outline) :
    let after := if variableKinds.contains n.kind then (addVariables n o).addExports (variableNames n) else o
    after.functions = o.functions ∧ after.classes = o.classes ∧
      ∀ known, o.exports = Outline.exportable known → after.exports = Outline.exportable
        (known ++ if variableKinds.contains n.kind then variableNames n else []) := by
  cases variableKinds.contains n.kind with
  | true =>
      exact ⟨Outline.addExports_functions _ _, Outline.addExports_classes _ _,
        fun known kept => Outline.addExports_exports (o := addVariables n o) kept _⟩
  | false => exact ⟨rfl, rfl, fun known kept => kept.trans
      (congrArg Outline.exportable (List.append_nil known).symm)⟩

theorem adds_declaration (wrapper : s.kind = "export_statement")
    (declares : s.child? "declaration" = some n) : Adds s o (addExportedDeclaration n o) := by
  have declared : declared? s = some ⟨n, true, false⟩ := by
    rw [declared?, if_pos wrapper, declares]
  have names : given s = if functionKinds.contains n.kind || classKinds.contains n.kind then
      [n.declaredName] else if variableKinds.contains n.kind then variableNames n else [] := by
    rw [given, if_pos wrapper, declared]
    rfl
  rw [addExportedDeclaration]
  rcases direct_cases n true with ⟨isFunction, notClass, function, none⟩ |
    ⟨notFunction, isClass, none, «class»⟩ | ⟨notFunction, notClass, none, noClass⟩
  · rw [isFunction, Bool.true_or, if_pos rfl] at names
    rw [if_pos isFunction]
    refine adds_declared declared ?_ ?_ ?_
    · rw [function]
      exact Outline.addExport_functions _ _
    · rw [none, Option.toList_none, List.append_nil]
      exact Outline.addExport_classes _ _
    · intro known kept
      rw [names]
      exact Outline.addExport_exports (o := addFunction true n o) kept _
  · rw [isClass, Bool.or_true, if_pos rfl] at names
    rw [if_neg (ne_true_of_eq_false notFunction), if_pos isClass]
    refine adds_declared declared ?_ ?_ ?_
    · rw [none, Option.toList_none, List.append_nil]
      exact Outline.addExport_functions _ _
    · rw [«class»]
      exact Outline.addExport_classes _ _
    · intro known kept
      rw [names]
      exact Outline.addExport_exports (o := addClass true n o) kept _
  · rw [notFunction, notClass, Bool.or_false, if_neg Bool.false_ne_true] at names
    rw [if_neg (ne_true_of_eq_false notFunction), if_neg (ne_true_of_eq_false notClass)]
    obtain ⟨functions, classes, exports⟩ := variables_adds n o
    refine adds_declared declared ?_ ?_ fun known kept => names ▸ exports known kept
    · rw [none, functions]
      exact (List.append_nil _).symm
    · rw [noClass, classes]
      exact (List.append_nil _).symm

theorem clauses_adds (known : List String) (kept : o.exports = Outline.exportable known) :
    (o.addExports (clauseNames s)).exports = Outline.exportable (known ++ clauseNames s) :=
  Outline.addExports_exports kept _

theorem adds_clauses (wrapper : s.kind = "export_statement") (undeclared : s.child? "declaration" = none)
    (valueless : s.child? "value" = none) : Adds s o (o.addExports (clauseNames s)) := by
  have declared : declared? s = none := by
    rw [declared?, if_pos wrapper, undeclared, valueless]
    rfl
  have names : given s = clauseNames s := by
    rw [given, if_pos wrapper, declared]
  refine ⟨?_, ?_, fun known kept => names ▸ clauses_adds known kept⟩
  · rw [declared]
    exact (Outline.addExports_functions _ _).trans (List.append_nil _).symm
  · rw [declared]
    exact (Outline.addExports_classes _ _).trans (List.append_nil _).symm

theorem adds_value (wrapper : s.kind = "export_statement") (undeclared : s.child? "declaration" = none)
    (gives : s.child? "value" = some n) : Adds s o
      (if valueKinds.contains n.kind then addFunction true n o else o.addExports (clauseNames s)) := by
  have declared : declared? s = some ⟨n, true, true⟩ := by
    rw [declared?, if_pos wrapper, undeclared, gives]
    rfl
  have names : given s = if valueKinds.contains n.kind then [] else clauseNames s := by
    rw [given, if_pos wrapper, declared]
    rfl
  have function : Declared.function? ⟨n, true, true⟩ =
      if valueKinds.contains n.kind then some (functionInfo true n) else none := rfl
  have noClass : Declared.class? ⟨n, true, true⟩ = none := by
    rw [Declared.class?, Bool.not_true, Bool.and_false]
    rfl
  cases isFunction : valueKinds.contains n.kind with
  | true =>
      rw [isFunction] at names function
      refine adds_declared declared ?_ ?_ ?_
      · rw [function]
        rfl
      · rw [noClass]
        exact (List.append_nil _).symm
      · intro known kept
        rw [names]
        exact kept.trans (congrArg Outline.exportable (List.append_nil known).symm)
  | false =>
      rw [isFunction] at names function
      refine adds_declared declared ?_ ?_ ?_
      · rw [function]
        exact (Outline.addExports_functions _ _).trans (List.append_nil _).symm
      · rw [noClass]
        exact (Outline.addExports_classes _ _).trans (List.append_nil _).symm
      · intro known kept
        rw [names]
        exact clauses_adds known kept

theorem addExported_adds (wrapper : s.kind = "export_statement") : Adds s o (addExported s o) := by
  rw [addExported, valueFunction?]
  cases declares : s.child? "declaration" with
  | some n => exact adds_declaration wrapper declares
  | none =>
      cases gives : s.child? "value" with
      | none => exact adds_clauses wrapper declares gives
      | some v =>
          have adds := adds_value (o := o) wrapper declares gives
          rw [Option.filter_some]
          cases isFunction : valueKinds.contains v.kind with
          | true => rwa [isFunction] at adds
          | false => rwa [isFunction] at adds

theorem adds_other {after : Outline} (direct : s.kind ≠ "export_statement")
    (notFunction : functionKinds.contains s.kind = false) (notClass : classKinds.contains s.kind = false)
    (functions : after.functions = o.functions) (classes : after.classes = o.classes)
    (exports : after.exports = o.exports) : Adds s o after := by
  have declared : declared? s = some ⟨s, false, false⟩ := if_neg direct
  rcases direct_cases s false with ⟨isFunction, _⟩ | ⟨_, isClass, _⟩ | ⟨_, _, none, noClass⟩
  · rw [notFunction] at isFunction
    cases isFunction
  · rw [notClass] at isClass
    cases isClass
  · refine adds_declared declared ?_ ?_ ?_
    · rw [none, functions]
      exact (List.append_nil _).symm
    · rw [noClass, classes]
      exact (List.append_nil _).symm
    · intro known kept
      rw [given, if_neg direct, List.append_nil, exports]
      exact kept

theorem addStatement_adds (o : Outline) (s : Node) : Adds s o (addStatement o s) := by
  rw [addStatement]
  split
  · rename_i importing
    refine adds_other ?_ ?_ ?_ ?_ ?_ ?_
    · rw [importing]
      decide
    · rw [importing]
      decide
    · rw [importing]
      decide
    all_goals
      rw [addImport]
      split <;> rfl
  split
  · rename_i wrapper
    exact addExported_adds wrapper
  · rename_i direct
    have declared : declared? s = some ⟨s, false, false⟩ := if_neg direct
    have names (known : List String) : Outline.exportable (known ++ given s) = Outline.exportable known := by
      rw [given, if_neg direct, List.append_nil]
    rcases direct_cases s false with ⟨isFunction, _, function, none⟩ |
      ⟨notFunction, isClass, none, «class»⟩ | ⟨notFunction, notClass, _, _⟩
    · rw [if_pos isFunction]
      refine adds_declared declared ?_ ?_ fun known kept => (names known).symm ▸ kept
      · rw [function]
        rfl
      · rw [none]
        exact (List.append_nil _).symm
    · rw [if_neg (ne_true_of_eq_false notFunction), if_pos isClass]
      refine adds_declared declared ?_ ?_ fun known kept => (names known).symm ▸ kept
      · rw [none]
        exact (List.append_nil _).symm
      · rw [«class»]
        rfl
    · rw [if_neg (ne_true_of_eq_false notFunction), if_neg (ne_true_of_eq_false notClass)]
      split <;> exact adds_other direct notFunction notClass rfl rfl rfl

end Statements

section Runs

variable (root : Node)

theorem filterMap_singleton {α β : Type} (f : α → Option β) (a : α) :
    [a].filterMap f = (f a).toList := by
  cases made : f a <;> simp [made]

theorem foldl_adds (statements : List Node) :
    (statements.foldl addStatement {}).functions =
        statements.filterMap (fun s => (declared? s).bind (·.function?)) ∧
      (statements.foldl addStatement {}).classes =
        statements.filterMap (fun s => (declared? s).bind (·.class?)) ∧
      (statements.foldl addStatement {}).exports = Outline.exportable (statements.flatMap given) := by
  induction statements using List.reverseRecOn with
  | nil => exact ⟨rfl, rfl, rfl⟩
  | append_singleton statements s ih =>
      obtain ⟨functions, classes, exports⟩ := ih
      have adds := addStatement_adds (statements.foldl addStatement {}) s
      rw [List.foldl_append, List.foldl_cons, List.foldl_nil, List.filterMap_append,
        List.filterMap_append, filterMap_singleton, filterMap_singleton, List.flatMap_append,
        List.flatMap_singleton, ← functions, ← classes]
      exact ⟨adds.functions, adds.classes, adds.exports _ exports⟩

theorem outlineOf_functions :
    (outlineOf root).functions = (moduleLevel root).filterMap (·.function?) := by
  rw [moduleLevel, List.filterMap_filterMap]
  exact (foldl_adds root.namedChildren).1

theorem outlineOf_classes : (outlineOf root).classes = (moduleLevel root).filterMap (·.class?) := by
  rw [moduleLevel, List.filterMap_filterMap]
  exact (foldl_adds root.namedChildren).2.1

theorem outlineOf_exports :
    (outlineOf root).exports = Outline.exportable (root.namedChildren.flatMap given) :=
  (foldl_adds root.namedChildren).2.2

theorem mem_given {d : Declared} (member : d ∈ moduleLevel root) (isExported : d.isExported = true)
    (direct : d.asValue = false) (declares : (d.isFunction || d.isClass) = true) :
    d.node.declaredName ∈ root.namedChildren.flatMap given := by
  obtain ⟨s, among, declared⟩ := List.mem_filterMap.mp member
  refine List.mem_flatMap.mpr ⟨s, among, ?_⟩
  by_cases wrapper : s.kind = "export_statement"
  · rw [given, if_pos wrapper, declared]
    dsimp only
    rw [if_neg (by simp [direct]), if_pos declares]
    exact List.mem_singleton_self _
  · rw [declared?, if_neg wrapper] at declared
    cases declared
    cases isExported

theorem outlines : Outlines root (outlineOf root) where
  functions := by
    rw [outlineOf_functions, List.map_filterMap, ← List.filterMap_eq_map, List.filterMap_filter]
    refine List.filterMap_congr fun d _ => ?_
    rw [Declared.function?]
    split <;> rfl
  classes := by
    rw [outlineOf_classes, List.map_filterMap, ← List.filterMap_eq_map, List.filterMap_filter]
    refine List.filterMap_congr fun d _ => ?_
    rw [Declared.class?]
    split <;> rfl
  exports := outlineOf_exports root
  exportedFunction := by
    intro f member isExported filled
    rw [outlineOf_functions] at member
    obtain ⟨d, among, made⟩ := List.mem_filterMap.mp member
    rw [Declared.function?] at made
    split at made
    · rename_i isFunction
      cases made
      cases value : d.asValue with
      | true => exact Or.inr ⟨d, among, value, isFunction, rfl⟩
      | false =>
          left
          rw [outlineOf_exports, Outline.mem_exportable]
          exact ⟨mem_given root among isExported value (by rw [isFunction]; rfl), filled⟩
    · cases made
  exportedClass := by
    intro c member isExported filled
    rw [outlineOf_classes] at member
    obtain ⟨d, among, made⟩ := List.mem_filterMap.mp member
    rw [Declared.class?] at made
    split at made
    · rename_i direct
      cases made
      obtain ⟨isClass, direct⟩ := Bool.and_eq_true_iff.mp direct
      rw [outlineOf_exports, Outline.mem_exportable]
      refine ⟨mem_given root among isExported (by simpa using direct) ?_, filled⟩
      rw [isClass, Bool.or_true]
    · cases made

end Runs

section Nesting

variable {s n : Node} {isExported asValue : Bool}

theorem functionInfo_hollow (isExported : Bool) (n : Node) :
    functionInfo isExported n.hollow = functionInfo isExported n := by
  rw [functionInfo, functionInfo, Node.declaredName_hollow, Node.child?_hollow (by decide),
    Node.child?_hollow (by decide), Node.hasChild_hollow]

theorem function?_hollow : Declared.function? ⟨n.hollow, isExported, asValue⟩ =
    Declared.function? ⟨n, isExported, asValue⟩ := by
  have same : Declared.isFunction ⟨n.hollow, isExported, asValue⟩ =
      Declared.isFunction ⟨n, isExported, asValue⟩ := by
    rw [Declared.isFunction, Declared.isFunction, Node.hollow_kind]
  rw [Declared.function?, Declared.function?, same, functionInfo_hollow]

theorem isClass_hollow : Declared.isClass ⟨n.hollow, isExported, asValue⟩ =
    Declared.isClass ⟨n, isExported, asValue⟩ := by
  rw [Declared.isClass, Declared.isClass, Node.hollow_kind]

theorem class?_hollow : (Declared.class? ⟨n.hollow, isExported, asValue⟩).map Outline.seen =
    (Declared.class? ⟨n, isExported, asValue⟩).map Outline.seen := by
  have name : Outline.seen (classInfo isExported n.hollow) = Outline.seen (classInfo isExported n) :=
    congrArg (·, isExported) n.declaredName_hollow
  rw [Declared.class?, Declared.class?, isClass_hollow]
  split
  · exact congrArg some name
  · rfl

theorem declared?_outer (s : Node) :
    declared? s.outer = (declared? s).map (fun d => { d with node := d.node.hollow }) ∨
      s.kind = "decorated_definition" := by
  by_cases wrapper : s.kind = "export_statement"
  · left
    rw [declared?, declared?, Node.outer_kind, if_pos wrapper, if_pos wrapper,
      Node.child?_outer (Or.inl wrapper), Node.child?_outer (Or.inl wrapper)]
    cases s.child? "declaration" with
    | some n => rfl
    | none => cases s.child? "value" <;> rfl
  · by_cases decorated : s.kind = "decorated_definition"
    · exact Or.inr decorated
    · left
      rw [declared?, declared?, Node.outer_kind, if_neg wrapper, if_neg wrapper,
        Node.outer_of_kind wrapper decorated]
      rfl

/-- No script has statements of this kind. -/
theorem declared?_decorated (decorated : s.kind = "decorated_definition") :
    (declared? s).bind (·.function?) = none ∧ (declared? s).bind (·.class?) = none := by
  have direct : s.kind ≠ "export_statement" := by
    rw [decorated]
    decide
  rw [declared?, if_neg direct]
  rcases direct_cases s false with ⟨isFunction, _⟩ | ⟨_, isClass, _⟩ | ⟨_, _, none, noClass⟩
  · rw [decorated] at isFunction
    cases isFunction
  · rw [decorated] at isClass
    cases isClass
  · exact ⟨none, noClass⟩

theorem functions_outer (s : Node) :
    (declared? s.outer).bind (·.function?) = (declared? s).bind (·.function?) := by
  rcases declared?_outer s with same | decorated
  · rw [same]
    cases declared? s with
    | none => rfl
    | some d => exact function?_hollow
  · rw [(declared?_decorated decorated).1,
      (declared?_decorated ((Node.outer_kind s).trans decorated)).1]

theorem classes_outer (s : Node) : ((declared? s.outer).bind (·.class?)).map Outline.seen =
    ((declared? s).bind (·.class?)).map Outline.seen := by
  rcases declared?_outer s with same | decorated
  · rw [same]
    cases declared? s with
    | none => rfl
    | some d => exact class?_hollow
  · rw [(declared?_decorated decorated).2,
      (declared?_decorated ((Node.outer_kind s).trans decorated)).2]

theorem clauseNames_outer (wrapper : s.kind = "export_statement") :
    clauseNames s.outer = clauseNames s := by
  have clauses : (s.namedChildren.map Node.hollow).filter (·.kind == "export_clause") =
      s.namedChildren.filter (·.kind == "export_clause") := by
    rw [List.filter_map]
    have kinds : ((·.kind == "export_clause") ∘ Node.hollow) = fun n : Node => n.kind == "export_clause" := by
      funext n
      exact congrArg (· == "export_clause") n.hollow_kind
    rw [kinds]
    refine (List.map_congr_left fun n member => ?_).trans (List.map_id _)
    have clause : n.kind = "export_clause" := by simpa using (List.mem_filter.mp member).2
    refine Node.hollow_of_kind ?_
    rw [clause]
    decide
  rw [clauseNames, clauseNames, Node.namedChildren_outer (Or.inl wrapper), clauses]

theorem given_outer (s : Node) : given s.outer = given s := by
  by_cases wrapper : s.kind = "export_statement"
  · have declared : declared? s.outer = (declared? s).map fun d => { d with node := d.node.hollow } := by
      refine (declared?_outer s).resolve_right fun decorated => ?_
      rw [wrapper] at decorated
      exact absurd decorated (by decide)
    rw [given, given, Node.outer_kind, if_pos wrapper, if_pos wrapper, declared,
      clauseNames_outer wrapper]
    cases declared? s with
    | none => rfl
    | some d =>
        have isFunction : Declared.isFunction { d with node := d.node.hollow } = d.isFunction := by
          rw [Declared.isFunction, Declared.isFunction, Node.hollow_kind]
        have isClass : Declared.isClass { d with node := d.node.hollow } = d.isClass := isClass_hollow
        have names : variableKinds.contains d.node.kind = true →
            variableNames d.node.hollow = variableNames d.node := by
          intro isVariable
          have apart : ∀ kind ∈ variableKinds, Node.bodyKinds.contains kind = false := by decide
          rw [Node.hollow_of_kind (apart _ (by simpa using isVariable))]
        simp only [Option.map_some, isFunction, isClass, Node.declaredName_hollow, Node.hollow_kind]
        split
        · rfl
        split
        · rfl
        split
        · rename_i isVariable
          exact names isVariable
        · rfl
  · rw [given, given, Node.outer_kind, if_neg wrapper, if_neg wrapper]

/-- Two scripts that differ at most in bodies have the same functions, classes and exports. -/
theorem outlineOf_outer {root other : Node}
    (alike : other.namedChildren.map Node.outer = root.namedChildren.map Node.outer) :
    (outlineOf other).functions = (outlineOf root).functions ∧
      (outlineOf other).classes.map Outline.seen = (outlineOf root).classes.map Outline.seen ∧
      (outlineOf other).exports = (outlineOf root).exports := by
  have functions (statements : List Node) :
      statements.filterMap (fun s => (declared? s).bind (·.function?)) =
        (statements.map Node.outer).filterMap fun s => (declared? s).bind (·.function?) := by
    rw [List.filterMap_map]
    exact List.filterMap_congr fun s _ => (functions_outer s).symm
  have classes (statements : List Node) :
      (statements.filterMap fun s => (declared? s).bind (·.class?)).map Outline.seen =
        (statements.map Node.outer).filterMap fun s =>
          ((declared? s).bind (·.class?)).map Outline.seen := by
    rw [List.map_filterMap, List.filterMap_map]
    exact List.filterMap_congr fun s _ => (classes_outer s).symm
  have exports (statements : List Node) :
      statements.flatMap given = (statements.map Node.outer).flatMap given := by
    rw [List.flatMap_map]
    exact List.flatMap_congr fun s _ => (given_outer s).symm
  obtain ⟨ofFunctions, ofClasses, ofExports⟩ := foldl_adds root.namedChildren
  obtain ⟨otherFunctions, otherClasses, otherExports⟩ := foldl_adds other.namedChildren
  refine ⟨?_, ?_, ?_⟩
  · rw [outlineOf, outlineOf, otherFunctions, ofFunctions, functions other.namedChildren, alike,
      ← functions root.namedChildren]
  · rw [outlineOf, outlineOf, otherClasses, ofClasses, classes other.namedChildren, alike,
      ← classes root.namedChildren]
  · rw [outlineOf, outlineOf, otherExports, ofExports, exports other.namedChildren, alike,
      ← exports root.namedChildren]

end Nesting

end Groundwork.Source.Script
