import Groundwork.Proofs.Source.Bodies
import Groundwork.Proofs.Source.Exports
import Groundwork.Proofs.Text.Pieces
import Groundwork.Source.Offside.Extraction

/-!
Functions, classes and exports of a script with indented blocks. The exports are read off the literals of the
last list of public names, if there is one. A mark before the quotes of a literal is taken for a part of the
name, and so are the quotes behind it.
-/

namespace Groundwork.Source

section Literals

def isQuote (c : Char) : Bool := ['"', '\'', Char.ofNat 96].contains c

structure Taken (literal name : String) : Prop where
  inside : ∃ front back, literal.toList = front ++ name.toList ++ back ∧
    (∀ c ∈ front, isQuote c = true) ∧ ∀ c ∈ back, isQuote c = true
  first : ∀ c ∈ name.toList.head?, isQuote c = false
  last : ∀ c ∈ name.toList.getLast?, isQuote c = false

/-- A literal as it is written, with a mark before the quotes if it has one. -/
structure Spelled (literal : String) (mark quote content : List Char) : Prop where
  text : literal.toList = mark ++ quote ++ content ++ quote
  quotes : ∀ c ∈ quote, isQuote c = true
  unquoted : ∀ c ∈ mark, isQuote c = false
  filled : content ≠ []
  first : ∀ c ∈ content.head?, isQuote c = false
  last : ∀ c ∈ content.getLast?, isQuote c = false

theorem unquoted_eq (literal : String) :
    unquoted literal = .ofList (Text.trim isQuote literal.toList) := rfl

theorem unquoted_taken (literal : String) : Taken literal (unquoted literal) := by
  obtain ⟨back, rest, closing⟩ := Text.trimEnd_append isQuote (literal.toList.dropWhile isQuote)
  have kept : (unquoted literal).toList = Text.trim isQuote literal.toList := by
    rw [unquoted_eq, String.toList_ofList]
  refine ⟨⟨literal.toList.takeWhile isQuote, back, ?_, ?_, closing⟩, ?_, ?_⟩
  · rw [kept, Text.trim, List.append_assoc, ← rest, List.takeWhile_append_dropWhile]
  · exact fun c member => List.mem_takeWhile_imp member
  · intro c first
    rw [kept, Text.trim] at first
    refine Text.halts_dropWhile isQuote literal.toList c ?_
    rw [rest, List.head?_append]
    simp [Option.mem_def.mp first]
  · intro c last
    rw [kept, Text.trim, Text.trimEnd_eq] at last
    have filled : (literal.toList.dropWhile isQuote).rdropWhile isQuote ≠ [] := by
      intro none
      rw [none] at last
      cases last
    rw [List.getLast?_eq_some_getLast filled] at last
    obtain rfl := Option.some.inj last
    exact (Bool.not_eq_true _).mp (List.rdropWhile_last_not isQuote _ filled)

theorem Spelled.unquoted_eq {literal : String} {mark quote content : List Char}
    (spelled : Spelled literal mark quote content) :
    Source.unquoted literal = .ofList (if mark = [] then content else mark ++ quote ++ content) := by
  obtain ⟨front, c, rfl⟩ := (List.eq_nil_or_concat' content).resolve_left spelled.filled
  have keeps : isQuote c = false := spelled.last c (by simp)
  have bare : Text.trimEnd isQuote quote = [] := by
    rw [Text.trimEnd_eq, List.rdropWhile_eq_nil_iff]
    exact spelled.quotes
  have closed (start : List Char) :
      Text.trimEnd isQuote (start ++ (front ++ [c]) ++ quote) = start ++ (front ++ [c]) := by
    rw [← List.append_assoc, List.append_assoc _ [c] quote, List.singleton_append,
      Text.trimEnd_append_cons keeps, bare]
  have halts : Text.Halts isQuote (front ++ [c] ++ quote) := by
    intro d first
    refine spelled.first d ?_
    rwa [List.head?_append_of_ne_nil _ spelled.filled] at first
  rw [Source.unquoted_eq, Text.trim, spelled.text]
  cases mark with
  | nil =>
      rw [List.nil_append, List.append_assoc, List.dropWhile_append_of_pos spelled.quotes, if_pos rfl,
        Text.dropWhile_of_halts halts]
      exact congrArg String.ofList (closed [])
  | cons m mark =>
      have opened := Text.halts_cons (spelled.unquoted m List.mem_cons_self)
        (mark ++ quote ++ (front ++ [c]) ++ quote)
      rw [if_neg (List.cons_ne_nil m mark), List.cons_append, List.cons_append, List.cons_append,
        Text.dropWhile_of_halts opened]
      exact congrArg String.ofList (closed (m :: (mark ++ quote)))

end Literals

namespace Offside

def unwrapped (n : Node) : List Node :=
  if n.kind = "decorated_definition" then (n.child? "definition").toList else [n]

def moduleLevel (root : Node) : List Node := root.namedChildren.flatMap unwrapped

def listValue? (n : Node) : Option Node :=
  if n.kind = "assignment" ∧ (n.child? "left").map (fun left => (left.kind, left.text)) =
    some ("identifier", "__all__") then n.child? "right" else none

def listValues (n : Node) : List Node :=
  if n.kind = "expression_statement" then n.namedChildren.filterMap listValue? else []

/-- The value of the last assignment to the list of public names that gives it one. -/
def lastList? (root : Node) : Option Node := ((moduleLevel root).flatMap listValues).getLast?

def strings (value : Node) : List Node := value.namedChildren.filter (·.kind == "string")

structure Outlines (root : Node) (o : Outline) : Prop where
  functions : o.functions.map (·.name) =
    ((moduleLevel root).filter (·.kind == "function_definition")).map (·.declaredName)
  classes : o.classes.map (·.name) =
    ((moduleLevel root).filter (·.kind == "class_definition")).map (·.declaredName)
  functionFlag : ∀ f ∈ o.functions, f.isExported = true ↔ f.name ∈ o.exports
  classFlag : ∀ c ∈ o.classes, c.isExported = true ↔ c.name ∈ o.exports
  listed : ∀ value, lastList? root = some value → ∃ names,
    List.Forall₂ (fun item name => Taken item.text name) (strings value) names ∧
      o.exports = Outline.exportable names
  spelled : ∀ value, lastList? root = some value → ∀ item ∈ strings value, ∀ mark quote content,
    Spelled item.text mark quote content →
      String.ofList (if mark = [] then content else mark ++ quote ++ content) ∈ o.exports
  unlisted : lastList? root = none → o.exports = Outline.exportable
    ((o.functions.map (·.name) ++ o.classes.map (·.name)).filter fun name => name.toList.head? != some '_')

section Drafts

/-- What statements add to a draft: functions, classes and values of the list of public names. -/
structure Grown (functions : List FunctionInfo) (classes : List ClassInfo) (values : List Node)
    (d after : Draft) : Prop where
  functions : after.outline.functions = d.outline.functions ++ functions
  classes : after.outline.classes = d.outline.classes ++ classes
  exports : after.outline.exports = d.outline.exports
  listed : after.listed = (values.getLast?.map literalTexts).or d.listed

theorem Grown.trans {functions otherFunctions : List FunctionInfo} {classes otherClasses : List ClassInfo}
    {values otherValues : List Node} {d middle after : Draft}
    (first : Grown functions classes values d middle)
    (second : Grown otherFunctions otherClasses otherValues middle after) :
    Grown (functions ++ otherFunctions) (classes ++ otherClasses) (values ++ otherValues) d after where
  functions := by rw [second.functions, first.functions, List.append_assoc]
  classes := by rw [second.classes, first.classes, List.append_assoc]
  exports := second.exports.trans first.exports
  listed := by
    rw [second.listed, first.listed, List.getLast?_append]
    cases otherValues.getLast? <;> rfl

theorem grown_refl (d : Draft) : Grown [] [] [] d d :=
  ⟨(List.append_nil _).symm, (List.append_nil _).symm, rfl, rfl⟩

theorem foldl_grown {α : Type} {step : Draft → α → Draft} {functions : α → List FunctionInfo}
    {classes : α → List ClassInfo} {values : α → List Node}
    (grows : ∀ d a, Grown (functions a) (classes a) (values a) d (step d a)) (xs : List α) (d : Draft) :
    Grown (xs.flatMap functions) (xs.flatMap classes) (xs.flatMap values) d (xs.foldl step d) := by
  induction xs generalizing d with
  | nil => exact grown_refl d
  | cons a xs ih => exact (grows d a).trans (ih _)

def Assignment.list? (a : Assignment) : Option Node := if a.target = publicList then a.value else none

theorem assign_grown (d : Draft) (a : Assignment) : Grown [] [] a.list?.toList d (d.assign a) where
  functions := (List.append_nil _).symm
  classes := (List.append_nil _).symm
  exports := rfl
  listed := by
    rw [Draft.assign, Assignment.list?]
    dsimp only
    split
    · cases a.value <;> rfl
    · rfl

theorem listValue?_eq (n : Node) : listValue? n = (assignment? n).bind (·.list?) := by
  rw [listValue?, assignment?]
  cases n.child? "left" with
  | none => simp
  | some left =>
      by_cases assigns : n.kind = "assignment" ∧ left.kind = "identifier"
      · obtain ⟨isAssignment, isName⟩ := assigns
        by_cases isList : left.text = "__all__" <;>
          simp [isAssignment, isName, isList, Assignment.list?, publicList]
      · have other : ¬ (n.kind = "assignment" ∧ left.kind = "identifier" ∧ left.text = "__all__") :=
          fun all => assigns ⟨all.1, all.2.1⟩
        simp [assigns, other]

theorem addStatement_grown (d : Draft) (n : Node) :
    Grown (if n.kind = "function_definition" then [functionInfo n] else [])
      (if n.kind = "class_definition" then [classInfo n] else []) (listValues n) d (d.addStatement n) := by
  have plain (apart : n.kind ≠ "expression_statement") : listValues n = [] := if_neg apart
  rw [Draft.addStatement]
  by_cases function : n.kind = "function_definition"
  · rw [if_pos function, if_pos function, if_neg (by rw [function]; decide),
      plain (by rw [function]; decide)]
    exact ⟨rfl, (List.append_nil _).symm, rfl, rfl⟩
  rw [if_neg function, if_neg function]
  by_cases «class» : n.kind = "class_definition"
  · rw [if_pos «class», if_pos «class», plain (by rw [«class»]; decide)]
    exact ⟨(List.append_nil _).symm, rfl, rfl, rfl⟩
  rw [if_neg «class», if_neg «class»]
  by_cases expression : n.kind = "expression_statement"
  · have grown := foldl_grown assign_grown (assignmentsOf n) d
    have values : (assignmentsOf n).flatMap (fun a => a.list?.toList) = listValues n := by
      rw [assignmentsOf, listValues, if_pos expression, if_pos expression, ← List.filterMap_eq_flatMap_toList,
        List.filterMap_filterMap]
      exact List.filterMap_congr fun m _ => (listValue?_eq m).symm
    have none (as : List Assignment) {α : Type} : as.flatMap (fun _ => ([] : List α)) = [] := by simp
    rw [if_pos expression, ← values]
    rw [none, none] at grown
    exact grown
  · rw [if_neg expression, plain expression]
    exact ⟨(List.append_nil _).symm, (List.append_nil _).symm, rfl, rfl⟩

theorem Draft.finish_eq {d : Draft} (fresh : d.outline.exports = []) :
    d.finish.exports = Outline.exportable d.exportedNames ∧
      d.finish.functions = d.outline.functions.map (fun f =>
        { f with isExported := (Outline.exportable d.exportedNames).contains f.name }) ∧
      d.finish.classes = d.outline.classes.map fun c =>
        { c with isExported := (Outline.exportable d.exportedNames).contains c.name } := by
  have none : d.outline.exports = Outline.exportable [] := fresh
  have exports := Outline.addExports_exports none d.exportedNames
  rw [List.nil_append] at exports
  refine ⟨exports, ?_, ?_⟩
  · rw [Draft.finish, exports, Outline.addExports_functions]
  · rw [Draft.finish, exports, Outline.addExports_classes]

end Drafts

section Outlines

variable (root : Node)

def draftOf : Draft := (statements root).foldl Draft.addStatement {}

def functionsOf (s : Node) : List FunctionInfo :=
  if s.kind = "function_definition" then [functionInfo s] else []

def classesOf (s : Node) : List ClassInfo := if s.kind = "class_definition" then [classInfo s] else []

theorem statements_eq : statements root = moduleLevel root := by
  rw [statements, List.filterMap_eq_flatMap_toList, moduleLevel]
  refine List.flatMap_congr fun n _ => ?_
  rw [undecorated?, unwrapped]
  split <;> rfl

theorem draftOf_grown : Grown ((moduleLevel root).flatMap functionsOf)
    ((moduleLevel root).flatMap classesOf) ((moduleLevel root).flatMap listValues) {} (draftOf root) := by
  rw [← statements_eq]
  exact foldl_grown addStatement_grown (statements root) {}

theorem draftOf_listed : (draftOf root).listed = (lastList? root).map literalTexts :=
  (draftOf_grown root).listed.trans Option.or_none

theorem flatMap_ite {α β : Type} (p : α → Prop) [DecidablePred p] (f : α → β) (xs : List α) :
    xs.flatMap (fun a => if p a then [f a] else []) = (xs.filter fun a => p a).map f := by
  induction xs with
  | nil => rfl
  | cons a xs ih =>
      rw [List.flatMap_cons, ih, List.filter_cons]
      by_cases kept : p a <;> simp [kept]

theorem functionsOf_names : ((moduleLevel root).flatMap functionsOf).map (·.name) =
    ((moduleLevel root).filter (·.kind == "function_definition")).map (·.declaredName) := by
  have functions := flatMap_ite (·.kind = "function_definition") functionInfo (moduleLevel root)
  exact (congrArg (List.map (·.name)) functions).trans List.map_map

theorem classesOf_names : ((moduleLevel root).flatMap classesOf).map (·.name) =
    ((moduleLevel root).filter (·.kind == "class_definition")).map (·.declaredName) := by
  have classes := flatMap_ite (·.kind = "class_definition") classInfo (moduleLevel root)
  exact (congrArg (List.map (·.name)) classes).trans List.map_map

theorem outlineOf_exports : (outlineOf root).exports = Outline.exportable (draftOf root).exportedNames :=
  (Draft.finish_eq (draftOf_grown root).exports).1

theorem outlineOf_functions : (outlineOf root).functions = (draftOf root).outline.functions.map
    fun f => { f with isExported := (outlineOf root).exports.contains f.name } := by
  rw [outlineOf_exports]
  exact (Draft.finish_eq (draftOf_grown root).exports).2.1

theorem outlineOf_classes : (outlineOf root).classes = (draftOf root).outline.classes.map
    fun c => { c with isExported := (outlineOf root).exports.contains c.name } := by
  rw [outlineOf_exports]
  exact (Draft.finish_eq (draftOf_grown root).exports).2.2

theorem outlineOf_functionNames :
    (outlineOf root).functions.map (·.name) = (draftOf root).outline.functions.map (·.name) := by
  rw [outlineOf_functions, List.map_map]
  rfl

theorem outlineOf_classNames :
    (outlineOf root).classes.map (·.name) = (draftOf root).outline.classes.map (·.name) := by
  rw [outlineOf_classes, List.map_map]
  rfl

variable {root}

theorem outlineOf_listed {value : Node} (last : lastList? root = some value) :
    (outlineOf root).exports = Outline.exportable (literalTexts value) := by
  rw [outlineOf_exports, Draft.exportedNames, draftOf_listed, last]
  rfl

theorem mem_of_spelled {value item : Node} (last : lastList? root = some value)
    (member : item ∈ strings value) {mark quote content : List Char}
    (spelled : Spelled item.text mark quote content) :
    String.ofList (if mark = [] then content else mark ++ quote ++ content) ∈ (outlineOf root).exports := by
  rw [outlineOf_listed last, Outline.mem_exportable, ← spelled.unquoted_eq]
  refine ⟨List.mem_map_of_mem member, fun empty => ?_⟩
  rw [spelled.unquoted_eq] at empty
  have none := String.ofList_injective empty
  split at none
  · exact spelled.filled none
  · exact spelled.filled (List.append_eq_nil_iff.mp none).2

variable (root)

theorem outlines : Outlines root (outlineOf root) where
  functions := by
    rw [outlineOf_functionNames, (draftOf_grown root).functions]
    exact functionsOf_names root
  classes := by
    rw [outlineOf_classNames, (draftOf_grown root).classes]
    exact classesOf_names root
  functionFlag f member := by
    rw [outlineOf_functions] at member
    obtain ⟨f, _, rfl⟩ := List.mem_map.mp member
    exact List.contains_iff_mem
  classFlag c member := by
    rw [outlineOf_classes] at member
    obtain ⟨c, _, rfl⟩ := List.mem_map.mp member
    exact List.contains_iff_mem
  listed value last := by
    refine ⟨literalTexts value, ?_, outlineOf_listed last⟩
    rw [literalTexts, strings, List.forall₂_map_right_iff, List.forall₂_same]
    exact fun item _ => unquoted_taken item.text
  spelled _ last _ member _ _ _ spelled := mem_of_spelled last member spelled
  unlisted none := by
    rw [outlineOf_functionNames, outlineOf_classNames, List.filter_append, outlineOf_exports,
      Draft.exportedNames, draftOf_listed, none]
    rfl

end Outlines

section Nesting

variable {β : Type} {g : Node → List β}

/-- Statements say the same if they differ at most in bodies, as far as it is not asked of bodies. -/
theorem flatMap_moduleLevel_outer {root other : Node} (hollow : ∀ s, g s.hollow = g s)
    (exporting : ∀ s, s.kind = "export_statement" → g s = [])
    (alike : other.namedChildren.map Node.outer = root.namedChildren.map Node.outer) :
    (moduleLevel other).flatMap g = (moduleLevel root).flatMap g := by
  have child (n : Node) : (unwrapped n).flatMap g = (unwrapped n.outer).flatMap g := by
    rw [unwrapped, unwrapped, Node.outer_kind]
    by_cases decorated : n.kind = "decorated_definition"
    · rw [if_pos decorated, if_pos decorated, Node.child?_outer (Or.inr decorated)]
      cases n.child? "definition" with
      | none => rfl
      | some s => simp [hollow]
    · rw [if_neg decorated, if_neg decorated]
      by_cases wrapper : n.kind = "export_statement"
      · simp [exporting n wrapper, exporting n.outer ((Node.outer_kind n).trans wrapper)]
      · simp [Node.outer_of_kind wrapper decorated, hollow]
  have whole (n : Node) : (moduleLevel n).flatMap g =
      (n.namedChildren.map Node.outer).flatMap fun s => (unwrapped s).flatMap g := by
    rw [moduleLevel, List.flatMap_assoc, List.flatMap_map]
    exact List.flatMap_congr fun n _ => child n
  rw [whole, whole, alike]

theorem functionsOf_hollow (s : Node) : functionsOf s.hollow = functionsOf s := by
  have info : functionInfo s.hollow = functionInfo s := by
    rw [functionInfo, functionInfo, Node.declaredName_hollow, Node.child?_hollow (by decide),
      Node.child?_hollow (by decide), Node.hasChild_hollow]
  rw [functionsOf, functionsOf, Node.hollow_kind, info]

theorem classesOf_hollow (s : Node) :
    (classesOf s.hollow).map Outline.seen = (classesOf s).map Outline.seen := by
  rw [classesOf, classesOf, Node.hollow_kind]
  split
  · exact congrArg (fun name => [(name, false)]) s.declaredName_hollow
  · rfl

theorem listValues_hollow (s : Node) : listValues s.hollow = listValues s := by
  by_cases expression : s.kind = "expression_statement"
  · rw [Node.hollow_of_kind (by rw [expression]; decide)]
  · rw [listValues, listValues, Node.hollow_kind, if_neg expression, if_neg expression]

theorem outlineOf_outer {root other : Node}
    (alike : other.namedChildren.map Node.outer = root.namedChildren.map Node.outer) :
    (outlineOf other).functions = (outlineOf root).functions ∧
      (outlineOf other).classes.map Outline.seen = (outlineOf root).classes.map Outline.seen ∧
      (outlineOf other).exports = (outlineOf root).exports := by
  have grown := draftOf_grown root
  have otherGrown := draftOf_grown other
  have functions : (draftOf other).outline.functions = (draftOf root).outline.functions := by
    rw [grown.functions, otherGrown.functions, flatMap_moduleLevel_outer functionsOf_hollow _ alike]
    exact fun s exporting => if_neg (by rw [exporting]; decide)
  have seen : (draftOf other).outline.classes.map Outline.seen =
      (draftOf root).outline.classes.map Outline.seen := by
    have alike := flatMap_moduleLevel_outer (g := fun s => (classesOf s).map Outline.seen)
      classesOf_hollow (fun s exporting => ?_) alike
    · rw [grown.classes, otherGrown.classes]
      exact (List.map_flatMap ..).trans (alike.trans (List.map_flatMap ..).symm)
    · rw [classesOf, if_neg (by rw [exporting]; decide), List.map_nil]
  have classNames : (draftOf other).outline.classes.map (·.name) =
      (draftOf root).outline.classes.map (·.name) := by
    have names := congrArg (List.map Prod.fst) seen
    rwa [List.map_map, List.map_map] at names
  have listed : (draftOf other).listed = (draftOf root).listed := by
    rw [grown.listed, otherGrown.listed, flatMap_moduleLevel_outer listValues_hollow _ alike]
    exact fun s exporting => if_neg (by rw [exporting]; decide)
  have exports : (outlineOf other).exports = (outlineOf root).exports := by
    rw [outlineOf_exports, outlineOf_exports, Draft.exportedNames, Draft.exportedNames, listed, functions,
      classNames]
  refine ⟨?_, ?_, exports⟩
  · rw [outlineOf_functions, outlineOf_functions, exports, functions]
  · have flags := congrArg (List.map fun name => (name, (outlineOf root).exports.contains name)) classNames
    rw [List.map_map, List.map_map] at flags
    rw [outlineOf_classes, outlineOf_classes, exports, List.map_map, List.map_map]
    exact flags

end Nesting

end Offside

end Groundwork.Source
