import Groundwork.Proofs.Source.Declarations
import Groundwork.Proofs.Source.PublicNames
import Groundwork.Source.Analysis

/-!
The functions, classes and exports of the record of a text, for every tree that a parser may give it.
-/

namespace Groundwork.FileRecord

open Source

def outline (r : FileRecord) : Outline where
  imports := r.imports
  exports := r.exports
  functions := r.functions
  classes := r.classes
  variableNames := r.variableNames

theorem analyze_outline {parse : Parser} {path text : String} {grammar : Grammar} {root : Node}
    (ofPath : Grammar.ofPath? path = some grammar) (parsed : parse grammar text = some root)
    (sizeBytes : Nat) (lastModified : String) :
    (analyze parse path text sizeBytes lastModified).outline = grammar.outline root := by
  unfold analyze
  rw [ofPath]
  dsimp only
  rw [parsed]
  rfl

theorem outline_python (root : Node) : Grammar.python.outline root = Offside.outlineOf root := rfl

theorem outline_script {grammar : Grammar} (braces : grammar ≠ .python) (root : Node) :
    grammar.outline root = Script.outlineOf root := by
  cases grammar with
  | python => exact absurd rfl braces
  | typescript => rfl
  | tsx => rfl
  | javascript => rfl

/-- A record lists the declarations of the module level in their order, whatever stands in their bodies, and
the exported names, each one once. -/
theorem analyze_outlines (parse : Parser) (path text : String) (sizeBytes : Nat) (lastModified : String)
    (grammar : Grammar) (root : Node) (ofPath : Grammar.ofPath? path = some grammar)
    (parsed : parse grammar text = some root) :
    let o := (analyze parse path text sizeBytes lastModified).outline
    o.exports.Nodup ∧ "" ∉ o.exports ∧
      (grammar ≠ .python → Script.Outlines root o) ∧
      (grammar = .python → Offside.Outlines root o) ∧
      ∀ otherText other, parse grammar otherText = some other →
        other.namedChildren.map Node.outer = root.namedChildren.map Node.outer →
        let changed := (analyze parse path otherText sizeBytes lastModified).outline
        changed.functions = o.functions ∧
          changed.classes.map Outline.seen = o.classes.map Outline.seen ∧ changed.exports = o.exports := by
  intro o
  have ofTree : o = grammar.outline root := analyze_outline ofPath parsed sizeBytes lastModified
  have kept (names : List String) (exports : o.exports = Outline.exportable names) :
      o.exports.Nodup ∧ "" ∉ o.exports :=
    exports ▸ ⟨Outline.exportable_nodup names, Outline.empty_notMem_exportable names⟩
  by_cases indented : grammar = .python
  · subst indented
    rw [outline_python] at ofTree
    have outlines : Offside.Outlines root o := ofTree ▸ Offside.outlines root
    obtain ⟨names, exports⟩ : ∃ names, o.exports = Outline.exportable names := by
      cases last : Offside.lastList? root with
      | none => exact ⟨_, outlines.unlisted last⟩
      | some value =>
          obtain ⟨names, _, exports⟩ := outlines.listed value last
          exact ⟨names, exports⟩
    refine ⟨(kept names exports).1, (kept names exports).2, absurd rfl, fun _ => outlines, ?_⟩
    intro otherText other otherParsed alike
    dsimp only
    rw [analyze_outline ofPath otherParsed, outline_python, ofTree]
    exact Offside.outlineOf_outer alike
  · rw [outline_script indented] at ofTree
    have outlines : Script.Outlines root o := ofTree ▸ Script.outlines root
    have apart := kept _ outlines.exports
    refine ⟨apart.1, apart.2, fun _ => outlines, fun same => absurd same indented, ?_⟩
    intro otherText other otherParsed alike
    dsimp only
    rw [analyze_outline ofPath otherParsed, outline_script indented, ofTree]
    exact Script.outlineOf_outer alike

def branch (kind : String) (children : List Node) : Node := { kind, children }

/-- The tree of `export function load() {}` and `export { load, load as run }`. -/
def loader : Node :=
  branch "program" [
    branch "export_statement" [
      (branch "function_declaration" [(Node.leaf "identifier" "load").as "name"]).as "declaration"],
    branch "export_statement" [
      branch "export_clause" [
        branch "export_specifier" [(Node.leaf "identifier" "load").as "name"],
        branch "export_specifier" [(Node.leaf "identifier" "load").as "name",
          (Node.leaf "identifier" "run").as "alias"]]]]

theorem analyze_outlines_loader :
    let parse : Parser := fun _ _ => some loader
    Grammar.ofPath? "src/load.ts" = some .typescript ∧ parse .typescript "" = some loader ∧
      let o := (analyze parse "src/load.ts" "" 0 "").outline
      (o.exports.Nodup ∧ "" ∉ o.exports ∧
        (Grammar.typescript ≠ .python → Script.Outlines loader o) ∧
        (Grammar.typescript = .python → Offside.Outlines loader o) ∧
        ∀ otherText other, parse .typescript otherText = some other →
          other.namedChildren.map Node.outer = loader.namedChildren.map Node.outer →
          let changed := (analyze parse "src/load.ts" otherText 0 "").outline
          changed.functions = o.functions ∧
            changed.classes.map Outline.seen = o.classes.map Outline.seen ∧ changed.exports = o.exports) ∧
      o.exports = ["load", "run"] ∧ o.functions.map (·.name) = ["load"] ∧ o.classes = [] :=
  ⟨by decide, rfl, analyze_outlines _ "src/load.ts" "" 0 "" .typescript loader (by decide) rfl,
    by decide +kernel⟩

/-- The tree of `export default class { run() {} }`. -/
def defaultClass : Node :=
  branch "program" [
    branch "export_statement" [
      Node.as "value" (branch "class" [
        Node.as "body" (branch "class_body" [
          branch "method_definition" [(Node.leaf "property_identifier" "run").as "name"]])])]]

/-- The tree of `__all__ = [u"load"]` and `def load(): return 1`. -/
def markedList : Node :=
  branch "module" [
    branch "expression_statement" [
      branch "assignment" [(Node.leaf "identifier" "__all__").as "left",
        (branch "list" [Node.leaf "string" "u\"load\""]).as "right"]],
    branch "function_definition" [(Node.leaf "identifier" "load").as "name"]]

/-- A class that an export gives as its value is passed over, and the mark of a listed name is taken for a part
of the name. -/
theorem nameless_and_marked :
    (analyze (fun _ _ => some defaultClass) "src/job.ts" "" 0 "").classes = [] ∧
      (analyze (fun _ _ => some markedList) "app/io.py" "" 0 "").exports = ["u\"load"] ∧
      (analyze (fun _ _ => some markedList) "app/io.py" "" 0 "").functions.map
        (fun f => (f.name, f.isExported)) = [("load", false)] := by
  decide +kernel

end Groundwork.FileRecord
