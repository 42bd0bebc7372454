import Groundwork.Graph.Export
import Groundwork.Proofs.Text.Pieces
import Mathlib.Data.List.Forall2

/-!
The lines of a drawing: one for each node that is shown and one for each edge. Quotes stand around the ids, and
in the line of a node around its label, and nowhere else.
-/

namespace Groundwork.Graph

def IsNodeLine (id line : String) : Prop :=
  ∃ label more, '"' ∉ more.toList ∧ line = "  " ++ quote id ++ " [label=" ++ quote label ++ more ++ "];"

def IsEdgeLine (e : Edge) (line : String) : Prop :=
  line = "  " ++ quote e.source ++ " -> " ++ quote e.target ++ ";"

/-- A drawing has a line for each id and each edge that is shown, in their order, between its heading and its
end. -/
def Draws (drawing : String) (shown : Selection) : Prop :=
  ∃ nodeLines edgeLines, List.Forall₂ IsNodeLine shown.ids nodeLines ∧
    List.Forall₂ IsEdgeLine shown.edges edgeLines ∧ drawing = Text.join "\n"
      (["digraph Dependencies \x7b", "  rankdir=LR;"] ++ nodeLines ++ edgeLines ++ ["\x7d"])

def laterAttributes (g : DependencyGraph) (n : Node) : List String :=
  ("shape=" ++ n.kind.shape) ::
    ((if g.entryPoints.contains n.id then ["style=bold"] else []) ++
      (if g.unresolved.contains n.id then ["color=red"] else []))

def nodeEnding (g : DependencyGraph) (n : Node) : String :=
  ", " ++ Text.join ", " (laterAttributes g n) ++ "];"

theorem nodeLine_eq (g : DependencyGraph) (n : Node) :
    nodeLine g n = "  " ++ quote n.id ++ (" [label=" ++ quote (n.label ++ "\\n" ++ n.kind.name)) ++
      nodeEnding g n := by
  have opening : " [label=" = " [" ++ "label=" := by decide
  rw [nodeLine, nodeEnding, laterAttributes, opening, Text.join, Text.join, List.cons_append, List.cons_append,
    List.cons_append, List.nil_append, List.cons_append,
    String.intercalate_cons_of_ne_nil (List.cons_ne_nil _ _)]
  simp only [String.append_assoc]

theorem laterAttributes_plain (g : DependencyGraph) (n : Node) :
    ∀ part ∈ laterAttributes g n, '"' ∉ part.toList := by
  have shape : '"' ∉ ("shape=" ++ n.kind.shape).toList := by
    cases n.kind <;> decide
  have flag (text : String) (plain : '"' ∉ text.toList) (raised : Bool) :
      ∀ part ∈ (if raised then [text] else []), '"' ∉ part.toList := by
    cases raised with
    | false => exact List.forall_mem_nil _
    | true => simpa using plain
  rw [laterAttributes, List.forall_mem_cons, List.forall_mem_append]
  exact ⟨shape, flag "style=bold" (by decide) _, flag "color=red" (by decide) _⟩

theorem nodeEnding_plain (g : DependencyGraph) (n : Node) : '"' ∉ (nodeEnding g n).toList := by
  rw [nodeEnding, String.toList_append, String.toList_append, List.mem_append, List.mem_append]
  exact not_or.mpr ⟨not_or.mpr ⟨by decide, Text.notMem_join (by decide) (laterAttributes_plain g n)⟩,
    by decide⟩

theorem map_id_filterMap {nodes : List Node} {ids : List String}
    (among : ∀ id ∈ ids, id ∈ nodes.map (·.id)) :
    (ids.filterMap fun id => nodes.reverse.find? (·.id == id)).map (·.id) = ids := by
  induction ids with
  | nil => rfl
  | cons id ids ih =>
      obtain ⟨present, later⟩ := List.forall_mem_cons.mp among
      obtain ⟨n, member, named⟩ := List.mem_map.mp present
      obtain ⟨found, isFound⟩ : ∃ found, nodes.reverse.find? (·.id == id) = some found :=
        Option.isSome_iff_exists.mp
          (List.find?_isSome.mpr ⟨n, List.mem_reverse.mpr member, by simpa using named⟩)
      have same : found.id = id := by simpa using List.find?_some isFound
      simp only [List.filterMap_cons, isFound, List.map_cons, same, ih later]

theorem exists_select_filter (g : DependencyGraph) (focus : String) :
    ∃ test : String → Bool, (select g focus).ids = (g.nodes.map (·.id)).filter test := by
  rw [select]
  split
  · exact ⟨fun _ => true, (List.filter_eq_self.mpr fun _ _ => rfl).symm⟩
  · exact ⟨_, rfl⟩

def drawnNodes (g : DependencyGraph) (focus : String) : List Node :=
  (select g focus).ids.filterMap fun id => g.nodes.reverse.find? (·.id == id)

theorem drawnNodes_ids (g : DependencyGraph) (focus : String) :
    (drawnNodes g focus).map (·.id) = (select g focus).ids := by
  obtain ⟨test, selected⟩ := exists_select_filter g focus
  refine map_id_filterMap fun id member => ?_
  exact List.mem_of_mem_filter (selected ▸ member)

theorem isNodeLine_nodeLine (g : DependencyGraph) (n : Node) : IsNodeLine n.id (nodeLine g n) := by
  refine ⟨n.label ++ "\\n" ++ n.kind.name, ", " ++ Text.join ", " (laterAttributes g n), ?_, ?_⟩
  · rw [String.toList_append, List.mem_append]
    exact not_or.mpr ⟨by decide, Text.notMem_join (by decide) (laterAttributes_plain g n)⟩
  · rw [nodeLine_eq, nodeEnding]
    simp only [String.append_assoc]

theorem draws_toDot (g : DependencyGraph) (focus : String) : Draws (toDot g focus) (select g focus) := by
  refine ⟨(drawnNodes g focus).map (nodeLine g), (select g focus).edges.map edgeLine, ?_, ?_, rfl⟩
  · rw [← drawnNodes_ids, List.forall₂_map_left_iff, List.forall₂_map_right_iff, List.forall₂_same]
    exact fun n _ => isNodeLine_nodeLine g n
  · rw [List.forall₂_map_right_iff, List.forall₂_same]
    exact fun e _ => rfl

end Groundwork.Graph
