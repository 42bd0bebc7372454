import Groundwork.Proofs.Graph.Quotations
import Mathlib.Data.List.Infix

/-!
The part of a graph that is exported. The drawing is made from a list of ids and the document by leaving
nodes out of the whole graph; both show the same nodes and edges. With a focus these are the edges that touch
an id with the focus in it, and the nodes with such an id or at an end of these edges.
-/

namespace Groundwork

theorem Text.hasRun_iff {needle cs : List Char} : Text.hasRun needle cs = true ↔ needle <:+: cs := by
  induction cs with
  | nil => rw [Text.hasRun, List.isEmpty_iff, List.infix_nil]
  | cons c cs ih =>
      rw [Text.hasRun, Bool.or_eq_true, ih, List.infix_cons_iff, List.isPrefixOf_iff_prefix]

namespace Json

def itemsAt (name : String) (j : Json) : List Json :=
  match j.get? name with
  | some (.arr items) => items
  | _ => []

def textAt? (name : String) (j : Json) : Option String :=
  match j.get? name with
  | some (.str s) => some s
  | _ => none

end Json

namespace Graph

def InFocus (focus id : String) : Prop := focus.toList <:+: id.toList

theorem contains_iff_inFocus {focus id : String} : Text.contains id focus = true ↔ InFocus focus id :=
  Text.hasRun_iff

instance (focus id : String) : Decidable (InFocus focus id) := decidable_of_iff _ contains_iff_inFocus

def edgeOf? (j : Json) : Option Edge := do
  return ⟨← j.textAt? "source", ← j.textAt? "target"⟩

def documented (document : Json) : Selection :=
  ⟨(document.itemsAt "nodes").filterMap (Json.textAt? "id"),
    (document.itemsAt "edges").filterMap edgeOf?⟩

def Joined (g : DependencyGraph) : Prop :=
  ∀ e ∈ g.edges, e.source ∈ g.nodes.map (·.id) ∧ e.target ∈ g.nodes.map (·.id)

instance (g : DependencyGraph) : Decidable (Joined g) :=
  inferInstanceAs (Decidable (∀ e ∈ g.edges, _))

/-- The edges that touch an id in focus, and the nodes with such an id or at an end of these edges, in the
order of the graph. -/
def partAround (g : DependencyGraph) (focus : String) : Selection :=
  let edges := g.edges.filter fun e => InFocus focus e.source ∨ InFocus focus e.target
  ⟨(g.nodes.map (·.id)).filter fun id =>
    InFocus focus id ∨ ∃ e ∈ edges, id = e.source ∨ id = e.target, edges⟩

/-- A focus shows the part of a graph around it. One that is empty or in no id shows the whole graph. -/
structure IsFocused (g : DependencyGraph) (focus : String) (shown : Selection) : Prop where
  whole : (focus = "" ∨ ∀ n ∈ g.nodes, ¬ InFocus focus n.id) → shown = ⟨g.nodes.map (·.id), g.edges⟩
  part : focus ≠ "" → (∃ n ∈ g.nodes, InFocus focus n.id) → shown = partAround g focus
  closed : ∀ e ∈ shown.edges, e.source ∈ shown.ids ∧ e.target ∈ shown.ids

theorem documented_toDocument (g : DependencyGraph) (focus : String) :
    documented (toDocument g focus) = select g focus := by
  have kept : (g.nodes.filter fun n => (select g focus).ids.contains n.id).map (·.id) =
      (select g focus).ids := by
    obtain ⟨test, selected⟩ := exists_select_filter g focus
    have through : (g.nodes.filter fun n => (select g focus).ids.contains n.id).map (·.id) =
        (g.nodes.map (·.id)).filter (select g focus).ids.contains := by
      rw [List.filter_map]
      rfl
    rw [through]
    nth_rewrite 2 [selected]
    refine List.filter_congr fun id member => ?_
    rw [selected, Bool.eq_iff_iff, List.contains_iff_mem, List.mem_filter]
    exact and_iff_right member
  have nodes : (toDocument g focus).itemsAt "nodes" =
      (g.nodes.filter fun n => (select g focus).ids.contains n.id).map (·.toJson) := rfl
  have edges : (toDocument g focus).itemsAt "edges" = (select g focus).edges.map (·.toJson) := rfl
  have id : Json.textAt? "id" ∘ Node.toJson = some ∘ Node.id := rfl
  have edge : edgeOf? ∘ Edge.toJson = some := rfl
  rw [documented, nodes, edges, List.filterMap_map, List.filterMap_map, id, edge, List.filterMap_some,
    List.filterMap_eq_map, kept]

variable {g : DependencyGraph} {focus : String}

theorem select_whole (whole : focus = "" ∨ ∀ n ∈ g.nodes, ¬ InFocus focus n.id) :
    select g focus = ⟨g.nodes.map (·.id), g.edges⟩ := by
  rw [select, if_pos]
  rcases whole with rfl | none
  · rfl
  · rw [Bool.or_eq_true]
    right
    simp only [List.isEmpty_iff, List.filter_eq_nil_iff, List.forall_mem_map, contains_iff_inFocus]
    exact none

def focusedIds (g : DependencyGraph) (focus : String) : List String :=
  (g.nodes.map (·.id)).filter fun id => Text.contains id focus

theorem mem_focusedIds {id : String} :
    id ∈ focusedIds g focus ↔ id ∈ g.nodes.map (·.id) ∧ InFocus focus id := by
  rw [focusedIds, List.mem_filter, contains_iff_inFocus]

theorem touches_focusedIds (joined : Joined g) {e : Edge} (isEdge : e ∈ g.edges) :
    touches (focusedIds g focus) e = true ↔ InFocus focus e.source ∨ InFocus focus e.target := by
  rw [touches, Bool.or_eq_true, List.contains_iff_mem, List.contains_iff_mem, mem_focusedIds,
    mem_focusedIds, and_iff_right (joined e isEdge).1, and_iff_right (joined e isEdge).2]

theorem select_part (some : focus ≠ "") (matched : ∃ n ∈ g.nodes, InFocus focus n.id)
    (joined : Joined g) : select g focus = partAround g focus := by
  obtain ⟨n, member, inside⟩ := matched
  have notEmpty : focusedIds g focus ≠ [] :=
    List.ne_nil_of_mem (mem_focusedIds.mpr ⟨List.mem_map_of_mem member, inside⟩)
  have touched : g.edges.filter (touches (focusedIds g focus)) =
      g.edges.filter fun e => InFocus focus e.source ∨ InFocus focus e.target := by
    refine List.filter_congr fun e isEdge => ?_
    rw [Bool.eq_iff_iff, touches_focusedIds joined isEdge, decide_eq_true_eq]
  have selected : select g focus =
      ⟨(g.nodes.map (·.id)).filter fun id => (focusedIds g focus).contains id ||
          ((g.edges.filter (touches (focusedIds g focus))).flatMap
            fun e => [e.source, e.target]).contains id,
        g.edges.filter (touches (focusedIds g focus))⟩ := by
    rw [focusedIds] at notEmpty
    rw [select, if_neg (by simpa [notEmpty] using some)]
    rfl
  rw [selected, touched, partAround]
  congr 1
  refine List.filter_congr fun id isId => ?_
  rw [Bool.eq_iff_iff, Bool.or_eq_true, List.contains_iff_mem, List.contains_iff_mem, mem_focusedIds,
    and_iff_right isId, decide_eq_true_eq, List.mem_flatMap]
  simp

theorem partAround_closed (joined : Joined g) (focus : String) :
    ∀ e ∈ (partAround g focus).edges,
      e.source ∈ (partAround g focus).ids ∧ e.target ∈ (partAround g focus).ids := by
  intro e isShown
  have isEdge : e ∈ g.edges := List.mem_of_mem_filter isShown
  constructor
  · exact List.mem_filter.mpr
      ⟨(joined e isEdge).1, decide_eq_true (Or.inr ⟨e, isShown, Or.inl rfl⟩)⟩
  · exact List.mem_filter.mpr
      ⟨(joined e isEdge).2, decide_eq_true (Or.inr ⟨e, isShown, Or.inr rfl⟩)⟩

theorem isFocused_select (joined : Joined g) (focus : String) : IsFocused g focus (select g focus) := by
  refine ⟨select_whole, fun some matched => select_part some matched joined, ?_⟩
  by_cases whole : focus = "" ∨ ∀ n ∈ g.nodes, ¬ InFocus focus n.id
  · rw [select_whole whole]
    exact joined
  · obtain ⟨some, matched⟩ : focus ≠ "" ∧ ∃ n ∈ g.nodes, InFocus focus n.id := by simpa using whole
    rw [select_part some matched joined]
    exact partAround_closed joined focus

/-- The drawing and the document of a graph show the same part of it, the one around the focus. From the
drawing it can be read if all texts are settled. -/
theorem exports_agree {g : DependencyGraph} (joined : Joined g) (focus : String) :
    ∃ shown, IsFocused g focus shown ∧ Draws (toDot g focus) shown ∧
      (AllSettled g focus → statements (quotations (toDot g focus)) = shown) ∧
      documented (toDocument g focus) = shown :=
  ⟨select g focus, isFocused_select joined focus, draws_toDot g focus, (toDot_read g focus).2.2.2.2,
    documented_toDocument g focus⟩

def markedIds : DependencyGraph where
  nodes := ["src\\", "mark\"", "alone"].map fun id => ⟨id, id, none, "", 0, 0, 0, .file⟩
  edges := [⟨"src\\", "mark\""⟩]
  languages := []
  entryPoints := ["src\\", "alone"]
  unresolved := []

theorem exports_agree_markedIds :
    Joined markedIds ∧
      (∃ shown, shown = ⟨["src\\", "mark\""], [⟨"src\\", "mark\""⟩]⟩ ∧
        Draws (toDot markedIds "mark") shown ∧ documented (toDocument markedIds "mark") = shown) ∧
      ∃ shown, shown = ⟨["alone"], []⟩ ∧
        Draws (toDot markedIds "alone") shown ∧ documented (toDocument markedIds "alone") = shown := by
  have joined : Joined markedIds := by decide +kernel
  refine ⟨joined, ?_, ?_⟩
  · obtain ⟨shown, focused, drawing, _, document⟩ := exports_agree joined "mark"
    have part := focused.part (by decide) (by decide +kernel)
    exact ⟨shown, part.trans (by decide +kernel), drawing, document⟩
  · obtain ⟨shown, focused, drawing, _, document⟩ := exports_agree joined "alone"
    have part := focused.part (by decide) (by decide +kernel)
    exact ⟨shown, part.trans (by decide +kernel), drawing, document⟩

end Graph

end Groundwork
