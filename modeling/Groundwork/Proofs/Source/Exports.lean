import Groundwork.Proofs.Text.Distinct
import Groundwork.Source.Outline

/-!
Exported names are kept without empty ones and each one once, in the order in which they come.
-/

namespace Groundwork.Source.Outline

def seen (c : ClassInfo) : String × Bool := (c.name, c.isExported)

/-- Exported names as they are kept: none that is empty, and each one once. -/
def exportable (names : List String) : List String := Text.distinct (names.filter (· ≠ ""))

theorem mem_exportable {name : String} {names : List String} :
    name ∈ exportable names ↔ name ∈ names ∧ name ≠ "" := by
  rw [exportable, Text.mem_distinct, List.mem_filter, decide_eq_true_iff]

theorem exportable_nodup (names : List String) : (exportable names).Nodup := Text.distinct_nodup _

theorem empty_notMem_exportable (names : List String) : "" ∉ exportable names :=
  fun member => (mem_exportable.mp member).2 rfl

theorem addExport_exports {known : List String} {o : Outline} (kept : o.exports = exportable known)
    (name : String) : (o.addExport name).exports = exportable (known ++ [name]) := by
  by_cases empty : name = ""
  · simp [addExport, empty, kept, exportable, List.filter_append]
  · have filtered : (known ++ [name]).filter (· ≠ "") = known.filter (· ≠ "") ++ [name] := by
      simp [List.filter_append, empty]
    have isEmpty : name.isEmpty = false := by simpa using empty
    rw [addExport, isEmpty, Bool.false_or, kept, exportable, exportable, filtered]
    by_cases member : name ∈ known.filter (· ≠ "")
    · rw [if_pos (by simpa [Text.mem_distinct] using member), kept, exportable,
        Text.distinct_concat_of_mem member]
    · rw [if_neg (by simpa [Text.mem_distinct] using member), Text.distinct_concat_of_notMem member]

theorem addExports_exports {known : List String} {o : Outline} (kept : o.exports = exportable known)
    (names : List String) : (addExports names o).exports = exportable (known ++ names) := by
  induction names generalizing known o with
  | nil => simpa [addExports] using kept
  | cons name names ih =>
      rw [addExports, List.foldl_cons, List.append_cons]
      exact ih (addExport_exports kept name)

@[simp] theorem addExport_functions (name : String) (o : Outline) :
    (o.addExport name).functions = o.functions := by
  rw [addExport]
  split <;> rfl

@[simp] theorem addExport_classes (name : String) (o : Outline) :
    (o.addExport name).classes = o.classes := by
  rw [addExport]
  split <;> rfl

@[simp] theorem addExports_functions (names : List String) (o : Outline) :
    (addExports names o).functions = o.functions := by
  induction names generalizing o with
  | nil => rfl
  | cons name names ih => exact (ih _).trans (addExport_functions name o)

@[simp] theorem addExports_classes (names : List String) (o : Outline) :
    (addExports names o).classes = o.classes := by
  induction names generalizing o with
  | nil => rfl
  | cons name names ih => exact (ih _).trans (addExport_classes name o)

end Groundwork.Source.Outline
