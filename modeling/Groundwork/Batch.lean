import Groundwork.Text.Basic

/-!
Cutting a list into consecutive batches. Put together again they are the list; all but the last are
full.
-/

namespace Groundwork

/-- Batches of `size` elements, the last one with what is left. A size of zero counts as one. -/
def batches {α : Type} (size : Nat) : List α → List (List α)
  | [] => []
  | x :: rest => (x :: rest.take (size - 1)) :: batches size (rest.drop (size - 1))
termination_by xs => xs.length
decreasing_by simp only [List.length_cons, List.length_drop]; omega

theorem batches_flatten {α : Type} (size : Nat) (xs : List α) : (batches size xs).flatten = xs := by
  induction xs using batches.induct size with
  | case1 => simp [batches]
  | case2 x rest ih => simp [batches, ih]

end Groundwork
