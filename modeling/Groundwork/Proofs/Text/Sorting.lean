import Groundwork.Proofs.Text.Distinct
import Groundwork.Record

/-!
Texts put into order. What comes out depends on which texts there are, not on how they stood before.
-/

namespace Groundwork

theorem sortTexts_sorted (texts : List String) : (sortTexts texts).Pairwise (· ≤ ·) := by
  have trans (a b c : String) : decide (a ≤ b) → decide (b ≤ c) → decide (a ≤ c) := by
    simpa using String.le_trans
  have total (a b : String) : decide (a ≤ b) || decide (b ≤ a) := by
    simpa using String.le_total a b
  exact (List.pairwise_mergeSort trans total texts).imp fun less => by simpa using less

theorem sortTexts_perm (texts : List String) : (sortTexts texts).Perm texts :=
  List.mergeSort_perm _ _

theorem sortTexts_eq_of_perm {texts others : List String} (perm : texts.Perm others) :
    sortTexts texts = sortTexts others := by
  have sorted := (sortTexts_perm texts).trans (perm.trans (sortTexts_perm others).symm)
  apply sorted.eq_of_pairwise _ (sortTexts_sorted texts) (sortTexts_sorted others)
  intro a b _ _ first second
  exact String.le_antisymm first second

theorem Text.distinct_perm {texts others : List String} (perm : texts.Perm others) :
    (Text.distinct texts).Perm (Text.distinct others) := by
  apply (List.perm_ext_iff_of_nodup (Text.distinct_nodup _) (Text.distinct_nodup _)).mpr
  intro text
  rw [Text.mem_distinct, Text.mem_distinct, perm.mem_iff]

end Groundwork
