import Groundwork.Enrichment
import Mathlib.Algebra.Order.Floor.Ring
import Mathlib.Data.Rat.Floor
import Mathlib.Tactic.Linarith
import Mathlib.Tactic.NormNum
import Mathlib.Tactic.Ring

/-!
A file that holds more needs no less attention. Rounding to doubles keeps the order of numbers, so the
complexity grows with every count, whatever its size; as long as the sum is small enough to be exact, the
complexity is the rounded weighted count. Neither the need of a summary nor the priority falls when a
count grows or an issue is added.
-/

namespace Groundwork

namespace Decimal

theorem log2_mono : Monotone Nat.log2 := by
  intro m n le
  rcases Nat.eq_zero_or_pos m with rfl | pos
  · exact Nat.zero_le _
  · exact (Nat.le_log2 (pos.trans_le le).ne').mpr ((Nat.log2_self_le pos.ne').trans le)

/-- The distance between the doubles around a whole number. -/
def spacing (n : Nat) : Nat := 2 ^ (n.log2 + 1 - 53)

theorem nearestWhole_eq (n : Nat) :
    nearestWhole n = spacing n * if 2 * (n % spacing n) < spacing n ∨
      (2 * (n % spacing n) = spacing n ∧ n / spacing n % 2 = 0) then n / spacing n
        else n / spacing n + 1 := rfl

theorem nearestWhole_bounds (n : Nat) : spacing n * (n / spacing n) ≤ nearestWhole n ∧
    nearestWhole n ≤ spacing n * (n / spacing n + 1) := by
  rw [nearestWhole_eq]
  split
  · exact ⟨Nat.le_refl _, Nat.mul_le_mul_left _ (Nat.le_succ _)⟩
  · exact ⟨Nat.mul_le_mul_left _ (Nat.le_succ _), Nat.le_refl _⟩

theorem nearestWhole_exact {n : Nat} (small : n ≤ 2 ^ 53) : nearestWhole n = n := by
  rcases Nat.lt_or_eq_of_le small with less | rfl
  · have unit : spacing n = 1 := by
      rcases Nat.eq_zero_or_pos n with rfl | pos
      · rfl
      · have digits := (Nat.log2_lt pos.ne').mpr less
        rw [spacing, Nat.sub_eq_zero_of_le digits]
        rfl
    simp [nearestWhole_eq, unit, Nat.mod_one]
  · decide

theorem nearestWhole_le_of_spacing {m n : Nat} (le : m ≤ n) (same : spacing m = spacing n) :
    nearestWhole m ≤ nearestWhole n := by
  rcases Nat.lt_or_eq_of_le (Nat.div_le_div_right (c := spacing n) le) with apart | together
  · calc nearestWhole m ≤ spacing n * (m / spacing n + 1) := same ▸ (nearestWhole_bounds m).2
      _ ≤ spacing n * (n / spacing n) := Nat.mul_le_mul_left _ apart
      _ ≤ nearestWhole n := (nearestWhole_bounds n).1
  · have wholeM := Nat.div_add_mod m (spacing n)
    have wholeN := Nat.div_add_mod n (spacing n)
    rw [together] at wholeM
    rw [nearestWhole_eq, nearestWhole_eq, same, together]
    refine Nat.mul_le_mul_left _ ?_
    split <;> split <;> omega

theorem nearestWhole_mono : Monotone nearestWhole := by
  intro m n le
  by_cases same : spacing m = spacing n
  · exact nearestWhole_le_of_spacing le same
  · have digits : m.log2 + 1 - 53 ≤ n.log2 + 1 - 53 := by
      have := log2_mono le
      omega
    have fewer : m.log2 + 1 - 53 < n.log2 + 1 - 53 :=
      lt_of_le_of_ne digits fun equal => same (congrArg (2 ^ ·) equal)
    have pos : n ≠ 0 := by
      rintro rfl
      simp at fewer
    have below : m < 2 ^ n.log2 := by
      refine Nat.lt_of_lt_of_le (Nat.lt_log2_self) (Nat.pow_le_pow_right (by decide) ?_)
      omega
    have dividesM : spacing m ∣ 2 ^ n.log2 := Nat.pow_dvd_pow 2 (by omega)
    have dividesN : spacing n ∣ 2 ^ n.log2 := Nat.pow_dvd_pow 2 (by omega)
    calc nearestWhole m ≤ spacing m * (m / spacing m + 1) := (nearestWhole_bounds m).2
      _ ≤ spacing m * (2 ^ n.log2 / spacing m) :=
          Nat.mul_le_mul_left _ (Nat.div_lt_div_of_lt_of_dvd dividesM below)
      _ = 2 ^ n.log2 := Nat.mul_div_cancel' dividesM
      _ = spacing n * (2 ^ n.log2 / spacing n) := (Nat.mul_div_cancel' dividesN).symm
      _ ≤ spacing n * (n / spacing n) :=
          Nat.mul_le_mul_left _ (Nat.div_le_div_right (Nat.log2_self_le pos))
      _ ≤ nearestWhole n := (nearestWhole_bounds n).1

end Decimal

namespace Assessment

open Decimal

theorem lineBonus_eq (lines : Nat) : lineBonus lines =
    (if 100 < lines then 2 else 0) + (if 300 < lines then 3 else 0) +
      (if 500 < lines then 5 else 0) := by
  simp only [lineBonus, lineBonuses, List.foldl_cons, List.foldl_nil, Nat.zero_add]
  split <;> split <;> split <;> rfl

theorem lineBonus_mono : Monotone lineBonus := by
  intro m n le
  have band (threshold bonus : Nat) :
      (if threshold < m then bonus else 0) ≤ if threshold < n then bonus else 0 := by
    split <;> split <;> omega
  rw [lineBonus_eq, lineBonus_eq]
  exact Nat.add_le_add (Nat.add_le_add (band 100 2) (band 300 3)) (band 500 5)

theorem complexity_mono {functions classes imports lines functions' classes' imports' lines' : Nat}
    (f : functions ≤ functions') (c : classes ≤ classes') (i : imports ≤ imports')
    (l : lines ≤ lines') :
    complexity functions classes imports lines ≤ complexity functions' classes' imports' lines' := by
  have bonus := lineBonus_mono l
  have declared := nearestWhole_mono (show 2 * functions + 3 * classes ≤ 2 * functions' + 3 * classes' by
    omega)
  have imported := nearestWhole_mono i
  have counted := nearestWhole_mono (Nat.add_le_add (Nat.mul_le_mul_left 2 declared) imported)
  have scored := nearestWhole_mono (Nat.add_le_add counted (Nat.mul_le_mul_left 2 bonus))
  exact Nat.div_le_div_right (nearestWhole_mono (Nat.add_le_add_right scored 1))

theorem complexity_exact {functions classes imports lines : Nat}
    (small : 4 * functions + 6 * classes + imports + 2 * lineBonus lines + 1 ≤ 2 ^ 53) :
    (complexity functions classes imports lines : ℤ) =
      ⌊(2 * functions + 3 * classes + imports / 2 + lineBonus lines + 1 / 2 : ℚ)⌋ := by
  have declared : nearestWhole (2 * functions + 3 * classes) = 2 * functions + 3 * classes :=
    nearestWhole_exact (by omega)
  have imported : nearestWhole imports = imports := nearestWhole_exact (by omega)
  have counted : nearestWhole (2 * (2 * functions + 3 * classes) + imports) =
      2 * (2 * functions + 3 * classes) + imports := nearestWhole_exact (by omega)
  have scored : nearestWhole (2 * (2 * functions + 3 * classes) + imports + 2 * lineBonus lines) =
      2 * (2 * functions + 3 * classes) + imports + 2 * lineBonus lines :=
    nearestWhole_exact (by omega)
  have halves : complexity functions classes imports lines =
      (4 * functions + 6 * classes + imports + 2 * lineBonus lines + 1) / 2 := by
    rw [complexity, declared, imported, counted, scored, nearestWhole_exact (by omega)]
    omega
  have quotient : (2 * functions + 3 * classes + imports / 2 + lineBonus lines + 1 / 2 : ℚ) =
      ((4 * functions + 6 * classes + imports + 2 * lineBonus lines + 1 : ℕ) : ℚ) / (2 : ℕ) := by
    push_cast
    ring
  rw [halves, quotient, Rat.floor_natCast_div_natCast]
  rfl

structure Verdict where
  complexity : Nat
  needsSummary : Bool
  priority : Grade
  deriving DecidableEq

def verdict (r : FileRecord) (issues : List Issue) : Verdict :=
  let complexity := complexityOf r
  let needs := needsSummary r complexity issues
  ⟨complexity, needs, priority issues complexity needs⟩

structure Verdict.AtMost (v w : Verdict) : Prop where
  complexity : v.complexity ≤ w.complexity
  needsSummary : v.needsSummary = true → w.needsSummary = true
  priority : v.priority.rank ≤ w.priority.rank

structure Bears (r : FileRecord) (v : Verdict) : Prop where
  complexity : r.complexity = some v.complexity
  needsSummary : r.needsSummary = some v.needsSummary
  priority : r.priority = some v.priority

theorem enrichWith_bears (r : FileRecord) (content : String) :
    Bears (r.enrichWith content) (verdict r (Issue.detect r.path content)) := by
  constructor <;> simp only [FileRecord.enrichWith, verdict]

structure HoldsAtMost (r s : FileRecord) : Prop where
  path : r.path = s.path
  functions : r.functions.length ≤ s.functions.length
  classes : r.classes.length ≤ s.classes.length
  imports : r.imports.length ≤ s.imports.length
  lines : r.linesOfCode ≤ s.linesOfCode

section

variable {r s : FileRecord} {found more : List Issue}

theorem HoldsAtMost.complexityOf (holds : HoldsAtMost r s) : complexityOf r ≤ complexityOf s :=
  complexity_mono holds.functions holds.classes holds.imports holds.lines

theorem HoldsAtMost.isComplex (holds : HoldsAtMost r s) {score higher : Nat} (le : score ≤ higher)
    (complex : isComplex r score = true) : isComplex s higher = true := by
  obtain ⟨-, functions, classes, -, lines⟩ := holds
  simp only [Assessment.isComplex, Bool.or_eq_true, decide_eq_true_eq] at complex ⊢
  omega

theorem HoldsAtMost.needsSummary (holds : HoldsAtMost r s) (issues : found ⊆ more) {score higher : Nat}
    (le : score ≤ higher) (needs : needsSummary r score found = true) :
    needsSummary s higher more = true := by
  rw [Assessment.needsSummary, Bool.and_eq_true, Bool.or_eq_true, Bool.or_eq_true] at needs ⊢
  obtain ⟨included, reason⟩ := needs
  refine ⟨holds.path ▸ included, ?_⟩
  rcases reason with (complex | sensitive) | some
  · exact Or.inl (Or.inl (holds.isComplex le complex))
  · exact Or.inl (Or.inr (holds.path ▸ sensitive))
  · cases found with
    | nil => cases some
    | cons issue found =>
        have member := issues List.mem_cons_self
        exact Or.inr (by simpa using List.ne_nil_of_mem member)

theorem priority_mono (issues : found ⊆ more) {score higher : Nat} (le : score ≤ higher)
    {needs needsToo : Bool} (implies : needs = true → needsToo = true) :
    (priority found score needs).rank ≤ (priority more higher needsToo).rank := by
  have grave (any : (found.any fun issue => issue.severity = .critical) = true) :
      (more.any fun issue => issue.severity = .critical) = true := by
    obtain ⟨issue, member, critical⟩ := List.any_eq_true.mp any
    exact List.any_eq_true.mpr ⟨issue, issues member, critical⟩
  rw [priority, priority]
  split
  case isTrue any => rw [if_pos (grave any)]
  split
  case isTrue complex =>
    rw [if_pos (Nat.lt_of_lt_of_le complex le)]
    split <;> decide
  split
  case isTrue needed =>
    rw [if_pos (implies needed)]
    split
    · decide
    · split <;> decide
  exact Nat.zero_le _

theorem HoldsAtMost.verdict (holds : HoldsAtMost r s) (issues : found ⊆ more) :
    (verdict r found).AtMost (verdict s more) := by
  have needs := holds.needsSummary issues holds.complexityOf
  constructor <;> dsimp only [Assessment.verdict]
  · exact holds.complexityOf
  · exact needs
  · exact priority_mono issues holds.complexityOf needs

/-- With more functions, classes, imports, lines and issues the verdict on a path does not fall, for records
with given issues and for enriched ones; and where all sums are exact, the complexity is the weighted
count, a half of which counts as one. -/
theorem verdict_grows (holds : HoldsAtMost r s) :
    (∀ found more, found ⊆ more → (Assessment.verdict r found).AtMost (Assessment.verdict s more)) ∧
    (∀ content other, Issue.detect r.path content ⊆ Issue.detect s.path other →
      ∃ v w, Bears (r.enrichWith content) v ∧ Bears (s.enrichWith other) w ∧ v.AtMost w) ∧
    ∀ functions classes imports lines,
      4 * functions + 6 * classes + imports + 2 * lineBonus lines + 1 ≤ 2 ^ 53 →
      (complexity functions classes imports lines : ℤ) =
        ⌊(2 * functions + 3 * classes + imports / 2 + lineBonus lines + 1 / 2 : ℚ)⌋ := by
  refine ⟨fun found more issues => holds.verdict issues, fun content other issues => ?_,
    fun _ _ _ _ small => complexity_exact small⟩
  exact ⟨_, _, enrichWith_bears r content, enrichWith_bears s other, holds.verdict issues⟩

end

def invoice : FileRecord :=
  { path := "src/billing/invoice.ts", language := "typescript", imports := ["./tax"],
    functions := List.replicate 4 { name := "total" }, linesOfCode := 90 }

def grownInvoice : FileRecord :=
  { invoice with
    imports := ["./tax", "./rates"], classes := [{ name := "Invoice" }], linesOfCode := 301 }

theorem verdict_grows_invoice :
    HoldsAtMost invoice grownInvoice ∧ (verdict invoice []).AtMost (verdict grownInvoice []) ∧
      verdict invoice [] = ⟨9, false, .low⟩ ∧ verdict grownInvoice [] = ⟨17, true, .high⟩ ∧
      (∃ v w, Bears (invoice.enrichWith "// TODO") v ∧ Bears (grownInvoice.enrichWith "// TODO") w ∧
        v.AtMost w) ∧
      (complexity 4 1 2 301 : ℤ) = ⌊(2 * (4 : ℕ) + 3 * (1 : ℕ) + (2 : ℕ) / 2 + lineBonus 301 + 1 / 2 : ℚ)⌋ := by
  have holds : HoldsAtMost invoice grownInvoice := ⟨rfl, by decide, by decide, by decide, by decide⟩
  obtain ⟨given, enriched, exact⟩ := verdict_grows holds
  exact ⟨holds, given [] [] (List.Subset.refl _), by decide +kernel, by decide +kernel,
    enriched _ _ (List.Subset.refl _), exact 4 1 2 301 (by decide)⟩

end Assessment

end Groundwork
