import Groundwork.Proofs.Text.Ascii
import Mathlib.Data.List.Basic
import Mathlib.Order.Lattice

/-!
Lower case. No character of a text in lower case has a lower case of its own, so to put a text into lower case
twice is to do it once.
-/

namespace Groundwork.Text

namespace CaseRun

variable {run other : CaseRun} {n m : Nat}

/-- Whether a run covers no character from `first` to `last`. If it leaves out every second one and so do
they, or if there is but one of them, they may also stand in its gaps. -/
def passes (other : CaseRun) (first last step : Nat) : Bool :=
  Nat.blt last other.first || Nat.blt other.last first ||
    Nat.blt 0 first && Nat.beq other.step 2 && (Nat.beq step 2 || Nat.beq first last) &&
      Nat.beq ((first + other.first) % 2) 1

def least (runs : List CaseRun) : Nat := runs.foldr (fun run n => min run.first n) 0x110000

def greatest (runs : List CaseRun) : Nat := runs.foldr (fun run n => max run.last n) 0

/-- Whether no image of a run is covered by one of the others: there is none so far up or down, or each of
them passes. -/
def leaves (run : CaseRun) (others : List CaseRun) : Bool :=
  Nat.blt (run.last + run.shift).toNat (least others) ||
    Nat.blt (greatest others) (run.first + run.shift).toNat ||
      others.all fun other => other.passes (run.first + run.shift).toNat (run.last + run.shift).toNat run.step

theorem image?_eq_some_iff : run.image? n = some m ↔
    run.first ≤ n ∧ n ≤ run.last ∧ (n - run.first) % run.step = 0 ∧ (n + run.shift).toNat = m := by
  simp only [image?, Option.ite_none_right_eq_some, Option.some.injEq, Bool.and_eq_true,
    decide_eq_true_eq, beq_iff_eq, and_assoc]

theorem image?_of_passes
    (passes : other.passes (run.first + run.shift).toNat (run.last + run.shift).toNat run.step = true)
    (image : run.image? n = some m) : other.image? m = none := by
  obtain ⟨least, most, inStep, rfl⟩ := image?_eq_some_iff.mp image
  simp only [CaseRun.passes, Bool.or_eq_true, Bool.and_eq_true, Nat.blt_eq, Nat.beq_eq] at passes
  refine Option.eq_none_iff_forall_ne_some.mpr fun k covered => ?_
  obtain ⟨leastOther, mostOther, inStepOther, _⟩ := image?_eq_some_iff.mp covered
  rcases passes with (before | behind) | ⟨⟨⟨positive, everySecond⟩, steps⟩, odd⟩
  · omega
  · omega
  · rw [everySecond] at inStepOther
    rcases steps with two | one
    · rw [two] at inStep
      omega
    · omega

theorem least_le {runs : List CaseRun} (member : run ∈ runs) : least runs ≤ run.first := by
  induction runs with
  | nil => simp at member
  | cons first runs ih =>
      rcases List.mem_cons.mp member with rfl | later
      · exact min_le_left _ _
      · exact (min_le_right _ _).trans (ih later)

theorem le_greatest {runs : List CaseRun} (member : run ∈ runs) : run.last ≤ greatest runs := by
  induction runs with
  | nil => simp at member
  | cons first runs ih =>
      rcases List.mem_cons.mp member with rfl | later
      · exact le_max_left _ _
      · exact (ih later).trans (le_max_right _ _)

theorem passes_of_leaves {others : List CaseRun} (leaves : run.leaves others = true)
    (member : other ∈ others) :
    other.passes (run.first + run.shift).toNat (run.last + run.shift).toNat run.step = true := by
  have lower := least_le member
  have upper := le_greatest member
  simp only [CaseRun.leaves, Bool.or_eq_true, Nat.blt_eq, List.all_eq_true] at leaves
  rcases leaves with (below | above) | each
  · have before : Nat.blt (run.last + run.shift).toNat other.first = true := by
      rw [Nat.blt_eq]
      omega
    rw [passes, before, Bool.true_or, Bool.true_or]
  · have behind : Nat.blt other.last (run.first + run.shift).toNat = true := by
      rw [Nat.blt_eq]
      omega
    rw [passes, behind, Bool.or_true, Bool.true_or]
  · exact each other member

end CaseRun

def capitalRuns : List CaseRun :=
  ⟨0x41, 0x5a, 1, 32⟩ :: ⟨0x130, 0x130, 1, -199⟩ :: ⟨0x3a3, 0x3a3, 1, 32⟩ :: lowerRuns

/-- The runs that change something, in pieces, so that most of them need not be looked at one by one. -/
def capitalPieces : Nat → List CaseRun → List (List CaseRun)
  | 0, runs => [runs]
  | n + 1, runs => runs.take 12 :: capitalPieces n (runs.drop 12)

theorem flatten_capitalPieces (n : Nat) (runs : List CaseRun) : (capitalPieces n runs).flatten = runs := by
  induction n generalizing runs with
  | zero => exact List.append_nil runs
  | succ n ih => rw [capitalPieces, List.flatten_cons, ih, List.take_append_drop]

theorem lowerRuns_passed {run other : CaseRun} (member : run ∈ lowerRuns) (among : other ∈ capitalRuns) :
    other.passes (run.first + run.shift).toNat (run.last + run.shift).toNat run.step = true := by
  have all : (lowerRuns.all fun run => (capitalPieces 15 capitalRuns).all run.leaves) = true := by
    decide +kernel
  rw [← flatten_capitalPieces 15 capitalRuns] at among
  obtain ⟨piece, isPiece, within⟩ := List.mem_flatten.mp among
  have leaves := List.all_eq_true.mp (List.all_eq_true.mp all run member) piece isPiece
  exact CaseRun.passes_of_leaves leaves within

def IsLower (c : Char) : Prop := c.toNat ≠ 0x3a3 ∧ lowerChar c = [c]

instance (c : Char) : Decidable (IsLower c) := inferInstanceAs (Decidable (_ ∧ _))

theorem isLower_of_uncovered {c : Char} (uncovered : ∀ run ∈ capitalRuns, run.image? c.toNat = none) :
    IsLower c := by
  have noCapital : ¬ (0x41 ≤ c.toNat ∧ c.toNat ≤ 0x5a) := by
    intro within
    have none := uncovered _ (List.mem_cons_self)
    simp [CaseRun.image?, within, Nat.mod_one] at none
  have noDotted : c.toNat ≠ 0x130 := by
    intro same
    have none := uncovered _ (List.mem_cons_of_mem _ List.mem_cons_self)
    simp [CaseRun.image?, same] at none
  have noSigma : c.toNat ≠ 0x3a3 := by
    intro same
    have none := uncovered _ (List.mem_cons_of_mem _ (List.mem_cons_of_mem _ List.mem_cons_self))
    simp [CaseRun.image?, same] at none
  refine ⟨noSigma, ?_⟩
  rw [lowerChar]
  split
  · have notUpper : isAsciiUpper c = false := by
      rw [← Bool.not_eq_true, isAsciiUpper_iff]
      exact noCapital
    rw [notUpper]
    rfl
  · have unmoved : lowerRuns.findSome? (·.image? c.toNat) = none := by
      refine List.findSome?_eq_none_iff.mpr fun run member => uncovered run ?_
      exact List.mem_cons_of_mem _ (List.mem_cons_of_mem _ (List.mem_cons_of_mem _ member))
    rw [if_neg (by simpa using noDotted), shiftCase, unmoved]

theorem isLower_ofNat {n : Nat} (uncovered : ∀ run ∈ capitalRuns, run.image? n = none) :
    IsLower (Char.ofNat n) := by
  by_cases valid : n.isValidChar
  · have same : (Char.ofNat n).toNat = n := by
      rw [Char.ofNat, dif_pos valid]
      rfl
    exact isLower_of_uncovered (same.symm ▸ uncovered)
  · have zero : Char.ofNat n = Char.ofNat 0 := by
      rw [Char.ofNat, dif_neg valid]
      rfl
    rw [zero]
    decide

theorem isLower_ascii {c : Char} (ascii : c.toNat < 128) :
    IsLower (if isAsciiUpper c then Char.ofNat (c.toNat + 32) else c) := by
  have all : ∀ n : Fin 128, IsLower (if isAsciiUpper (Char.ofNat n) then Char.ofNat (n + 32)
      else Char.ofNat n) := by
    decide
  have own := all ⟨c.toNat, ascii⟩
  rwa [Char.ofNat_toNat] at own

theorem isLower_shiftCase {c : Char} (notAscii : ¬ c.toNat < 128) (noDotted : c.toNat ≠ 0x130)
    (noSigma : c.toNat ≠ 0x3a3) : IsLower (shiftCase lowerRuns c) := by
  rw [shiftCase]
  split
  · rename_i n found
    obtain ⟨run, member, image⟩ := List.exists_of_findSome?_eq_some found
    refine isLower_ofNat fun other among => ?_
    exact CaseRun.image?_of_passes (lowerRuns_passed member among) image
  · rename_i unmoved
    refine isLower_of_uncovered fun run member => ?_
    rw [List.findSome?_eq_none_iff] at unmoved
    simp only [capitalRuns, List.mem_cons] at member
    rcases member with rfl | rfl | rfl | member
    · simp only [CaseRun.image?, ite_eq_right_iff, Bool.and_eq_true, decide_eq_true_eq]
      omega
    · simp only [CaseRun.image?, ite_eq_right_iff, Bool.and_eq_true, decide_eq_true_eq]
      omega
    · simp only [CaseRun.image?, ite_eq_right_iff, Bool.and_eq_true, decide_eq_true_eq]
      omega
    · exact unmoved run member

theorem isLower_lowerChar {c d : Char} (noSigma : c.toNat ≠ 0x3a3) (member : d ∈ lowerChar c) :
    IsLower d := by
  rw [lowerChar] at member
  split at member
  · rename_i ascii
    rw [List.mem_singleton.mp member]
    exact isLower_ascii ascii
  · rename_i notAscii
    split at member
    · simp only [List.mem_cons, List.not_mem_nil, or_false] at member
      rcases member with rfl | rfl <;> decide +kernel
    · rename_i noDotted
      rw [List.mem_singleton.mp member]
      exact isLower_shiftCase notAscii (by simpa using noDotted) noSigma

theorem isLower_lowerFrom {inWord : Bool} {cs : List Char} {d : Char}
    (member : d ∈ lowerFrom inWord cs) : IsLower d := by
  induction cs generalizing inWord with
  | nil => simp [lowerFrom] at member
  | cons c rest ih =>
      rcases List.mem_append.mp member with own | later
      · split at own
        · rw [List.mem_singleton] at own
          subst own
          split <;> decide +kernel
        · rename_i noSigma
          exact isLower_lowerChar (by simpa using noSigma) own
      · exact ih later

theorem lowerFrom_of_isLower {inWord : Bool} {cs : List Char} (lower : ∀ c ∈ cs, IsLower c) :
    lowerFrom inWord cs = cs := by
  induction cs generalizing inWord with
  | nil => rfl
  | cons c rest ih =>
      obtain ⟨⟨noSigma, unmoved⟩, others⟩ := List.forall_mem_cons.mp lower
      simp only [lowerFrom, noSigma, beq_iff_eq, if_false, unmoved, ih others, List.singleton_append]

theorem lower_lower (s : String) : lower (lower s) = lower s := by
  rw [lower, lower, String.toList_ofList, lowerFrom_of_isLower fun _ => isLower_lowerFrom]

end Groundwork.Text
