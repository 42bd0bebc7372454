import Groundwork.Text.Letter

/-!
Letters and digits of ASCII. They are told by their codes, so no character is of two of these kinds.
-/

namespace Groundwork.Text

variable {c : Char}

theorem isAsciiUpper_iff : isAsciiUpper c = true ↔ 65 ≤ c.toNat ∧ c.toNat ≤ 90 := by
  rw [isAsciiUpper, Bool.and_eq_true, decide_eq_true_iff, decide_eq_true_iff]
  exact Iff.rfl

theorem isAsciiLower_iff : isAsciiLower c = true ↔ 97 ≤ c.toNat ∧ c.toNat ≤ 122 := by
  rw [isAsciiLower, Bool.and_eq_true, decide_eq_true_iff, decide_eq_true_iff]
  exact Iff.rfl

theorem isAsciiDigit_iff : isAsciiDigit c = true ↔ 48 ≤ c.toNat ∧ c.toNat ≤ 57 := by
  rw [isAsciiDigit, Bool.and_eq_true, decide_eq_true_iff, decide_eq_true_iff]
  exact Iff.rfl

theorem not_upper_of_lower (lower : isAsciiLower c = true) : isAsciiUpper c = false := by
  rw [isAsciiLower_iff] at lower
  rw [← Bool.not_eq_true, isAsciiUpper_iff]
  omega

theorem not_upper_of_digit (digit : isAsciiDigit c = true) : isAsciiUpper c = false := by
  rw [isAsciiDigit_iff] at digit
  rw [← Bool.not_eq_true, isAsciiUpper_iff]
  omega

theorem not_lower_of_upper (upper : isAsciiUpper c = true) : isAsciiLower c = false := by
  rw [isAsciiUpper_iff] at upper
  rw [← Bool.not_eq_true, isAsciiLower_iff]
  omega

theorem not_lower_of_digit (digit : isAsciiDigit c = true) : isAsciiLower c = false := by
  rw [isAsciiDigit_iff] at digit
  rw [← Bool.not_eq_true, isAsciiLower_iff]
  omega

theorem lowerFrom_ascii {cs : List Char} (ascii : ∀ c ∈ cs, c.toNat < 128) (inWord : Bool) :
    lowerFrom inWord cs = cs.map fun c => if isAsciiUpper c then Char.ofNat (c.toNat + 32) else c := by
  induction cs generalizing inWord with
  | nil => rfl
  | cons c cs ih =>
      obtain ⟨first, others⟩ := List.forall_mem_cons.mp ascii
      have noSigma : (c.toNat == 0x3a3) = false := beq_false_of_ne (by omega)
      rw [lowerFrom, noSigma, lowerChar, if_pos first, ih others, List.map_cons]
      rfl

end Groundwork.Text
