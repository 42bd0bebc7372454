import Groundwork.Embedding.Norm
import Mathlib

/-!
The doubles that are not negative, in their order. The bits of a double are its place, the value at a
place is a number of steps of `2 ^ (-1074)`, and it grows with the place. Up to sign every finite double
is one of these.
-/

namespace Groundwork.Decimal

open Float.Model Float.Model.UnpackedFloat
open Groundwork.Embedding (stepsOf infinityPlace doubleAt)

section Bits

theorem toNat_unpackExponent (b : BitVec 64) :
    (@unpackExponent Format.binary64 b).toNat = b.toNat / 2 ^ 52 % 2 ^ 11 := by
  simp [unpackExponent, Nat.shiftRight_eq_div_pow]

theorem toNat_unpackMantissa (b : BitVec 64) :
    (@unpackMantissa Format.binary64 b).toNat = b.toNat % 2 ^ 52 := by
  simp [unpackMantissa]

theorem toBits_ofBits {bits : UInt64} (number : bits.toNat ≤ infinityPlace) :
    (Float.ofBits bits).toBits = bits := by
  have apart : ¬ @isNaNBits Format.binary64 bits.toBitVec = true := by
    intro undefined
    obtain ⟨top, filled⟩ := of_decide_eq_true undefined
    refine filled (BitVec.eq_of_toNat_eq ((toNat_unpackMantissa bits.toBitVec).trans ?_))
    have last := (toNat_unpackExponent bits.toBitVec).symm.trans (congrArg BitVec.toNat top)
    change bits.toNat / 2 ^ 52 % 2 ^ 11 = 2047 at last
    change bits.toNat % 2 ^ 52 = 0
    rw [infinityPlace] at number
    omega
  have roundtrip := @pack_unpack Format.binary64 bits.toBitVec (by decide)
  rw [if_neg apart] at roundtrip
  exact congrArg UInt64.ofBitVec roundtrip

theorem isFinite_iff (x : Float) :
    x.isFinite = true ↔ x.toBits.toNat / 2 ^ 52 % 2 ^ 11 ≠ 2047 := by
  have same : x.isFinite = (UnpackedFloat.unpack Format.binary64 x.toBits.toBitVec).isFinite := rfl
  have field := toNat_unpackExponent x.toBits.toBitVec
  rw [same, UnpackedFloat.unpack]
  dsimp only
  split
  · rename_i top
    rw [top] at field
    refine iff_of_false ?_ fun below => below field.symm
    split <;> exact Bool.false_ne_true
  · rename_i notTop
    refine iff_of_true ?_ fun last => notTop (BitVec.eq_of_toNat_eq (field.trans last))
    split
    · split <;> rfl
    · rfl

end Bits

section Places

def stepsAt (place : Nat) : Nat :=
  if place < 2 ^ 52 then place else (2 ^ 52 + place % 2 ^ 52) * 2 ^ (place / 2 ^ 52 - 1)

theorem stepsAt_shifted {shift low : Nat} (few : low ≤ 2 ^ 53) (normal : shift = 0 ∨ 2 ^ 52 ≤ low) :
    stepsAt (shift * 2 ^ 52 + low) = low * 2 ^ shift := by
  by_cases small : low < 2 ^ 52
  · obtain rfl : shift = 0 := by omega
    rw [stepsAt, if_pos (by omega)]
    omega
  rw [stepsAt, if_neg (by omega)]
  by_cases last : low = 2 ^ 53
  · subst last
    have place : (shift * 2 ^ 52 + 2 ^ 53) / 2 ^ 52 - 1 = shift + 1 := by omega
    have rest : (shift * 2 ^ 52 + 2 ^ 53) % 2 ^ 52 = 0 := by omega
    rw [place, rest, Nat.pow_succ]
    ring
  · have place : (shift * 2 ^ 52 + low) / 2 ^ 52 - 1 = shift := by omega
    have rest : 2 ^ 52 + (shift * 2 ^ 52 + low) % 2 ^ 52 = low := by omega
    rw [place, rest]

theorem stepsAt_strictMono : StrictMono stepsAt := by
  refine strictMono_nat_of_lt_succ fun place => ?_
  obtain ⟨shift, low, rfl, few, normal⟩ : ∃ shift low, place = shift * 2 ^ 52 + low ∧
      low < 2 ^ 53 ∧ (shift = 0 ∨ 2 ^ 52 ≤ low) := by
    refine ⟨place / 2 ^ 52 - 1, place - (place / 2 ^ 52 - 1) * 2 ^ 52, ?_, ?_, ?_⟩ <;> omega
  rw [Nat.add_assoc, stepsAt_shifted few.le normal, stepsAt_shifted few (by omega)]
  exact Nat.mul_lt_mul_of_pos_right (Nat.lt_succ_self low) (Nat.two_pow_pos shift)

theorem toBits_doubleAt {place : Nat} (bound : place ≤ infinityPlace) :
    (doubleAt place).toBits.toNat = place := by
  have same : (UInt64.ofNat place).toNat = place := by
    rw [infinityPlace] at bound
    rw [UInt64.toNat_ofNat']
    omega
  rw [doubleAt, Nat.min_eq_left bound, toBits_ofBits (same.le.trans bound), same]

theorem doubleAt_isFinite {place : Nat} (bound : place < infinityPlace) :
    (doubleAt place).isFinite = true := by
  rw [isFinite_iff, toBits_doubleAt bound.le]
  rw [infinityPlace] at bound
  omega

end Places

section Values

def valueOf (x : Float) : ℝ := (Exact.ofFloat x).toRat

noncomputable def step : ℝ := 2 ^ (-1074 : ℤ)

theorem step_pos : 0 < step := zpow_pos (by norm_num) _

/-- The middle between the last finite double and the one that would follow it. -/
noncomputable def roundingLimit : ℝ := 2 ^ 1024 - 2 ^ 970

/-- Rounding of what is not negative: to the nearest double, halfway between two of them to the one with even
bits, and to infinity where finite doubles end. -/
inductive Rounds (r : ℝ) : Float → Prop
  | near {x : Float} (below : r < roundingLimit) (finite : x.isFinite = true)
      (nearest : ∀ y : Float, y.isFinite = true → |valueOf x - r| ≤ |valueOf y - r|)
      (even : ∀ y : Float, y.isFinite = true → |valueOf y - r| = |valueOf x - r| →
        valueOf y = valueOf x ∨ x.toBits.toNat % 2 = 0) : Rounds r x
  | beyond (above : roundingLimit ≤ r) : Rounds r (1.0 / 0.0)

theorem ofFloat_finite {x : Float} (finite : x.isFinite = true) : ∃ mantissa shift : Nat,
    Exact.ofFloat x = .finite (x.toBits.toNat / 2 ^ 63 == 1) mantissa (shift - 1074) ∧
      mantissa * 2 ^ shift = stepsAt (x.toBits.toNat % 2 ^ 63) := by
  have below := (isFinite_iff x).mp finite
  have whole : Exact.ofFloat x = if x.toBits.toNat / 2 ^ 52 % 2 ^ 11 = 0 then
      .finite (x.toBits.toNat / 2 ^ 63 == 1) (x.toBits.toNat % 2 ^ 52) (-1074)
    else .finite (x.toBits.toNat / 2 ^ 63 == 1) (2 ^ 52 + x.toBits.toNat % 2 ^ 52)
      ((x.toBits.toNat / 2 ^ 52 % 2 ^ 11 : Nat) - 1075) := by
    simp only [Exact.ofFloat, Nat.pow_eq, beq_iff_eq, if_neg below]
  rw [whole]
  generalize x.toBits.toNat = bits
  by_cases subnormal : bits / 2 ^ 52 % 2 ^ 11 = 0
  · refine ⟨bits % 2 ^ 52, 0, if_pos subnormal, ?_⟩
    rw [stepsAt, if_pos (by omega)]
    omega
  · refine ⟨2 ^ 52 + bits % 2 ^ 52, bits / 2 ^ 52 % 2 ^ 11 - 1, ?_, ?_⟩
    · have shift : ((bits / 2 ^ 52 % 2 ^ 11 : Nat) : ℤ) - 1075 =
          ((bits / 2 ^ 52 % 2 ^ 11 - 1 : Nat) : ℤ) - 1074 := by
        omega
      rw [if_neg subnormal, shift]
    · have low : bits % 2 ^ 63 % 2 ^ 52 = bits % 2 ^ 52 := by omega
      have row : bits % 2 ^ 63 / 2 ^ 52 - 1 = bits / 2 ^ 52 % 2 ^ 11 - 1 := by omega
      rw [stepsAt, if_neg (by omega), low, row]

theorem valueOf_eq {x : Float} (finite : x.isFinite = true) : valueOf x =
    (if x.toBits.toNat / 2 ^ 63 = 1 then -1 else 1) * (stepsAt (x.toBits.toNat % 2 ^ 63) * step) := by
  obtain ⟨mantissa, shift, exact, steps⟩ := ofFloat_finite finite
  have size : (mantissa : ℝ) * 2 ^ ((shift : ℤ) - 1074) =
      stepsAt (x.toBits.toNat % 2 ^ 63) * step := by
    rw [← steps, step, Nat.cast_mul, Nat.cast_pow, Nat.cast_ofNat, mul_assoc, ← zpow_natCast,
      ← zpow_add₀ two_ne_zero, Int.sub_eq_add_neg]
  rw [valueOf, exact, Exact.toRat, ← size]
  simp only [beq_iff_eq]
  split
  · push_cast
    ring
  · push_cast
    ring

theorem abs_valueOf {x : Float} (finite : x.isFinite = true) :
    |valueOf x| = stepsAt (x.toBits.toNat % 2 ^ 63) * step := by
  have size : 0 ≤ (stepsAt (x.toBits.toNat % 2 ^ 63) : ℝ) * step :=
    mul_nonneg (Nat.cast_nonneg _) step_pos.le
  rw [valueOf_eq finite]
  split
  · rw [neg_one_mul, abs_neg, abs_of_nonneg size]
  · rw [one_mul, abs_of_nonneg size]

theorem stepsOf_eq {x : Float} (finite : x.isFinite = true) :
    stepsOf x = stepsAt (x.toBits.toNat % 2 ^ 63) := by
  obtain ⟨mantissa, shift, exact, steps⟩ := ofFloat_finite finite
  have same : ((shift : ℤ) - 1074 + 1074).toNat = shift := by omega
  rw [stepsOf, exact, ← steps]
  dsimp only
  rw [same, Nat.shiftLeft_eq]

theorem valueOf_doubleAt {place : Nat} (bound : place < infinityPlace) :
    valueOf (doubleAt place) = stepsAt place * step := by
  have positive : place / 2 ^ 63 ≠ 1 ∧ place % 2 ^ 63 = place := by
    rw [infinityPlace] at bound
    omega
  rw [valueOf_eq (doubleAt_isFinite bound), toBits_doubleAt bound.le, if_neg positive.1, positive.2,
    one_mul]

end Values

end Groundwork.Decimal
