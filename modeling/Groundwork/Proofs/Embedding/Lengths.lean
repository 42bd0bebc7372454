import Groundwork.Proofs.Decimal.Doubles

/-!
The length of a vector of doubles. The root of the sum of the squares of finite entries is rounded once, to
the nearest double, and a vector with a length is divided by it.
-/

namespace Groundwork.Embedding

open Decimal

inductive IsLength (xs : Vector64) : Float → Prop
  | infinite {x : Float} (member : x ∈ xs) (infinite : x.isInf = true) : IsLength xs (1.0 / 0.0)
  | undefined {x : Float} (bounded : ∀ y ∈ xs, y.isInf = false) (member : x ∈ xs)
      (undefined : x.isNaN = true) : IsLength xs (0.0 / 0.0)
  | finite {size : Float} (finite : ∀ x ∈ xs, x.isFinite = true)
      (rounded : Rounds √(xs.map fun x => valueOf x ^ 2).sum size) : IsLength xs size

/-- The vector in the direction of another one that is divided by its length, if it has one. -/
def Normalized (xs vector : Vector64) : Prop :=
  ∃ size, IsLength xs size ∧ vector = if 0.0 < size then xs.map (· / size) else xs

section Roots

variable {n : Nat}

theorem leading_bounds {root shift : Nat} (shiftIs : root.log2 - 52 = shift) :
    root / 2 ^ shift < 2 ^ 53 ∧ (shift = 0 ∨ 2 ^ 52 ≤ root / 2 ^ shift) := by
  have below : root < 2 ^ shift * 2 ^ 53 := by
    rw [← Nat.pow_add]
    exact Nat.lt_log2_self.trans_le (Nat.pow_le_pow_right (by decide) (by omega))
  refine ⟨Nat.div_lt_of_lt_mul below, ?_⟩
  by_cases small : root.log2 ≤ 52
  · exact Or.inl (by omega)
  · right
    have positive : root ≠ 0 := by
      rintro rfl
      exact small (by decide)
    rw [Nat.le_div_iff_mul_le (Nat.two_pow_pos _), ← Nat.pow_add]
    exact (Nat.pow_le_pow_right (by decide) (by omega)).trans (Nat.log2_self_le positive)

theorem rootPlace_between (n : Nat) : ∃ place, stepsAt place ^ 2 ≤ n ∧ n < stepsAt (place + 1) ^ 2 ∧
    rootPlace n = if 4 * n < (stepsAt place + stepsAt (place + 1)) ^ 2 ∨
        (4 * n = (stepsAt place + stepsAt (place + 1)) ^ 2 ∧ place % 2 = 0) then place
      else place + 1 := by
  have most := Nat.lt_succ_sqrt' n
  have least := Nat.sqrt_le' n
  simp only [rootPlace, Nat.shiftLeft_eq, Nat.shiftRight_eq_div_pow, ← Nat.pow_two]
  generalize n.sqrt = root at least most ⊢
  generalize shiftIs : root.log2 - 52 = shift
  obtain ⟨few, normal⟩ := leading_bounds shiftIs
  have lower : root / 2 ^ shift * 2 ^ shift ≤ root := Nat.div_mul_le_self _ _
  have upper : root + 1 ≤ (root / 2 ^ shift + 1) * 2 ^ shift :=
    Nat.lt_mul_of_div_lt (Nat.lt_succ_self _) (Nat.two_pow_pos _)
  generalize root / 2 ^ shift = low at *
  have here := stepsAt_shifted few.le normal
  have next : stepsAt (shift * 2 ^ 52 + low + 1) = (low + 1) * 2 ^ shift := by
    rw [Nat.add_assoc]
    exact stepsAt_shifted (by omega) (by omega)
  have twice : stepsAt (shift * 2 ^ 52 + low) + stepsAt (shift * 2 ^ 52 + low + 1) =
      (2 * low + 1) * 2 ^ shift := by
    rw [here, next]
    ring
  have parity : (shift * 2 ^ 52 + low) % 2 = low % 2 := by omega
  refine ⟨shift * 2 ^ 52 + low, ?_, ?_, ?_⟩
  · rw [here]
    exact (Nat.pow_le_pow_left lower 2).trans least
  · rw [next]
    exact most.trans_le (Nat.pow_le_pow_left upper 2)
  · rw [twice, parity]

section Neighbours

variable {f : Nat → ℝ} {s : ℝ} {place : Nat}

theorem distance_cases (mono : StrictMono f) (least : f place ≤ s) (most : s < f (place + 1)) (other : Nat) :
    (f other ≤ f place ∧ |f other - s| = s - f other) ∨
      (f (place + 1) ≤ f other ∧ |f other - s| = f other - s) := by
  rcases Nat.lt_or_ge place other with above | below
  · have side := mono.monotone (Nat.succ_le_of_lt above)
    exact Or.inr ⟨side, abs_of_nonneg (by linarith)⟩
  · have side := mono.monotone below
    refine Or.inl ⟨side, ?_⟩
    rw [abs_of_nonpos (by linarith), neg_sub]

theorem nearest_below (mono : StrictMono f) (least : f place ≤ s) (most : s < f (place + 1))
    (nearer : 2 * s ≤ f place + f (place + 1)) (other : Nat) :
    |f place - s| ≤ |f other - s| ∧
      (2 * s < f place + f (place + 1) → |f other - s| = |f place - s| → f other = f place) := by
  have own : |f place - s| = s - f place := by
    rw [abs_of_nonpos (by linarith), neg_sub]
  rcases distance_cases mono least most other with ⟨side, distance⟩ | ⟨side, distance⟩
  · rw [own, distance]
    exact ⟨by linarith, fun _ same => by linarith⟩
  · rw [own, distance]
    exact ⟨by linarith, fun strict same => by linarith⟩

theorem nearest_above (mono : StrictMono f) (least : f place ≤ s) (most : s < f (place + 1))
    (nearer : f place + f (place + 1) ≤ 2 * s) (other : Nat) :
    |f (place + 1) - s| ≤ |f other - s| ∧
      (f place + f (place + 1) < 2 * s → |f other - s| = |f (place + 1) - s| →
        f other = f (place + 1)) := by
  have own : |f (place + 1) - s| = f (place + 1) - s := abs_of_nonneg (by linarith)
  rcases distance_cases mono least most other with ⟨side, distance⟩ | ⟨side, distance⟩
  · rw [own, distance]
    exact ⟨by linarith, fun strict same => by linarith⟩
  · rw [own, distance]
    exact ⟨by linarith, fun _ same => by linarith⟩

end Neighbours

theorem sq_twice_sqrt (n : Nat) : (2 * √(n : ℝ)) ^ 2 = (4 * n : Nat) := by
  rw [mul_pow, Real.sq_sqrt (Nat.cast_nonneg n)]
  push_cast
  ring

theorem twice_sqrt_lt_iff (n bound : Nat) : 2 * √(n : ℝ) < bound ↔ 4 * n < bound ^ 2 := by
  rw [← pow_lt_pow_iff_left₀ (by positivity) (Nat.cast_nonneg bound) two_ne_zero, sq_twice_sqrt]
  exact_mod_cast Iff.rfl

theorem twice_sqrt_le_iff (n bound : Nat) : 2 * √(n : ℝ) ≤ bound ↔ 4 * n ≤ bound ^ 2 := by
  rw [← pow_le_pow_iff_left₀ (by positivity) (Nat.cast_nonneg bound) two_ne_zero, sq_twice_sqrt]
  exact_mod_cast Iff.rfl

theorem steps_strictMono : StrictMono fun place => (stepsAt place : ℝ) :=
  Nat.strictMono_cast.comp stepsAt_strictMono

theorem rootPlace_nearest (n other : Nat) :
    |(stepsAt (rootPlace n) : ℝ) - √n| ≤ |(stepsAt other : ℝ) - √n| ∧
      (|(stepsAt other : ℝ) - √n| = |(stepsAt (rootPlace n) : ℝ) - √n| →
        stepsAt other = stepsAt (rootPlace n) ∨ rootPlace n % 2 = 0) := by
  obtain ⟨place, least, most, same⟩ := rootPlace_between n
  have lower : (stepsAt place : ℝ) ≤ √n := Real.le_sqrt_of_sq_le (by exact_mod_cast least)
  have upper : √n < (stepsAt (place + 1) : ℝ) := by
    rw [Real.sqrt_lt (Nat.cast_nonneg _) (Nat.cast_nonneg _)]
    exact_mod_cast most
  have strict := twice_sqrt_lt_iff n (stepsAt place + stepsAt (place + 1))
  have weak := twice_sqrt_le_iff n (stepsAt place + stepsAt (place + 1))
  rw [Nat.cast_add] at strict weak
  rw [same]
  split
  · rename_i taken
    have nearer : 4 * n ≤ (stepsAt place + stepsAt (place + 1)) ^ 2 :=
      taken.elim Nat.le_of_lt fun tie => tie.1.le
    obtain ⟨nearest, alone⟩ := nearest_below steps_strictMono lower upper (weak.mpr nearer) other
    refine ⟨nearest, fun equal => ?_⟩
    rcases taken with less | ⟨_, even⟩
    · exact Or.inl (Nat.cast_injective (alone (strict.mpr less) equal))
    · exact Or.inr even
  · rename_i left
    have farther : ¬ 4 * n < (stepsAt place + stepsAt (place + 1)) ^ 2 := fun less => left (Or.inl less)
    obtain ⟨nearest, alone⟩ :=
      nearest_above steps_strictMono lower upper (not_lt.mp (mt strict.mp farther)) other
    refine ⟨nearest, fun equal => ?_⟩
    by_cases tie : 4 * n = (stepsAt place + stepsAt (place + 1)) ^ 2
    · have odd : place % 2 ≠ 0 := fun even => left (Or.inr ⟨tie, even⟩)
      exact Or.inr (by omega)
    · have more : ¬ 4 * n ≤ (stepsAt place + stepsAt (place + 1)) ^ 2 :=
        fun le => le.lt_or_eq.elim farther tie
      exact Or.inl (Nat.cast_injective (alone (not_le.mp (mt weak.mp more)) equal))

theorem last_stepsAt :
    ((stepsAt (infinityPlace - 1) : ℝ) + stepsAt infinityPlace) * step = 2 * roundingLimit := by
  have last : infinityPlace - 1 = 2045 * 2 ^ 52 + (2 ^ 53 - 1) := by decide
  have next : infinityPlace = 2045 * 2 ^ 52 + 2 ^ 53 := by decide
  have scaled : (2 : ℝ) ^ 2045 * step = 2 ^ 971 := by
    rw [step, ← zpow_natCast, ← zpow_add₀ two_ne_zero, ← zpow_natCast]
    congr 1
  have whole : (2 : ℝ) ^ 1024 = 2 ^ 53 * 2 ^ 971 := (pow_add 2 53 971)
  have half : 2 * (2 : ℝ) ^ 970 = 2 ^ 971 := (pow_succ' 2 970).symm
  rw [last, next, stepsAt_shifted (by omega) (by omega), stepsAt_shifted (by omega) (by omega),
    roundingLimit, Nat.cast_mul, Nat.cast_mul, Nat.cast_pow, Nat.cast_ofNat, ← add_mul, mul_assoc, scaled,
    mul_sub, whole, half]
  generalize (2 : ℝ) ^ 971 = unit
  push_cast
  ring

theorem lt_middle (below : rootPlace n < infinityPlace) :
    2 * √n < (stepsAt (infinityPlace - 1) : ℝ) + stepsAt infinityPlace := by
  have last : (stepsAt (infinityPlace - 1) : ℝ) < stepsAt infinityPlace := steps_strictMono (by decide)
  have most : (stepsAt (rootPlace n) : ℝ) ≤ stepsAt (infinityPlace - 1) :=
    steps_strictMono.monotone (Nat.le_sub_one_of_lt below)
  obtain ⟨nearest, alone⟩ := rootPlace_nearest n infinityPlace
  by_contra beyond
  have farther := not_lt.mp beyond
  have own : |(stepsAt (rootPlace n) : ℝ) - √n| = √n - stepsAt (rootPlace n) := by
    rw [abs_of_nonpos (by linarith), neg_sub]
  rcases abs_cases ((stepsAt infinityPlace : ℝ) - √n) with ⟨other, _⟩ | ⟨other, _⟩
  · have same : (stepsAt (rootPlace n) : ℝ) = stepsAt (infinityPlace - 1) := by linarith
    have place : rootPlace n = infinityPlace - 1 := steps_strictMono.injective same
    rcases alone (by linarith) with equal | even
    · rw [equal] at last
      linarith
    · rw [place] at even
      exact absurd even (by decide)
  · linarith

theorem lt_of_lt_middle (below : 2 * √n < (stepsAt (infinityPlace - 1) : ℝ) + stepsAt infinityPlace) :
    rootPlace n < infinityPlace := by
  have last : (stepsAt (infinityPlace - 1) : ℝ) < stepsAt infinityPlace := steps_strictMono (by decide)
  by_contra beyond
  have least : (stepsAt infinityPlace : ℝ) ≤ stepsAt (rootPlace n) :=
    steps_strictMono.monotone (not_lt.mp beyond)
  have nearest := (rootPlace_nearest n (infinityPlace - 1)).1
  rw [abs_of_nonneg (by linarith)] at nearest
  rcases abs_cases ((stepsAt (infinityPlace - 1) : ℝ) - √n) with ⟨same, _⟩ | ⟨same, _⟩ <;>
    linarith

theorem rootPlace_lt_iff (n : Nat) : rootPlace n < infinityPlace ↔ √n * step < roundingLimit := by
  have middle : √n * step < roundingLimit ↔
      2 * √n < (stepsAt (infinityPlace - 1) : ℝ) + stepsAt infinityPlace := by
    rw [← mul_lt_mul_iff_left₀ (b := 2 * √(n : ℝ)) step_pos, last_stepsAt, mul_assoc]
    exact (mul_lt_mul_iff_right₀ two_pos).symm
  rw [middle]
  exact ⟨lt_middle, lt_of_lt_middle⟩

theorem distance_steps (steps n : Nat) :
    |(steps : ℝ) * step - √n * step| = |(steps : ℝ) - √n| * step := by
  rw [← sub_mul, abs_mul, abs_of_pos step_pos]

theorem rootPlace_zero {n : Nat} (zero : √(n : ℝ) = 0) : stepsAt (rootPlace n) = 0 := by
  have nearest := (rootPlace_nearest n 0).1
  rw [zero, sub_zero, sub_zero, Nat.abs_cast, Nat.abs_cast] at nearest
  exact Nat.le_zero.mp (Nat.cast_le.mp nearest)

section Signs

variable {r v : ℝ}

theorem distance_abs (size : 0 ≤ r) (v : ℝ) : |(|v| - r)| ≤ |v - r| := by
  have same := abs_abs_sub_abs_le v r
  rwa [abs_of_nonneg size] at same

theorem of_distance_abs (size : 0 ≤ r) (same : |v - r| = |(|v| - r)|) : |v| = v ∨ r = 0 := by
  rcases abs_choice v with positive | negative
  · exact Or.inl positive
  · rw [negative] at same
    rcases abs_eq_abs.mp same with none | none
    · exact Or.inl (by linarith)
    · exact Or.inr (by linarith)

end Signs

theorem doubleAt_nearest {n : Nat} (below : rootPlace n < infinityPlace) {y : Float}
    (finite : y.isFinite = true) :
    |valueOf (doubleAt (rootPlace n)) - √n * step| ≤ |(|valueOf y| - √n * step)| := by
  rw [valueOf_doubleAt below, abs_valueOf finite, distance_steps, distance_steps]
  exact mul_le_mul_of_nonneg_right (rootPlace_nearest n _).1 step_pos.le

theorem doubleAt_even {n : Nat} (below : rootPlace n < infinityPlace) {y : Float}
    (finite : y.isFinite = true)
    (equal : |(|valueOf y| - √n * step)| = |valueOf (doubleAt (rootPlace n)) - √n * step|) :
    |valueOf y| = valueOf (doubleAt (rootPlace n)) ∨ rootPlace n % 2 = 0 := by
  rw [abs_valueOf finite, valueOf_doubleAt below, distance_steps, distance_steps,
    mul_left_inj' step_pos.ne'] at equal
  refine ((rootPlace_nearest n _).2 equal).imp_left fun steps => ?_
  rw [abs_valueOf finite, valueOf_doubleAt below, steps]

theorem rounds_doubleAt (n : Nat) : Rounds (√n * step) (doubleAt (rootPlace n)) := by
  by_cases below : rootPlace n < infinityPlace
  · have size : 0 ≤ √(n : ℝ) * step := mul_nonneg (Real.sqrt_nonneg _) step_pos.le
    refine .near ((rootPlace_lt_iff n).mp below) (doubleAt_isFinite below) ?_ ?_
    · exact fun y finite => (doubleAt_nearest below finite).trans (distance_abs size _)
    · intro y finite same
      have equal := le_antisymm ((distance_abs size _).trans_eq same) (doubleAt_nearest below finite)
      refine (doubleAt_even below finite equal).imp (fun mirrored => ?_) fun even => ?_
      · rcases of_distance_abs size (same.trans equal.symm) with positive | zero
        · exact positive.symm.trans mirrored
        · have root : √(n : ℝ) = 0 := (mul_eq_zero.mp zero).resolve_right step_pos.ne'
          have value : valueOf (doubleAt (rootPlace n)) = 0 := by
            rw [valueOf_doubleAt below, rootPlace_zero root, Nat.cast_zero, zero_mul]
          exact (abs_eq_zero.mp (mirrored.trans value)).trans value.symm
      · rw [toBits_doubleAt below.le]
        exact even
  · have infinite : doubleAt (rootPlace n) = 1.0 / 0.0 := by
      rw [doubleAt, Nat.min_eq_right (not_lt.mp below)]
      decide +kernel
    rw [infinite]
    exact .beyond (not_lt.mp (mt (rootPlace_lt_iff n).mpr below))

end Roots

theorem sum_squares {xs : Vector64} (finite : ∀ x ∈ xs, x.isFinite = true) :
    (xs.map fun x => valueOf x ^ 2).sum = squares xs * step ^ 2 := by
  induction xs with
  | nil => simp [squares]
  | cons x xs ih =>
      obtain ⟨first, others⟩ := List.forall_mem_cons.mp finite
      have square : valueOf x ^ 2 = (stepsOf x * stepsOf x : Nat) * step ^ 2 := by
        rw [← sq_abs, abs_valueOf first, mul_pow, ← stepsOf_eq first, ← Nat.pow_two, Nat.cast_pow]
      rw [List.map_cons, List.sum_cons, ih others, square, squares, Nat.cast_add, add_mul]

theorem squares_sqrt {xs : Vector64} (finite : ∀ x ∈ xs, x.isFinite = true) :
    √(xs.map fun x => valueOf x ^ 2).sum = √(squares xs) * step := by
  rw [sum_squares finite, Real.sqrt_mul (Nat.cast_nonneg _), Real.sqrt_sq step_pos.le]

theorem isFinite_of_bounded {x : Float} (bounded : x.isInf = false) (number : x.isNaN = false) :
    x.isFinite = true := by
  have infinite : x.isInf = x.toModel.unpack.isInf := rfl
  have undefined : x.isNaN = x.toModel.unpack.isNaN := rfl
  have finite : x.isFinite = x.toModel.unpack.isFinite := rfl
  rw [infinite] at bounded
  rw [undefined] at number
  rw [finite]
  cases unpacked : x.toModel.unpack with
  | infinity s =>
      rw [unpacked] at bounded
      cases bounded
  | notANumber =>
      rw [unpacked] at number
      cases number
  | zero s => rfl
  | finite s m e positive => rfl

theorem length_isLength (xs : Vector64) : IsLength xs (length xs) := by
  rw [length]
  split
  · rename_i some
    obtain ⟨x, member, infinite⟩ := List.any_eq_true.mp some
    exact .infinite member infinite
  rename_i none
  have bounded : ∀ x ∈ xs, x.isInf = false := fun x member =>
    (Bool.not_eq_true _).mp fun infinite => none (List.any_eq_true.mpr ⟨x, member, infinite⟩)
  split
  · rename_i some
    obtain ⟨x, member, undefined⟩ := List.any_eq_true.mp some
    exact .undefined bounded member undefined
  · rename_i defined
    have numbers : ∀ x ∈ xs, x.isNaN = false := fun x member =>
      (Bool.not_eq_true _).mp fun undefined => defined (List.any_eq_true.mpr ⟨x, member, undefined⟩)
    have finite : ∀ x ∈ xs, x.isFinite = true := fun x member =>
      isFinite_of_bounded (bounded x member) (numbers x member)
    refine .finite finite ?_
    rw [squares_sqrt finite]
    exact rounds_doubleAt _

theorem normalize_normalized (xs : Vector64) : Normalized xs (normalize xs) :=
  ⟨length xs, length_isLength xs, rfl⟩

example : normalize [3.0, 4.0] = [3.0 / 5.0, 4.0 / 5.0] := by decide +kernel

end Groundwork.Embedding
