import Mathlib

/-!
# Nearest doubles

The numbers that doubles are worth, and rounding to them, in exact arithmetic. `IsDouble` has no
bound above: what overflows is told apart later. A result is never described by how it was
computed, only by `Nearest`: it is a double, and no double is nearer. From this alone it follows
that rounding keeps doubles (`Nearest.eq_of_isDouble`), never crosses a double
(`Nearest.le_of_le`), and errs by at most half a unit in the last place
(`Nearest.abs_sub_le`). Of two nearest doubles rounding takes the even one (`NearestEven`).
-/

namespace Toolpath.Double

/-- A number with fifty-three bits, none of them below the last place of the smallest doubles. -/
def IsDouble (w : ℚ) : Prop :=
  ∃ n e : ℤ, |n| ≤ 2 ^ 53 ∧ -1074 ≤ e ∧ w = n * 2 ^ e

/-- A double to which no other is nearer. -/
structure Nearest (v r : ℚ) : Prop where
  isDouble : IsDouble v
  least : ∀ w, IsDouble w → |v - r| ≤ |w - r|

/-- A nearest double that is an even number of steps if half a step was rounded. -/
structure NearestEven (v r : ℚ) : Prop extends Nearest v r where
  even : ∀ n e : ℤ, v = n * 2 ^ e → |v - r| = 2 ^ (e - 1) → Even n

/-! ### Doubles -/

lemma isDouble_intCast {n : ℤ} (small : |n| ≤ 2 ^ 53) : IsDouble n :=
  ⟨n, 0, small, by norm_num, by simp⟩

lemma isDouble_zero : IsDouble 0 := by
  have := isDouble_intCast (n := 0) (by norm_num)
  simpa using this

lemma isDouble_two_zpow {k : ℤ} (low : -1021 ≤ k) : IsDouble (2 ^ k) := by
  refine ⟨2 ^ 53, k - 53, by norm_num, by omega, ?_⟩
  rw [Int.cast_pow, Int.cast_ofNat, ← zpow_natCast, ← zpow_add₀ two_ne_zero]
  congr 1
  omega

lemma IsDouble.neg {w : ℚ} (double : IsDouble w) : IsDouble (-w) := by
  obtain ⟨n, e, small, low, rfl⟩ := double
  exact ⟨-n, e, by rwa [abs_neg], low, by push_cast; ring⟩

/-- Twice a double, any number of times, is a double. -/
lemma IsDouble.mul_two_pow {w : ℚ} (double : IsDouble w) (k : ℕ) : IsDouble (w * 2 ^ k) := by
  obtain ⟨n, e, small, low, rfl⟩ := double
  refine ⟨n, e + k, small, by omega, ?_⟩
  rw [zpow_add₀ two_ne_zero, zpow_natCast, mul_assoc]

/-- A double stands on every step that is not too coarse for it, and it is not greater than the
first number that has fifty-three bits in coarser steps. -/
lemma IsDouble.step_or_le {w : ℚ} (double : IsDouble w) (T : ℤ) :
    (∃ N : ℤ, w = N * 2 ^ T) ∨ -1074 < T ∧ w ≤ 2 ^ 52 * 2 ^ T := by
  obtain ⟨n, k, few, above, rfl⟩ := double
  by_cases coarse : T ≤ k
  case pos =>
    refine .inl ⟨n * 2 ^ (k - T).toNat, ?_⟩
    push_cast
    rw [mul_assoc, ← zpow_natCast, ← zpow_add₀ two_ne_zero]
    congr 2
    omega
  case neg =>
    refine .inr ⟨by omega, ?_⟩
    calc (n : ℚ) * 2 ^ k ≤ 2 ^ 53 * 2 ^ k := by
          gcongr
          exact_mod_cast (le_abs_self n).trans few
      _ = 2 ^ 52 * 2 ^ (k + 1) := by
          rw [zpow_add_one₀ two_ne_zero]
          ring
      _ ≤ 2 ^ 52 * 2 ^ T := by
          gcongr
          · norm_num
          · omega

/-! ### Rounding -/

namespace Nearest

variable {v r w : ℚ}

/-- A double is rounded to itself. -/
lemma eq_of_isDouble (nearest : Nearest v r) (double : IsDouble r) : v = r := by
  have := nearest.least r double
  rw [sub_self, abs_zero] at this
  exact sub_eq_zero.1 (abs_nonpos_iff.1 this)

lemma neg (nearest : Nearest v r) : Nearest (-v) (-r) := by
  refine ⟨nearest.isDouble.neg, fun w double => ?_⟩
  have := nearest.least (-w) double.neg
  calc |-v - -r| = |v - r| := by rw [← abs_neg]; ring_nf
    _ ≤ |-w - r| := this
    _ = |w - -r| := by rw [← abs_neg]; ring_nf

/-- Rounding does not go above a double that was above. -/
lemma le_of_le (nearest : Nearest v r) (double : IsDouble w) (below : r ≤ w) : v ≤ w := by
  by_contra above
  have least := nearest.least w double
  rw [abs_of_nonneg (by linarith), abs_of_nonneg (by linarith)] at least
  linarith

/-- Rounding does not go below a double that was below. -/
lemma ge_of_ge (nearest : Nearest v r) (double : IsDouble w) (above : w ≤ r) : w ≤ v := by
  have := nearest.neg.le_of_le double.neg (neg_le_neg above)
  linarith

lemma nonneg (nearest : Nearest v r) (positive : 0 ≤ r) : 0 ≤ v :=
  nearest.ge_of_ge isDouble_zero positive

lemma nonpos (nearest : Nearest v r) (negative : r ≤ 0) : v ≤ 0 :=
  nearest.le_of_le isDouble_zero negative

/-- Rounding keeps a size within a double. -/
lemma abs_le_of_abs_le (nearest : Nearest v r) (double : IsDouble w) (within : |r| ≤ w) :
    |v| ≤ w := by
  obtain ⟨low, high⟩ := abs_le.1 within
  exact abs_le.2 ⟨nearest.ge_of_ge double.neg low, nearest.le_of_le double high⟩

end Nearest

namespace NearestEven

variable {v r : ℚ}

lemma neg (nearest : NearestEven v r) : NearestEven (-v) (-r) := by
  refine ⟨nearest.toNearest.neg, fun n e same half => ?_⟩
  have even : Even (-n) := by
    refine nearest.even (-n) e ?_ ?_
    · rw [← neg_neg v, same]
      push_cast
      ring
    · rwa [neg_sub_neg, abs_sub_comm] at half
  exact even_neg.1 even

/-- A double is its own nearest one. -/
lemma self (double : IsDouble v) : NearestEven v v := by
  refine ⟨⟨double, fun w _ => ?_⟩, fun n e _ half => ?_⟩
  · rw [sub_self, abs_zero]
    exact abs_nonneg _
  · have positive : (0 : ℚ) < 2 ^ (e - 1) := by positivity
    rw [sub_self, abs_zero] at half
    exact absurd half positive.ne

end NearestEven

/-! ### Whole numbers -/

/-- A whole number within a half, and even where another one is as near. -/
structure HalfEven (R : ℤ) (x : ℚ) : Prop where
  half : |R - x| ≤ 1 / 2
  tie : |R - x| = 1 / 2 → Even R

/-- Every number has one: the nearest whole number that is not below it, or the one before. -/
lemma exists_halfEven (x : ℚ) : ∃ R, HalfEven R x := by
  obtain ⟨low, high⟩ := round_eq_iff.1 (rfl : round x = round x)
  generalize round x = R at low high
  by_cases even : Even R
  case pos => exact ⟨R, abs_le.2 ⟨by linarith, by linarith⟩, fun _ => even⟩
  case neg =>
    rcases low.lt_or_eq with inside | tie
    · have strict : |(R : ℚ) - x| < 1 / 2 := abs_lt.2 ⟨by linarith, by linarith⟩
      exact ⟨R, strict.le, fun tie => absurd tie strict.ne⟩
    · refine ⟨R - 1, ?_, fun _ => ?_⟩
      · rw [← tie]
        push_cast
        norm_num
      · exact Int.even_sub_one.2 even

namespace HalfEven

variable {R : ℤ} {x : ℚ}

lemma neg (rounded : HalfEven R x) : HalfEven (-R) (-x) := by
  have same : |((-R : ℤ) : ℚ) - -x| = |R - x| := by
    rw [Int.cast_neg, neg_sub_neg, abs_sub_comm]
  exact ⟨same.trans_le rounded.half, fun tie => (rounded.tie (same.symm.trans tie)).neg⟩

/-- It is not beyond a whole number that the rounded number is not beyond. -/
lemma size_le (rounded : HalfEven R x) {n : ℤ} (within : |x| ≤ n) : |R| ≤ n := by
  obtain ⟨above, below⟩ := abs_le.1 rounded.half
  obtain ⟨least, most⟩ := abs_le.1 within
  have first : (-n - 1 : ℚ) < R := by linarith
  have first : -n - 1 < R := by exact_mod_cast first
  have last : (R : ℚ) < n + 1 := by linarith
  have last : R < n + 1 := by exact_mod_cast last
  exact abs_le.2 ⟨by omega, by omega⟩

/-- No whole number is nearer. -/
lemma least (rounded : HalfEven R x) (N : ℤ) : |(R : ℚ) - x| ≤ |N - x| := by
  by_cases same : N = R
  · rw [same]
  · have half := rounded.half
    have apart : (1 : ℚ) ≤ |(N : ℚ) - R| := by
      exact_mod_cast Int.one_le_abs (sub_ne_zero.2 same)
    have : |(N : ℚ) - R| ≤ |N - x| + |R - x| := by
      rw [abs_sub_comm (R : ℚ) x]
      exact abs_sub_le (N : ℚ) x R
    linarith

/-- In steps of a power of two, and in steps that are finer than these, ties are even. -/
lemma even (rounded : HalfEven R x) {T n e : ℤ} (same : (R : ℚ) * 2 ^ T = n * 2 ^ e)
    (half : |(R : ℚ) * 2 ^ T - x * 2 ^ T| = 2 ^ (e - 1)) : Even n := by
  have unit : (0 : ℚ) < 2 ^ T := by positivity
  have distance : |(R : ℚ) * 2 ^ T - x * 2 ^ T| = |R - x| * 2 ^ T := by
    rw [← sub_mul, abs_mul, abs_of_pos unit]
  rw [distance] at half
  have within : (2 : ℚ) ^ (e - 1) ≤ 2 ^ (T - 1) := by
    rw [← half, zpow_sub_one₀ two_ne_zero, mul_comm]
    have := mul_le_mul_of_nonneg_left rounded.half unit.le
    rwa [one_div] at this
  have finer : e ≤ T := by
    have := (zpow_le_zpow_iff_right₀ (by norm_num : (1 : ℚ) < 2)).1 within
    omega
  rcases finer.lt_or_eq with finer | rfl
  · obtain ⟨k, rfl⟩ : ∃ k : ℕ, T = e + (k + 1 : ℕ) := ⟨(T - e - 1).toNat, by omega⟩
    rw [zpow_add₀ two_ne_zero, zpow_natCast, mul_comm ((2 : ℚ) ^ e), ← mul_assoc] at same
    have steps := mul_right_cancel₀ (by positivity) same
    have steps : R * 2 ^ (k + 1) = n := by exact_mod_cast steps
    rw [← steps, pow_succ]
    exact (even_two.mul_left _).mul_left _
  · have number : (R : ℚ) = n := mul_right_cancel₀ (by positivity) same
    have number : R = n := by exact_mod_cast number
    rw [← number]
    refine rounded.tie (mul_right_cancel₀ unit.ne' (half.trans ?_))
    rw [zpow_sub_one₀ two_ne_zero]
    ring

end HalfEven

/-! ### Steps -/

/-- Rounding to a step gives a nearest double, if the step is the least there is or the number is
large enough that no smaller step reaches it. -/
lemma HalfEven.nearest {R T : ℤ} {x : ℚ} (rounded : HalfEven R x) (bits : |R| ≤ 2 ^ 53)
    (low : -1074 ≤ T) (reached : T = -1074 ∨ 2 ^ 52 ≤ x) :
    NearestEven (R * 2 ^ T) (x * 2 ^ T) := by
  have unit : (0 : ℚ) < 2 ^ T := by positivity
  have distance (N : ℚ) : |N * 2 ^ T - x * 2 ^ T| = |N - x| * 2 ^ T := by
    rw [← sub_mul, abs_mul, abs_of_pos unit]
  refine ⟨⟨⟨R, T, bits, low, rfl⟩, ?_⟩, fun n e => rounded.even⟩
  intro w double
  rw [distance]
  rcases double.step_or_le T with ⟨N, rfl⟩ | ⟨coarse, below⟩
  · rw [distance]
    exact mul_le_mul_of_nonneg_right (rounded.least N) unit.le
  · have large : 2 ^ 52 ≤ x := reached.resolve_left (by omega)
    have first : |(R : ℚ) - x| ≤ x - 2 ^ 52 := by
      have least := rounded.least (2 ^ 52)
      have apart : |((2 ^ 52 : ℤ) : ℚ) - x| = x - 2 ^ 52 := by
        rw [abs_sub_comm, Int.cast_pow, Int.cast_ofNat]
        exact abs_of_nonneg (by linarith)
      exact least.trans_eq apart
    have : x * 2 ^ T - w ≤ |w - x * 2 ^ T| := by
      rw [abs_sub_comm]
      exact le_abs_self _
    calc |(R : ℚ) - x| * 2 ^ T ≤ (x - 2 ^ 52) * 2 ^ T :=
          mul_le_mul_of_nonneg_right first unit.le
      _ ≤ |w - x * 2 ^ T| := by linarith

/-- The same for numbers of both signs. -/
lemma HalfEven.nearest_of_abs {R T : ℤ} {x : ℚ} (rounded : HalfEven R x) (bits : |R| ≤ 2 ^ 53)
    (low : -1074 ≤ T) (reached : T = -1074 ∨ 2 ^ 52 ≤ |x|) :
    NearestEven (R * 2 ^ T) (x * 2 ^ T) := by
  rcases le_total 0 x with positive | negative
  · rw [abs_of_nonneg positive] at reached
    exact rounded.nearest bits low reached
  · rw [abs_of_nonpos negative] at reached
    have := (rounded.neg.nearest (by rwa [abs_neg]) low reached).neg
    simpa using this

/-- A number that fifty-three bits can count in steps of a power of two is rounded to a step. -/
lemma exists_nearest_step {r : ℚ} {e : ℤ} (low : -1074 ≤ e) (within : |r| ≤ 2 ^ 53 * 2 ^ e)
    (reached : e = -1074 ∨ 2 ^ 52 * 2 ^ e ≤ |r|) :
    ∃ v, NearestEven v r ∧ |v - r| ≤ 2 ^ (e - 1) := by
  have unit : (0 : ℚ) < 2 ^ e := by positivity
  obtain ⟨x, rfl⟩ : ∃ x, r = x * 2 ^ e := ⟨r / 2 ^ e, by field_simp⟩
  rw [abs_mul, abs_of_pos unit] at within reached
  have size : |x| ≤ 2 ^ 53 := le_of_mul_le_mul_right within unit
  have reached : e = -1074 ∨ 2 ^ 52 ≤ |x| :=
    reached.imp_right fun reached => le_of_mul_le_mul_right reached unit
  obtain ⟨R, rounded⟩ := exists_halfEven x
  have bits : |R| ≤ 2 ^ 53 := rounded.size_le (by exact_mod_cast size)
  refine ⟨R * 2 ^ e, rounded.nearest_of_abs bits low reached, ?_⟩
  calc |R * (2 : ℚ) ^ e - x * 2 ^ e| = |(R : ℚ) - x| * 2 ^ e := by
        rw [← sub_mul, abs_mul, abs_of_pos unit]
    _ ≤ 1 / 2 * 2 ^ e := mul_le_mul_of_nonneg_right rounded.half unit.le
    _ = 2 ^ (e - 1) := by
        rw [zpow_sub_one₀ two_ne_zero]
        ring

/-- Every number has a nearest double, within half a unit in the last place. -/
lemma exists_nearest (r : ℚ) :
    ∃ v, NearestEven v r ∧ |v - r| ≤ |r| * 2 ^ (-53 : ℤ) + 2 ^ (-1075 : ℤ) := by
  have tiny : (0 : ℚ) < 2 ^ (-1075 : ℤ) := by positivity
  by_cases small : |r| < 2 ^ (-1021 : ℤ)
  case pos =>
    -- The steps of the smallest doubles are fine enough.
    have within : |r| ≤ 2 ^ 53 * 2 ^ (-1074 : ℤ) := by
      refine small.le.trans (le_of_eq ?_)
      rw [← zpow_natCast, ← zpow_add₀ two_ne_zero]
      norm_num
    obtain ⟨v, nearest, near⟩ := exists_nearest_step (le_refl _) within (.inl rfl)
    refine ⟨v, nearest, near.trans ?_⟩
    have : 0 ≤ |r| * (2 : ℚ) ^ (-53 : ℤ) := by positivity
    norm_num only at this ⊢
    linarith
  case neg =>
    have size : 0 < |r| := lt_of_lt_of_le (by positivity) (not_lt.1 small)
    have low := Int.zpow_log_le_self (b := 2) (by norm_num) size
    have high := Int.lt_zpow_succ_log_self (b := 2) (by norm_num) |r|
    push_cast at low high
    have large : -1021 ≤ Int.log 2 |r| := by
      have : (2 : ℚ) ^ (-1021 : ℤ) < 2 ^ (Int.log 2 |r| + 1) := (not_lt.1 small).trans_lt high
      have := (zpow_lt_zpow_iff_right₀ (by norm_num : (1 : ℚ) < 2)).1 this
      omega
    generalize Int.log 2 |r| = k at low high large
    have within : |r| ≤ 2 ^ 53 * 2 ^ (k - 52) := by
      refine high.le.trans (le_of_eq ?_)
      rw [← zpow_natCast, ← zpow_add₀ two_ne_zero]
      congr 1
      omega
    have reached : 2 ^ 52 * 2 ^ (k - 52) ≤ |r| := by
      refine le_trans (le_of_eq ?_) low
      rw [← zpow_natCast, ← zpow_add₀ two_ne_zero]
      congr 1
      omega
    obtain ⟨v, nearest, near⟩ := exists_nearest_step (by omega) within (.inr reached)
    refine ⟨v, nearest, near.trans ?_⟩
    calc (2 : ℚ) ^ (k - 52 - 1) = 2 ^ k * 2 ^ (-53 : ℤ) := by
          rw [← zpow_add₀ two_ne_zero]
          congr 1
          omega
      _ ≤ |r| * 2 ^ (-53 : ℤ) := by gcongr
      _ ≤ |r| * 2 ^ (-53 : ℤ) + 2 ^ (-1075 : ℤ) := by linarith

namespace Nearest

variable {v r w : ℚ}

/-- Rounding errs by at most half a unit in the last place. -/
lemma abs_sub_le (nearest : Nearest v r) :
    |v - r| ≤ |r| * 2 ^ (-53 : ℤ) + 2 ^ (-1075 : ℤ) := by
  obtain ⟨w, other, near⟩ := exists_nearest r
  exact (nearest.least w other.isDouble).trans near

/-- Up to a power of two, rounding errs by at most half of the steps that lead to it. -/
lemma abs_sub_le_of_le (nearest : Nearest v r) {k : ℤ} (low : -1021 ≤ k)
    (within : |r| ≤ 2 ^ k) : |v - r| ≤ 2 ^ (k - 54) := by
  have unit : (0 : ℚ) < 2 ^ (k - 53) := by positivity
  obtain ⟨x, rfl⟩ : ∃ x, r = x * 2 ^ (k - 53) := ⟨r / 2 ^ (k - 53), by field_simp⟩
  have size : |x| ≤ (2 ^ 53 : ℤ) := by
    rw [abs_mul, abs_of_pos unit] at within
    refine le_of_mul_le_mul_right (within.trans_eq ?_) unit
    rw [Int.cast_pow, Int.cast_ofNat, ← zpow_natCast, ← zpow_add₀ two_ne_zero]
    congr 1
    omega
  obtain ⟨R, rounded⟩ := exists_halfEven x
  have step : IsDouble (R * 2 ^ (k - 53)) := ⟨R, k - 53, rounded.size_le size, by omega, rfl⟩
  calc |v - x * 2 ^ (k - 53)| ≤ |R * 2 ^ (k - 53) - x * 2 ^ (k - 53)| := nearest.least _ step
    _ = |(R : ℚ) - x| * 2 ^ (k - 53) := by
        rw [← sub_mul, abs_mul, abs_of_pos unit]
    _ ≤ 1 / 2 * 2 ^ (k - 53) := mul_le_mul_of_nonneg_right rounded.half unit.le
    _ = 2 ^ (k - 54) := by
        rw [show k - 54 = k - 53 - 1 by omega, zpow_sub_one₀ two_ne_zero]
        ring

/-- A rounded number is as near to it as a double can be. -/
lemma abs_le_add (nearest : Nearest v r) (double : IsDouble w) : |v| ≤ |r| + |w - r| := by
  have := nearest.least w double
  have : |v| ≤ |v - r| + |r| := by simpa using abs_add_le (v - r) r
  linarith

end Nearest

/-- What is not above half of the smallest double is rounded to zero. -/
lemma nearest_zero {r : ℚ} (tiny : |r| ≤ 2 ^ (-1075 : ℤ)) : NearestEven 0 r := by
  have unit : (0 : ℚ) < 2 ^ (-1074 : ℤ) := by positivity
  obtain ⟨x, rfl⟩ : ∃ x, r = x * 2 ^ (-1074 : ℤ) := ⟨r / 2 ^ (-1074 : ℤ), by field_simp⟩
  have rounded : HalfEven 0 x := by
    refine ⟨?_, fun _ => Even.zero⟩
    rw [Int.cast_zero, zero_sub, abs_neg]
    rw [abs_mul, abs_of_pos unit, show (-1075 : ℤ) = -1 + -1074 by norm_num,
      zpow_add₀ two_ne_zero] at tiny
    simpa using le_of_mul_le_mul_right tiny unit
  simpa using rounded.nearest_of_abs (by norm_num) (le_refl _) (.inl rfl)

/-! ### What is rounded to a double -/

/-- There is no double less than a step above one that has its bits. -/
lemma IsDouble.add_step_le {w : ℚ} (double : IsDouble w) {m e : ℤ} (full : e = -1074 ∨ 2 ^ 52 ≤ m)
    (above : m * 2 ^ e < w) : (m + 1) * 2 ^ e ≤ w := by
  have unit : (0 : ℚ) < 2 ^ e := by positivity
  rcases double.step_or_le e with ⟨N, rfl⟩ | ⟨coarse, below⟩
  · have next : (m : ℚ) < N := lt_of_mul_lt_mul_right above unit.le
    have next : m + 1 ≤ N := by exact_mod_cast next
    gcongr
    exact_mod_cast next
  · have large : (2 ^ 52 : ℚ) ≤ m := by exact_mod_cast full.resolve_left (by omega)
    have := mul_le_mul_of_nonneg_right large unit.le
    linarith

/-- There is none less than a step below one that has its bits and is not the first to have them. -/
lemma IsDouble.le_sub_step {w : ℚ} (double : IsDouble w) {m e : ℤ} (full : e = -1074 ∨ 2 ^ 52 < m)
    (below : w < m * 2 ^ e) : w ≤ (m - 1) * 2 ^ e := by
  have unit : (0 : ℚ) < 2 ^ e := by positivity
  rcases double.step_or_le e with ⟨N, rfl⟩ | ⟨coarse, low⟩
  · have next : (N : ℚ) < m := lt_of_mul_lt_mul_right below unit.le
    have next : N ≤ m - 1 := Int.le_sub_one_of_lt (by exact_mod_cast next)
    gcongr
    exact_mod_cast next
  · have large : (2 ^ 52 + 1 : ℚ) ≤ m := by exact_mod_cast full.resolve_left (by omega)
    have : (2 ^ 52 : ℚ) * 2 ^ e ≤ (m - 1) * 2 ^ e :=
      mul_le_mul_of_nonneg_right (by linarith) unit.le
    linarith

namespace NearestEven

variable {v r : ℚ} {m e : ℤ}

/-- Up to half a step above a double, and at half a step if it is even, nothing above it is
nearest. -/
lemma le_of_le_half (nearest : NearestEven v r) (double : IsDouble (m * 2 ^ e))
    (full : e = -1074 ∨ 2 ^ 52 ≤ m) (half : r ≤ (m + 1 / 2) * 2 ^ e)
    (tie : r = (m + 1 / 2) * 2 ^ e → Even m) : v ≤ m * 2 ^ e := by
  by_contra above
  have next := nearest.isDouble.add_step_le full (not_le.1 above)
  have least := nearest.least _ double
  have unit : (0 : ℚ) < 2 ^ e := by positivity
  have away : |v - r| = v - r := abs_of_nonneg (by linarith)
  rw [away] at least
  -- Only at half a step is the double above as near as the one below.
  have near : v - r ≤ r - m * 2 ^ e := by
    rcases abs_choice (m * 2 ^ e - r) with same | same <;> rw [same] at least <;> linarith
  have number : v = (m + 1 : ℤ) * 2 ^ e := by
    push_cast
    linarith
  have middle : r = (m + 1 / 2) * 2 ^ e := by linarith
  have even : Even (m + 1) := by
    refine nearest.even _ e number ?_
    rw [away, number, middle, zpow_sub_one₀ two_ne_zero]
    push_cast
    ring
  exact Int.even_add_one.1 even (tie middle)

/-- Down to half a step below a double, and at half a step if it is even, nothing below it is
nearest. -/
lemma ge_of_half_le (nearest : NearestEven v r) (double : IsDouble (m * 2 ^ e))
    (full : e = -1074 ∨ 2 ^ 52 < m) (half : (m - 1 / 2) * 2 ^ e ≤ r)
    (tie : r = (m - 1 / 2) * 2 ^ e → Even m) : m * 2 ^ e ≤ v := by
  by_contra below
  have next := nearest.isDouble.le_sub_step full (not_le.1 below)
  have least := nearest.least _ double
  have unit : (0 : ℚ) < 2 ^ e := by positivity
  have away : |v - r| = r - v := by
    rw [abs_sub_comm]
    exact abs_of_nonneg (by linarith)
  rw [away] at least
  have near : r - v ≤ m * 2 ^ e - r := by
    rcases abs_choice (m * 2 ^ e - r) with same | same <;> rw [same] at least <;> linarith
  have number : v = (m - 1 : ℤ) * 2 ^ e := by
    push_cast
    linarith
  have middle : r = (m - 1 / 2) * 2 ^ e := by linarith
  have even : Even (m - 1) := by
    refine nearest.even _ e number ?_
    rw [away, number, middle, zpow_sub_one₀ two_ne_zero]
    push_cast
    ring
  exact Int.even_sub_one.1 even (tie middle)

end NearestEven

end Toolpath.Double
