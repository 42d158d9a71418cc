import Toolpath.Proofs.Double.Whole

/-!
# Reading numerals as doubles

A decimal numeral is read as a nearest double of what it stands for (`rounds_toFloat`). Short
numerals are a quotient or a product of two exact doubles, others take the general way; both end in
a rounding. Numerals far outside of what doubles can tell are settled by the place of their first
digit.
-/

namespace Toolpath

/-- The number that a numeral stands for. -/
def Decimal.toRat (d : Decimal) : ℚ :=
  (if d.negative then -1 else 1) * (d.digits * 10 ^ d.exponent)

namespace Double

open Float.Model (Format UnpackedFloat)
open Float.Model.UnpackedFloat

/-! ### Whole numbers and powers of ten -/

lemma worth_natCast {n : ℕ} (small : n < 2 ^ 53) : Worth n.toUInt64.toFloat n := by
  have same : n.toUInt64.toNat = n := by
    rw [Nat.toUInt64_eq, UInt64.toNat_ofNat']
    omega
  have rounded := rounded_normalize (n.toUInt64.toNat : ℤ) 0 .positive
  rw [same, zpow_zero, mul_one, Int.cast_natCast] at rounded
  have double : IsDouble n := by
    have := isDouble_intCast (n := n) (by rw [Nat.abs_cast]; exact_mod_cast small.le)
    exact_mod_cast this
  have rounds : Rounds n.toUInt64.toFloat n := rounds_of_rounded (by
    show Float.Model.pack (UnpackedFloat.normalize Format.binary64 n.toUInt64.toNat 0 .positive) = _
    rw [same]) rounded
  refine rounds.worth_of_isDouble double ?_
  rw [Nat.abs_cast]
  calc (n : ℚ) < 2 ^ (53 : ℤ) := by exact_mod_cast small
    _ < beyond := zpow_lt_zpow_right₀ (by norm_num) (by norm_num)

/-- The powers of ten that are kept ready are exact. -/
lemma worth_powerOfTen : ∀ (e : ℕ) (_ready : e < Float.exactlyRepresentablePowersOfTen.size),
    Worth Float.exactlyRepresentablePowersOfTen[e] (10 ^ e) := by
  decide +kernel

/-! ### Numerals of any length -/

/-- What is rounded beyond the last double may be anything but not-a-number. -/
lemma rounds_of_le {r : ℚ} {x : Float} (number : x.isNaN = false) (large : beyond ≤ |r|) :
    Rounds x r := by
  obtain ⟨v, nearest, _⟩ := exists_nearest r
  have double : IsDouble beyond := ⟨1, 1024, by norm_num, by norm_num, by simp [beyond]⟩
  refine ⟨number, v, nearest, fun small => absurd small (not_lt.2 ?_)⟩
  rcases le_total 0 r with positive | negative
  · rw [abs_of_nonneg positive] at large
    exact (nearest.ge_of_ge double large).trans (le_abs_self v)
  · rw [abs_of_nonpos negative] at large
    have := nearest.le_of_le double.neg (by linarith)
    exact (le_neg.1 this).trans (neg_le_abs v)

lemma rounds_zero {r : ℚ} {x : Float} (zero : Worth x 0) (tiny : |r| ≤ 2 ^ (-1075 : ℤ)) :
    Rounds x r :=
  ⟨zero.isNaN, 0, nearest_zero tiny, fun _ => zero⟩

lemma beyond_le_numeral {m : ℕ} {e : ℤ} (some : m ≠ 0) (large : 1024 ≤ e) :
    beyond ≤ |(m : ℚ) * 10 ^ e| := by
  have one : (1 : ℚ) ≤ m := by exact_mod_cast Nat.one_le_iff_ne_zero.2 some
  rw [abs_of_nonneg (by positivity)]
  calc beyond ≤ 2 ^ e := zpow_le_zpow_right₀ (by norm_num) large
    _ ≤ 10 ^ e := zpow_le_zpow_left₀ (by omega) (by norm_num) (by norm_num)
    _ ≤ m * 10 ^ e := le_mul_of_one_le_left (by positivity) one

lemma numeral_le_tiny {m : ℕ} {e : ℤ} (small : e + m.log2 ≤ -1076) :
    |(m : ℚ) * 10 ^ e| ≤ 2 ^ (-1075 : ℤ) := by
  have few : (m : ℚ) ≤ 2 ^ ((m.log2 : ℤ) + 1) := by
    exact_mod_cast (Nat.lt_log2_self (n := m)).le
  have tens : (10 : ℚ) ^ e ≤ 2 ^ e := by
    obtain ⟨k, rfl⟩ : ∃ k : ℕ, e = -k := ⟨(-e).toNat, by omega⟩
    rw [zpow_neg, zpow_neg]
    exact inv_anti₀ (by positivity)
      (zpow_le_zpow_left₀ (by positivity) (by norm_num) (by norm_num))
  rw [abs_of_nonneg (by positivity)]
  calc (m : ℚ) * 10 ^ e ≤ 2 ^ ((m.log2 : ℤ) + 1) * 2 ^ e := by gcongr
    _ = 2 ^ ((m.log2 : ℤ) + 1 + e) := (zpow_add₀ two_ne_zero _ _).symm
    _ ≤ 2 ^ (-1075 : ℤ) := zpow_le_zpow_right₀ (by norm_num) (by omega)

/-- A whole numeral is a product of mantissas. -/
lemma rounded_numeral_mul {m : ℕ} {e : ℤ} (some : m ≠ 0) (whole : 0 ≤ e)
    (left : 0 < m <<< 53) (right : 0 < 10 ^ e.toNat) :
    Rounded (UnpackedFloat.mul Format.binary64 (.finite .positive (m <<< 53) (-53) left)
      (.finite .positive (10 ^ e.toNat) 0 right)) (m * 10 ^ e) := by
  have bits : 53 ≤ (m <<< 53 * 10 ^ e.toNat).log2 := by
    rw [Nat.le_log2 (Nat.mul_pos left right).ne', Nat.shiftLeft_eq]
    calc 2 ^ 53 ≤ m * 2 ^ 53 := Nat.le_mul_of_pos_left (2 ^ 53) (Nat.pos_of_ne_zero some)
      _ ≤ m * 2 ^ 53 * 10 ^ e.toNat := Nat.le_mul_of_pos_right (m * 2 ^ 53) right
  have fine : (-53 + 0 : ℤ) ≤ target (m <<< 53 * 10 ^ e.toNat) (-53 + 0) := by
    unfold target
    omega
  have rounded := rounded_mul_finite .positive .positive fine
  have amount : signed .positive ((m <<< 53 : ℕ) * 2 ^ (-53 : ℤ)) *
      signed .positive ((10 ^ e.toNat : ℕ) * 2 ^ (0 : ℤ)) = (m * 10 ^ e : ℚ) := by
    have ten : (10 : ℚ) ^ e.toNat = 10 ^ e := by
      rw [← zpow_natCast, Int.toNat_of_nonneg whole]
    simp only [signed, Nat.shiftLeft_eq]
    push_cast
    have one : (9007199254740992 : ℚ) * 2 ^ (-53 : ℤ) = 1 := by norm_num
    rw [ten, mul_one, mul_assoc (m : ℚ), one, mul_one]
  rw [amount] at rounded
  exact rounded

lemma rounded_numeral_div {m : ℕ} {e : ℤ} (broken : e < 0) (left : 0 < m)
    (right : 0 < 10 ^ (-e).toNat) :
    Rounded (UnpackedFloat.div Format.binary64 (.finite .positive m 0 left)
      (.finite .positive (10 ^ (-e).toNat) 0 right)) (m * 10 ^ e) := by
  have rounded := rounded_div_finite .positive .positive 0 0 left right
  have amount : signed .positive (m * 2 ^ (0 : ℤ)) /
      signed .positive ((10 ^ (-e).toNat : ℕ) * 2 ^ (0 : ℤ)) = (m * 10 ^ e : ℚ) := by
    have ten : (10 : ℚ) ^ (-e).toNat = 10 ^ (-e) := by
      rw [← zpow_natCast, Int.toNat_of_nonneg (by omega)]
    simp only [signed, zpow_zero, mul_one]
    push_cast
    rw [ten, zpow_neg, div_inv_eq_mul]
  rw [amount] at rounded
  exact rounded

/-- The general way of reading a numeral rounds it, whatever its length. -/
lemma rounds_ofScientific_model (m : ℕ) (e : ℤ) :
    Rounds (Float.ofModel (Float.Model.ofScientific m e)) (m * 10 ^ e) := by
  have packed : (Float.ofModel (Float.Model.ofScientific m e)).toModel =
      Float.Model.pack (UnpackedFloat.ofScientific Format.binary64 m e) := rfl
  unfold UnpackedFloat.ofScientific at packed
  split at packed
  case isTrue none =>
    refine rounds_of_rounded packed ?_
    rw [none, Nat.cast_zero, zero_mul]
    exact rounded_zero _
  case isFalse some =>
    have exponents : (2 : ℤ) ^ Format.binary64.exponentBits = 2048 := rfl
    split at packed
    case isTrue large =>
      refine rounds_of_le ?_ (beyond_le_numeral some (by omega))
      show (Float.Model.unpack _).isNaN = false
      rw [packed]
      rfl
    case isFalse =>
      split at packed
      case isTrue small =>
        exact rounds_of_rounded packed
          ⟨trivial, 0, rfl, nearest_zero (numeral_le_tiny (by omega))⟩
      case isFalse =>
        split at packed
        case isTrue whole => exact rounds_of_rounded packed (rounded_numeral_mul some whole _ _)
        case isFalse broken =>
          exact rounds_of_rounded packed (rounded_numeral_div (by omega) _ _)

/-- Both ways of reading a numeral round it. -/
lemma rounds_ofScientific (m : ℕ) (below : Bool) (e : ℕ) :
    Rounds (Float.ofScientific m below e) (m * 10 ^ (if below then -e else e : ℤ)) := by
  unfold Float.ofScientific
  split
  case isTrue short =>
    have number := worth_natCast short.1
    have ready : e < Float.exactlyRepresentablePowersOfTen.size :=
      Nat.lt_succ_of_le short.2
    have power := worth_powerOfTen e ready
    cases below with
    | true =>
      simp only [if_true, zpow_neg, zpow_natCast, ← div_eq_mul_inv]
      exact rounds_div number power (by positivity)
    | false =>
      simp only [Bool.false_eq_true, if_false, zpow_natCast]
      exact rounds_mul number power
  case isFalse long =>
    cases below with
    | true =>
      have := rounds_ofScientific_model m (Int.negOfNat e)
      rwa [Int.negOfNat_eq] at this
    | false => exact rounds_ofScientific_model m e

/-! ### The place of the first digit -/

/-- A number with some digits lies between the powers of ten with as many. -/
lemma pow_le_of_length_toDigits {n k : ℕ} (some : n ≠ 0)
    (length : (Nat.toDigits 10 n).length = k + 1) : 10 ^ k ≤ n ∧ n < 10 ^ (k + 1) := by
  refine ⟨?_, (Nat.length_toDigits_le_iff (by norm_num) (Nat.succ_pos k)).1 length.le⟩
  rcases Nat.eq_zero_or_pos k with rfl | positive
  · exact Nat.pos_of_ne_zero some
  · by_contra less
    have short := (Nat.length_toDigits_le_iff (b := 10) (by norm_num) positive).2 (not_le.1 less)
    omega

/-- A numeral lies between the powers of ten that its first digit tells. -/
lemma zpow_leading_le {d : Decimal} (some : d.digits ≠ 0) :
    (10 : ℚ) ^ d.leading ≤ d.digits * 10 ^ d.exponent ∧
      (d.digits * 10 ^ d.exponent : ℚ) < 10 ^ (d.leading + 1) := by
  obtain ⟨k, length⟩ : ∃ k, d.digitChars.length = k + 1 :=
    Nat.exists_eq_add_one_of_ne_zero (List.length_pos_iff.2 Nat.toDigits_ne_nil).ne'
  obtain ⟨above, below⟩ := pow_le_of_length_toDigits some length
  have unit : (0 : ℚ) < 10 ^ d.exponent := by positivity
  constructor
  · calc (10 : ℚ) ^ d.leading = 10 ^ k * 10 ^ d.exponent := by
          rw [← zpow_natCast, ← zpow_add₀ (by norm_num), Decimal.leading, length]
          congr 1
          push_cast
          ring
      _ ≤ d.digits * 10 ^ d.exponent := by
          gcongr
          exact_mod_cast above
  · calc (d.digits * 10 ^ d.exponent : ℚ) < 10 ^ (k + 1) * 10 ^ d.exponent := by
          gcongr
          exact_mod_cast below
      _ = 10 ^ (d.leading + 1) := by
          rw [← zpow_natCast, ← zpow_add₀ (by norm_num), Decimal.leading, length]
          congr 1
          push_cast
          ring

/-- The size that a numeral is read as. -/
lemma rounds_size (d : Decimal) :
    Rounds (if d.digits = 0 ∨ d.leading < -330 then 0.0
      else if 310 < d.leading then 1.0 / 0.0
      else Float.ofScientific d.digits (d.exponent < 0) d.exponent.natAbs)
      (d.digits * 10 ^ d.exponent) := by
  have zero : Worth 0.0 0 := by decide +kernel
  split
  case isTrue none =>
    refine rounds_zero zero ?_
    by_cases some : d.digits = 0
    · rw [some, Nat.cast_zero, zero_mul, abs_zero]
      positivity
    · have small : d.leading + 1 ≤ -330 := by
        have := none.resolve_left some
        omega
      rw [abs_of_nonneg (by positivity)]
      refine (zpow_leading_le some).2.le.trans ?_
      calc (10 : ℚ) ^ (d.leading + 1) ≤ 10 ^ (-330 : ℤ) :=
            zpow_le_zpow_right₀ (by norm_num) small
        _ ≤ 2 ^ (-1075 : ℤ) := by
            rw [zpow_neg, zpow_neg]
            refine inv_anti₀ (by positivity) ?_
            exact_mod_cast (by decide +kernel : 2 ^ 1075 ≤ 10 ^ 330)
  case isFalse some =>
    split
    case isTrue large =>
      refine rounds_of_le (by decide +kernel) ?_
      rw [abs_of_nonneg (by positivity)]
      refine le_trans ?_ (zpow_leading_le (fun none => some (.inl none))).1
      calc beyond ≤ 10 ^ (311 : ℤ) := by
            unfold beyond
            exact_mod_cast (by decide +kernel : 2 ^ 1024 ≤ 10 ^ 311)
        _ ≤ 10 ^ d.leading := zpow_le_zpow_right₀ (by norm_num) (by omega)
    case isFalse =>
      have rounds := rounds_ofScientific d.digits (d.exponent < 0) d.exponent.natAbs
      have same : (if decide (d.exponent < 0) = true then -(d.exponent.natAbs : ℤ)
          else d.exponent.natAbs) = d.exponent := by
        split <;> rename_i sign <;> simp at sign <;> omega
      rwa [same] at rounds

/-- A numeral is rounded to a nearest double. -/
theorem rounds_toFloat (d : Decimal) : Rounds d.toFloat d.toRat := by
  have size := rounds_size d
  unfold Decimal.toFloat Decimal.toRat
  cases d.negative with
  | false => simpa using size
  | true =>
    obtain ⟨number, v, nearest, worth⟩ := size
    refine ⟨(isNaN_neg _).trans number, -v, by simpa using nearest.neg,
      fun small => worth_neg (worth ?_)⟩
    rwa [abs_neg] at small

end Double

end Toolpath
