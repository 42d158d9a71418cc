import Toolpath.Proofs.Double.Arithmetic
import Toolpath.Decimal.Binary
import Toolpath.Scalar

/-!
# Bits of doubles, and whole numbers

`Binary.ofFloat?` takes a double apart by its bits. It gives what the double is worth
(`worth?_unpack`), so that two doubles of the same worth, other than zero, are the same, and so that
the nearest whole number of a double is that of its worth.
-/

namespace Toolpath.Double

open Float.Model (Format UnpackedFloat)
open Float.Model.UnpackedFloat

/-! ### Fields -/

lemma toNat_unpackMantissa (b : BitVec 64) :
    (@unpackMantissa Format.binary64 b).toNat = b.toNat % 2 ^ 52 := by
  change (b.toNat >>> 0) % 2 ^ 52 = _
  rw [Nat.shiftRight_zero]

lemma toNat_unpackExponent (b : BitVec 64) :
    (@unpackExponent Format.binary64 b).toNat = b.toNat / 2 ^ 52 % 2 ^ 11 := by
  change (b.toNat >>> 52) % 2 ^ 11 = _
  rw [Nat.shiftRight_eq_div_pow]

lemma toNat_unpackSign (b : BitVec 64) :
    (@unpackSign Format.binary64 b).toNat = b.toNat / 2 ^ 63 := by
  change (b.toNat >>> 63) % 2 ^ 1 = _
  rw [Nat.shiftRight_eq_div_pow]
  omega

/-- The sign that a double has by its bits. -/
def bitSign (n : ℕ) : Sign :=
  if 2048 ≤ n / 2 ^ 52 then .negative else .positive

lemma ofBitVec_unpackSign (b : BitVec 64) :
    Sign.ofBitVec (@unpackSign Format.binary64 b) = bitSign b.toNat := by
  have sign := toNat_unpackSign b
  have range := b.isLt
  unfold Sign.ofBitVec bitSign
  split
  case isTrue zero =>
    rw [zero] at sign
    have : b.toNat / 2 ^ 63 = 0 := sign.symm
    rw [if_neg (by omega)]
  case isFalse one =>
    have : b.toNat / 2 ^ 63 ≠ 0 := by
      rw [← sign]
      exact fun zero => one (BitVec.eq_of_toNat_eq zero)
    rw [if_pos (by omega)]

/-! ### What the bits are worth -/

/-- The sign of a binary number. -/
def binarySign (b : Binary) : Sign :=
  if b.negative then .negative else .positive

/-- The number that a binary number stands for. -/
def binaryWorth (b : Binary) : ℚ :=
  signed (binarySign b) (b.significand * 2 ^ b.exponent)

/-- The parts of a double are worth what the double is worth. -/
lemma worth?_unpack (x : Float) :
    worth? x.toModel.unpack = (Binary.ofFloat? x).map binaryWorth := by
  have exponent := toNat_unpackExponent x.toModel.toBits.toBitVec
  have mantissa := toNat_unpackMantissa x.toModel.toBits.toBitVec
  have fields := unpack_eq_ofFields x.toModel.toBits.toBitVec
  rw [ofBitVec_unpackSign] at fields
  change worth? (unpack Format.binary64 x.toModel.toBits.toBitVec) = _
  rw [fields]
  have bits : x.toBits.toNat = x.toModel.toBits.toBitVec.toNat := rfl
  have full : Binary.leastFull = 2 ^ 52 := rfl
  simp only [Binary.ofFloat?, bits, full]
  generalize x.toModel.toBits.toBitVec.toNat = n at exponent mantissa ⊢
  generalize @unpackExponent Format.binary64 _ = ex at exponent ⊢
  generalize @unpackMantissa Format.binary64 _ = man at mantissa ⊢
  have sign : (if decide (2048 ≤ n / 2 ^ 52) = true then Sign.negative else .positive) =
      bitSign n := by
    simp [bitSign]
  unfold ofFields
  by_cases last : n / 2 ^ 52 % 2048 = 2047
  · have : ex = -1#11 := BitVec.eq_of_toNat_eq (exponent.trans last)
    rw [if_pos this, if_pos last]
    split <;> rfl
  · have notLast : ex ≠ -1#11 := fun equal => last (exponent.symm.trans (congrArg _ equal))
    rw [if_neg notLast, if_neg last]
    by_cases first : n / 2 ^ 52 % 2048 = 0
    · have zero : ex = 0#11 := BitVec.eq_of_toNat_eq (exponent.trans first)
      rw [if_pos zero, if_pos first]
      split
      case isTrue none =>
        have : n % 2 ^ 52 = 0 := mantissa.symm.trans (congrArg _ none)
        simp only [worth?, Option.map_some, binaryWorth, binarySign, this, sign, Nat.cast_zero,
          zero_mul]
        cases bitSign n <;> simp [signed]
      case isFalse some =>
        simp only [worth?, Option.map_some, binaryWorth, binarySign, sign, mantissa, zero]
        rfl
    · have notFirst : ex ≠ 0#11 := fun equal => first (exponent.symm.trans (congrArg _ equal))
      rw [if_neg notFirst, if_neg first]
      simp only [worth?, Option.map_some, binaryWorth, binarySign, sign, toNat_one_append, mantissa,
        exponent, Binary.leastExponent]
      congr 4
      omega

/-! ### Whole numbers -/

/-- The nearest whole number, a half going away from zero. -/
def roundAway (v : ℚ) : ℤ :=
  if v < 0 then -⌊-v + 1 / 2⌋ else ⌊v + 1 / 2⌋

/-- The size of the nearest whole number is that of the size. -/
lemma nearestSize_eq (b : Binary) :
    (b.nearestSize : ℤ) = ⌊(b.significand * 2 ^ b.exponent : ℚ) + 1 / 2⌋ := by
  have unit : (0 : ℚ) < 2 ^ (-b.exponent).toNat := by positivity
  have amount : (b.significand * 2 ^ b.exponent : ℚ) =
      (b.significand * 2 ^ b.exponent.toNat : ℕ) / (2 ^ (-b.exponent).toNat : ℕ) := by
    rw [eq_div_iff (by positivity)]
    push_cast
    rw [mul_assoc, ← zpow_natCast, ← zpow_natCast, ← zpow_add₀ two_ne_zero]
    congr 2
    omega
  have half : (b.significand * 2 ^ b.exponent : ℚ) + 1 / 2 =
      (2 * (b.significand * 2 ^ b.exponent.toNat) + 2 ^ (-b.exponent).toNat : ℕ) /
        (2 * 2 ^ (-b.exponent).toNat : ℕ) := by
    rw [amount]
    push_cast
    field_simp
  rw [half, Rat.floor_natCast_div_natCast]
  rfl

lemma nearest_eq (b : Binary) : b.nearest = roundAway (binaryWorth b) := by
  have size := nearestSize_eq b
  have positive : (0 : ℚ) ≤ b.significand * 2 ^ b.exponent := by positivity
  unfold Binary.nearest binaryWorth binarySign roundAway
  rw [size]
  generalize (b.significand * 2 ^ b.exponent : ℚ) = v at positive
  cases b.negative with
  | false =>
    simp only [Bool.false_eq_true, if_false, signed]
    rw [if_neg (not_lt.2 positive)]
  | true =>
    simp only [if_true, signed]
    rcases positive.eq_or_lt with rfl | positive
    · norm_num
    · rw [if_pos (neg_lt_zero.2 positive), neg_neg]

/-- The nearest whole number of a double is that of its worth. -/
theorem nearest?_of_worth {x : Float} {v : ℚ} (hx : Worth x v) :
    Scalar.nearest? x = some (roundAway v) := by
  have parts := (worth?_unpack x).symm.trans hx
  obtain ⟨b, found, rfl⟩ := Option.map_eq_some_iff.1 parts
  show (Binary.ofFloat? x).map Binary.nearest = _
  rw [found, Option.map_some, nearest_eq]

/-- Nothing is rounded past a whole number. -/
lemma roundAway_le {v : ℚ} {n : ℤ} (below : v < n + 1 / 2) : roundAway v ≤ n := by
  unfold roundAway
  split
  case isTrue negative =>
    rw [neg_le, Int.le_floor]
    push_cast
    linarith
  case isFalse positive =>
    rw [← Int.lt_add_one_iff, Int.floor_lt]
    push_cast
    linarith

lemma roundAway_neg (v : ℚ) : roundAway (-v) = -roundAway v := by
  unfold roundAway
  rcases lt_trichotomy v 0 with negative | rfl | positive
  · rw [if_neg (by linarith), if_pos negative, neg_neg]
  · norm_num
  · rw [if_pos (by linarith), if_neg (by linarith), neg_neg]

/-- Nor below one. -/
lemma le_roundAway {v : ℚ} {n : ℤ} (above : n - 1 / 2 < v) : n ≤ roundAway v := by
  have := roundAway_le (v := -v) (n := -n) (by push_cast; linarith)
  rw [roundAway_neg] at this
  omega

/-! ### Doubles of the same worth -/

/-- A finite double has the fields that its sign, mantissa and exponent tell. -/
lemma fields_of_finite {sign s : Sign} {ex : BitVec 11} {man : BitVec 52} {m : ℕ} {e : ℤ}
    {positive : 0 < m} (fields : ofFields sign ex man = .finite s m e positive) :
    sign = s ∧ (m < 2 ^ 52 ∧ ex.toNat = 0 ∧ man.toNat = m ∨
      m = 2 ^ 52 + man.toNat ∧ e = ex.toNat - 1075) := by
  unfold ofFields at fields
  split at fields
  case isTrue => split at fields <;> cases fields
  case isFalse =>
    split at fields
    case isTrue first =>
      split at fields
      case isTrue => cases fields
      case isFalse =>
        have range := man.isLt
        simp only [finite.injEq] at fields
        obtain ⟨rfl, rfl, _⟩ := fields
        exact ⟨rfl, .inl ⟨range, congrArg BitVec.toNat first, rfl⟩⟩
    case isFalse =>
      rw [finite.injEq, toNat_one_append] at fields
      obtain ⟨rfl, rfl, rfl⟩ := fields
      exact ⟨rfl, .inr ⟨rfl, rfl⟩⟩

lemma bitSign_eq_iff {n n' : ℕ} (same : bitSign n = bitSign n') :
    2048 ≤ n / 2 ^ 52 ↔ 2048 ≤ n' / 2 ^ 52 := by
  unfold bitSign at same
  split at same <;> split at same
  case isTrue.isTrue here there => exact iff_of_true here there
  case isTrue.isFalse => cases same
  case isFalse.isTrue => cases same
  case isFalse.isFalse here there => exact iff_of_false here there

lemma eq_of_toNat_toBits {x y : Float} (same : x.toBits.toNat = y.toBits.toNat) : x = y := by
  obtain ⟨⟨⟨bitsX⟩, validX⟩⟩ := x
  obtain ⟨⟨⟨bitsY⟩, validY⟩⟩ := y
  cases BitVec.eq_of_toNat_eq same
  rfl

/-- A finite double is known by its sign, mantissa and exponent. -/
lemma eq_of_unpack_eq {x y : Float} {s : Sign} {m : ℕ} {e : ℤ} {positive : 0 < m}
    (hx : x.toModel.unpack = .finite s m e positive)
    (hy : y.toModel.unpack = .finite s m e positive) : x = y := by
  have fieldsX := fields_of_finite ((unpack_eq_ofFields x.toModel.toBits.toBitVec).symm.trans hx)
  have fieldsY := fields_of_finite ((unpack_eq_ofFields y.toModel.toBits.toBitVec).symm.trans hy)
  rw [ofBitVec_unpackSign, toNat_unpackExponent, toNat_unpackMantissa] at fieldsX fieldsY
  have sign := bitSign_eq_iff (fieldsX.1.trans fieldsY.1.symm)
  have rangeX := x.toModel.toBits.toBitVec.isLt
  have rangeY := y.toModel.toBits.toBitVec.isLt
  have bits : x.toModel.toBits.toBitVec.toNat = y.toModel.toBits.toBitVec.toNat := by omega
  exact eq_of_toNat_toBits bits

/-- Doubles of the same worth are the same, unless they are zeros. -/
theorem Worth.eq_of_ne_zero {x y : Float} {v : ℚ} (hx : Worth x v) (hy : Worth y v)
    (nonzero : v ≠ 0) : x = y := by
  have order := compare_eq (canonical x).1 (canonical y).1 hx hy
  rw [compare_eq_iff_eq.2 rfl] at order
  obtain ⟨_, _, zero⟩ | ⟨s, m, e, positive, unpackX, _⟩ := zero_or_finite hx
  · exact absurd zero nonzero
  · obtain ⟨_, _, zero⟩ | ⟨s', m', e', positive', unpackY, _⟩ := zero_or_finite hy
    · exact absurd zero nonzero
    · rw [unpackX, unpackY] at order
      have same : s = s' ∧ (compare e e').then (compare m m') = .eq := by
        match s, s', order with
        | .negative, .negative, order =>
          exact ⟨rfl, by simpa [UnpackedFloat.compare] using order⟩
        | .negative, .positive, order => cases order
        | .positive, .negative, order => cases order
        | .positive, .positive, order => exact ⟨rfl, Option.some.inj order⟩
      obtain ⟨rfl, both⟩ := same
      obtain ⟨exponents, mantissas⟩ := Ordering.then_eq_eq.1 both
      obtain rfl := compare_eq_iff_eq.1 exponents
      obtain rfl := compare_eq_iff_eq.1 mantissas
      exact eq_of_unpack_eq unpackX unpackY

end Toolpath.Double
