import Toolpath.Proofs.Double.Extremes
import Toolpath.Proofs.Double.Numeral
import Toolpath.Proofs.Pattern.Targets

/-!
# How coordinates are rounded

A double is rounded to the whole number nearest to what it is worth, a half going away from zero
(`NearestAway`), if sixty-four bits hold that number. The number is known exactly, and again it is
worth a double: so it makes no difference whether the limits are compared with it as a whole number
or as a double, and turning it into sixty-four bits loses nothing (`round?_nearest`). The limits are
not symmetric, as the least number of sixty-four bits has no negative.
-/

namespace Toolpath

open Double

namespace Double

open Float.Model (Format UnpackedFloat)
open Float.Model.UnpackedFloat

/-! ### The nearest whole number -/

/-- A whole number to which no other is nearer, and of two the one further from zero. -/
structure NearestAway (n : ℤ) (v : ℚ) : Prop where
  least : ∀ m : ℤ, |(n : ℚ) - v| ≤ |m - v|
  away : ∀ m : ℤ, |(m : ℚ) - v| = |n - v| → |m| ≤ |n|

variable {v w : ℚ} {n m : ℤ}

namespace NearestAway

lemma neg (nearest : NearestAway n v) : NearestAway (-n) (-v) := by
  have turned (k : ℤ) : |(k : ℚ) - -v| = |((-k : ℤ) : ℚ) - v| := by
    rw [← abs_neg]
    push_cast
    ring_nf
  refine ⟨fun m => ?_, fun m same => ?_⟩
  · rw [turned, turned, neg_neg]
    exact nearest.least (-m)
  · rw [turned, turned, neg_neg] at same
    have := nearest.away (-m) same
    rwa [abs_neg] at this ⊢

/-- There is only one. -/
lemma unique (nearest : NearestAway n v) (other : NearestAway m v) : n = m := by
  have distance : |(n : ℚ) - v| = |m - v| := le_antisymm (nearest.least m) (other.least n)
  have size : |n| = |m| := le_antisymm (other.away n distance) (nearest.away m distance.symm)
  rcases abs_eq_abs.1 size with same | rfl
  · exact same
  · -- Opposite numbers are equally near to zero alone, which is nearer than both.
    have zero : v = 0 ∨ (m : ℚ) = 0 := by
      rcases abs_eq_abs.1 distance with same | same <;> push_cast at same
      · exact .inr (by linarith)
      · exact .inl (by linarith)
    rcases zero with rfl | zero
    · have least := other.least 0
      have : (m : ℚ) = 0 := by simpa using least
      have : m = 0 := by exact_mod_cast this
      simp [this]
    · have : m = 0 := by exact_mod_cast zero
      simp [this]

end NearestAway

/-- A number that is not negative is rounded so. -/
lemma nearestAway_floor (positive : 0 ≤ v) : NearestAway ⌊v + 1 / 2⌋ v := by
  have low := Int.floor_le (v + 1 / 2)
  have high := Int.lt_floor_add_one (v + 1 / 2)
  have start : 0 ≤ ⌊v + 1 / 2⌋ := Int.floor_nonneg.2 (by linarith)
  generalize ⌊v + 1 / 2⌋ = n at low high start
  have half : |(n : ℚ) - v| ≤ 1 / 2 := abs_le.2 ⟨by linarith, by linarith⟩
  -- Whatever is below is at least a half away, and whatever is above is further.
  refine ⟨fun m => ?_, fun m same => ?_⟩
  · rcases lt_trichotomy m n with below | rfl | above
    · have : (m : ℚ) + 1 ≤ n := by exact_mod_cast below
      refine half.trans (le_trans ?_ (neg_le_abs _))
      linarith
    · exact le_refl _
    · have : (n : ℚ) + 1 ≤ m := by exact_mod_cast above
      refine half.trans (le_trans ?_ (le_abs_self _))
      linarith
  · have near := abs_le.1 (same.trans_le half)
    have above : (-1 : ℚ) < m := by linarith
    have above : -1 < m := by exact_mod_cast above
    have below : (m : ℚ) < n + 1 := by linarith
    have below : m < n + 1 := by exact_mod_cast below
    rw [abs_of_nonneg start, abs_of_nonneg (by omega)]
    omega

lemma nearestAway_roundAway (v : ℚ) : NearestAway (roundAway v) v := by
  unfold roundAway
  split
  case isTrue negative => simpa using (nearestAway_floor (neg_nonneg.2 negative.le)).neg
  case isFalse positive => exact nearestAway_floor (not_lt.1 positive)

lemma nearestAway_iff : NearestAway n v ↔ n = roundAway v := by
  constructor
  · exact fun nearest => nearest.unique (nearestAway_roundAway v)
  · rintro rfl
    exact nearestAway_roundAway v

lemma roundAway_intCast (n : ℤ) : roundAway n = n :=
  le_antisymm (roundAway_le (by linarith)) (le_roundAway (by linarith))

lemma roundAway_mono (order : v ≤ w) : roundAway v ≤ roundAway w := by
  rcases lt_or_ge v 0 with negative | positive
  · rcases lt_or_ge w 0 with negative' | positive'
    · rw [roundAway, if_pos negative, roundAway, if_pos negative', neg_le_neg_iff]
      exact Int.floor_mono (by linarith)
    · exact (roundAway_le (by push_cast; linarith)).trans (le_roundAway (n := 0) (by norm_num; linarith))
  · rw [roundAway, if_neg (not_lt.2 positive), roundAway, if_neg (not_lt.2 (positive.trans order))]
    exact Int.floor_mono (by linarith)

/-! ### Rounded doubles are doubles -/

/-- A double that is not whole is small. -/
lemma IsDouble.exists_intCast_or_le (double : IsDouble v) : (∃ n : ℤ, v = n) ∨ |v| ≤ 2 ^ 52 := by
  rcases double.step_or_le 0 with ⟨n, whole⟩ | ⟨_, below⟩
  · exact .inl ⟨n, by simpa using whole⟩
  · rcases double.neg.step_or_le 0 with ⟨n, whole⟩ | ⟨_, above⟩
    · refine .inl ⟨-n, ?_⟩
      push_cast
      rw [← neg_neg v, whole, zpow_zero, mul_one]
    · rw [zpow_zero, mul_one] at below above
      exact .inr (abs_le.2 ⟨by linarith, below⟩)

lemma abs_roundAway_le {n : ℤ} (within : |v| ≤ n) : |roundAway v| ≤ n := by
  obtain ⟨low, high⟩ := abs_le.1 within
  exact abs_le.2 ⟨le_roundAway (by push_cast; linarith), roundAway_le (by linarith)⟩

variable {x y r : Float}

lemma exists_worth_of_small (small : |n| ≤ 2 ^ 52) : ∃ r : Float, Worth r n := by
  obtain ⟨k, same⟩ := n.eq_nat_or_neg
  have size : Worth k.toUInt64.toFloat k := worth_natCast (by
    rcases same with rfl | rfl
    · rw [Nat.abs_cast] at small
      omega
    · rw [abs_neg, Nat.abs_cast] at small
      omega)
  rcases same with rfl | rfl
  · exact ⟨_, by exact_mod_cast size⟩
  · exact ⟨_, by exact_mod_cast worth_neg size⟩

/-- The nearest whole number of a double is again worth a double. -/
lemma exists_worth_roundAway (hx : Worth x v) : ∃ r : Float, Worth r (roundAway v) := by
  rcases hx.isDouble.exists_intCast_or_le with ⟨n, rfl⟩ | small
  · exact ⟨x, by rwa [roundAway_intCast]⟩
  · exact exists_worth_of_small (abs_roundAway_le (by exact_mod_cast small))

/-! ### Whole doubles as whole numbers -/

lemma roundToInt_eq (sign : Sign) (m : ℕ) (e : ℤ) :
    roundToInt sign m e = sign.apply (m * 2 ^ e.toNat / 2 ^ (-e).toNat : ℕ) := by
  have exponent : (0 - (e - e.toNat)).toNat = (-e).toNat := by omega
  simp only [roundToInt, decreaseExponent, shiftToExponent, Nat.shiftLeft_eq, mantissa_shiftRight,
    mantissa_ofMantissaAndAccuracy, sub_zero, exponent]

/-- A whole double is cut to itself. -/
lemma toInt_of_worth (hx : Worth x n) (low high : ℤ) : x.toModel.unpack.toInt low high = n := by
  obtain ⟨s, unpacked, zero⟩ | ⟨s, m, e, positive, unpacked, worth⟩ := zero_or_finite hx
  · rw [unpacked]
    have : n = 0 := by exact_mod_cast zero
    exact this.symm
  · rw [unpacked]
    show roundToInt s m e = n
    rw [roundToInt_eq]
    -- The size is whole, so nothing is cut off.
    have size : (m : ℚ) * 2 ^ e = (n.natAbs : ℕ) := by
      have := congrArg (fun q : ℚ => |q|) worth
      simp only [abs_signed, abs_of_nonneg (show (0 : ℚ) ≤ m * 2 ^ e by positivity)] at this
      rw [← this, Nat.cast_natAbs, Int.cast_abs]
    have whole : m * 2 ^ e.toNat = n.natAbs * 2 ^ (-e).toNat := by
      have split : (2 : ℚ) ^ e * 2 ^ (-e).toNat = 2 ^ e.toNat := by
        rw [← zpow_natCast, ← zpow_natCast, ← zpow_add₀ two_ne_zero]
        congr 1
        omega
      have : (m : ℚ) * 2 ^ e.toNat = n.natAbs * 2 ^ (-e).toNat := by
        rw [← size, ← split]
        ring
      exact_mod_cast this
    rw [whole, Nat.mul_div_cancel _ (by positivity)]
    have back : (n : ℚ) = ((s.apply n.natAbs : ℤ) : ℚ) := by
      rw [worth, size, signed_eq_apply]
    exact_mod_cast back.symm

/-- Sixty-four bits hold a whole double within their limits as it is. -/
lemma toInt_toInt64_of_worth (hx : Worth x n) (low : -2 ^ 63 ≤ n) (high : n < 2 ^ 63) :
    x.toModel.toInt64.toInt = n := by
  show (Int64.ofIntClamp (x.toModel.unpack.toInt _ _)).toInt = n
  rw [toInt_of_worth hx]
  exact Int64.toInt_ofIntClamp low (by
    have : Int64.maxValue.toInt = 2 ^ 63 - 1 := rfl
    omega)

/-- The nearest whole number of a double is that of its worth. -/
lemma nearest?_iff : Scalar.nearest? x = some n ↔ ∃ v, Worth x v ∧ NearestAway n v := by
  constructor
  · intro nearest
    obtain ⟨b, parts, _⟩ := Option.map_eq_some_iff.1 nearest
    have worth : Worth x (binaryWorth b) := by
      rw [Worth, worth?_unpack, parts]
      rfl
    rw [nearest?_of_worth worth] at nearest
    exact ⟨_, worth, nearestAway_iff.2 (Option.some.inj nearest).symm⟩
  · rintro ⟨v, worth, nearest⟩
    rw [nearest?_of_worth worth, nearestAway_iff.1 nearest]

end Double

namespace Pattern

/-! ### Rounding to sixty-four bits -/

variable {x y : Float} {v : ℚ} {n m : Int64} {k : ℤ}

/-- The numbers that sixty-four bits hold. -/
lemma exists_toInt_eq_iff : (∃ n : Int64, n.toInt = k) ↔ -2 ^ 63 ≤ k ∧ k < 2 ^ 63 := by
  constructor
  · rintro ⟨n, rfl⟩
    exact ⟨n.minValue_le_toInt, Int.lt_of_le_sub_one n.toInt_le⟩
  · rintro ⟨low, high⟩
    exact ⟨.ofInt k, Int64.toInt_ofInt_of_le low high⟩

/-- A double is rounded to the nearest whole number, if sixty-four bits hold it. -/
lemma toInt_round?_eq_some_iff :
    (round? x).map Int64.toInt = some k ↔
      (∃ v, Worth x v ∧ NearestAway k v) ∧ -2 ^ 63 ≤ k ∧ k < 2 ^ 63 := by
  rw [← exists_toInt_eq_iff, ← nearest?_iff, Option.map_eq_some_iff]
  constructor
  · rintro ⟨n, rounded, rfl⟩
    exact ⟨round?_eq_some_iff.1 rounded, n, rfl⟩
  · rintro ⟨nearest, n, rfl⟩
    exact ⟨n, round?_eq_some_iff.2 nearest, rfl⟩

/-- It is rounded to the nearest whole number of its worth, or not at all. -/
lemma map_toInt_round?_of_worth (hx : Worth x v) :
    (round? x).map Int64.toInt =
      if -2 ^ 63 ≤ roundAway v ∧ roundAway v < 2 ^ 63 then some (roundAway v) else none := by
  have nearest (k : ℤ) : (∃ w, Worth x w ∧ NearestAway k w) ↔ k = roundAway v := by
    constructor
    · rintro ⟨w, worth, nearest⟩
      rwa [hx.unique worth, ← nearestAway_iff]
    · rintro rfl
      exact ⟨v, hx, nearestAway_roundAway v⟩
  ext k
  rw [toInt_round?_eq_some_iff, nearest]
  split
  case isTrue held =>
    rw [Option.some.injEq, eq_comm (b := k)]
    exact ⟨And.left, fun same => ⟨same, same ▸ held⟩⟩
  case isFalse outside =>
    refine iff_of_false ?_ (by simp)
    rintro ⟨rfl, held⟩
    exact outside held

lemma round?_eq_some_iff_of_worth (hx : Worth x v) : round? x = some n ↔ n.toInt = roundAway v := by
  rw [round?_eq_some_iff, nearest?_of_worth hx, Option.some.injEq, eq_comm]

/-- It is not rounded if sixty-four bits do not hold the nearest whole number. -/
lemma round?_eq_none_iff_of_worth (hx : Worth x v) :
    round? x = none ↔ roundAway v < -2 ^ 63 ∨ 2 ^ 63 ≤ roundAway v := by
  rw [← Option.map_eq_none_iff, map_toInt_round?_of_worth hx, ite_eq_right_iff]
  simp only [reduceCtorEq, imp_false, not_and_or, not_le, not_lt]

/-- What is rounded is worth a number. -/
lemma exists_worth_of_round? (rounded : round? x = some n) : ∃ v, Worth x v := by
  obtain ⟨v, worth, _⟩ := nearest?_iff.1 (round?_eq_some_iff.1 rounded)
  exact ⟨v, worth⟩

lemma round?_of_not_finite (infinite : ¬x.isFinite = true) : round? x = none := by
  rw [Option.eq_none_iff_forall_ne_some]
  exact fun n rounded => infinite (isFinite_iff.2 (exists_worth_of_round? rounded))

lemma round?_eq_none_iff :
    round? x = none ↔ x.isFinite = false ∨
      ∃ v k, Worth x v ∧ NearestAway k v ∧ (k < -2 ^ 63 ∨ 2 ^ 63 ≤ k) := by
  by_cases finite : x.isFinite = true
  · obtain ⟨v, worth⟩ := isFinite_iff.1 finite
    rw [round?_eq_none_iff_of_worth worth]
    constructor
    · exact fun outside => .inr ⟨v, _, worth, nearestAway_roundAway v, outside⟩
    · rintro (infinite | ⟨w, k, worth', nearest, outside⟩)
      · rw [finite] at infinite
        cases infinite
      · rwa [worth.unique worth', ← nearestAway_iff.1 nearest]
  · exact iff_of_true (round?_of_not_finite finite) (.inl (Bool.not_eq_true _ ▸ finite))

/-- It makes no difference if the number is rounded to a double, compared with the limits as one and
then cut to sixty-four bits. -/
lemma exists_round?_eq_ite (finite : x.isFinite = true) :
    ∃ (k : ℤ) (r : Float), (∃ v, Worth x v ∧ NearestAway k v) ∧ Worth r k ∧
      round? x = if -9223372036854775808.0 ≤ r ∧ r < 9223372036854775808.0
        then some r.toModel.toInt64 else none := by
  obtain ⟨v, worth⟩ := isFinite_iff.1 finite
  obtain ⟨r, rounded⟩ := exists_worth_roundAway worth
  refine ⟨roundAway v, r, ⟨v, worth, nearestAway_roundAway v⟩, rounded, ?_⟩
  have least : Worth (-9223372036854775808.0 : Float) (-2 ^ 63 : ℤ) := by decide +kernel
  have beyond : Worth (9223372036854775808.0 : Float) (2 ^ 63 : ℤ) := by decide +kernel
  have limits : -9223372036854775808.0 ≤ r ∧ r < 9223372036854775808.0 ↔
      -2 ^ 63 ≤ roundAway v ∧ roundAway v < 2 ^ 63 := by
    rw [le_iff least rounded, lt_iff rounded beyond]
    norm_cast
  split
  case isTrue inside =>
    obtain ⟨low, high⟩ := limits.1 inside
    rw [round?_eq_some_iff_of_worth worth, toInt_toInt64_of_worth rounded low high]
  case isFalse outside =>
    rw [limits] at outside
    rw [round?_eq_none_iff_of_worth worth]
    omega

/-- Greater doubles are not rounded to smaller numbers. -/
lemma round?_mono (order : x ≤ y) (hx : round? x = some m) (hy : round? y = some n) : m ≤ n := by
  obtain ⟨v, worth⟩ := exists_worth_of_round? hx
  obtain ⟨w, worth'⟩ := exists_worth_of_round? hy
  rw [round?_eq_some_iff_of_worth worth] at hx
  rw [round?_eq_some_iff_of_worth worth'] at hy
  rw [Int64.le_iff_toInt_le, hx, hy]
  exact roundAway_mono ((le_iff worth worth').1 order)

/-- Beyond a small size a double is its own nearest whole number. -/
lemma eq_of_roundAway_eq (hx : Worth x v) (rounded : roundAway v = k) (large : 2 ^ 52 < |k|) :
    v = k := by
  rcases hx.isDouble.exists_intCast_or_le with ⟨n, rfl⟩ | small
  · rw [← rounded, roundAway_intCast]
  · have := abs_roundAway_le (n := 2 ^ 52) (by exact_mod_cast small)
    rw [rounded] at this
    omega

/-- The negative of a double is rounded to the negative, but the least number has none. -/
lemma round?_neg (x : Float) :
    (round? (-x)).map Int64.toInt = (round? x).map (-·.toInt) ∨
      Worth x (-2 ^ 63) ∧ round? x = some Int64.minValue ∧ round? (-x) = none ∨
      Worth x (2 ^ 63) ∧ round? x = none ∧ round? (-x) = some Int64.minValue := by
  by_cases finite : x.isFinite = true
  · obtain ⟨v, worth⟩ := isFinite_iff.1 finite
    have opposite := worth_neg worth
    have turned := roundAway_neg v
    have least : Int64.minValue.toInt = -2 ^ 63 := rfl
    by_cases low : roundAway v = -2 ^ 63
    · refine .inr (.inl ⟨?_, ?_, ?_⟩)
      · have same := eq_of_roundAway_eq worth low (by norm_num)
        rw [same] at worth
        exact_mod_cast worth
      · rw [round?_eq_some_iff_of_worth worth, low, least]
      · rw [round?_eq_none_iff_of_worth opposite]
        omega
    · by_cases high : roundAway v = 2 ^ 63
      · refine .inr (.inr ⟨?_, ?_, ?_⟩)
        · have same := eq_of_roundAway_eq worth high (by norm_num)
          rw [same] at worth
          exact_mod_cast worth
        · rw [round?_eq_none_iff_of_worth worth]
          omega
        · rw [round?_eq_some_iff_of_worth opposite, turned, high, least]
      · left
        have double : (round? x).map (-·.toInt) = ((round? x).map Int64.toInt).map (-·) := by
          rw [Option.map_map]
          rfl
        rw [double, map_toInt_round?_of_worth worth, map_toInt_round?_of_worth opposite, turned]
        split <;> split <;> first | rfl | omega
  · have finite' : ¬(-x).isFinite = true := by rwa [isFinite_neg]
    rw [round?_of_not_finite finite, round?_of_not_finite finite']
    exact .inl rfl

/-- A double is rounded to the nearest whole number, a half away from zero, if it has one and
sixty-four bits hold it, and otherwise not at all. To compare a double with the limits and cut it
comes to the same. The order of doubles is kept, and so is their sign, except at the least number. -/
theorem round?_nearest (x y : Float) :
    (∀ k : ℤ, (round? x).map Int64.toInt = some k ↔
      (∃ v, Worth x v ∧ NearestAway k v) ∧ -2 ^ 63 ≤ k ∧ k < 2 ^ 63) ∧
    (round? x = none ↔ x.isFinite = false ∨
      ∃ v k, Worth x v ∧ NearestAway k v ∧ (k < -2 ^ 63 ∨ 2 ^ 63 ≤ k)) ∧
    (x.isFinite = true → ∃ (k : ℤ) (r : Float), (∃ v, Worth x v ∧ NearestAway k v) ∧ Worth r k ∧
      round? x = if -9223372036854775808.0 ≤ r ∧ r < 9223372036854775808.0
        then some r.toModel.toInt64 else none) ∧
    (∀ m n : Int64, x ≤ y → round? x = some m → round? y = some n → m ≤ n) ∧
    ((round? (-x)).map Int64.toInt = (round? x).map (-·.toInt) ∨
      Worth x (-2 ^ 63) ∧ round? x = some Int64.minValue ∧ round? (-x) = none ∨
      Worth x (2 ^ 63) ∧ round? x = none ∧ round? (-x) = some Int64.minValue) :=
  ⟨fun _ => toInt_round?_eq_some_iff, round?_eq_none_iff, exists_round?_eq_ite,
    fun _ _ order hx hy => round?_mono order hx hy, round?_neg x⟩

/-- Two and a half below zero is rounded away from zero and nothing just below a half is, so that
their order is kept. -/
theorem round?_nearest_of_halves :
    (round? (-2.5)).map Int64.toInt = some (-3) ∧
    (round? 0.49999999999999994).map Int64.toInt = some 0 ∧
    (∃ (k : ℤ) (r : Float), Worth r k ∧
      round? (-2.5) = if -9223372036854775808.0 ≤ r ∧ r < 9223372036854775808.0
        then some r.toModel.toInt64 else none) ∧
    ∀ m n : Int64, round? (-2.5) = some m → round? 0.49999999999999994 = some n → m ≤ n := by
  obtain ⟨rounded, -, limits, order, -⟩ := round?_nearest (-2.5) 0.49999999999999994
  obtain ⟨rounded', -⟩ := round?_nearest 0.49999999999999994 (-2.5)
  refine ⟨(rounded _).2 ⟨⟨-5 / 2, by decide +kernel, ?_⟩, by norm_num⟩,
    (rounded' _).2 ⟨⟨9007199254740991 / 18014398509481984, by decide +kernel, ?_⟩, by norm_num⟩,
    ?_, fun m n => order m n (by decide +kernel)⟩
  · rw [nearestAway_iff]
    decide +kernel
  · rw [nearestAway_iff]
    decide +kernel
  · obtain ⟨k, r, -, worth, same⟩ := limits (by decide +kernel)
    exact ⟨k, r, worth, same⟩

end Pattern

end Toolpath
