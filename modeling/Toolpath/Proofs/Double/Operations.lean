import Toolpath.Proofs.Double.Rounding

/-!
# Operations on unpacked doubles

Each operation on finite doubles in canonical form gives a nearest double to the exact result, in
canonical form again. Only the mantissa and the exponent that an operation hands to the rounding
differ: sums bring both operands to the lesser exponent, quotients have enough bits in front.
-/

namespace Toolpath.Double

open Float.Model (Format UnpackedFloat totalExponent)
open Float.Model.UnpackedFloat

/-! ### Canonical forms -/

section Canonical

variable {m : ℕ} {e : ℤ}

/-- A canonical mantissa has at most fifty-three bits. -/
lemma lt_of_target (settled : target m e = e) : m < 2 ^ 53 := by
  have few : m.log2 ≤ 52 := by
    unfold target at settled
    omega
  by_cases zero : m = 0
  · simp [zero]
  · exact (Nat.log2_lt zero).1 (by omega)

/-- It has exactly fifty-three, unless its exponent is the least. -/
lemma le_of_target (settled : target m e = e) : e = -1074 ∨ 2 ^ 52 ≤ m ∧ -1074 ≤ e := by
  by_cases least : e = -1074
  · exact .inl least
  · have many : m.log2 = 52 := by
      unfold target at settled
      omega
    have nonzero : m ≠ 0 := by
      rintro rfl
      simp at many
    refine .inr ⟨?_, settled ▸ le_max_right _ _⟩
    rw [← many]
    exact Nat.log2_self_le nonzero

lemma least_le_of_target (settled : target m e = e) : -1074 ≤ e :=
  settled ▸ le_max_right _ _

/-- A canonical form is worth a double. -/
lemma isDouble_of_canonical {u : UnpackedFloat} {v : ℚ} (canonical : Canonical u)
    (worth : worth? u = some v) : IsDouble v := by
  obtain ⟨sign, rfl, rfl⟩ | ⟨sign, m, e, positive, rfl, rfl⟩ := zero_or_finite worth
  · exact isDouble_zero
  · have few := lt_of_target canonical
    have size : IsDouble (m * 2 ^ e) :=
      ⟨m, e, by rw [Nat.abs_cast]; exact_mod_cast few.le, least_le_of_target canonical, by simp⟩
    cases sign with
    | negative => exact size.neg
    | positive => exact size

end Canonical

lemma Rounded.self {u : UnpackedFloat} {v : ℚ} (canonical : Canonical u)
    (worth : worth? u = some v) : Rounded u v :=
  ⟨canonical, v, worth, .self (isDouble_of_canonical canonical worth)⟩

/-! ### Sums -/

/-- A mantissa at a lesser exponent. -/
lemma decreaseExponent_eq {m : ℕ} {e k : ℤ} (below : k ≤ e) :
    decreaseExponent m e k = (m * 2 ^ (e - k).toNat, k) := by
  rw [decreaseExponent, Nat.shiftLeft_eq]
  simp only [Prod.mk.injEq, true_and]
  omega

/-- A mantissa at a lesser exponent stands for the same size. -/
lemma decreased_eq (m : ℕ) {e k : ℤ} (below : k ≤ e) :
    ((m * 2 ^ (e - k).toNat : ℕ) : ℚ) * 2 ^ k = m * 2 ^ e := by
  push_cast
  rw [mul_assoc, ← zpow_natCast, ← zpow_add₀ two_ne_zero]
  congr 2
  omega

lemma log2_mul_two_pow {m : ℕ} (nonzero : m ≠ 0) (k : ℕ) : (m * 2 ^ k).log2 = m.log2 + k := by
  induction k with
  | zero => simp
  | succ k ih =>
    rw [pow_succ, ← mul_assoc, mul_comm, Nat.log2_two_mul (by positivity), ih]
    rfl

/-- The exponent to be brought to does not depend on where the point is. -/
lemma target_decreased {m : ℕ} (nonzero : m ≠ 0) {e k : ℤ} (below : k ≤ e) :
    target (m * 2 ^ (e - k).toNat) k = target m e := by
  rw [target, target, log2_mul_two_pow nonzero]
  push_cast
  congr 1
  omega

/-- Rounding brings a mantissa to the front first. -/
lemma rounded_round (sign : Sign) {m : ℕ} (nonzero : m ≠ 0) (e : ℤ) :
    Rounded (UnpackedFloat.round Format.binary64 sign m e) (signed sign (m * 2 ^ e)) := by
  rw [UnpackedFloat.round, targetExponent_eq]
  by_cases below : target m e ≤ e
  · rw [decreaseExponent_eq below, ← decreased_eq m below]
    refine rounded_roundWithAccuracy ?_ (sub_self _)
    rw [target_decreased nonzero below]
  · have none : decreaseExponent m e (target m e) = (m, e) := by
      rw [decreaseExponent, show (e - target m e).toNat = 0 by omega]
      simp
    rw [none]
    exact rounded_roundWithAccuracy (by omega) (sub_self _)

/-- A whole number at an exponent is rounded to a nearest double. -/
lemma rounded_normalize (n e : ℤ) (zeroSign : Sign) :
    Rounded (UnpackedFloat.normalize Format.binary64 n e zeroSign) (n * 2 ^ e) := by
  unfold UnpackedFloat.normalize
  split
  case h_1 below =>
    have negative : n < 0 := compare_lt_iff_lt.1 below
    have amount : (n : ℚ) * 2 ^ e = signed .negative ((-n).toNat * 2 ^ e) := by
      have : ((-n).toNat : ℚ) = -n := by exact_mod_cast Int.toNat_of_nonneg (by omega)
      rw [this, signed]
      ring
    rw [amount]
    exact rounded_round _ (by omega) e
  case h_2 same =>
    have zero : n = 0 := compare_eq_iff_eq.1 same
    refine ⟨trivial, 0, rfl, ?_⟩
    simpa [zero] using NearestEven.self isDouble_zero
  case h_3 above =>
    have positive : 0 < n := compare_gt_iff_gt.1 above
    have amount : (n : ℚ) * 2 ^ e = signed .positive (n.toNat * 2 ^ e) := by
      have : (n.toNat : ℚ) = n := by exact_mod_cast Int.toNat_of_nonneg positive.le
      rw [this, signed]
    rw [amount]
    exact rounded_round _ (by omega) e

lemma signed_eq_apply (sign : Sign) (n : ℕ) : signed sign n = (sign.apply n : ℤ) := by
  cases sign <;> simp [signed, Sign.apply]

lemma signed_signed (sign : Sign) (x : ℚ) : signed sign (signed sign x) = x := by
  cases sign with
  | negative => exact neg_neg x
  | positive => rfl

lemma signed_mul (sign : Sign) (x y : ℚ) : signed sign (x * y) = signed sign x * y := by
  cases sign <;> simp [signed]

variable {x y : UnpackedFloat} {a b : ℚ}

/-- Sums are nearest doubles. -/
theorem rounded_add (hx : Canonical x) (hy : Canonical y) (ha : worth? x = some a)
    (hb : worth? y = some b) : Rounded (x.add Format.binary64 y) (a + b) := by
  obtain ⟨s, rfl, rfl⟩ | ⟨s, m, e, positive, rfl, rfl⟩ := zero_or_finite ha
  · rw [zero_add]
    obtain ⟨s', rfl, rfl⟩ | ⟨s', m', e', positive', rfl, rfl⟩ := zero_or_finite hb
    · cases s <;> cases s' <;> exact .self trivial rfl
    · exact .self hy hb
  · obtain ⟨s', rfl, rfl⟩ | ⟨s', m', e', positive', rfl, rfl⟩ := zero_or_finite hb
    · rw [add_zero]
      exact .self hx ha
    · -- Both mantissas are brought to the lesser exponent, where they are added as whole numbers.
      have left := decreased_eq m (min_le_left e e')
      have right := decreased_eq m' (min_le_right e e')
      simp only [UnpackedFloat.add, decreaseExponent_eq (min_le_left e e'),
        decreaseExponent_eq (min_le_right e e')]
      rw [← left, ← right, signed_mul, signed_mul, signed_eq_apply, signed_eq_apply, ← add_mul,
        ← Int.cast_add]
      exact rounded_normalize _ _ _

lemma signed_neg (sign : Sign) (x : ℚ) : signed (-sign) x = -signed sign x := by
  cases sign with
  | negative => exact (neg_neg x).symm
  | positive => rfl

/-! ### Differences -/

lemma Canonical.neg {u : UnpackedFloat} (canonical : Canonical u) : Canonical u.neg := by
  cases u <;> exact canonical

lemma worth?_neg {u : UnpackedFloat} {v : ℚ} (worth : worth? u = some v) :
    worth? u.neg = some (-v) := by
  obtain ⟨s, rfl, rfl⟩ | ⟨s, m, e, positive, rfl, rfl⟩ := zero_or_finite worth
  · simp [UnpackedFloat.neg, worth?]
  · simp [UnpackedFloat.neg, worth?, signed_neg]

/-- A difference is a sum with the other sign. -/
lemma sub_eq_add (spec : Format) (x y : UnpackedFloat) : x.sub spec y = x.add spec y.neg := by
  cases x with
  | infinity s => cases y <;> rfl
  | notANumber => cases y <;> rfl
  | zero s => cases y <;> rfl
  | finite s m e positive =>
    cases y with
    | infinity s' => rfl
    | notANumber => rfl
    | zero s' => rfl
    | finite s' m' e' positive' =>
      cases s' with
      | negative =>
        simp only [UnpackedFloat.sub, UnpackedFloat.add, UnpackedFloat.neg, Sign.apply,
          sub_neg_eq_add, show -Sign.negative = Sign.positive from rfl]
      | positive => rfl

/-- Differences are nearest doubles. -/
theorem rounded_sub (hx : Canonical x) (hy : Canonical y) (ha : worth? x = some a)
    (hb : worth? y = some b) : Rounded (x.sub Format.binary64 y) (a - b) := by
  rw [sub_eq_add, sub_eq_add_neg]
  exact rounded_add hx hy.neg ha (worth?_neg hb)

/-! ### Products -/

/-- The product of canonical mantissas has enough bits in front. -/
lemma le_target_mul {m m' : ℕ} {e e' : ℤ} (positive : 0 < m) (positive' : 0 < m')
    (settled : target m e = e) (settled' : target m' e' = e') :
    e + e' ≤ target (m * m') (e + e') := by
  have product : (m * m') ≠ 0 := (Nat.mul_pos positive positive').ne'
  have bits (low : 2 ^ 52 ≤ m ∨ 2 ^ 52 ≤ m') : 52 ≤ (m * m').log2 := by
    rw [Nat.le_log2 product]
    rcases low with low | low
    · exact low.trans (Nat.le_mul_of_pos_right m positive')
    · exact low.trans (Nat.le_mul_of_pos_left m' positive)
  unfold target
  rcases le_of_target settled with least | ⟨low, _⟩
  · rcases le_of_target settled' with least' | ⟨low', _⟩
    · omega
    · have := bits (.inr low')
      omega
  · have := bits (.inl low)
    omega

lemma signed_mul_signed (sign sign' : Sign) (x y : ℚ) :
    signed (sign * sign') (x * y) = signed sign x * signed sign' y := by
  match sign, sign' with
  | .negative, .negative => exact (neg_mul_neg x y).symm
  | .negative, .positive => exact (neg_mul x y).symm
  | .positive, .negative => exact (mul_neg x y).symm
  | .positive, .positive => rfl

lemma rounded_zero (sign : Sign) : Rounded (.zero sign) 0 :=
  ⟨trivial, 0, rfl, .self isDouble_zero⟩

/-- Products of mantissas are nearest doubles, if there are enough bits in front. -/
lemma rounded_mul_finite (sign sign' : Sign) {m m' : ℕ} {e e' : ℤ}
    (fine : e + e' ≤ target (m * m') (e + e')) :
    Rounded (roundWithAccuracy Format.binary64 (sign * sign') (m * m') (e + e') .exact)
      (signed sign (m * 2 ^ e) * signed sign' (m' * 2 ^ e')) := by
  have amount : signed sign (m * 2 ^ e) * signed sign' (m' * 2 ^ e') =
      signed (sign * sign') ((m * m' : ℕ) * 2 ^ (e + e')) := by
    rw [← signed_mul_signed, zpow_add₀ two_ne_zero]
    congr 1
    push_cast
    ring
  rw [amount]
  exact rounded_roundWithAccuracy fine (sub_self _)

/-- Products are nearest doubles. -/
theorem rounded_mul (hx : Canonical x) (hy : Canonical y) (ha : worth? x = some a)
    (hb : worth? y = some b) : Rounded (x.mul Format.binary64 y) (a * b) := by
  obtain ⟨s, rfl, rfl⟩ | ⟨s, m, e, positive, rfl, rfl⟩ := zero_or_finite ha
  · rw [zero_mul]
    obtain ⟨s', rfl, _⟩ | ⟨s', m', e', positive', rfl, _⟩ := zero_or_finite hb
    · exact rounded_zero _
    · exact rounded_zero _
  · obtain ⟨s', rfl, rfl⟩ | ⟨s', m', e', positive', rfl, rfl⟩ := zero_or_finite hb
    · rw [mul_zero]
      exact rounded_zero _
    · exact rounded_mul_finite s s' (le_target_mul positive positive' hx hy)

/-! ### Quotients -/

/-- The accuracy of a fraction tells it. -/
lemma tells_accuracyOfFraction {n d : ℕ} (below : n < d) :
    Tells (accuracyOfFraction n d) (n / d : ℚ) := by
  have positive : (0 : ℚ) < d := by exact_mod_cast (Nat.zero_le n).trans_lt below
  unfold accuracyOfFraction
  split
  case isTrue zero => simp [Tells, zero]
  case isFalse nonzero =>
    have some : (0 : ℚ) < n := by exact_mod_cast Nat.pos_of_ne_zero nonzero
    cases order : compare (2 * n) d with
    | lt =>
      have half : 2 * n < d := compare_lt_iff_lt.1 order
      have half : (2 * n : ℚ) < d := by exact_mod_cast half
      refine ⟨by positivity, ?_⟩
      rw [div_lt_iff₀ positive]
      linarith
    | eq =>
      have half : 2 * n = d := compare_eq_iff_eq.1 order
      have half : (2 * n : ℚ) = d := by exact_mod_cast half
      show (n / d : ℚ) = 1 / 2
      rw [div_eq_iff positive.ne']
      linarith
    | gt =>
      have half : d < 2 * n := compare_gt_iff_gt.1 order
      have half : (d : ℚ) < 2 * n := by exact_mod_cast half
      have below : (n : ℚ) < d := by exact_mod_cast below
      constructor
      · rw [lt_div_iff₀ positive]
        linarith
      · rw [div_lt_one positive]
        exact below

/-- The exponent of a quotient before it is rounded. -/
def quotientExponent (m : ℕ) (e : ℤ) (m' : ℕ) (e' : ℤ) : ℤ :=
  min (e - e') (max (m.log2 + e - (m'.log2 + e') - 53) (-1074))

lemma divCore_eq (m : ℕ) (e : ℤ) (m' : ℕ) (e' : ℤ) :
    divCore Format.binary64 m e m' e' =
      let shifted := m * 2 ^ (e - e' - quotientExponent m e m' e').toNat
      (shifted / m', quotientExponent m e m' e', accuracyOfFraction (shifted % m') m') := by
  have bits : (Format.binary64.mantissaBits : ℤ) = 53 := rfl
  have least : Format.binary64.minExponent = -1074 := rfl
  have exponent : min (e - e')
      (Format.binary64.targetExponent (totalExponent m e - totalExponent m' e')) =
        quotientExponent m e m' e' := by
    rw [Format.targetExponent, bits, least, totalExponent, totalExponent, quotientExponent]
    congr 2
    ring
  rw [divCore, exponent]
  simp only [Nat.shiftLeft_eq]

/-- A quotient of mantissas has enough bits in front. -/
lemma le_target_div {m m' : ℕ} (e e' : ℤ) (positive : 0 < m) (positive' : 0 < m') :
    quotientExponent m e m' e' ≤
      target (m * 2 ^ (e - e' - quotientExponent m e m' e').toNat / m')
        (quotientExponent m e m' e') := by
  by_cases low : quotientExponent m e m' e' ≤ -1074
  · exact low.trans (le_max_right _ _)
  · -- Above the least exponent, the numerator was shifted far enough.
    have shift : m'.log2 + 53 ≤ m.log2 + (e - e' - quotientExponent m e m' e').toNat := by
      unfold quotientExponent at low ⊢
      omega
    generalize (e - e' - quotientExponent m e m' e').toNat = k at shift
    have many : 2 ^ 52 ≤ m * 2 ^ k / m' := by
      rw [Nat.le_div_iff_mul_le positive']
      calc 2 ^ 52 * m' ≤ 2 ^ 52 * 2 ^ (m'.log2 + 1) :=
            Nat.mul_le_mul_left _ Nat.lt_log2_self.le
        _ = 2 ^ (m'.log2 + 53) := by
            rw [← pow_add]
            congr 1
            ring
        _ ≤ 2 ^ (m.log2 + k) := Nat.pow_le_pow_right two_pos shift
        _ = 2 ^ m.log2 * 2 ^ k := pow_add _ _ _
        _ ≤ m * 2 ^ k := Nat.mul_le_mul_right _ (Nat.log2_self_le positive.ne')
    have bits : 52 ≤ (m * 2 ^ k / m').log2 := (Nat.le_log2 (by omega)).2 many
    unfold target
    omega

lemma signed_div_signed (sign sign' : Sign) (x y : ℚ) :
    signed (sign / sign') (x / y) = signed sign x / signed sign' y := by
  match sign, sign' with
  | .negative, .negative => exact (neg_div_neg_eq x y).symm
  | .negative, .positive => exact (neg_div y x).symm
  | .positive, .negative => exact (div_neg x).symm
  | .positive, .positive => rfl

/-- Quotients of mantissas are nearest doubles. -/
lemma rounded_div_finite (sign sign' : Sign) {m m' : ℕ} (e e' : ℤ) (positive : 0 < m)
    (positive' : 0 < m') :
    Rounded (UnpackedFloat.div Format.binary64 (.finite sign m e positive)
        (.finite sign' m' e' positive'))
      (signed sign (m * 2 ^ e) / signed sign' (m' * 2 ^ e')) := by
  have fine := le_target_div e e' positive positive'
  have below : quotientExponent m e m' e' ≤ e - e' := min_le_left _ _
  simp only [UnpackedFloat.div, divCore_eq]
  generalize quotientExponent m e m' e' = T at fine below ⊢
  have shifted : ((m * 2 ^ (e - e' - T).toNat : ℕ) : ℚ) * 2 ^ T = m * 2 ^ (e - e') :=
    decreased_eq m below
  generalize m * 2 ^ (e - e' - T).toNat = n at fine shifted ⊢
  have divisor : (m' : ℚ) ≠ 0 := by exact_mod_cast positive'.ne'
  have amount : signed sign (m * 2 ^ e) / signed sign' (m' * 2 ^ e') =
      signed (sign / sign') (n / m' * 2 ^ T) := by
    rw [← signed_div_signed, div_mul_eq_mul_div, shifted, zpow_sub₀ two_ne_zero]
    congr 1
    field_simp
  have rest : (n / m' : ℚ) - (n / m' : ℕ) = ((n % m' : ℕ) : ℚ) / m' := by
    have : (n : ℚ) = m' * (n / m' : ℕ) + (n % m' : ℕ) := by
      exact_mod_cast (Nat.div_add_mod n m').symm
    field_simp
    linarith
  rw [amount]
  refine rounded_roundWithAccuracy fine ?_
  rw [rest]
  exact tells_accuracyOfFraction (Nat.mod_lt n positive')

/-- Quotients are nearest doubles. -/
theorem rounded_div (ha : worth? x = some a) (hb : worth? y = some b) (divisor : b ≠ 0) :
    Rounded (x.div Format.binary64 y) (a / b) := by
  obtain ⟨s', rfl, rfl⟩ | ⟨s', m', e', positive', rfl, rfl⟩ := zero_or_finite hb
  · exact absurd rfl divisor
  · obtain ⟨s, rfl, rfl⟩ | ⟨s, m, e, positive, rfl, rfl⟩ := zero_or_finite ha
    · rw [zero_div]
      exact rounded_zero _
    · exact rounded_div_finite s s' e e' positive positive'

/-! ### Comparison -/

/-- Of canonical sizes, the one with the lesser exponent is less. -/
lemma size_lt_of_lt {m m' : ℕ} {e e' : ℤ} (settled : target m e = e)
    (settled' : target m' e' = e') (less : e < e') : (m : ℚ) * 2 ^ e < m' * 2 ^ e' := by
  have low := least_le_of_target settled
  have many : (2 ^ 52 : ℚ) ≤ m' := by
    rcases le_of_target settled' with least | ⟨many, _⟩
    · omega
    · exact_mod_cast many
  have few : (m : ℚ) < 2 ^ 53 := by exact_mod_cast lt_of_target settled
  calc (m : ℚ) * 2 ^ e < 2 ^ 53 * 2 ^ e := by gcongr
    _ = 2 ^ 52 * 2 ^ (e + 1) := by
        rw [zpow_add_one₀ two_ne_zero]
        ring
    _ ≤ m' * 2 ^ e' := by
        gcongr
        · norm_num
        · omega

/-- Canonical sizes are compared by their exponents first. -/
lemma compare_size {m m' : ℕ} {e e' : ℤ} (settled : target m e = e)
    (settled' : target m' e' = e') :
    (compare e e').then (compare m m') = compare ((m : ℚ) * 2 ^ e) (m' * 2 ^ e') := by
  rcases lt_trichotomy e e' with less | rfl | greater
  · rw [compare_lt_iff_lt.2 less, compare_lt_iff_lt.2 (size_lt_of_lt settled settled' less)]
    rfl
  · have unit : (0 : ℚ) < 2 ^ e := by positivity
    rw [compare_eq_iff_eq.2 rfl]
    show compare m m' = _
    rcases lt_trichotomy m m' with less | rfl | greater
    · have : (m : ℚ) < m' := by exact_mod_cast less
      rw [compare_lt_iff_lt.2 less, compare_lt_iff_lt.2 (mul_lt_mul_of_pos_right this unit)]
    · rw [compare_eq_iff_eq.2 rfl, compare_eq_iff_eq.2 rfl]
    · have : (m' : ℚ) < m := by exact_mod_cast greater
      rw [compare_gt_iff_gt.2 greater, compare_gt_iff_gt.2 (mul_lt_mul_of_pos_right this unit)]
  · rw [compare_gt_iff_gt.2 greater, compare_gt_iff_gt.2 (size_lt_of_lt settled' settled greater)]
    rfl

lemma compare_neg_neg (a b : ℚ) : compare (-a) (-b) = (compare a b).swap := by
  rcases lt_trichotomy a b with less | rfl | greater
  · rw [compare_lt_iff_lt.2 less, compare_gt_iff_gt.2 (neg_lt_neg less)]
    rfl
  · rw [compare_eq_iff_eq.2 rfl, compare_eq_iff_eq.2 rfl]
    rfl
  · rw [compare_gt_iff_gt.2 greater, compare_lt_iff_lt.2 (neg_lt_neg greater)]
    rfl

/-- Doubles compare as what they are worth. -/
theorem compare_eq (hx : Canonical x) (hy : Canonical y) (ha : worth? x = some a)
    (hb : worth? y = some b) : x.compare y = some (compare a b) := by
  have size {m : ℕ} (e : ℤ) (positive : 0 < m) : (0 : ℚ) < m * 2 ^ e := by positivity
  obtain ⟨s, rfl, rfl⟩ | ⟨s, m, e, positive, rfl, rfl⟩ := zero_or_finite ha
  · obtain ⟨s', rfl, rfl⟩ | ⟨s', m', e', positive', rfl, rfl⟩ := zero_or_finite hb
    · rfl
    · have := size e' positive'
      cases s' with
      | negative => exact congrArg some (compare_gt_iff_gt.2 (neg_lt_zero.2 this)).symm
      | positive => exact congrArg some (compare_lt_iff_lt.2 this).symm
  · have left := size e positive
    obtain ⟨s', rfl, rfl⟩ | ⟨s', m', e', positive', rfl, rfl⟩ := zero_or_finite hb
    · cases s with
      | negative => exact congrArg some (compare_lt_iff_lt.2 (neg_lt_zero.2 left)).symm
      | positive => exact congrArg some (compare_gt_iff_gt.2 left).symm
    · have right := size e' positive'
      match s, s' with
      | .negative, .negative =>
        show some ((compare e e').then (compare m m')).swap = _
        rw [compare_size hx hy, ← compare_neg_neg]
        rfl
      | .negative, .positive =>
        exact congrArg some (compare_lt_iff_lt.2 ((neg_lt_zero.2 left).trans right)).symm
      | .positive, .negative =>
        exact congrArg some (compare_gt_iff_gt.2 ((neg_lt_zero.2 right).trans left)).symm
      | .positive, .positive => exact congrArg some (compare_size hx hy)

end Toolpath.Double
