import Toolpath.Proofs.Double.Nearest

/-!
# How doubles are rounded

Every operation on doubles ends in `roundWithAccuracy`: a mantissa is shifted until it has
fifty-three bits, while two residual bits keep track of what is shifted out, and then rounded. Here
the residual bits are read as a fraction (`Holds`), a shift halves the number that is held
(`Holds.shiftRight`), and the rounded mantissa is the whole number nearest to it, the even one of
two. The result of the module, `rounded_roundWithAccuracy`, says that what comes out is a nearest
double, the even one of two.
-/

namespace Toolpath.Double

open Float.Model (Format UnpackedFloat totalExponent)
open Float.Model.UnpackedFloat

/-! ### Residual bits -/

/-- How far a number lies above a mantissa of which the accuracy is known. -/
def Tells : Accuracy → ℚ → Prop
  | .exact, x => x = 0
  | .inexact .lt, x => 0 < x ∧ x < 1 / 2
  | .inexact .eq, x => x = 1 / 2
  | .inexact .gt, x => 1 / 2 < x ∧ x < 1

/-- A number is held by a mantissa, a bit for its half and a bit for whatever else there is. -/
def Holds (em : ExtendedMantissa) (r : ℚ) : Prop :=
  ∃ f : ℚ, 0 ≤ f ∧ f < 1 ∧ (em.stickyBit = true ↔ f ≠ 0) ∧
    r = em.mantissa + (em.roundBit.toNat + f) / 2

lemma holds_ofMantissaAndAccuracy {m : ℕ} {accuracy : Accuracy} {r : ℚ}
    (tells : Tells accuracy (r - m)) :
    Holds (ExtendedMantissa.ofMantissaAndAccuracy m accuracy) r := by
  simp only [Holds, ExtendedMantissa.ofMantissaAndAccuracy]
  cases accuracy with
  | exact =>
    have : r = m := sub_eq_zero.1 tells
    exact ⟨0, le_refl 0, one_pos, by simp, by simp [this]⟩
  | inexact order =>
    cases order with
    | lt =>
      obtain ⟨low, high⟩ := tells
      refine ⟨2 * (r - m), by linarith, by linarith, ?_, ?_⟩
      · simp [low.ne']
      · simp
    | eq =>
      have : r - m = 1 / 2 := tells
      refine ⟨0, le_refl 0, one_pos, by simp, ?_⟩
      simp only [Bool.toNat_true]
      push_cast
      linarith
    | gt =>
      obtain ⟨low, high⟩ := tells
      refine ⟨2 * (r - m) - 1, by linarith, by linarith, ?_, ?_⟩
      · have : 2 * (r - m) - 1 ≠ 0 := by linarith
        simp [this]
      · simp only [Bool.toNat_true]
        push_cast
        ring

namespace Holds

variable {em : ExtendedMantissa} {r : ℚ}

/-- A shift by one halves what is held. -/
lemma shiftRightOne (holds : Holds em r) : Holds em.shiftRightOne (r / 2) := by
  obtain ⟨f, low, high, sticky, rfl⟩ := holds
  refine ⟨(em.roundBit.toNat + f) / 2, ?_, ?_, ?_, ?_⟩
  · positivity
  · cases em.roundBit <;> norm_num <;> linarith
  · cases round : em.roundBit with
    | false => simp [ExtendedMantissa.shiftRightOne, round, sticky]
    | true =>
      have : (1 + f) / 2 ≠ 0 := by positivity
      simp [ExtendedMantissa.shiftRightOne, round, this]
  · have halves : (em.mantissa : ℚ) = 2 * (em.mantissa / 2 : ℕ) + (em.mantissa % 2 : ℕ) := by
      exact_mod_cast (Nat.div_add_mod em.mantissa 2).symm
    have last : ((em.mantissa % 2 != 0).toNat : ℚ) = (em.mantissa % 2 : ℕ) := by
      rcases Nat.mod_two_eq_zero_or_one em.mantissa with even | odd
      · simp [even]
      · simp [odd]
    simp only [ExtendedMantissa.shiftRightOne]
    rw [last, halves]
    ring

/-- A shift halves what is held, as often as it says. -/
lemma shiftRight (holds : Holds em r) (n : ℕ) : Holds (em >>> n) (r / 2 ^ n) := by
  induction n with
  | zero =>
    rw [pow_zero, div_one]
    exact holds
  | succ n ih =>
    have := ih.shiftRightOne
    rwa [div_div, ← pow_succ] at this

/-- A mantissa is not more than what it holds. -/
lemma mantissa_le (holds : Holds em r) : (em.mantissa : ℚ) ≤ r := by
  obtain ⟨f, low, high, sticky, rfl⟩ := holds
  have : (0 : ℚ) ≤ (em.roundBit.toNat + f) / 2 := by positivity
  linarith

/-- The rounded mantissa is within a half of what is held, and even where another one is as
near. -/
lemma halfEven (holds : Holds em r) : HalfEven em.roundedMantissa r := by
  obtain ⟨f, low, high, sticky, rfl⟩ := holds
  obtain ⟨m, round, stick⟩ := em
  simp only at sticky
  cases round <;> cases stick
  case false.false =>
    have : f = 0 := by simpa using sticky
    subst this
    constructor <;> simp [ExtendedMantissa.roundedMantissa, ExtendedMantissa.accuracy,
      Accuracy.roundToNearestEven]
  case false.true =>
    have some : 0 < f := lt_of_le_of_ne low (Ne.symm (sticky.1 rfl))
    simp only [ExtendedMantissa.roundedMantissa, ExtendedMantissa.accuracy,
      Accuracy.roundToNearestEven, Bool.toNat_false]
    have strict : |((m : ℤ) : ℚ) - (m + ((0 : ℕ) + f) / 2)| < 1 / 2 := by
      rw [abs_lt]
      constructor <;> push_cast <;> linarith
    exact ⟨strict.le, fun tie => absurd tie strict.ne⟩
  case true.false =>
    have : f = 0 := by simpa using sticky
    subst this
    simp only [ExtendedMantissa.roundedMantissa, ExtendedMantissa.accuracy,
      Accuracy.roundToNearestEven, Bool.toNat_true]
    rcases Nat.mod_two_eq_zero_or_one m with even | odd
    · rw [even]
      refine ⟨?_, fun _ => by exact_mod_cast Nat.even_iff.2 even⟩
      rw [abs_le]
      constructor <;> push_cast <;> linarith
    · rw [odd]
      refine ⟨?_, fun _ => by exact_mod_cast Nat.even_iff.2 (by omega)⟩
      rw [abs_le]
      constructor <;> push_cast <;> linarith
  case true.true =>
    have some : 0 < f := lt_of_le_of_ne low (Ne.symm (sticky.1 rfl))
    simp only [ExtendedMantissa.roundedMantissa, ExtendedMantissa.accuracy,
      Accuracy.roundToNearestEven, Bool.toNat_true]
    have strict : |((m + 1 : ℕ) : ℤ) - (m + ((1 : ℕ) + f) / 2)| < 1 / 2 := by
      rw [abs_lt]
      constructor <;> push_cast <;> linarith
    exact ⟨strict.le, fun tie => absurd tie strict.ne⟩

end Holds

/-- Rounding a mantissa adds at most one to it. -/
lemma roundedMantissa_le (em : ExtendedMantissa) : em.roundedMantissa ≤ em.mantissa + 1 := by
  obtain ⟨m, round, stick⟩ := em
  cases round <;> cases stick <;>
    simp only [ExtendedMantissa.roundedMantissa, ExtendedMantissa.accuracy,
      Accuracy.roundToNearestEven] <;> omega

/-- Rounding a mantissa does not make it less. -/
lemma le_roundedMantissa (em : ExtendedMantissa) : em.mantissa ≤ em.roundedMantissa := by
  obtain ⟨m, round, stick⟩ := em
  cases round <;> cases stick <;>
    simp only [ExtendedMantissa.roundedMantissa, ExtendedMantissa.accuracy,
      Accuracy.roundToNearestEven] <;> omega

@[simp] lemma mantissa_ofMantissaAndAccuracy (m : ℕ) (accuracy : Accuracy) :
    (ExtendedMantissa.ofMantissaAndAccuracy m accuracy).mantissa = m := by
  cases accuracy with
  | exact => rfl
  | inexact order => cases order <;> rfl

/-- What is left of a mantissa that is shifted. -/
lemma mantissa_shiftRight (em : ExtendedMantissa) (n : ℕ) :
    (em >>> n).mantissa = em.mantissa / 2 ^ n := by
  induction n with
  | zero => exact (Nat.div_one _).symm
  | succ n ih =>
    have : (em >>> (n + 1)).mantissa = (em >>> n).mantissa / 2 := rfl
    rw [this, ih, Nat.div_div_eq_div_mul, ← pow_succ]

/-! ### Exponents -/

/-- The exponent that a mantissa and its exponent are to be brought to. -/
def target (m : ℕ) (e : ℤ) : ℤ :=
  max (m.log2 + e - 52) (-1074)

lemma targetExponent_eq (m : ℕ) (e : ℤ) :
    Format.binary64.targetExponent (totalExponent m e) = target m e := by
  have bits : (Format.binary64.mantissaBits : ℤ) = 53 := rfl
  have least : Format.binary64.minExponent = -1074 := rfl
  rw [Format.targetExponent, bits, least, totalExponent, target]
  congr 1
  ring

lemma shiftToTargetExponent_eq (m : ℕ) (e : ℤ) (accuracy : Accuracy) :
    shiftToTargetExponent Format.binary64 m e accuracy =
      (ExtendedMantissa.ofMantissaAndAccuracy m accuracy >>> (target m e - e).toNat,
        e + (target m e - e).toNat) := by
  rw [shiftToTargetExponent, targetExponent_eq]
  rfl

/-- What is left has at most fifty-three bits. -/
lemma div_lt_of_target {m n : ℕ} {e : ℤ} (shifted : target m e = e + n) :
    m / 2 ^ n < 2 ^ 53 := by
  have enough : m.log2 + 1 ≤ 53 + n := by
    unfold target at shifted
    omega
  rw [Nat.div_lt_iff_lt_mul (by positivity), ← pow_add]
  exact Nat.lt_log2_self.trans_le (Nat.pow_le_pow_right two_pos enough)

/-- What is left has fifty-three bits, unless the exponent is the least. -/
lemma le_div_of_target {m n : ℕ} {e : ℤ} (shifted : target m e = e + n) :
    target m e = -1074 ∨ 2 ^ 52 ≤ m / 2 ^ n := by
  by_cases least : target m e = -1074
  · exact .inl least
  · refine .inr ?_
    have exactly : m.log2 = 52 + n := by
      unfold target at shifted least
      omega
    have positive : m ≠ 0 := by
      rintro rfl
      simp at exactly
      omega
    rw [Nat.le_div_iff_mul_le (by positivity), ← pow_add, ← exactly]
    exact Nat.log2_self_le positive

/-- A mantissa with fifty-three bits stays, and one with fewer stays at the least exponent. -/
lemma target_of_lt {m : ℕ} {e : ℤ} (low : e = -1074 ∨ 2 ^ 52 ≤ m ∧ -1074 ≤ e)
    (high : m < 2 ^ 53) : target m e = e := by
  have few : m.log2 ≤ 52 := by
    by_cases zero : m = 0
    · simp [zero]
    · exact Nat.lt_succ_iff.1 ((Nat.log2_lt zero).2 high)
  unfold target
  rcases low with least | ⟨low, above⟩
  · omega
  · have many : 52 ≤ m.log2 := (Nat.le_log2 (by omega)).2 low
    omega

/-- A mantissa that was rounded up to fifty-four bits moves by one. -/
lemma target_two_pow {e : ℤ} (low : -1074 ≤ e) : target (2 ^ 53) e = e + 1 := by
  have bits : Nat.log2 (2 ^ 53) = 53 := Nat.log2_two_pow
  rw [target, bits]
  omega

/-! ### What comes out -/

/-- A size with a sign. -/
def signed : Sign → ℚ → ℚ
  | .negative, x => -x
  | .positive, x => x

/-- The number that an unpacked double is worth, if it is finite. -/
def worth? : UnpackedFloat → Option ℚ
  | .zero _ => some 0
  | .finite sign m e _ => some (signed sign (m * 2 ^ e))
  | _ => none

/-- What is worth a number is a zero or has a mantissa. -/
lemma zero_or_finite {u : UnpackedFloat} {v : ℚ} (worth : worth? u = some v) :
    (∃ s, u = .zero s ∧ v = 0) ∨
      ∃ s m e, ∃ positive : 0 < m, u = .finite s m e positive ∧ v = signed s (m * 2 ^ e) := by
  cases u with
  | infinity s => cases worth
  | notANumber => cases worth
  | zero s => exact .inl ⟨s, rfl, (Option.some.inj worth).symm⟩
  | finite s m e positive =>
    exact .inr ⟨s, m, e, positive, rfl, (Option.some.inj worth).symm⟩

/-- An unpacked double with its mantissa at the exponent that it is to have. -/
def Canonical : UnpackedFloat → Prop
  | .finite _ m e _ => target m e = e
  | _ => True

/-- What rounding gives: a canonical form of a nearest double. -/
def Rounded (u : UnpackedFloat) (r : ℚ) : Prop :=
  Canonical u ∧ ∃ v, worth? u = some v ∧ NearestEven v r

lemma NearestEven.signed {v r : ℚ} (nearest : NearestEven v r) (sign : Sign) :
    NearestEven (signed sign v) (signed sign r) := by
  cases sign with
  | negative => exact nearest.neg
  | positive => exact nearest

/-- The second shift only moves a mantissa that was rounded up to fifty-four bits. -/
lemma shift_rounded {R : ℕ} {T : ℤ} (low : T = -1074 ∨ 2 ^ 52 ≤ R ∧ -1074 ≤ T)
    (high : R ≤ 2 ^ 53) :
    let shifted := shiftToTargetExponent Format.binary64 R T .exact
    target shifted.1.mantissa shifted.2 = shifted.2 ∧
      (shifted.1.mantissa : ℚ) * 2 ^ shifted.2 = R * 2 ^ T := by
  rw [shiftToTargetExponent_eq]
  simp only [mantissa_shiftRight, mantissa_ofMantissaAndAccuracy]
  rcases high.lt_or_eq with few | rfl
  · have settled := target_of_lt low few
    simp [settled]
  · have least : -1074 ≤ T := by
      rcases low with least | ⟨_, above⟩
      · exact least.ge
      · exact above
    rw [target_two_pow least, show T + 1 - T = 1 by ring]
    have half : 2 ^ 53 / 2 ^ Int.toNat 1 = 2 ^ 52 := by norm_num
    have one : T + (Int.toNat 1 : ℤ) = T + 1 := rfl
    rw [half, one]
    refine ⟨target_of_lt (.inr ⟨le_refl _, by omega⟩) (by norm_num), ?_⟩
    rw [zpow_add_one₀ two_ne_zero]
    push_cast
    ring

/-- Rounding gives a nearest double, if no bit is missing at the front. -/
theorem rounded_roundWithAccuracy {sign : Sign} {m : ℕ} {e : ℤ} {accuracy : Accuracy} {r : ℚ}
    (fine : e ≤ target m e) (tells : Tells accuracy (r - m)) :
    Rounded (roundWithAccuracy Format.binary64 sign m e accuracy) (signed sign (r * 2 ^ e)) := by
  obtain ⟨n, shifted⟩ : ∃ n : ℕ, target m e = e + n := ⟨(target m e - e).toNat, by omega⟩
  have held := (holds_ofMantissaAndAccuracy tells).shiftRight n
  have left := mantissa_shiftRight (ExtendedMantissa.ofMantissaAndAccuracy m accuracy) n
  rw [mantissa_ofMantissaAndAccuracy] at left
  have few := div_lt_of_target shifted
  have many := le_div_of_target shifted
  have first := shiftToTargetExponent_eq m e accuracy
  rw [show (target m e - e).toNat = n by omega, ← shifted] at first
  have least : -1074 ≤ target m e := le_max_right _ _
  have amount : r * 2 ^ e = r / 2 ^ n * 2 ^ target m e := by
    rw [shifted, zpow_add₀ two_ne_zero, zpow_natCast]
    field_simp
  rw [amount]
  rw [← left] at few many
  generalize ExtendedMantissa.ofMantissaAndAccuracy m accuracy >>> n = em at held few many first
  generalize target m e = T at few many first least ⊢
  generalize r / 2 ^ n = x at held
  have up := roundedMantissa_le em
  have down := le_roundedMantissa em
  obtain ⟨settled, same⟩ := shift_rounded (R := em.roundedMantissa) (T := T) (by omega) (by omega)
  have nearest : NearestEven (em.roundedMantissa * 2 ^ T) (x * 2 ^ T) := by
    have reached : T = -1074 ∨ 2 ^ 52 ≤ x := by
      refine many.imp_right fun many => ?_
      have : (2 ^ 52 : ℚ) ≤ em.mantissa := by exact_mod_cast many
      exact this.trans held.mantissa_le
    have bits : |(em.roundedMantissa : ℤ)| ≤ 2 ^ 53 := by
      rw [Nat.abs_cast]
      omega
    exact_mod_cast held.halfEven.nearest bits least reached
  unfold roundWithAccuracy
  rw [first]
  simp only
  rw [← same] at nearest
  split
  case isTrue zero =>
    refine ⟨trivial, 0, rfl, ?_⟩
    rw [zero, Nat.cast_zero, zero_mul] at nearest
    have := nearest.signed sign
    cases sign with
    | negative => simpa [Double.signed] using this
    | positive => exact this
  case isFalse nonzero => exact ⟨settled, _, rfl, nearest.signed sign⟩

end Toolpath.Double
