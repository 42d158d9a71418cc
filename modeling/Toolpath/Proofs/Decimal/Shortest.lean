import Toolpath.Proofs.Decimal.Plain
import Toolpath.Proofs.Double.Numeral

/-!
# Shortest decimals read back

The shortest decimal of a double is read as that double (`toFloat_shortest`), so that every finite
double is legible (`legible_of_isFinite`). A decimal that is chosen lies in the reach of the double
(`Neighbourhood.Reaches`), ends included where the double is even; everything in the reach is
rounded to the double. On the grid of seventeen digits a step is less than the reach is wide, so
that one of the two neighbours of the double lies in it.
-/

namespace Toolpath

open Double (IsDouble NearestEven Worth Rounds rounds_toFloat)

namespace Neighbourhood

variable {n : Neighbourhood}

/-- A number lies in the reach, which has its ends where it is closed. -/
def Reaches (n : Neighbourhood) (r : ℚ) : Prop :=
  if n.closed then n.value - n.below ≤ r * n.unit ∧ r * n.unit ≤ n.value + n.above
  else n.value - n.below < r * n.unit ∧ r * n.unit < n.value + n.above

/-- A reach with something on both sides of the value. -/
structure Proper (n : Neighbourhood) : Prop where
  unit : 0 < n.unit
  below : 0 < n.below
  above : 0 < n.above

/-! ### One grid -/

lemma Proper.rescale (proper : n.Proper) (k : ℤ) : (n.rescale k).Proper := by
  obtain ⟨unit, below, above⟩ := proper
  constructor <;> simp only [Neighbourhood.rescale, Nat.pow_eq] <;> positivity

lemma reaches_rescale (k : ℤ) (r : ℚ) : (n.rescale k).Reaches r ↔ n.Reaches (r * 10 ^ k) := by
  have finer : (0 : ℚ) < 10 ^ (-k).toNat := by positivity
  have step : r * (n.unit * 10 ^ k.toNat) = r * 10 ^ k * n.unit * 10 ^ (-k).toNat := by
    have : (10 : ℚ) ^ k.toNat = 10 ^ k * 10 ^ (-k).toNat := by
      rw [← zpow_natCast, ← zpow_natCast, ← zpow_add₀ (by norm_num)]
      congr 1
      omega
    rw [this]
    ring
  unfold Reaches rescale
  simp only [Nat.pow_eq, Nat.cast_mul, Nat.cast_pow, Nat.cast_ofNat]
  rw [step, ← sub_mul, ← add_mul]
  simp only [mul_le_mul_iff_left₀ finer, mul_lt_mul_iff_left₀ finer]

lemma within_iff {distance reach : ℕ} :
    n.within distance reach = true ↔ if n.closed then distance ≤ reach else distance < reach := by
  unfold within
  split <;> simp

/-- Of the two whole numbers next to the value one is chosen that is within the reach. -/
lemma within_of_whole? {tie : Tie} {digits : ℕ} (found : n.whole? tie = some digits) :
    digits = n.value / n.unit ∧ n.within (n.value % n.unit) n.below = true ∨
      digits = n.value / n.unit + 1 ∧
        n.within (n.unit - n.value % n.unit) n.above = true := by
  unfold whole? at found
  dsimp only at found
  cases low : n.within (n.value % n.unit) n.below <;>
    cases high : n.within (n.unit - n.value % n.unit) n.above <;> rw [low, high] at found
  case false.false => cases found
  case true.false => exact .inl ⟨(Option.some.inj found).symm, rfl⟩
  case false.true => exact .inr ⟨(Option.some.inj found).symm, rfl⟩
  case true.true =>
    have either : digits = n.value / n.unit ∨ digits = n.value / n.unit + 1 := by
      grind
    exact either.imp (fun same => ⟨same, rfl⟩) fun same => ⟨same, rfl⟩

/-- A whole number that is chosen reads back. -/
lemma Proper.reaches_of_whole? {tie : Tie} {digits : ℕ} (proper : n.Proper)
    (found : n.whole? tie = some digits) : n.Reaches digits := by
  have split : (n.value : ℚ) = (n.value / n.unit : ℕ) * n.unit + (n.value % n.unit : ℕ) := by
    exact_mod_cast (Nat.div_add_mod' n.value n.unit).symm
  have rest : n.value % n.unit < n.unit := Nat.mod_lt _ proper.unit
  have below : (0 : ℚ) < n.below := by exact_mod_cast proper.below
  have above : (0 : ℚ) < n.above := by exact_mod_cast proper.above
  rcases within_of_whole? found with ⟨rfl, near⟩ | ⟨rfl, near⟩
  · have down : (0 : ℚ) ≤ (n.value % n.unit : ℕ) := Nat.cast_nonneg _
    rw [within_iff] at near
    unfold Reaches
    split <;> rename_i closed
    · rw [if_pos closed] at near
      have near : ((n.value % n.unit : ℕ) : ℚ) ≤ n.below := by exact_mod_cast near
      exact ⟨by linarith, by linarith⟩
    · rw [if_neg closed] at near
      have near : ((n.value % n.unit : ℕ) : ℚ) < n.below := by exact_mod_cast near
      exact ⟨by linarith, by linarith⟩
  · have up : ((n.unit - n.value % n.unit : ℕ) : ℚ) = n.unit - (n.value % n.unit : ℕ) :=
      Nat.cast_sub rest.le
    have down : ((n.value % n.unit : ℕ) : ℚ) < n.unit := by exact_mod_cast rest
    rw [within_iff] at near
    unfold Reaches
    push_cast
    split <;> rename_i closed
    · rw [if_pos closed] at near
      have near : ((n.unit - n.value % n.unit : ℕ) : ℚ) ≤ n.above := by exact_mod_cast near
      rw [up] at near
      exact ⟨by linarith, by linarith⟩
    · rw [if_neg closed] at near
      have near : ((n.unit - n.value % n.unit : ℕ) : ℚ) < n.above := by exact_mod_cast near
      rw [up] at near
      exact ⟨by linarith, by linarith⟩

/-- One of the two is, if a step is less than the reach is wide. -/
lemma Proper.whole?_ne_none (proper : n.Proper) (tie : Tie) (fine : n.unit < n.below + n.above) :
    n.whole? tie ≠ none := by
  intro none
  have rest : n.value % n.unit < n.unit := Nat.mod_lt _ proper.unit
  have either : n.within (n.value % n.unit) n.below = true ∨
      n.within (n.unit - n.value % n.unit) n.above = true := by
    simp only [within_iff]
    split <;> omega
  unfold whole? at none
  dsimp only at none
  rcases either with low | high
  · rw [low] at none
    grind
  · rw [high] at none
    grind

/-! ### The search -/

/-- A step of a power of ten is less than the reach is wide. -/
def Fine (n : Neighbourhood) (k : ℤ) : Prop :=
  n.unit * (10 : ℚ) ^ k < n.below + n.above

lemma fine_iff {k : ℤ} :
    n.Fine k ↔ (n.rescale k).unit < (n.rescale k).below + (n.rescale k).above := by
  have finer : (0 : ℚ) < 10 ^ (-k).toNat := by positivity
  have step : (10 : ℚ) ^ k * 10 ^ (-k).toNat = 10 ^ k.toNat := by
    rw [← zpow_natCast, ← zpow_natCast, ← zpow_add₀ (by norm_num)]
    congr 1
    omega
  unfold Fine rescale
  rw [← mul_lt_mul_iff_left₀ finer, mul_assoc, step]
  simp only [Nat.pow_eq]
  rw [← @Nat.cast_lt ℚ]
  push_cast
  rw [add_mul]

/-- What the search comes to reads back, if the last grid that it tries is fine enough. -/
lemma Proper.reaches_search (proper : n.Proper) (tie : Tie) (top : ℤ) {fuel count last : ℕ}
    (tried : count ≤ last) (ends : count + fuel = last + 1) (fine : n.Fine (top - last)) :
    n.Reaches ((n.search tie top fuel count).1 * 10 ^ (n.search tie top fuel count).2) := by
  induction fuel generalizing count with
  | zero => omega
  | succ fuel ih =>
    rw [search]
    cases found : (n.rescale (top - count)).whole? tie with
    | some digits =>
      rw [← reaches_rescale]
      exact (proper.rescale _).reaches_of_whole? found
    | none =>
      -- The last grid has a whole number that reads back, so this one was not the last.
      have notLast : count ≠ last := by
        rintro rfl
        exact (proper.rescale _).whole?_ne_none tie (fine_iff.1 fine) found
      exact ih (by omega) (by omega)

/-- No number is less than the power of ten that its magnitude tells. -/
lemma Proper.zpow_magnitude_le (proper : n.Proper) (value : 0 < n.value) :
    n.unit * (10 : ℚ) ^ (n.magnitude - 1) ≤ n.value := by
  unfold magnitude
  split
  case isTrue whole =>
    obtain ⟨k, length⟩ : ∃ k, (Nat.toDigits 10 (n.value / n.unit)).length = k + 1 :=
      Nat.exists_eq_add_one_of_ne_zero (List.length_pos_iff.2 Nat.toDigits_ne_nil).ne'
    have low := (Double.pow_le_of_length_toDigits (Nat.div_pos whole proper.unit).ne' length).1
    have times : n.unit * 10 ^ k ≤ n.value :=
      (Nat.mul_le_mul_left _ low).trans (Nat.mul_div_le _ _)
    rw [length, Nat.cast_add_one, add_sub_cancel_right, zpow_natCast]
    exact_mod_cast times
  case isFalse broken =>
    obtain ⟨k, length⟩ : ∃ k,
        (Nat.toDigits 10 ((n.unit + n.value - 1) / n.value - 1)).length = k + 1 :=
      Nat.exists_eq_add_one_of_ne_zero (List.length_pos_iff.2 Nat.toDigits_ne_nil).ne'
    have high := (Nat.length_toDigits_le_iff (by norm_num) (Nat.succ_pos k)).1 length.le
    have times : n.unit ≤ 10 ^ (k + 1) * n.value := by
      have ceiling : (n.unit + n.value - 1) / n.value < 10 ^ (k + 1) + 1 := by omega
      rw [Nat.div_lt_iff_lt_mul value, add_mul] at ceiling
      omega
    have times : (n.unit : ℚ) ≤ 10 ^ (k + 1) * n.value := by exact_mod_cast times
    rw [length, sub_sub_cancel_left, zpow_neg, zpow_natCast, ← div_eq_mul_inv,
      div_le_iff₀ (by positivity), mul_comm]
    exact times

end Neighbourhood

/-! ### Numerals of the same worth -/

namespace Decimal

lemma toReal_eq_toRat (d : Decimal) : d.toReal = d.toRat := by
  unfold toReal toRat
  cases d.negative <;> simp

lemma toRat_spelled (d : Decimal) : d.spelled.toRat = d.toRat := by
  have same := d.toReal_spelled
  rw [toReal_eq_toRat, toReal_eq_toRat] at same
  exact_mod_cast same

/-- Zeros at the end of the digits do not count. -/
lemma toRat_trim (negative : Bool) (digits : ℕ) (exponent : ℤ) :
    (trim negative digits exponent).toRat = (mk negative digits exponent).toRat := by
  fun_induction trim negative digits exponent with
  | case1 digits exponent zero ih =>
    obtain ⟨k, rfl⟩ : ∃ k, digits = k * 10 := ⟨digits / 10, by omega⟩
    rw [ih, Nat.mul_div_cancel _ (by norm_num), toRat, toRat, zpow_add_one₀ (by norm_num)]
    push_cast
    ring
  | case2 => rfl

end Decimal

/-! ### The reach of a double -/

/-- The significand of a double has fifty-three bits, or fewer at the least exponent. -/
structure Binary.Canonical (b : Binary) : Prop where
  bits : b.significand < 2 ^ 53
  full : b.exponent = -1074 ∨ 2 ^ 52 ≤ b.significand
  low : -1074 ≤ b.exponent

lemma Binary.canonical_of_ofFloat? {x : Float} {b : Binary} (parts : Binary.ofFloat? x = some b) :
    b.Canonical := by
  have range := x.toBits.toNat.mod_lt (y := leastFull) (by decide)
  unfold Binary.ofFloat? at parts
  dsimp only at parts
  split at parts
  · cases parts
  · split at parts
    · cases parts
      exact ⟨range.trans (by decide), .inl rfl, le_refl _⟩
    case isFalse first =>
      cases parts
      refine ⟨?_, .inr (Nat.le_add_right _ _), ?_⟩
      · simp only [leastFull] at range ⊢
        omega
      · simp only [leastExponent]
        omega

namespace Neighbourhood

variable {b : Binary}

/-- How far the reach of a double goes down, in quarters of its last place. -/
def quartersBelow (b : Binary) : ℕ :=
  if b.significand = Binary.leastFull ∧ Binary.leastExponent < b.exponent then 1 else 2

lemma ofBinary_eq (b : Binary) :
    let finer := 2 ^ (b.exponent - 2).toNat
    ofBinary b = ⟨4 * b.significand * finer, 2 ^ (-(b.exponent - 2)).toNat, quartersBelow b * finer,
      2 * finer, b.significand % 2 = 0⟩ :=
  rfl

lemma proper_ofBinary (b : Binary) : (ofBinary b).Proper := by
  have low : 0 < quartersBelow b := by
    unfold quartersBelow
    split <;> decide
  rw [ofBinary_eq]
  constructor <;> positivity

/-- The reach of a double in exact arithmetic. -/
lemma bounds_of_reaches {r : ℚ} (reaches : (ofBinary b).Reaches r) :
    let low : ℚ := (4 * b.significand - quartersBelow b) * 2 ^ (b.exponent - 2)
    let high : ℚ := (4 * b.significand + 2) * 2 ^ (b.exponent - 2)
    low ≤ r ∧ r ≤ high ∧ (r = low ∨ r = high → Even b.significand) := by
  have unit : (0 : ℚ) < 2 ^ (-(b.exponent - 2)).toNat := by positivity
  have step : (2 : ℚ) ^ (b.exponent - 2).toNat =
      2 ^ (b.exponent - 2) * 2 ^ (-(b.exponent - 2)).toNat := by
    rw [← zpow_natCast, ← zpow_natCast, ← zpow_add₀ two_ne_zero]
    congr 1
    omega
  rw [ofBinary_eq, Reaches] at reaches
  simp only [decide_eq_true_eq] at reaches
  push_cast at reaches
  rw [step, ← sub_mul, ← add_mul, ← mul_assoc, ← mul_assoc, mul_le_mul_iff_left₀ unit,
    mul_le_mul_iff_left₀ unit, mul_lt_mul_iff_left₀ unit, mul_lt_mul_iff_left₀ unit] at reaches
  intro low high
  split at reaches
  case isTrue even => exact ⟨reaches.1, reaches.2, fun _ => Nat.even_iff.2 even⟩
  case isFalse =>
    refine ⟨reaches.1.le, reaches.2.le, fun ends => ?_⟩
    rcases ends with first | last
    · exact absurd first reaches.1.ne'
    · exact absurd last reaches.2.ne

/-- The quarters of a last place. -/
lemma zpow_eq_four_mul (e : ℤ) : (2 : ℚ) ^ e = 4 * 2 ^ (e - 2) := by
  rw [zpow_sub₀ two_ne_zero]
  ring

lemma isDouble_of_parts (canonical : b.Canonical) :
    IsDouble ((b.significand : ℤ) * 2 ^ b.exponent) := by
  refine ⟨b.significand, b.exponent, ?_, canonical.low, rfl⟩
  rw [Nat.abs_cast]
  exact_mod_cast canonical.bits.le

/-- Nothing in the reach of a double is rounded to a greater one. -/
lemma le_of_reaches {v r : ℚ} (canonical : b.Canonical) (reaches : (ofBinary b).Reaches r)
    (nearest : NearestEven v r) : v ≤ (b.significand : ℤ) * 2 ^ b.exponent := by
  obtain ⟨_, below, ends⟩ := bounds_of_reaches reaches
  have full : b.exponent = -1074 ∨ (2 ^ 52 : ℤ) ≤ b.significand := by
    exact_mod_cast canonical.full
  have half : ((b.significand : ℤ) + 1 / 2 : ℚ) * 2 ^ b.exponent =
      (4 * b.significand + 2) * 2 ^ (b.exponent - 2) := by
    rw [zpow_eq_four_mul b.exponent]
    push_cast
    ring
  refine nearest.le_of_le_half (isDouble_of_parts canonical) full (below.trans_eq half.symm)
    fun tie => ?_
  exact_mod_cast ends (.inr (tie.trans half))

/-- Nothing in the reach of a double is rounded to a lesser one. -/
lemma ge_of_reaches {v r : ℚ} (canonical : b.Canonical) (reaches : (ofBinary b).Reaches r)
    (nearest : NearestEven v r) : (b.significand : ℤ) * 2 ^ b.exponent ≤ v := by
  obtain ⟨above, _, ends⟩ := bounds_of_reaches reaches
  have double := isDouble_of_parts canonical
  by_cases narrow : b.significand = Binary.leastFull ∧ Binary.leastExponent < b.exponent
  case pos =>
    -- Below the first double with its exponent the steps are half as large.
    have halfStep : (2 : ℚ) ^ b.exponent = 2 * 2 ^ (b.exponent - 1) := by
      rw [zpow_sub_one₀ two_ne_zero]
      ring
    have finer : ((b.significand : ℤ) : ℚ) * 2 ^ b.exponent =
        (2 * b.significand : ℤ) * 2 ^ (b.exponent - 1) := by
      rw [halfStep]
      push_cast
      ring
    have half : ((2 * b.significand : ℤ) - 1 / 2 : ℚ) * 2 ^ (b.exponent - 1) =
        (4 * b.significand - quartersBelow b) * 2 ^ (b.exponent - 2) := by
      have quarter := zpow_eq_four_mul b.exponent
      rw [halfStep] at quarter
      rw [quartersBelow, if_pos narrow]
      push_cast
      linear_combination (b.significand - 1 / 4) * quarter
    have more : (2 ^ 52 : ℤ) < 2 * b.significand := by
      rw [narrow.1]
      decide
    rw [finer] at double ⊢
    exact nearest.ge_of_half_le double (.inr more) (half.trans_le above) fun _ => even_two_mul _
  case neg =>
    have half : ((b.significand : ℤ) - 1 / 2 : ℚ) * 2 ^ b.exponent =
        (4 * b.significand - quartersBelow b) * 2 ^ (b.exponent - 2) := by
      rw [zpow_eq_four_mul b.exponent, quartersBelow, if_neg narrow]
      push_cast
      ring
    have more : b.exponent = -1074 ∨ (2 ^ 52 : ℤ) < b.significand := by
      have low := canonical.low
      simp only [Binary.leastFull, Binary.leastExponent] at narrow
      have full := canonical.full
      omega
    refine nearest.ge_of_half_le double more (half.trans_le above) fun tie => ?_
    exact_mod_cast ends (.inl (tie.trans half))

/-- Everything in the reach of a double is rounded to it. -/
lemma eq_of_reaches {v r : ℚ} (canonical : b.Canonical) (reaches : (ofBinary b).Reaches r)
    (nearest : NearestEven v r) : v = b.significand * 2 ^ b.exponent := by
  have upper := le_of_reaches canonical reaches nearest
  have lower := ge_of_reaches canonical reaches nearest
  exact_mod_cast le_antisymm upper lower

/-- On the grid of seventeen digits a step is less than the reach is wide. -/
lemma fine_ofBinary (canonical : b.Canonical) (some : b.significand ≠ 0) :
    (ofBinary b).Fine ((ofBinary b).magnitude - 17) := by
  have finer : (0 : ℚ) < 2 ^ (b.exponent - 2).toNat := by positivity
  have leading := (proper_ofBinary b).zpow_magnitude_le
    (by simp [ofBinary_eq, Nat.pos_of_ne_zero some])
  have digits : (10 : ℚ) ^ ((ofBinary b).magnitude - 17) * 10 ^ 16 =
      10 ^ ((ofBinary b).magnitude - 1) := by
    rw [← zpow_natCast, ← zpow_add₀ (by norm_num)]
    congr 1
    push_cast
    ring
  have bits : 4 * b.significand < (quartersBelow b + 2) * 10 ^ 16 := by
    have few := canonical.bits
    unfold quartersBelow
    split
    case isTrue narrow =>
      rw [narrow.1]
      decide
    case isFalse => omega
  have bits : (4 * b.significand : ℚ) < (quartersBelow b + 2) * 10 ^ 16 := by exact_mod_cast bits
  have size : (ofBinary b).value = (4 * b.significand : ℚ) * 2 ^ (b.exponent - 2).toNat := by
    rw [ofBinary_eq]
    push_cast
    ring
  have reach : ((ofBinary b).below + (ofBinary b).above : ℚ) =
      (quartersBelow b + 2) * 2 ^ (b.exponent - 2).toNat := by
    rw [ofBinary_eq]
    push_cast
    ring
  rw [size, ← digits, ← mul_assoc] at leading
  rw [Fine, reach]
  refine lt_of_mul_lt_mul_right (leading.trans_lt ?_) (by norm_num : (0 : ℚ) ≤ 10 ^ 16)
  calc (4 * b.significand : ℚ) * 2 ^ (b.exponent - 2).toNat
      < (quartersBelow b + 2) * 10 ^ 16 * 2 ^ (b.exponent - 2).toNat := by gcongr
    _ = (quartersBelow b + 2) * 2 ^ (b.exponent - 2).toNat * 10 ^ 16 := by ring

end Neighbourhood

/-! ### Reading back -/

namespace Binary

variable {b : Binary} {x : Float}

/-- The shortest decimal lies in the reach, with the sign of the double. -/
lemma exists_reaches_shortest (tie : Tie) (canonical : b.Canonical) (some : b.significand ≠ 0) :
    ∃ r, (Neighbourhood.ofBinary b).Reaches r ∧
      (b.shortest tie).toRat = Double.signed (Double.binarySign b) r := by
  have found := (Neighbourhood.proper_ofBinary b).reaches_search tie
    (Neighbourhood.ofBinary b).magnitude (by decide : 1 ≤ 17) (by decide : 1 + 17 = 17 + 1)
    (Neighbourhood.fine_ofBinary canonical some)
  refine ⟨_, found, ?_⟩
  rw [shortest, if_neg some, Decimal.toRat_trim, Decimal.toRat, Double.binarySign]
  cases b.negative with
  | false => exact one_mul _
  | true => exact neg_one_mul _

/-- A double without a significand is one of the two zeros. -/
lemma eq_zero_of_ofFloat? (parts : Binary.ofFloat? x = some b) (zero : b.significand = 0) :
    x = if b.negative then -0.0 else 0.0 := by
  have range := x.toBits.toNat_lt
  have zeros : (0.0 : Float).toBits.toNat = 0 ∧ (-0.0 : Float).toBits.toNat = 2 ^ 63 := by
    decide +kernel
  unfold ofFloat? at parts
  dsimp only at parts
  split at parts
  · cases parts
  · split at parts
    case isTrue first =>
      cases parts
      have full : leastFull = 2 ^ 52 := rfl
      have fraction : x.toBits.toNat % leastFull = 0 := zero
      apply Double.eq_of_toNat_toBits
      by_cases negative : 2048 ≤ x.toBits.toNat / leastFull
      · rw [decide_eq_true negative, if_pos rfl, zeros.2]
        rw [full] at first fraction negative
        omega
      · rw [decide_eq_false negative, if_neg Bool.false_ne_true, zeros.1]
        rw [full] at first fraction negative
        omega
    case isFalse =>
      cases parts
      simp [leastFull] at zero

/-- The shortest decimal of a double is read as this double. -/
theorem toFloat_shortest (tie : Tie) (parts : Binary.ofFloat? x = some b) :
    (b.shortest tie).spelled.toFloat = x := by
  by_cases some : b.significand = 0
  case pos =>
    rw [eq_zero_of_ofFloat? parts some, shortest, if_pos some]
    cases b.negative <;> decide +kernel
  case neg =>
    have canonical := canonical_of_ofFloat? parts
    have worth : Worth x (Double.binaryWorth b) := by
      rw [Worth, Double.worth?_unpack, parts, Option.map_some]
    obtain ⟨r, reaches, number⟩ := exists_reaches_shortest tie canonical some
    obtain ⟨v, nearest, worth'⟩ := (rounds_toFloat (b.shortest tie).spelled).nearest
    -- Up to its sign, the decimal is rounded to the size of the double.
    have size := nearest.signed (Double.binarySign b)
    rw [Decimal.toRat_spelled, number, Double.signed_signed] at size
    have size := Neighbourhood.eq_of_reaches canonical reaches size
    have same : v = Double.binaryWorth b := by
      rw [Double.binaryWorth, ← size, Double.signed_signed]
    have nonzero : Double.binaryWorth b ≠ 0 := by
      have positive : (0 : ℚ) < b.significand * 2 ^ b.exponent := by
        have := Nat.pos_of_ne_zero some
        positivity
      rw [← abs_pos, Double.binaryWorth, Double.abs_signed, abs_of_pos positive]
      exact positive
    rw [same] at worth'
    exact (worth' worth.abs_lt).eq_of_ne_zero worth nonzero

end Binary

/-- Every finite double is written as a plain decimal that stands for it. -/
theorem legible_of_isFinite {x : Float} (finite : x.isFinite = true) : Scalar.Legible x := by
  obtain ⟨v, worth⟩ := Double.isFinite_iff.1 finite
  rw [Worth, Double.worth?_unpack] at worth
  obtain ⟨b, parts, _⟩ := Option.map_eq_some_iff.1 worth
  refine ⟨finite, b.shortest .away, ?_, Binary.toFloat_shortest .away parts⟩
  show Layout.plain.float x = _
  rw [Layout.float, parts]
  rfl

end Toolpath
