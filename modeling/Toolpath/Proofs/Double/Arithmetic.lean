import Toolpath.Proofs.Double.Packing

/-!
# The arithmetic of doubles

`Worth x v` says that the double `x` is finite and stands for the number `v`. Sums, differences,
products and quotients of such doubles are known by `Rounds`: they are worth a nearest double of the
exact result, unless this is beyond every double. Comparisons are those of the numbers.
-/

namespace Toolpath.Double

open Float.Model (Format UnpackedFloat)
open Float.Model.UnpackedFloat

/-- A double is finite and stands for a number. -/
def Worth (x : Float) (v : ℚ) : Prop :=
  worth? x.toModel.unpack = some v

instance {x : Float} {v : ℚ} : Decidable (Worth x v) :=
  inferInstanceAs (Decidable (_ = _))

/-- The first power of two beyond all doubles. -/
def beyond : ℚ := 2 ^ (1024 : ℤ)

/-- A double is the result of rounding a number: a nearest double, the even one of two, if it is not
beyond the last. -/
structure Rounds (x : Float) (r : ℚ) : Prop where
  isNaN : x.isNaN = false
  nearest : ∃ v, NearestEven v r ∧ (|v| < beyond → Worth x v)

variable {x y z : Float} {a b r v w : ℚ}

/-! ### What doubles are worth -/

lemma canonical (x : Float) : Canonical x.toModel.unpack ∧ Fits x.toModel.unpack :=
  canonical_unpack x.toModel.toBits.toBitVec

namespace Worth

lemma unique (hx : Worth x v) (hx' : Worth x w) : v = w :=
  Option.some.inj (hx.symm.trans hx')

lemma isDouble (hx : Worth x v) : IsDouble v :=
  isDouble_of_canonical (canonical x).1 hx

end Worth

lemma Worth.isNaN (hx : Worth x v) : x.isNaN = false := by
  show x.toModel.unpack.isNaN = false
  obtain ⟨_, hu, _⟩ | ⟨_, _, _, _, hu, _⟩ := zero_or_finite hx <;> rw [hu] <;> rfl

lemma isFinite_iff : x.isFinite = true ↔ ∃ v, Worth x v := by
  show x.toModel.unpack.isFinite = true ↔ ∃ v, worth? x.toModel.unpack = some v
  cases x.toModel.unpack <;> simp [UnpackedFloat.isFinite, worth?]

lemma abs_signed (sign : Sign) (v : ℚ) : |signed sign v| = |v| := by
  cases sign with
  | negative => exact abs_neg v
  | positive => rfl

/-- What fits is a step of the largest doubles away from the first power of two beyond all. -/
lemma add_le_of_fits {u : UnpackedFloat} (canonical : Canonical u) (worth : worth? u = some v)
    (fits : Fits u) : |v| + 2 ^ (971 : ℤ) ≤ beyond := by
  obtain ⟨sign, rfl, rfl⟩ | ⟨sign, m, e, positive, rfl, rfl⟩ := zero_or_finite worth
  · rw [abs_zero, zero_add]
    exact zpow_le_zpow_right₀ (by norm_num) (by norm_num)
  · have settled : target m e = e := canonical
    have last : e ≤ 971 := fits
    have few : (m : ℚ) + 1 ≤ 2 ^ 53 := by exact_mod_cast lt_of_target settled
    rw [abs_signed, abs_of_nonneg (by positivity)]
    calc (m : ℚ) * 2 ^ e + 2 ^ (971 : ℤ) ≤ m * 2 ^ (971 : ℤ) + 2 ^ (971 : ℤ) := by
          gcongr
          norm_num
      _ = (m + 1) * 2 ^ (971 : ℤ) := by ring
      _ ≤ 2 ^ 53 * 2 ^ (971 : ℤ) := by gcongr
      _ = beyond := by
          rw [beyond, ← zpow_natCast, ← zpow_add₀ two_ne_zero]
          rfl

/-- A canonical form fits if it is worth less than the first power of two beyond all doubles. -/
lemma fits_iff {u : UnpackedFloat} (canonical : Canonical u) (worth : worth? u = some v) :
    Fits u ↔ |v| < beyond := by
  constructor
  · intro fits
    have step : (0 : ℚ) < 2 ^ (971 : ℤ) := by positivity
    exact (lt_add_of_pos_right _ step).trans_le (add_le_of_fits canonical worth fits)
  · intro small
    obtain ⟨sign, rfl, rfl⟩ | ⟨sign, m, e, positive, rfl, rfl⟩ := zero_or_finite worth
    · trivial
    · by_contra notFits
      have above : 971 < e := not_le.1 notFits
      have settled : target m e = e := canonical
      have many : (2 ^ 52 : ℚ) ≤ m := by
        rcases le_of_target settled with least | ⟨many, _⟩
        · omega
        · exact_mod_cast many
      rw [abs_signed, abs_of_nonneg (by positivity)] at small
      have : beyond ≤ m * 2 ^ e := by
        calc beyond = 2 ^ 52 * 2 ^ (972 : ℤ) := by
              rw [beyond, ← zpow_natCast, ← zpow_add₀ two_ne_zero]
              rfl
          _ ≤ m * 2 ^ e := by
              gcongr
              · norm_num
              · omega
      linarith

lemma Worth.add_le (hx : Worth x v) : |v| + 2 ^ (971 : ℤ) ≤ beyond :=
  add_le_of_fits (canonical x).1 hx (canonical x).2

lemma Worth.abs_lt (hx : Worth x v) : |v| < beyond :=
  (fits_iff (canonical x).1 hx).1 (canonical x).2

/-- What is packed from a number is a number or an infinity. -/
lemma isNaN_of_packed {u : UnpackedFloat} (packed : x.toModel = Float.Model.pack u)
    (canonical : Canonical u) (worth : worth? u = some v) : x.isNaN = false := by
  show x.toModel.unpack.isNaN = false
  rw [packed]
  show (unpack Format.binary64 (pack Format.binary64 u)).isNaN = false
  by_cases fits : Fits u
  · rw [unpack_pack_of_fits canonical fits]
    obtain ⟨sign, rfl, _⟩ | ⟨sign, m, e, positive, rfl, _⟩ := zero_or_finite worth <;> rfl
  · obtain ⟨sign, rfl, _⟩ | ⟨sign, m, e, positive, rfl, _⟩ := zero_or_finite worth
    · exact absurd trivial fits
    · have above : 971 < e := not_le.1 fits
      rw [pack_finite, if_pos (by omega)]
      cases sign <;> rfl

/-- What was rounded and packed is a result of rounding. -/
lemma rounds_of_rounded {u : UnpackedFloat} (packed : x.toModel = Float.Model.pack u)
    (rounded : Rounded u r) : Rounds x r := by
  obtain ⟨canonical, v, worth, nearest⟩ := rounded
  refine ⟨isNaN_of_packed packed canonical worth, v, nearest, fun small => ?_⟩
  have kept := unpack_pack_of_fits canonical ((fits_iff canonical worth).2 small)
  show worth? x.toModel.unpack = some v
  rw [packed]
  exact (congrArg worth? kept).trans worth

/-! ### Operations -/

theorem rounds_add (hx : Worth x a) (hy : Worth y b) : Rounds (x + y) (a + b) :=
  rounds_of_rounded rfl (rounded_add (canonical x).1 (canonical y).1 hx hy)

theorem rounds_sub (hx : Worth x a) (hy : Worth y b) : Rounds (x - y) (a - b) :=
  rounds_of_rounded rfl (rounded_sub (canonical x).1 (canonical y).1 hx hy)

theorem rounds_mul (hx : Worth x a) (hy : Worth y b) : Rounds (x * y) (a * b) :=
  rounds_of_rounded rfl (rounded_mul (canonical x).1 (canonical y).1 hx hy)

theorem rounds_div (hx : Worth x a) (hy : Worth y b) (divisor : b ≠ 0) : Rounds (x / y) (a / b) :=
  rounds_of_rounded rfl (rounded_div hx hy divisor)

lemma Rounds.worth_of_isDouble (rounds : Rounds x r) (double : IsDouble r)
    (small : |r| < beyond) : Worth x r := by
  obtain ⟨v, nearest, worth⟩ := rounds.nearest
  obtain rfl := nearest.eq_of_isDouble double
  exact worth small

/-- What some double is worth is not rounded. -/
lemma Rounds.exact (rounds : Rounds x r) (there : Worth y r) : Worth x r :=
  rounds.worth_of_isDouble there.isDouble there.abs_lt

/-- Negation only turns the sign. -/
lemma unpack_neg (x : Float) : (-x).toModel.unpack = x.toModel.unpack.neg := by
  have fits {u : UnpackedFloat} (fits : Fits u) : Fits u.neg := by
    cases u <;> exact fits
  exact unpack_pack_of_fits (canonical x).1.neg (fits (canonical x).2)

/-- A negated double is worth the negated number. -/
theorem worth_neg (hx : Worth x a) : Worth (-x) (-a) := by
  rw [Worth, unpack_neg]
  exact worth?_neg hx

lemma isNaN_neg (x : Float) : (-x).isNaN = x.isNaN := by
  show (-x).toModel.unpack.isNaN = x.toModel.unpack.isNaN
  rw [unpack_neg]
  cases x.toModel.unpack <;> rfl

/-- Rounding within a double that is not beyond the last gives a number. -/
lemma Rounds.exists_worth (rounds : Rounds x r) (double : IsDouble w) (within : |r| ≤ w)
    (small : w < beyond) : ∃ v, Worth x v ∧ Nearest v r := by
  obtain ⟨v, nearest, worth⟩ := rounds.nearest
  exact ⟨v, worth ((nearest.abs_le_of_abs_le double within).trans_lt small), nearest.toNearest⟩

/-- Up to a power of two, rounding gives a number within half of the steps that lead to it. -/
lemma Rounds.exists_near (rounds : Rounds x r) {k : ℤ} (low : -1021 ≤ k) (high : k < 1024)
    (within : |r| ≤ 2 ^ k) :
    ∃ v, Worth x v ∧ Nearest v r ∧ |v| ≤ 2 ^ k ∧ |v - r| ≤ 2 ^ (k - 54) := by
  have double : IsDouble (2 ^ k) := isDouble_two_zpow low
  obtain ⟨v, worth, nearest⟩ := rounds.exists_worth double within
    (zpow_lt_zpow_right₀ (by norm_num) high)
  exact ⟨v, worth, nearest, nearest.abs_le_of_abs_le double within,
    nearest.abs_sub_le_of_le low within⟩

/-- Rounding near a double that there is does not go beyond all. -/
lemma Rounds.exists_worth_of_abs_sub_le (rounds : Rounds x r) (hy : Worth y b)
    (near : |b - r| ≤ 2 ^ (969 : ℤ)) : ∃ v, Worth x v ∧ Nearest v r := by
  obtain ⟨v, nearest, worth⟩ := rounds.nearest
  refine ⟨v, worth ?_, nearest.toNearest⟩
  have size := nearest.abs_le_add hy.isDouble
  have room := hy.add_le
  have away := abs_sub_abs_le_abs_sub r b
  rw [abs_sub_comm] at away
  have unit : (0 : ℚ) < 2 ^ (969 : ℤ) := by positivity
  rw [show (971 : ℤ) = 2 + 969 by rfl, zpow_add₀ two_ne_zero 2 969] at room
  generalize (2 : ℚ) ^ (969 : ℤ) = step at near room unit
  linarith

/-! ### Comparisons -/

/-- What is not above another double is so by what they are when unpacked. -/
lemma le_iff_isLE :
    x ≤ y ↔ (x.toModel.unpack.compare y.toModel.unpack).any (·.isLE) = true := by
  show decide (x.toModel ≤ y.toModel) = true ↔ _
  rw [decide_eq_true_iff]
  rfl

theorem le_iff (hx : Worth x a) (hy : Worth y b) : x ≤ y ↔ a ≤ b := by
  have order := compare_eq (canonical x).1 (canonical y).1 hx hy
  rw [le_iff_isLE, order, ← compare_le_iff_le]
  cases compare a b <;> decide

/-- What lies between numbers is a number. -/
theorem exists_worth_of_between (hx : Worth x a) (hz : Worth z b) (above : x ≤ y)
    (below : y ≤ z) : ∃ v, Worth y v ∧ a ≤ v ∧ v ≤ b := by
  have number : ∃ v, Worth y v := by
    rw [le_iff_isLE] at above below
    unfold Worth at *
    cases hu : y.toModel.unpack with
    | zero sign => exact ⟨_, rfl⟩
    | finite sign m e positive => exact ⟨_, rfl⟩
    | notANumber =>
      rw [hu] at below
      cases below
    | infinity sign =>
      rw [hu] at above below
      -- An infinity is not between numbers: one of the two is on its wrong side.
      cases sign with
      | negative =>
        obtain ⟨_, hv, _⟩ | ⟨_, _, _, _, hv, _⟩ := zero_or_finite hx
        · rw [hv] at above
          cases above
        · rw [hv] at above
          cases above
      | positive =>
        obtain ⟨_, hv, _⟩ | ⟨_, _, _, _, hv, _⟩ := zero_or_finite hz
        · rw [hv] at below
          cases below
        · rw [hv] at below
          cases below
  obtain ⟨v, worth⟩ := number
  exact ⟨v, worth, (le_iff hx worth).1 above, (le_iff worth hz).1 below⟩

/-! ### What is no number -/

/-- Nothing that is no number changes when a number is added to it. -/
lemma add_eq_of_worth?_eq_none {s u : UnpackedFloat} (hs : worth? s = some a)
    (hu : worth? u = none) :
    s.add Format.binary64 u = u ∧ u.add Format.binary64 s = u := by
  cases u with
  | zero sign => cases hu
  | finite sign m e positive => cases hu
  | infinity sign =>
    obtain ⟨_, rfl, _⟩ | ⟨_, _, _, _, rfl, _⟩ := zero_or_finite hs
    · exact ⟨rfl, rfl⟩
    · exact ⟨rfl, rfl⟩
  | notANumber =>
    obtain ⟨_, rfl, _⟩ | ⟨_, _, _, _, rfl, _⟩ := zero_or_finite hs
    · exact ⟨rfl, rfl⟩
    · exact ⟨rfl, rfl⟩

/-- A number added to what is none leaves it as it is. -/
lemma unpack_add_of_not_worth (hx : Worth x a) (hy : ∀ b, ¬Worth y b) :
    (x + y).toModel.unpack = y.toModel.unpack ∧ (y + x).toModel.unpack = y.toModel.unpack := by
  have missing : worth? y.toModel.unpack = none := Option.eq_none_iff_forall_ne_some.2 hy
  have kept := unpack_pack_of_fits (canonical y).1 (canonical y).2
  obtain ⟨right, left⟩ := add_eq_of_worth?_eq_none hx missing
  constructor
  · show unpack _ (pack _ (x.toModel.unpack.add Format.binary64 y.toModel.unpack)) = _
    rw [right]
    exact kept
  · show unpack _ (pack _ (y.toModel.unpack.add Format.binary64 x.toModel.unpack)) = _
    rw [left]
    exact kept

/-- A sum with what is no number is none. -/
lemma worth?_add_eq_none {u w : UnpackedFloat} (missing : worth? u = none ∨ worth? w = none) :
    worth? (u.add Format.binary64 w) = none := by
  cases u with
  | notANumber => cases w <;> rfl
  | infinity s =>
    cases w with
    | infinity s' => cases s <;> cases s' <;> rfl
    | notANumber | zero | finite => rfl
  | zero s =>
    cases w with
    | notANumber | infinity => rfl
    | zero | finite => rcases missing with missing | missing <;> cases missing
  | finite s m e positive =>
    cases w with
    | notANumber | infinity => rfl
    | zero | finite => rcases missing with missing | missing <;> cases missing

lemma unpack_pack_of_worth?_eq_none {u : UnpackedFloat} (missing : worth? u = none) :
    unpack Format.binary64 (pack Format.binary64 u) = u := by
  cases u with
  | notANumber | infinity => exact unpack_pack_of_fits trivial trivial
  | zero | finite => cases missing

/-- Only numbers have a sum that is finite. -/
lemma isFinite_of_add (finite : (x + y).isFinite = true) :
    x.isFinite = true ∧ y.isFinite = true := by
  obtain ⟨v, worth⟩ := isFinite_iff.1 finite
  by_contra notBoth
  have missing : worth? x.toModel.unpack = none ∨ worth? y.toModel.unpack = none := by
    simpa only [isFinite_iff, Worth, ← Option.isSome_iff_exists, not_and_or,
      Option.not_isSome_iff_eq_none] using notBoth
  have sum := worth?_add_eq_none missing
  have kept := unpack_pack_of_worth?_eq_none sum
  have same : worth? (x + y).toModel.unpack = none := (congrArg worth? kept).trans sum
  rw [Worth, same] at worth
  cases worth

/-- A number and something other than not-a-number do not make not-a-number. -/
lemma isNaN_add (hx : Worth x a) (hy : y.isNaN = false) :
    (x + y).isNaN = false ∧ (y + x).isNaN = false := by
  by_cases number : ∃ b, Worth y b
  · obtain ⟨b, worth⟩ := number
    exact ⟨(rounds_add hx worth).isNaN, (rounds_add worth hx).isNaN⟩
  · obtain ⟨right, left⟩ := unpack_add_of_not_worth hx (not_exists.1 number)
    change y.toModel.unpack.isNaN = false at hy
    constructor
    · show (x + y).toModel.unpack.isNaN = false
      rwa [right]
    · show (y + x).toModel.unpack.isNaN = false
      rwa [left]

/-- A difference is a sum with the negated double. -/
lemma sub_eq_add_neg (x y : Float) : x - y = x + -y := by
  have models : (x - y).toModel = (x + -y).toModel := by
    show Float.Model.pack (x.toModel.unpack.sub Format.binary64 y.toModel.unpack) =
      Float.Model.pack (x.toModel.unpack.add Format.binary64 (-y).toModel.unpack)
    rw [unpack_neg, sub_eq_add]
  exact congrArg Float.ofModel models

lemma isFinite_neg (x : Float) : (-x).isFinite = x.isFinite := by
  show (-x).toModel.unpack.isFinite = x.toModel.unpack.isFinite
  rw [unpack_neg]
  cases x.toModel.unpack <;> rfl

/-- Only numbers have a difference that is finite. -/
lemma isFinite_of_sub (finite : (x - y).isFinite = true) :
    x.isFinite = true ∧ y.isFinite = true := by
  rw [sub_eq_add_neg] at finite
  have both := isFinite_of_add finite
  rwa [isFinite_neg] at both

end Toolpath.Double
