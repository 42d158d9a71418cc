import Mathlib
import Toolpath.Scalar

/-!
# Exact arithmetic

The real numbers as scalars. What is proved of a computation over them holds of its plan, before
any double is rounded. Only decimals have a text, and a text is that of a decimal of the same
worth. `Scalar.dividing` is the same arithmetic with a quotient of one's own choice wherever a
number is divided by zero: a result that is the same for all choices was found without such a
division.
-/

namespace Toolpath

/-- The number that a numeral is worth. -/
noncomputable def Decimal.toReal (d : Decimal) : ℝ :=
  (if d.negative then -1 else 1) * d.digits * (10 : ℝ) ^ d.exponent

namespace Exact

/-- The nearest whole number, a half going away from zero. -/
noncomputable def nearest (x : ℝ) : ℤ :=
  if x < 0 then -⌊-x + 1 / 2⌋ else ⌊x + 1 / 2⌋

open Classical in
/-- The text of a decimal; other numbers have none. -/
noncomputable def text (x : ℝ) : String :=
  if h : ∃ d : Decimal, d.toReal = x then h.choose.text .plain else ""

end Exact

/-- The drawing arithmetic of real numbers. -/
noncomputable instance : Scalar ℝ where
  decidableLE := inferInstance
  decidableLT := inferInstance
  sqrt := Real.sqrt
  ofDecimal := Decimal.toReal
  isFinite _ := true
  nearest? x := some (Exact.nearest x)
  text := Exact.text
  top := 0
  bottom := 0

/-- Exact arithmetic where `x / 0` is `byZero x`. -/
noncomputable abbrev Scalar.dividing (byZero : ℝ → ℝ) : Scalar ℝ :=
  { (inferInstance : Scalar ℝ) with div := fun x y => if y = 0 then byZero x else x / y }

end Toolpath
