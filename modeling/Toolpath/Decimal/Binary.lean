/-!
# Binary numbers

A finite double taken apart into sign, whole significand and power of two, so that what is said of
its value is said of whole numbers. `Binary.nearest` rounds to a whole number, a half away from
zero.
-/

namespace Toolpath

/-- A finite binary number, worth `± significand · 2 ^ exponent`. -/
structure Binary where
  negative : Bool
  significand : Nat
  exponent : Int
deriving DecidableEq, Repr, Inhabited

namespace Binary

/-- The least power of two that a double's significand is scaled by. -/
def leastExponent : Int := -1074

/-- The least significand of a double that has all its bits, `2 ^ 52`. -/
def leastFull : Nat := 0x10000000000000

/-- The parts of a double; infinities and not-a-number have none. The bits are a sign, eleven bits of
exponent and fifty-two of the significand, whose leading one is not written. -/
def ofFloat? (x : Float) : Option Binary :=
  let bits := x.toBits.toNat
  let negative := decide (2048 ≤ bits / leastFull)
  let exponent := bits / leastFull % 2048
  let fraction := bits % leastFull
  if exponent = 2047 then none
  -- The smallest doubles have no leading one and share the least power of two.
  else if exponent = 0 then some ⟨negative, fraction, leastExponent⟩
  else some ⟨negative, leastFull + fraction, (exponent : Int) - 1 + leastExponent⟩

/-- The numerator of `n · 2 ^ e` over the denominator `2 ^ (-e)`, which is one where `e` is not
negative. -/
def scaled (n : Nat) (e : Int) : Nat :=
  n * Nat.pow 2 e.toNat

/-- The size of the nearest whole number; a half goes up. -/
def nearestSize (b : Binary) : Nat :=
  let unit := Nat.pow 2 (-b.exponent).toNat
  (2 * scaled b.significand b.exponent + unit) / (2 * unit)

/-- The nearest whole number; a half goes away from zero. -/
def nearest (b : Binary) : Int :=
  if b.negative then -b.nearestSize else b.nearestSize

end Binary

end Toolpath
