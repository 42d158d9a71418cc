import Toolpath.Decimal.Layout

/-!
# Scalars

What coordinates are made of. Everything that computes with coordinates does so over any `Scalar`:
the program runs on doubles, and exact numbers can stand in their place wherever the arithmetic is
to be taken exactly.
-/

namespace Toolpath

/-- Numbers with the arithmetic, the order and the texts that a drawing needs. -/
class Scalar (α : Type) extends Add α, Sub α, Mul α, Div α, Neg α, LE α, LT α, OfScientific α where
  decidableLE : DecidableLE α
  decidableLT : DecidableLT α
  /-- The square root of a number that is not negative. -/
  sqrt : α → α
  /-- The number that a numeral stands for, or the nearest to it that there is. -/
  ofDecimal : Decimal → α
  /-- Is this a number, and not a sign of overflow? -/
  isFinite : α → Bool
  /-- The nearest whole number, a half going away from zero; `none` where there is none. -/
  nearest? : α → Option Int
  /-- The text of a number, positional at every size. -/
  text : α → String
  /-- What the least of no numbers is taken to be. -/
  top : α
  /-- What the greatest of no numbers is taken to be. -/
  bottom : α

namespace Scalar

instance {α : Type} [Scalar α] : DecidableLE α := decidableLE
instance {α : Type} [Scalar α] : DecidableLT α := decidableLT

variable {α : Type} [Scalar α]

/-- The least of those numbers that compare with themselves; the first of several. -/
def least (xs : List α) : α :=
  match xs.filter (fun x => x ≤ x) with
  | [] => top
  | x :: xs => xs.foldl (fun a b => if b < a then b else a) x

/-- The greatest of those numbers that compare with themselves; the first of several. -/
def greatest (xs : List α) : α :=
  match xs.filter (fun x => x ≤ x) with
  | [] => bottom
  | x :: xs => xs.foldl (fun a b => if a < b then b else a) x

end Scalar

/-- The double nearest to a numeral. Powers of ten beyond every double are told by the place of the
first digit, before anything is computed. -/
def Decimal.toFloat (d : Decimal) : Float :=
  let size :=
    if d.digits = 0 ∨ d.leading < -330 then 0.0
    else if 310 < d.leading then 1.0 / 0.0
    else Float.ofScientific d.digits (d.exponent < 0) d.exponent.natAbs
  if d.negative then -size else size

/-- The drawing arithmetic of doubles. -/
instance : Scalar Float where
  decidableLE := inferInstance
  decidableLT := inferInstance
  sqrt := Float.sqrt
  ofDecimal := Decimal.toFloat
  isFinite := Float.isFinite
  nearest? x := (Binary.ofFloat? x).map Binary.nearest
  text := Layout.plain.float
  top := 1.0 / 0.0
  bottom := -(1.0 / 0.0)

end Toolpath
