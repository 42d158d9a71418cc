import Toolpath.Geometry.Point

/-!
# Affine maps

Maps of the plane by six coefficients, in the order that `matrix(a b c d e f)` has them.
-/

namespace Toolpath

/-- The map `(x, y) ↦ (a x + c y + e, b x + d y + f)`. -/
structure Affine (α : Type) where
  a : α
  b : α
  c : α
  d : α
  e : α
  f : α
deriving DecidableEq, Repr, Inhabited

namespace Affine

variable {α : Type} [Scalar α]

/-- The map that leaves every point where it is. -/
def identity : Affine α := ⟨1.0, 0.0, 0.0, 1.0, 0.0, 0.0⟩

/-- The map that moves every point by `(tx, ty)`. -/
def translate (tx ty : α) : Affine α := ⟨1.0, 0.0, 0.0, 1.0, tx, ty⟩

/-- The map that stretches by `sx` and `sy`. -/
def scale (sx sy : α) : Affine α := ⟨sx, 0.0, 0.0, sy, 0.0, 0.0⟩

/-- First the inner map, then the outer one. -/
def compose (outer inner : Affine α) : Affine α where
  a := outer.a * inner.a + outer.c * inner.b
  b := outer.b * inner.a + outer.d * inner.b
  c := outer.a * inner.c + outer.c * inner.d
  d := outer.b * inner.c + outer.d * inner.d
  e := outer.a * inner.e + outer.c * inner.f + outer.e
  f := outer.b * inner.e + outer.d * inner.f + outer.f

/-- Where a point is mapped. -/
def apply (t : Affine α) (p : Point α) : Point α :=
  ⟨t.a * p.x + t.c * p.y + t.e, t.b * p.x + t.d * p.y + t.f⟩

/-- The map as an attribute spells it. -/
def text (t : Affine α) : String :=
  let coefficients := [t.a, t.b, t.c, t.d, t.e, t.f].map Scalar.text
  "matrix(" ++ " ".intercalate coefficients ++ ")"

end Affine

end Toolpath
