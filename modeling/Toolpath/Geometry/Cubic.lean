import Toolpath.Geometry.Affine

/-!
# Cubic curves as polylines

A curve is halved until its control polygon, measured where it is drawn, is no longer than the
flatness, or the depth is used up. What is left is drawn as straight lines between the ends of the
pieces.
-/

namespace Toolpath

/-- How fine a curve is cut. -/
structure Flattening (α : Type) where
  /-- The longest control polygon that is drawn as a straight line. -/
  flatness : α
  /-- How often a piece may be halved. -/
  maxDepth : Nat
deriving Repr

/-- An eighth of an inch, sixteen halvings. -/
def Flattening.standard {α : Type} [Scalar α] : Flattening α := ⟨0.125, 16⟩

/-- A cubic Bézier curve. -/
structure Cubic (α : Type) where
  start : Point α
  control₁ : Point α
  control₂ : Point α
  stop : Point α
deriving DecidableEq, Repr

/-- A piece of a curve that is drawn as one straight line. -/
structure Piece (α : Type) where
  curve : Cubic α
  /-- How often the curve was halved to get it. -/
  depth : Nat
  /-- The length of its control polygon where it is drawn. -/
  length : α

namespace Cubic

variable {α : Type} [Scalar α]

/-- The two halves of a curve. -/
def halves (c : Cubic α) : Cubic α × Cubic α :=
  let p₁ := c.start.midpoint c.control₁
  let p₂ := c.control₁.midpoint c.control₂
  let p₃ := c.control₂.midpoint c.stop
  let p₁₂ := p₁.midpoint p₂
  let p₂₃ := p₂.midpoint p₃
  let middle := p₁₂.midpoint p₂₃
  (⟨c.start, p₁, p₁₂, middle⟩, ⟨middle, p₂₃, p₃, c.stop⟩)

/-- The length of the control polygon after a map. -/
def polygonLength (t : Affine α) (c : Cubic α) : α :=
  let p₀ := t.apply c.start
  let p₁ := t.apply c.control₁
  let p₂ := t.apply c.control₂
  let p₃ := t.apply c.stop
  p₀.distance p₁ + p₁.distance p₂ + p₂.distance p₃

/-- The pieces of a curve that was halved `depth` times and may be halved `fuel` times more. -/
def piecesFrom (t : Affine α) (flatness : α) (depth : Nat) : Nat → Cubic α → List (Piece α)
  | 0, c => [⟨c, depth, c.polygonLength t⟩]
  | fuel + 1, c =>
    let length := c.polygonLength t
    -- A length that compares with nothing counts as short enough.
    if flatness < length then
      piecesFrom t flatness (depth + 1) fuel c.halves.1
        ++ piecesFrom t flatness (depth + 1) fuel c.halves.2
    else [⟨c, depth, length⟩]

/-- The pieces that a curve is drawn as, in order. -/
def pieces (t : Affine α) (f : Flattening α) (c : Cubic α) : List (Piece α) :=
  c.piecesFrom t f.flatness 0 f.maxDepth

end Cubic

/-- Was the piece left longer than the flatness because the depth was used up? -/
def Piece.isCapped {α : Type} [Scalar α] (f : Flattening α) (p : Piece α) : Bool :=
  f.flatness < p.length

/-- Where the line that draws a piece ends. -/
def Piece.target {α : Type} [Scalar α] (t : Affine α) (p : Piece α) : Point α :=
  t.apply p.curve.stop

end Toolpath
