import Toolpath.Geometry.Point

/-!
# Clipping to half-planes

A polyline is cut into the pieces that lie in a half-plane. Where it crosses the edge, the crossing
point ends a piece or begins one. Clipping to a rectangle is clipping to its four half-planes in
turn.
-/

namespace Toolpath

/-- The points with `0 ≤ a x + b y + c`. -/
structure HalfPlane (α : Type) where
  a : α
  b : α
  c : α
deriving DecidableEq, Repr

namespace HalfPlane

variable {α : Type} [Scalar α]

/-- How far inside a point lies, in the units of the coefficients. -/
def eval (h : HalfPlane α) (p : Point α) : α :=
  h.a * p.x + h.b * p.y + h.c

/-- A point whose value compares with nothing is outside. -/
def contains (h : HalfPlane α) (p : Point α) : Bool :=
  0.0 ≤ h.eval p

/-- The point between `p` and `q` where the value is zero. -/
def crossing (h : HalfPlane α) (p q : Point α) : Point α :=
  let atP := h.eval p
  let atQ := h.eval q
  p.lerp q (-atP / (atQ - atP))

mutual

/-- The pieces of what follows a point `p` inside; `piece` is the piece that ends in `p`, its last
point first. -/
def piecesInside (h : HalfPlane α) (p : Point α) (piece : List (Point α)) :
    List (Point α) → List (Polyline α)
  | [] => [piece.reverse]
  | q :: rest =>
    if h.contains q then piecesInside h q (q :: piece) rest
    else (h.crossing p q :: piece).reverse :: piecesOutside h q rest

/-- The pieces of what follows a point `p` outside. -/
def piecesOutside (h : HalfPlane α) (p : Point α) : List (Point α) → List (Polyline α)
  | [] => []
  | q :: rest =>
    if h.contains q then piecesInside h q [q, h.crossing p q] rest
    else piecesOutside h q rest

end

/-- The pieces of a polyline that lie in a half-plane, in order. -/
def clipLine (h : HalfPlane α) : Polyline α → List (Polyline α)
  | [] => []
  | p :: rest => if h.contains p then h.piecesInside p [p] rest else h.piecesOutside p rest

/-- Clips every polyline. -/
def clip (h : HalfPlane α) (lines : List (Polyline α)) : List (Polyline α) :=
  lines.flatMap h.clipLine

end HalfPlane

end Toolpath
