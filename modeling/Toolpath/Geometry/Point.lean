import Toolpath.Scalar

/-!
# Points and polylines
-/

namespace Toolpath

/-- A point of the plane. -/
structure Point (α : Type) where
  x : α
  y : α
deriving DecidableEq, Repr, Inhabited

/-- A line drawn through points in order. -/
abbrev Polyline (α : Type) := List (Point α)

/-- How many points a drawing has. -/
def pointCount {α : Type} (lines : List (Polyline α)) : Nat :=
  lines.flatten.length

namespace Point

variable {α : Type} [Scalar α]

/-- The point with both coordinates zero. -/
def origin : Point α := ⟨0.0, 0.0⟩

/-- The length of the way between two points. -/
def distance (p q : Point α) : α :=
  let dx := p.x - q.x
  let dy := p.y - q.y
  Scalar.sqrt (dx * dx + dy * dy)

/-- The point at `t` of the way from `p` to `q`. -/
def lerp (p q : Point α) (t : α) : Point α :=
  ⟨t * (q.x - p.x) + p.x, t * (q.y - p.y) + p.y⟩

/-- The point opposite to `q` as seen from `p`. -/
def reflect (p q : Point α) : Point α :=
  ⟨2.0 * p.x - q.x, 2.0 * p.y - q.y⟩

/-- The point reached from `p` by `step`. -/
def offset (p step : Point α) : Point α :=
  ⟨p.x + step.x, p.y + step.y⟩

/-- The point half-way from `p` to `q`. -/
def midpoint (p q : Point α) : Point α :=
  ⟨p.x + (q.x - p.x) * 0.5, p.y + (q.y - p.y) * 0.5⟩

end Point

end Toolpath
