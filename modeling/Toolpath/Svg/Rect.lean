import Toolpath.Svg.Sketch
import Toolpath.Markup.Tag

/-!
# Rectangles

The one basic shape that is drawn. The other basic shapes are known by name, so that leaving them
out can be told.
-/

namespace Toolpath.Svg

/-- The basic shapes that are left out. -/
def unsupportedShapes : List String := ["circle", "ellipse", "line", "polyline", "polygon"]

/-- Is this the name of a basic shape that is left out? -/
def isUnsupportedShape (name : String) : Bool :=
  unsupportedShapes.contains name

/-- A rectangle along the axes, in user units. -/
structure Rect (α : Type) where
  x : α
  y : α
  width : α
  height : α
deriving DecidableEq, Repr

namespace Rect

variable {α : Type} [Scalar α]

/-- A length as user units, by way of inches. -/
def inUserUnits (text : String) (length : Except LengthFault α) : Attempt α α :=
  match length with
  | .error cause => throw (.length text cause)
  | .ok inches => pure (userUnits inches)

/-- A coordinate that is zero where it is not given. -/
def corner (text : Option String) : Attempt α α :=
  match text with
  | none => pure 0.0
  | some text => inUserUnits text (coordinate text)

/-- The rectangle of an element, if it has both its sizes. Round corners are told and left out. -/
def ofAttributes (as : Markup.Attributes) : Attempt α (Option (Rect α)) :=
  match as.get? "width", as.get? "height" with
  | some width, some height => do
    if as.has "rx" || as.has "ry" then Attempt.note .roundedCorners
    let x ← corner (as.get? "x")
    let y ← corner (as.get? "y")
    let width ← inUserUnits width (extent width)
    let height ← inUserUnits height (extent height)
    pure (some ⟨x, y, width, height⟩)
  | _, _ => do
    Attempt.note .rectWithoutSize
    pure none

/-- The corners in the order they are drawn. -/
def corners (r : Rect α) : List (Point α) :=
  [⟨r.x, r.y⟩, ⟨r.x + r.width, r.y⟩, ⟨r.x + r.width, r.y + r.height⟩, ⟨r.x, r.y + r.height⟩]

/-- Along the corners and back to the first one. -/
def strokes (r : Rect α) : List (Stroke α) :=
  match r.corners with
  | [] => []
  | first :: others => .move first :: (others.map .line ++ [.close])

end Rect

end Toolpath.Svg
