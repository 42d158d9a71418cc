import Toolpath.Diagnostic

/-!
# Pages

The size of a page in inches, and the map from the user units of its drawing to the page. On the
page the origin is the lower left corner and `y` grows upward, so the map turns the drawing over.
-/

namespace Toolpath

/-- The size of a page in inches. -/
structure Page (α : Type) where
  width : α
  height : α
deriving DecidableEq, Repr

namespace Svg

/-- The rectangle of user units that the page shows. -/
structure ViewBox (α : Type) where
  x : α
  y : α
  width : α
  height : α
deriving DecidableEq, Repr

variable {α : Type} [Scalar α]

/-- Reads a view box: four numbers, the sizes above zero. What follows them does not count. -/
def ViewBox.ofText? (text : String) : Option (ViewBox α) :=
  let cs := Text.trim text.toList
  let numbers : ListReader (ViewBox α) := do
    let x ← item cs.length
    let y ← item cs.length
    let width ← item cs.length
    let height ← item cs.length
    pure ⟨x, y, width, height⟩
  match numbers cs with
  | .error _ => none
  | .ok (box, _) => if box.width ≤ 0.0 ∨ box.height ≤ 0.0 then none else some box

end Svg

namespace Page

variable {α : Type} [Scalar α]

/-- One inch by one inch. -/
def standard : Page α := ⟨1.0, 1.0⟩

/-- The map that lays a view box over the page, upside down. -/
def viewBoxMap (page : Page α) (box : Svg.ViewBox α) : Affine α :=
  let sx := page.width / box.width
  let sy := page.height / box.height
  ⟨sx, 0.0, 0.0, -sy, -sx * box.x, sy * box.y + page.height⟩

/-- The map of a page without a view box: user units become inches, upside down. -/
def userUnitMap (page : Page α) : Affine α :=
  let s := 1.0 / Svg.userUnitsPerInch
  ⟨s, 0.0, 0.0, -s, 0.0, page.height⟩

/-- A size of the page, one inch where it is not given. -/
def dimension (which : Dimension) : Option String → Attempt α α
  | none => do
    Attempt.note (.dimensionAssumed which)
    pure 1.0
  | some text =>
    match Svg.extent text with
    | .error cause => throw (.length text cause)
    | .ok inches => do
      Attempt.note (.dimension which inches)
      pure inches

/-- The page and its map from the attributes of the root element. -/
def ofRoot (width height viewBox : Option String) : Attempt α (Page α × Affine α) := do
  let width ← dimension .width width
  let height ← dimension .height height
  let page := ⟨width, height⟩
  match viewBox with
  | none => pure (page, page.userUnitMap)
  | some text =>
    match Svg.ViewBox.ofText? text with
    | none => throw (.viewBox text)
    | some box => pure (page, page.viewBoxMap box)

end Page

end Toolpath
