import Toolpath.Pattern.Listing

/-!
# Previews

The steps of a pattern as a document that shows them: one path on a page that leaves a quarter of an
inch around it.
-/

namespace Toolpath.Pattern

/-- A rectangle by its least and greatest coordinates. -/
structure Bounds (α : Type) where
  minX : α
  minY : α
  maxX : α
  maxY : α
deriving DecidableEq, Repr

variable {α : Type} [Scalar α]

/-- The space left around a drawing, in inches. -/
def margin : α := 0.25

/-- The rectangle that the steps lead into; for no steps, the origin alone. -/
def Bounds.ofSteps (steps : List (Step α)) : Bounds α :=
  match steps with
  | [] => ⟨0.0, 0.0, 0.0, 0.0⟩
  | steps =>
    let xs := steps.map (·.target.x)
    let ys := steps.map (·.target.y)
    ⟨Scalar.least xs, Scalar.least ys, Scalar.greatest xs, Scalar.greatest ys⟩

/-- A rectangle with the margin around it. -/
def Bounds.grow (b : Bounds α) : Bounds α :=
  ⟨b.minX - margin, b.minY - margin, b.maxX + margin, b.maxY + margin⟩

/-- The rectangle that a preview shows. -/
def Bounds.padded (steps : List (Step α)) : Bounds α :=
  (Bounds.ofSteps steps).grow

/-- A step as path data. -/
def Step.data (step : Step α) : String :=
  let letter := match step with
    | .move _ => "M "
    | .line _ => "L "
  letter ++ Scalar.text step.target.x ++ " " ++ Scalar.text step.target.y

/-- The document that shows steps. -/
def preview (steps : List (Step α)) : String :=
  let b := Bounds.padded steps
  let width := Scalar.text (b.maxX - b.minX)
  let height := Scalar.text (b.maxY - b.minY)
  "<?xml version=\"1.0\" standalone=\"no\"?>\n"
    ++ "<!DOCTYPE svg PUBLIC \"-//W3C//DTD SVG 1.1//EN\" "
    ++ "\"http://www.w3.org/Graphics/SVG/1.1/DTD/svg11.dtd\">\n"
    ++ "<svg width=\"" ++ width ++ "in\" height=\"" ++ height ++ "in\" viewBox=\""
    ++ Scalar.text b.minX ++ " " ++ Scalar.text b.minY ++ " " ++ width ++ " " ++ height
    ++ "\" version=\"1.1\" xmlns=\"http://www.w3.org/2000/svg\">\n"
    ++ "<path d=\"" ++ " ".intercalate (steps.map Step.data)
    ++ "\" style=\"stroke:#000;stroke-width:0.01;fill:none\" />\n"
    ++ "</svg>\n"

end Toolpath.Pattern
