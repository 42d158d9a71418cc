import Toolpath.Geometry.Clip
import Toolpath.Pattern.Program
import Toolpath.Svg.Document

/-!
# Conversion

From the text of a drawing to a program: the document is read, its polylines are clipped to the page
unless this is turned off, and the program that draws them is written.
-/

namespace Toolpath

/-- How to convert. -/
structure Options (α : Type) where
  clip : Bool
  flattening : Flattening α
  /-- How far beyond its edges a page reaches when polylines are clipped to it. -/
  tolerance : α

/-- Clipping to the page and a ten-thousandth of an inch around it. -/
def Options.standard {α : Type} [Scalar α] : Options α := ⟨true, .standard, 0.0001⟩

/-- How many polylines and points there are. -/
structure Count where
  polylines : Nat
  points : Nat
deriving DecidableEq, Repr

/-- What came of a drawing. -/
structure Conversion (α : Type) where
  page : Page α
  /-- The polylines in inches, clipped if they were to be. -/
  polylines : List (Polyline α)
  records : List Pattern.Record
  /-- What the document has. -/
  parsed : Count
  /-- What clipping left. -/
  clipped : Count
  /-- What the records draw. -/
  emitted : Count
deriving DecidableEq, Repr

variable {α : Type} [Scalar α]

/-- The counts of a drawing. -/
def Count.of (lines : List (Polyline α)) : Count := ⟨lines.length, pointCount lines⟩

namespace Page

/-- The edges of a page, in the order they are clipped at: left, bottom, right, top. -/
def halfPlanes (page : Page α) (tolerance : α) : List (HalfPlane α) :=
  [⟨1.0, 0.0, tolerance⟩, ⟨0.0, 1.0, tolerance⟩, ⟨-1.0, 0.0, page.width + tolerance⟩,
    ⟨0.0, -1.0, page.height + tolerance⟩]

/-- Clips polylines at the edges of a page. -/
def clip (page : Page α) (tolerance : α) (lines : List (Polyline α)) : List (Polyline α) :=
  (page.halfPlanes tolerance).foldl (fun lines edge => edge.clip lines) lines

/-- Clips polylines and tells how many there were. -/
def clipNoted (page : Page α) (tolerance : α) (lines : List (Polyline α)) :
    Logged (Diagnostic α) (List (Polyline α)) := do
  Logged.note (.beforeClipping lines.length (pointCount lines))
  pure (page.clip tolerance lines)

end Page

/-- Converts a drawing. -/
def convert (options : Options α) (text : String) : Attempt α (Conversion α) := do
  let document ← Svg.Document.ofText options.flattening text
  let lines ←
    if options.clip then
      ExceptT.lift (document.page.clipNoted options.tolerance document.polylines)
    else do
      Attempt.note .notClipping
      pure document.polylines
  let clipped := Count.of lines
  Attempt.note (.clipped clipped.polylines clipped.points)
  match Pattern.Program.ofPolylines lines with
  | .error fault => throw fault
  | .ok program =>
    Attempt.note (.rounded program.polylines program.points)
    pure
      { page := document.page
        polylines := lines
        records := program.records
        parsed := .of document.polylines
        clipped := clipped
        emitted := ⟨program.polylines, program.points⟩ }

/-- The pattern of a conversion. -/
def Conversion.pattern (c : Conversion α) : String := Pattern.write c.records

end Toolpath
