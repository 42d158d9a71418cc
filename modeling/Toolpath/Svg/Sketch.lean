import Toolpath.Diagnostic
import Toolpath.Geometry.Cubic
import Toolpath.Geometry.Drawing

/-!
# Sketching strokes

A pen draws strokes in the user space of its path; what it draws is mapped onto the page. A pen that
draws before it was moved starts where it is.
-/

namespace Toolpath.Svg

/-- How strokes are brought onto the page. -/
structure Frame (α : Type) where
  map : Affine α
  flattening : Flattening α

/-- Where a pen is, in user space. -/
structure Pen (α : Type) where
  current : Point α
  /-- The last control point of the curve drawn just now; the current point after anything else. -/
  control : Point α
  /-- Where the subpath began. -/
  start : Option (Point α)
deriving DecidableEq, Repr

/-- A pen at work on a drawing. -/
structure Sketch (α : Type) where
  pen : Pen α
  drawing : Drawing α

variable {α : Type} [Scalar α]

/-- A pen at the origin that has not been moved. -/
def Pen.fresh : Pen α := ⟨.origin, .origin, none⟩

/-- A pen that has come to a point other than by a curve. -/
def Pen.goTo (pen : Pen α) (p : Point α) : Pen α :=
  { pen with current := p, control := p }

/-- The stroke of a relative group, seen from the current point. -/
def Stroke.shift (origin : Point α) : Stroke α → Stroke α
  | .move p => .move (origin.offset p)
  | .line p => .line (origin.offset p)
  | .horizontal x => .horizontal (x + origin.x)
  | .vertical y => .vertical (y + origin.y)
  | .curve control₁ control₂ p =>
    .curve (origin.offset control₁) (origin.offset control₂) (origin.offset p)
  | .smooth control₂ p => .smooth (origin.offset control₂) (origin.offset p)
  | .close => .close

namespace Sketch

/-- A new pen on a drawing. -/
def begin (drawing : Drawing α) : Sketch α := ⟨.fresh, drawing⟩

/-- Begins a subpath at `p`. -/
def moveTo (f : Frame α) (p : Point α) (s : Sketch α) : Sketch α :=
  ⟨⟨p, p, some p⟩, s.drawing.moveTo (f.map.apply p)⟩

/-- Begins a subpath where the pen is, unless one was begun. -/
def ensureBegun (f : Frame α) (s : Sketch α) : Logged (Diagnostic α) (Sketch α) :=
  match s.pen.start with
  | some _ => pure s
  | none => do
    Logged.note (.drawingBeforeMove s.pen.current)
    pure (s.moveTo f s.pen.current)

/-- Draws a straight line to `p`. -/
def lineTo (f : Frame α) (p : Point α) (s : Sketch α) : Logged (Diagnostic α) (Sketch α) := do
  let s ← s.ensureBegun f
  pure ⟨s.pen.goTo p, s.drawing.lineTo (f.map.apply p)⟩

/-- What is worth telling about the pieces of a curve: those that were not cut short enough. -/
def depthNotes (f : Frame α) (pieces : List (Piece α)) : List (Diagnostic α) :=
  (pieces.filter (·.isCapped f.flattening)).map fun p => .depthReached p.depth p.length

/-- Draws a curve to `p`. -/
def curveTo (f : Frame α) (control₁ control₂ p : Point α) (s : Sketch α) :
    Logged (Diagnostic α) (Sketch α) := do
  let s ← s.ensureBegun f
  let pieces := (Cubic.mk s.pen.current control₁ control₂ p).pieces f.map f.flattening
  let drawing := pieces.foldl (fun d piece => d.lineTo (piece.target f.map)) s.drawing
  ⟨⟨{ s.pen with current := p, control := control₂ }, drawing⟩, depthNotes f pieces⟩

/-- Goes back to where the subpath began; without a subpath nothing happens. -/
def close (s : Sketch α) : Sketch α :=
  match s.pen.start with
  | none => s
  | some p => ⟨s.pen.goTo p, s.drawing.close⟩

/-- Draws a stroke. A smooth curve leaves in the direction in which the curve before it arrived. -/
def draw (f : Frame α) (stroke : Stroke α) (s : Sketch α) : Logged (Diagnostic α) (Sketch α) :=
  match stroke with
  | .move p => pure (s.moveTo f p)
  | .line p => s.lineTo f p
  | .horizontal x => s.lineTo f ⟨x, s.pen.current.y⟩
  | .vertical y => s.lineTo f ⟨s.pen.current.x, y⟩
  | .curve control₁ control₂ p => s.curveTo f control₁ control₂ p
  | .smooth control₂ p => s.curveTo f (s.pen.current.reflect s.pen.control) control₂ p
  | .close => pure s.close

/-- Draws strokes in order. -/
def drawAll (f : Frame α) : List (Stroke α) → Sketch α → Logged (Diagnostic α) (Sketch α)
  | [], s => pure s
  | stroke :: strokes, s => do
    let s ← s.draw f stroke
    drawAll f strokes s

/-- Lays the pen down. -/
def finish (s : Sketch α) : Drawing α := s.drawing.endLine

end Sketch

end Toolpath.Svg
