import Toolpath.Proofs.Document.Tree
import Toolpath.Proofs.Path.Script

/-!
# Paths before they are mapped

A path is drawn in its own user space by strokes between its points; what is seen are these points
under the map of the frame (`pathLines_eq_map`). The frame also decides where curves are cut, since
the pieces are measured where they are drawn. So drawing in user space is told where to cut.
-/

namespace Toolpath

/-! ### Mapped drawings -/

namespace Drawing

variable {α : Type} (g : Point α → Point α)

/-- A drawing with every point moved. -/
def map (d : Drawing α) : Drawing α :=
  let moved (t : Trace α) : Trace α := ⟨g t.first, t.later.map g⟩
  ⟨d.ended.map moved, d.current.map moved⟩

lemma polylines_map (d : Drawing α) : (d.map g).polylines = d.polylines.map (·.map g) := by
  obtain ⟨ended, current⟩ := d
  cases current <;> simp [map, polylines, Trace.toList]

lemma moveTo_map (d : Drawing α) (p : Point α) :
    (d.map g).moveTo (g p) = (d.moveTo p).map g := by
  obtain ⟨ended, current⟩ := d
  cases current <;> simp [map, moveTo, endLine, Trace.single]

lemma lineTo_map (d : Drawing α) (p : Point α) :
    (d.map g).lineTo (g p) = (d.lineTo p).map g := by
  obtain ⟨ended, current⟩ := d
  cases current <;> simp [map, lineTo, Trace.single, Trace.push]

lemma close_map (d : Drawing α) : (d.map g).close = d.close.map g := by
  obtain ⟨ended, current⟩ := d
  cases current <;> simp [map, close, Trace.push]

end Drawing

namespace Svg

variable {α : Type} [Scalar α]

/-! ### Drawing in user space -/

/-- Where a frame cuts a curve: the ends of its pieces, in user space. -/
def Frame.cuts (f : Frame α) (c : Cubic α) : List (Point α) :=
  (c.pieces f.map f.flattening).map (·.curve.stop)

namespace Sketch

/-- Begins a subpath in user space where the pen is, unless one was begun. -/
def begun (s : Sketch α) : Sketch α :=
  match s.pen.start with
  | some _ => s
  | none => ⟨⟨s.pen.current, s.pen.current, some s.pen.current⟩, s.drawing.moveTo s.pen.current⟩

/-- Draws through some points in user space, to the last of them. -/
def through (points : List (Point α)) (control stop : Point α) (s : Sketch α) : Sketch α :=
  ⟨{ s.begun.pen with current := stop, control := control },
    points.foldl Drawing.lineTo s.begun.drawing⟩

/-- Draws a stroke in user space, with curves cut at given points. -/
def trace (cuts : Cubic α → List (Point α)) (stroke : Stroke α) (s : Sketch α) : Sketch α :=
  match stroke with
  | .move p => ⟨⟨p, p, some p⟩, s.drawing.moveTo p⟩
  | .line p => s.through [p] p p
  | .horizontal x => s.through [⟨x, s.pen.current.y⟩] ⟨x, s.pen.current.y⟩ ⟨x, s.pen.current.y⟩
  | .vertical y => s.through [⟨s.pen.current.x, y⟩] ⟨s.pen.current.x, y⟩ ⟨s.pen.current.x, y⟩
  | .curve control₁ control₂ p =>
    s.through (cuts ⟨s.begun.pen.current, control₁, control₂, p⟩) control₂ p
  | .smooth control₂ p =>
    s.through (cuts ⟨s.begun.pen.current, s.pen.current.reflect s.pen.control, control₂, p⟩)
      control₂ p
  | .close => s.close

/-- Draws a script in user space. -/
def traceScript (cuts : Cubic α → List (Point α)) (script : Script α) (s : Sketch α) : Sketch α :=
  script.strokes.foldl (fun s (relative, stroke) => s.trace cuts (stroke.resolve relative s.pen)) s

/-- A pen that draws what another one draws in user space, with every point moved. -/
def moved (g : Point α → Point α) (s : Sketch α) : Sketch α := ⟨s.pen, s.drawing.map g⟩

end Sketch

/-- The polylines of path data in user space, with curves cut at given points. -/
def userLines (cuts : Cubic α → List (Point α)) (data : String) :
    Except (Fault α) (List (Polyline α)) :=
  let script : Script α := .read data.toList data.toList
  match script.fault with
  | some fault => .error fault
  | none => .ok ((Sketch.begin .empty).traceScript cuts script).drawing.polylines

namespace Sketch

variable (f : Frame α) (s : Sketch α)

lemma ensureBegun_moved :
    ((s.moved f.map.apply).ensureBegun f).value = s.begun.moved f.map.apply := by
  obtain ⟨⟨current, control, start⟩, drawing⟩ := s
  cases start with
  | some p => rfl
  | none => exact congrArg (Sketch.mk _) (Drawing.moveTo_map _ _ _)

omit [Scalar α] in
/-- Going on through points is drawn as going on through mapped points. -/
lemma foldl_lineTo_map {β : Type} (g : Point α → Point α) (point : β → Point α) (bs : List β)
    (d : Drawing α) :
    bs.foldl (fun d b => d.lineTo (g (point b))) (d.map g) =
      ((bs.map point).foldl Drawing.lineTo d).map g := by
  induction bs generalizing d with
  | nil => rfl
  | cons b bs ih =>
    rw [List.foldl_cons, List.map_cons, List.foldl_cons, Drawing.lineTo_map]
    exact ih _

lemma lineTo_moved (p : Point α) :
    ((s.moved f.map.apply).lineTo f p).value = (s.through [p] p p).moved f.map.apply := by
  rw [lineTo, Logged.value_bind, ensureBegun_moved]
  exact congrArg (Sketch.mk _) (Drawing.lineTo_map _ _ _)

lemma curveTo_moved (control₁ control₂ p : Point α) :
    ((s.moved f.map.apply).curveTo f control₁ control₂ p).value =
      (s.through (f.cuts ⟨s.begun.pen.current, control₁, control₂, p⟩) control₂ p).moved
        f.map.apply := by
  rw [curveTo, Logged.value_bind, ensureBegun_moved]
  have drawn := foldl_lineTo_map f.map.apply (fun piece : Piece α => piece.curve.stop)
    ((Cubic.mk s.begun.pen.current control₁ control₂ p).pieces f.map f.flattening) s.begun.drawing
  exact congrArg (Sketch.mk _) drawn

omit [Scalar α] in
lemma close_moved (g : Point α → Point α) : (s.moved g).close = s.close.moved g := by
  obtain ⟨⟨current, control, start⟩, drawing⟩ := s
  cases start with
  | none => rfl
  | some p => exact congrArg (Sketch.mk _) (Drawing.close_map _ _)

/-- A stroke is drawn as in user space, with every point mapped. -/
lemma draw_moved (stroke : Stroke α) :
    ((s.moved f.map.apply).draw f stroke).value = (s.trace f.cuts stroke).moved f.map.apply := by
  cases stroke with
  | move p => exact congrArg (Sketch.mk _) (Drawing.moveTo_map _ _ _)
  | line p => exact lineTo_moved f s p
  | horizontal x => exact lineTo_moved f s _
  | vertical y => exact lineTo_moved f s _
  | curve control₁ control₂ p => exact curveTo_moved f s control₁ control₂ p
  | smooth control₂ p => exact curveTo_moved f s _ control₂ p
  | close => exact close_moved s f.map.apply

/-- And so is a script. -/
lemma draw_script_moved (script : Script α) :
    script.draw f (s.moved f.map.apply) = (s.traceScript f.cuts script).moved f.map.apply := by
  obtain ⟨strokes, fault⟩ := script
  induction strokes generalizing s with
  | nil => rfl
  | cons first strokes ih =>
    obtain ⟨relative, stroke⟩ := first
    have here := draw_moved f s (stroke.resolve relative s.pen)
    exact (congrArg (Script.draw f ⟨strokes, fault⟩) here).trans (ih _)

end Sketch

/-- A path is drawn as its lines in user space with every point mapped. -/
theorem pathLines_eq_map (f : Frame α) (data : String) :
    pathLines f data =
      userLines f.cuts data >>= fun lines => .ok (lines.map (·.map f.map.apply)) := by
  have drawn := Sketch.draw_script_moved f (.begin .empty) (.read data.toList data.toList)
  have start : (Sketch.begin .empty).moved f.map.apply = .begin .empty := by
    simp [Sketch.moved, Sketch.begin, Drawing.map, Drawing.empty]
  rw [start] at drawn
  rw [pathLines, Sketch.drawPath, Text.Cursor.start, Text.Cursor.ofChars_eq_before,
    Sketch.value_drawData f _ (List.suffix_refl _), Script.outcome, userLines, drawn]
  cases (Script.read data.toList data.toList : Script α).fault with
  | some fault => rfl
  | none =>
    dsimp only
    rw [Sketch.finish, Drawing.polylines_endLine]
    exact congrArg Except.ok (Drawing.polylines_map _ _)

end Svg

end Toolpath
