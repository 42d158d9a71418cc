import Toolpath.Proofs.Path.Cases

/-!
# Drawing behind what is drawn

All elements of a document draw on one drawing. `Drawing.behind` puts ended polylines before those
of a drawing, and each operation of a pen commutes with it: what an element draws, and whether it
fails, does not depend on what was drawn before it. The results are `drawAll_fresh` and
`drawPath_fresh`, which say this of a pen that begins on a drawing without an open polyline.

Only values are compared here. The notes that a pen takes do not depend on the drawing either, but
nothing needs it.
-/

namespace Toolpath

namespace Drawing

variable {α : Type}

/-- A drawing with other polylines, all ended, before it. -/
def behind (before : Array (Trace α)) (d : Drawing α) : Drawing α :=
  ⟨before ++ d.ended, d.current⟩

/-- A drawing without an open polyline stands wholly before what follows. -/
lemma eq_behind_empty {d : Drawing α} (idle : d.current = none) : d = empty.behind d.ended := by
  obtain ⟨ended, current⟩ := d
  simp only at idle
  simp [behind, empty, idle]

@[simp] lemma polylines_behind (before : Array (Trace α)) (d : Drawing α) :
    (d.behind before).polylines = before.toList.map Trace.toList ++ d.polylines := by
  simp [behind, polylines]

lemma polylines_of_idle {d : Drawing α} (idle : d.current = none) :
    d.polylines = d.ended.toList.map Trace.toList := by
  simp [polylines, idle]

@[simp] lemma current_behind (before : Array (Trace α)) (d : Drawing α) :
    (d.behind before).current = d.current :=
  rfl

@[simp] lemma endLine_behind (before : Array (Trace α)) (d : Drawing α) :
    (d.behind before).endLine = d.endLine.behind before := by
  obtain ⟨ended, current⟩ := d
  cases current with
  | none => rfl
  | some t => simp [behind, endLine]

@[simp] lemma moveTo_behind (before : Array (Trace α)) (d : Drawing α) (p : Point α) :
    (d.behind before).moveTo p = (d.moveTo p).behind before := by
  simp only [moveTo, endLine_behind]
  rfl

@[simp] lemma lineTo_behind (before : Array (Trace α)) (d : Drawing α) (p : Point α) :
    (d.behind before).lineTo p = (d.lineTo p).behind before := by
  obtain ⟨ended, current⟩ := d
  cases current <;> rfl

@[simp] lemma close_behind (before : Array (Trace α)) (d : Drawing α) :
    (d.behind before).close = d.close.behind before := by
  obtain ⟨ended, current⟩ := d
  cases current <;> rfl

end Drawing

namespace Svg.Sketch

open Text (Cursor isSpace)

variable {α : Type}

/-- A pen at work with other polylines, all ended, before its drawing. -/
def behind (before : Array (Trace α)) (s : Sketch α) : Sketch α :=
  ⟨s.pen, s.drawing.behind before⟩

variable (before : Array (Trace α)) (f : Frame α)

@[simp] lemma pen_behind (s : Sketch α) : (s.behind before).pen = s.pen :=
  rfl

@[simp] lemma drawing_behind (s : Sketch α) :
    (s.behind before).drawing = s.drawing.behind before :=
  rfl

@[simp] lemma finish_behind (s : Sketch α) : (s.behind before).finish = s.finish.behind before :=
  Drawing.endLine_behind before s.drawing

@[simp] lemma close_behind (s : Sketch α) :
    (s.behind before).close = s.close.behind before := by
  obtain ⟨⟨current, control, start⟩, drawing⟩ := s
  cases start with
  | none => rfl
  | some p => simp [close, behind]

variable [Scalar α]

@[simp] lemma moveTo_behind (p : Point α) (s : Sketch α) :
    (s.behind before).moveTo f p = (s.moveTo f p).behind before := by
  simp [moveTo, behind]

@[simp] lemma value_ensureBegun_behind (s : Sketch α) :
    ((s.behind before).ensureBegun f).value = (s.ensureBegun f).value.behind before := by
  obtain ⟨⟨current, control, start⟩, drawing⟩ := s
  cases start with
  | none => exact moveTo_behind before f current _
  | some p => rfl

@[simp] lemma value_lineTo_behind (p : Point α) (s : Sketch α) :
    ((s.behind before).lineTo f p).value = (s.lineTo f p).value.behind before := by
  simp only [lineTo, Logged.value_bind, value_ensureBegun_behind]
  simp [behind]

lemma foldl_lineTo_behind (pieces : List (Piece α)) (d : Drawing α) :
    pieces.foldl (fun d piece => d.lineTo (piece.target f.map)) (d.behind before) =
      (pieces.foldl (fun d piece => d.lineTo (piece.target f.map)) d).behind before := by
  induction pieces generalizing d with
  | nil => rfl
  | cons piece pieces ih =>
    simp only [List.foldl_cons, Drawing.lineTo_behind]
    exact ih _

@[simp] lemma value_curveTo_behind (control₁ control₂ p : Point α) (s : Sketch α) :
    ((s.behind before).curveTo f control₁ control₂ p).value =
      (s.curveTo f control₁ control₂ p).value.behind before := by
  simp only [curveTo, Logged.value_bind, value_ensureBegun_behind]
  simp [behind, foldl_lineTo_behind]

/-- Each stroke is drawn the same behind other polylines. -/
@[simp] lemma value_draw_behind (stroke : Stroke α) (s : Sketch α) :
    ((s.behind before).draw f stroke).value = (s.draw f stroke).value.behind before := by
  cases stroke <;> simp [draw]

@[simp] lemma value_drawAll_behind (strokes : List (Stroke α)) (s : Sketch α) :
    ((s.behind before).drawAll f strokes).value = (s.drawAll f strokes).value.behind before := by
  induction strokes generalizing s with
  | nil => rfl
  | cons stroke strokes ih => simp [drawAll, ih]

/-- The groups behind a letter are drawn the same as well, and end at the same place. -/
lemma value_drawGroups_behind (letter : Char) (command : Command) (relative : Bool)
    (s : Sketch α) (c : Cursor) :
    ((s.behind before).drawGroups f letter command relative c).value =
      ((s.drawGroups f letter command relative c).value.1.behind before,
        (s.drawGroups f letter command relative c).value.2) := by
  fun_induction drawGroups f letter command relative s c with
  | case1 s c start atEnd =>
    rw [drawGroups_eq, if_pos atEnd]
    rfl
  | case2 s c start atEnd stroke next read ih =>
    rw [drawGroups_eq, if_neg atEnd, read]
    simp only [Logged.value_bind, pen_behind, value_draw_behind]
    exact ih _
  | case3 s c start atEnd fault next read =>
    rw [drawGroups_eq, if_neg atEnd, read]

/-- So are whole path data, with the same fault. -/
lemma value_drawData_behind (s : Sketch α) (c : Cursor) :
    ((s.behind before).drawData f c).value =
      ((s.drawData f c).value.1.behind before, (s.drawData f c).value.2) := by
  fun_induction drawData f s c with
  | case1 s c next =>
    rw [drawData_eq, next]
    simp only [Logged.value_pure, pen_behind, finish_behind]
    rfl
  | case2 s c letter offset rest next unknown =>
    rw [drawData_eq, next]
    simp [unknown]
  | case3 s c letter offset rest next close ih =>
    rw [drawData_eq, next]
    simpa [close] using ih
  | case4 s c letter offset rest next command relative draw fault after read =>
    rw [drawData_eq, next]
    simp [draw, read]
  | case5 s c letter offset rest next command relative draw stroke after read first others
      remaining ih =>
    rw [drawData_eq, next]
    simpa [draw, read, value_drawGroups_behind] using ih

/-! ### A pen on a drawing without an open polyline -/

variable {d : Drawing α}

/-- Strokes add to a drawing what they draw on an empty one. -/
theorem drawAll_fresh (idle : d.current = none) (strokes : List (Stroke α)) :
    ((begin d).drawAll f strokes).value.finish.polylines =
      d.polylines ++ ((begin .empty).drawAll f strokes).value.finish.polylines := by
  have start : begin d = (begin .empty).behind d.ended := by
    rw [begin, Drawing.eq_behind_empty idle]
    rfl
  rw [start, value_drawAll_behind, finish_behind, Drawing.polylines_behind,
    Drawing.polylines_of_idle idle]

/-- The pen is laid down behind path data without a fault. -/
lemma current_drawData (s : Sketch α) (c : Cursor) (well : (s.drawData f c).value.2 = none) :
    (s.drawData f c).value.1.drawing.current = none := by
  fun_induction drawData f s c with
  | case1 s c next => exact Drawing.current_endLine s.drawing
  | case2 s c letter offset rest next unknown => cases well
  | case3 s c letter offset rest next close ih => exact ih well
  | case4 s c letter offset rest next command relative draw fault after read => cases well
  | case5 s c letter offset rest next command relative draw stroke after read first others
      remaining ih => exact ih well

/-- Path data add to a drawing what they draw on an empty one, and fail the same. -/
theorem drawPath_fresh (idle : d.current = none) (data : String) :
    ((begin d).drawPath f data).value.1.drawing.polylines =
        d.polylines ++ ((begin .empty).drawPath f data).value.1.drawing.polylines ∧
      ((begin d).drawPath f data).value.2 = ((begin .empty).drawPath f data).value.2 := by
  have start : begin d = (begin .empty).behind d.ended := by
    rw [begin, Drawing.eq_behind_empty idle]
    rfl
  rw [start, drawPath, value_drawData_behind, Drawing.polylines_of_idle idle]
  exact ⟨Drawing.polylines_behind _ _, rfl⟩

end Svg.Sketch

end Toolpath
