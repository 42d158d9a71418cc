import Toolpath.Proofs.Drawing
import Toolpath.Svg.Sketch

/-!
# Pen and drawing in step

A pen moves in user space, and what it draws is mapped onto the page. `Sketch.InStep` says that the
two have not come apart: the open polyline begins where the start of the subpath is mapped and ends
where the current point is mapped. A stroke keeps this (`Sketch.InStep.draw`), and any stroke but a
close brings it about (`Sketch.Settled.draw`), so it holds after any strokes
(`Sketch.drawAll_inStep`). No arithmetic is looked at: the points are the same because the same map
is applied to the same point.
-/

namespace Toolpath

/-- The last piece of a curve ends where the curve does. -/
lemma Cubic.getLast?_map_stop_piecesFrom {α : Type} [Scalar α] (t : Affine α) (flatness : α)
    (depth fuel : Nat) (c : Cubic α) :
    ((c.piecesFrom t flatness depth fuel).map (·.curve.stop)).getLast? = some c.stop := by
  induction fuel generalizing depth c with
  | zero => rfl
  | succ fuel ih =>
    rw [piecesFrom]
    split
    case isTrue =>
      -- The second half has the end of the whole.
      have second := ih (depth + 1) c.halves.2
      rw [List.map_append, List.getLast?_append, second]
      rfl
    case isFalse => rfl

namespace Svg.Sketch

variable {α : Type} [Scalar α] {f : Frame α} {p : Point α} {s : Sketch α}

/-- The subpath begins at `p`, and the open polyline runs from where `p` is mapped to where the
current point is mapped. -/
structure InStep (f : Frame α) (p : Point α) (s : Sketch α) : Prop where
  start : s.pen.start = some p
  drawn : ∃ line, s.drawing.openLine = some line ∧ line.head? = some (f.map.apply p) ∧
    line.getLast? = some (f.map.apply s.pen.current)

/-! ### One stroke -/

lemma inStep_moveTo (f : Frame α) (p : Point α) (s : Sketch α) : (s.moveTo f p).InStep f p :=
  ⟨rfl, [f.map.apply p], Drawing.openLine_moveTo _ _, rfl, rfl⟩

/-- The open polyline grew, and the pen stands where its last point comes from. -/
lemma InStep.grow (inStep : s.InStep f p) {pen : Pen α} {drawing : Drawing α}
    (points : Polyline α) (start : pen.start = s.pen.start)
    (drawn : ∀ line, s.drawing.openLine = some line → line.head? = some (f.map.apply p) →
      drawing.openLine = some (line ++ points))
    (last : points.getLast? = some (f.map.apply pen.current)) :
    InStep f p ⟨pen, drawing⟩ := by
  obtain ⟨begun, line, current, head, _⟩ := inStep
  refine ⟨start.trans begun, line ++ points, drawn line current head, ?_, ?_⟩
  · rw [List.head?_append, head]
    rfl
  · rw [List.getLast?_append, last]
    rfl

/-- A pen with a subpath is in step. A new pen is, as it has none. -/
def Settled (f : Frame α) (s : Sketch α) : Prop :=
  ∀ p, s.pen.start = some p → s.InStep f p

lemma InStep.settled (inStep : s.InStep f p) : s.Settled f := by
  intro q begun
  obtain rfl : p = q := Option.some.inj (inStep.start.symm.trans begun)
  exact inStep

lemma settled_of_start_eq_none (fresh : s.pen.start = none) : s.Settled f := by
  intro p begun
  rw [fresh] at begun
  cases begun

lemma Settled.ensureBegun (settled : s.Settled f) :
    ∃ p, (s.ensureBegun f).value.InStep f p := by
  unfold Sketch.ensureBegun
  cases begun : s.pen.start with
  | none => exact ⟨s.pen.current, inStep_moveTo f _ s⟩
  | some p => exact ⟨p, settled p begun⟩

lemma Settled.lineTo (settled : s.Settled f) (q : Point α) :
    ∃ p, (s.lineTo f q).value.InStep f p := by
  obtain ⟨p, begun⟩ := settled.ensureBegun
  refine ⟨p, begun.grow [f.map.apply q] rfl (fun line drawn _ => ?_) rfl⟩
  exact Drawing.openLine_lineTo drawn _

lemma Settled.curveTo (settled : s.Settled f) (control₁ control₂ q : Point α) :
    ∃ p, (s.curveTo f control₁ control₂ q).value.InStep f p := by
  obtain ⟨p, begun⟩ := settled.ensureBegun
  let curve : Cubic α := ⟨(s.ensureBegun f).value.pen.current, control₁, control₂, q⟩
  have last : ((curve.pieces f.map f.flattening).map (Piece.target f.map)).getLast? =
      some (f.map.apply q) := by
    have stop := Cubic.getLast?_map_stop_piecesFrom f.map f.flattening.flatness 0
      f.flattening.maxDepth curve
    have split : Piece.target f.map = f.map.apply ∘ fun piece : Piece α => piece.curve.stop := rfl
    rw [split, ← List.map_map, List.getLast?_map]
    exact congrArg (Option.map f.map.apply) stop
  refine ⟨p, begun.grow _ rfl (fun line drawn _ => ?_) last⟩
  exact Drawing.openLine_foldl_lineTo (Piece.target f.map) _ drawn

/-- Closing goes back to where the subpath began, which stays the start. -/
lemma InStep.close (inStep : s.InStep f p) :
    s.close.InStep f p ∧ s.close.pen.current = p := by
  have closed : s.close = ⟨s.pen.goTo p, s.drawing.close⟩ := by
    rw [Sketch.close, inStep.start]
  rw [closed]
  refine ⟨inStep.grow [f.map.apply p] rfl (fun line drawn first => ?_) rfl, rfl⟩
  exact Drawing.openLine_close drawn first

/-- Any stroke but a close brings a pen in step. -/
lemma Settled.draw (settled : s.Settled f) {stroke : Stroke α} (draws : stroke ≠ .close) :
    ∃ p, (s.draw f stroke).value.InStep f p := by
  cases stroke with
  | move q => exact ⟨q, inStep_moveTo f q s⟩
  | line q => exact settled.lineTo q
  | horizontal x => exact settled.lineTo _
  | vertical y => exact settled.lineTo _
  | curve control₁ control₂ q => exact settled.curveTo control₁ control₂ q
  | smooth control₂ q => exact settled.curveTo _ control₂ q
  | close => exact absurd rfl draws

/-- A pen in step stays in step, whatever it draws. -/
lemma InStep.draw (inStep : s.InStep f p) (stroke : Stroke α) :
    ∃ p, (s.draw f stroke).value.InStep f p := by
  by_cases closes : stroke = .close
  · subst closes
    exact ⟨p, inStep.close.1⟩
  · exact inStep.settled.draw closes

omit [Scalar α] in
/-- Closing without a subpath does nothing. -/
lemma close_of_start_eq_none (fresh : s.pen.start = none) : s.close = s := by
  rw [Sketch.close, fresh]

/-! ### Any strokes -/

lemma InStep.drawAll (inStep : s.InStep f p) (strokes : List (Stroke α)) :
    ∃ p, (s.drawAll f strokes).value.InStep f p := by
  induction strokes generalizing s p with
  | nil => exact ⟨p, inStep⟩
  | cons stroke strokes ih =>
    obtain ⟨q, after⟩ := inStep.draw stroke
    exact ih after

/-- Without a subpath, nothing happens until a stroke is no close, and from there on the pen is in
step. -/
lemma drawAll_of_start_eq_none (fresh : s.pen.start = none) (strokes : List (Stroke α)) :
    ((∀ stroke ∈ strokes, stroke = .close) ∧ (s.drawAll f strokes).value = s) ∨
      ((∃ stroke ∈ strokes, stroke ≠ .close) ∧ ∃ p, (s.drawAll f strokes).value.InStep f p) := by
  induction strokes with
  | nil => exact .inl ⟨by simp, rfl⟩
  | cons stroke strokes ih =>
    by_cases closes : stroke = .close
    case pos =>
      subst closes
      have still : (s.drawAll f (.close :: strokes)).value = (s.drawAll f strokes).value := by
        change (s.close.drawAll f strokes).value = _
        rw [close_of_start_eq_none fresh]
      rw [still]
      simpa using ih
    case neg =>
      obtain ⟨p, after⟩ := (settled_of_start_eq_none fresh).draw closes
      exact .inr ⟨⟨stroke, List.mem_cons_self, closes⟩, after.drawAll strokes⟩

/-- A new pen on any drawing: strokes that only close leave the drawing alone and begin no subpath.
After any others the open polyline runs from where the start of the subpath is mapped to where the
current point is mapped, and closing goes back to that start. -/
theorem drawAll_inStep (f : Frame α) (drawing : Drawing α) (strokes : List (Stroke α)) :
    let s := ((begin drawing).drawAll f strokes).value
    ((∀ stroke ∈ strokes, stroke = .close) → s.pen.start = none ∧ s.drawing = drawing) ∧
      ((∃ stroke ∈ strokes, stroke ≠ .close) →
        ∃ p, s.InStep f p ∧ s.close.InStep f p ∧ s.close.pen.current = p) := by
  have fresh : (begin drawing).pen.start = none := rfl
  rcases drawAll_of_start_eq_none (f := f) fresh strokes with ⟨closes, still⟩ | ⟨draws, p, inStep⟩
  · refine ⟨fun _ => ?_, fun ⟨stroke, mem, draws⟩ => absurd (closes stroke mem) draws⟩
    simp only [still]
    exact ⟨rfl, rfl⟩
  · obtain ⟨stroke, mem, draws⟩ := draws
    exact ⟨fun closes => absurd (closes stroke mem) draws, fun _ => ⟨p, inStep, inStep.close⟩⟩

/-- Two closes do nothing on a drawing with an open polyline. A smooth curve behind them begins at
the origin, and so does what is drawn after it was closed. -/
theorem drawAll_inStep_of_smooth_first :
    let f : Frame Float := ⟨⟨2.0, 0.5, 0.0, -1.0, 0.1, 3.0⟩, ⟨0.5, 2⟩⟩
    let drawing : Drawing Float := ⟨#[], some (.single ⟨7.0, 7.0⟩)⟩
    let closes : List (Stroke Float) := [.close, .close]
    let strokes := closes ++ [.smooth ⟨0.3, 1.0⟩ ⟨1.0, 0.7⟩, .close, .vertical 0.2]
    let untouched := ((begin drawing).drawAll f closes).value
    let s := ((begin drawing).drawAll f strokes).value
    ((∀ stroke ∈ closes, stroke = .close) ∧ untouched.pen.start = none ∧
        untouched.drawing = drawing) ∧
      (∃ stroke ∈ strokes, stroke ≠ .close) ∧
        ∃ p, s.InStep f p ∧ s.close.InStep f p ∧ s.close.pen.current = p := by
  intro f drawing closes strokes untouched s
  have closed : ∀ stroke ∈ closes, stroke = .close := by simp [closes]
  have draws : ∃ stroke ∈ strokes, stroke ≠ .close :=
    ⟨.vertical 0.2, by simp [strokes], by simp⟩
  exact ⟨⟨closed, (drawAll_inStep f drawing closes).1 closed⟩, draws,
    (drawAll_inStep f drawing strokes).2 draws⟩

end Svg.Sketch

end Toolpath
