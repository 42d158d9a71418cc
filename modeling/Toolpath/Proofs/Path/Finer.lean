import Mathlib
import Toolpath.Proofs.Double.Extremes
import Toolpath.Proofs.Path.InStep
import Toolpath.Proofs.Path.Script

/-!
# Paths drawn finer

A finer flattening only adds points (`Sketch.drawPath_finer`). The pieces of a curve are the leaves
of a tree of halves. Where a coarse flattening halves, a finer one does so too, because a length
above the coarse flatness is above the fine one and there are halvings left. So the coarse tree is
the fine one cut off at some nodes, and whatever stands below such a node still ends where its curve
ends (`Cubic.sublist_stops`).

What a path is read as does not depend on the flattening, and the pen goes to the same points. So
two pens at work on the same strokes stay alike, while each line of the one drawing is thinned out
from one of the other (`Drawing.Thins`).
-/

namespace Toolpath

variable {α : Type}

/-- One polyline is what is left of another after some points between the first and the last were
taken out. -/
structure Thins (coarse fine : Polyline α) : Prop where
  sublist : coarse.Sublist fine
  first : coarse.head? = fine.head?
  last : coarse.getLast? = fine.getLast?

namespace Thins

lemma refl (line : Polyline α) : Thins line line := ⟨.refl line, rfl, rfl⟩

/-- Behind lines that begin alike the points added need not begin alike. -/
lemma append {coarse fine more more' : Polyline α} (thins : Thins coarse fine)
    (some : coarse ≠ []) (sublist : more.Sublist more') (last : more.getLast? = more'.getLast?) :
    Thins (coarse ++ more) (fine ++ more') where
  sublist := thins.sublist.append sublist
  first := by
    obtain ⟨p, rest, rfl⟩ := List.exists_cons_of_ne_nil some
    rw [List.head?_append, List.head?_append, ← thins.first]
    rfl
  last := by rw [List.getLast?_append, List.getLast?_append, last, thins.last]

end Thins

/-! ### Curves -/

/-- What one flattening halves, another one halves as well. -/
structure Flattening.Finer [Scalar α] (coarse fine : Flattening α) : Prop where
  flatness : ∀ length, coarse.flatness < length → fine.flatness < length
  maxDepth : coarse.maxDepth ≤ fine.maxDepth

/-- Where the pieces of a curve end: a coarse flattening leaves out some of the ends. -/
lemma Cubic.sublist_stops [Scalar α] (t : Affine α) {coarse fine : α}
    (flatter : ∀ length, coarse < length → fine < length) {fuel fuel' : ℕ} (deeper : fuel ≤ fuel')
    (depth depth' : ℕ) (c : Cubic α) :
    ((c.piecesFrom t coarse depth fuel).map (·.curve.stop)).Sublist
      ((c.piecesFrom t fine depth' fuel').map (·.curve.stop)) := by
  -- A coarse piece is one point, the end of the fine pieces in its place.
  have leaf (depth' fuel' : ℕ) (c : Cubic α) :
      [c.stop].Sublist ((c.piecesFrom t fine depth' fuel').map (·.curve.stop)) := by
    rw [List.singleton_sublist]
    exact List.mem_of_getLast? (c.getLast?_map_stop_piecesFrom t fine depth' fuel')
  induction fuel generalizing fuel' depth depth' c with
  | zero => exact leaf depth' fuel' c
  | succ fuel ih =>
    obtain ⟨fuel', rfl⟩ := Nat.exists_eq_add_of_le' (Nat.one_le_of_lt deeper)
    have left := Nat.le_of_succ_le_succ deeper
    by_cases long : coarse < c.polygonLength t
    case pos =>
      rw [piecesFrom, piecesFrom, if_pos long, if_pos (flatter _ long), List.map_append,
        List.map_append]
      exact (ih left _ _ c.halves.1).append (ih left _ _ c.halves.2)
    case neg =>
      rw [piecesFrom, if_neg long]
      exact leaf depth' (fuel' + 1) c

/-- The points that a curve is drawn to. -/
lemma Cubic.sublist_targets [Scalar α] (t : Affine α) {coarse fine : Flattening α}
    (finer : coarse.Finer fine) (c : Cubic α) :
    ((c.pieces t coarse).map (Piece.target t)).Sublist ((c.pieces t fine).map (Piece.target t)) ∧
      ((c.pieces t coarse).map (Piece.target t)).getLast? =
        ((c.pieces t fine).map (Piece.target t)).getLast? := by
  have split : Piece.target t = t.apply ∘ fun piece : Piece α => piece.curve.stop := rfl
  simp only [split, ← List.map_map]
  constructor
  · exact (sublist_stops t finer.flatness finer.maxDepth 0 0 c).map t.apply
  · simp only [pieces, List.getLast?_map (f := t.apply), getLast?_map_stop_piecesFrom]

/-! ### Drawings -/

namespace Drawing

/-- Each polyline of one drawing is thinned out from the one of the other drawing in its place. -/
structure Thins (coarse fine : Drawing α) : Prop where
  ended : List.Forall₂ Toolpath.Thins (coarse.ended.toList.map Trace.toList)
    (fine.ended.toList.map Trace.toList)
  openLine : Option.Rel Toolpath.Thins coarse.openLine fine.openLine

namespace Thins

variable {coarse fine : Drawing α}

lemma refl (d : Drawing α) : Thins d d where
  ended := List.forall₂_same.2 fun line _ => .refl line
  openLine := by
    cases d.openLine with
    | none => exact .none
    | some line => exact .some (.refl line)

lemma polylines (thins : Thins coarse fine) :
    List.Forall₂ Toolpath.Thins coarse.polylines fine.polylines := by
  rw [polylines_eq, polylines_eq]
  refine List.rel_append thins.ended ?_
  have opened := thins.openLine
  generalize coarse.openLine = line at opened
  generalize fine.openLine = line' at opened
  cases opened with
  | none => exact .nil
  | some alike => exact .cons alike .nil

lemma endLine (thins : Thins coarse fine) : Thins coarse.endLine fine.endLine where
  ended := by
    rw [ended_endLine, ended_endLine]
    exact thins.polylines
  openLine := by
    rw [openLine_endLine, openLine_endLine]
    exact .none

lemma moveTo (thins : Thins coarse fine) (p : Point α) :
    Thins (coarse.moveTo p) (fine.moveTo p) where
  ended := thins.endLine.ended
  openLine := .some (.refl [p])

lemma exists_openLine (thins : Thins coarse fine) {line : Polyline α}
    (begun : coarse.openLine = some line) :
    ∃ line', fine.openLine = some line' ∧ Toolpath.Thins line line' := by
  have opened := thins.openLine
  rw [begun] at opened
  generalize fine.openLine = line' at opened
  cases opened with
  | some alike => exact ⟨_, rfl, alike⟩

/-- Open polylines go on with points of which some are left out, but not the last one. -/
lemma grow {coarse' fine' : Drawing α} {line line' more more' : Polyline α}
    (thins : Thins coarse fine) (ended : coarse'.ended = coarse.ended)
    (ended' : fine'.ended = fine.ended) (begun : coarse.openLine = some line)
    (begun' : fine.openLine = some line') (drawn : coarse'.openLine = some (line ++ more))
    (drawn' : fine'.openLine = some (line' ++ more')) (sublist : more.Sublist more')
    (last : more.getLast? = more'.getLast?) : Thins coarse' fine' where
  ended := by
    rw [ended, ended']
    exact thins.ended
  openLine := by
    have opened := thins.openLine
    rw [begun, begun'] at opened
    rw [drawn, drawn']
    cases opened with
    | some alike => exact .some (alike.append (ne_nil_of_openLine begun) sublist last)

end Thins

end Drawing

/-! ### Strokes -/

namespace Svg.Sketch

variable [Scalar α] {map : Affine α} {flattening flattening' : Flattening α} {s s' : Sketch α}

/-- Two pens are alike, and one drawing is thinned out from the other. -/
structure Thins (coarse fine : Sketch α) : Prop where
  pen : coarse.pen = fine.pen
  drawing : coarse.drawing.Thins fine.drawing

omit [Scalar α] in
lemma Thins.start (thins : Thins s s') : s'.pen.start = s.pen.start := by
  rw [thins.pen]

lemma Thins.moveTo (thins : Thins s s') (p : Point α) :
    Thins (s.moveTo ⟨map, flattening⟩ p) (s'.moveTo ⟨map, flattening'⟩ p) :=
  ⟨rfl, thins.drawing.moveTo _⟩

lemma Thins.ensureBegun (thins : Thins s s') :
    Thins (s.ensureBegun ⟨map, flattening⟩).value (s'.ensureBegun ⟨map, flattening'⟩).value := by
  unfold Sketch.ensureBegun
  rw [thins.start]
  cases s.pen.start with
  | some _ => exact thins
  | none =>
    have moved : Thins (s.moveTo ⟨map, flattening⟩ _) (s'.moveTo ⟨map, flattening'⟩ _) :=
      thins.moveTo s.pen.current
    rw [thins.pen] at moved ⊢
    exact moved

/-- Going on to a point, where the open polyline has begun. -/
lemma Thins.lineTo (thins : Thins s s') (settled : s.Settled ⟨map, flattening⟩) (q : Point α) :
    Thins (s.lineTo ⟨map, flattening⟩ q).value (s'.lineTo ⟨map, flattening'⟩ q).value := by
  have begun : Thins (s.ensureBegun ⟨map, flattening⟩).value
      (s'.ensureBegun ⟨map, flattening'⟩).value := thins.ensureBegun
  obtain ⟨p, _, line, opened, _⟩ := settled.ensureBegun
  obtain ⟨line', opened', _⟩ := begun.drawing.exists_openLine opened
  refine ⟨congrArg (Pen.goTo · q) begun.pen, ?_⟩
  exact begun.drawing.grow (Drawing.ended_lineTo _ _) (Drawing.ended_lineTo _ _) opened opened'
    (Drawing.openLine_lineTo opened _) (Drawing.openLine_lineTo opened' _) (.refl _) rfl

lemma Thins.curveTo (thins : Thins s s') (settled : s.Settled ⟨map, flattening⟩)
    (finer : flattening.Finer flattening') (control₁ control₂ q : Point α) :
    Thins (s.curveTo ⟨map, flattening⟩ control₁ control₂ q).value
      (s'.curveTo ⟨map, flattening'⟩ control₁ control₂ q).value := by
  have begun : Thins (s.ensureBegun ⟨map, flattening⟩).value
      (s'.ensureBegun ⟨map, flattening'⟩).value := thins.ensureBegun
  obtain ⟨p, _, line, opened, _⟩ := settled.ensureBegun
  obtain ⟨line', opened', _⟩ := begun.drawing.exists_openLine opened
  let curve : Cubic α :=
    ⟨(s.ensureBegun ⟨map, flattening⟩).value.pen.current, control₁, control₂, q⟩
  have same : curve =
      ⟨(s'.ensureBegun ⟨map, flattening'⟩).value.pen.current, control₁, control₂, q⟩ := by
    rw [← begun.pen]
  obtain ⟨sublist, last⟩ := curve.sublist_targets map finer
  let arrive (pen : Pen α) : Pen α := { pen with current := q, control := control₂ }
  refine ⟨congrArg arrive begun.pen, ?_⟩
  refine begun.drawing.grow (Drawing.ended_foldl_lineTo (Piece.target map) _ _)
    (Drawing.ended_foldl_lineTo (Piece.target map) _ _) opened opened'
    (Drawing.openLine_foldl_lineTo (Piece.target map) _ opened) ?_ sublist last
  rw [same]
  exact Drawing.openLine_foldl_lineTo (Piece.target map) _ opened'

/-- Both go back to one point, as the lines begin alike. -/
lemma Thins.close (thins : Thins s s') (settled : s.Settled ⟨map, flattening⟩) :
    Thins s.close s'.close := by
  cases begun : s.pen.start with
  | none =>
    rw [close_of_start_eq_none begun, close_of_start_eq_none (thins.start.trans begun)]
    exact thins
  | some p =>
    obtain ⟨_, line, opened, first, _⟩ := settled p begun
    obtain ⟨line', opened', alike⟩ := thins.drawing.exists_openLine opened
    have first' : line'.head? = _ := alike.first.symm.trans first
    rw [Sketch.close, Sketch.close, thins.start, begun]
    refine ⟨congrArg (Pen.goTo · p) thins.pen, ?_⟩
    exact thins.drawing.grow (Drawing.ended_close _) (Drawing.ended_close _) opened opened'
      (Drawing.openLine_close opened first) (Drawing.openLine_close opened' first') (.refl _) rfl

lemma Thins.draw (thins : Thins s s') (settled : s.Settled ⟨map, flattening⟩)
    (finer : flattening.Finer flattening') (stroke : Stroke α) :
    Thins (s.draw ⟨map, flattening⟩ stroke).value (s'.draw ⟨map, flattening'⟩ stroke).value := by
  cases stroke with
  | move p => exact thins.moveTo p
  | line p => exact thins.lineTo settled p
  | horizontal x =>
    rw [Sketch.draw, Sketch.draw, ← thins.pen]
    exact thins.lineTo settled ⟨x, s.pen.current.y⟩
  | vertical y =>
    rw [Sketch.draw, Sketch.draw, ← thins.pen]
    exact thins.lineTo settled ⟨s.pen.current.x, y⟩
  | curve control₁ control₂ p => exact thins.curveTo settled finer control₁ control₂ p
  | smooth control₂ p =>
    rw [Sketch.draw, Sketch.draw, ← thins.pen]
    exact thins.curveTo settled finer (s.pen.current.reflect s.pen.control) control₂ p
  | close => exact thins.close settled

/-- A settled pen stays so. -/
lemma Settled.drawn {f : Frame α} (settled : s.Settled f) (stroke : Stroke α) :
    (s.draw f stroke).value.Settled f := by
  by_cases closes : stroke = .close
  · subst closes
    cases begun : s.pen.start with
    | none =>
      have still : (s.draw f .close).value = s := close_of_start_eq_none begun
      rwa [still]
    | some p => exact (settled p begun).close.1.settled
  · obtain ⟨p, inStep⟩ := settled.draw closes
    exact inStep.settled

/-! ### Path data -/

/-- A script is drawn by both pens. -/
lemma Thins.drawScript (thins : Thins s s') (settled : s.Settled ⟨map, flattening⟩)
    (finer : flattening.Finer flattening') (script : Script α) :
    Thins (script.draw ⟨map, flattening⟩ s) (script.draw ⟨map, flattening'⟩ s') := by
  unfold Script.draw
  generalize script.strokes = strokes
  induction strokes generalizing s s' with
  | nil => exact thins
  | cons head strokes ih =>
    obtain ⟨relative, stroke⟩ := head
    have next := thins.draw settled finer (stroke.resolve relative s.pen)
    rw [List.foldl_cons, List.foldl_cons]
    refine ih ?_ (settled.drawn _)
    rwa [thins.pen] at next ⊢

/-- What drawing a script comes to: the same fault or none, and drawings that are alike. -/
lemma Thins.outcome (thins : Thins s s') (settled : s.Settled ⟨map, flattening⟩)
    (finer : flattening.Finer flattening') (script : Script α) :
    (script.outcome ⟨map, flattening⟩ s).2 = (script.outcome ⟨map, flattening'⟩ s').2 ∧
      Thins (script.outcome ⟨map, flattening⟩ s).1 (script.outcome ⟨map, flattening'⟩ s').1 := by
  have drawn := thins.drawScript settled finer script
  unfold Script.outcome
  cases script.fault with
  | none => exact ⟨rfl, drawn.pen, drawn.drawing.endLine⟩
  | some fault => exact ⟨rfl, drawn⟩

/-- Path data drawn with two flattenings, one of them no flatter and with no fewer halvings: the
outcome is the same, a fault included. There are as many polylines, and each one that is drawn
coarsely has points of the one drawn finely in their order, from the same first point to the same
last one. -/
theorem drawPath_finer (map : Affine Float) {coarse fine : Flattening Float}
    (flatter : fine.flatness ≤ coarse.flatness) (deeper : coarse.maxDepth ≤ fine.maxDepth)
    (drawing : Drawing Float) (data : String) :
    let coarsely := ((begin drawing).drawPath ⟨map, coarse⟩ data).value
    let finely := ((begin drawing).drawPath ⟨map, fine⟩ data).value
    coarsely.2 = finely.2 ∧
      coarsely.1.drawing.polylines.length = finely.1.drawing.polylines.length ∧
      List.Forall₂ Toolpath.Thins coarsely.1.drawing.polylines finely.1.drawing.polylines := by
  have finer : coarse.Finer fine := ⟨fun _ long => Double.lt_of_le flatter long, deeper⟩
  have fresh : (begin drawing).Settled ⟨map, coarse⟩ := settled_of_start_eq_none rfl
  have start : Thins (begin drawing) (begin drawing) := ⟨rfl, .refl drawing⟩
  intro coarsely finely
  obtain ⟨fault, drawn⟩ := start.outcome fresh finer (Script.read data.toList data.toList)
  rw [← drawPath_eq_script, ← drawPath_eq_script] at *
  exact ⟨fault, drawn.drawing.polylines.length_eq, drawn.drawing.polylines⟩

/-- Two curves, the second one behind a close, and a line without a number. -/
theorem drawPath_finer_of_two_curves :
    let map : Affine Float := ⟨2.0, 0.5, 0.0, -1.0, 0.1, 3.0⟩
    let coarse : Flattening Float := ⟨2.0, 1⟩
    let fine : Flattening Float := ⟨1.0, 2⟩
    let data := "M0 0C0 1 1 1 1 0ZS1 2 3 4 L"
    let coarsely := ((begin .empty).drawPath ⟨map, coarse⟩ data).value
    let finely := ((begin .empty).drawPath ⟨map, fine⟩ data).value
    (fine.flatness ≤ coarse.flatness ∧ coarse.maxDepth ≤ fine.maxDepth) ∧
      coarsely.2 = finely.2 ∧
      List.Forall₂ Toolpath.Thins coarsely.1.drawing.polylines finely.1.drawing.polylines := by
  intro map coarse fine data coarsely finely
  have flatter : fine.flatness ≤ coarse.flatness := by decide +kernel
  have deeper : coarse.maxDepth ≤ fine.maxDepth := by decide
  obtain ⟨fault, _, thins⟩ := drawPath_finer map flatter deeper .empty data
  exact ⟨⟨flatter, deeper⟩, fault, thins⟩

-- Half the flatness and one halving more add four points to these curves.
example :
    let map : Affine Float := ⟨2.0, 0.5, 0.0, -1.0, 0.1, 3.0⟩
    let drawn (flattening : Flattening Float) :=
      ((begin .empty).drawPath ⟨map, flattening⟩ "M0 0C0 1 1 1 1 0ZS1 2 3 4 L").value.1.drawing
    (drawn ⟨2.0, 1⟩).polylines.map List.length = [6] ∧
      (drawn ⟨1.0, 2⟩).polylines.map List.length = [10] := by
  decide +kernel

end Svg.Sketch

end Toolpath
