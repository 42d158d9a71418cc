import Toolpath.Proofs.Path.InStep

/-!
# Where a pen stands, told from its strokes

A pen keeps three points as it draws: where it is, where its subpath began and the last control
point. Each of them can be told from the strokes alone, whatever they are drawn on and however they
are mapped: `reached`, `subpathStart` and `lastControl` look back over the strokes, the last of them
first. A stroke takes the pen of the strokes before it to the pen with it (`pen_draw`), and so do
any strokes from a new pen (`drawAll_history`). In particular a smooth curve sees the control point
of a curve only where that curve was the stroke just before.
-/

namespace Toolpath.Svg

variable {α : Type}

/-- Does a stroke only go back to where its subpath began? -/
def Stroke.closes : Stroke α → Bool
  | .close => true
  | _ => false

/-- Where a move leads. -/
def Stroke.moved? : Stroke α → Option (Point α)
  | .move p => some p
  | _ => none

/-- The strokes that a new pen draws: a close before all others does nothing. -/
def effective (strokes : List (Stroke α)) : List (Stroke α) := strokes.dropWhile Stroke.closes

/-- The first stroke that a new pen draws is no close. -/
lemma closes_of_effective {strokes rest : List (Stroke α)} {stroke : Stroke α}
    (first : effective strokes = stroke :: rest) : stroke.closes = false := by
  have head := List.head?_dropWhile_not Stroke.closes strokes
  rw [← effective, first] at head
  simpa using head

variable [Scalar α]

/-- Where the subpath after some strokes began: where the last move led, or at the origin. -/
def subpathStart (history : List (Stroke α)) : Point α :=
  (history.findSome? Stroke.moved?).getD .origin

/-- Where strokes lead from the origin, the last of them first. -/
def reached : List (Stroke α) → Point α
  | [] => .origin
  | .move p :: _ => p
  | .line p :: _ => p
  | .horizontal x :: earlier => ⟨x, (reached earlier).y⟩
  | .vertical y :: earlier => ⟨(reached earlier).x, y⟩
  | .curve _ _ p :: _ => p
  | .smooth _ p :: _ => p
  | .close :: earlier => subpathStart earlier

/-- The last control point of a curve that was drawn just now. After anything else it is where the
strokes lead. -/
def lastControl : List (Stroke α) → Point α
  | .curve _ control₂ _ :: _ => control₂
  | .smooth control₂ _ :: _ => control₂
  | history => reached history

/-- A curve that was closed leaves no control point. -/
example (p q r : Point α) : lastControl [.close, .curve p q r, .move p] = p := rfl

/-- What is warned of: strokes that begin without a move do so at the origin. -/
def warnings : List (Stroke α) → List (Diagnostic α)
  | [] => []
  | .move _ :: _ => []
  | _ :: _ => [.drawingBeforeMove .origin]

/-- The pen after strokes, the last of them first. It has no subpath if there were none. -/
def Pen.after (history : List (Stroke α)) : Pen α :=
  ⟨reached history, lastControl history,
    if history.isEmpty then none else some (subpathStart history)⟩

namespace Sketch

variable {f : Frame α} {s : Sketch α} {history : List (Stroke α)}

/-! ### One stroke -/

/-- A pen that has begun stands as before, and its subpath began where the strokes tell. -/
lemma pen_ensureBegun (known : s.pen = .after history) :
    (s.ensureBegun f).value.pen =
      ⟨reached history, lastControl history, some (subpathStart history)⟩ := by
  obtain ⟨pen, drawing⟩ := s
  obtain rfl : pen = .after history := known
  cases history <;> rfl

/-- A stroke takes the pen of the strokes before it to the pen with it. -/
lemma pen_draw (known : s.pen = .after history) (stroke : Stroke α)
    (draws : history ≠ [] ∨ stroke.closes = false) :
    (s.draw f stroke).value.pen = .after (stroke :: history) := by
  have begun := pen_ensureBegun (f := f) known
  have current : s.pen.current = reached history := congrArg Pen.current known
  cases stroke with
  | move p => rfl
  | line p =>
    simp only [draw, lineTo, Logged.value_bind, Logged.value_pure, begun]
    rfl
  | horizontal x =>
    simp only [draw, lineTo, Logged.value_bind, Logged.value_pure, begun, current]
    rfl
  | vertical y =>
    simp only [draw, lineTo, Logged.value_bind, Logged.value_pure, begun, current]
    rfl
  | curve control₁ control₂ p =>
    simp only [draw, curveTo, Logged.value_bind, begun]
    rfl
  | smooth control₂ p =>
    simp only [draw, curveTo, Logged.value_bind, begun]
    rfl
  | close =>
    have some : history ≠ [] := draws.resolve_right (by simp [Stroke.closes])
    obtain ⟨last, earlier, rfl⟩ := List.exists_cons_of_ne_nil some
    obtain ⟨pen, drawing⟩ := s
    obtain rfl : pen = .after (last :: earlier) := known
    rfl

/-! ### Warnings -/

/-- The warnings among notes. -/
def warned (notes : List (Diagnostic α)) : List (Diagnostic α) :=
  notes.filter (·.level = .warn)

omit [Scalar α] in
lemma warned_append (notes more : List (Diagnostic α)) :
    warned (notes ++ more) = warned notes ++ warned more :=
  List.filter_append _ _

/-- How deep a curve was cut is no warning. -/
lemma warned_depthNotes (f : Frame α) (pieces : List (Piece α)) :
    warned (depthNotes f pieces) = [] := by
  refine List.filter_eq_nil_iff.2 fun d mem => ?_
  obtain ⟨piece, _, rfl⟩ := List.mem_map.1 mem
  show ¬decide (Level.trace = Level.warn) = true
  decide

lemma warned_lineTo (p : Point α) :
    warned (s.lineTo f p).notes = warned (s.ensureBegun f).notes := by
  rw [lineTo, Logged.notes_bind, Logged.notes_pure, List.append_nil]

lemma warned_curveTo (control₁ control₂ p : Point α) :
    warned (s.curveTo f control₁ control₂ p).notes = warned (s.ensureBegun f).notes := by
  rw [curveTo, Logged.notes_bind, warned_append, warned_depthNotes, List.append_nil]

/-- A pen with a subpath is not warned of. -/
lemma warned_draw_of_begun {p : Point α} (begun : s.pen.start = some p) (stroke : Stroke α) :
    warned (s.draw f stroke).notes = [] := by
  have still : warned (s.ensureBegun f).notes = [] := by
    simp [ensureBegun, begun, warned]
  cases stroke with
  | move => rfl
  | line p => exact (warned_lineTo p).trans still
  | horizontal x => exact (warned_lineTo _).trans still
  | vertical y => exact (warned_lineTo _).trans still
  | curve control₁ control₂ p => exact (warned_curveTo control₁ control₂ p).trans still
  | smooth control₂ p => exact (warned_curveTo _ control₂ p).trans still
  | close => rfl

/-- A new pen is warned of if it draws anything but a move. -/
lemma warned_draw_of_fresh (fresh : s.pen = .fresh) {stroke : Stroke α}
    (draws : stroke.closes = false) (strokes : List (Stroke α)) :
    warned (s.draw f stroke).notes = warnings (stroke :: strokes) := by
  have first : warned (s.ensureBegun f).notes = [.drawingBeforeMove .origin] := by
    obtain ⟨pen, drawing⟩ := s
    obtain rfl : pen = .fresh := fresh
    rfl
  cases stroke with
  | move => rfl
  | line p => exact (warned_lineTo p).trans first
  | horizontal x => exact (warned_lineTo _).trans first
  | vertical y => exact (warned_lineTo _).trans first
  | curve control₁ control₂ p => exact (warned_curveTo control₁ control₂ p).trans first
  | smooth control₂ p => exact (warned_curveTo _ control₂ p).trans first
  | close => cases draws

/-! ### Any strokes -/

lemma drawAll_cons (stroke : Stroke α) (strokes : List (Stroke α)) :
    s.drawAll f (stroke :: strokes) = (do
      let s ← s.draw f stroke
      s.drawAll f strokes) :=
  rfl

/-- Once there was a stroke, each further one looks back on it, and none is warned of. -/
lemma drawAll_after (known : s.pen = .after history) (some : history ≠ [])
    (strokes : List (Stroke α)) :
    (s.drawAll f strokes).value.pen = .after (strokes.reverse ++ history) ∧
      warned (s.drawAll f strokes).notes = [] := by
  induction strokes generalizing s history with
  | nil => exact ⟨known, rfl⟩
  | cons stroke strokes ih =>
    have begun : s.pen.start = .some (subpathStart history) := by
      rw [known, Pen.after, if_neg (by simpa using some)]
    obtain ⟨pen, quiet⟩ := ih (pen_draw known stroke (.inl some)) (List.cons_ne_nil _ _)
    constructor
    · rw [drawAll_cons, Logged.value_bind, pen, List.reverse_cons, List.append_assoc,
        List.singleton_append]
    · rw [drawAll_cons, Logged.notes_bind, warned_append, quiet, warned_draw_of_begun begun,
        List.append_nil]

/-- Without a subpath, a close before all other strokes is as good as none. -/
lemma drawAll_effective (fresh : s.pen.start = none) (strokes : List (Stroke α)) :
    s.drawAll f strokes = s.drawAll f (effective strokes) := by
  induction strokes with
  | nil => rfl
  | cons stroke strokes ih =>
    cases stroke with
    | close =>
      have still : s.drawAll f (.close :: strokes) = s.drawAll f strokes := by
        change s.close.drawAll f strokes = _
        rw [close_of_start_eq_none fresh]
      rw [still, ih]
      rfl
    | _ => rfl

/-- A pen in step has an open polyline, and closing adds a point to it. -/
lemma InStep.close_ne {p : Point α} (inStep : s.InStep f p) : s.close ≠ s := by
  obtain ⟨start, line, drawn, first, _⟩ := inStep
  intro still
  have closed : s.close.drawing = s.drawing.close := by rw [Sketch.close, start]
  have longer := Drawing.openLine_close drawn first
  rw [← closed, still, drawn] at longer
  simp at longer

/-- A close does nothing only while all strokes were closes. -/
lemma close_eq_self_iff (drawing : Drawing α) (strokes : List (Stroke α)) :
    ((begin drawing).drawAll f strokes).value.close = ((begin drawing).drawAll f strokes).value ↔
      effective strokes = [] := by
  rcases drawAll_of_start_eq_none (f := f) (s := begin drawing) rfl strokes with
    ⟨closes, still⟩ | ⟨⟨stroke, mem, draws⟩, p, inStep⟩
  case inl =>
    rw [still]
    refine ⟨fun _ => List.dropWhile_eq_nil_iff.2 fun stroke mem => ?_, fun _ => rfl⟩
    rw [closes stroke mem]
    rfl
  case inr =>
    refine ⟨fun still => absurd still inStep.close_ne, fun none => absurd ?_ draws⟩
    have closes := List.dropWhile_eq_nil_iff.1 none stroke mem
    cases stroke with
    | close => rfl
    | _ => cases closes

/-- The three points of a pen are told by the strokes alone, on any drawing and under any map. So a
smooth curve is the curve whose first control point lies opposite to the last control point, which
is that of a curve only if the stroke just before was one; a close that does nothing cannot stand
between them. A pen is warned of at most once, which is when the first stroke that is no close is no
move. -/
theorem drawAll_history (f : Frame α) (drawing : Drawing α) (strokes : List (Stroke α)) :
    let history := (effective strokes).reverse
    let drawn := (begin drawing).drawAll f strokes
    drawn.value.pen.current = reached history ∧
      drawn.value.pen.start = (if history.isEmpty then none else some (subpathStart history)) ∧
      drawn.value.pen.control = lastControl history ∧
      (drawn.value.close = drawn.value ↔ effective strokes = []) ∧
      (∀ control₂ p, drawn.value.draw f (.smooth control₂ p) =
        drawn.value.draw f (.curve
          ⟨2.0 * (reached history).x - (lastControl history).x,
            2.0 * (reached history).y - (lastControl history).y⟩ control₂ p)) ∧
      drawn.notes.filter (·.level = .warn) = warnings (effective strokes) := by
  have told : ((begin drawing).drawAll f strokes).value.pen = .after (effective strokes).reverse ∧
      warned ((begin drawing).drawAll f strokes).notes = warnings (effective strokes) := by
    rw [drawAll_effective rfl]
    cases first : effective strokes with
    | nil => exact ⟨rfl, rfl⟩
    | cons stroke rest =>
      have draws := closes_of_effective first
      have new : (begin drawing).pen = .after [] := rfl
      have pen := pen_draw (f := f) new stroke (.inr draws)
      obtain ⟨last, quiet⟩ := drawAll_after (f := f) pen (List.cons_ne_nil _ _) rest
      constructor
      · rw [drawAll_cons, Logged.value_bind, last, List.reverse_cons]
      · rw [drawAll_cons, Logged.notes_bind, warned_append, quiet,
          warned_draw_of_fresh rfl draws rest, List.append_nil]
  obtain ⟨pen, warning⟩ := told
  intro history drawn
  refine ⟨congrArg Pen.current pen, congrArg Pen.start pen, congrArg Pen.control pen,
    close_eq_self_iff drawing strokes, fun control₂ p => ?_, warning⟩
  have opposite : drawn.value.pen.current.reflect drawn.value.pen.control =
      (reached history).reflect (lastControl history) := by
    rw [show drawn.value.pen = _ from pen]
    rfl
  simp only [draw, opposite]
  rfl

end Sketch

end Toolpath.Svg
