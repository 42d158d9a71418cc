import Mathlib
import Toolpath.Geometry.Drawing

/-!
# What operations make of a drawing

A drawing keeps its ended polylines apart from the open one, but what counts is the list of both,
`Drawing.polylines`. On that list an operation does one of three things: it changes nothing, it adds
a point to the last polyline, or it adds a polyline of one point (`Changes`). So whatever operations
are carried out, what they draw can be told from them alone: a polyline begins with a move, or with
a line where nothing is open, and goes on with the lines and closings right behind it (`linesOf`).
The polylines of a drawing are those that were ended before, the one that was open with what goes on
from it, and those (`Drawing.polylines_applyAll`).
-/

namespace Toolpath

variable {α : Type}

@[simp] lemma Trace.first_single (p : Point α) : (single p).first = p := rfl

@[simp] lemma Trace.first_push (t : Trace α) (p : Point α) : (t.push p).first = t.first := rfl

namespace Drawing

/-! ### The open polyline -/

/-- The points of the open polyline. -/
def openLine (d : Drawing α) : Option (Polyline α) := d.current.map Trace.toList

@[simp] lemma openLine_moveTo (d : Drawing α) (p : Point α) : (d.moveTo p).openLine = some [p] :=
  rfl

lemma openLine_lineTo {d : Drawing α} {line : Polyline α} (drawn : d.openLine = some line)
    (p : Point α) : (d.lineTo p).openLine = some (line ++ [p]) := by
  obtain ⟨t, current, rfl⟩ := Option.map_eq_some_iff.1 drawn
  simp [openLine, lineTo, current]

lemma openLine_close {d : Drawing α} {line : Polyline α} {p : Point α}
    (drawn : d.openLine = some line) (first : line.head? = some p) :
    d.close.openLine = some (line ++ [p]) := by
  obtain ⟨t, current, rfl⟩ := Option.map_eq_some_iff.1 drawn
  obtain rfl : t.first = p := Option.some.inj first
  rw [close_eq_lineTo current, openLine_lineTo drawn]

/-- Going on to several points adds them in order. -/
lemma openLine_foldl_lineTo {β : Type} (target : β → Point α) (pieces : List β) {d : Drawing α}
    {line : Polyline α} (drawn : d.openLine = some line) :
    (pieces.foldl (fun d piece => d.lineTo (target piece)) d).openLine =
      some (line ++ pieces.map target) := by
  induction pieces generalizing d line with
  | nil => simpa using drawn
  | cons piece pieces ih => simpa using ih (openLine_lineTo drawn (target piece))

@[simp] lemma openLine_endLine (d : Drawing α) : d.endLine.openLine = none := by
  rw [openLine, current_endLine]
  rfl

lemma polylines_eq (d : Drawing α) :
    d.polylines = d.ended.toList.map Trace.toList ++ d.openLine.toList := by
  obtain ⟨ended, current⟩ := d
  cases current <;> simp [polylines, openLine]

lemma ne_nil_of_openLine {d : Drawing α} {line : Polyline α} (drawn : d.openLine = some line) :
    line ≠ [] := by
  obtain ⟨trace, _, rfl⟩ := Option.map_eq_some_iff.1 drawn
  exact trace.toList_ne_nil

/-! ### The ended polylines -/

@[simp] lemma ended_lineTo (d : Drawing α) (p : Point α) : (d.lineTo p).ended = d.ended := by
  obtain ⟨ended, current⟩ := d
  cases current <;> rfl

@[simp] lemma ended_close (d : Drawing α) : d.close.ended = d.ended := by
  obtain ⟨ended, current⟩ := d
  cases current <;> rfl

@[simp] lemma ended_foldl_lineTo {β : Type} (target : β → Point α) (pieces : List β)
    (d : Drawing α) :
    (pieces.foldl (fun d piece => d.lineTo (target piece)) d).ended = d.ended := by
  induction pieces generalizing d with
  | nil => rfl
  | cons piece pieces ih => rw [List.foldl_cons, ih, ended_lineTo]

lemma ended_endLine (d : Drawing α) :
    d.endLine.ended.toList.map Trace.toList = d.polylines := by
  rw [← polylines_endLine, polylines_eq, openLine_endLine, Option.toList_none, List.append_nil]

end Drawing

/-! ### Operations -/

/-- What can be done to a drawing. -/
inductive Operation (α : Type) where
  | moveTo (p : Point α)
  | lineTo (p : Point α)
  | close
  | endLine
deriving DecidableEq, Repr

namespace Operation

/-- Does an operation go on with the polyline that is open? -/
def goesOn : Operation α → Bool
  | .lineTo _ => true
  | .close => true
  | _ => false

/-- The point that an operation adds to an open polyline with the given first point. -/
def point? (first : Point α) : Operation α → Option (Point α)
  | .lineTo p => some p
  | .close => some first
  | _ => none

/-- The points that operations add to an open polyline before it is ended. -/
def pointsOf (first : Point α) (ops : List (Operation α)) : Polyline α :=
  (ops.takeWhile goesOn).filterMap (point? first)

section

variable (first p : Point α) (ops : List (Operation α))

@[simp] lemma pointsOf_nil : pointsOf first ([] : List (Operation α)) = [] := rfl

@[simp] lemma pointsOf_lineTo : pointsOf first (.lineTo p :: ops) = p :: pointsOf first ops := rfl

@[simp] lemma pointsOf_close : pointsOf first (.close :: ops) = first :: pointsOf first ops := rfl

@[simp] lemma pointsOf_moveTo : pointsOf first (.moveTo p :: ops) = [] := rfl

@[simp] lemma pointsOf_endLine : pointsOf first (.endLine :: ops) = [] := rfl

end

/-- The polylines that operations draw where nothing is open. -/
def linesOf : List (Operation α) → List (Polyline α)
  | [] => []
  | .moveTo p :: ops => (p :: pointsOf p ops) :: linesOf (ops.dropWhile goesOn)
  | .lineTo p :: ops => (p :: pointsOf p ops) :: linesOf (ops.dropWhile goesOn)
  | .close :: ops => linesOf ops
  | .endLine :: ops => linesOf ops
termination_by ops => ops.length
decreasing_by
  all_goals
    have := (List.dropWhile_suffix (goesOn (α := α)) (l := ops)).length_le
    simp only [List.length_cons]
    omega

end Operation

namespace Drawing

open Operation

/-- Carries out an operation. -/
def apply (d : Drawing α) : Operation α → Drawing α
  | .moveTo p => d.moveTo p
  | .lineTo p => d.lineTo p
  | .close => d.close
  | .endLine => d.endLine

/-- Carries out operations in order. -/
def applyAll (d : Drawing α) (ops : List (Operation α)) : Drawing α := ops.foldl apply d

/-- The polylines of a drawing, and whether the last of them is open. -/
def shown (d : Drawing α) : List (Polyline α) × Bool := (d.polylines, d.current.isSome)

/-- The polylines that were ended. -/
def finished (d : Drawing α) : List (Polyline α) := d.ended.toList.map Trace.toList

/-- What operations add behind the ended polylines of a drawing: the open one with the points that
go on from it, and those that are begun. -/
def drawnBy (d : Drawing α) (ops : List (Operation α)) : List (Polyline α) :=
  match d.current with
  | none => linesOf ops
  | some t => (t.toList ++ pointsOf t.first ops) :: linesOf (ops.dropWhile goesOn)

end Drawing

/-- What an operation makes of polylines, of which the last may be open. -/
inductive Changes : List (Polyline α) × Bool → Operation α → List (Polyline α) × Bool → Prop where
  /-- Ending changes no polyline. -/
  | endLine (lines : List (Polyline α)) (isOpen : Bool) :
    Changes (lines, isOpen) .endLine (lines, false)
  /-- Nor does closing where nothing is open. -/
  | closeNothing (lines : List (Polyline α)) :
    Changes (lines, false) .close (lines, false)
  | lineTo (before : List (Polyline α)) (line : Polyline α) (p : Point α) :
    Changes (before ++ [line], true) (.lineTo p) (before ++ [line ++ [p]], true)
  /-- Closing adds the first point again. -/
  | close (before : List (Polyline α)) (first : Point α) (later : Polyline α) :
    Changes (before ++ [first :: later], true) .close (before ++ [first :: later ++ [first]], true)
  | moveTo (lines : List (Polyline α)) (isOpen : Bool) (p : Point α) :
    Changes (lines, isOpen) (.moveTo p) (lines ++ [[p]], true)
  /-- A line where nothing is open begins a polyline. -/
  | lineBegun (lines : List (Polyline α)) (p : Point α) :
    Changes (lines, false) (.lineTo p) (lines ++ [[p]], true)

namespace Drawing

open Operation

variable {d : Drawing α} {t : Trace α}

/-! ### One operation -/

lemma shown_of_none (current : d.current = none) : d.shown = (d.polylines, false) := by
  rw [shown, current]
  rfl

lemma shown_of_some (current : d.current = some t) :
    d.shown = (d.finished ++ [t.toList], true) := by
  rw [shown, polylines_of_current_eq_some current, current]
  rfl

lemma current_lineTo (current : d.current = some t) (p : Point α) :
    (d.lineTo p).current = some (t.push p) := by
  rw [lineTo, current]

/-- What going on makes of a drawing with an open polyline. -/
lemma shown_lineTo_of_some (current : d.current = some t) (p : Point α) :
    (d.lineTo p).shown = (d.finished ++ [t.toList ++ [p]], true) := by
  rw [shown_of_some (current_lineTo current p), Trace.toList_push, finished, ended_lineTo]
  rfl

/-- An operation changes nothing, adds a point to the open polyline or adds a polyline. -/
lemma changes_apply (d : Drawing α) (op : Operation α) : Changes d.shown op (d.apply op).shown := by
  cases op with
  | moveTo p =>
    have added : (d.moveTo p).shown = (d.polylines ++ [[p]], true) :=
      Prod.ext (polylines_moveTo d p) rfl
    rw [apply, added]
    exact .moveTo _ _ p
  | lineTo p =>
    rw [apply]
    cases current : d.current with
    | none =>
      have begun : (d.lineTo p).current = some (.single p) := by rw [lineTo, current]
      have added : (d.lineTo p).shown = (d.polylines ++ [[p]], true) :=
        Prod.ext (polylines_lineTo_of_none current p) (congrArg Option.isSome begun)
      rw [shown_of_none current, added]
      exact .lineBegun _ p
    | some t =>
      rw [shown_of_some current, shown_lineTo_of_some current]
      exact .lineTo _ _ p
  | close =>
    rw [apply]
    cases current : d.current with
    | none =>
      have same : d.close = d := by rw [close, current]
      rw [same, shown_of_none current]
      exact .closeNothing _
    | some t =>
      rw [close_eq_lineTo current, shown_of_some current, shown_lineTo_of_some current]
      exact .close _ t.first t.later.toList
  | endLine =>
    rw [apply, shown_of_none (current_endLine d), polylines_endLine]
    exact .endLine _ _

/-- What was ended stays as it is, and in its place. -/
lemma finished_prefix_apply (d : Drawing α) (op : Operation α) :
    d.finished <+: (d.apply op).finished := by
  have ending : d.finished <+: d.endLine.finished := by
    rw [finished, finished, ended_endLine, polylines_eq]
    exact List.prefix_append _ _
  cases op with
  | moveTo p => exact ending
  | lineTo p =>
    rw [apply, finished, finished, ended_lineTo]
  | close =>
    rw [apply, finished, finished, ended_close]
  | endLine => exact ending

/-! ### Any operations -/

lemma applyAll_append (d : Drawing α) (ops more : List (Operation α)) :
    d.applyAll (ops ++ more) = (d.applyAll ops).applyAll more :=
  List.foldl_append

lemma finished_prefix_applyAll (d : Drawing α) (ops : List (Operation α)) :
    d.finished <+: (d.applyAll ops).finished := by
  induction ops generalizing d with
  | nil => exact List.prefix_refl _
  | cons op ops ih => exact (finished_prefix_apply d op).trans (ih (d.apply op))

/-- What the first of some operations ends or adds is what all of them end or add there. -/
lemma finished_append_drawnBy_cons (d : Drawing α) (op : Operation α) (ops : List (Operation α)) :
    (d.apply op).finished ++ (d.apply op).drawnBy ops = d.finished ++ d.drawnBy (op :: ops) := by
  obtain ⟨ended, current⟩ := d
  cases current with
  | none =>
    -- Nothing is open: a move or a line begins a polyline.
    cases op with
    | moveTo p => simp [apply, moveTo, endLine, finished, drawnBy, linesOf]
    | lineTo p => simp [apply, lineTo, finished, drawnBy, linesOf]
    | close => simp [apply, close, finished, drawnBy, linesOf]
    | endLine => simp [apply, endLine, finished, drawnBy, linesOf]
  | some t =>
    cases op with
    | moveTo p => simp [apply, moveTo, endLine, finished, drawnBy, linesOf, goesOn]
    | lineTo p => simp [apply, lineTo, finished, drawnBy, goesOn, List.dropWhile_cons]
    | close => simp [apply, close, finished, drawnBy, goesOn, List.dropWhile_cons]
    | endLine => simp [apply, endLine, finished, drawnBy, linesOf, goesOn]

/-- The polylines after operations: those that were ended, and what the operations add. -/
lemma polylines_eq_drawnBy (d : Drawing α) (ops : List (Operation α)) :
    (d.applyAll ops).polylines = d.finished ++ d.drawnBy ops := by
  induction ops generalizing d with
  | nil =>
    obtain ⟨ended, current⟩ := d
    cases current <;> simp [applyAll, polylines, finished, drawnBy, linesOf, pointsOf]
  | cons op ops ih => exact (ih (d.apply op)).trans (finished_append_drawnBy_cons d op ops)

/-- Operations on a drawing, each of which changes nothing, adds a point to the last polyline or
adds a polyline of one point. After all of them there are the ended polylines, the open one as it
went on and those that were begun, in order and none of them empty; and what is ended stays so. -/
theorem polylines_applyAll (d : Drawing α) (ops : List (Operation α)) :
    (d.applyAll ops).endLine.finished = (d.applyAll ops).polylines ∧
      (∀ op, Changes (d.applyAll ops).shown op (d.applyAll (ops ++ [op])).shown) ∧
      (d.applyAll ops).polylines = d.finished ++ d.drawnBy ops ∧
      (∀ more, (d.applyAll ops).finished <+: (d.applyAll (ops ++ more)).finished) ∧
      [] ∉ (d.applyAll ops).polylines := by
  refine ⟨ended_endLine _, fun op => ?_, polylines_eq_drawnBy d ops, fun more => ?_,
    fun empty => ?_⟩
  · rw [applyAll_append]
    exact changes_apply (d.applyAll ops) op
  · rw [applyAll_append]
    exact finished_prefix_applyAll (d.applyAll ops) more
  · exact ne_nil_of_mem_polylines empty rfl

/-- A second closing adds the first point once more, and one where nothing is open adds none. -/
example :
    (empty.applyAll [.lineTo ⟨1, 2⟩, .lineTo ⟨3, 4⟩, .close, .close, .endLine, .close,
      .lineTo ⟨5, 6⟩, .moveTo ⟨1, 2⟩] : Drawing Nat).polylines =
      [[⟨1, 2⟩, ⟨3, 4⟩, ⟨1, 2⟩, ⟨1, 2⟩], [⟨5, 6⟩], [⟨1, 2⟩]] := by
  decide

end Drawing

end Toolpath
