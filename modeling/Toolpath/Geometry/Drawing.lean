import Toolpath.Geometry.Point

/-!
# Drawings

The polylines drawn so far and the one that is still open. `Drawing.polylines` is what the drawing
would be if it were ended now; every operation adds to its end and changes nothing before.
-/

namespace Toolpath

/-- A polyline that grows at its end. It has a first point, so it is never empty. -/
structure Trace (α : Type) where
  first : Point α
  later : Array (Point α)
deriving Repr

namespace Trace

variable {α : Type}

/-- A polyline of one point. -/
def single (p : Point α) : Trace α := ⟨p, #[]⟩

/-- One point more. -/
def push (t : Trace α) (p : Point α) : Trace α := ⟨t.first, t.later.push p⟩

/-- The points in order. -/
def toList (t : Trace α) : Polyline α := t.first :: t.later.toList

@[simp] theorem toList_single (p : Point α) : (single p).toList = [p] := rfl

@[simp] theorem toList_push (t : Trace α) (p : Point α) : (t.push p).toList = t.toList ++ [p] := by
  simp [push, toList]

theorem toList_ne_nil (t : Trace α) : t.toList ≠ [] := by
  simp [toList]

end Trace

/-- What has been drawn: the ended polylines and the one that is still open. -/
structure Drawing (α : Type) where
  ended : Array (Trace α)
  current : Option (Trace α)
deriving Repr

namespace Drawing

variable {α : Type}

/-- Nothing drawn. -/
def empty : Drawing α := ⟨#[], none⟩

/-- Ends the open polyline, if there is one. -/
def endLine (d : Drawing α) : Drawing α :=
  match d.current with
  | none => d
  | some t => ⟨d.ended.push t, none⟩

/-- Ends the open polyline and begins one at `p`. -/
def moveTo (d : Drawing α) (p : Point α) : Drawing α :=
  { d.endLine with current := some (.single p) }

/-- Goes on to `p`, or begins a polyline there if none is open. -/
def lineTo (d : Drawing α) (p : Point α) : Drawing α :=
  match d.current with
  | none => { d with current := some (.single p) }
  | some t => { d with current := some (t.push p) }

/-- Goes back to the first point of the open polyline, which stays open. -/
def close (d : Drawing α) : Drawing α :=
  match d.current with
  | none => d
  | some t => { d with current := some (t.push t.first) }

/-- Everything drawn, the open polyline last. -/
def polylines (d : Drawing α) : List (Polyline α) :=
  (d.ended.toList ++ d.current.toList).map Trace.toList

/-! ### What an operation adds -/

@[simp] theorem polylines_empty : (empty : Drawing α).polylines = [] := rfl

@[simp] theorem polylines_endLine (d : Drawing α) : d.endLine.polylines = d.polylines := by
  obtain ⟨ended, current⟩ := d
  cases current <;> simp [endLine, polylines]

@[simp] theorem current_endLine (d : Drawing α) : d.endLine.current = none := by
  obtain ⟨ended, current⟩ := d
  cases current <;> rfl

@[simp] theorem polylines_moveTo (d : Drawing α) (p : Point α) :
    (d.moveTo p).polylines = d.polylines ++ [[p]] := by
  obtain ⟨ended, current⟩ := d
  cases current <;> simp [moveTo, endLine, polylines]

theorem polylines_of_current_eq_some {d : Drawing α} {t : Trace α} (h : d.current = some t) :
    d.polylines = d.ended.toList.map Trace.toList ++ [t.toList] := by
  simp [polylines, h]

theorem polylines_lineTo_of_none {d : Drawing α} (h : d.current = none) (p : Point α) :
    (d.lineTo p).polylines = d.polylines ++ [[p]] := by
  simp [lineTo, polylines, h]

theorem polylines_lineTo_of_some {d : Drawing α} {t : Trace α} (h : d.current = some t)
    (p : Point α) :
    (d.lineTo p).polylines = d.ended.toList.map Trace.toList ++ [t.toList ++ [p]] := by
  simp [lineTo, polylines, h]

theorem polylines_close_of_none {d : Drawing α} (h : d.current = none) :
    d.close.polylines = d.polylines := by
  simp [close, h]

/-- Closing is going on to the first point. -/
theorem close_eq_lineTo {d : Drawing α} {t : Trace α} (h : d.current = some t) :
    d.close = d.lineTo t.first := by
  simp [close, lineTo, h]

theorem ne_nil_of_mem_polylines {d : Drawing α} {line : Polyline α} (h : line ∈ d.polylines) :
    line ≠ [] := by
  obtain ⟨t, _, rfl⟩ := List.mem_map.1 h
  exact t.toList_ne_nil

end Drawing

end Toolpath
