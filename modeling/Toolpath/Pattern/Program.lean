import Toolpath.Fault
import Toolpath.Pattern.Record

/-!
# Programs

Polylines as a program. Points are rounded to thousandths, a half away from zero; points that round
to the one before them are left out, and so are polylines with fewer than two points left. Records
are numbered from one, and the last one ends the program.
-/

namespace Toolpath.Pattern

/-- A program and how much of the drawing is in it. -/
structure Program where
  records : List Record
  polylines : Nat
  points : Nat
deriving DecidableEq, Repr

/-- Keeps one of each run of equal neighbours. -/
def collapse {β : Type} [DecidableEq β] : List β → List β
  | [] => []
  | [a] => [a]
  | a :: b :: rest => if a = b then collapse (b :: rest) else a :: collapse (b :: rest)

/-- How a polyline is drawn: a rapid motion to its first point, linear ones from there. -/
def motions : List Target → List (Motion × Target)
  | [] => []
  | first :: later => (.rapid, first) :: later.map fun t => (.linear, t)

/-- Numbers motions from one and ends the program with the next number. -/
def number (ms : List (Motion × Target)) : List Record :=
  (ms.zipIdx 1).map (fun (m, line) => .motion (UInt32.ofNat line) m.1 m.2)
    ++ [.endOfProgram (UInt32.ofNat (ms.length + 1))]

/-- The program that draws the given polylines. -/
def Program.ofTargets (lines : List (List Target)) : Program where
  records := number (lines.flatMap motions)
  polylines := lines.length
  points := lines.flatten.length

variable {α : Type} [Scalar α]

/-- The nearest whole number that sixty-four bits hold, a half going away from zero. -/
def round? (x : α) : Option Int64 :=
  match Scalar.nearest? x with
  | none => none
  | some n => if Int64.minValue.toInt ≤ n ∧ n ≤ Int64.maxValue.toInt then some (Int64.ofInt n) else none

/-- Inches as thousandths. -/
def quantize (x : α) : Except (Fault α) Int64 :=
  match round? (x * 1000.0) with
  | none => .error (.outOfRange x)
  | some n => .ok n

/-- The target nearest to a point. -/
def Target.ofPoint (p : Point α) : Except (Fault α) Target := do
  let x ← quantize p.x
  let y ← quantize p.y
  pure ⟨x, y⟩

/-- The targets of a polyline, without repetitions. -/
def targets (line : Polyline α) : Except (Fault α) (List Target) := do
  let ts ← line.mapM Target.ofPoint
  pure (collapse ts)

/-- The program that draws polylines. Every point has to be in range, also those left out. -/
def Program.ofPolylines (lines : List (Polyline α)) : Except (Fault α) Program := do
  -- All points are rounded before any polyline is left out.
  let ts ← lines.mapM targets
  pure (.ofTargets (ts.filter fun line => 2 ≤ line.length))

end Toolpath.Pattern
