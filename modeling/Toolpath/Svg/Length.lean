import Toolpath.Svg.Number

/-!
# Lengths

A length is a number with a unit and is worked with in inches. A user unit is a ninetieth of an
inch. Units that depend on a font or on the surroundings are told apart from what is no unit at all.
-/

namespace Toolpath.Svg

/-- Units of a fixed size. A number without a unit is in user units. -/
inductive AbsoluteUnit where
  | user
  | point
  | pica
  | centimetre
  | millimetre
  | inch
deriving DecidableEq, Repr

/-- Units whose size depends on what surrounds them. -/
inductive RelativeUnit where
  | em
  | ex
  | percent
deriving DecidableEq, Repr

/-- How a relative unit is written. -/
def RelativeUnit.symbol : RelativeUnit → String
  | .em => "em"
  | .ex => "ex"
  | .percent => "%"

/-- The unit of a length. -/
inductive LengthUnit where
  | absolute (unit : AbsoluteUnit)
  | relative (unit : RelativeUnit)
deriving DecidableEq, Repr

/-- The unit that characters are. -/
def LengthUnit.ofChars? : List Char → Option LengthUnit
  | [] => some (.absolute .user)
  | ['p', 'x'] => some (.absolute .user)
  | ['p', 't'] => some (.absolute .point)
  | ['p', 'c'] => some (.absolute .pica)
  | ['c', 'm'] => some (.absolute .centimetre)
  | ['m', 'm'] => some (.absolute .millimetre)
  | ['i', 'n'] => some (.absolute .inch)
  | ['e', 'm'] => some (.relative .em)
  | ['e', 'x'] => some (.relative .ex)
  | ['%'] => some (.relative .percent)
  | _ => none

/-- What is wrong with a length. -/
inductive LengthFault where
  | malformed
  | unsupportedUnit (unit : RelativeUnit)
deriving DecidableEq, Repr

variable {α : Type} [Scalar α]

/-- How many user units an inch has. -/
def userUnitsPerInch : α := 90.0

/-- How many of a unit an inch has. -/
def AbsoluteUnit.perInch : AbsoluteUnit → α
  | .user => userUnitsPerInch
  | .point => userUnitsPerInch / 1.25
  | .pica => userUnitsPerInch / 15.0
  | .centimetre => userUnitsPerInch / 35.43307
  | .millimetre => userUnitsPerInch / 3.543307
  | .inch => 1.0

/-- The inches of a length that may be negative. White space around it does not count. -/
def coordinate (text : String) : Except LengthFault α :=
  let cs := Text.trim text.toList
  match number cs.length cs with
  | .error _ => .error .malformed
  | .ok (x, rest) =>
    match LengthUnit.ofChars? rest with
    | none => .error .malformed
    | some (.relative unit) => .error (.unsupportedUnit unit)
    | some (.absolute unit) => .ok (x / unit.perInch)

/-- The inches of a length that may not be negative. -/
def extent (text : String) : Except LengthFault α :=
  match coordinate text with
  | .error fault => .error fault
  | .ok (inches : α) => if inches < 0.0 then .error .malformed else .ok inches

/-- Inches as user units. -/
def userUnits (inches : α) : α := inches * userUnitsPerInch

end Toolpath.Svg
