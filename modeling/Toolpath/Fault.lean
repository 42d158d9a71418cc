import Toolpath.Markup.Fault
import Toolpath.Svg.Length
import Toolpath.Svg.TransformList
import Toolpath.Svg.PathData

/-!
# Faults

Why a drawing cannot be converted. Each fault means that the coordinates after it could not be
relied on.
-/

namespace Toolpath

/-- Why a drawing cannot be converted. -/
inductive Fault (α : Type) where
  | length (text : String) (cause : Svg.LengthFault)
  | viewBox (text : String)
  | transform (text : String) (cause : Svg.TransformFault)
  /-- A character that is no command stands at a byte offset of path data. -/
  | command (letter : Char) (offset : Nat)
  | number (cause : Svg.NumberFault)
  /-- A coordinate that a record cannot hold, in inches. -/
  | outOfRange (value : α)
  | markup (cause : Markup.Fault)
deriving DecidableEq, Repr

/-- The words for a missing number. -/
def Svg.NumberFault.message (fault : NumberFault) : String :=
  "malformed number at offset " ++ toString fault.offset ++ " in path data near `" ++ fault.near
    ++ "`"

/-- The words for a fault. -/
def Fault.message {α : Type} [Scalar α] : Fault α → String
  | .length text .malformed => "malformed length `" ++ text ++ "`"
  | .length text (.unsupportedUnit unit) =>
    "unsupported unit in length `" ++ text ++ "` (" ++ unit.symbol ++ " units are not supported)"
  | .viewBox text => "malformed viewBox `" ++ text ++ "`"
  | .transform text (.malformed fault) =>
    "malformed transform `" ++ text ++ "`: " ++ fault.message
  | .transform text (.unsupported function) =>
    "unsupported transform operation `" ++ function.name ++ "` in `" ++ text ++ "`"
  | .command letter offset =>
    "unsupported path command `" ++ letter.toString ++ "` at offset " ++ toString offset
  | .number fault => fault.message
  | .outOfRange value =>
    "coordinate " ++ Scalar.text value ++ "in is too large to write as a pattern coordinate"
  | .markup fault => "XML error: " ++ fault.message

end Toolpath
