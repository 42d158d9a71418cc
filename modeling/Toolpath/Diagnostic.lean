import Toolpath.Fault
import Toolpath.Logged
import Toolpath.Pattern.Issue

/-!
# Diagnostics

What is worth telling about a conversion without ending it: what was assumed, left out or counted.
-/

namespace Toolpath

/-- How much a diagnostic matters. -/
inductive Level where
  | trace
  | debug
  | info
  | warn
deriving DecidableEq, Repr

/-- The order of levels, the least one first. -/
def Level.rank : Level → Nat
  | .trace => 0
  | .debug => 1
  | .info => 2
  | .warn => 3

/-- The two sizes of a page. -/
inductive Dimension where
  | width
  | height
deriving DecidableEq, Repr

/-- The attribute that gives a size. -/
def Dimension.name : Dimension → String
  | .width => "width"
  | .height => "height"

/-- Something worth telling. -/
inductive Diagnostic (α : Type) where
  | dimension (which : Dimension) (inches : α)
  | dimensionAssumed (which : Dimension)
  | transformRead (text : String) (map : Affine α)
  | drawingBeforeMove (start : Point α)
  | groupDiscarded (letter : Char) (offset : Nat) (fault : Svg.NumberFault)
  | depthReached (depth : Nat) (length : α)
  | rectWithoutSize
  | roundedCorners
  | noRoot
  | nestedRoot
  | pathFound (depth : Nat)
  | pathWithoutData
  | unsupportedElement (name : String)
  | beforeClipping (lines points : Nat)
  | notClipping
  | clipped (lines points : Nat)
  | rounded (lines points : Nat)
  | endOfProgram (line : Nat)
  | lineSkipped (issue : Pattern.Issue)
  | converted (width height : α) (records : Nat)
  | linesSkipped (count : Nat)
  | motionsRead (count : Nat)
deriving Repr

namespace Diagnostic

variable {α : Type} [Scalar α]

/-- How much a diagnostic matters. -/
def level : Diagnostic α → Level
  | .transformRead .. | .depthReached .. => .trace
  | .groupDiscarded .. | .pathFound _ | .pathWithoutData | .endOfProgram _ => .debug
  | .dimension .. | .dimensionAssumed _ | .beforeClipping .. | .notClipping | .clipped ..
  | .rounded .. | .converted .. | .linesSkipped _ | .motionsRead _ => .info
  | .drawingBeforeMove _ | .rectWithoutSize | .roundedCorners | .noRoot | .nestedRoot
  | .unsupportedElement _ | .lineSkipped _ => .warn

/-- How many polylines and points there are. -/
def counts (lines points : Nat) : String :=
  toString lines ++ " paths with " ++ toString points ++ " total points"

/-- The words for a diagnostic. -/
def message : Diagnostic α → String
  | .dimension which inches => which.name ++ ": " ++ Scalar.text inches ++ "in"
  | .dimensionAssumed which => "no " ++ which.name ++ " on svg element, assuming 1in"
  | .transformRead .. => "parsed transform"
  | .drawingBeforeMove _ => "path drawing command before moveto, starting at current point"
  | .groupDiscarded .. => "discarding incomplete coordinate group"
  | .depthReached .. => "curve subdivision depth cap reached, treating as flat"
  | .rectWithoutSize => "rect without width/height skipped"
  | .roundedCorners => "rounded rect corners are not supported, drawing square corners"
  | .noRoot => "no svg element found, assuming a 1in x 1in page"
  | .nestedRoot => "nested svg element treated as a group"
  | .pathFound _ => "path"
  | .pathWithoutData => "path without d attribute"
  | .unsupportedElement _ => "unsupported element skipped"
  | .beforeClipping lines points => "before clipping, had " ++ counts lines points
  | .notClipping => "not clipping paths"
  | .clipped lines points => "have " ++ counts lines points
  | .rounded lines points => "after rounding for output, had " ++ counts lines points
  | .endOfProgram _ => "end of program"
  | .lineSkipped issue => issue.message
  | .converted width height records =>
    "page is " ++ Scalar.text width ++ "in x " ++ Scalar.text height ++ "in, " ++ toString records
      ++ " records"
  | .linesSkipped count => "skipped " ++ toString count ++ " pattern lines"
  | .motionsRead count => toString count ++ " moves and lines"

/-- What a diagnostic tells beside its words, by name. -/
def fields : Diagnostic α → List (String × String)
  | .transformRead text map => [("attribute", text), ("transform", map.text)]
  | .drawingBeforeMove start => [("x", Scalar.text start.x), ("y", Scalar.text start.y)]
  | .groupDiscarded letter offset fault =>
    [("command", letter.toString), ("offset", toString offset), ("error", fault.message)]
  | .depthReached depth length => [("depth", toString depth), ("length", Scalar.text length)]
  | .pathFound depth => [("depth", toString depth)]
  | .unsupportedElement name => [("element", name)]
  | .endOfProgram line => [("line_no", toString line)]
  | _ => []

end Diagnostic

/-- Work that notes diagnostics and may end with a fault. -/
abbrev Attempt (α β : Type) := ExceptT (Fault α) (Logged (Diagnostic α)) β

namespace Attempt

variable {α β : Type}

/-- The outcome with its diagnostics. -/
def outcome (x : Attempt α β) : Logged (Diagnostic α) (Except (Fault α) β) := x

/-- Takes a note. -/
def note (d : Diagnostic α) : Attempt α Unit :=
  ExceptT.lift (Logged.note d)

end Attempt

end Toolpath
