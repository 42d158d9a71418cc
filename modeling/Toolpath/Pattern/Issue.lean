/-!
# Lines that are no records

Why a line of a pattern is left out.
-/

namespace Toolpath.Pattern

/-- A line that is left out. Lines are counted from one. -/
inductive Issue where
  | unrecognizedLine (line : Nat) (text : String)
  | unknownMotion (line : Nat) (code : Nat)
deriving DecidableEq, Repr

/-- The words for an issue. -/
def Issue.message : Issue → String
  | .unrecognizedLine line text => "unrecognized line " ++ toString line ++ ": '" ++ text ++ "'"
  | .unknownMotion line code =>
    "unknown G command " ++ toString code ++ " on line " ++ toString line

end Toolpath.Pattern
