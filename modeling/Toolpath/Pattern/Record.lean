/-!
# Pattern records

A pattern is a program for a machine that moves a tool: one record a line, numbered, with targets in
thousandths of an inch.
-/

namespace Toolpath.Pattern

/-- A place for the tool, in thousandths of an inch. -/
structure Target where
  x : Int64
  y : Int64
deriving DecidableEq, Repr

/-- How the tool gets to a target. -/
inductive Motion where
  /-- Raised, without drawing. -/
  | rapid
  /-- Lowered, along a straight line. -/
  | linear
deriving DecidableEq, Repr

/-- The code of a motion. -/
def Motion.code : Motion → String
  | .rapid => "G00"
  | .linear => "G01"

/-- One line of a pattern. -/
inductive Record where
  | motion (line : UInt32) (kind : Motion) (target : Target)
  | endOfProgram (line : UInt32)
deriving DecidableEq, Repr

/-- A number below a thousand with three digits. -/
def threeDigits (n : Nat) : String :=
  let digits := Nat.toDigits 10 n
  String.ofList (List.replicate (3 - digits.length) '0' ++ digits)

/-- Thousandths as a number with three places. -/
def thousandthsText (n : Int64) : String :=
  let size := n.toInt.natAbs
  (if n.toInt < 0 then "-" else "") ++ toString (size / 1000) ++ "." ++ threeDigits (size % 1000)

/-- A target as it stands in a record. -/
def Target.text (t : Target) : String :=
  "X" ++ thousandthsText t.x ++ "Y" ++ thousandthsText t.y

/-- A record without the end of its line. -/
def Record.text : Record → String
  | .motion line kind target => "N" ++ toString line.toNat ++ kind.code ++ target.text
  | .endOfProgram line => "N" ++ toString line.toNat ++ "M02"

/-- What ends the line of a record. -/
def lineEnd : String := "\r\n"

/-- Records as the machine reads them. -/
def write (records : List Record) : String :=
  String.join (records.map fun r => r.text ++ lineEnd)

example : (Record.motion 7 .linear ⟨1235, -5⟩).text = "N7G01X1.235Y-0.005" := by decide +kernel
example : (Record.endOfProgram 8).text = "N8M02" := by decide +kernel
example : thousandthsText Int64.minValue = "-9223372036854775.808" := by decide +kernel

end Toolpath.Pattern
