import Toolpath.Diagnostic
import Toolpath.Text.Blank
import Toolpath.Text.DecimalDigit

/-!
# Reading patterns

A pattern text is read line by line, each line on its own. Lines that are no records are left out
and told. On the page of a pattern `y` grows upward; the steps read have it grow downward.
-/

namespace Toolpath.Pattern

open Text (isBlank isDecimalDigit)

/-- A step of the tool, with `y` growing downward. -/
inductive Step (α : Type) where
  | move (stop : Point α)
  | line (stop : Point α)
deriving DecidableEq, Repr

/-- Where a step leads. -/
def Step.target {α : Type} : Step α → Point α
  | .move p => p
  | .line p => p

/-- The lines of a text, without the line feeds that end them. -/
def splitLines (line : List Char) : List Char → List (List Char)
  | [] => if line.isEmpty then [] else [line.reverse]
  | '\n' :: cs => line.reverse :: splitLines [] cs
  | c :: cs => splitLines (c :: line) cs

/-- The lines of a text, without what ends them. -/
def textLines (text : String) : List (List Char) :=
  (splitLines [] text.toList).map (Text.dropEndWhile (· == '\r'))

/-- Takes a given character. -/
def expect (expected : Char) : List Char → Option (List Char)
  | [] => none
  | c :: cs => if c = expected then some cs else none

/-- Takes one or more characters of a class. -/
def takeSome (p : Char → Bool) (cs : List Char) : Option (List Char × List Char) :=
  let taken := cs.takeWhile p
  if taken.isEmpty then none else some (taken, cs.dropWhile p)

/-- Takes a minus, if there is one, and then digits and points. -/
def takeNumber (cs : List Char) : Option (List Char × List Char) :=
  let inNumber (c : Char) : Bool := isDecimalDigit c || c = '.'
  match cs with
  | '-' :: rest => (takeSome inNumber rest).map fun (taken, rest) => ('-' :: taken, rest)
  | cs => takeSome inNumber cs

/-- Takes a line number with the letter before it. -/
def takeLineNumber (cs : List Char) : Option (List Char) := do
  let cs ← expect 'N' cs
  let (_, cs) ← takeSome isDecimalDigit cs
  pure cs

/-- The number that digits spell, if they are plain ones and thirty-two bits hold it. -/
def codeOf (digits : List Char) : Option Nat :=
  if digits.all Char.isDigit then
    let n := Decimal.digitsFrom 0 digits
    if n < UInt32.size then some n else none
  else none

/-- Is this the record that ends a program? -/
def isEndOfProgram (line : List Char) : Bool :=
  takeLineNumber line = some ['M', '0', '2']

/-- The code and the coordinates of a motion record. -/
def motion? (line : List Char) : Option (Nat × Decimal × Decimal) := do
  let cs ← takeLineNumber line
  let cs ← expect 'G' cs
  let (code, cs) ← takeSome isDecimalDigit cs
  let cs ← expect 'X' cs
  let (x, cs) ← takeNumber cs
  let cs ← expect 'Y' cs
  let (y, cs) ← takeNumber cs
  guard cs.isEmpty
  -- The form allows digits of every script and any points; the values decide what is a number.
  let code ← codeOf code
  let x ← Decimal.ofChars? x
  let y ← Decimal.ofChars? y
  pure (code, x, y)

/-- What a line says. -/
inductive Entry (α : Type) where
  | nothing
  | endOfProgram
  | step (step : Step α)
  | issue (issue : Issue)

variable {α : Type} [Scalar α]

/-- The point of a record, turned over. Neither coordinate is minus zero. -/
def pointOf (x y : Decimal) : Point α :=
  ⟨Scalar.ofDecimal x + 0.0, 0.0 - Scalar.ofDecimal y⟩

/-- What a line says, given its number. -/
def Entry.ofLine (line : Nat) (cs : List Char) : Entry α :=
  if cs.all isBlank then .nothing
  else if isEndOfProgram cs then .endOfProgram
  else
    match motion? cs with
    | some (0, x, y) => .step (.move (pointOf x y))
    | some (1, x, y) => .step (.line (pointOf x y))
    | some (code, _, _) => .issue (.unknownMotion line code)
    | none => .issue (.unrecognizedLine line (String.ofList cs))

/-- What is worth telling about a line. -/
def Entry.notes (line : Nat) : Entry α → List (Diagnostic α)
  | .endOfProgram => [.endOfProgram line]
  | .issue found => [.lineSkipped found]
  | _ => []

/-- The steps of a pattern and the lines left out, each in order. -/
structure Listing (α : Type) where
  steps : List (Step α)
  issues : List Issue
deriving DecidableEq, Repr

/-- What the lines of a text say, numbered from one. -/
def entries (text : String) : List (Nat × Entry α) :=
  ((textLines text).zipIdx 1).map fun (cs, line) => (line, .ofLine line cs)

/-- Reads a pattern. -/
def Listing.ofText (text : String) : Logged (Diagnostic α) (Listing α) :=
  let es : List (Nat × Entry α) := entries text
  { value :=
      { steps := es.filterMap fun (_, e) => match e with | .step step => some step | _ => none
        issues := es.filterMap fun (_, e) => match e with | .issue issue => some issue | _ => none }
    notes := es.flatMap fun (line, e) => e.notes line }

end Toolpath.Pattern
