import Toolpath.Command.Arguments
import Toolpath.Command.Files
import Toolpath.Command.Statistics
import Toolpath.Pattern.Preview

/-!
# Running a command

A command reads all of its input, works on it, and then writes. Nothing is written before the work
has succeeded; the statistics are written last.
-/

namespace Toolpath.Command

/-- Why a command fails. -/
inductive Failure where
  | read (path : Option String) (cause : FileFault)
  | convert (path : Option String) (cause : Fault Float)
  | create (path : String) (cause : FileFault)
  | write (tool : Tool) (path : Option String) (cause : FileFault)
  | writeStatistics (path : String) (cause : FileFault)

/-- How what a command writes is called. -/
def Tool.product : Tool → String
  | .plot => "pattern"
  | .preview => "svg"

/-- The words for a failure, what was attempted first. -/
def Failure.message : Failure → String
  | .read path cause =>
    let what := match filePath path with
      | some path => "'" ++ path ++ "'"
      | none => "standard input"
    "read " ++ what ++ ": " ++ cause.message
  | .convert path cause => "convert " ++ describe path ++ ": " ++ cause.message
  | .create path cause => "create '" ++ path ++ "': " ++ cause.message
  | .write tool path cause =>
    "write " ++ tool.product ++ " to " ++ describe path ++ ": " ++ cause.message
  | .writeStatistics path cause => "write stats '" ++ path ++ "': " ++ cause.message

/-- What a command writes. -/
structure Products where
  output : String
  /-- A path and what is written there. -/
  statistics : Option (String × String)

/-- Converts a drawing. -/
def convertDrawing (s : Settings) (text : String) :
    Logged (Diagnostic Float) (Except Failure Products) := do
  match ← (convert s.options text).outcome with
  | .error fault => pure (.error (.convert s.input fault))
  | .ok c =>
    Logged.note (.converted c.page.width c.page.height c.records.length)
    pure (.ok ⟨c.pattern, s.stats.map fun path => (path, statistics s.options.clip c)⟩)

/-- Shows a pattern. -/
def showPattern (text : String) : Logged (Diagnostic Float) (Except Failure Products) := do
  let listing ← Pattern.Listing.ofText text
  if !listing.issues.isEmpty then Logged.note (.linesSkipped listing.issues.length)
  Logged.note (.motionsRead listing.steps.length)
  pure (.ok ⟨Pattern.preview listing.steps, none⟩)

/-- The work of a command on its input. -/
def Tool.work (tool : Tool) (s : Settings) (text : String) :
    Logged (Diagnostic Float) (Except Failure Products) :=
  match tool with
  | .plot => convertDrawing s text
  | .preview => showPattern text

variable {m : Type → Type} [Monad m]

/-- Reads the input. -/
def readInput (access : Access m) (path : Option String) : m (Except Failure String) := do
  let text ← match filePath path with
    | some path => access.readFile path
    | none => access.readInput
  pure (text.mapError (.read path))

/-- Writes a whole file. -/
def writeFile (access : Access m) (path text : String) : m (Except FileFault Unit) := do
  match ← access.createFile path with
  | .error cause => pure (.error cause)
  | .ok write => write text

/-- Writes the output. -/
def Tool.writeOutput (tool : Tool) (access : Access m) (path : Option String) (text : String) :
    m (Except Failure Unit) := do
  match filePath path with
  | some file =>
    match ← access.createFile file with
    | .error cause => pure (.error (.create file cause))
    | .ok write =>
      let written ← write text
      pure (written.mapError (.write tool path))
  | none =>
    let written ← access.writeOutput text
    pure (written.mapError (.write tool path))

/-- Writes the statistics, if they are asked for. -/
def writeStatistics (access : Access m) (products : Products) : m (Except Failure Unit) := do
  match products.statistics with
  | none => pure (.ok ())
  | some (path, text) =>
    let written ← writeFile access path text
    pure (written.mapError (.writeStatistics path))

/-- Writes what a command has made. -/
def Tool.writeProducts (tool : Tool) (access : Access m) (path : Option String)
    (products : Products) : m (Except Failure Unit) := do
  -- The output stays where the statistics cannot be written.
  match ← tool.writeOutput access path products.output with
  | .error failure => pure (.error failure)
  | .ok () => writeStatistics access products

/-- Carries out a command: whether it failed, and its diagnostics. -/
def Tool.run (tool : Tool) (s : Settings) (access : Access m) :
    m (Logged (Diagnostic Float) (Except Failure Unit)) := do
  match ← readInput access s.input with
  | .error failure => pure (pure (.error failure))
  | .ok text =>
    let work := tool.work s text
    match work.value with
    | .error failure => pure ⟨.error failure, work.notes⟩
    | .ok products =>
      let written ← tool.writeProducts access s.output products
      pure ⟨written, work.notes⟩

/-- Carries out a command line, if its words are understood. -/
def Tool.invoke (tool : Tool) (words : List String) (access : Access m) :
    m (Except UsageFault (Settings × Logged (Diagnostic Float) (Except Failure Unit))) := do
  match tool.settings words with
  | .error fault => pure (.error fault)
  | .ok s =>
    let result ← tool.run s access
    pure (.ok (s, result))

end Toolpath.Command
