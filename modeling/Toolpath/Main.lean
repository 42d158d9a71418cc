import Toolpath.Command.Run

/-!
# The program

Carries out `plot` and `preview` on the files and standard streams of the machine. Everything that
is decided is decided in `Tool.invoke`; diagnostics go to standard error.
-/

namespace Toolpath.Main

open Command

/-- What is shown for `--help`, and for words that are not understood. -/
def usageText : String :=
  "usage: toolpath plot [INPUT [OUTPUT]] [--clip | --no-clip] [--flatness INCHES]\n"
    ++ "                     [--max-depth COUNT] [--stats FILE] [-q | -v]\n"
    ++ "       toolpath preview [INPUT [OUTPUT]] [-q | -v]\n"

/-- What is shown for `--version`. -/
def versionText : String := "toolpath 1.0\n"

/-- The words for a usage fault. -/
def usageMessage : UsageFault → String
  | .unknownArgument => "unknown argument"
  | .argumentConflict => "arguments that cannot stand together"
  | .invalidValue => "a value is missing or empty"
  | .valueValidation => "a value is not of its kind"
  | .tooManyValues => "a value that is not taken"
  | .displayHelp => usageText
  | .displayVersion => versionText

/-- The number of an error, which some calls report negated. -/
def errorNumber (code : UInt32) : UInt32 :=
  if code < 0x80000000 then code else 0 - code

/-- The fault behind an error of the machine. -/
def fileFault : IO.Error → FileFault
  | .noFileOrDirectory .. => .notFound
  | .inappropriateType _ code details =>
    if errorNumber code = 21 then .isDirectory
    else if errorNumber code = 20 then .notDirectory
    else .other details
  | .invalidArgument _ code details =>
    if errorNumber code = 36 then .nameTooLong else .other details
  | error => .other (toString error)

/-- Does something, an error becoming a fault. -/
def attempted {β : Type} (act : IO β) : IO (Except FileFault β) := do
  try
    let b ← act
    pure (.ok b)
  catch error =>
    pure (.error (fileFault error))

/-- Does something whose bytes have to be text. -/
def attemptedText (act : IO ByteArray) : IO (Except FileFault String) := do
  match ← attempted act with
  | .error fault => pure (.error fault)
  | .ok bytes => pure (decode bytes)

/-- Everything on a stream. -/
partial def readToEnd (stream : IO.FS.Stream) (bytes : ByteArray) : IO ByteArray := do
  let more ← stream.read 65536
  if more.isEmpty then pure bytes else readToEnd stream (bytes ++ more)

/-- The files and standard streams of the machine. -/
def machine : Access IO where
  readFile path := attemptedText (IO.FS.readBinFile path)
  readInput := attemptedText do
    let stream ← IO.getStdin
    readToEnd stream .empty
  createFile path := do
    match ← attempted (IO.FS.Handle.mk path .write) with
    | .error fault => pure (.error fault)
    | .ok handle =>
      pure (.ok fun text => attempted do
        handle.putStr text
        handle.flush)
  writeOutput text := attempted do
    let stream ← IO.getStdout
    stream.putStr text
    stream.flush

/-- How a level is called. -/
def levelText : Level → String
  | .trace => "TRACE"
  | .debug => "DEBUG"
  | .info => "INFO"
  | .warn => "WARN"

/-- A diagnostic as one line. -/
def noteText (d : Diagnostic Float) : String :=
  let fields := d.fields.map fun (name, value) => " " ++ name ++ "=" ++ value
  levelText d.level ++ " " ++ d.message ++ String.join fields

/-- Carries out a command and says whether it failed. -/
def runTool (tool : Tool) (words : List String) : IO UInt32 := do
  match ← tool.invoke words machine with
  | .error .displayHelp => IO.print usageText; pure 0
  | .error .displayVersion => IO.print versionText; pure 0
  | .error fault => IO.eprintln ("error: " ++ usageMessage fault); pure 2
  | .ok (s, result) =>
    for d in result.notes do
      if s.level.rank ≤ d.level.rank then IO.eprintln (noteText d)
    match result.value with
    | .ok () => pure 0
    | .error failure => IO.eprintln ("Error: " ++ failure.message); pure 1

end Toolpath.Main

/-- The first word is the command, the others are its own. -/
def main (words : List String) : IO UInt32 :=
  match words with
  | "plot" :: words => Toolpath.Main.runTool .plot words
  | "preview" :: words => Toolpath.Main.runTool .preview words
  | _ => do
    IO.eprint Toolpath.Main.usageText
    pure 2
