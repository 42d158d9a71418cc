/-!
# Files

What a command needs of the files around it: why they cannot be read or written, and how a path is
told from a standard stream.
-/

namespace Toolpath.Command

/-- Why a file cannot be read or written. -/
inductive FileFault where
  | notFound
  | isDirectory
  | notDirectory
  /-- A path or a name in it has too many bytes. -/
  | nameTooLong
  /-- A path has a character that no path can have. -/
  | nulInPath
  /-- What is in the file is no text. -/
  | notText
  | other (message : String)
deriving DecidableEq, Repr

/-- The words for a fault. -/
def FileFault.message : FileFault → String
  | .notFound => "No such file or directory (os error 2)"
  | .isDirectory => "Is a directory (os error 21)"
  | .notDirectory => "Not a directory (os error 20)"
  | .nameTooLong => "File name too long (os error 36)"
  | .nulInPath => "file name contained an unexpected NUL byte"
  | .notText => "stream did not contain valid UTF-8"
  | .other message => message

/-- How a command gets at files and at the standard streams. -/
structure Access (m : Type → Type) where
  readFile : String → m (Except FileFault String)
  readInput : m (Except FileFault String)
  /-- Opens a file, which is created if it is not there and else emptied, for one text to be written
  into it. -/
  createFile : String → m (Except FileFault (String → m (Except FileFault Unit)))
  writeOutput : String → m (Except FileFault Unit)

/-- The parts of a path between its slashes, empty ones left out. -/
def components (path : String) : List String :=
  let runs := path.toList.splitBy fun c next => (c == '/') == (next == '/')
  (runs.filter fun run => run.head? != some '/').map String.ofList

/-- Is the path `-`, which stands for a standard stream? A path is compared by its components, and a
point after the first of them is none. -/
def isStream (path : String) : Bool :=
  match components path with
  | "-" :: rest => !path.startsWith "/" && rest.all (· == ".")
  | _ => false

/-- The path of a file, unless a standard stream is meant. -/
def filePath (path : Option String) : Option String :=
  path.filter (!isStream ·)

/-- How an input or output is called in a message. -/
def describe (path : Option String) : String :=
  match filePath path with
  | some path => "'" ++ path ++ "'"
  | none => "standard stream"

/-- The text that bytes encode. -/
def decode (bytes : ByteArray) : Except FileFault String :=
  match String.fromUTF8? bytes with
  | some text => .ok text
  | none => .error .notText

end Toolpath.Command
