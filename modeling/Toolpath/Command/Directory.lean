import Toolpath.Command.Files

/-!
# A directory to run in

A directory of files in which a command can be run. It has no subdirectories. Of the directories
around it nothing is known but that they are there, and of the root only what every root has.

A path is followed name by name: each name but the last has to lead to a directory, and what the
last one may stand for depends on what is done. What is written into another directory is not kept.
-/

namespace Toolpath.Command

/-- A directory of files, with the standard streams of a command that runs in it. -/
structure Directory where
  files : List (String × ByteArray)
  input : ByteArray
  output : String

/-- A directory that a path can lead through. -/
inductive Location where
  /-- The directory that the command runs in. -/
  | here
  /-- One of those around it. -/
  | above
  | root
  /-- A directory that every root has. -/
  | system (name : String)
deriving DecidableEq, Repr

/-- The directory that two points lead to. -/
def Location.parent : Location → Location
  | .here => .above
  | .above => .above
  | .root => .root
  | .system _ => .root

/-- The directories that every root has. -/
def systemDirectories : List String :=
  ["bin", "boot", "dev", "etc", "home", "lib", "media", "mnt", "opt", "root", "run", "sbin", "srv",
    "tmp", "usr", "var"]

/-- What a name can stand for. -/
inductive Node where
  | directory (location : Location)
  | file (bytes : ByteArray)
  /-- The null device, which is always empty and takes everything. -/
  | null

/-- A path taken apart. -/
structure Route where
  start : Location
  /-- The names that have to lead to directories. -/
  way : List String
  /-- The last name; the path of the root has none. -/
  last : Option String
  /-- Does a slash follow the last name? -/
  closed : Bool
deriving DecidableEq, Repr

/-- How many bytes a path may have. -/
def longestPath : Nat := 4095

/-- How many bytes a name in a path may have. -/
def longestName : Nat := 255

/-- Takes a path apart, unless it can lead nowhere. -/
def Route.ofPath (path : String) : Except FileFault Route :=
  let names := components path
  if path.toList.contains '\x00' then .error .nulInPath
  else if longestPath < path.utf8ByteSize then .error .nameTooLong
  else if path.isEmpty then .error .notFound
  else
    .ok
      { start := if path.startsWith "/" then .root else .here
        way := names.dropLast
        last := names.getLast?
        closed := path.endsWith "/" }

namespace Directory

/-- The bytes of a file. -/
def find? (d : Directory) (name : String) : Option ByteArray :=
  d.files.lookup name

/-- What a name stands for in a directory. -/
def node (d : Directory) (location : Location) (name : String) : Except FileFault Node :=
  if name = "." then .ok (.directory location)
  else if name = ".." then .ok (.directory location.parent)
  else if longestName < name.utf8ByteSize then .error .nameTooLong
  else
    match location with
    | .here =>
      match d.find? name with
      | some bytes => .ok (.file bytes)
      | none => .error .notFound
    | .above => .error .notFound
    | .root =>
      if systemDirectories.contains name then .ok (.directory (.system name)) else .error .notFound
    | .system directory =>
      if directory = "dev" ∧ name = "null" then .ok .null else .error .notFound

/-- The directory that names lead to, one after the other. -/
def follow (d : Directory) (location : Location) : List String → Except FileFault Location
  | [] => .ok location
  | name :: names =>
    match d.node location name with
    | .error fault => .error fault
    | .ok (.directory next) => d.follow next names
    | .ok _ => .error .notDirectory

/-- The text of a file. A slash behind its name asks for a directory, which a file is not. -/
def read (d : Directory) (path : String) : Except FileFault String := do
  let route ← Route.ofPath path
  let location ← d.follow route.start route.way
  match route.last with
  | none => .error .isDirectory
  | some name =>
    match ← d.node location name with
    | .directory _ => .error .isDirectory
    | .file bytes => if route.closed then .error .notDirectory else decode bytes
    | .null => if route.closed then .error .notDirectory else .ok ""

/-- Puts a file in the place of the one of its name, or at the end. -/
def put (name : String) (bytes : ByteArray) : List (String × ByteArray) → List (String × ByteArray)
  | [] => [(name, bytes)]
  | (other, old) :: files =>
    if other = name then (name, bytes) :: files else (other, old) :: put name bytes files

/-- Keeps a file that is written into a directory, if it is this one. -/
def keep (d : Directory) (location : Location) (name text : String) : Directory :=
  match location with
  | .here => { d with files := put name text.toUTF8 d.files }
  | _ => d

/-- A file to write into, by its directory and name; the null device keeps nothing. A name with a
slash behind it is none for a file, whatever it stands for. -/
def target (d : Directory) (path : String) : Except FileFault (Option (Location × String)) := do
  let route ← Route.ofPath path
  let location ← d.follow route.start route.way
  match route.last with
  | none => .error .isDirectory
  | some name =>
    if route.closed then .error .isDirectory
    else
      match d.node location name with
      | .error .notFound => .ok (some (location, name))
      | .error fault => .error fault
      | .ok (.directory _) => .error .isDirectory
      | .ok (.file _) => .ok (some (location, name))
      | .ok .null => .ok none

/-- Writes a text into a file. -/
def fill (d : Directory) (target : Option (Location × String)) (text : String) : Directory :=
  match target with
  | some (location, name) => d.keep location name text
  | none => d

/-- Access to the directory that is the state. -/
def access : Access (StateM Directory) where
  readFile path := fun d => (d.read path, d)
  readInput := fun d => (decode d.input, d)
  createFile path := fun d =>
    match d.target path with
    | .error fault => (.error fault, d)
    | .ok target => (.ok fun text d => (.ok (), d.fill target text), d.fill target "")
  writeOutput text := fun d => (.ok (), { d with output := d.output ++ text })

/-! ### What is found after a file was put -/

theorem lookup_put_self (name : String) (bytes : ByteArray) (files : List (String × ByteArray)) :
    (put name bytes files).lookup name = some bytes := by
  induction files with
  | nil => simp [put]
  | cons file files ih =>
    rcases file with ⟨other, old⟩
    by_cases same : other = name
    · simp [put, same]
    · have differ : (name == other) = false := by simpa using Ne.symm same
      simp [put, same, List.lookup_cons, differ, ih]

theorem lookup_put_of_ne {name other : String} (differ : other ≠ name) (bytes : ByteArray)
    (files : List (String × ByteArray)) :
    (put name bytes files).lookup other = files.lookup other := by
  have apart : (other == name) = false := by simpa using differ
  induction files with
  | nil => simp [put, List.lookup_cons, apart]
  | cons file files ih =>
    rcases file with ⟨next, old⟩
    by_cases same : next = name
    · subst same
      simp [put, List.lookup_cons, apart]
    · simp [put, same, List.lookup_cons, ih]

/-- Writing elsewhere leaves the directory as it is. -/
theorem keep_of_ne_here {location : Location} (elsewhere : location ≠ .here) (d : Directory)
    (name text : String) : d.keep location name text = d := by
  cases location with
  | here => exact absurd rfl elsewhere
  | above => rfl
  | root => rfl
  | system _ => rfl

end Directory

end Toolpath.Command
