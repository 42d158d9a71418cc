import Toolpath.Conversion

/-!
# Arguments

The words of a command line as settings. Options may stand anywhere among the two paths; after `--`
every word is a path. The value of an option that stands in a word of its own, and a path, are
looked at only when the next word has been understood.
-/

namespace Toolpath.Command

/-- The two commands: turning a drawing into a pattern, and showing a pattern as a drawing. -/
inductive Tool where
  | plot
  | preview
deriving DecidableEq, Repr

/-- Options without a value. -/
inductive Flag where
  | clip
  | noClip
  | quiet
  | verbose
  | help
  | version
deriving DecidableEq, Repr

/-- What has a value: an option, or one of the two paths. -/
inductive Slot where
  | flatness
  | maxDepth
  | stats
  | input
  | output
deriving DecidableEq, Repr

/-- Why words are not carried out. -/
inductive UsageFault where
  | unknownArgument
  | argumentConflict
  /-- A value is missing or empty. -/
  | invalidValue
  /-- A value is not of its kind. -/
  | valueValidation
  | tooManyValues
  | displayHelp
  | displayVersion
deriving DecidableEq, Repr

/-- What the words have set so far. -/
structure Settings where
  flags : List Flag
  flatness : Option Float
  maxDepth : Option Nat
  stats : Option String
  input : Option String
  output : Option String

namespace Settings

/-- Nothing set. -/
def empty : Settings := ⟨[], none, none, none, none, none⟩

/-- Is a flag set? -/
def has (s : Settings) (flag : Flag) : Bool :=
  s.flags.contains flag

/-- Is a value set? -/
def hasValue (s : Settings) : Slot → Bool
  | .flatness => s.flatness.isSome
  | .maxDepth => s.maxDepth.isSome
  | .stats => s.stats.isSome
  | .input => s.input.isSome
  | .output => s.output.isSome

/-- How the settings say to convert. -/
def options (s : Settings) : Options Float :=
  let standard : Options Float := .standard
  { standard with
    clip := !s.has .noClip
    flattening :=
      ⟨s.flatness.getD standard.flattening.flatness, s.maxDepth.getD standard.flattening.maxDepth⟩ }

/-- The least level of diagnostics to show. -/
def level (s : Settings) : Level :=
  if s.has .quiet then .warn else if s.has .verbose then .debug else .info

end Settings

/-- The flag that another flag makes forgotten. -/
def Flag.overridden? : Flag → Option Flag
  | .clip => some .noClip
  | .noClip => some .clip
  | _ => none

/-- Sets a flag. It may not be set already; a flag that it overrides is forgotten. -/
def Settings.setFlag (s : Settings) (flag : Flag) : Except UsageFault Settings :=
  match flag with
  | .help => .error .displayHelp
  | .version => .error .displayVersion
  | flag =>
    if s.has flag then .error .argumentConflict
    else
      let kept := s.flags.filter fun other => flag.overridden? != some other
      .ok { s with flags := flag :: kept }

/-- A number above zero. -/
def positive? (text : String) : Option Float :=
  match Decimal.ofText? text with
  | none => none
  | some d =>
    let x := d.toFloat
    if x.isFinite && 0 < x then some x else none

/-- A whole number of thirty-two bits. It may have a sign, but not be below zero. -/
def depth? (text : String) : Option Nat :=
  match Decimal.power? text.toList with
  | some (n, []) => if 0 ≤ n ∧ n < UInt32.size then some n.toNat else none
  | _ => none

/-- A path, which may not be empty. -/
def path (text : String) : Except UsageFault String :=
  if text.isEmpty then .error .invalidValue else .ok text

/-- A value that has to be of its kind. -/
def checked {β : Type} : Option β → Except UsageFault β
  | none => .error .valueValidation
  | some b => .ok b

/-- Sets a value, which may not be set already. -/
def Settings.setValue (s : Settings) (slot : Slot) (text : String) : Except UsageFault Settings :=
  if s.hasValue slot then .error .argumentConflict
  else
    match slot with
    | .flatness => (checked (positive? text)).map fun x => { s with flatness := some x }
    | .maxDepth => (checked (depth? text)).map fun n => { s with maxDepth := some n }
    | .stats => (path text).map fun p => { s with stats := some p }
    | .input => (path text).map fun p => { s with input := some p }
    | .output => (path text).map fun p => { s with output := some p }

/-- An option by its long name. -/
inductive Long where
  | flag (flag : Flag)
  | slot (slot : Slot)
deriving DecidableEq, Repr

/-- The options that both commands have. -/
def commonLong? : String → Option Long
  | "quiet" => some (.flag .quiet)
  | "verbose" => some (.flag .verbose)
  | "help" => some (.flag .help)
  | "version" => some (.flag .version)
  | _ => none

/-- The option of a long name. -/
def Tool.long? (tool : Tool) (name : String) : Option Long :=
  match tool, name with
  | .plot, "clip" => some (.flag .clip)
  | .plot, "no-clip" => some (.flag .noClip)
  | .plot, "flatness" => some (.slot .flatness)
  | .plot, "max-depth" => some (.slot .maxDepth)
  | .plot, "stats" => some (.slot .stats)
  | _, name => commonLong? name

/-- The flag of a letter. -/
def shortFlag? : Char → Option Flag
  | 'q' => some .quiet
  | 'v' => some .verbose
  | 'h' => some .help
  | 'V' => some .version
  | _ => none

/-- What reading words has come to. -/
structure Progress where
  settings : Settings
  /-- What was named or begun last, with its value once that is there. -/
  pending : Option (Slot × Option String)
  /-- How many paths there were. -/
  paths : Nat
  /-- Are all further words paths? -/
  literal : Bool

namespace Progress

/-- No word read. -/
def start : Progress := ⟨.empty, none, 0, false⟩

/-- Sets what is pending. An option whose value is not there by now goes without. -/
def resolve (p : Progress) : Except UsageFault Progress :=
  match p.pending with
  | none => .ok p
  | some (_, none) => .error .invalidValue
  | some (slot, some text) =>
    (p.settings.setValue slot text).map fun s => { p with settings := s, pending := none }

/-- Takes a flag. -/
def takeFlag (p : Progress) (flag : Flag) : Except UsageFault Progress := do
  let p ← p.resolve
  let s ← p.settings.setFlag flag
  pure { p with settings := s }

/-- Takes an option by its long name, with the value behind its equals sign if there is one. -/
def takeLong (tool : Tool) (p : Progress) (name : String) (value : Option String) :
    Except UsageFault Progress :=
  match tool.long? name, value with
  | none, _ => .error .unknownArgument
  | some (.flag _), some _ => .error .tooManyValues
  | some (.flag flag), none => p.takeFlag flag
  | some (.slot slot), some text => do
    let p ← p.resolve
    let s ← p.settings.setValue slot text
    pure { p with settings := s }
  | some (.slot slot), none => do
    let p ← p.resolve
    pure { p with pending := some (slot, none) }

/-- Takes flags by their letters. -/
def takeShort (p : Progress) : List Char → Except UsageFault Progress
  | [] => .ok p
  | c :: cs =>
    match shortFlag? c with
    | none => .error .unknownArgument
    | some flag => do
      let p ← p.takeFlag flag
      p.takeShort cs

/-- Takes a path: the first is the input, the second the output. -/
def takePath (p : Progress) (text : String) : Except UsageFault Progress :=
  let slot? := match p.paths with
    | 0 => some Slot.input
    | 1 => some Slot.output
    | _ => none
  match slot? with
  | none => .error .unknownArgument
  | some slot => do
    let p ← p.resolve
    pure { p with pending := some (slot, some text), paths := p.paths + 1 }

/-- Takes a word that is no option: the value that an option waits for, or a path. -/
def takePlain (p : Progress) (text : String) : Except UsageFault Progress :=
  match p.pending with
  | some (slot, none) => .ok { p with pending := some (slot, some text) }
  | _ => p.takePath text

/-- Splits a long option at its equals sign. -/
def splitEquals (cs : List Char) : String × Option String :=
  let name := String.ofList (cs.takeWhile (· != '='))
  match cs.dropWhile (· != '=') with
  | [] => (name, none)
  | _ :: value => (name, some (String.ofList value))

/-- Takes a word. -/
def take (tool : Tool) (p : Progress) (word : String) : Except UsageFault Progress :=
  if p.literal then p.takePath word
  else
    match word.toList with
    | ['-', '-'] => .ok { p with literal := true }
    | '-' :: '-' :: cs =>
      let (name, value) := splitEquals cs
      p.takeLong tool name value
    -- A dash alone is no option.
    | '-' :: c :: cs => p.takeShort (c :: cs)
    | _ => p.takePlain word

/-- Takes words in order. -/
def takeAll (tool : Tool) (p : Progress) : List String → Except UsageFault Progress
  | [] => .ok p
  | word :: words => do
    let p ← p.take tool word
    p.takeAll tool words

/-- The settings after the last word. -/
def finish (p : Progress) : Except UsageFault Settings := do
  let p ← p.resolve
  if p.settings.has .quiet && p.settings.has .verbose then .error .argumentConflict
  else .ok p.settings

end Progress

/-- Reads the words of a command. -/
def Tool.settings (tool : Tool) (words : List String) : Except UsageFault Settings := do
  let p ← Progress.start.takeAll tool words
  p.finish

end Toolpath.Command
