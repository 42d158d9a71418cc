import Toolpath.Svg.Number
import Toolpath.Geometry.Affine

/-!
# Transform lists

The functions of a transform attribute, in order, up to the first one that cannot be read; and the
map they make together, the first function being the outermost. Rotations and skews can be read but
have no map.
-/

namespace Toolpath.Svg

open Text (isSpace)

/-- One function of a transform list, its missing arguments filled in. -/
inductive TransformFunction (α : Type) where
  | matrix (map : Affine α)
  | translate (tx ty : α)
  | scale (sx sy : α)
  | rotate (angle : α) (centre : Option (Point α))
  | skewX (angle : α)
  | skewY (angle : α)

/-- The functions that have no map here. -/
inductive UnsupportedFunction where
  | rotate
  | skewX
  | skewY
deriving DecidableEq, Repr

/-- How a function is called. -/
def UnsupportedFunction.name : UnsupportedFunction → String
  | .rotate => "rotate"
  | .skewX => "skewX"
  | .skewY => "skewY"

/-- What is wrong with a transform list. -/
inductive TransformFault where
  | malformed (fault : ListFault)
  | unsupported (function : UnsupportedFunction)
deriving DecidableEq, Repr

/-- The functions of a list and the fault that ends it early. -/
structure TransformList (α : Type) where
  functions : List (TransformFunction α)
  fault : Option ListFault

/-- The first byte of a character in UTF-8, as the character of that number. -/
def leadByte (c : Char) : Char :=
  let n := c.toNat
  Char.ofNat <|
    if n < 0x80 then n
    else if n < 0x800 then 0xC0 + n / 0x40
    else if n < 0x10000 then 0xE0 + n / 0x1000
    else 0xF0 + n / 0x40000

/-- May a character stand in the name of a function? -/
def isNameCharacter (c : Char) : Bool :=
  c.isAlphanum || c = '-' || c = '_'

/-- Passes over a bracket that has to be next. -/
def bracket (length : Nat) (expected : Char) : ListReader Unit
  | [] => .error .endOfText
  | c :: cs =>
    if c = expected then .ok ((), cs)
    else .error (.unexpected expected (leadByte c) (position length (c :: cs)))

variable {α : Type} [Scalar α]

/-- What is read unless the closing bracket is next. -/
def unlessClosed {β : Type} (x : ListReader β) : ListReader (Option β) := fun cs =>
  if cs.head? = some ')' then .ok (none, cs) else (some <$> x) cs

/-- The arguments of a function by its name, without the brackets. -/
def arguments? (length : Nat) (name : String) : Option (ListReader (TransformFunction α)) :=
  match name with
  | "matrix" => some do
    let a ← item length
    let b ← item length
    let c ← item length
    let d ← item length
    let e ← item length
    let f ← item length
    pure (.matrix ⟨a, b, c, d, e, f⟩)
  | "translate" => some do
    let tx ← item length
    spaces
    let ty ← unlessClosed (item length)
    pure (.translate tx (ty.getD 0.0))
  | "scale" => some do
    let sx ← item length
    spaces
    let sy ← unlessClosed (item length)
    pure (.scale sx (sy.getD sx))
  | "rotate" => some do
    let angle ← item length
    spaces
    let centre ← unlessClosed do
      let x ← item length
      let y ← item length
      pure ⟨x, y⟩
    pure (.rotate angle centre)
  | "skewX" => some do
    let angle ← item length
    pure (.skewX angle)
  | "skewY" => some do
    let angle ← item length
    pure (.skewY angle)
  | _ => none

/-- What stands behind the opening bracket of a function: its arguments, the closing bracket, and a
comma that may follow. -/
def body (length : Nat) (arguments : ListReader (TransformFunction α)) :
    ListReader (TransformFunction α) := do
  let function ← arguments
  spaces
  bracket length ')'
  spaces
  comma
  pure function

/-- One function at the front, which is not blank. The bracket is looked at before the name. -/
def function (length : Nat) : ListReader (TransformFunction α) := fun cs =>
  let name := cs.takeWhile isNameCharacter
  match (cs.dropWhile isNameCharacter).dropWhile isSpace with
  | [] => .error .endOfText
  | c :: ahead =>
    -- A missing bracket is reported before an unknown name.
    if c ≠ '(' then .error (.unexpected '(' (leadByte c) (position length (c :: ahead)))
    else
      match arguments? length (String.ofList name) with
      | none => .error (.unknownFunction (position length cs))
      | some arguments => body length arguments ahead

/-! ### A function takes something away -/

theorem shrinks_bracket (length : Nat) (expected : Char) : Shrinks (bracket length expected) := by
  intro cs b rest h
  unfold bracket at h
  split at h
  · cases h
  · split at h <;> cases h
    simp

theorem shrinks_unlessClosed {β : Type} {x : ListReader β} (hx : Shrinks x) :
    Shrinks (unlessClosed x) := by
  intro cs b rest h
  unfold unlessClosed at h
  split at h
  · cases h
    exact Nat.le_refl _
  · exact Shrinks.bind hx (fun b => Shrinks.pure (some b)) _ _ _ h

theorem shrinks_arguments {length : Nat} {name : String}
    {arguments : ListReader (TransformFunction α)} (h : arguments? length name = some arguments) :
    Shrinks arguments := by
  have item : Shrinks (item length : ListReader α) := shrinks_item length
  unfold arguments? at h
  split at h <;> cases h
  all_goals
    refine Shrinks.bind item fun _ => ?_
  · refine Shrinks.bind item fun _ => Shrinks.bind item fun _ => Shrinks.bind item fun _ =>
      Shrinks.bind item fun _ => Shrinks.bind item fun _ => Shrinks.pure _
  · refine Shrinks.bind shrinks_spaces fun _ => Shrinks.bind (shrinks_unlessClosed item) fun _ =>
      Shrinks.pure _
  · refine Shrinks.bind shrinks_spaces fun _ => Shrinks.bind (shrinks_unlessClosed item) fun _ =>
      Shrinks.pure _
  · refine Shrinks.bind shrinks_spaces fun _ => Shrinks.bind (shrinks_unlessClosed
      (Shrinks.bind item fun _ => Shrinks.bind item fun _ => Shrinks.pure _)) fun _ =>
      Shrinks.pure _
  · exact Shrinks.pure _
  · exact Shrinks.pure _

omit [Scalar α] in
theorem shrinks_body {length : Nat} {arguments : ListReader (TransformFunction α)}
    (h : Shrinks arguments) : Shrinks (body length arguments) :=
  Shrinks.bind h fun _ => Shrinks.bind shrinks_spaces fun _ =>
    Shrinks.bind (shrinks_bracket length ')') fun _ => Shrinks.bind shrinks_spaces fun _ =>
    Shrinks.bind shrinks_comma fun _ => Shrinks.pure _

theorem length_of_function {length : Nat} {cs rest : List Char} {f : TransformFunction α}
    (h : function length cs = .ok (f, rest)) : rest.length < cs.length := by
  have name := length_dropWhile_le isNameCharacter cs
  have blank := length_dropWhile_le isSpace (cs.dropWhile isNameCharacter)
  simp only [function] at h
  split at h
  · cases h
  · rename_i ahead
    rw [ahead, List.length_cons] at blank
    split at h
    · cases h
    · split at h
      · cases h
      · rename_i arguments
        have := shrinks_body (shrinks_arguments arguments) _ _ _ h
        omega

/-- Reads the functions of a list from some characters on. -/
def TransformList.from (length : Nat) (cs : List Char) : TransformList α :=
  let start := cs.dropWhile isSpace
  if start.isEmpty then ⟨[], none⟩
  else
    match _read : function length start with
    | .error fault => ⟨[], some fault⟩
    | .ok (f, rest) =>
      let others := TransformList.from length rest
      { others with functions := f :: others.functions }
termination_by cs.length
decreasing_by
  have := length_of_function _read
  have : start.length ≤ cs.length := length_dropWhile_le _ _
  omega

/-- Reads a transform attribute. -/
def TransformList.ofText (text : String) : TransformList α :=
  .from text.toList.length text.toList

/-- The map of a function, if it has one here. -/
def TransformFunction.map? : TransformFunction α → Except UnsupportedFunction (Affine α)
  | .matrix map => .ok map
  | .translate tx ty => .ok (.translate tx ty)
  | .scale sx sy => .ok (.scale sx sy)
  | .rotate _ _ => .error .rotate
  | .skewX _ => .error .skewX
  | .skewY _ => .error .skewY

/-- The map of functions that follow an outer map. -/
def composeFrom (outer : Affine α) : List (TransformFunction α) →
    Except UnsupportedFunction (Affine α)
  | [] => .ok outer
  | f :: fs =>
    match f.map? with
    | .error function => .error function
    | .ok inner => composeFrom (outer.compose inner) fs

/-- The map of a list: of the two ways it can fail, the one that comes first in the text. -/
def TransformList.map (list : TransformList α) : Except TransformFault (Affine α) :=
  match composeFrom .identity list.functions with
  | .error function => .error (.unsupported function)
  | .ok map =>
    match list.fault with
    | some fault => .error (.malformed fault)
    | none => .ok map

/-- The map of a transform attribute. -/
def transform (text : String) : Except TransformFault (Affine α) :=
  (TransformList.ofText text : TransformList α).map

end Toolpath.Svg
