import Toolpath.Geometry.Point
import Toolpath.Text.Cursor
import Toolpath.Text.Blank

/-!
# Path data

The letters and numbers of path data. A letter is followed by groups of coordinates, and a group is
read as the stroke it draws. Reading only ever moves forward, also where it fails, and a group that
is read takes something away.
-/

namespace Toolpath.Svg

open Text (Cursor isSpace)

/-- A stroke of the pen. -/
inductive Stroke (α : Type) where
  | move (stop : Point α)
  | line (stop : Point α)
  | horizontal (x : α)
  | vertical (y : α)
  | curve (control₁ control₂ stop : Point α)
  /-- A curve that goes on in the direction of the curve before it. -/
  | smooth (control₂ stop : Point α)
  | close
deriving DecidableEq, Repr

/-- What the groups behind a letter draw. -/
inductive Command where
  | move
  | line
  | horizontal
  | vertical
  | curve
  | smooth
deriving DecidableEq, Repr

/-- What a letter stands for. -/
inductive Instruction where
  | close
  /-- A command, with its groups relative to the current point or not. -/
  | draw (command : Command) (relative : Bool)
deriving DecidableEq, Repr

/-- The instruction of a letter; small letters are relative. -/
def Instruction.ofChar? : Char → Option Instruction
  | 'M' => some (.draw .move false)
  | 'm' => some (.draw .move true)
  | 'L' => some (.draw .line false)
  | 'l' => some (.draw .line true)
  | 'H' => some (.draw .horizontal false)
  | 'h' => some (.draw .horizontal true)
  | 'V' => some (.draw .vertical false)
  | 'v' => some (.draw .vertical true)
  | 'C' => some (.draw .curve false)
  | 'c' => some (.draw .curve true)
  | 'S' => some (.draw .smooth false)
  | 's' => some (.draw .smooth true)
  | 'Z' => some .close
  | 'z' => some .close
  | _ => none

/-- What the groups after the first one draw: those of a move draw lines. -/
def Command.repeated : Command → Command
  | .move => .line
  | command => command

/-- No number stands at a byte offset; `near` is what stands there instead. -/
structure NumberFault where
  offset : Nat
  near : String
deriving DecidableEq, Repr

/-- As many characters as `bytes` bytes hold, and a replacement character if they end within one. -/
def excerpt (bytes : Nat) : List Char → List Char
  | [] => []
  | c :: cs =>
    if c.utf8Size ≤ bytes then c :: excerpt (bytes - c.utf8Size) cs
    else if bytes = 0 then []
    else ['\uFFFD']

/-- Reading path data. A failure keeps the place that was reached. -/
abbrev PathReader (β : Type) := ExceptT NumberFault (StateM Cursor) β

/-- The outcome of reading from a place, and the place reached. -/
def PathReader.at {β : Type} (x : PathReader β) (c : Cursor) : Except NumberFault β × Cursor :=
  x c

variable {α : Type} [Scalar α]

/-- The longest numeral that is next. -/
def pathNumber : PathReader α := fun c =>
  let length := Decimal.numeralLength c.rest
  match Decimal.ofChars? (c.rest.take length) with
  | some d => (.ok (Scalar.ofDecimal d), c.advance length)
  | none => (.error ⟨c.offset, String.ofList (excerpt 12 c.rest)⟩, c)

/-- Passes over spaces, a comma if there is one, and spaces again. -/
def skipSeparator (c : Cursor) : Cursor :=
  let c := c.skipWhile isSpace
  if c.rest.head? = some ',' then (c.advance 1).skipWhile isSpace else c

/-- Passes over a separator. -/
def separator : PathReader Unit := fun c =>
  (.ok (), skipSeparator c)

/-- Two numbers. -/
def pair : PathReader (Point α) := do
  let x ← pathNumber
  separator
  let y ← pathNumber
  pure ⟨x, y⟩

/-- The group of a command. -/
def group : Command → PathReader (Stroke α)
  | .move => do
    let p ← pair
    pure (.move p)
  | .line => do
    let p ← pair
    pure (.line p)
  | .horizontal => do
    let x ← pathNumber
    pure (.horizontal x)
  | .vertical => do
    let y ← pathNumber
    pure (.vertical y)
  | .curve => do
    let control₁ ← pair
    separator
    let control₂ ← pair
    separator
    let p ← pair
    pure (.curve control₁ control₂ p)
  | .smooth => do
    let control₂ ← pair
    separator
    let p ← pair
    pure (.smooth control₂ p)

/-- The next letter behind spaces, the byte offset where it stands, and the place behind it. -/
def nextLetter (c : Cursor) : Option (Char × Nat × Cursor) :=
  let start := c.skipWhile isSpace
  match start.rest with
  | [] => none
  | letter :: _ => some (letter, start.offset, start.advance 1)

/-! ### Reading moves forward -/

/-- The reader never goes back, whether it succeeds or fails. -/
def Forward {β : Type} (x : PathReader β) : Prop :=
  ∀ c, (x.at c).2.rest.length ≤ c.rest.length

/-- Where the reader succeeds, it has taken something away. -/
def Consumes {β : Type} (x : PathReader β) : Prop :=
  ∀ c b next, x.at c = (.ok b, next) → next.rest.length < c.rest.length

theorem at_pure {β : Type} (b : β) (c : Cursor) :
    (pure b : PathReader β).at c = (.ok b, c) := rfl

theorem at_bind {β γ : Type} (x : PathReader β) (f : β → PathReader γ) (c : Cursor) :
    (x >>= f).at c =
      match x.at c with
      | (.ok b, next) => (f b).at next
      | (.error fault, next) => (.error fault, next) := by
  change (ExceptT.bindCont f (x c).1) (x c).2 = _
  unfold PathReader.at
  rcases x c with ⟨fault | b, next⟩ <;> rfl

theorem Forward.pure {β : Type} (b : β) : Forward (Pure.pure b : PathReader β) :=
  fun _ => Nat.le_refl _

theorem Forward.bind {β γ : Type} {x : PathReader β} {f : β → PathReader γ} (hx : Forward x)
    (hf : ∀ b, Forward (f b)) : Forward (x >>= f) := by
  intro c
  have first := hx c
  rw [at_bind]
  rcases eq : x.at c with ⟨fault | b, next⟩ <;> rw [eq] at first
  · exact first
  · exact Nat.le_trans (hf b next) first

theorem Consumes.bind {β γ : Type} {x : PathReader β} {f : β → PathReader γ} (hx : Consumes x)
    (hf : ∀ b, Forward (f b)) : Consumes (x >>= f) := by
  intro c b next h
  rw [at_bind] at h
  rcases eq : x.at c with ⟨fault | b, middle⟩ <;> rw [eq] at h
  · cases h
  · have first := hx c b middle eq
    have second := hf b middle
    change (f b).at middle = _ at h
    rw [h] at second
    exact Nat.lt_of_le_of_lt second first

theorem length_skipSeparator_le (c : Cursor) :
    (skipSeparator c).rest.length ≤ c.rest.length := by
  have first := c.length_rest_skipWhile_le isSpace
  simp only [skipSeparator]
  split
  · exact Nat.le_trans (Cursor.length_rest_skipWhile_le _ _)
      (Nat.le_trans (Cursor.length_rest_advance_le _ _) first)
  · exact first

theorem forward_separator : Forward separator :=
  length_skipSeparator_le

theorem consumes_pathNumber : Consumes (pathNumber : PathReader α) := by
  intro c b next h
  simp only [PathReader.at, pathNumber] at h
  split at h
  · rename_i found
    have taken : c.rest.take (Decimal.numeralLength c.rest) ≠ [] := by
      intro empty
      rw [empty, Decimal.ofChars?_nil] at found
      cases found
    have positive := List.length_pos_iff.2 taken
    rw [List.length_take] at positive
    cases h
    rw [Cursor.rest_advance, List.length_drop]
    omega
  · cases h

theorem forward_pathNumber : Forward (pathNumber : PathReader α) := by
  intro c
  simp only [PathReader.at, pathNumber]
  split
  · exact Cursor.length_rest_advance_le _ _
  · exact Nat.le_refl _

theorem forward_pair : Forward (pair : PathReader (Point α)) :=
  Forward.bind forward_pathNumber fun _ => Forward.bind forward_separator fun _ =>
    Forward.bind forward_pathNumber fun _ => Forward.pure _

theorem consumes_pair : Consumes (pair : PathReader (Point α)) :=
  Consumes.bind consumes_pathNumber fun _ => Forward.bind forward_separator fun _ =>
    Forward.bind forward_pathNumber fun _ => Forward.pure _

theorem consumes_group (command : Command) : Consumes (group command : PathReader (Stroke α)) := by
  cases command with
  | move => exact Consumes.bind consumes_pair fun _ => Forward.pure _
  | line => exact Consumes.bind consumes_pair fun _ => Forward.pure _
  | horizontal => exact Consumes.bind consumes_pathNumber fun _ => Forward.pure _
  | vertical => exact Consumes.bind consumes_pathNumber fun _ => Forward.pure _
  | curve =>
    exact Consumes.bind consumes_pair fun _ => Forward.bind forward_separator fun _ =>
      Forward.bind forward_pair fun _ => Forward.bind forward_separator fun _ =>
      Forward.bind forward_pair fun _ => Forward.pure _
  | smooth =>
    exact Consumes.bind consumes_pair fun _ => Forward.bind forward_separator fun _ =>
      Forward.bind forward_pair fun _ => Forward.pure _

theorem forward_group (command : Command) : Forward (group command : PathReader (Stroke α)) := by
  cases command with
  | move => exact Forward.bind forward_pair fun _ => Forward.pure _
  | line => exact Forward.bind forward_pair fun _ => Forward.pure _
  | horizontal => exact Forward.bind forward_pathNumber fun _ => Forward.pure _
  | vertical => exact Forward.bind forward_pathNumber fun _ => Forward.pure _
  | curve =>
    exact Forward.bind forward_pair fun _ => Forward.bind forward_separator fun _ =>
      Forward.bind forward_pair fun _ => Forward.bind forward_separator fun _ =>
      Forward.bind forward_pair fun _ => Forward.pure _
  | smooth =>
    exact Forward.bind forward_pair fun _ => Forward.bind forward_separator fun _ =>
      Forward.bind forward_pair fun _ => Forward.pure _

theorem length_of_nextLetter {c next : Cursor} {letter : Char} {offset : Nat}
    (h : nextLetter c = some (letter, offset, next)) : next.rest.length < c.rest.length := by
  have start := c.length_rest_skipWhile_le isSpace
  simp only [nextLetter] at h
  split at h
  · cases h
  · rename_i ahead
    cases h
    rw [Cursor.rest_advance, ahead]
    rw [ahead] at start
    simp only [List.length_cons] at start
    simp only [List.drop_succ_cons, List.drop_zero]
    omega

end Toolpath.Svg
