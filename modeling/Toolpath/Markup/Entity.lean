import Toolpath.Markup.Fault
import Toolpath.Text.Cursor

/-!
# Entities

The value of an attribute with its entities replaced by the characters they stand for. What an
entity stands for is not looked at again.
-/

namespace Toolpath.Markup

open Text (Cursor)

/-- The value of a digit to a base of at most sixteen. -/
def digit? (base : Nat) (c : Char) : Option Nat :=
  let n :=
    if c.isDigit then c.toNat - '0'.toNat
    else if 'a' ≤ c && c ≤ 'f' then c.toNat - 'a'.toNat + 10
    else if 'A' ≤ c && c ≤ 'F' then c.toNat - 'A'.toNat + 10
    else base
  if n < base then some n else none

/-- The number that digits spell after `n`; it has to stay below `2 ^ 32` all the way. -/
def codeFrom (base n : Nat) : List Char → Except ReferenceCause Nat
  | [] => .ok n
  | c :: cs =>
    match digit? base c with
    | none => .error .invalidDigit
    | some d =>
      if n * base + d < UInt32.size then codeFrom base (n * base + d) cs else .error .tooLarge

/-- The character with the code that digits spell. -/
def characterOf (base : Nat) (digits : List Char) : Except ReferenceCause Char :=
  match digits with
  | [] => .error .empty
  | '+' :: _ => .error .signed
  | '-' :: _ => .error .signed
  | _ =>
    match codeFrom base 0 digits with
    | .error cause => .error cause
    | .ok 0 => .error .zero
    | .ok code =>
      if code.isValidChar then .ok (Char.ofNat code) else .error (.notACharacter code)

/-- What an entity stands for: one of the five named characters, or the character with a number.
`first` and `last` are where its name begins and ends. -/
def entity (first last : Nat) (name : List Char) : Except Fault Char :=
  match name with
  | ['l', 't'] => .ok '<'
  | ['g', 't'] => .ok '>'
  | ['a', 'm', 'p'] => .ok '&'
  | ['a', 'p', 'o', 's'] => .ok '\''
  | ['q', 'u', 'o', 't'] => .ok '"'
  | '#' :: 'x' :: digits => (characterOf 16 digits).mapError .reference
  | '#' :: digits => (characterOf 10 digits).mapError .reference
  | _ => .error (.unknownEntity first last (String.ofList name))

/-- Replaces the entities from a place in a value on. -/
def unescapeFrom (c : Cursor) : Except Fault (List Char) :=
  let plain := c.rest.takeWhile (· != '&')
  let start := c.advance plain.length
  match _ : start.rest with
  | [] => .ok plain
  | _ :: ahead =>
    -- A second ampersand before the semicolon leaves the first one without an end.
    let name := ahead.takeWhile (fun x => x != ';' && x != '&')
    let stop := start.advance (name.length + 1)
    match stop.rest with
    | ';' :: _ =>
      match entity (start.offset + 1) stop.offset name with
      | .error fault => .error fault
      | .ok x =>
        match unescapeFrom (start.advance (name.length + 2)) with
        | .error fault => .error fault
        | .ok tail => .ok (plain ++ x :: tail)
    | _ => .error (.unterminatedEntity start.offset c.endOffset)
termination_by c.rest.length
decreasing_by
  have shorter : start.rest.length ≤ c.rest.length := c.length_rest_advance_le _
  have nonempty : start.rest ≠ [] := by rw [‹start.rest = _›]; simp
  have positive := List.length_pos_iff.2 nonempty
  show (start.advance (name.length + 2)).rest.length < c.rest.length
  rw [Cursor.rest_advance, List.length_drop]
  omega

/-- Replaces the entities of a value. -/
def unescape (value : List Char) : Except Fault (List Char) :=
  unescapeFrom (Cursor.ofChars value)

end Toolpath.Markup
