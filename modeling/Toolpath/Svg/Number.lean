import Toolpath.Scalar
import Toolpath.Text.Blank

/-!
# Numbers in attributes

The numbers that lengths and lists are made of. A number may have a power of ten, but the letter of
a power is left alone where it begins one of the units `em` and `ex`.
-/

namespace Toolpath.Svg

open Text (isSpace)

/-- What is wrong with a list. Positions count characters, the first of them being one. -/
inductive ListFault where
  | invalidNumber (position : Nat)
  | endOfText
  | unknownFunction (position : Nat)
  | unexpected (expected found : Char) (position : Nat)
deriving DecidableEq, Repr

/-- The words for a fault. -/
def ListFault.message : ListFault → String
  | .invalidNumber position => "invalid number at position " ++ toString position
  | .endOfText => "unexpected end of stream"
  | .unknownFunction position => "unexpected data at position " ++ toString position
  | .unexpected expected found position =>
    "expected '" ++ expected.toString ++ "' not '" ++ found.toString ++ "' at position "
      ++ toString position

/-- Reading a list, from characters ahead to the characters left. -/
abbrev ListReader (β : Type) := StateT (List Char) (Except ListFault) β

/-- The position of what is ahead in a text of a given length. -/
def position (length : Nat) (ahead : List Char) : Nat :=
  length - ahead.length + 1

/-- The power of ten behind a significand: none where no letter stands or a unit begins, and no
reading at all where the letter is followed by anything but a whole number. -/
def power? (cs : List Char) : Option (Int × List Char) :=
  match cs with
  | [] => some (0, [])
  | letter :: rest =>
    if letter = 'e' || letter = 'E' then
      match rest with
      | 'm' :: _ => some (0, cs)
      | 'x' :: _ => some (0, cs)
      | _ => Decimal.power? rest
    else some (0, cs)

/-- The numeral at the front, and what follows it. -/
def numeral? (cs : List Char) : Option (Decimal × List Char) :=
  let (minus, rest) := Decimal.sign cs
  match Decimal.significand? rest with
  | none => none
  | some (digits, places, rest) =>
    match power? rest with
    | none => none
    | some (exponent, rest) => some (⟨minus, digits, exponent - places⟩, rest)

variable {α : Type} [Scalar α]

/-- A number behind spaces. It has to be finite. -/
def number (length : Nat) : ListReader α := fun cs =>
  let start := cs.dropWhile isSpace
  match numeral? start with
  | none => .error (.invalidNumber (position length start))
  | some (d, rest) =>
    let x : α := Scalar.ofDecimal d
    if Scalar.isFinite x then .ok (x, rest) else .error (.invalidNumber (position length start))

/-- Passes over spaces. -/
def spaces : ListReader Unit := fun cs =>
  .ok ((), cs.dropWhile isSpace)

/-- Passes over a comma, if one is next. -/
def comma : ListReader Unit
  | ',' :: cs => .ok ((), cs)
  | cs => .ok ((), cs)

/-- A number of a list, and the spaces and the comma behind it. -/
def item (length : Nat) : ListReader α := fun cs =>
  if cs.isEmpty then .error .endOfText
  else (do let x ← number length; spaces; comma; pure x : ListReader α) cs

/-! ### What is left is not longer -/

/-- The reader never leaves more than it was given. -/
def Shrinks {β : Type} (x : ListReader β) : Prop :=
  ∀ cs b rest, x cs = .ok (b, rest) → rest.length ≤ cs.length

theorem Shrinks.pure {β : Type} (b : β) : Shrinks (Pure.pure b : ListReader β) := by
  intro cs b rest h
  cases h
  exact Nat.le_refl _

theorem Shrinks.bind {β γ : Type} {x : ListReader β} {f : β → ListReader γ} (hx : Shrinks x)
    (hf : ∀ b, Shrinks (f b)) : Shrinks (x >>= f) := by
  intro cs c rest h
  change (x cs >>= fun p => f p.1 p.2) = .ok (c, rest) at h
  cases eq : x cs with
  | error fault =>
    rw [eq] at h
    cases h
  | ok p =>
    rw [eq] at h
    exact Nat.le_trans (hf p.1 _ _ _ h) (hx _ _ _ eq)

theorem length_dropWhile_le (p : Char → Bool) (cs : List Char) :
    (cs.dropWhile p).length ≤ cs.length :=
  (List.dropWhile_suffix p).length_le

theorem shrinks_spaces : Shrinks spaces := by
  intro cs b rest h
  cases h
  exact length_dropWhile_le _ _

theorem shrinks_comma : Shrinks comma := by
  intro cs b rest h
  unfold comma at h
  split at h <;> cases h <;> simp

theorem length_of_power? {cs rest : List Char} {n : Int} (h : power? cs = some (n, rest)) :
    rest.length ≤ cs.length := by
  unfold power? at h
  split at h
  · cases h
    exact Nat.le_refl _
  · split at h
    · split at h
      · cases h
        exact Nat.le_refl _
      · cases h
        exact Nat.le_refl _
      · have := Decimal.length_of_power? h
        simp only [List.length_cons]
        omega
    · cases h
      exact Nat.le_refl _

theorem length_of_numeral? {cs rest : List Char} {d : Decimal}
    (h : numeral? cs = some (d, rest)) : rest.length < cs.length := by
  have start := Decimal.length_sign_le cs
  simp only [numeral?] at h
  split at h
  · cases h
  · rename_i body
    have body := Decimal.length_of_significand? body
    split at h
    · cases h
    · rename_i tail
      have tail := length_of_power? tail
      cases h
      omega

theorem shrinks_number (length : Nat) : Shrinks (number length : ListReader α) := by
  intro cs b rest h
  have start := length_dropWhile_le isSpace cs
  simp only [number] at h
  split at h
  · cases h
  · rename_i found
    have := length_of_numeral? found
    split at h
    · cases h
      omega
    · cases h

theorem shrinks_item (length : Nat) : Shrinks (item length : ListReader α) := by
  intro cs b rest h
  unfold item at h
  split at h
  · cases h
  · exact Shrinks.bind (shrinks_number length)
      (fun x => Shrinks.bind shrinks_spaces
        (fun _ => Shrinks.bind shrinks_comma (fun _ => Shrinks.pure x))) _ _ _ h

end Toolpath.Svg
