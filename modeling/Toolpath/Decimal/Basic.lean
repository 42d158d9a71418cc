/-!
# Decimal numerals

A numeral as it stands in a text: sign, digits, power of ten. `Decimal.numeralLength` is the length
of the longest numeral that a list of characters begins with, `Decimal.ofChars?` the value of a
numeral.
-/

namespace Toolpath

/-- A decimal numeral, worth `± digits · 10 ^ exponent`. The sign is kept apart from the digits, so
that minus zero is told from zero. -/
structure Decimal where
  negative : Bool
  digits : Nat
  exponent : Int
deriving DecidableEq, Repr, Inhabited

namespace Decimal

/-- The value of a decimal digit. -/
def digitValue (c : Char) : Nat :=
  c.toNat - '0'.toNat

/-- The number that a list of digits spells, read after `n`. -/
def digitsFrom (n : Nat) (cs : List Char) : Nat :=
  cs.foldl (fun n c => 10 * n + digitValue c) n

/-- The digits at the front, and what follows them. -/
def spanDigits (cs : List Char) : List Char × List Char :=
  (cs.takeWhile Char.isDigit, cs.dropWhile Char.isDigit)

/-- An optional sign at the front: is it a minus, and what follows it. -/
def sign : List Char → Bool × List Char
  | '-' :: cs => (true, cs)
  | '+' :: cs => (false, cs)
  | cs => (false, cs)

/-- Digits with an optional point among them, at least one digit in all: the number the digits
spell, how many of them stand after the point, and what follows. -/
def significand? (cs : List Char) : Option (Nat × Nat × List Char) :=
  let (whole, rest) := spanDigits cs
  match rest with
  | '.' :: rest =>
    let (fraction, rest) := spanDigits rest
    if whole.isEmpty && fraction.isEmpty then none
    else some (digitsFrom (digitsFrom 0 whole) fraction, fraction.length, rest)
  | _ => if whole.isEmpty then none else some (digitsFrom 0 whole, 0, rest)

/-- The signed whole number that a power of ten is written with, without its letter. -/
def power? (cs : List Char) : Option (Int × List Char) :=
  let (minus, rest) := sign cs
  let (digits, rest) := spanDigits rest
  if digits.isEmpty then none
  else
    let n : Int := digitsFrom 0 digits
    some (if minus then -n else n, rest)

/-- The power of ten at the front. A letter that no whole number follows is not taken. -/
def power : List Char → Int × List Char
  | 'e' :: cs => (power? cs).getD (0, 'e' :: cs)
  | 'E' :: cs => (power? cs).getD (0, 'E' :: cs)
  | cs => (0, cs)

/-- The longest numeral at the front, and what follows it. -/
def scan (cs : List Char) : Option (Decimal × List Char) :=
  let (minus, rest) := sign cs
  match significand? rest with
  | none => none
  | some (digits, places, rest) =>
    let (exponent, rest) := power rest
    some (⟨minus, digits, exponent - places⟩, rest)

/-- The numeral that a list of characters is, from its first to its last. -/
def ofChars? (cs : List Char) : Option Decimal :=
  match scan cs with
  | some (d, []) => some d
  | _ => none

/-- The numeral that a text is, from its first character to its last. -/
def ofText? (text : String) : Option Decimal :=
  ofChars? text.toList

/-- How many characters a sign at the front takes. -/
def signLength : List Char → Nat
  | '-' :: _ => 1
  | '+' :: _ => 1
  | _ => 0

/-- How many digits stand at the front. -/
def digitCount (cs : List Char) : Nat :=
  (cs.takeWhile Char.isDigit).length

/-- How many characters the digits at the front take, with a point among them; none if there is no
digit. -/
def significandLength (cs : List Char) : Nat :=
  let whole := digitCount cs
  match cs.drop whole with
  | '.' :: rest =>
    let fraction := digitCount rest
    if whole + fraction = 0 then 0 else whole + 1 + fraction
  | _ => whole

/-- How many characters a power of ten at the front takes; none if no whole number follows its
letter. -/
def powerLength : List Char → Nat
  | [] => 0
  | letter :: cs =>
    if letter = 'e' || letter = 'E' then
      let count := digitCount (cs.drop (signLength cs))
      if count = 0 then 0 else 1 + signLength cs + count
    else 0

/-- How many characters the longest numeral at the front takes; none if there is no numeral. -/
def numeralLength (cs : List Char) : Nat :=
  let start := signLength cs
  let body := significandLength (cs.drop start)
  if body = 0 then 0 else start + body + powerLength (cs.drop (start + body))

/-! ### What is left is shorter -/

theorem length_spanDigits (cs : List Char) :
    (spanDigits cs).1.length + (spanDigits cs).2.length = cs.length := by
  rw [spanDigits, ← List.length_append, List.takeWhile_append_dropWhile]

theorem length_sign_le (cs : List Char) : (sign cs).2.length ≤ cs.length := by
  unfold sign
  split <;> simp

theorem length_pos_of_not_isEmpty {cs : List Char} (h : ¬ cs.isEmpty = true) : 0 < cs.length := by
  rw [List.isEmpty_iff] at h
  exact List.length_pos_iff.2 h

theorem length_of_significand? {cs rest : List Char} {n k : Nat}
    (h : significand? cs = some (n, k, rest)) : rest.length < cs.length := by
  have whole := length_spanDigits cs
  simp only [significand?] at h
  split at h
  · rename_i after eq
    have part := length_spanDigits after
    rw [eq, List.length_cons] at whole
    simp only [Option.ite_none_left_eq_some, Option.some.injEq, Prod.mk.injEq] at h
    obtain ⟨_, _, _, rfl⟩ := h
    omega
  · simp only [Option.ite_none_left_eq_some, Option.some.injEq, Prod.mk.injEq] at h
    obtain ⟨nonempty, _, _, rfl⟩ := h
    have := length_pos_of_not_isEmpty nonempty
    omega

theorem length_of_power? {cs rest : List Char} {n : Int} (h : power? cs = some (n, rest)) :
    rest.length < cs.length := by
  have start := length_sign_le cs
  have digits := length_spanDigits (sign cs).2
  simp only [power?, Option.ite_none_left_eq_some, Option.some.injEq, Prod.mk.injEq] at h
  obtain ⟨nonempty, _, rfl⟩ := h
  have := length_pos_of_not_isEmpty nonempty
  omega

/-- No characters are no numeral. -/
theorem ofChars?_nil : ofChars? [] = none := rfl

end Decimal

end Toolpath
