import Toolpath.Proofs.Decimal.Grammar
import Toolpath.Proofs.Pattern.Numerals

/-!
# What a line of a pattern says

`Says` tells what a line says: nothing, if it is blank, the end of a program, a motion, or that it
is an issue. It goes by the forms of lines alone. The form of a motion that a reader looks for is
looser than its numbers: digits of all scripts and any number of points have it, and only plain
numerals are numbers. So form and numbers are taken apart in reading and put together again in
`motion?_eq_some_iff`. A line says exactly one thing, the one it is read as (`ofLine_eq_iff`).
-/

namespace Toolpath.Pattern

open Text (isBlank isDecimalDigit isDecimalDigit_of_isDigit)
open Decimal (Digits Significand Sign Power Spells digitsFrom)

/-! ### The form of a line -/

/-- Decimal digits of any script, at least one. -/
def IsLineNumber (cs : List Char) : Prop := cs ≠ [] ∧ ∀ c ∈ cs, isDecimalDigit c = true

/-- A coordinate: plain digits with at most one point among them, perhaps behind a minus. -/
inductive Coordinate : List Char → Decimal → Prop
  | unsigned {body : List Char} {number places : ℕ} :
    Significand body number places →
    Coordinate body ⟨false, number, -places⟩
  | negative {body : List Char} {number places : ℕ} :
    Significand body number places →
    Coordinate ('-' :: body) ⟨true, number, -places⟩

/-- The end of a program. -/
inductive IsEnd : List Char → Prop
  | form {number : List Char} :
    IsLineNumber number →
    IsEnd ('N' :: (number ++ ['M', '0', '2']))

/-- A motion with its code, which may have leading zeros, and its coordinates. -/
inductive IsMotion : List Char → ℕ → Decimal → Decimal → Prop
  | form {number code xs ys : List Char} {x y : Decimal} :
    IsLineNumber number → code ≠ [] → Digits code → Coordinate xs x → Coordinate ys y →
    IsMotion ('N' :: (number ++ 'G' :: (code ++ 'X' :: (xs ++ 'Y' :: ys)))) (digitsFrom 0 code) x y

/-- What a line says. Codes beyond thirty-two bits are none. -/
inductive Says {α : Type} [Scalar α] (line : ℕ) (cs : List Char) : Entry α → Prop
  | blank :
    (∀ c ∈ cs, isBlank c = true) →
    Says line cs .nothing
  | endOfProgram :
    IsEnd cs →
    Says line cs .endOfProgram
  | move {x y : Decimal} :
    IsMotion cs 0 x y →
    Says line cs (.step (.move (pointOf x y)))
  | line {x y : Decimal} :
    IsMotion cs 1 x y →
    Says line cs (.step (.line (pointOf x y)))
  | unknownMotion {code : ℕ} {x y : Decimal} :
    IsMotion cs code x y → 1 < code → code < 2 ^ 32 →
    Says line cs (.issue (.unknownMotion line code))
  | unrecognized :
    ¬(∀ c ∈ cs, isBlank c = true) → ¬IsEnd cs →
    (∀ code x y, IsMotion cs code x y → 2 ^ 32 ≤ code) →
    Says line cs (.issue (.unrecognizedLine line (String.ofList cs)))

variable {cs rest front : List Char} {p : Char → Bool} {code : ℕ} {x y d : Decimal}

/-! ### What is taken -/

lemma expect_eq_some_iff {k : Char} : expect k cs = some rest ↔ cs = k :: rest := by
  cases cs with
  | nil => simp [expect]
  | cons c cs =>
    simp only [expect, Option.ite_none_right_eq_some, Option.some.injEq, List.cons.injEq]

lemma takeSome_eq_some (taken : takeSome p cs = some (front, rest)) :
    cs = front ++ rest ∧ front ≠ [] ∧ ∀ c ∈ front, p c = true := by
  simp only [takeSome, Option.ite_none_left_eq_some, Option.some.injEq, Prod.mk.injEq] at taken
  obtain ⟨some, rfl, rfl⟩ := taken
  exact ⟨List.takeWhile_append_dropWhile.symm, by simpa using some,
    fun c mem => List.mem_takeWhile_imp mem⟩

lemma takeLineNumber_eq_some (taken : takeLineNumber cs = some rest) :
    ∃ number, IsLineNumber number ∧ cs = 'N' :: (number ++ rest) := by
  simp only [takeLineNumber, Option.bind_eq_bind, Option.bind_eq_some_iff, expect_eq_some_iff,
    Prod.exists, Option.pure_def, Option.some.injEq] at taken
  obtain ⟨behind, rfl, number, left, found, rfl⟩ := taken
  obtain ⟨rfl, isNumber⟩ := takeSome_eq_some found
  exact ⟨number, isNumber, rfl⟩

lemma IsLineNumber.takeLineNumber {number : List Char} (isNumber : IsLineNumber number)
    (rest : List Char) (left : ∀ c ∈ rest.head?, isDecimalDigit c = false) :
    takeLineNumber ('N' :: (number ++ rest)) = some rest := by
  simp [Pattern.takeLineNumber, expect, takeSome_append isNumber.1 isNumber.2 left]

/-- The characters of a number are digits of any script and points, perhaps behind a minus. -/
lemma takeNumber_eq_some (taken : takeNumber cs = some (front, rest)) :
    cs = front ++ rest ∧ ∃ body, (front = body ∨ front = '-' :: body) ∧
      ∀ c ∈ body, inNumber c = true := by
  unfold takeNumber at taken
  split at taken
  next behind =>
    obtain ⟨⟨body, left⟩, found, made⟩ := Option.map_eq_some_iff.1 taken
    obtain ⟨rfl, rfl⟩ := Prod.mk.inj made
    obtain ⟨rfl, _, within⟩ := takeSome_eq_some found
    exact ⟨rfl, body, .inr rfl, within⟩
  next =>
    obtain ⟨rfl, _, within⟩ := takeSome_eq_some taken
    exact ⟨rfl, front, .inl rfl, within⟩

/-- A code is plain digits that thirty-two bits hold. -/
lemma codeOf_eq_some_iff :
    codeOf cs = some code ↔ Digits cs ∧ digitsFrom 0 cs = code ∧ code < 2 ^ 32 := by
  simp only [codeOf, Option.ite_none_right_eq_some, Option.some.injEq, List.all_eq_true, Digits]
  constructor
  · rintro ⟨digits, small, rfl⟩
    exact ⟨digits, rfl, small⟩
  · rintro ⟨digits, rfl, small⟩
    exact ⟨digits, small, rfl⟩

/-! ### Coordinates -/

lemma inNumber_of_digits {digits : List Char} (isDigits : Digits digits) :
    ∀ c ∈ digits, inNumber c = true := fun c mem => by
  rw [inNumber, isDecimalDigit_of_isDigit (isDigits c mem), Bool.true_or]

lemma inNumber_of_significand {body : List Char} {number places : ℕ}
    (significand : Significand body number places) : ∀ c ∈ body, inNumber c = true := by
  cases significand with
  | whole _ digits => exact inNumber_of_digits digits
  | point _ before behind =>
    refine List.forall_mem_append.2 ⟨inNumber_of_digits before, ?_⟩
    exact List.forall_mem_cons.2 ⟨by decide, inNumber_of_digits behind⟩

/-- No power of ten stands among digits and points. -/
lemma power_eq_nil {tail : List Char} {exponent : ℤ} (power : Power tail exponent)
    (within : ∀ c ∈ tail, inNumber c = true) : tail = [] ∧ exponent = 0 := by
  cases power with
  | absent => exact ⟨rfl, rfl⟩
  | @present letter _ _ _ known =>
    have out : inNumber letter = false := by rcases known with rfl | rfl <;> decide
    rw [within letter List.mem_cons_self] at out
    cases out

/-- Digits and points, perhaps behind a minus, are a coordinate if they are a numeral. -/
lemma coordinate_of_spells {body : List Char} (within : ∀ c ∈ body, inNumber c = true)
    (shape : front = body ∨ front = '-' :: body) (spells : Spells front d) :
    Coordinate front d := by
  obtain @⟨sign, middle, tail, minus, number, places, exponent, isSign, significand, power⟩ :=
    spells
  -- A sign is no digit and no point, so the body begins right behind it.
  have unsigned := significand.unsigned tail
  have noSign {c : Char} (out : inNumber c = false) (mem : c ∈ body) : False := by
    rw [within c mem] at out
    cases out
  cases isSign with
  | absent =>
    rcases shape with rfl | behind
    · obtain ⟨rfl, rfl⟩ := power_eq_nil power fun c mem =>
        within c (List.mem_append_right middle mem)
      simpa using Coordinate.unsigned significand
    · rw [List.nil_append] at behind
      exact absurd rfl (unsigned '-' (by rw [behind]; rfl)).1
  | plus =>
    rcases shape with rfl | behind
    · exact (noSign (by decide : inNumber '+' = false) List.mem_cons_self).elim
    · cases List.head_eq_of_cons_eq behind
  | minus =>
    rcases shape with rfl | behind
    · exact (noSign (by decide : inNumber '-' = false) List.mem_cons_self).elim
    · obtain rfl := List.tail_eq_of_cons_eq behind
      obtain ⟨rfl, rfl⟩ := power_eq_nil power fun c mem =>
        within c (List.mem_append_right middle mem)
      simpa using Coordinate.negative significand

lemma Coordinate.spells (coordinate : Coordinate cs d) : Spells cs d := by
  cases coordinate with
  | unsigned significand => simpa using Spells.parts .absent significand .absent
  | negative significand => simpa using Spells.parts .minus significand .absent

lemma Coordinate.takeNumber (coordinate : Coordinate cs d) (rest : List Char)
    (left : ∀ c ∈ rest.head?, inNumber c = false) :
    takeNumber (cs ++ rest) = some (cs, rest) := by
  cases coordinate with
  | unsigned significand =>
    have unsigned := significand.unsigned rest
    have taken := takeSome_append significand.ne_nil (inNumber_of_significand significand) left
    unfold Pattern.takeNumber
    split
    next behind =>
      exact absurd rfl (unsigned '-' (by rw [behind]; rfl)).1
    next => exact taken
  | @negative body number places significand =>
    have taken := takeSome_append significand.ne_nil (inNumber_of_significand significand) left
    change (takeSome inNumber (body ++ rest)).map _ = _
    rw [taken]
    rfl

lemma Coordinate.takeNumber_nil (coordinate : Coordinate cs d) :
    Pattern.takeNumber cs = some (cs, []) := by
  have taken := coordinate.takeNumber [] (by simp)
  rwa [List.append_nil] at taken

/-- Taking and then reading a number finds a coordinate. -/
lemma coordinate_of_takeNumber (taken : takeNumber cs = some (front, rest))
    (read : Decimal.ofChars? front = some d) : cs = front ++ rest ∧ Coordinate front d := by
  obtain ⟨whole, body, shape, within⟩ := takeNumber_eq_some taken
  exact ⟨whole, coordinate_of_spells within shape (Decimal.ofChars?_eq_some_iff.1 read)⟩

/-! ### Motions -/

/-- What is read as a motion is exactly what has its form, with a code that thirty-two bits hold. -/
lemma motion?_eq_some_iff :
    motion? cs = some (code, x, y) ↔ IsMotion cs code x y ∧ code < 2 ^ 32 := by
  constructor
  · intro read
    simp only [motion?, Option.bind_eq_bind, Option.bind_eq_some_iff, expect_eq_some_iff,
      Prod.exists, Option.pure_def, Option.some.injEq, Prod.mk.injEq, codeOf_eq_some_iff] at read
    obtain ⟨_, numbered, _, rfl, digits, _, coded, _, rfl, xs, _, takenX, _, rfl, ys, left, takenY,
      _, empty, n, ⟨plain, rfl, small⟩, _, readX, _, readY, rfl, rfl, rfl⟩ := read
    obtain ⟨number, isNumber, rfl⟩ := takeLineNumber_eq_some numbered
    obtain ⟨rfl, some, _⟩ := takeSome_eq_some coded
    obtain ⟨rfl, atX⟩ := coordinate_of_takeNumber takenX readX
    obtain ⟨rfl, atY⟩ := coordinate_of_takeNumber takenY readY
    obtain rfl : left = [] := by simpa [guard] using empty
    rw [List.append_nil]
    exact ⟨.form isNumber some plain atX atY, small⟩
  · rintro ⟨@⟨number, digits, xs, ys, x, y, isNumber, some, plain, atX, atY⟩, small⟩
    have numbered := isNumber.takeLineNumber ('G' :: (digits ++ 'X' :: (xs ++ 'Y' :: ys)))
      (by simp [show isDecimalDigit 'G' = false by decide])
    have coded : takeSome isDecimalDigit (digits ++ 'X' :: (xs ++ 'Y' :: ys)) =
        .some (digits, 'X' :: (xs ++ 'Y' :: ys)) :=
      takeSome_append some (fun c mem => isDecimalDigit_of_isDigit (plain c mem))
        (by simp [show isDecimalDigit 'X' = false by decide])
    have takenX := atX.takeNumber ('Y' :: ys)
      (by simp [show inNumber 'Y' = false by decide])
    have code := codeOf_eq_some_iff.2 ⟨plain, rfl, small⟩
    have readX := Decimal.ofChars?_eq_some_iff.2 atX.spells
    have readY := Decimal.ofChars?_eq_some_iff.2 atY.spells
    simp [motion?, numbered, expect, coded, takenX, atY.takeNumber_nil, code, readX, readY, guard]

/-! ### Lines -/

lemma isEndOfProgram_iff : isEndOfProgram cs = true ↔ IsEnd cs := by
  rw [isEndOfProgram, decide_eq_true_iff]
  constructor
  · intro taken
    obtain ⟨number, isNumber, rfl⟩ := takeLineNumber_eq_some taken
    exact .form isNumber
  · rintro ⟨isNumber⟩
    exact isNumber.takeLineNumber _ (by simp [show isDecimalDigit 'M' = false by decide])

lemma IsEnd.not_blank (ends : IsEnd cs) : ¬∀ c ∈ cs, isBlank c = true := by
  cases ends
  intro blank
  exact absurd (blank 'N' List.mem_cons_self) (by decide)

lemma IsMotion.not_blank (motion : IsMotion cs code x y) : ¬∀ c ∈ cs, isBlank c = true := by
  cases motion
  intro blank
  exact absurd (blank 'N' List.mem_cons_self) (by decide)

/-- A motion ends no program: another letter stands behind its line number. -/
lemma IsMotion.not_isEnd (motion : IsMotion cs code x y) : ¬IsEnd cs := by
  intro ends
  have taken := isEndOfProgram_iff.2 ends
  obtain ⟨isNumber⟩ := motion
  rw [isEndOfProgram, isNumber.takeLineNumber] at taken
  · simp at taken
  · simp [show isDecimalDigit 'G' = false by decide]

variable {α : Type} [Scalar α] {line : ℕ} {e : Entry α}

/-- A line that is read says what it is read as. -/
lemma Says.of_ofLine (line : ℕ) (cs : List Char) :
    Says line cs (Entry.ofLine line cs : Entry α) := by
  unfold Entry.ofLine
  split
  case isTrue blank => exact .blank (List.all_eq_true.1 blank)
  case isFalse written =>
    split
    case isTrue ends => exact .endOfProgram (isEndOfProgram_iff.1 ends)
    case isFalse goesOn =>
      rw [isEndOfProgram_iff] at goesOn
      rw [List.all_eq_true] at written
      split
      next x y read => exact .move (motion?_eq_some_iff.1 read).1
      next x y read => exact .line (motion?_eq_some_iff.1 read).1
      next code x y notMove notLine read =>
        obtain ⟨motion, small⟩ := motion?_eq_some_iff.1 read
        have : code ≠ 0 := notMove
        have : code ≠ 1 := notLine
        exact .unknownMotion motion (by omega) small
      next unread =>
        refine .unrecognized written goesOn fun code x y motion => ?_
        by_contra small
        rw [motion?_eq_some_iff.2 ⟨motion, not_le.1 small⟩] at unread
        cases unread

/-- A line that is neither blank nor an end is read as a motion, or not at all. -/
lemma ofLine_of_not (line : ℕ) (written : ¬∀ c ∈ cs, isBlank c = true) (goesOn : ¬IsEnd cs) :
    (Entry.ofLine line cs : Entry α) = match motion? cs with
      | some (0, x, y) => .step (.move (pointOf x y))
      | some (1, x, y) => .step (.line (pointOf x y))
      | some (code, _, _) => .issue (.unknownMotion line code)
      | none => .issue (.unrecognizedLine line (String.ofList cs)) := by
  unfold Entry.ofLine
  exact (if_neg (mt List.all_eq_true.1 written)).trans (if_neg (mt isEndOfProgram_iff.1 goesOn))

lemma IsMotion.ofLine (motion : IsMotion cs code x y) (small : code < 2 ^ 32) (line : ℕ) :
    (Entry.ofLine line cs : Entry α) = match code with
      | 0 => .step (.move (pointOf x y))
      | 1 => .step (.line (pointOf x y))
      | code => .issue (.unknownMotion line code) := by
  rw [ofLine_of_not line motion.not_blank motion.not_isEnd,
    motion?_eq_some_iff.2 ⟨motion, small⟩]
  rcases code with _ | _ | code <;> rfl

/-- What a line says is what it is read as. -/
lemma Says.ofLine_eq (told : Says line cs e) : Entry.ofLine line cs = e := by
  cases told with
  | blank blank => rw [Entry.ofLine, if_pos (List.all_eq_true.2 blank)]
  | endOfProgram ends =>
    rw [Entry.ofLine, if_neg (mt List.all_eq_true.1 ends.not_blank),
      if_pos (isEndOfProgram_iff.2 ends)]
  | move motion => exact motion.ofLine (by norm_num) line
  | line motion => exact motion.ofLine (by norm_num) line
  | @unknownMotion code x y motion large small =>
    obtain ⟨code, rfl⟩ : ∃ n, code = n + 2 := ⟨code - 2, by omega⟩
    exact motion.ofLine small line
  | unrecognized written goesOn large =>
    have unread : motion? cs = none := by
      by_contra read
      obtain ⟨⟨code, x, y⟩, read⟩ := Option.ne_none_iff_exists'.1 read
      obtain ⟨motion, small⟩ := motion?_eq_some_iff.1 read
      exact absurd (large code x y motion) (not_le.2 small)
    rw [ofLine_of_not line written goesOn, unread]

/-- A line says exactly one thing: what it is read as. -/
lemma ofLine_eq_iff : Entry.ofLine line cs = e ↔ Says line cs e := by
  constructor
  · rintro rfl
    exact .of_ofLine line cs
  · exact Says.ofLine_eq

end Toolpath.Pattern
