import Toolpath.Proofs.Decimal.Longest
import Toolpath.Proofs.Decimal.Plain
import Toolpath.Proofs.Transform.Joined

/-!
# The grammar of numerals

A numeral is an optional sign, then digits with at most one point among them, then perhaps a power
of ten: `[+-]?(\d*\.\d+|\d+\.?\d*)([eE][+-]?\d+)?`. `Spells` says which characters are a numeral and
what it stands for, without a reader. What is read as a numeral is exactly what spells one
(`ofChars?_eq_some_iff`), and the numeral that is counted at the front of a text is the longest that
stands there (`Spells.length_le`, `exists_longest`).
-/

namespace Toolpath.Decimal

open Pattern (spanDigits_append)

/-- Plain digits; there may be none. -/
def Digits (cs : List Char) : Prop := ∀ c ∈ cs, c.isDigit = true

/-- `[+-]?`, and is it a minus? -/
inductive Sign : List Char → Bool → Prop
  | absent : Sign [] false
  | plus : Sign ['+'] false
  | minus : Sign ['-'] true

/-- `\d*\.\d+|\d+\.?\d*`: digits with at most one point among them, and at least one digit in all.
They spell a number, and some of them stand behind the point. -/
inductive Significand : List Char → ℕ → ℕ → Prop
  | whole {digits : List Char} :
    digits ≠ [] → Digits digits →
    Significand digits (digitsFrom 0 digits) 0
  | point {before behind : List Char} :
    before ++ behind ≠ [] → Digits before → Digits behind →
    Significand (before ++ '.' :: behind) (digitsFrom 0 (before ++ behind)) behind.length

/-- `([eE][+-]?\d+)?`, and the exponent. -/
inductive Power : List Char → ℤ → Prop
  | absent : Power [] 0
  | present {letter : Char} {sign digits : List Char} {minus : Bool} :
    letter = 'e' ∨ letter = 'E' → Sign sign minus → digits ≠ [] → Digits digits →
    Power (letter :: (sign ++ digits))
      (if minus then -(digitsFrom 0 digits : ℤ) else digitsFrom 0 digits)

/-- Characters that are a numeral, and what it stands for. -/
inductive Spells : List Char → Decimal → Prop
  | parts {sign body tail : List Char} {minus : Bool} {number places : ℕ} {exponent : ℤ} :
    Sign sign minus → Significand body number places → Power tail exponent →
    Spells (sign ++ (body ++ tail)) ⟨minus, number, exponent - places⟩

variable {cs rest body tail : List Char} {minus : Bool} {number places : ℕ} {exponent : ℤ}
  {d : Decimal}

/-! ### What is read is spelled -/

lemma digits_takeWhile (cs : List Char) : Digits (cs.takeWhile Char.isDigit) :=
  fun _ mem => List.mem_takeWhile_imp mem

lemma spanDigits_append_self (cs : List Char) : (spanDigits cs).1 ++ (spanDigits cs).2 = cs :=
  List.takeWhile_append_dropWhile

lemma exists_sign (cs : List Char) : ∃ s, s ++ (sign cs).2 = cs ∧ Sign s (sign cs).1 := by
  unfold sign
  split
  next => exact ⟨['-'], rfl, .minus⟩
  next => exact ⟨['+'], rfl, .plus⟩
  next => exact ⟨[], rfl, .absent⟩

lemma exists_significand (read : significand? cs = some (number, places, rest)) :
    ∃ body, body ++ rest = cs ∧ Significand body number places := by
  have whole := spanDigits_append_self cs
  by_cases point : (spanDigits cs).2.head? = some '.'
  case pos =>
    obtain ⟨behind, ahead⟩ := List.head?_eq_some_iff.1 point
    have fraction := spanDigits_append_self behind
    simp only [significand?, ahead, Option.ite_none_left_eq_some, Option.some.injEq,
      Prod.mk.injEq] at read
    obtain ⟨some, rfl, rfl, rfl⟩ := read
    refine ⟨(spanDigits cs).1 ++ '.' :: (spanDigits behind).1, ?_, ?_⟩
    · rw [List.append_assoc, List.cons_append, fraction, ← ahead, whole]
    · rw [← digitsFrom_append]
      refine .point ?_ (digits_takeWhile cs) (digits_takeWhile behind)
      simpa using some
  case neg =>
    rw [significand?_of_noPoint point, Option.ite_none_left_eq_some, Option.some.injEq,
      Prod.mk.injEq, Prod.mk.injEq] at read
    obtain ⟨some, rfl, rfl, rfl⟩ := read
    exact ⟨(spanDigits cs).1, whole, .whole (by simpa using some) (digits_takeWhile cs)⟩

lemma exists_power (cs : List Char) :
    ∃ tail, tail ++ (power cs).2 = cs ∧ Power tail (power cs).1 := by
  have present (letter : Char) (cs : List Char) (known : letter = 'e' ∨ letter = 'E') :
      ∃ tail, tail ++ ((power? cs).getD (0, letter :: cs)).2 = letter :: cs ∧
        Power tail ((power? cs).getD (0, letter :: cs)).1 := by
    obtain ⟨s, signed, isSign⟩ := exists_sign cs
    have digits := spanDigits_append_self (sign cs).2
    simp only [power?]
    split
    case isTrue => exact ⟨[], rfl, .absent⟩
    case isFalse some =>
      refine ⟨letter :: (s ++ (spanDigits (sign cs).2).1), ?_,
        .present known isSign (by simpa using some) (digits_takeWhile _)⟩
      simp [digits, signed]
  unfold power
  split
  next => exact present _ _ (.inl rfl)
  next => exact present _ _ (.inr rfl)
  next => exact ⟨[], rfl, .absent⟩

lemma exists_spells (read : scan cs = some (d, rest)) :
    ∃ front, front ++ rest = cs ∧ Spells front d := by
  obtain ⟨s, signed, isSign⟩ := exists_sign cs
  simp only [scan] at read
  split at read
  case h_1 => cases read
  case h_2 number places behind found =>
    obtain ⟨body, significand, isSignificand⟩ := exists_significand found
    obtain ⟨tail, powered, isPower⟩ := exists_power behind
    obtain ⟨rfl, rfl⟩ := Prod.mk.inj (Option.some.inj read)
    refine ⟨s ++ (body ++ tail), ?_, .parts isSign isSignificand isPower⟩
    rw [List.append_assoc, List.append_assoc, powered, significand, signed]

/-! ### What is spelled is read -/

/-- What stands behind a significand does not go on with it. -/
def EndsDigits (rest : List Char) : Prop := ∀ c ∈ rest.head?, c.isDigit = false ∧ c ≠ '.'

lemma Power.endsDigits (power : Power tail exponent) : EndsDigits tail := by
  cases power with
  | absent => simp [EndsDigits]
  | present known => rcases known with rfl | rfl <;> simp [EndsDigits]

lemma sign_of_head? (unsigned : ∀ c ∈ cs.head?, c ≠ '-' ∧ c ≠ '+') :
    sign cs = (false, cs) ∧ signLength cs = 0 := by
  unfold sign signLength
  split
  next => exact absurd rfl (unsigned '-' rfl).1
  next => exact absurd rfl (unsigned '+' rfl).2
  next => exact ⟨rfl, rfl⟩

lemma Sign.read {s : List Char} (isSign : Sign s minus)
    (unsigned : ∀ c ∈ rest.head?, c ≠ '-' ∧ c ≠ '+') :
    sign (s ++ rest) = (minus, rest) ∧ signLength (s ++ rest) = s.length := by
  cases isSign with
  | absent => exact sign_of_head? unsigned
  | plus => exact ⟨rfl, rfl⟩
  | minus => exact ⟨rfl, rfl⟩

lemma Digits.unsigned {digits : List Char} (isDigits : Digits digits) (some : digits ≠ [])
    (rest : List Char) : ∀ c ∈ (digits ++ rest).head?, c ≠ '-' ∧ c ≠ '+' := by
  obtain ⟨c, digits, rfl⟩ := List.exists_cons_of_ne_nil some
  rintro _ ⟨⟩
  have digit := isDigits c List.mem_cons_self
  constructor <;> rintro rfl <;> exact absurd digit (by decide)

lemma Significand.ne_nil (significand : Significand body number places) : body ≠ [] := by
  cases significand with
  | whole some => exact some
  | point => simp

/-- A significand begins with a digit or a point. -/
lemma Significand.unsigned (significand : Significand body number places) (rest : List Char) :
    ∀ c ∈ (body ++ rest).head?, c ≠ '-' ∧ c ≠ '+' := by
  cases significand with
  | whole some digits => exact digits.unsigned some rest
  | @point before behind some digits _ =>
    by_cases none : before = []
    case pos =>
      subst none
      rintro _ ⟨⟩
      decide
    case neg =>
      rw [List.append_assoc]
      exact digits.unsigned none _

lemma Significand.read (significand : Significand body number places) (ends : EndsDigits rest) :
    significand? (body ++ rest) = some (number, places, rest) := by
  cases significand with
  | whole some digits =>
    have span := spanDigits_append digits rest fun c mem => (ends c mem).1
    have noPoint : (spanDigits (body ++ rest)).2.head? ≠ Option.some '.' := by
      rw [span]
      exact fun point => (ends '.' point).2 rfl
    rw [significand?_of_noPoint noPoint, span, if_neg (by simpa using some)]
  | @point before behind some digits more =>
    have first := spanDigits_append digits ('.' :: (behind ++ rest)) (by simp)
    have second := spanDigits_append more rest fun c mem => (ends c mem).1
    rw [List.append_assoc, List.cons_append]
    simp only [significand?, first, second]
    rw [if_neg (by simpa using some), digitsFrom_append]

lemma Power.read (power : Power tail exponent) : Decimal.power tail = (exponent, []) := by
  cases power with
  | absent => rfl
  | @present letter sign digits minus known isSign some isDigits =>
    have signed := (isSign.read (isDigits.unsigned some [])).1
    have span := spanDigits_append isDigits [] (by simp)
    rw [List.append_nil] at signed span
    have number : power? (sign ++ digits) = Option.some
        (if minus then -(digitsFrom 0 digits : ℤ) else digitsFrom 0 digits, []) := by
      simp only [power?, signed, span]
      rw [if_neg (by simpa using some)]
    rcases known with rfl | rfl <;> simp only [Decimal.power, number, Option.getD_some]

/-- What is read as a numeral is exactly what spells it. -/
lemma ofChars?_eq_some_iff : ofChars? cs = some d ↔ Spells cs d := by
  constructor
  · intro read
    unfold ofChars? at read
    split at read
    case h_1 d' found =>
      obtain rfl := Option.some.inj read
      obtain ⟨front, rfl, spells⟩ := exists_spells found
      rwa [List.append_nil]
    case h_2 => cases read
  · rintro @⟨s, body, tail, minus, number, places, exponent, isSign, significand, power⟩
    have signed := (isSign.read (significand.unsigned tail)).1
    have digits := significand.read power.endsDigits
    simp only [ofChars?, scan, signed, digits, power.read]

/-! ### The longest numeral -/

lemma digitCount_append_le {digits : List Char} (isDigits : Digits digits) (rest : List Char) :
    digits.length ≤ digitCount (digits ++ rest) := by
  rw [digitCount, List.takeWhile_append_of_pos isDigits, List.length_append]
  exact Nat.le_add_right _ _

lemma significandLength_point {before behind : List Char} (some : before ++ behind ≠ [])
    (digits : Digits before) (more : Digits behind) (rest : List Char) :
    significandLength (before ++ '.' :: behind ++ rest) =
      before.length + 1 + digitCount (behind ++ rest) := by
  have first : digitCount (before ++ '.' :: (behind ++ rest)) = before.length :=
    digitCount_append digits (by simp)
  have point : (before ++ '.' :: (behind ++ rest)).drop
      (digitCount (before ++ '.' :: (behind ++ rest))) = '.' :: (behind ++ rest) := by
    rw [first, List.drop_left]
  have second := digitCount_append_le more rest
  have positive := List.length_pos_iff.2 some
  rw [List.length_append] at positive
  rw [List.append_assoc, List.cons_append, significandLength_of_point point, first,
    if_neg (by omega)]

/-- A significand is counted to its end at least. -/
lemma Significand.length_le (significand : Significand body number places) (rest : List Char) :
    body.length ≤ significandLength (body ++ rest) := by
  cases significand with
  | whole _ digits =>
    exact (digitCount_append_le digits rest).trans (digitCount_le_significandLength _)
  | @point before behind some digits more =>
    have further := digitCount_append_le more rest
    rw [significandLength_point some digits more, List.length_append, List.length_cons]
    omega

lemma Significand.length_eq (significand : Significand body number places)
    (ends : EndsDigits rest) : significandLength (body ++ rest) = body.length := by
  have stop : ∀ c ∈ rest.head?, c.isDigit = false := fun c mem => (ends c mem).1
  cases significand with
  | whole _ digits =>
    have count : digitCount (body ++ rest) = body.length := digitCount_append digits stop
    rw [significandLength_of_noPoint, count]
    rw [count, List.drop_left]
    exact fun point => (ends '.' point).2 rfl
  | @point before behind some digits more =>
    rw [significandLength_point some digits more, digitCount_append more stop,
      List.length_append, List.length_cons]
    omega

lemma Power.length_le (power : Power tail exponent) (rest : List Char) :
    tail.length ≤ powerLength (tail ++ rest) := by
  cases power with
  | absent => exact Nat.zero_le _
  | @present letter sign digits minus known isSign some isDigits =>
    have signed := (isSign.read (isDigits.unsigned some rest)).2
    have count := digitCount_append_le isDigits rest
    have positive := List.length_pos_iff.2 some
    have isLetter : (letter = 'e' || letter = 'E') = true := by simpa using known
    rw [List.cons_append, List.append_assoc, powerLength, if_pos isLetter]
    simp only [signed, List.drop_left]
    rw [if_neg (by omega), List.length_cons, List.length_append]
    omega

/-- The longest numeral behind a sign has the longest significand there is. -/
lemma Sign.numeralLength {s : List Char} (isSign : Sign s minus)
    (unsigned : ∀ c ∈ rest.head?, c ≠ '-' ∧ c ≠ '+') (some : significandLength rest ≠ 0) :
    numeralLength (s ++ rest) =
      s.length + significandLength rest + powerLength (rest.drop (significandLength rest)) := by
  have signed := (isSign.read unsigned).2
  simp only [Decimal.numeralLength, signed, List.drop_left]
  rw [if_neg some, ← List.drop_drop, List.drop_left]

/-- No numeral at the front of a text is longer than the one that is counted. -/
lemma Spells.length_le {front : List Char} (spells : Spells front d) (rest : List Char) :
    front.length ≤ numeralLength (front ++ rest) := by
  obtain @⟨s, body, tail, minus, number, places, exponent, isSign, significand, power⟩ := spells
  have atLeast := significand.length_le (tail ++ rest)
  have positive := List.length_pos_iff.2 significand.ne_nil
  rw [List.append_assoc, List.append_assoc,
    isSign.numeralLength (significand.unsigned _) (by omega), List.length_append,
    List.length_append]
  cases tail with
  | nil =>
    rw [List.length_nil]
    omega
  | cons letter tail =>
    have ends : EndsDigits (letter :: tail ++ rest) := power.endsDigits
    have further := power.length_le rest
    rw [significand.length_eq ends, List.drop_left]
    omega

/-- What stands at the front of a text and is a numeral, with no longer one there. -/
structure Longest (cs front : List Char) (d : Decimal) : Prop where
  stands : front <+: cs
  spells : Spells front d
  longest : ∀ other e, other <+: cs → Spells other e → other.length ≤ front.length

lemma numeralLength_of_prefix {front : List Char} (stands : front <+: cs)
    (spells : Spells front d) : front.length ≤ numeralLength cs := by
  obtain ⟨rest, rfl⟩ := stands
  exact spells.length_le rest

lemma Spells.length_pos (spells : Spells cs d) : 0 < cs.length := by
  obtain ⟨isSign, significand, power⟩ := spells
  have positive := List.length_pos_iff.2 significand.ne_nil
  rw [List.length_append, List.length_append]
  omega

/-- The numeral that is counted is the longest one, and it is read as what it stands for. -/
lemma exists_longest (counted : numeralLength cs ≠ 0) :
    ∃ d, ofChars? (cs.take (numeralLength cs)) = some d ∧
      Longest cs (cs.take (numeralLength cs)) d := by
  obtain ⟨d, read⟩ := exists_ofChars?_take counted
  refine ⟨d, read, List.take_prefix _ _, ofChars?_eq_some_iff.1 read, ?_⟩
  intro other e stands spells
  rw [List.length_take_of_le (numeralLength_le cs)]
  exact numeralLength_of_prefix stands spells

/-! ### Characters -/

/-- May a character stand in a numeral? -/
def InNumeral (c : Char) : Prop := c.isDigit = true ∨ c ∈ ['+', '-', '.', 'e', 'E']

lemma Sign.inNumeral {s : List Char} (isSign : Sign s minus) : ∀ c ∈ s, InNumeral c := by
  cases isSign <;> simp [InNumeral]

lemma Significand.inNumeral (significand : Significand body number places) :
    ∀ c ∈ body, InNumeral c := by
  intro c mem
  cases significand with
  | whole _ digits => exact .inl (digits c mem)
  | point _ digits more =>
    rcases List.mem_append.1 mem with before | mem
    · exact .inl (digits c before)
    rcases List.mem_cons.1 mem with rfl | behind
    · exact .inr (by simp)
    · exact .inl (more c behind)

lemma Power.inNumeral (power : Power tail exponent) : ∀ c ∈ tail, InNumeral c := by
  intro c mem
  cases power with
  | absent => cases mem
  | present known isSign _ digits =>
    rcases List.mem_cons.1 mem with rfl | mem
    · exact .inr (by rcases known with rfl | rfl <;> simp)
    rcases List.mem_append.1 mem with sign | digit
    · exact isSign.inNumeral c sign
    · exact .inl (digits c digit)

lemma Spells.inNumeral (spells : Spells cs d) : ∀ c ∈ cs, InNumeral c := by
  obtain ⟨isSign, significand, power⟩ := spells
  intro c mem
  rcases List.mem_append.1 mem with sign | mem
  · exact isSign.inNumeral c sign
  rcases List.mem_append.1 mem with body | tail
  · exact significand.inNumeral c body
  · exact power.inNumeral c tail

/-- A numeral does not reach beyond a character that stands in none. -/
lemma numeralLength_append_le (front : List Char) {back : List Char}
    (ends : ∀ c ∈ back.head?, ¬ InNumeral c) : numeralLength (front ++ back) ≤ front.length := by
  by_contra beyond
  rw [not_le] at beyond
  have counted : numeralLength (front ++ back) ≠ 0 := by omega
  obtain ⟨d, _, longest⟩ := exists_longest counted
  have inside := numeralLength_le (front ++ back)
  cases back with
  | nil =>
    rw [List.append_nil] at beyond inside
    omega
  | cons c back =>
    refine ends c rfl (longest.spells.inNumeral c ?_)
    rw [List.mem_take_iff_getElem]
    exact ⟨front.length, by omega, by simp⟩

end Toolpath.Decimal
