import Toolpath.Proofs.Exact
import Toolpath.Proofs.Path.Script
import Toolpath.Proofs.Pattern.Numerals

/-!
# Plain texts of decimals

Without a power of ten a decimal is spelled by its digits, with zeros up to the point. Every reader
of numbers reads such a text back, up to where it ends, as a decimal of the same worth. So the exact
text of a number is read as that number, if it is a decimal (`Exact.legible_toReal`).
-/

namespace Toolpath

namespace Decimal

open Pattern (all_isDigit_toDigits digitsFrom_toDigits spanDigits_append)

variable (d : Decimal)

/-! ### Digits on both sides of the point -/

/-- How many digits stand behind the point. -/
def places : ℕ := (-d.exponent).toNat

/-- The numeral that is spelled when there is no power of ten. -/
def spelled : Decimal := ⟨d.negative, d.digits * 10 ^ d.exponent.toNat, -d.places⟩

lemma toReal_spelled : d.spelled.toReal = d.toReal := by
  have split : (10 : ℝ) ^ d.exponent = 10 ^ d.exponent.toNat * 10 ^ (-(d.places : ℤ)) := by
    rw [← zpow_natCast, ← zpow_add₀ (by norm_num)]
    congr 1
    rw [places]
    omega
  rw [toReal, toReal, split, spelled]
  push_cast
  ring

lemma digitsFrom_append (n : ℕ) (cs ds : List Char) :
    digitsFrom n (cs ++ ds) = digitsFrom (digitsFrom n cs) ds :=
  List.foldl_append

lemma digitsFrom_zeros (n k : ℕ) : digitsFrom n (List.replicate k '0') = n * 10 ^ k := by
  induction k generalizing n with
  | zero => simp [digitsFrom]
  | succ k ih =>
    have first : digitsFrom n (List.replicate (k + 1) '0') =
        digitsFrom (10 * n) (List.replicate k '0') := rfl
    rw [first, ih, pow_succ]
    ring

/-- The digits of a numeral with zeros up to the point, from either side. -/
def padded : List Char :=
  List.replicate (d.places + 1 - d.digitChars.length) '0' ++ d.digitChars
    ++ List.replicate d.exponent.toNat '0'

lemma places_lt_length_padded : d.places < d.padded.length := by
  simp only [padded, List.length_append, List.length_replicate]
  omega

lemma digitsFrom_padded : digitsFrom 0 d.padded = d.digits * 10 ^ d.exponent.toNat := by
  rw [padded, digitsFrom_append, digitsFrom_append, digitsFrom_zeros, digitsFrom_zeros,
    Nat.zero_mul, digitChars, digitsFrom_toDigits]

lemma all_isDigit_padded : ∀ c ∈ d.padded, c.isDigit = true := by
  intro c mem
  simp only [padded, List.mem_append, List.mem_replicate] at mem
  rcases mem with (⟨_, rfl⟩ | digit) | ⟨_, rfl⟩
  · decide
  · exact all_isDigit_toDigits _ c digit
  · decide

/-- The digits before the point. -/
def whole : List Char := d.padded.take (d.padded.length - d.places)

/-- The digits behind the point. -/
def fraction : List Char := d.padded.drop (d.padded.length - d.places)

lemma positional_eq : d.positional = (d.whole, d.fraction) :=
  rfl

lemma whole_append_fraction : d.whole ++ d.fraction = d.padded :=
  List.take_append_drop _ _

lemma length_fraction : d.fraction.length = d.places := by
  have more := d.places_lt_length_padded
  rw [fraction, List.length_drop]
  omega

lemma whole_ne_nil : d.whole ≠ [] := by
  have more := d.places_lt_length_padded
  rw [whole, Ne, List.take_eq_nil_iff, ← List.length_eq_zero_iff]
  omega

lemma all_isDigit_whole : ∀ c ∈ d.whole, c.isDigit = true :=
  fun c mem => d.all_isDigit_padded c (List.mem_of_mem_take mem)

lemma all_isDigit_fraction : ∀ c ∈ d.fraction, c.isDigit = true :=
  fun c mem => d.all_isDigit_padded c (List.mem_of_mem_drop mem)

lemma digitsFrom_whole_fraction :
    digitsFrom (digitsFrom 0 d.whole) d.fraction = d.digits * 10 ^ d.exponent.toNat := by
  rw [← digitsFrom_append, whole_append_fraction, digitsFrom_padded]

/-! ### The text -/

/-- The plain text of a numeral without its sign. -/
def plainSize : List Char :=
  d.whole ++ if d.fraction.isEmpty then [] else '.' :: d.fraction

/-- The plain text of a numeral. -/
def plainChars : List Char :=
  (if d.negative then ['-'] else []) ++ d.plainSize

lemma toList_text_plain : (d.text .plain).toList = d.plainChars := by
  have size : (d.unsignedText .plain).toList = d.plainSize := by
    have positional : Layout.plain.positional d.leading = true := rfl
    rw [unsignedText, if_pos positional, positional_eq, plainSize]
    cases d.fraction with
    | nil => simp [Layout.plain]
    | cons c cs => simp
  rw [text, plainChars, String.toList_append, size]
  cases d.negative <;> simp

/-- What stands behind a numeral does not go on with it. -/
def Ends (rest : List Char) : Prop :=
  ∀ c ∈ rest.head?, c.isDigit = false ∧ c ≠ '.' ∧ c ≠ 'e' ∧ c ≠ 'E'

lemma ends_nil : Ends [] :=
  nofun

lemma ends_cons {c : Char} (other : c.isDigit = false ∧ c ≠ '.' ∧ c ≠ 'e' ∧ c ≠ 'E')
    (rest : List Char) : Ends (c :: rest) := by
  intro d mem
  obtain rfl : c = d := by simpa using mem
  exact other

lemma exists_plainSize_eq_cons : ∃ c cs, d.plainSize = c :: cs ∧ c.isDigit = true := by
  obtain ⟨c, cs, whole⟩ := List.exists_cons_of_ne_nil d.whole_ne_nil
  refine ⟨c, cs ++ if d.fraction.isEmpty then [] else '.' :: d.fraction, ?_, ?_⟩
  · rw [plainSize, whole, List.cons_append]
  · exact d.all_isDigit_whole c (by simp [whole])

/-- A digit is no sign. -/
lemma sign_of_isDigit {c : Char} (digit : c.isDigit = true) (cs : List Char) :
    sign (c :: cs) = (false, c :: cs) ∧ signLength (c :: cs) = 0 := by
  unfold sign signLength
  split
  next equal =>
    obtain rfl := (List.cons.inj equal).1
    exact absurd digit (by decide)
  next equal =>
    obtain rfl := (List.cons.inj equal).1
    exact absurd digit (by decide)
  next => exact ⟨rfl, rfl⟩

/-- A minus stands before a negative numeral, and nothing before the others. -/
lemma sign_plainChars (rest : List Char) :
    sign (d.plainChars ++ rest) = (d.negative, d.plainSize ++ rest) ∧
      signLength (d.plainChars ++ rest) = if d.negative then 1 else 0 := by
  obtain ⟨c, cs, start, digit⟩ := d.exists_plainSize_eq_cons
  rw [plainChars]
  cases d.negative with
  | true => exact ⟨rfl, rfl⟩
  | false =>
    rw [start]
    exact sign_of_isDigit digit (cs ++ rest)

variable {rest : List Char}

lemma significand?_plainSize (ends : Ends rest) :
    significand? (d.plainSize ++ rest) =
      some (d.digits * 10 ^ d.exponent.toNat, d.places, rest) := by
  have value := d.digitsFrom_whole_fraction
  have size := d.length_fraction
  have nonempty : d.whole.isEmpty = false := by simpa using d.whole_ne_nil
  rw [plainSize]
  split
  case isTrue none =>
    rw [List.isEmpty_iff] at none
    rw [none] at value size
    rw [List.append_nil, significand?, spanDigits_append d.all_isDigit_whole rest
      fun c mem => (ends c mem).1]
    dsimp only
    split
    next => exact absurd rfl (ends '.' (by simp)).2.1
    next =>
      rw [nonempty, if_neg Bool.false_ne_true, ← value, ← size]
      rfl
  case isFalse =>
    have before := spanDigits_append d.all_isDigit_whole ('.' :: (d.fraction ++ rest)) (by simp)
    have behind := spanDigits_append d.all_isDigit_fraction rest fun c mem => (ends c mem).1
    rw [List.append_assoc, List.cons_append]
    simp only [significand?, before, behind]
    rw [nonempty, Bool.false_and, if_neg Bool.false_ne_true, value, size]

/-! ### In path data -/

lemma digitCount_append {cs : List Char} (digits : ∀ c ∈ cs, c.isDigit = true)
    (left : ∀ c ∈ rest.head?, c.isDigit = false) : digitCount (cs ++ rest) = cs.length :=
  congrArg (fun parts => parts.1.length) (spanDigits_append digits rest left)

lemma significandLength_plainSize (ends : Ends rest) :
    significandLength (d.plainSize ++ rest) = d.plainSize.length := by
  have nonempty : d.whole.length ≠ 0 := by simpa using d.whole_ne_nil
  rw [plainSize]
  split
  case isTrue none =>
    rw [List.append_nil, significandLength,
      digitCount_append d.all_isDigit_whole fun c mem => (ends c mem).1, List.drop_left]
    dsimp only
    split
    next => exact absurd rfl (ends '.' (by simp)).2.1
    next => rfl
  case isFalse =>
    have before : digitCount (d.whole ++ '.' :: (d.fraction ++ rest)) = _ :=
      digitCount_append d.all_isDigit_whole (by simp)
    have behind := digitCount_append d.all_isDigit_fraction fun c mem => (ends c mem).1
    rw [List.append_assoc, List.cons_append]
    simp only [significandLength, before, behind, List.drop_left]
    rw [if_neg (by omega), List.length_append, List.length_cons, Nat.add_assoc, Nat.add_comm 1]

lemma powerLength_of_ends (ends : Ends rest) : powerLength rest = 0 := by
  cases rest with
  | nil => rfl
  | cons c rest =>
    obtain ⟨_, _, small, capital⟩ := ends c rfl
    simp [powerLength, small, capital]

lemma numeralLength_plainChars (ends : Ends rest) :
    numeralLength (d.plainChars ++ rest) = d.plainChars.length := by
  have signed : (if d.negative then ['-'] else []).length = if d.negative then 1 else 0 := by
    cases d.negative <;> rfl
  have nonempty : d.plainSize.length ≠ 0 := by
    obtain ⟨c, cs, start, _⟩ := d.exists_plainSize_eq_cons
    simp [start]
  have behind : (d.plainChars ++ rest).drop (if d.negative then 1 else 0) = d.plainSize ++ rest := by
    rw [plainChars, List.append_assoc, ← signed, List.drop_left]
  have end' : (d.plainChars ++ rest).drop
      ((if d.negative then 1 else 0) + d.plainSize.length) = rest := by
    rw [← List.drop_drop, behind, List.drop_left]
  rw [numeralLength, (d.sign_plainChars rest).2, behind, d.significandLength_plainSize ends, end',
    powerLength_of_ends ends]
  rw [if_neg nonempty, plainChars, List.length_append, signed]
  rfl

lemma ofChars?_plainChars : ofChars? d.plainChars = some d.spelled := by
  have signed := (d.sign_plainChars []).1
  have size : significand? (d.plainSize ++ []) = _ := d.significand?_plainSize ends_nil
  rw [List.append_nil] at signed
  rw [ofChars?, scan, signed]
  dsimp only
  rw [size]
  simp [power, spelled]

/-! ### In attributes -/

lemma numeral?_plainChars (ends : Ends rest) :
    Svg.numeral? (d.plainChars ++ rest) = some (d.spelled, rest) := by
  have noPower : Svg.power? rest = some (0, rest) := by
    cases rest with
    | nil => rfl
    | cons c rest =>
      obtain ⟨_, _, small, capital⟩ := ends c rfl
      simp [Svg.power?, small, capital]
  rw [Svg.numeral?, (d.sign_plainChars rest).1]
  dsimp only
  rw [d.significand?_plainSize ends]
  dsimp only
  rw [noPower]
  simp [spelled]

/-- A numeral has no other characters than these. -/
lemma mem_plainChars {c : Char} (mem : c ∈ d.plainChars) :
    c.isDigit = true ∨ c = '-' ∨ c = '.' := by
  rw [plainChars, plainSize, List.mem_append, List.mem_append] at mem
  rcases mem with minus | whole | fraction
  · split at minus <;> simp_all
  · exact .inl (d.all_isDigit_whole c whole)
  · split at fraction
    case isTrue => cases fraction
    case isFalse =>
      rcases List.mem_cons.1 fraction with point | fraction
      · exact .inr (.inr point)
      · exact .inl (d.all_isDigit_fraction c fraction)

lemma plainChars_ne_nil : d.plainChars ≠ [] := by
  obtain ⟨c, cs, start, _⟩ := d.exists_plainSize_eq_cons
  simp [plainChars, start]

end Decimal

/-! ### Numbers that can be read back -/

namespace Scalar

open Decimal (Ends)

variable {α : Type} [Scalar α] {x : α}

/-- A number is written as a plain decimal that stands for it. -/
def Legible (x : α) : Prop :=
  Scalar.isFinite x = true ∧
    ∃ d : Decimal, Scalar.text x = d.text .plain ∧ Scalar.ofDecimal d.spelled = x

/-- The text of a number. -/
def chars (x : α) : List Char := (Scalar.text x).toList

lemma Legible.exists_plainChars (legible : Legible x) :
    ∃ d : Decimal, chars x = d.plainChars ∧ Scalar.ofDecimal d.spelled = x := by
  obtain ⟨_, d, text, same⟩ := legible
  exact ⟨d, by rw [chars, text, d.toList_text_plain], same⟩

/-- No text of a number has any characters but these. -/
lemma Legible.mem_chars (legible : Legible x) {c : Char} (mem : c ∈ chars x) :
    c.isDigit = true ∨ c = '-' ∨ c = '.' := by
  obtain ⟨d, text, _⟩ := legible.exists_plainChars
  exact d.mem_plainChars (text ▸ mem)

lemma Legible.ne_of_mem_chars (legible : Legible x) {c k : Char} (mem : c ∈ chars x)
    (other : k.isDigit = false ∧ k ≠ '-' ∧ k ≠ '.') : c ≠ k := by
  rintro rfl
  obtain ⟨noDigit, noMinus, noPoint⟩ := other
  rcases legible.mem_chars mem with digit | minus | point
  · rw [noDigit] at digit
    cases digit
  · exact noMinus minus
  · exact noPoint point

variable {rest : List Char}

/-- In path data the number is read up to where its text ends. -/
lemma Legible.number?_append (legible : Legible x) (ends : Ends rest) :
    Svg.number? (chars x ++ rest) = some (x, rest) := by
  obtain ⟨d, text, same⟩ := legible.exists_plainChars
  rw [Svg.number?, text, d.numeralLength_plainChars ends, List.take_left, List.drop_left,
    d.ofChars?_plainChars, Option.map_some, same]

/-- The text of a number has no blank in it. -/
lemma Legible.not_isBlank (legible : Legible x) {c : Char} (mem : c ∈ chars x) :
    Text.isBlank c = false := by
  rcases legible.mem_chars mem with digit | rfl | rfl
  · have range : 48 ≤ c.toNat ∧ c.toNat ≤ 57 := by
      simpa [Char.isDigit, UInt32.le_iff_toNat_le] using digit
    simp only [Text.isBlank, Bool.or_eq_false_iff, Bool.and_eq_false_iff, decide_eq_false_iff_not]
    omega
  · decide
  · decide

/-- The text of a number begins with neither a blank nor a comma. -/
lemma Legible.exists_chars_eq_cons (legible : Legible x) :
    ∃ c cs, chars x = c :: cs ∧ Text.isBlank c = false ∧ c ≠ ',' := by
  obtain ⟨d, text, _⟩ := legible.exists_plainChars
  obtain ⟨c, cs, start⟩ := List.exists_cons_of_ne_nil d.plainChars_ne_nil
  have first : c ∈ chars x := by simp [text, start]
  exact ⟨c, cs, text.trans start, legible.not_isBlank first, legible.ne_of_mem_chars first (by decide)⟩

/-- No space is passed over before a number. -/
lemma Legible.dropWhile_append (legible : Legible x) (rest : List Char) :
    (chars x ++ rest).dropWhile Text.isSpace = chars x ++ rest := by
  obtain ⟨c, cs, first, dark, _⟩ := legible.exists_chars_eq_cons
  have noSpace : ¬ Text.isSpace c = true := fun space =>
    absurd (Text.isBlank_of_isSpace space) (by simp [dark])
  rw [first, List.cons_append, List.dropWhile_cons_of_neg noSpace]

/-- A space is passed over before a number. -/
lemma Legible.dropWhile_space_append (legible : Legible x) (rest : List Char) :
    (' ' :: (chars x ++ rest)).dropWhile Text.isSpace = chars x ++ rest := by
  rw [List.dropWhile_cons_of_pos (by rfl), legible.dropWhile_append]

lemma Legible.passSeparator_append (legible : Legible x) (rest : List Char) :
    Svg.passSeparator (' ' :: (chars x ++ rest)) = chars x ++ rest := by
  obtain ⟨c, cs, first, _, noComma⟩ := legible.exists_chars_eq_cons
  rw [Svg.passSeparator, legible.dropWhile_space_append, first, List.cons_append]
  split
  next same => exact absurd (List.cons.inj same).1 noComma
  next => rfl

/-- In attributes a number is read in the same way. -/
lemma Legible.number_append (legible : Legible x) (ends : Ends rest) (length : ℕ) :
    Svg.number length (chars x ++ rest) = .ok (x, rest) := by
  obtain ⟨d, text, same⟩ := legible.exists_plainChars
  rw [Svg.number, legible.dropWhile_append, text, d.numeral?_plainChars ends]
  simp only [same, legible.1, if_true]

lemma ends_space (rest : List Char) : Ends (' ' :: rest) :=
  Decimal.ends_cons (by decide) rest

/-- Reading goes on from what is left. -/
lemma bind_of_read {β γ : Type} {r : Svg.ListReader β} {f : β → Svg.ListReader γ} {b : β}
    {cs : List Char} (read : r cs = .ok (b, rest)) : (r >>= f) cs = f b rest := by
  change (r cs >>= fun p => f p.1 p.2) = _
  rw [read]
  rfl

lemma item_of_number {cs behind : List Char} {length : ℕ}
    (read : Svg.number length cs = .ok (x, rest)) (some : cs ≠ [])
    (passed : Svg.comma (rest.dropWhile Text.isSpace) = .ok ((), behind)) :
    Svg.item length cs = .ok (x, behind) := by
  have more : cs.isEmpty = false := by simpa using some
  have spaces : Svg.spaces rest = .ok ((), rest.dropWhile Text.isSpace) := rfl
  rw [Svg.item, more, if_neg Bool.false_ne_true, bind_of_read read, bind_of_read spaces,
    bind_of_read passed]
  rfl

/-- In a list a number is read up to the next one. -/
lemma Legible.item_append {y : α} (legible : Legible x) (next : Legible y) (length : ℕ)
    (rest : List Char) :
    Svg.item length (chars x ++ ' ' :: (chars y ++ rest)) = .ok (x, chars y ++ rest) := by
  refine item_of_number (legible.number_append (ends_space _) length) (by simp) ?_
  obtain ⟨d, ds, second, _, noComma⟩ := next.exists_chars_eq_cons
  rw [next.dropWhile_space_append, second, List.cons_append]
  unfold Svg.comma
  split
  next same => exact absurd (List.cons.inj same).1 noComma
  next => rfl

/-- The last number of a list. -/
lemma Legible.item_self (legible : Legible x) (length : ℕ) :
    Svg.item length (chars x) = .ok (x, []) := by
  obtain ⟨c, cs, first, _⟩ := legible.exists_chars_eq_cons
  have read : Svg.number length (chars x ++ []) = _ := legible.number_append Decimal.ends_nil length
  rw [List.append_nil] at read
  exact item_of_number read (by simp [first]) rfl

end Scalar

/-! ### Exact texts -/

namespace Exact

/-- Over the real numbers, decimals can be read back. -/
lemma legible_toReal (d : Decimal) : Scalar.Legible d.toReal := by
  have found : ∃ e : Decimal, e.toReal = d.toReal := ⟨d, rfl⟩
  refine ⟨rfl, found.choose, dif_pos found, ?_⟩
  exact found.choose.toReal_spelled.trans found.choose_spec

/-- Whole thousandths as a numeral. -/
lemma toReal_thousandths (n : ℤ) :
    (Decimal.mk (decide (n < 0)) n.natAbs (-3)).toReal = n / 1000 := by
  have size : ((n.natAbs : ℕ) : ℝ) = |(n : ℝ)| := by rw [Nat.cast_natAbs, Int.cast_abs]
  simp only [Decimal.toReal, decide_eq_true_eq, size]
  split
  case isTrue negative =>
    rw [abs_of_neg (by exact_mod_cast negative)]
    norm_num
    ring
  case isFalse positive =>
    rw [abs_of_nonneg (by exact_mod_cast not_lt.1 positive)]
    norm_num
    ring

lemma legible_thousandths (n : ℤ) : Scalar.Legible (n / 1000 : ℝ) := by
  rw [← toReal_thousandths]
  exact legible_toReal _

end Exact

end Toolpath
