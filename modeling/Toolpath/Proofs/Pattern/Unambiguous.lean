import Toolpath.Proofs.Pattern.RoundTrip
import Toolpath.Proofs.Pattern.Written

/-!
# Written programs are unambiguous

Nothing stands between the fields of a record, so what has to be seen is where each of them ends. A
line number ends at the letter of the code, a code has three characters, and a coordinate ends at
the next letter or with the record. So two records with one text are one record, and two programs
with one text are one program, since their lines come apart (`write_unambiguous`).

A coordinate is told from its text because the text is a decimal with three places that is worth the
thousandths it was written for, and there is no minus before it unless they are below zero.
-/

namespace Toolpath.Pattern

open Decimal (Digits Spells)

variable {n m : Int64} {rest rest' : List Char}

/-! ### Digits -/

/-- Digits that other characters follow are told apart from them. -/
lemma toDigits_append_inj {a b : ℕ} (left : ∀ c ∈ rest.head?, c.isDigit = false)
    (left' : ∀ c ∈ rest'.head?, c.isDigit = false)
    (same : Nat.toDigits 10 a ++ rest = Nat.toDigits 10 b ++ rest') : a = b ∧ rest = rest' := by
  have first := spanDigits_append (all_isDigit_toDigits a) rest left
  rw [same, spanDigits_append (all_isDigit_toDigits b) rest' left'] at first
  obtain ⟨digits, others⟩ := Prod.mk.inj first
  refine ⟨?_, others.symm⟩
  rw [← digitsFrom_toDigits a, ← digits, digitsFrom_toDigits]

/-! ### Coordinates -/

lemma thousandths_injective : Function.Injective thousandths := by
  intro n m same
  obtain ⟨sign, size, _⟩ := Decimal.mk.inj same
  rw [decide_eq_decide] at sign
  exact Int64.toInt.inj (by omega)

/-- A text is that of one coordinate. -/
lemma thousandthsText_injective : Function.Injective thousandthsText := by
  intro n m same
  have first := Decimal.ofChars?_eq_some_iff.2 (coordinate_thousandths n).spells
  have second := Decimal.ofChars?_eq_some_iff.2 (coordinate_thousandths m).spells
  rw [same, second] at first
  exact thousandths_injective (Option.some.inj first).symm

/-- A coordinate that other characters follow is told apart from them. -/
lemma thousandthsText_append_inj (left : ∀ c ∈ rest.head?, inNumber c = false)
    (left' : ∀ c ∈ rest'.head?, inNumber c = false)
    (same : (thousandthsText n).toList ++ rest = (thousandthsText m).toList ++ rest') :
    n = m ∧ rest = rest' := by
  have first := (coordinate_thousandths n).takeNumber rest left
  rw [same, (coordinate_thousandths m).takeNumber rest' left'] at first
  obtain ⟨text, others⟩ := Prod.mk.inj (Option.some.inj first)
  exact ⟨thousandthsText_injective (String.toList_inj.1 text.symm), others.symm⟩

/-- A coordinate is written with three digits behind its point. -/
lemma exists_toList_thousandthsText (n : Int64) :
    ∃ whole fraction, (thousandthsText n).toList = whole ++ '.' :: fraction ∧
      fraction.length = 3 ∧ Digits fraction := by
  refine ⟨(if n.toInt < 0 then ['-'] else []) ++ Nat.toDigits 10 (n.toInt.natAbs / 1000),
    (threeDigits (n.toInt.natAbs % 1000)).toList, ?_, length_threeDigits (Nat.mod_lt _ (by decide)),
    all_isDigit_threeDigits _⟩
  rw [toList_thousandthsText, sizeText, ← List.append_assoc]

/-- Only what is below zero is written with a minus. -/
lemma head?_thousandthsText (n : Int64) :
    (thousandthsText n).toList.head? = some '-' ↔ n.toInt < 0 := by
  rw [toList_thousandthsText]
  by_cases negative : n.toInt < 0
  case pos => simp [negative]
  case neg =>
    obtain ⟨c, cs, size⟩ := List.exists_cons_of_ne_nil
      (Nat.toDigits_ne_nil (b := 10) (n := n.toInt.natAbs / 1000))
    have digit := all_isDigit_toDigits (n.toInt.natAbs / 1000) c (by simp [size])
    have noMinus : c ≠ '-' := by
      rintro rfl
      exact absurd digit (by decide)
    simp [negative, sizeText, size, noMinus]

/-- There is no minus before zero. -/
lemma thousandthsText_ne_negative_zero (n : Int64) : thousandthsText n ≠ "-0.000" := by
  intro same
  have minus : (thousandthsText n).toList.head? = some '-' := by
    rw [same]
    decide +kernel
  have negative := (head?_thousandthsText n).1 minus
  have read := Decimal.ofChars?_eq_some_iff.2 (coordinate_thousandths n).spells
  have zero : Decimal.ofChars? "-0.000".toList = some ⟨true, 0, -3⟩ := by decide +kernel
  rw [same, zero] at read
  have size : 0 = n.toInt.natAbs := congrArg Decimal.digits (Option.some.inj read)
  omega

/-! ### Targets -/

lemma toList_targetText (t : Target) :
    t.text.toList =
      'X' :: ((thousandthsText t.x).toList ++ 'Y' :: (thousandthsText t.y).toList) := by
  simp [Target.text]

/-- A text is that of one target. -/
lemma targetText_injective : Function.Injective Target.text := by
  intro t t' same
  have chars := congrArg String.toList same
  rw [toList_targetText, toList_targetText] at chars
  have letter (cs : List Char) : ∀ c ∈ ('Y' :: cs).head?, inNumber c = false := by
    simp [show inNumber 'Y' = false by decide]
  obtain ⟨x, others⟩ := thousandthsText_append_inj (letter _) (letter _) (List.cons.inj chars).2
  have y := thousandthsText_injective (String.toList_inj.1 (List.cons.inj others).2)
  cases t
  cases t'
  exact congrArg₂ Target.mk x y

/-! ### Records -/

/-- What stands behind the line number of a record. -/
def Record.body : Record → List Char
  | .motion _ kind target => kind.code.toList ++ target.text.toList
  | .endOfProgram _ => ['M', '0', '2']

lemma length_code (kind : Motion) : kind.code.toList.length = 3 := by
  cases kind <;> simp [Motion.code]

lemma code_injective : Function.Injective Motion.code := by
  intro kind kind' same
  cases kind with
  | rapid => cases kind' <;> simp [Motion.code] at same ⊢
  | linear => cases kind' <;> simp [Motion.code] at same ⊢

lemma toList_recordText (r : Record) :
    r.text.toList = 'N' :: (Nat.toDigits 10 r.line.toNat ++ r.body) := by
  cases r <;> simp [Record.text, Record.line, Record.body]

lemma isDigit_of_mem_head?_body (r : Record) : ∀ c ∈ r.body.head?, c.isDigit = false := by
  intro c mem
  cases r with
  | motion line kind target =>
    obtain rfl : 'G' = c := by cases kind <;> simpa [Record.body, Motion.code] using mem
    decide
  | endOfProgram line =>
    obtain rfl : 'M' = c := by simpa [Record.body] using mem
    decide

/-- A text is that of one record. -/
lemma recordText_injective : Function.Injective Record.text := by
  intro r r' same
  have chars := congrArg String.toList same
  rw [toList_recordText, toList_recordText] at chars
  obtain ⟨lines, bodies⟩ := toDigits_append_inj (isDigit_of_mem_head?_body r)
    (isDigit_of_mem_head?_body r') (List.cons.inj chars).2
  have line := UInt32.toNat.inj lines
  cases r with
  | motion number kind target =>
    cases r' with
    | motion number' kind' target' =>
      have codes := (length_code kind).trans (length_code kind').symm
      obtain ⟨code, text⟩ := List.append_inj bodies codes
      obtain rfl := code_injective (String.toList_inj.1 code)
      obtain rfl := targetText_injective (String.toList_inj.1 text)
      exact congrArg (Record.motion · kind target) line
    | endOfProgram number' => cases kind <;> simp [Record.body, Motion.code] at bodies
  | endOfProgram number =>
    cases r' with
    | motion number' kind' target' => cases kind' <;> simp [Record.body, Motion.code] at bodies
    | endOfProgram number' => exact congrArg Record.endOfProgram line

/-! ### Programs -/

/-- Two programs with one text are one program, and so are two targets one target. A coordinate is
written as a decimal with three digits behind its point that is worth exactly its thousandths, with
a minus if and only if they are below zero; so no text is that of minus zero. -/
theorem write_unambiguous :
    Function.Injective write ∧ (∀ t t' : Target, t.text = t'.text ↔ t = t') ∧
      ∀ n : Int64,
        (∃ d, Spells (thousandthsText n).toList d ∧ d.toRat = n.toInt / 1000) ∧
          (∃ whole fraction, (thousandthsText n).toList = whole ++ '.' :: fraction ∧
            fraction.length = 3 ∧ Digits fraction) ∧
          ((thousandthsText n).toList.head? = some '-' ↔ n.toInt < 0) ∧
          thousandthsText n ≠ "-0.000" := by
  refine ⟨fun records records' same => ?_, fun t t' => targetText_injective.eq_iff, fun n => ?_⟩
  · have lines := congrArg textLines same
    rw [textLines_write, textLines_write] at lines
    have text : Function.Injective fun r : Record => r.text.toList :=
      fun r r' chars => recordText_injective (String.toList_inj.1 chars)
    exact List.map_injective_iff.2 text lines
  · exact ⟨⟨thousandths n, (coordinate_thousandths n).spells, toRat_thousandths n⟩,
      exists_toList_thousandthsText n, head?_thousandthsText n,
      thousandthsText_ne_negative_zero n⟩

end Toolpath.Pattern
