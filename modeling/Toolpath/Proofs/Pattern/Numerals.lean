import Mathlib
import Toolpath.Pattern.Listing
import Toolpath.Pattern.Record

/-!
# Numbers in records

Coordinates are written as whole thousandths with a point before the last three digits. Here are the
characters they are written with, the numbers that these digits spell, and how far a reader takes
characters of a class.
-/

namespace Toolpath.Pattern

open Text (isDecimalDigit)

/-- The numeral that stands for a number of thousandths. -/
def thousandths (n : Int64) : Decimal :=
  ⟨decide (n.toInt < 0), n.toInt.natAbs, -3⟩

/-! ### Digits -/

lemma digitsFrom_toDigits (n : Nat) : Decimal.digitsFrom 0 (Nat.toDigits 10 n) = n :=
  Nat.ofDigitChars_ten_toDigits

lemma all_isDigit_toDigits (n : Nat) : ∀ c ∈ Nat.toDigits 10 n, c.isDigit = true :=
  fun _ mem => Nat.isDigit_of_mem_toDigits (by decide) (by decide) mem

lemma all_isDigit_threeDigits (n : Nat) : ∀ c ∈ (threeDigits n).toList, c.isDigit = true := by
  intro c mem
  simp only [threeDigits, String.toList_ofList, List.mem_append, List.mem_replicate] at mem
  rcases mem with ⟨_, rfl⟩ | mem
  · decide
  · exact all_isDigit_toDigits n c mem

lemma length_threeDigits {n : Nat} (small : n < 1000) : (threeDigits n).toList.length = 3 := by
  have short : (Nat.toDigits 10 n).length ≤ 3 :=
    (Nat.length_toDigits_le_iff (by decide) (by decide)).2 small
  simp only [threeDigits, String.toList_ofList, List.length_append, List.length_replicate]
  omega

/-- Three digits behind others add a thousand times those. -/
lemma digitsFrom_threeDigits (k : Nat) {n : Nat} (small : n < 1000) :
    Decimal.digitsFrom k (threeDigits n).toList = 1000 * k + n := by
  have short : (Nat.toDigits 10 n).length ≤ 3 :=
    (Nat.length_toDigits_le_iff (by decide) (by decide)).2 small
  have shifted : Nat.ofDigitChars 10 (threeDigits n).toList k = 10 ^ 3 * k + n := by
    rw [Nat.ofDigitChars_eq_ofDigitChars_zero, length_threeDigits small]
    simp [threeDigits, Nat.ofDigitChars_append]
  exact shifted

/-- What is taken of a class ends where the class ends. -/
lemma takeSome_append {p : Char → Bool} {cs rest : List Char} (some : cs ≠ [])
    (taken : ∀ c ∈ cs, p c = true) (left : ∀ c ∈ rest.head?, p c = false) :
    takeSome p (cs ++ rest) = .some (cs, rest) := by
  rw [takeSome, Text.takeWhile_append_of_head? taken left, Text.dropWhile_append_of_head? taken left]
  simp [some]

/-! ### Thousandths -/

/-- The size of a number of thousandths, as it is written. -/
def sizeText (size : Nat) : List Char :=
  Nat.toDigits 10 (size / 1000) ++ '.' :: (threeDigits (size % 1000)).toList

lemma toList_thousandthsText (n : Int64) :
    (thousandthsText n).toList =
      (if n.toInt < 0 then ['-'] else []) ++ sizeText n.toInt.natAbs := by
  simp only [thousandthsText, sizeText, String.toList_append]
  split <;> simp

/-- May a character stand in a number? -/
def inNumber (c : Char) : Bool := isDecimalDigit c || c = '.'

lemma spanDigits_append {cs : List Char} (digits : ∀ c ∈ cs, c.isDigit = true)
    (rest : List Char) (left : ∀ c ∈ rest.head?, c.isDigit = false) :
    Decimal.spanDigits (cs ++ rest) = (cs, rest) := by
  rw [Decimal.spanDigits, Text.takeWhile_append_of_head? digits left,
    Text.dropWhile_append_of_head? digits left]

end Toolpath.Pattern
