import Mathlib
import Toolpath.Decimal.Basic

/-!
# The longest numeral

The longest numeral at the front of some characters is counted apart from reading it. What is
counted can be read (`exists_ofChars?_take`), so no numeral is found only where none is counted. And
a count does not depend on characters that it does not reach: a numeral that ends before some place
of a text is also the longest one if the text is cut off there (`counted_numeralLength`).
-/

namespace Toolpath.Decimal

variable {cs rest : List Char}

/-! ### Counts -/

lemma signLength_cons (c : Char) (cs : List Char) :
    signLength (c :: cs) = if c = '-' ∨ c = '+' then 1 else 0 := by
  by_cases minus : c = '-'
  · subst minus
    rfl
  · by_cases plus : c = '+'
    · subst plus
      rfl
    · simp [signLength, minus, plus]

lemma signLength_le (cs : List Char) : signLength cs ≤ cs.length := by
  unfold signLength
  split <;> simp

lemma significandLength_of_point (point : cs.drop (digitCount cs) = '.' :: rest) :
    significandLength cs =
      if digitCount cs + digitCount rest = 0 then 0 else digitCount cs + 1 + digitCount rest := by
  simp only [significandLength, point]

lemma significandLength_of_noPoint (noPoint : (cs.drop (digitCount cs)).head? ≠ some '.') :
    significandLength cs = digitCount cs := by
  simp only [significandLength]
  split
  next point => exact absurd (by rw [point]; rfl) noPoint
  next => rfl

lemma digitCount_le_significandLength (cs : List Char) :
    digitCount cs ≤ significandLength cs := by
  by_cases point : (cs.drop (digitCount cs)).head? = some '.'
  case pos =>
    obtain ⟨rest, point⟩ := List.head?_eq_some_iff.1 point
    rw [significandLength_of_point point]
    split <;> omega
  case neg => rw [significandLength_of_noPoint point]

lemma digitCount_le (cs : List Char) : digitCount cs ≤ cs.length :=
  (List.takeWhile_prefix _).length_le

lemma significandLength_le (cs : List Char) : significandLength cs ≤ cs.length := by
  have whole := digitCount_le cs
  by_cases point : (cs.drop (digitCount cs)).head? = some '.'
  case pos =>
    obtain ⟨rest, point⟩ := List.head?_eq_some_iff.1 point
    have left := congrArg List.length point
    have fraction := digitCount_le rest
    rw [List.length_drop, List.length_cons] at left
    rw [significandLength_of_point point]
    split <;> omega
  case neg => rwa [significandLength_of_noPoint point]

lemma powerLength_le (cs : List Char) : powerLength cs ≤ cs.length := by
  cases cs with
  | nil => exact le_rfl
  | cons letter cs =>
    have size := signLength_le cs
    have digits := digitCount_le (cs.drop (signLength cs))
    rw [List.length_drop] at digits
    simp only [powerLength, List.length_cons]
    split
    · split <;> omega
    · exact Nat.zero_le _

lemma numeralLength_le (cs : List Char) : numeralLength cs ≤ cs.length := by
  have size := signLength_le cs
  have body := significandLength_le (cs.drop (signLength cs))
  have power :=
    powerLength_le (cs.drop (signLength cs + significandLength (cs.drop (signLength cs))))
  rw [List.length_drop] at body power
  simp only [numeralLength]
  split <;> omega

/-! ### Texts that are cut off -/

/-- A count of characters at the front that stays the same when the text is cut off behind them. -/
def Counted (size : List Char → ℕ) : Prop :=
  ∀ front back, size (front ++ back) ≤ front.length → size front = size (front ++ back)

lemma counted_digitCount : Counted digitCount := by
  intro front back within
  simp only [digitCount, List.takeWhile_append] at within ⊢
  split at within
  case isTrue all =>
    rw [List.length_append] at within
    rw [if_pos all, List.length_append]
    omega
  case isFalse some => rw [if_neg some]

lemma signLength_append (some : cs ≠ []) (back : List Char) :
    signLength (cs ++ back) = signLength cs := by
  obtain ⟨c, cs, rfl⟩ := List.exists_cons_of_ne_nil some
  rw [List.cons_append, signLength_cons, signLength_cons]

lemma counted_significandLength : Counted significandLength := by
  intro front back within
  have inside := (digitCount_le_significandLength (front ++ back)).trans within
  have whole := counted_digitCount front back inside
  have behind : (front ++ back).drop (digitCount (front ++ back)) =
      front.drop (digitCount front) ++ back := by
    rw [whole, List.drop_append_of_le_length inside]
  have left := congrArg List.length (List.take_append_drop (digitCount front) front)
  rw [List.length_append, List.length_take_of_le (whole ▸ inside)] at left
  cases ahead : front.drop (digitCount front) with
  | nil =>
    rw [significandLength_of_noPoint (by simp [ahead])]
    rw [ahead, List.nil_append] at behind
    by_cases point : back.head? = some '.'
    case pos =>
      -- Behind the text a point counts with the digits before it, so there were none.
      obtain ⟨rest, rfl⟩ := List.head?_eq_some_iff.1 point
      rw [significandLength_of_point behind] at within ⊢
      rw [ahead, List.length_nil] at left
      split at within
      case isTrue none => rw [if_pos none]; omega
      case isFalse => omega
    case neg => rw [significandLength_of_noPoint (by rwa [behind]), whole]
  | cons c rest =>
    rw [ahead, List.length_cons] at left
    rw [ahead, List.cons_append] at behind
    by_cases point : c = '.'
    case pos =>
      subst point
      rw [significandLength_of_point behind] at within ⊢
      rw [significandLength_of_point ahead, whole]
      have fraction : digitCount (rest ++ back) ≤ rest.length := by
        split at within <;> omega
      rw [counted_digitCount rest back fraction]
    case neg =>
      rw [significandLength_of_noPoint (by simpa [ahead] using point),
        significandLength_of_noPoint (by simpa [behind] using point), whole]

lemma drop_signLength_append (some : cs ≠ []) (back : List Char) :
    (cs ++ back).drop (signLength (cs ++ back)) = cs.drop (signLength cs) ++ back := by
  rw [signLength_append some, List.drop_append_of_le_length (signLength_le cs)]

lemma counted_powerLength : Counted powerLength := by
  intro front back within
  cases front with
  | nil => exact (Nat.le_zero.1 within).symm
  | cons letter cs =>
    rw [List.cons_append] at within ⊢
    simp only [powerLength, List.length_cons] at within ⊢
    by_cases power : (letter = 'e' || letter = 'E') = true
    case neg => rw [if_neg power, if_neg power]
    case pos =>
      rw [if_pos power] at within ⊢
      rw [if_pos power]
      by_cases some : cs = []
      case pos =>
        subst some
        have none : digitCount (([] ++ back).drop (signLength ([] ++ back))) = 0 := by
          rw [List.length_nil] at within
          split at within <;> omega
        rw [if_pos none]
        rfl
      case neg =>
        have size := signLength_le cs
        rw [drop_signLength_append some, signLength_append some] at within ⊢
        have digits : digitCount (cs.drop (signLength cs) ++ back) ≤
            (cs.drop (signLength cs)).length := by
          rw [List.length_drop]
          split at within <;> omega
        rw [counted_digitCount _ back digits]

lemma counted_numeralLength : Counted numeralLength := by
  intro front back within
  by_cases some : front = []
  case pos =>
    subst some
    exact (Nat.le_zero.1 within).symm
  case neg =>
    have size := signLength_le front
    have left : (front.drop (signLength front)).length = front.length - signLength front :=
      List.length_drop
    simp only [numeralLength] at within ⊢
    rw [drop_signLength_append some, signLength_append some] at within ⊢
    have body : significandLength (front.drop (signLength front) ++ back) ≤
        (front.drop (signLength front)).length := by
      split at within <;> omega
    rw [counted_significandLength _ back body]
    split at within
    case isTrue none => rw [if_pos none, if_pos none]
    case isFalse digits =>
      have inside : signLength front + significandLength (front.drop (signLength front) ++ back) ≤
          front.length := by omega
      rw [List.drop_append_of_le_length inside] at within ⊢
      rw [if_neg digits, if_neg digits, counted_powerLength _ back]
      rw [List.length_drop]
      omega

/-! ### What is counted can be read -/

lemma snd_sign (cs : List Char) : (sign cs).2 = cs.drop (signLength cs) := by
  unfold sign signLength
  split <;> rfl

lemma snd_spanDigits (cs : List Char) : (spanDigits cs).2 = cs.drop (digitCount cs) := by
  have behind : (cs.takeWhile Char.isDigit ++ cs.dropWhile Char.isDigit).drop
      (cs.takeWhile Char.isDigit).length = cs.dropWhile Char.isDigit := List.drop_left
  rw [List.takeWhile_append_dropWhile] at behind
  exact behind.symm

lemma isEmpty_spanDigits (cs : List Char) :
    (spanDigits cs).1.isEmpty = decide (digitCount cs = 0) := by
  rw [spanDigits, digitCount]
  cases cs.takeWhile Char.isDigit <;> rfl

lemma exists_significand? (digits : significandLength cs ≠ 0) :
    ∃ number places, significand? cs = some (number, places, cs.drop (significandLength cs)) := by
  by_cases point : (cs.drop (digitCount cs)).head? = some '.'
  case pos =>
    obtain ⟨rest, point⟩ := List.head?_eq_some_iff.1 point
    rw [significandLength_of_point point] at digits ⊢
    have some : digitCount cs + digitCount rest ≠ 0 := fun none => digits (if_pos none)
    have behind : cs.drop (digitCount cs + 1 + digitCount rest) = rest.drop (digitCount rest) := by
      rw [← List.drop_drop, ← List.drop_drop, point, List.drop_one, List.tail_cons]
    have nonempty : ¬((spanDigits cs).1.isEmpty && (spanDigits rest).1.isEmpty) = true := by
      simpa [isEmpty_spanDigits, Nat.add_eq_zero_iff] using some
    simp only [significand?, snd_spanDigits, point]
    rw [if_neg nonempty, if_neg some, behind]
    exact ⟨_, _, rfl⟩
  case neg =>
    rw [significandLength_of_noPoint point] at digits ⊢
    simp only [significand?]
    split
    next rest ahead =>
      rw [snd_spanDigits] at ahead
      exact absurd (by rw [ahead]; rfl) point
    next =>
      rw [if_neg (by simpa [isEmpty_spanDigits] using digits), snd_spanDigits]
      exact ⟨_, _, rfl⟩

/-- What follows the whole number of a power, or its letter if there is none. -/
lemma snd_getD_power? (letter : Char) (cs : List Char) :
    ((power? cs).getD (0, letter :: cs)).2 =
      if digitCount (cs.drop (signLength cs)) = 0 then letter :: cs
      else cs.drop (signLength cs + digitCount (cs.drop (signLength cs))) := by
  simp only [power?]
  rw [snd_sign, isEmpty_spanDigits, snd_spanDigits, List.drop_drop]
  by_cases none : digitCount (cs.drop (signLength cs)) = 0
  case pos => simp [none]
  case neg => simp [none]

lemma snd_power (cs : List Char) : (power cs).2 = cs.drop (powerLength cs) := by
  have behind (letter : Char) (cs : List Char) (known : (letter = 'e' || letter = 'E') = true) :
      ((power? cs).getD (0, letter :: cs)).2 =
        (letter :: cs).drop (powerLength (letter :: cs)) := by
    rw [snd_getD_power?]
    simp only [powerLength]
    rw [if_pos known]
    split
    case isTrue => rfl
    case isFalse => rw [Nat.add_assoc, Nat.add_comm 1, List.drop_succ_cons]
  unfold power
  split
  next => exact behind _ _ rfl
  next => exact behind _ _ rfl
  next small capital =>
    cases cs with
    | nil => rfl
    | cons c cs =>
      have other : ¬(c = 'e' || c = 'E') = true := by
        rw [Bool.or_eq_true, decide_eq_true_eq, decide_eq_true_eq]
        rintro (rfl | rfl)
        · exact small cs rfl
        · exact capital cs rfl
      rw [powerLength, if_neg other]
      rfl

lemma exists_scan (counted : numeralLength cs ≠ 0) :
    ∃ d, scan cs = some (d, cs.drop (numeralLength cs)) := by
  have digits : significandLength (cs.drop (signLength cs)) ≠ 0 :=
    fun none => counted (if_pos none)
  obtain ⟨number, places, read⟩ := exists_significand? digits
  have behind : (cs.drop (signLength cs)).drop (significandLength (cs.drop (signLength cs))) =
      cs.drop (signLength cs + significandLength (cs.drop (signLength cs))) := List.drop_drop
  simp only [scan, numeralLength]
  rw [snd_sign, read, behind, if_neg digits]
  dsimp only
  rw [snd_power, List.drop_drop]
  exact ⟨_, rfl⟩

/-- The longest numeral is read as one, to its last character. -/
lemma exists_ofChars?_take (counted : numeralLength cs ≠ 0) :
    ∃ d, ofChars? (cs.take (numeralLength cs)) = some d := by
  have whole : numeralLength (cs.take (numeralLength cs)) = numeralLength cs := by
    have same := counted_numeralLength (cs.take (numeralLength cs)) (cs.drop (numeralLength cs))
    rw [List.take_append_drop, List.length_take_of_le (numeralLength_le cs)] at same
    exact same le_rfl
  obtain ⟨d, read⟩ := exists_scan (whole ▸ counted)
  rw [whole, List.drop_eq_nil_of_le (List.length_take_le _ _)] at read
  exact ⟨d, by rw [ofChars?, read]⟩

end Toolpath.Decimal
