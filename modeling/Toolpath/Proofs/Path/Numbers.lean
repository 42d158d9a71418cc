import Toolpath.Proofs.Decimal.Grammar
import Toolpath.Proofs.Double.Numeral

/-!
# Numbers in path data

A number is read where a numeral begins, and as far as one goes: of all numerals that stand at a
place, the longest is taken, and read as a nearest double of what it stands for
(`pathNumber_longest`). Where no numeral stands nothing is taken, and the place is told.
-/

namespace Toolpath

lemma Decimal.utf8Size_of_inNumeral {c : Char} (inNumeral : InNumeral c) : c.utf8Size = 1 := by
  rcases inNumeral with digit | mem
  · have range : c.toNat ≤ 57 := by
      simp only [Char.isDigit, Bool.and_eq_true, decide_eq_true_eq] at digit
      exact digit.2
    rw [Char.utf8Size_eq_one_iff]
    show c.val.toNat ≤ 127
    exact range.trans (by decide)
  · simp only [List.mem_cons, List.not_mem_nil, or_false] at mem
    rcases mem with rfl | rfl | rfl | rfl | rfl <;> rfl

namespace Svg

open Text (Cursor)
open Decimal (Spells Longest numeralLength ofChars? utf8Size_of_inNumeral)

/-- Moving over characters of one byte each. -/
lemma advance_of_utf8Size {front : List Char} (single : ∀ k ∈ front, k.utf8Size = 1) (offset : ℕ)
    (rest : List Char) :
    Cursor.advance front.length ⟨offset, front ++ rest⟩ = ⟨offset + front.length, rest⟩ := by
  induction front generalizing offset with
  | nil => simp [Cursor.advance]
  | cons k front ih =>
    have further := ih (fun k mem => single k (List.mem_cons_of_mem _ mem)) (offset + k.utf8Size)
    rw [single k List.mem_cons_self, Nat.add_assoc, Nat.add_comm 1] at further
    rw [List.cons_append, List.length_cons, Cursor.advance, single k List.mem_cons_self, further]

variable {α : Type} [Scalar α]

/-- Where no numeral is counted, nothing is read. -/
lemma at_pathNumber_of_eq_zero {c : Cursor} (none : numeralLength c.rest = 0) :
    (pathNumber : PathReader α).at c =
      (.error ⟨c.offset, String.ofList (excerpt 12 c.rest)⟩, c) := by
  simp only [PathReader.at, pathNumber, none, List.take_zero, Decimal.ofChars?_nil]

/-- Where a numeral is counted, the longest one is read. -/
lemma exists_at_pathNumber {c : Cursor} (counted : numeralLength c.rest ≠ 0) :
    ∃ front d, Longest c.rest front d ∧
      (pathNumber : PathReader α).at c =
        (.ok (Scalar.ofDecimal d), ⟨c.offset + front.length, c.rest.drop front.length⟩) := by
  obtain ⟨d, read, longest⟩ := Decimal.exists_longest counted
  refine ⟨_, d, longest, ?_⟩
  have length := List.length_take_of_le (Decimal.numeralLength_le c.rest)
  have moved := advance_of_utf8Size
    (fun k mem => utf8Size_of_inNumeral (longest.spells.inNumeral k mem)) c.offset
    (c.rest.drop (numeralLength c.rest))
  rw [List.take_append_drop, length] at moved
  simp only [PathReader.at, pathNumber, read, length]
  exact congrArg _ moved

/-- A number is read exactly where a numeral stands. The longest one is then taken, byte for byte,
and the number is the double that is read for it, a nearest one of what it stands for. Elsewhere the
place stays, and the fault tells it. What is counted as a numeral never fails to be read as one. -/
theorem pathNumber_longest (c : Cursor) :
    ((∃ x next, (pathNumber : PathReader Float).at c = (.ok x, next)) ↔
        ∃ front d, front <+: c.rest ∧ Spells front d) ∧
      ((∃ front d, Longest c.rest front d ∧ Double.Rounds d.toFloat d.toRat ∧
          (pathNumber : PathReader Float).at c =
            (.ok d.toFloat, ⟨c.offset + front.length, c.rest.drop front.length⟩)) ∨
        ∃ near, (pathNumber : PathReader Float).at c = (.error ⟨c.offset, near⟩, c)) ∧
      (numeralLength c.rest = 0 ∨
        ∃ d, ofChars? (c.rest.take (numeralLength c.rest)) = some d) := by
  by_cases none : numeralLength c.rest = 0
  case pos =>
    have fails := at_pathNumber_of_eq_zero (α := Float) none
    refine ⟨⟨?_, ?_⟩, .inr ⟨_, fails⟩, .inl none⟩
    · rintro ⟨x, next, read⟩
      rw [fails] at read
      cases read
    · rintro ⟨front, d, stands, spells⟩
      have := spells.length_pos
      have := Decimal.numeralLength_of_prefix stands spells
      omega
  case neg =>
    obtain ⟨front, d, longest, read⟩ := exists_at_pathNumber (α := Float) none
    obtain ⟨e, numeral, _⟩ := Decimal.exists_longest none
    exact ⟨⟨fun _ => ⟨front, d, longest.stands, longest.spells⟩, fun _ => ⟨_, _, read⟩⟩,
      .inl ⟨front, d, longest, Double.rounds_toFloat d, read⟩, .inr ⟨e, numeral⟩⟩

end Svg

end Toolpath
