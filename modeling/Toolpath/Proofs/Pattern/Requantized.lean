import Toolpath.Proofs.Pattern.RoundTrip
import Toolpath.Proofs.Pattern.Written

/-!
# Coordinates that went through a program

A coordinate is written in thousandths, and it is read and rounded to thousandths again. Between the
two it is a double: the nearest to the number that was written, and then the nearest to a thousand
times that. Up to a million million inches both errors together are below half a thousandth, so the
coordinate is what it was (`requantized`). Far beyond, doubles are further apart than thousandths.
-/

namespace Toolpath.Pattern

open Double

/-! ### Rounding to thousandths -/

section Rounding

variable {n : Int64} {x : Float} {v X : ℚ}

/-- The nearest whole number to a number near to a whole one. -/
lemma roundAway_of_near {N : ℤ} (near : |X - N| < 1 / 2) : roundAway X = N := by
  obtain ⟨low, high⟩ := abs_lt.1 near
  exact le_antisymm (roundAway_le (by linarith)) (le_roundAway (by linarith))

/-- A double near to a number of thousandths is rounded to it. -/
lemma quantize_of_near (worth : Worth x v) (small : |n.toInt| ≤ 10 ^ 15)
    (near : |v - n.toInt / 1000| ≤ 2 ^ (-14 : ℤ)) : quantize x = .ok n := by
  have thousand : Worth (1000.0 : Float) 1000 := by decide +kernel
  have size : |(n.toInt : ℚ)| ≤ 10 ^ 15 := by exact_mod_cast small
  -- Reading errs by a tenth of a thousandth at most, and the product by a sixteenth.
  have first : |v * 1000 - n.toInt| ≤ 1 / 10 := by
    calc |v * 1000 - n.toInt| = |v - n.toInt / 1000| * |1000| := by
          rw [← abs_mul, sub_mul, div_mul_cancel₀ _ (by norm_num)]
      _ ≤ 2 ^ (-14 : ℤ) * |1000| := by gcongr
      _ ≤ 1 / 10 := by norm_num
  have within : |v * 1000| ≤ 2 ^ (50 : ℤ) := by
    calc |v * 1000| ≤ |v * 1000 - n.toInt| + |(n.toInt : ℚ)| := by
          simpa using abs_sub_le (v * 1000) n.toInt 0
      _ ≤ 1 / 10 + 10 ^ 15 := add_le_add first size
      _ ≤ 2 ^ (50 : ℤ) := by norm_num
  obtain ⟨X, product, _, _, second⟩ :=
    (rounds_mul worth thousand).exists_near (by norm_num) (by norm_num) within
  have both : |X - n.toInt| < 1 / 2 := by
    calc |X - n.toInt| ≤ |X - v * 1000| + |v * 1000 - n.toInt| := abs_sub_le _ _ _
      _ ≤ 2 ^ (50 - 54 : ℤ) + 1 / 10 := add_le_add second first
      _ < 1 / 2 := by norm_num
  have nearest := nearest?_of_worth product
  rw [roundAway_of_near both] at nearest
  exact quantize_of_nearest? nearest

/-- What is read for a number of thousandths is near to it. -/
lemma exists_near_thousandths (small : |n.toInt| ≤ 10 ^ 15) :
    ∃ v, Worth (thousandths n).toFloat v ∧ |v - n.toInt / 1000| ≤ 2 ^ (-14 : ℤ) := by
  have rounds := rounds_toFloat (thousandths n)
  rw [toRat_thousandths] at rounds
  have size : |(n.toInt : ℚ)| ≤ 10 ^ 15 := by exact_mod_cast small
  have within : |(n.toInt / 1000 : ℚ)| ≤ 2 ^ (40 : ℤ) := by
    rw [abs_div, abs_of_pos (show (0 : ℚ) < 1000 by norm_num), div_le_iff₀ (by norm_num)]
    exact size.trans (by norm_num)
  obtain ⟨v, worth, _, _, near⟩ := rounds.exists_near (by norm_num) (by norm_num) within
  exact ⟨v, worth, near⟩

lemma quantize_toFloat_thousandths (small : |n.toInt| ≤ 10 ^ 15) :
    quantize (thousandths n).toFloat = .ok n := by
  obtain ⟨v, worth, near⟩ := exists_near_thousandths small
  exact quantize_of_near worth small near

lemma toInt_neg_of_small (small : |n.toInt| ≤ 10 ^ 15) : (-n).toInt = -n.toInt := by
  obtain ⟨low, high⟩ := abs_le.1 small
  rw [Int64.toInt_neg]
  exact Int.bmod_eq_of_le (by omega) (by omega)

/-- Turned over, a coordinate is rounded to the other side. -/
lemma quantize_zero_sub_thousandths (small : |n.toInt| ≤ 10 ^ 15) :
    quantize (0.0 - (thousandths n).toFloat) = .ok (-n) := by
  obtain ⟨v, worth, near⟩ := exists_near_thousandths small
  have turned := toInt_neg_of_small small
  refine quantize_of_near (worth_zero_sub worth) (by rwa [turned, abs_neg]) ?_
  rwa [turned, Int.cast_neg, neg_div, neg_sub_neg, abs_sub_comm]

end Rounding

/-! ### Programs -/

/-- A target turned over. -/
def Target.turned (t : Target) : Target := ⟨t.x, -t.y⟩

/-- The coordinates of a target are at most a million million inches. -/
def Target.Small (t : Target) : Prop := |t.x.toInt| ≤ 10 ^ 15 ∧ |t.y.toInt| ≤ 10 ^ 15

lemma ofPoint_pointOf {t : Target} (small : t.Small) :
    Target.ofPoint (pointOf (thousandths t.x) (thousandths t.y) : Point Float) = .ok t.turned := by
  have x : quantize ((thousandths t.x).toFloat + 0.0) = .ok t.x := by
    rw [(add_zero_thousandths t.x).1]
    exact quantize_toFloat_thousandths small.1
  have y := quantize_zero_sub_thousandths small.2
  exact Except.bind_eq_ok.2 ⟨t.x, x, Except.bind_eq_ok.2 ⟨-t.y, y, rfl⟩⟩

/-- The steps of records lead to the targets of the records, turned over. -/
lemma mapM_ofPoint_steps {records : List Record}
    (small : ∀ r ∈ records, ∀ t ∈ r.target?, t.Small) :
    (records.filterMap (Record.step? : Record → Option (Step Float))).mapM
        (fun step => Target.ofPoint step.target) =
      .ok ((records.filterMap Record.target?).map Target.turned) := by
  induction records with
  | nil => rfl
  | cons r records ih =>
    have later := ih fun r mem => small r (List.mem_cons_of_mem _ mem)
    cases r with
    | motion line kind target =>
      have here := ofPoint_pointOf (small _ List.mem_cons_self target rfl)
      have led : Target.ofPoint (kind.step
          (pointOf (thousandths target.x) (thousandths target.y) : Point Float)).target =
            .ok target.turned := by
        cases kind <;> exact here
      have step : (Record.motion line kind target).step? =
          some (kind.step (pointOf (thousandths target.x) (thousandths target.y) : Point Float)) :=
        rfl
      rw [List.filterMap_cons_some step, List.mapM_cons, led, Except.bind_of_ok, later]
      rfl
    | endOfProgram line => exact later

/-- Up to a million million inches, a coordinate that is written in thousandths is read as a double
that is rounded to the same thousandths again. So the targets of a program that is written and read
back are those that were written, turned over. -/
theorem requantized :
    (∀ n : Int64, |n.toInt| ≤ 10 ^ 15 → ∃ d, Decimal.ofText? (thousandthsText n) = some d ∧
      quantize (Scalar.ofDecimal d : Float) = .ok n) ∧
    ∀ records : List Record, (∀ r ∈ records, ∀ t ∈ r.target?, t.Small) →
      (Listing.ofText (write records)).value.steps.mapM
          (fun step : Step Float => Target.ofPoint step.target) =
        .ok ((records.filterMap Record.target?).map Target.turned) := by
  refine ⟨fun n small => ?_, fun records small => ?_⟩
  · exact ⟨thousandths n, Decimal.ofChars?_eq_some_iff.2 (coordinate_thousandths n).spells,
      quantize_toFloat_thousandths small⟩
  · rw [value_ofText_write]
    exact mapM_ofPoint_steps small

/-- Coordinates at both ends of the range, in a program of three records. -/
theorem requantized_largest :
    |(-1000000000000000 : Int64).toInt| ≤ 10 ^ 15 ∧
      (∃ d, Decimal.ofText? (thousandthsText (-1000000000000000)) = some d ∧
        quantize (Scalar.ofDecimal d : Float) = .ok (-1000000000000000)) ∧
      (Listing.ofText (write [.motion 1 .rapid ⟨1000000000000000, -1000000000000000⟩,
          .motion 2 .linear ⟨-1, 0⟩, .endOfProgram 3])).value.steps.mapM
          (fun step : Step Float => Target.ofPoint step.target) =
        .ok [⟨1000000000000000, 1000000000000000⟩, ⟨-1, 0⟩] := by
  refine ⟨by decide, requantized.1 _ (by decide), ?_⟩
  refine requantized.2 _ fun r mem t led => ?_
  simp only [List.mem_cons, List.not_mem_nil, or_false] at mem
  rcases mem with rfl | rfl | rfl
  · cases led
    exact ⟨by decide, by decide⟩
  · cases led
    exact ⟨by decide, by decide⟩
  · cases led

/-- Where doubles are two thousandths apart, every other coordinate is lost. -/
example : round? ((thousandths 9007199254740993).toFloat * 1000.0) = some 9007199254740992 := by
  decide +kernel

end Toolpath.Pattern
