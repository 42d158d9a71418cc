import Toolpath.Proofs.Double.Numeral
import Toolpath.Proofs.Pattern.Lines

/-!
# Reading what was written

A written program is read back without an issue, one step for each motion
(`Listing.ofText_write`). Its lines come apart again because no record has a line end in it, and
each of them has the form of what it was written from.
-/

namespace Toolpath.Pattern

open Text (isDecimalDigit_of_isDigit)
open Decimal (Digits InNumeral Significand digitsFrom)

/-! ### Lines -/

/-- A line is read up to its line feed. -/
lemma splitLines_append {cs : List Char} (one : ∀ c ∈ cs, c ≠ '\n') (before rest : List Char) :
    splitLines before (cs ++ '\n' :: rest) = (before.reverse ++ cs) :: splitLines [] rest := by
  -- `before` holds what was read of the line, last character first.
  induction cs generalizing before with
  | nil => simp [splitLines]
  | cons c cs ih =>
    have other : c ≠ '\n' := one c List.mem_cons_self
    rw [List.cons_append, splitLines]
    · rw [ih fun c mem => one c (List.mem_cons_of_mem _ mem)]
      simp
    · exact other

/-- Lines that were ended one by one come apart again. -/
lemma splitLines_flatMap {lines : List (List Char)} (one : ∀ cs ∈ lines, ∀ c ∈ cs, c ≠ '\n') :
    splitLines [] (lines.flatMap (· ++ ['\r', '\n'])) = lines.map (· ++ ['\r']) := by
  induction lines with
  | nil => rfl
  | cons cs lines ih =>
    have first : ∀ c ∈ cs ++ ['\r'], c ≠ '\n' := by
      intro c mem
      rcases List.mem_append.1 mem with mem | ending
      · exact one cs List.mem_cons_self c mem
      · rw [List.mem_singleton.1 ending]
        decide
    have others := ih fun cs mem => one cs (List.mem_cons_of_mem _ mem)
    have line := splitLines_append first [] (lines.flatMap (· ++ ['\r', '\n']))
    rw [others] at line
    simpa using line

/-- A carriage return is cut off, if none stands before it. -/
lemma dropEndWhile_append_return {cs : List Char} (none : ∀ c ∈ cs, c ≠ '\r') :
    Text.dropEndWhile (· == '\r') (cs ++ ['\r']) = cs := by
  have kept : Text.dropEndWhile (· == '\r') cs = cs :=
    Text.dropEndWhile_eq_self fun c last => by simpa using none c (List.mem_of_getLast? last)
  simpa [Text.dropEndWhile] using kept

/-! ### Numbers -/

lemma significand_sizeText (size : ℕ) : Significand (sizeText size) size 3 := by
  have small : size % 1000 < 1000 := Nat.mod_lt _ (by decide)
  have number : digitsFrom 0
      (Nat.toDigits 10 (size / 1000) ++ (threeDigits (size % 1000)).toList) = size := by
    rw [Decimal.digitsFrom_append, digitsFrom_toDigits, digitsFrom_threeDigits _ small]
    exact Nat.div_add_mod size 1000
  have parts : Significand (sizeText size) _ _ :=
    .point (by simp [Nat.toDigits_ne_nil]) (all_isDigit_toDigits _) (all_isDigit_threeDigits _)
  rwa [number, length_threeDigits small] at parts

/-- Thousandths are written as the coordinate they are. -/
lemma coordinate_thousandths (n : Int64) :
    Coordinate (thousandthsText n).toList (thousandths n) := by
  have size := significand_sizeText n.toInt.natAbs
  rw [toList_thousandthsText, thousandths]
  by_cases negative : n.toInt < 0
  case pos =>
    rw [if_pos negative, decide_eq_true negative]
    exact .negative size
  case neg =>
    rw [if_neg negative, decide_eq_false negative]
    exact .unsigned size

lemma isLineNumber_toDigits (n : ℕ) : IsLineNumber (Nat.toDigits 10 n) :=
  ⟨Nat.toDigits_ne_nil, fun c mem => isDecimalDigit_of_isDigit (all_isDigit_toDigits n c mem)⟩

/-! ### Records -/

lemma toList_text_motion (line : UInt32) (kind : Motion) (target : Target) :
    (Record.motion line kind target).text.toList =
      'N' :: (Nat.toDigits 10 line.toNat ++ (kind.code.toList ++ 'X' ::
        ((thousandthsText target.x).toList ++ 'Y' :: (thousandthsText target.y).toList))) := by
  simp [Record.text, Target.text]

lemma toList_text_endOfProgram (line : UInt32) :
    (Record.endOfProgram line).text.toList =
      'N' :: (Nat.toDigits 10 line.toNat ++ ['M', '0', '2']) := by
  simp [Record.text]

lemma ne_of_inNumeral {c : Char} (h : InNumeral c) : c ≠ '\n' ∧ c ≠ '\r' := by
  constructor <;>
    · rintro rfl
      simp [InNumeral] at h

/-- No character of a record ends a line. -/
lemma ne_of_mem_text (r : Record) : ∀ c ∈ r.text.toList, c ≠ '\n' ∧ c ≠ '\r' := by
  have digits (n : ℕ) : ∀ c ∈ Nat.toDigits 10 n, c ≠ '\n' ∧ c ≠ '\r' := fun c mem =>
    ne_of_inNumeral (.inl (all_isDigit_toDigits n c mem))
  have number (n : Int64) : ∀ c ∈ (thousandthsText n).toList, c ≠ '\n' ∧ c ≠ '\r' := fun c mem =>
    ne_of_inNumeral ((coordinate_thousandths n).spells.inNumeral c mem)
  intro c mem
  cases r with
  | motion line kind target =>
    simp only [toList_text_motion, List.mem_cons, List.mem_append] at mem
    rcases mem with rfl | line | code | rfl | x | rfl | y
    · decide
    · exact digits _ c line
    · cases kind with
      | rapid =>
        rcases (by simpa [Motion.code] using code : c = 'G' ∨ c = '0') with rfl | rfl <;> decide
      | linear =>
        rcases (by simpa [Motion.code] using code : c = 'G' ∨ c = '0' ∨ c = '1') with
          rfl | rfl | rfl <;> decide
    · decide
    · exact number _ c x
    · decide
    · exact number _ c y
  | endOfProgram line =>
    simp only [toList_text_endOfProgram, List.mem_cons, List.mem_append] at mem
    rcases mem with rfl | line | rfl | rfl | rfl | never
    · decide
    · exact digits _ c line
    · decide
    · decide
    · decide
    · cases never

/-- The lines of a written program are the texts of its records. -/
lemma textLines_write (records : List Record) :
    textLines (write records) = records.map fun r => r.text.toList := by
  have joined : (write records).toList =
      (records.map fun r => r.text.toList).flatMap (· ++ ['\r', '\n']) := by
    simp [write, lineEnd, List.flatMap_map]
  have one : ∀ cs ∈ records.map fun r => r.text.toList, ∀ c ∈ cs, c ≠ '\n' := by
    intro cs mem c
    obtain ⟨r, _, rfl⟩ := List.mem_map.1 mem
    exact fun mem => (ne_of_mem_text r c mem).1
  rw [textLines, joined, splitLines_flatMap one, List.map_map, List.map_map]
  refine List.map_congr_left fun r _ => ?_
  exact dropEndWhile_append_return fun c mem => (ne_of_mem_text r c mem).2

def Motion.number : Motion → Nat
  | .rapid => 0
  | .linear => 1

/-- The step of a motion. -/
def Motion.step {α : Type} : Motion → Point α → Step α
  | .rapid => .move
  | .linear => .line

/-- A motion is written in the form of motions. -/
lemma isMotion_text (line : UInt32) (kind : Motion) (target : Target) :
    IsMotion (Record.motion line kind target).text.toList kind.number
      (thousandths target.x) (thousandths target.y) := by
  have plain : Digits ['0', '0'] ∧ Digits ['0', '1'] :=
    ⟨List.all_eq_true.1 (by decide), List.all_eq_true.1 (by decide)⟩
  have lineNumber := isLineNumber_toDigits line.toNat
  have x := coordinate_thousandths target.x
  have y := coordinate_thousandths target.y
  rw [toList_text_motion]
  cases kind with
  | rapid => exact .form lineNumber (List.cons_ne_nil _ _) plain.1 x y
  | linear => exact .form lineNumber (List.cons_ne_nil _ _) plain.2 x y

lemma isEnd_text (line : UInt32) : IsEnd (Record.endOfProgram line).text.toList := by
  rw [toList_text_endOfProgram]
  exact .form (isLineNumber_toDigits line.toNat)

variable {α : Type} [Scalar α]

/-- The step that a record is read as; the end of a program is none. -/
def Record.step? : Record → Option (Step α)
  | .motion _ kind target =>
    some (kind.step (pointOf (thousandths target.x) (thousandths target.y)))
  | .endOfProgram _ => none

def Record.entry (r : Record) : Entry α :=
  match (r.step? : Option (Step α)) with
  | some step => .step step
  | none => .endOfProgram

/-- A written record says what it is, on every line. -/
lemma told_text (line : ℕ) (r : Record) : Says line r.text.toList (r.entry : Entry α) := by
  cases r with
  | motion number kind target =>
    have motion := isMotion_text number kind target
    cases kind with
    | rapid => exact .move motion
    | linear => exact .line motion
  | endOfProgram number => exact .endOfProgram (isEnd_text number)

/-- The lines of a written program are read as its records. -/
lemma map_snd_entries_write (records : List Record) :
    (entries (write records) : List (Nat × Entry α)).map Prod.snd =
      records.map Record.entry := by
  rw [entries, textLines_write]
  generalize 1 = first
  induction records generalizing first with
  | nil => rfl
  | cons r records ih =>
    simp only [List.map_cons, List.zipIdx_cons, (told_text _ r).ofLine_eq, List.cons.injEq,
      true_and]
    exact ih (first + 1)

def Entry.step? : Entry α → Option (Step α)
  | .step taken => some taken
  | _ => none

def Entry.issue? : Entry α → Option Issue
  | .issue found => some found
  | _ => none

lemma value_ofText (text : String) :
    (Listing.ofText text : Logged (Diagnostic α) (Listing α)).value =
      ⟨((entries text).map Prod.snd).filterMap Entry.step?,
        ((entries text).map Prod.snd).filterMap (Entry.issue? (α := α))⟩ := by
  rw [List.filterMap_map, List.filterMap_map]
  rfl

/-- A written program is read without an issue, with the steps of its motions in order. -/
lemma value_ofText_write (records : List Record) :
    (Listing.ofText (write records)).value =
      (⟨records.filterMap Record.step?, []⟩ : Listing α) := by
  have step : Entry.step? ∘ Record.entry = (Record.step? : Record → Option (Step α)) := by
    funext r
    cases r <;> rfl
  have issue (r : Record) : (Entry.issue? ∘ Record.entry (α := α)) r = none := by
    cases r <;> rfl
  rw [value_ofText, map_snd_entries_write, List.filterMap_map, List.filterMap_map, step,
    List.filterMap_eq_nil_iff.2 fun r _ => issue r]

/-! ### Coordinates as doubles -/

open Double (IsDouble Nearest Worth rounds_add rounds_sub rounds_toFloat worth_neg)

/-- A number of thousandths stands for itself over a thousand. -/
lemma toRat_thousandths (n : Int64) : (thousandths n).toRat = n.toInt / 1000 := by
  simp only [Decimal.toRat, thousandths, decide_eq_true_eq]
  have size : ((n.toInt.natAbs : ℕ) : ℚ) = |(n.toInt : ℚ)| := by
    rw [Nat.cast_natAbs, Int.cast_abs]
  rw [size]
  split
  case isTrue negative =>
    have : (n.toInt : ℚ) < 0 := by exact_mod_cast negative
    rw [abs_of_neg this]
    norm_num
    ring
  case isFalse positive =>
    have : (0 : ℚ) ≤ n.toInt := by exact_mod_cast not_lt.1 positive
    rw [abs_of_nonneg this]
    norm_num
    ring

/-- A number of thousandths is read as a nearest double, and only zero as zero. -/
lemma worth_thousandths (n : Int64) :
    ∃ v, Worth (thousandths n).toFloat v ∧ Nearest v (n.toInt / 1000) ∧
      (v = 0 ↔ n.toInt = 0) := by
  have rounds := rounds_toFloat (thousandths n)
  rw [toRat_thousandths] at rounds
  have large : IsDouble (2 ^ (63 : ℤ)) := ⟨1, 63, by norm_num, by norm_num, by simp⟩
  have within : |(n.toInt / 1000 : ℚ)| ≤ 2 ^ (63 : ℤ) := by
    have low : (-2 ^ 63 : ℚ) ≤ n.toInt := by exact_mod_cast n.le_toInt
    have high : (n.toInt : ℚ) < 2 ^ 63 := by exact_mod_cast n.toInt_lt
    rw [abs_le]
    constructor <;> norm_num at low high ⊢ <;> linarith
  obtain ⟨v, worth, nearest⟩ := rounds.exists_worth large within
    (zpow_lt_zpow_right₀ (by norm_num) (by norm_num))
  refine ⟨v, worth, nearest, ?_, ?_⟩
  · -- A thousandth is above a double other than zero.
    rintro rfl
    have step : IsDouble (2 ^ (-10 : ℤ)) := ⟨1, -10, by norm_num, by norm_num, by simp⟩
    have positive : (0 : ℚ) < 2 ^ (-10 : ℤ) := by positivity
    rcases lt_trichotomy n.toInt 0 with negative | zero | positive'
    · have : (n.toInt : ℚ) ≤ -1 := by exact_mod_cast Int.le_sub_one_of_lt negative
      have := nearest.le_of_le step.neg (by norm_num; linarith)
      linarith
    · exact zero
    · have : (1 : ℚ) ≤ n.toInt := by exact_mod_cast positive'
      have := nearest.ge_of_ge step (by norm_num; linarith)
      linarith
  · intro zero
    rw [zero, Int.cast_zero, zero_div] at nearest
    exact nearest.eq_of_isDouble Double.isDouble_zero

lemma worth_zero : Worth 0.0 0 := by
  decide +kernel

lemma worth_negative_zero : Worth (-0.0) 0 := by
  decide +kernel

/-- Zero minus a double is the double turned over, without rounding. -/
lemma worth_zero_sub {x : Float} {v : ℚ} (worth : Worth x v) : Worth (0.0 - x) (-v) := by
  have difference := rounds_sub worth_zero worth
  rw [zero_sub] at difference
  exact difference.exact (worth_neg worth)

lemma toFloat_thousandths_of_zero {n : Int64} (zero : n.toInt = 0) :
    (thousandths n).toFloat = 0.0 := by
  have numeral : thousandths n = ⟨false, 0, -3⟩ := by simp [thousandths, zero]
  rw [numeral]
  decide +kernel

/-- Adding zero to a coordinate does nothing, and a coordinate is not minus zero. -/
lemma add_zero_thousandths (n : Int64) :
    (thousandths n).toFloat + 0.0 = (thousandths n).toFloat ∧
      (thousandths n).toFloat ≠ -0.0 := by
  obtain ⟨v, worth, nearest, zero⟩ := worth_thousandths n
  by_cases none : n.toInt = 0
  · rw [toFloat_thousandths_of_zero none]
    decide +kernel
  · have nonzero : v ≠ 0 := fun same => none (zero.1 same)
    have sum := rounds_add worth worth_zero
    rw [add_zero] at sum
    have same := sum.worth_of_isDouble worth.isDouble worth.abs_lt
    refine ⟨same.eq_of_ne_zero worth nonzero, fun minus => nonzero ?_⟩
    exact worth.unique (minus ▸ worth_negative_zero)

/-- A coordinate that is turned over is not minus zero. -/
lemma zero_sub_thousandths_ne (n : Int64) : 0.0 - (thousandths n).toFloat ≠ -0.0 := by
  obtain ⟨v, worth, nearest, zero⟩ := worth_thousandths n
  by_cases none : n.toInt = 0
  · rw [toFloat_thousandths_of_zero none]
    decide +kernel
  · have nonzero : v ≠ 0 := fun same => none (zero.1 same)
    intro minus
    have := (worth_zero_sub worth).unique (minus ▸ worth_negative_zero)
    exact nonzero (neg_eq_zero.1 this)

/-- The step of a record, with the doubles that are read for its coordinates. -/
def Record.reading? : Record → Option (Step Float)
  | .motion _ kind target =>
    some (kind.step ⟨(thousandths target.x).toFloat, 0.0 - (thousandths target.y).toFloat⟩)
  | .endOfProgram _ => none

/-- A written program is read back without an issue: one step for each motion, in order, with the
nearest double to its `x` and zero minus the nearest double to its `y`, neither of them minus
zero. -/
theorem Listing.ofText_write (records : List Record) :
    (Listing.ofText (write records)).value = ⟨records.filterMap Record.reading?, []⟩ ∧
      (∀ step ∈ records.filterMap Record.reading?,
        step.target.x ≠ -0.0 ∧ step.target.y ≠ -0.0) ∧
      ∀ n, ∃ v, Worth (thousandths n).toFloat v ∧ Nearest v (n.toInt / 1000) := by
  refine ⟨?_, ?_, fun n => ?_⟩
  · rw [value_ofText_write]
    have same : (Record.step? : Record → Option (Step Float)) = Record.reading? := by
      funext r
      cases r with
      | motion line kind target =>
        simp only [Record.step?, Record.reading?, pointOf]
        congr 2
        exact congrArg (Point.mk · _) (add_zero_thousandths target.x).1
      | endOfProgram line => rfl
    rw [same]
  · intro step mem
    obtain ⟨r, _, read⟩ := List.mem_filterMap.1 mem
    cases r with
    | motion line kind target =>
      obtain rfl := Option.some.inj read
      have x := (add_zero_thousandths target.x).2
      have y := zero_sub_thousandths_ne target.y
      cases kind <;> exact ⟨x, y⟩
    | endOfProgram line => cases read
  · obtain ⟨v, worth, nearest, _⟩ := worth_thousandths n
    exact ⟨v, worth, nearest⟩

end Toolpath.Pattern
