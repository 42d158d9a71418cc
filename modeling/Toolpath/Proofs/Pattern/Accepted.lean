import Toolpath.Proofs.Decimal.Shortest
import Toolpath.Proofs.Double.Extremes
import Toolpath.Proofs.Pattern.Preview
import Toolpath.Proofs.Pattern.RoundTrip

/-!
# Which previews are accepted

On doubles, a preview is always read up to its root element, and what is drawn is never refused.
The page is, unless its width and its height are numbers above zero (`exists_result_preview_iff`).
Below `2 ^ 51` inches they are. From there on, the margin of a quarter of an inch can be lost in
rounding, and at the largest doubles the width can be beyond them all.
-/

namespace Toolpath.Pattern

open Double
open Markup (IsValue)
open Scalar (chars)

variable {x : Float} {xs : List Float} {steps : List (Step Float)}

/-! ### Numbers and what is none -/

lemma ofFloat?_of_not_finite (infinite : x.isFinite = false) : Binary.ofFloat? x = none := by
  have missing : worth? x.toModel.unpack = none := by
    refine Option.eq_none_iff_forall_ne_some.2 fun v worth => ?_
    rw [isFinite_iff.2 ⟨v, worth⟩] at infinite
    cases infinite
  rw [worth?_unpack] at missing
  exact Option.map_eq_none_iff.1 missing

/-- What is no number is written as one of three words. -/
lemma chars_of_not_finite (infinite : x.isFinite = false) :
    chars x = "NaN".toList ∨ chars x = "-inf".toList ∨ chars x = "inf".toList := by
  show (Layout.plain.float x).toList = _ ∨ (Layout.plain.float x).toList = _ ∨
    (Layout.plain.float x).toList = _
  rw [Layout.float, ofFloat?_of_not_finite infinite]
  dsimp only
  split
  · exact .inl rfl
  · split
    · exact .inr (.inl rfl)
    · exact .inr (.inr rfl)

/-- Every double can stand in a value. -/
lemma isValue_chars_double (x : Float) : IsValue (chars x) := by
  cases finite : x.isFinite with
  | true => exact isValue_chars (legible_of_isFinite finite)
  | false =>
    rcases chars_of_not_finite finite with word | word | word <;> rw [word] <;> simp [IsValue]

lemma quotable (steps : List (Step Float)) : Quotable steps :=
  ⟨isValue_chars_double _, isValue_chars_double _, isValue_chars_double _, isValue_chars_double _,
    fun _ _ => ⟨isValue_chars_double _, isValue_chars_double _⟩⟩

/-- What is no number is no length. -/
lemma extent_of_not_finite (infinite : x.isFinite = false) :
    Svg.extent (α := Float) (String.ofList (chars x ++ ['i', 'n'])) = .error .malformed := by
  rcases chars_of_not_finite infinite with word | word | word <;> rw [word] <;> rfl

/-- A number is a length, unless it is below zero. -/
lemma extent_of_isFinite (finite : x.isFinite = true) :
    Svg.extent (String.ofList (chars x ++ ['i', 'n'])) =
      if x / Svg.AbsoluteUnit.inch.perInch < 0.0 then .error .malformed
      else .ok (x / Svg.AbsoluteUnit.inch.perInch) := by
  rw [Svg.extent, coordinate_inches (legible_of_isFinite finite)]

/-! ### Bounds -/

/-- The targets along an axis; for no steps, the origin. -/
def along (f : Point Float → Float) : List (Step Float) → List Float
  | [] => [0.0]
  | step :: steps => (step :: steps).map fun step => f step.target

lemma along_ne_nil (f : Point Float → Float) (steps : List (Step Float)) :
    along f steps ≠ [] := by
  cases steps <;> simp [along]

lemma mem_along {f : Point Float → Float} {step : Step Float} (mem : step ∈ steps) :
    f step.target ∈ along f steps := by
  cases steps with
  | nil => cases mem
  | cons first steps => exact List.mem_map_of_mem mem

/-- What holds of zero and of all targets holds of all coordinates. -/
lemma forall_mem_along {f : Point Float → Float} {P : Float → Prop} (zero : P 0.0)
    (holds : ∀ step ∈ steps, P (f step.target)) : ∀ x ∈ along f steps, P x := by
  cases steps with
  | nil => exact List.forall_mem_singleton.2 zero
  | cons first steps => exact List.forall_mem_map.2 holds

/-- The bounds are those of the two coordinates, each with the margin around it. -/
lemma padded_eq (steps : List (Step Float)) :
    Bounds.padded steps =
      ⟨Scalar.least (along Point.x steps) - margin,
        Scalar.least (along Point.y steps) - margin,
        Scalar.greatest (along Point.x steps) + margin,
        Scalar.greatest (along Point.y steps) + margin⟩ := by
  cases steps with
  | cons step steps => rfl
  | nil =>
    have least : Scalar.least [(0.0 : Float)] = 0.0 := by decide +kernel
    have greatest : Scalar.greatest [(0.0 : Float)] = 0.0 := by decide +kernel
    rw [along, along, least, greatest]
    rfl

lemma worth_margin : Worth (margin : Float) (1 / 4) := by decide +kernel

/-- If the width is a number, so is every coordinate. -/
lemma isFinite_of_width (numbers : ∀ x ∈ xs, x.isNaN = false) (some : xs ≠ [])
    (finite : ((Scalar.greatest xs + margin) - (Scalar.least xs - margin)).isFinite = true) :
    (Scalar.least xs - margin).isFinite = true ∧ ∀ x ∈ xs, x.isFinite = true := by
  obtain ⟨high, low⟩ := isFinite_of_sub finite
  obtain ⟨a, least⟩ := isFinite_iff.1 (isFinite_of_sub low).1
  obtain ⟨b, greatest⟩ := isFinite_iff.1 (isFinite_of_add high).1
  refine ⟨low, fun x mem => ?_⟩
  obtain ⟨v, worth, _⟩ := exists_worth_of_between least greatest
    ((least_mem_and_le numbers some).2 x mem) ((greatest_mem_and_ge numbers some).2 x mem)
  exact isFinite_iff.2 ⟨v, worth⟩

/-- The least and the greatest of some coordinates, and what they are worth. -/
lemma exists_worth_extremes {P : ℚ → Prop} (few : ∀ x ∈ xs, ∃ v, Worth x v ∧ P v)
    (some : xs ≠ []) :
    ∃ a b, Worth (Scalar.least xs) a ∧ Worth (Scalar.greatest xs) b ∧ P a ∧ P b ∧ a ≤ b ∧
      ∀ x ∈ xs, ∃ v, Worth x v ∧ a ≤ v ∧ v ≤ b := by
  have numbers : ∀ x ∈ xs, x.isNaN = false := fun x mem =>
    let ⟨_, worth, _⟩ := few x mem
    worth.isNaN
  obtain ⟨least, below⟩ := least_mem_and_le numbers some
  obtain ⟨greatest, above⟩ := greatest_mem_and_ge numbers some
  obtain ⟨a, worthA, smallA⟩ := few _ least
  obtain ⟨b, worthB, smallB⟩ := few _ greatest
  exact ⟨a, b, worthA, worthB, smallA, smallB, (le_iff worthA worthB).1 (below _ greatest),
    fun x mem => exists_worth_of_between worthA worthB (below x mem) (above x mem)⟩

/-- Quarters are doubles as far as there are halves between the coordinates. -/
lemma isDouble_quarters {n : ℤ} (few : |n| ≤ 2 ^ 53) : IsDouble (n / 4) :=
  ⟨n, -2, few, by norm_num, by norm_num [div_eq_mul_inv]⟩

/-- Below `2 ^ 51`, an edge with the margin is at least at the quarter before it. -/
lemma exists_worth_sub_margin {a : ℚ} (worth : Worth x a) (small : |a| < 2 ^ 51) :
    ∃ l, Worth (x - margin) l ∧ |l| ≤ 2 ^ 52 ∧ l ≤ (⌈4 * a⌉ - 1 : ℤ) / 4 := by
  obtain ⟨least, most⟩ := abs_lt.1 small
  have quarters : IsDouble ((⌈4 * a⌉ - 1 : ℤ) / 4) := by
    have high : ⌈4 * a⌉ ≤ 2 ^ 53 := Int.ceil_le.2 (by push_cast; linarith)
    have low : -2 ^ 53 < ⌈4 * a⌉ := Int.lt_ceil.2 (by push_cast; linarith)
    exact isDouble_quarters (abs_le.2 ⟨by omega, by omega⟩)
  obtain ⟨l, worth', nearest, size, _⟩ := (rounds_sub worth worth_margin).exists_near
    (k := 52) (by norm_num) (by norm_num) (abs_le.2 ⟨by norm_num; linarith, by norm_num; linarith⟩)
  exact ⟨l, worth', size,
    nearest.le_of_le quarters (by push_cast; linarith [Int.le_ceil (4 * a)])⟩

lemma exists_worth_add_margin {b : ℚ} (worth : Worth x b) (small : |b| < 2 ^ 51) :
    ∃ h, Worth (x + margin) h ∧ |h| ≤ 2 ^ 52 ∧ (⌊4 * b⌋ + 1 : ℤ) / 4 ≤ h := by
  obtain ⟨least, most⟩ := abs_lt.1 small
  have quarters : IsDouble ((⌊4 * b⌋ + 1 : ℤ) / 4) := by
    have low : -2 ^ 53 ≤ ⌊4 * b⌋ := Int.le_floor.2 (by push_cast; linarith)
    have high : ⌊4 * b⌋ < 2 ^ 53 := Int.floor_lt.2 (by push_cast; linarith)
    exact isDouble_quarters (abs_le.2 ⟨by omega, by omega⟩)
  obtain ⟨h, worth', nearest, size, _⟩ := (rounds_add worth worth_margin).exists_near
    (k := 52) (by norm_num) (by norm_num) (abs_le.2 ⟨by norm_num; linarith, by norm_num; linarith⟩)
  exact ⟨h, worth', size,
    nearest.ge_of_ge quarters (by push_cast; linarith [Int.floor_le (4 * b)])⟩

/-- Where the coordinates are below `2 ^ 51`, a quarter at least is left of the margin. -/
lemma width_of_small (few : ∀ x ∈ xs, ∃ v, Worth x v ∧ |v| < 2 ^ 51) (some : xs ≠ []) :
    ∃ w, Worth ((Scalar.greatest xs + margin) - (Scalar.least xs - margin)) w ∧ 0 < w := by
  obtain ⟨a, b, worthA, worthB, smallA, smallB, order, _⟩ := exists_worth_extremes few some
  obtain ⟨l, worthL, sizeL, left⟩ := exists_worth_sub_margin worthA smallA
  obtain ⟨h, worthH, sizeH, right⟩ := exists_worth_add_margin worthB smallB
  -- The quarter before the least is before the one behind the greatest.
  have apart : (⌈4 * a⌉ - 1 : ℤ) + 1 ≤ ⌊4 * b⌋ + 1 := by
    have first := Int.ceil_lt_add_one (4 * a)
    have last := Int.lt_floor_add_one (4 * b)
    have : ((⌈4 * a⌉ : ℤ) : ℚ) < ((⌊4 * b⌋ + 2 : ℤ) : ℚ) := by
      push_cast
      linarith
    have : ⌈4 * a⌉ < ⌊4 * b⌋ + 2 := by exact_mod_cast this
    omega
  have apart : ((⌈4 * a⌉ - 1 : ℤ) : ℚ) + 1 ≤ ((⌊4 * b⌋ + 1 : ℤ) : ℚ) := by exact_mod_cast apart
  obtain ⟨leastL, mostL⟩ := abs_le.1 sizeL
  obtain ⟨leastH, mostH⟩ := abs_le.1 sizeH
  obtain ⟨w, worthW, nearest, _⟩ := (rounds_sub worthH worthL).exists_near
    (k := 54) (by norm_num) (by norm_num)
    (abs_le.2 ⟨by norm_num at *; linarith, by norm_num at *; linarith⟩)
  have quarter : IsDouble ((1 : ℤ) / 4) := isDouble_quarters (by norm_num)
  have wide := nearest.ge_of_ge quarter (by push_cast at *; linarith)
  exact ⟨w, worthW, lt_of_lt_of_le (by norm_num) wide⟩

/-! ### The page -/

/-- The sizes of some bounds are numbers above zero. -/
structure Bounds.Sized (b : Bounds Float) : Prop where
  width : (b.maxX - b.minX).isFinite = true
  wide : 0.0 < b.maxX - b.minX
  height : (b.maxY - b.minY).isFinite = true
  high : 0.0 < b.maxY - b.minY

lemma worth_inch : Worth (Svg.AbsoluteUnit.inch.perInch : Float) 1 := by decide +kernel

/-- An inch is an inch. -/
lemma worth_inches {w : ℚ} (worth : Worth x w) :
    Worth (x / Svg.AbsoluteUnit.inch.perInch) w := by
  have rounds := rounds_div worth worth_inch one_ne_zero
  rw [div_one] at rounds
  exact rounds.exact worth

/-- A number is above zero if it is not at most zero. -/
lemma zero_lt_iff (finite : x.isFinite = true) : 0.0 < x ↔ ¬ x ≤ 0.0 := by
  obtain ⟨w, worth⟩ := isFinite_iff.1 finite
  rw [lt_iff worth_zero worth, le_iff worth worth_zero, not_le]

lemma not_inches_lt (finite : x.isFinite = true) (above : 0.0 < x) :
    ¬ x / Svg.AbsoluteUnit.inch.perInch < 0.0 := by
  obtain ⟨w, worth⟩ := isFinite_iff.1 finite
  rw [lt_iff worth_zero worth] at above
  rw [lt_iff (worth_inches worth) worth_zero]
  exact above.le.not_gt

namespace Bounds

variable {b : Bounds Float}

lemma Sized.proper (sized : b.Sized) : b.Proper where
  wide := (zero_lt_iff sized.width).1 sized.wide
  high := (zero_lt_iff sized.height).1 sized.high
  width := not_inches_lt sized.width sized.wide
  height := not_inches_lt sized.height sized.high

/-- A size is read as a number, or it is malformed. -/
lemma result_dimension (which : Dimension) (x : Float) :
    (Page.dimension (α := Float) which (some (String.ofList (chars x ++ ['i', 'n'])))).result =
        .error (.length (String.ofList (chars x ++ ['i', 'n'])) .malformed) ∨
      x.isFinite = true ∧
        (Page.dimension which (some (String.ofList (chars x ++ ['i', 'n'])))).result =
          .ok (x / Svg.AbsoluteUnit.inch.perInch) := by
  cases finite : x.isFinite with
  | false =>
    rw [Page.dimension, extent_of_not_finite finite]
    exact .inl rfl
  | true =>
    have read := extent_of_isFinite finite
    by_cases below : x / Svg.AbsoluteUnit.inch.perInch < 0.0
    · rw [if_pos below] at read
      rw [Page.dimension, read]
      exact .inl rfl
    · rw [if_neg below] at read
      exact .inr ⟨rfl, Page.result_dimension read which⟩

/-- A page is refused for its sizes or for its view box, and otherwise the sizes are numbers above
zero. -/
lemma rootPage_cases (b : Bounds Float) :
    b.Sized ∨ (∃ text, (rootPage b).result = .error (.length text .malformed)) ∨
      ∃ text, (rootPage b).result = .error (.viewBox text) := by
  unfold rootPage
  rw [Page.ofRoot, Attempt.result_bind, widthChars, heightChars]
  rcases result_dimension .width (b.maxX - b.minX) with fault | ⟨width, read⟩
  · rw [fault]
    exact .inr (.inl ⟨_, rfl⟩)
  · rw [read, Except.bind_of_ok, Attempt.result_bind]
    rcases result_dimension .height (b.maxY - b.minY) with fault | ⟨height, read'⟩
    · rw [fault]
      exact .inr (.inl ⟨_, rfl⟩)
    · rw [read', Except.bind_of_ok]
      -- Sizes that are numbers are differences of numbers.
      have box := ofText?_chars (legible_of_isFinite (isFinite_of_sub width).2)
        (legible_of_isFinite (isFinite_of_sub height).2) (legible_of_isFinite width)
        (legible_of_isFinite height)
      dsimp only
      rw [viewBoxChars, box]
      by_cases none : b.maxX - b.minX ≤ 0.0 ∨ b.maxY - b.minY ≤ 0.0
      · rw [if_pos none]
        exact .inr (.inr ⟨_, rfl⟩)
      · rw [not_or, ← zero_lt_iff width, ← zero_lt_iff height] at none
        exact .inl ⟨width, none.1, height, none.2⟩

end Bounds

/-! ### The steps of a text -/

/-- No coordinate of a record is not-a-number. -/
lemma isNaN_pointOf (x y : Decimal) :
    (pointOf x y : Point Float).x.isNaN = false ∧ (pointOf x y : Point Float).y.isNaN = false := by
  have right := (isNaN_add worth_zero (rounds_toFloat x).isNaN).2
  have down := (isNaN_add worth_zero ((isNaN_neg _).trans (rounds_toFloat y).isNaN)).1
  rw [← Double.sub_eq_add_neg] at down
  exact ⟨right, down⟩

/-- A line is read as a step to the point of a record, if as a step at all. -/
lemma exists_pointOf_of_ofLine {line : Nat} {cs : List Char} {step : Step Float}
    (taken : Entry.ofLine line cs = .step step) : ∃ x y, step.target = pointOf x y := by
  unfold Entry.ofLine at taken
  split at taken
  · cases taken
  · split at taken
    · cases taken
    · split at taken <;> cases taken <;> exact ⟨_, _, rfl⟩

/-- No step of a text leads to what is not-a-number. -/
lemma isNaN_of_mem_steps {text : String} {step : Step Float}
    (mem : step ∈ (Listing.ofText text).value.steps) :
    step.target.x.isNaN = false ∧ step.target.y.isNaN = false := by
  rw [value_ofText] at mem
  obtain ⟨entry, found, taken⟩ := List.mem_filterMap.1 mem
  obtain ⟨⟨line, _⟩, here, rfl⟩ := List.mem_map.1 found
  obtain ⟨⟨cs, _⟩, _, same⟩ := List.mem_map.1 here
  cases same
  obtain ⟨x, y, target⟩ : ∃ x y, step.target = pointOf x y := by
    have isStep : Entry.ofLine line cs = .step step := by
      unfold Entry.step? at taken
      split at taken <;> cases taken
      assumption
    exact exists_pointOf_of_ofLine isStep
  rw [target]
  exact isNaN_pointOf x y

/-! ### What is accepted -/

/-- If the sizes are numbers, all numbers of the preview are. -/
lemma legible_of_sized
    (numbers : ∀ step ∈ steps, step.target.x.isNaN = false ∧ step.target.y.isNaN = false)
    (sized : (Bounds.padded steps).Sized) : Legible steps := by
  have width := sized.width
  have height := sized.height
  simp only [padded_eq] at width height
  obtain ⟨minX, xs⟩ := isFinite_of_width (forall_mem_along rfl fun step mem =>
    (numbers step mem).1) (along_ne_nil Point.x steps) width
  obtain ⟨minY, ys⟩ := isFinite_of_width (forall_mem_along rfl fun step mem =>
    (numbers step mem).2) (along_ne_nil Point.y steps) height
  refine ⟨?_, ?_, legible_of_isFinite sized.width, legible_of_isFinite sized.height,
    fun step mem => ⟨legible_of_isFinite (xs _ (mem_along mem)),
      legible_of_isFinite (ys _ (mem_along mem))⟩⟩
  · rw [padded_eq]
    exact legible_of_isFinite minX
  · rw [padded_eq]
    exact legible_of_isFinite minY

/-- Coordinates below `2 ^ 51` leave sizes above zero. -/
lemma sized_of_small
    (small : ∀ step ∈ steps, (∃ v, Worth step.target.x v ∧ |v| < 2 ^ 51) ∧
      ∃ v, Worth step.target.y v ∧ |v| < 2 ^ 51) : (Bounds.padded steps).Sized := by
  have zero : ∃ v, Worth 0.0 v ∧ |v| < 2 ^ 51 := ⟨0, worth_zero, by norm_num⟩
  obtain ⟨w, width, wide⟩ := width_of_small (forall_mem_along zero fun step mem =>
    (small step mem).1) (along_ne_nil Point.x steps)
  obtain ⟨h, height, high⟩ := width_of_small (forall_mem_along zero fun step mem =>
    (small step mem).2) (along_ne_nil Point.y steps)
  rw [padded_eq]
  exact ⟨isFinite_iff.2 ⟨w, width⟩, (lt_iff worth_zero width).2 wide,
    isFinite_iff.2 ⟨h, height⟩, (lt_iff worth_zero height).2 high⟩

/-- A preview whose sizes are not above zero is refused for its page. -/
lemma exists_result_or_fault
    (numbers : ∀ step ∈ steps, step.target.x.isNaN = false ∧ step.target.y.isNaN = false)
    (flattening : Flattening Float) :
    (Bounds.padded steps).Sized ∧
        (∃ document, (Svg.Document.ofText flattening (preview steps)).result = .ok document) ∨
      ∃ fault, (Svg.Document.ofText flattening (preview steps)).result = .error fault ∧
        ((∃ text, fault = .length text .malformed) ∨ ∃ text, fault = .viewBox text) := by
  rcases (Bounds.padded steps).rootPage_cases with sized | ⟨text, fault⟩ | ⟨text, fault⟩
  · exact .inl ⟨sized, _,
      result_ofText_preview (legible_of_sized numbers sized) sized.proper flattening⟩
  · refine .inr ⟨.length text .malformed, ?_, .inl ⟨text, rfl⟩⟩
    rw [result_ofText_preview_of_quotable (quotable steps), fault]
    rfl
  · refine .inr ⟨.viewBox text, ?_, .inr ⟨text, rfl⟩⟩
    rw [result_ofText_preview_of_quotable (quotable steps), fault]
    rfl

/-- A double between `-2 ^ 51` and `2 ^ 51`. -/
def Small (x : Float) : Prop := -2251799813685248.0 < x ∧ x < 2251799813685248.0

lemma Small.exists_worth (small : Small x) : ∃ v, Worth x v ∧ |v| < 2 ^ 51 := by
  have least : Worth (-2251799813685248.0 : Float) (-2 ^ 51) := by decide +kernel
  have most : Worth (2251799813685248.0 : Float) (2 ^ 51) := by decide +kernel
  obtain ⟨v, worth, _⟩ := exists_worth_of_between least most (le_of_lt small.1) (le_of_lt small.2)
  exact ⟨v, worth, abs_lt.2 ⟨(lt_iff least worth).1 small.1, (lt_iff worth most).1 small.2⟩⟩

/-- The preview of a text is accepted if the sizes of its page are numbers above zero, which they
are if no coordinate is too large. Otherwise these sizes or the view box are refused, and never
anything else. -/
theorem Listing.exists_result_preview_iff (text : String) (flattening : Flattening Float) :
    let steps := (Listing.ofText (α := Float) text).value.steps
    let read := (Svg.Document.ofText flattening (preview steps)).result
    ((∃ document, read = .ok document) ↔ (Bounds.padded steps).Sized) ∧
      ((∀ step ∈ steps, Small step.target.x ∧ Small step.target.y) →
        ∃ document, read = .ok document) ∧
      ∀ fault, read = .error fault →
        (∃ text, fault = .length text .malformed) ∨ ∃ text, fault = .viewBox text := by
  intro steps read
  have numbers : ∀ step ∈ steps, step.target.x.isNaN = false ∧ step.target.y.isNaN = false :=
    fun _ => isNaN_of_mem_steps
  have accepted : (Bounds.padded steps).Sized → ∃ document, read = .ok document := fun sized =>
    ⟨_, result_ofText_preview (legible_of_sized numbers sized) sized.proper flattening⟩
  refine ⟨⟨?_, accepted⟩, fun small => accepted ?_, ?_⟩
  · rintro ⟨document, ok⟩
    rcases exists_result_or_fault numbers flattening with ⟨sized, _⟩ | ⟨fault, refused, _⟩
    · exact sized
    · cases ok.symm.trans refused
  · exact sized_of_small fun step mem =>
      ⟨(small step mem).1.exists_worth, (small step mem).2.exists_worth⟩
  · intro fault refused
    rcases exists_result_or_fault numbers flattening with ⟨_, document, ok⟩ | ⟨_, refused', kinds⟩
    · cases ok.symm.trans refused
    · cases refused'.symm.trans refused
      exact kinds

/-- One vertical inch at a place of the page. -/
def upright (place : String) : String :=
  "N1G00X" ++ place ++ "Y0\r\nN2G01X" ++ place ++ "Y1\r\nN3M02\r\n"

/-- A preview near the end of the range. -/
theorem Listing.exists_result_preview_of_upright :
    ∃ document, (Svg.Document.ofText (α := Float) .standard
      (preview (Listing.ofText (α := Float) (upright "2251799813685247.5")).value.steps)).result =
        .ok document := by
  have steps : (Listing.ofText (α := Float) (upright "2251799813685247.5")).value.steps =
      [.move ⟨2251799813685247.5, 0.0⟩, .line ⟨2251799813685247.5, -1.0⟩] := by
    decide +kernel
  refine (exists_result_preview_iff (upright "2251799813685247.5") .standard).2.1 ?_
  rw [steps]
  unfold Small
  decide +kernel

/-- Beyond the range the margin is lost, and the view box is refused. -/
theorem Listing.result_preview_of_upright_beyond :
    (Svg.Document.ofText (α := Float) .standard
      (preview (Listing.ofText (α := Float) (upright "2251799813685249")).value.steps)).result =
        .error (.viewBox "2251799813685249 -1.25 0 1.5") := by
  have steps : (Listing.ofText (α := Float) (upright "2251799813685249")).value.steps =
      [.move ⟨2251799813685249.0, 0.0⟩, .line ⟨2251799813685249.0, -1.0⟩] := by
    decide +kernel
  rw [steps, result_ofText_preview_of_quotable (quotable _)]
  decide +kernel

end Toolpath.Pattern
