import Toolpath.Proofs.Clipping.Drift
import Toolpath.Proofs.Conversion.Emission
import Toolpath.Proofs.Double.Whole

/-!
# Programs stay near the page

With the standard options a motion may leave the page, by the rounding of crossings: by about one
thousandth for every million million inches that the drawing reaches away from the origin, and not
more (`Conversion.target_near_page`). A drawing that stays within half of that does not leave it:
there the drift of clipping and the tolerance together are below half a thousandth, and rounding
undoes them (`Conversion.target_on_page`). Further out a crossing can come to lie off the page
(`Conversion.target_off_page`).
-/

namespace Toolpath

open Double

/-! ### Rounding to thousandths -/

variable {n : ℕ} {x : Float} {N : ℤ} {hi W : ℚ}

/-- Thousandths of a coordinate are rounded before they are counted. -/
lemma exists_thousandths (range : n ≤ 900) (within : Within (-16 * grain n) hi x)
    (high : hi ≤ reach n + 5 * unit n) (counted : Scalar.nearest? (x * 1000.0) = some N) :
    ∃ v X, -16 * grain n ≤ v ∧ v ≤ hi ∧ Nearest X (v * 1000) ∧
      |X - v * 1000| ≤ 1024 * grain n ∧ N = roundAway X := by
  obtain ⟨v, worth, above, below⟩ := within
  have thousand : Worth (1000.0 : Float) 1000 := by decide +kernel
  obtain ⟨positive, inch, wide, _, _⟩ := sizes n
  obtain ⟨power, _, grain₁, _⟩ := powers n
  have power' : (2 : ℚ) ^ (49 + n) = 1024 * (2 ^ 54 * grain n) := by
    rw [← power, show 49 + n = 10 + (39 + n) by omega, pow_add 2 10]
    norm_num
  have error : (2 : ℚ) ^ (((49 + n : ℕ) : ℤ) - 54) = 1024 * grain n := by
    rw [← grain₁, show ((49 + n : ℕ) : ℤ) - 54 = 10 + (((39 + n : ℕ) : ℤ) - 54) by omega,
      zpow_add₀ two_ne_zero 10]
    norm_num
  obtain ⟨X, worth', nearest, _, near⟩ := (rounds_mul worth thousand).exists_near (by omega)
    (by omega) (abs_le_two_pow (49 + n) (by linarith) (by linarith))
  rw [error] at near
  exact ⟨v, X, above, below, nearest, near,
    Option.some.inj (counted.symm.trans (nearest?_of_worth worth'))⟩

/-- Half of a power of two, rounded down. -/
lemma le_half (n : ℕ) : ((2 : ℚ) ^ n - 1) / 2 ≤ ((2 ^ n / 2 : ℤ) : ℚ) := by
  have whole : (2 ^ n : ℤ) ≤ 2 * (2 ^ n / 2) + 1 := by omega
  have whole : ((2 ^ n : ℤ) : ℚ) ≤ ((2 * (2 ^ n / 2) + 1 : ℤ) : ℚ) := by exact_mod_cast whole
  push_cast at whole ⊢
  linarith

/-- Sixteen grains below zero are less than half a thousandth. -/
lemma le_of_nearest? (range : n ≤ 900) (within : Within (-16 * grain n) hi x)
    (high : hi ≤ reach n + 5 * unit n) (counted : Scalar.nearest? (x * 1000.0) = some N) :
    -(2 ^ n / 2) ≤ N := by
  obtain ⟨v, X, above, _, nearest, _, rfl⟩ := exists_thousandths range within high counted
  obtain ⟨positive, inch, _, _, _⟩ := sizes n
  have double : IsDouble ((-16000 : ℤ) * grain n) := isDouble_grains (by norm_num)
  have least : ((-16000 : ℤ) * grain n) ≤ X := nearest.ge_of_ge double (by push_cast; linarith)
  have half := le_half n
  rw [unit] at inch
  apply le_roundAway
  push_cast at least half ⊢
  linarith

/-- The tolerance and nine grains are less than half a thousandth. -/
lemma le_ceil_of_nearest? (range : n ≤ 900) (within : Within (-16 * grain n) hi x)
    (high : hi ≤ reach n + 5 * unit n) (limit : hi ≤ W + tolerance + 9 * grain n)
    (counted : Scalar.nearest? (x * 1000.0) = some N) : N ≤ ⌈1000 * W⌉ + 2 ^ n / 2 := by
  obtain ⟨v, X, _, below, _, near, rfl⟩ := exists_thousandths range within high counted
  obtain ⟨positive, inch, _, _, little⟩ := sizes n
  have whole := Int.le_ceil (1000 * W)
  have half := le_half n
  have := (abs_le.1 near).2
  rw [unit] at inch
  apply roundAway_le
  push_cast at half ⊢
  linarith

namespace Conversion

/-- No motion leaves the page by more than half of `2 ^ n` thousandths, if the drawing lies within
half a million million inches, doubled `n` times. -/
theorem target_near_page (range : n ≤ 900) {text : String} {c : Conversion Float}
    {document : Svg.Document Float} (accepted : (convert .standard text).result = .ok c)
    (read : (Svg.Document.ofText .standard text).result = .ok document)
    (within : Everywhere (fun p => Within (-reach n) (reach n) p.x ∧
      Within (-reach n) (reach n) p.y) document.polylines)
    {line : UInt32} {kind : Pattern.Motion} {target : Pattern.Target}
    (mem : .motion line kind target ∈ c.records) :
    -(2 ^ n / 2) ≤ target.x.toInt ∧ -(2 ^ n / 2) ≤ target.y.toInt ∧
      (∀ W, Worth c.page.width W → target.x.toInt ≤ ⌈1000 * W⌉ + 2 ^ n / 2) ∧
      ∀ H, Worth c.page.height H → target.y.toInt ≤ ⌈1000 * H⌉ + 2 ^ n / 2 := by
  obtain ⟨document', program, read', written, parts⟩ := exists_parts accepted
  obtain rfl := Except.ok.inj (read'.symm.trans read)
  rw [parts] at mem written ⊢
  obtain ⟨right, top, near, near', right_le, top_le, clipped⟩ :=
    document'.page.everywhere_clip range within
  obtain ⟨l, drawn, p, on, found⟩ := Pattern.exists_point_of_mem_records written mem
  obtain ⟨hx, hy⟩ := clipped l drawn p on
  obtain ⟨countedX, countedY⟩ := Pattern.nearest_of_ofPoint found
  exact ⟨le_of_nearest? range hx near countedX, le_of_nearest? range hy near' countedY,
    fun W worth => le_ceil_of_nearest? range hx near (right_le W worth) countedX,
    fun H worth => le_ceil_of_nearest? range hy near' (top_le H worth) countedY⟩

/-- No motion leaves the page, if the drawing lies within half a million million inches. -/
theorem target_on_page {text : String} {c : Conversion Float} {document : Svg.Document Float}
    (accepted : (convert .standard text).result = .ok c)
    (read : (Svg.Document.ofText .standard text).result = .ok document)
    (bounded : Everywhere (fun p => (-500000000000.0 ≤ p.x ∧ p.x ≤ 500000000000.0) ∧
      -500000000000.0 ≤ p.y ∧ p.y ≤ 500000000000.0) document.polylines)
    {line : UInt32} {kind : Pattern.Motion} {target : Pattern.Target}
    (mem : .motion line kind target ∈ c.records) :
    0 ≤ target.x.toInt ∧ 0 ≤ target.y.toInt ∧
      (∀ W, Worth c.page.width W → target.x.toInt ≤ ⌈1000 * W⌉) ∧
      ∀ H, Worth c.page.height H → target.y.toInt ≤ ⌈1000 * H⌉ := by
  have least : Worth (-500000000000.0 : Float) (-reach 0) := by decide +kernel
  have most : Worth (500000000000.0 : Float) (reach 0) := by decide +kernel
  have within : Everywhere (fun p => Within (-reach 0) (reach 0) p.x ∧
      Within (-reach 0) (reach 0) p.y) document.polylines :=
    bounded.mono fun p ⟨⟨left, right⟩, bottom, top⟩ =>
      ⟨exists_worth_of_between least most left right,
        exists_worth_of_between least most bottom top⟩
  simpa using target_near_page (Nat.zero_le 900) accepted read within mem

/-- One path on a page of one inch, in inches. -/
def onePath (data : String) : String :=
  "<svg width=\"1in\" height=\"1in\" viewBox=\"0 0 1 1\"><path d=\"" ++ data ++ "\"/></svg>"

/-- A line from one end of the reach to the other is cut off at the edges of the page. -/
theorem target_on_page_of_long_line :
    (convert .standard (onePath "M-5e11 .3L4.9e11 .7")).result =
      .ok (⟨⟨1.0, 1.0⟩,
        [[⟨-0.00006103515625, 0.497979797979798⟩, ⟨1.0001, 0.4979797979793939⟩]],
        [.motion 1 .rapid ⟨0, 498⟩, .motion 2 .linear ⟨1000, 498⟩, .endOfProgram 3],
        ⟨1, 2⟩, ⟨1, 2⟩, ⟨1, 2⟩⟩ : Conversion Float) ∧
    (Svg.Document.ofText .standard (onePath "M-5e11 .3L4.9e11 .7")).result =
      .ok (⟨⟨1.0, 1.0⟩,
        [[⟨-500000000000.0, 0.7⟩, ⟨490000000000.0, 0.30000000000000004⟩]]⟩ : Svg.Document Float) ∧
    0 ≤ (1000 : Int64).toInt ∧ 0 ≤ (498 : Int64).toInt ∧
      (∀ W, Worth 1.0 W → (1000 : Int64).toInt ≤ ⌈1000 * W⌉) ∧
      ∀ H, Worth 1.0 H → (498 : Int64).toInt ≤ ⌈1000 * H⌉ := by
  have motion : Pattern.Record.motion 2 .linear ⟨1000, 498⟩ ∈
      [.motion 1 .rapid ⟨0, 498⟩, .motion 2 .linear ⟨1000, 498⟩, .endOfProgram 3] := by decide
  refine (fun accepted read =>
    ⟨accepted, read, target_on_page accepted read (by decide +kernel) motion⟩ : _ → _ → _) ?_ ?_
  · exact Except.eq_ok_of_toOption (by decide +kernel)
  · exact Except.eq_ok_of_toOption (by decide +kernel)

/-- Between points a hundred times as far away, a crossing lies off the page by eight
thousandths. -/
theorem target_off_page :
    (convert .standard (onePath "M-6e13 .5H5e13")).result =
      .ok (⟨⟨1.0, 1.0⟩, [[⟨-0.0078125, 0.5⟩, ⟨1.0001, 0.5⟩]],
        [.motion 1 .rapid ⟨-8, 500⟩, .motion 2 .linear ⟨1000, 500⟩, .endOfProgram 3],
        ⟨1, 2⟩, ⟨1, 2⟩, ⟨1, 2⟩⟩ : Conversion Float) ∧
    (-8 : Int64).toInt < 0 :=
  ⟨Except.eq_ok_of_toOption (by decide +kernel), by decide⟩

-- Eight times the reach is enough for one thousandth.
example :
    (convert .standard (onePath "M-3964205326573.4048 .5H686599737606.4579")).result.toOption.map
      (fun c : Conversion Float => c.records) =
    some [.motion 1 .rapid ⟨-1, 500⟩, .motion 2 .linear ⟨1000, 500⟩, .endOfProgram 3] := by
  decide +kernel

end Conversion

end Toolpath
