import Toolpath.Proofs.Clipping.Region
import Toolpath.Proofs.Pattern.Preview
import Toolpath.Proofs.Transform.Arguments

/-!
# What a page shows

With exact arithmetic a page shows its view box: the rectangle of the box is laid over the page,
upside down. A page without a view box shows as many user units as its inches have, so it is the
same page as with a view box that says so, whatever unit its sizes are written in
(`Page.ofRoot_shows`).

That there is such a view box takes an argument: the user units of a length have to be a decimal
again, which they are since each unit is a decimal number of user units.
-/

namespace Toolpath

/-! ### Products of numerals -/

namespace Decimal

/-- The numeral of a product. -/
def times (d e : Decimal) : Decimal :=
  ⟨xor d.negative e.negative, d.digits * e.digits, d.exponent + e.exponent⟩

lemma toReal_times (d e : Decimal) : (d.times e).toReal = d.toReal * e.toReal := by
  have sign : (if (xor d.negative e.negative) = true then -1 else 1 : ℝ) =
      (if d.negative = true then -1 else 1) * if e.negative = true then -1 else 1 := by
    cases d.negative <;> cases e.negative <;> norm_num
  rw [times, toReal, toReal, toReal, sign, zpow_add₀ (by norm_num), Nat.cast_mul]
  ring

end Decimal

namespace Svg

open Decimal (Ends)

variable {text : String}

/-! ### Lengths in user units -/

/-- A unit is a decimal number of user units. -/
lemma AbsoluteUnit.exists_decimal (unit : AbsoluteUnit) :
    ∃ d : Decimal, d.toReal = 90 / (unit.perInch : ℝ) := by
  cases unit with
  | user => exact ⟨⟨false, 1, 0⟩, by norm_num [Decimal.toReal, perInch, userUnitsPerInch]⟩
  | point => exact ⟨⟨false, 125, -2⟩, by norm_num [Decimal.toReal, perInch, userUnitsPerInch]⟩
  | pica => exact ⟨⟨false, 15, 0⟩, by norm_num [Decimal.toReal, perInch, userUnitsPerInch]⟩
  | centimetre =>
    exact ⟨⟨false, 3543307, -5⟩, by norm_num [Decimal.toReal, perInch, userUnitsPerInch]⟩
  | millimetre =>
    exact ⟨⟨false, 3543307, -6⟩, by norm_num [Decimal.toReal, perInch, userUnitsPerInch]⟩
  | inch => exact ⟨⟨false, 90, 0⟩, by norm_num [Decimal.toReal, perInch]⟩

/-- What is read as a number is a decimal. -/
lemma exists_decimal_of_number {length : ℕ} {cs rest : List Char} {x : ℝ}
    (read : number length cs = .ok (x, rest)) : ∃ d : Decimal, d.toReal = x := by
  rw [number] at read
  split at read
  next => cases read
  next d rest found =>
    cases read
    exact ⟨d, rfl⟩

/-- The user units of a length are a decimal. -/
lemma exists_decimal_of_coordinate {x : ℝ} (read : coordinate text = .ok x) :
    ∃ d : Decimal, d.toReal = 90 * x := by
  rw [coordinate] at read
  split at read
  next => cases read
  next y rest number =>
    obtain ⟨d, rfl⟩ := exists_decimal_of_number number
    split at read
    next => cases read
    next => cases read
    next unit known =>
      cases read
      obtain ⟨e, size⟩ := unit.exists_decimal
      refine ⟨d.times e, ?_⟩
      rw [Decimal.toReal_times, size]
      ring

/-- A size is not negative. -/
lemma extent_eq_ok {x : ℝ} (read : extent text = .ok x) : coordinate text = .ok x ∧ 0 ≤ x := by
  rw [extent] at read
  cases inches : (coordinate text : Except LengthFault ℝ) with
  | error fault =>
    rw [inches] at read
    cases read
  | ok y =>
    rw [inches] at read
    dsimp only at read
    split at read
    case isTrue => cases read
    case isFalse positive =>
      cases read
      refine ⟨rfl, ?_⟩
      norm_num at positive
      exact positive

/-- A numeral with a unit is read as its inches. -/
lemma extent_of_isNumeral {n symbol : List Char} {x : ℝ} {unit : AbsoluteUnit}
    (numeral : IsNumeral n x) (whole : Text.trim text.toList = n ++ symbol) (ends : Ends symbol)
    (known : LengthUnit.ofChars? symbol = some (.absolute unit)) (positive : 0 ≤ x / unit.perInch) :
    extent text = .ok (x / unit.perInch) := by
  have read := number_of_isNumeral numeral ends rfl (n ++ symbol).length
  have below : ¬ x / unit.perInch < 0.0 := by
    norm_num
    exact positive
  have inches : coordinate text = .ok (x / unit.perInch) := by
    rw [coordinate, whole, read]
    dsimp only
    rw [known]
  rw [extent, inches]
  exact if_neg below

/-! ### View boxes -/

namespace ViewBox

/-- The points of a view box. -/
def region (box : ViewBox ℝ) : Set (Point ℝ) :=
  {p | (box.x ≤ p.x ∧ p.x ≤ box.x + box.width) ∧ (box.y ≤ p.y ∧ p.y ≤ box.y + box.height)}

/-- The sizes of a view box are above zero. -/
lemma pos_of_ofText? {box : ViewBox ℝ} (read : ofText? text = some box) :
    0 < box.width ∧ 0 < box.height := by
  rw [ofText?] at read
  split at read
  next => cases read
  next =>
    obtain ⟨sizes, same⟩ := Option.ite_none_left_eq_some.1 read
    cases same
    norm_num at sizes
    exact sizes

/-- Every view box of decimals can be written. -/
lemma exists_text {x y w h : ℝ} (dx : ∃ d : Decimal, d.toReal = x)
    (dy : ∃ d : Decimal, d.toReal = y) (dw : ∃ d : Decimal, d.toReal = w)
    (dh : ∃ d : Decimal, d.toReal = h) (wide : 0 < w) (high : 0 < h) :
    ∃ text, ofText? text = some (⟨x, y, w, h⟩ : ViewBox ℝ) := by
  obtain ⟨dx, rfl⟩ := dx
  obtain ⟨dy, rfl⟩ := dy
  obtain ⟨dw, rfl⟩ := dw
  obtain ⟨dh, rfl⟩ := dh
  have sizes : ¬ (dw.toReal ≤ 0.0 ∨ dh.toReal ≤ 0.0) := by
    norm_num
    exact ⟨wide, high⟩
  exact ⟨_, (Pattern.ofText?_chars (Exact.legible_toReal dx) (Exact.legible_toReal dy)
    (Exact.legible_toReal dw) (Exact.legible_toReal dh)).trans (if_neg sizes)⟩

end ViewBox

end Svg

namespace Page

open Svg (ViewBox isNumeral_of_plainChars item_of_isNumeral)

/-! ### The two maps -/

section Maps

variable {page : Page ℝ} {box : ViewBox ℝ}

/-- Shares of a view box become shares of the page, counted from its upper edge. -/
lemma apply_viewBoxMap (wide : 0 < box.width) (high : 0 < box.height) (u v : ℝ) :
    (page.viewBoxMap box).apply ⟨box.x + u * box.width, box.y + v * box.height⟩ =
      ⟨u * page.width, (1 - v) * page.height⟩ := by
  simp only [viewBoxMap, Affine.apply, Point.mk.injEq]
  norm_num
  constructor
  · field_simp
    ring
  · field_simp
    ring

/-- The points of an interval are its shares. -/
lemma mem_interval_iff {a w x : ℝ} (positive : 0 ≤ w) :
    a ≤ x ∧ x ≤ a + w ↔ ∃ u, (0 ≤ u ∧ u ≤ 1) ∧ x = a + u * w := by
  constructor
  · rintro ⟨low, high⟩
    rcases positive.eq_or_lt with rfl | positive
    · exact ⟨0, ⟨le_refl 0, zero_le_one⟩, by linarith⟩
    · refine ⟨(x - a) / w, ⟨div_nonneg (by linarith) positive.le, ?_⟩, ?_⟩
      · rw [div_le_one positive]
        linarith
      · rw [div_mul_cancel₀ _ positive.ne']
        ring
  · rintro ⟨u, ⟨low, high⟩, rfl⟩
    have least := mul_nonneg low positive
    have most := mul_le_mul_of_nonneg_right high positive
    constructor <;> linarith

/-- The view box is laid over the page. -/
lemma image_viewBoxMap (wide : 0 < box.width) (high : 0 < box.height) (width : 0 ≤ page.width)
    (height : 0 ≤ page.height) :
    (page.viewBoxMap box).apply '' box.region = page.region 0 := by
  have shares {p : Point ℝ} : p ∈ page.region 0 ↔
      (0 ≤ p.x ∧ p.x ≤ 0 + page.width) ∧ (0 ≤ p.y ∧ p.y ≤ 0 + page.height) := by
    simp [region, and_assoc]
  ext q
  constructor
  · rintro ⟨p, ⟨inX, inY⟩, rfl⟩
    obtain ⟨u, fromU, x⟩ := (mem_interval_iff wide.le).1 inX
    obtain ⟨v, fromV, y⟩ := (mem_interval_iff high.le).1 inY
    have place : p = ⟨box.x + u * box.width, box.y + v * box.height⟩ := by rw [← x, ← y]
    rw [place, apply_viewBoxMap wide high, shares]
    refine ⟨(mem_interval_iff width).2 ⟨u, fromU, by ring⟩,
      (mem_interval_iff height).2 ⟨1 - v, ⟨?_, ?_⟩, by ring⟩⟩ <;> linarith
  · intro inside
    obtain ⟨inX, inY⟩ := shares.1 inside
    obtain ⟨u, fromU, x⟩ := (mem_interval_iff width).1 inX
    obtain ⟨v, ⟨low, top⟩, y⟩ := (mem_interval_iff height).1 inY
    refine ⟨⟨box.x + u * box.width, box.y + (1 - v) * box.height⟩,
      ⟨(mem_interval_iff wide.le).2 ⟨u, fromU, rfl⟩,
        (mem_interval_iff high.le).2 ⟨1 - v, ⟨by linarith, by linarith⟩, rfl⟩⟩, ?_⟩
    rw [apply_viewBoxMap wide high, sub_sub_cancel, ← zero_add (u * _), ← x, ← zero_add (v * _),
      ← y]

/-- Without a view box the page shows its inches as user units. -/
lemma userUnitMap_eq (wide : 0 < page.width) (high : 0 < page.height) :
    page.userUnitMap = page.viewBoxMap ⟨0, 0, 90 * page.width, 90 * page.height⟩ := by
  have share {w : ℝ} (positive : 0 < w) : w / (90 * w) = 1 / 90 := by
    field_simp
  simp only [userUnitMap, viewBoxMap, share wide, share high, Svg.userUnitsPerInch]
  norm_num

end Maps

/-- A page shows its view box: shares of the box become shares of the page, counted from the upper
edge, so the rectangle of the box is laid over the page upside down. If both sizes are above zero,
the map without a view box is the one for a view box of ninety user units for each inch. There is
such a view box, and in which units the sizes are written does not matter. -/
theorem ofRoot_shows {width height : String} {W H : ℝ} (wide : Svg.extent width = .ok W)
    (high : Svg.extent height = .ok H) :
    (∀ (viewBox : String) (box : ViewBox ℝ), ViewBox.ofText? viewBox = some box →
      0 < box.width ∧ 0 < box.height ∧ ∃ map : Affine ℝ,
        (ofRoot (some width) (some height) (some viewBox)).result = .ok (⟨W, H⟩, map) ∧
          (∀ u v, map.apply ⟨box.x + u * box.width, box.y + v * box.height⟩ =
            ⟨u * W, (1 - v) * H⟩) ∧
          map.apply '' box.region = region ⟨W, H⟩ 0) ∧
      (0 < W → 0 < H → ∃ map : Affine ℝ,
        (∃ viewBox, ViewBox.ofText? viewBox = some (⟨0, 0, 90 * W, 90 * H⟩ : ViewBox ℝ)) ∧
          ∀ width' height', Svg.extent width' = .ok W → Svg.extent height' = .ok H →
            (ofRoot (some width') (some height') none).result = .ok (⟨W, H⟩, map) ∧
              ∀ viewBox, ViewBox.ofText? viewBox = some (⟨0, 0, 90 * W, 90 * H⟩ : ViewBox ℝ) →
                (ofRoot (some width') (some height') (some viewBox)).result =
                  .ok (⟨W, H⟩, map)) := by
  obtain ⟨inchesW, W_nonneg⟩ := Svg.extent_eq_ok wide
  obtain ⟨inchesH, H_nonneg⟩ := Svg.extent_eq_ok high
  constructor
  · intro viewBox box shown
    obtain ⟨boxWide, boxHigh⟩ := ViewBox.pos_of_ofText? shown
    exact ⟨boxWide, boxHigh, _, result_ofRoot_viewBox wide high shown,
      apply_viewBoxMap boxWide boxHigh, image_viewBoxMap boxWide boxHigh W_nonneg H_nonneg⟩
  · intro W_pos H_pos
    have zero : ∃ d : Decimal, d.toReal = 0 := ⟨⟨false, 0, 0⟩, by simp [Decimal.toReal]⟩
    refine ⟨userUnitMap ⟨W, H⟩, ViewBox.exists_text zero zero
      (Svg.exists_decimal_of_coordinate inchesW) (Svg.exists_decimal_of_coordinate inchesH)
      (by linarith) (by linarith), ?_⟩
    intro width' height' wide' high'
    refine ⟨result_ofRoot_none wide' high', fun viewBox shown => ?_⟩
    rw [result_ofRoot_viewBox wide' high' shown, ← userUnitMap_eq W_pos H_pos]

/-- A page of two by four inches with a view box that does not begin at the origin. -/
theorem ofRoot_shows_offset :
    Svg.extent "2in" = .ok (2 : ℝ) ∧ Svg.extent "360" = .ok (4 : ℝ) ∧
      ViewBox.ofText? "-5,10,20,40" = some (⟨-5, 10, 20, 40⟩ : ViewBox ℝ) ∧
      (∃ map : Affine ℝ,
        (ofRoot (some "2in") (some "360") (some "-5,10,20,40")).result = .ok (⟨2, 4⟩, map) ∧
          map.apply ⟨-5, 10⟩ = ⟨0, 4⟩ ∧ map.apply ⟨15, 50⟩ = ⟨2, 0⟩) ∧
      ∃ viewBox, ViewBox.ofText? viewBox = some (⟨0, 0, 180, 360⟩ : ViewBox ℝ) ∧
        (ofRoot (some "2in") (some "360") none : Attempt ℝ _).result =
          (ofRoot (some "2in") (some "360") (some viewBox)).result := by
  have wide : Svg.extent "2in" = .ok (2 : ℝ) := by
    have two : Svg.IsNumeral ['2'] 2 :=
      isNumeral_of_plainChars ⟨false, 2, 0⟩ (by simp [Decimal.toReal]) rfl
    have whole : Text.trim "2in".toList = ['2'] ++ ['i', 'n'] := rfl
    have inch : Svg.LengthUnit.ofChars? ['i', 'n'] = some (.absolute .inch) := rfl
    rw [Svg.extent_of_isNumeral two whole (Decimal.ends_cons (by decide) _) inch
      (by norm_num [Svg.AbsoluteUnit.perInch])]
    norm_num [Svg.AbsoluteUnit.perInch]
  have high : Svg.extent "360" = .ok (4 : ℝ) := by
    have units : Svg.IsNumeral ['3', '6', '0'] 360 :=
      isNumeral_of_plainChars ⟨false, 360, 0⟩ (by simp [Decimal.toReal]) rfl
    have whole : Text.trim "360".toList = ['3', '6', '0'] ++ [] := rfl
    have none : Svg.LengthUnit.ofChars? [] = some (.absolute .user) := rfl
    rw [Svg.extent_of_isNumeral units whole Decimal.ends_nil none
      (by norm_num [Svg.AbsoluteUnit.perInch, Svg.userUnitsPerInch])]
    norm_num [Svg.AbsoluteUnit.perInch, Svg.userUnitsPerInch]
  have box : ViewBox.ofText? "-5,10,20,40" = some (⟨-5, 10, 20, 40⟩ : ViewBox ℝ) := by
    have x : Svg.item 11 "-5,10,20,40".toList = .ok ((-5 : ℝ), "10,20,40".toList) :=
      item_of_isNumeral (isNumeral_of_plainChars ⟨true, 5, 0⟩ (by simp [Decimal.toReal]) rfl)
        (Svg.ends_comma _) rfl rfl 11
    have y : Svg.item 11 "10,20,40".toList = .ok ((10 : ℝ), "20,40".toList) :=
      item_of_isNumeral (isNumeral_of_plainChars ⟨false, 10, 0⟩ (by simp [Decimal.toReal]) rfl)
        (Svg.ends_comma _) rfl rfl 11
    have w : Svg.item 11 "20,40".toList = .ok ((20 : ℝ), "40".toList) :=
      item_of_isNumeral (isNumeral_of_plainChars ⟨false, 20, 0⟩ (by simp [Decimal.toReal]) rfl)
        (Svg.ends_comma _) rfl rfl 11
    have h : Svg.item 11 "40".toList = .ok ((40 : ℝ), []) :=
      item_of_isNumeral (isNumeral_of_plainChars ⟨false, 40, 0⟩ (by simp [Decimal.toReal]) rfl)
        Decimal.ends_nil rfl rfl 11
    have whole : Text.trim "-5,10,20,40".toList = "-5,10,20,40".toList := rfl
    have length : "-5,10,20,40".toList.length = 11 := rfl
    rw [ViewBox.ofText?, whole, length]
    simp only [Scalar.bind_of_read x, Scalar.bind_of_read y, Scalar.bind_of_read w,
      Scalar.bind_of_read h]
    exact if_neg (by norm_num)
  obtain ⟨shows, unboxed⟩ := ofRoot_shows wide high
  obtain ⟨_, _, map, result, shares, _⟩ := shows _ _ box
  obtain ⟨map', ⟨viewBox, written⟩, same⟩ := unboxed (by norm_num) (by norm_num)
  obtain ⟨result', boxed⟩ := same _ _ wide high
  have first := shares 0 0
  have last := shares 1 1
  norm_num at first last written
  exact ⟨wide, high, box, ⟨map, result, first, last⟩, viewBox, written,
    result'.trans (boxed _ (by norm_num; exact written)).symm⟩

end Page

end Toolpath
