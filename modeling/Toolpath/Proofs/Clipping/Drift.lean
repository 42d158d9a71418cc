import Toolpath.Proofs.Clipping.Edges

/-!
# How far clipped drawings drift

Over doubles a clipped drawing does not stay on the page and the tolerance around it: a crossing is
rounded five times, and each error grows with the distance of the points that it lies between.
`Page.everywhere_clip` bounds the drift of a drawing by its reach, which is how far from the origin
its points lie. Reaches are doubled `n` times, and so are the errors: a `grain` is what one rounding
of a number below `2 ^ (39 + n)` errs by. The first two edges are crossed by lines from one end of
the reach to the other, which cost twice as much as those after them, where all coordinates are
positive but for the drift.
-/

namespace Toolpath

open Double

/-- One inch, doubled `n` times. -/
def unit (n : ℕ) : ℚ := 2 ^ n

/-- How far from the origin the points of a drawing may lie. -/
def reach (n : ℕ) : ℚ := 500000000000 * unit n

/-- What one rounding of a number within the reach errs by at most. -/
def grain (n : ℕ) : ℚ := unit n / 32768

/-- The tolerance of the standard options, as a double. -/
def tolerance : ℚ := 7378697629483821 / 2 ^ 66

lemma worth_tolerance : Worth (0.0001 : Float) tolerance := by decide +kernel

variable {n : ℕ}

lemma isDouble_units {m : ℤ} (few : |m| ≤ 2 ^ 53) : IsDouble (m * unit n) :=
  (isDouble_intCast few).mul_two_pow n

lemma isDouble_grains {m : ℤ} (few : |m| ≤ 2 ^ 53) : IsDouble (m * grain n) := by
  have small : IsDouble (m * 2 ^ (-15 : ℤ)) := ⟨m, -15, few, by norm_num, rfl⟩
  convert small.mul_two_pow n using 1
  norm_num [grain, unit]
  ring

/-- Everything is counted in grains. -/
lemma sizes (n : ℕ) :
    0 < grain n ∧ unit n = 32768 * grain n ∧ reach n = 500000000000 * (32768 * grain n) ∧
      0 < tolerance ∧ tolerance < 4 * grain n := by
  have one : (1 : ℚ) ≤ 2 ^ n := one_le_pow₀ (by norm_num)
  have little : tolerance < 4 / 32768 := by norm_num [tolerance]
  refine ⟨by unfold grain unit; positivity, by rw [grain]; ring, by rw [reach, grain]; ring,
    by norm_num [tolerance], little.trans_le ?_⟩
  rw [grain, unit]
  linarith

/-- The powers of two around the reach, and what is lost in rounding below them. -/
lemma powers (n : ℕ) :
    (2 : ℚ) ^ (39 + n) = 2 ^ 54 * grain n ∧ (2 : ℚ) ^ (40 + n) = 2 ^ 55 * grain n ∧
      (2 : ℚ) ^ (((39 + n : ℕ) : ℤ) - 54) = grain n ∧
      (2 : ℚ) ^ (((40 + n : ℕ) : ℤ) - 54) = 2 * grain n := by
  simp only [zpow_sub₀ (two_ne_zero : (2 : ℚ) ≠ 0), zpow_natCast, pow_add, grain, unit]
  refine ⟨?_, ?_, ?_, ?_⟩ <;> norm_num <;> ring

namespace Axis

variable {a : Axis} {lo hi lo' : ℚ} {k : ℕ} {lines : List (Polyline Float)}

/-- Clipping at a low edge leaves a drift of thirteen grains below zero. -/
lemma everywhere_clip_low (range : n ≤ 900)
    (before : Everywhere (fun p => Within (-(reach n + unit n)) (reach n + unit n) (a.along p) ∧
      Within lo hi (a.across p)) lines)
    (close : k ≤ 40 + n) (way : hi - lo ≤ 2 ^ k) (double : IsDouble lo')
    (room : lo' ≤ lo - 2 ^ ((k : ℤ) - 54)) (least : -2 ^ (40 + n) ≤ lo')
    (most : hi + unit n ≤ 2 ^ (40 + n)) :
    Everywhere (fun p => Within (-13 * grain n) (reach n + 2 * unit n) (a.along p) ∧
      Within lo' (hi + unit n) (a.across p)) ((edge 1.0 0.0001 a).clip lines) := by
  have one : Worth (1.0 : Float) 1 := by decide +kernel
  have start : IsDouble (-13 * grain n) := by
    simpa using isDouble_grains (m := -13) (n := n) (by norm_num)
  obtain ⟨positive, inch, wide, some, little⟩ := sizes n
  obtain ⟨power, power', grain₁, grain₂⟩ := powers n
  have step : (2 : ℚ) ^ ((k : ℤ) - 54) ≤ 2 * grain n := by
    rw [← grain₂]
    exact zpow_le_zpow_right₀ (by norm_num) (by omega)
  have nonneg : (0 : ℚ) < 2 ^ ((k : ℤ) - 54) := by positivity
  refine HalfPlane.everywhere_clip before ?_ ?_
  · rintro p ⟨⟨P, hp, aboveP, belowP⟩, P', hp', aboveP', belowP'⟩ inside
    have small : |P| ≤ 2 ^ ((39 + n : ℕ) : ℤ) :=
      abs_le_two_pow (39 + n) (by linarith) (by linarith)
    obtain ⟨E, value, nearest, side⟩ := exists_value one (.inl rfl) worth_tolerance hp hp'
      (small.trans (zpow_le_zpow_right₀ (by norm_num) (by omega)))
    have near := nearest.abs_sub_le_of_le (by omega)
      (abs_le_two_pow (39 + n) (by linarith) (by linarith))
    rw [grain₁] at near
    have := side.1 inside
    have := (abs_le.1 near).2
    exact ⟨⟨P, hp, by linarith, by linarith⟩, P', hp', by linarith, by linarith⟩
  · rintro p q ⟨hp, hp'⟩ ⟨hq, hq'⟩ apart
    obtain ⟨⟨S, rounds, leastS, mostS, near⟩, S', rounds', leastS', mostS'⟩ :=
      exists_crossing (39 + n : ℕ) (40 + n : ℕ) k one (.inl rfl) worth_tolerance hp hq hp' hq'
        apart (by omega) (by omega) (by omega) (by omega) (by omega)
        (fun P _ _ => abs_le_two_pow (39 + n) (by linarith) (by linarith))
        (fun P _ _ => abs_le_two_pow (39 + n) (by linarith) (by linarith))
        (by rw [grain₁, zpow_natCast, power']; linarith) (by exact_mod_cast way)
    rw [grain₁, grain₂] at near
    rw [grain₂] at leastS mostS
    have edge := (abs_le.1 near).1
    have along := rounds.within (by omega) (by omega)
      (abs_le_two_pow (40 + n) (by linarith) (by linarith)) start (by linarith) mostS
    have across := rounds'.within (by omega) (by omega)
      (abs_le_two_pow (40 + n) (by linarith) (by linarith)) double (by linarith) mostS'
    rw [grain₂] at along across
    exact ⟨along.mono (le_refl _) (by linarith), across.mono (le_refl _) (by linarith)⟩

/-! ### High edges -/

variable {c : Float} {C : ℚ} {p : Point Float}

/-- The points that the low edges leave, at a high edge. -/
lemma exists_value_high (range : n ≤ 900) (hc : Worth c C)
    (hp : Within (-14 * grain n) (reach n + 3 * unit n) (a.along p))
    (hp' : Within lo hi (a.across p)) :
    ∃ P E, Worth (a.along p) P ∧ -14 * grain n ≤ P ∧ P ≤ reach n + 3 * unit n ∧
      Nearest E (C - P) ∧ ((edge (-1.0) c a).contains p = true ↔ 0 ≤ E) := by
  have minus : Worth (-1.0 : Float) (-1) := by decide +kernel
  obtain ⟨positive, inch, wide, _, _⟩ := sizes n
  obtain ⟨power, _, _, _⟩ := powers n
  obtain ⟨P, hp, aboveP, belowP⟩ := hp
  obtain ⟨P', hp', _⟩ := hp'
  have small : |P| ≤ 2 ^ ((39 + n : ℕ) : ℤ) :=
    abs_le_two_pow (39 + n) (by linarith) (by linarith)
  obtain ⟨E, _, nearest, side⟩ := exists_value minus (.inr rfl) hc hp hp'
    (small.trans (zpow_le_zpow_right₀ (by norm_num) (by omega)))
  rw [neg_one_mul, neg_add_eq_sub] at nearest
  exact ⟨P, E, hp, aboveP, belowP, nearest, side⟩

/-- An edge far beyond the reach has all points inside. -/
lemma contains_of_far (range : n ≤ 900) (hc : Worth c C) (far : reach n + 9 * unit n ≤ C)
    (hp : Within (-14 * grain n) (reach n + 3 * unit n) (a.along p))
    (hp' : Within lo hi (a.across p)) : (edge (-1.0) c a).contains p = true := by
  obtain ⟨P, E, _, _, below, nearest, side⟩ := exists_value_high range hc hp hp'
  obtain ⟨positive, inch, _, _, _⟩ := sizes n
  exact side.2 (nearest.nonneg (by linarith))

/-- An edge far below zero has all points outside. -/
lemma not_contains_of_far (range : n ≤ 900) (hc : Worth c C) (far : C ≤ -9 * unit n)
    (hp : Within (-14 * grain n) (reach n + 3 * unit n) (a.along p))
    (hp' : Within lo hi (a.across p)) : ¬ (edge (-1.0) c a).contains p = true := by
  obtain ⟨P, E, _, above, _, nearest, side⟩ := exists_value_high range hc hp hp'
  obtain ⟨positive, inch, _, _, _⟩ := sizes n
  have one : IsDouble (-1 * unit n) := by
    simpa using isDouble_units (m := -1) (n := n) (by norm_num)
  have := nearest.le_of_le one (by linarith)
  rw [side]
  linarith

/-- Clipping at a high edge within the reach leaves a drift of six grains beyond it. -/
lemma everywhere_clip_near (range : n ≤ 900) (hc : Worth c C) (above : -12 * unit n ≤ C)
    (below : C ≤ reach n + 12 * unit n)
    (before : Everywhere (fun p => Within (-14 * grain n) (reach n + 3 * unit n) (a.along p) ∧
      Within lo hi (a.across p)) lines)
    (way : hi - lo ≤ 2 ^ (39 + n)) (double : IsDouble lo') (room : lo' ≤ lo - grain n)
    (least : -2 ^ (39 + n) ≤ lo') (most : hi + unit n ≤ 2 ^ (39 + n)) :
    Everywhere (fun p =>
      Within (-15 * grain n) (min (reach n + 4 * unit n) (C + 6 * grain n)) (a.along p) ∧
        Within lo' (hi + 2 * grain n) (a.across p)) ((edge (-1.0) c a).clip lines) := by
  have minus : Worth (-1.0 : Float) (-1) := by decide +kernel
  have start : IsDouble (-15 * grain n) := by
    simpa using isDouble_grains (m := -15) (n := n) (by norm_num)
  obtain ⟨positive, inch, wide, _, _⟩ := sizes n
  obtain ⟨power, _, grain₁, _⟩ := powers n
  refine HalfPlane.everywhere_clip before ?_ ?_
  · rintro p ⟨hp, hp'⟩ inside
    obtain ⟨P, E, hp, aboveP, belowP, nearest, side⟩ := exists_value_high range hc hp hp'
    have near := nearest.abs_sub_le_of_le (by omega)
      (abs_le_two_pow (39 + n) (by linarith) (by linarith))
    rw [grain₁] at near
    have := side.1 inside
    have := (abs_le.1 near).2
    exact ⟨⟨P, hp, by linarith, le_min (by linarith) (by linarith)⟩,
      hp'.mono (by linarith) (by linarith)⟩
  · rintro p q ⟨hp, hp'⟩ ⟨hq, hq'⟩ apart
    obtain ⟨⟨S, rounds, leastS, mostS, near⟩, S', rounds', leastS', mostS'⟩ :=
      exists_crossing (39 + n : ℕ) (39 + n : ℕ) (39 + n : ℕ) minus (.inr rfl) hc hp hq hp' hq'
        apart (by omega) (by omega) (by omega) (by omega) (by omega)
        (fun P _ _ => abs_le_two_pow (39 + n) (by linarith) (by linarith))
        (fun P _ _ => abs_le_two_pow (39 + n) (by linarith) (by linarith))
        (by rw [grain₁, zpow_natCast, power]; linarith) (by exact_mod_cast way)
    rw [grain₁] at near leastS mostS leastS' mostS'
    have edge := (abs_le.1 near).1
    have along := rounds.within (by omega) (by omega)
      (abs_le_two_pow (39 + n) (by linarith) (by linarith)) start (by linarith)
      (le_min mostS (by linarith : S ≤ C + 5 * grain n))
    have across := rounds'.within (by omega) (by omega)
      (abs_le_two_pow (39 + n) (by linarith) (by linarith)) double (by linarith) mostS'
    rw [grain₁] at along across
    have limit := min_add_add_right (reach n + 3 * unit n + grain n) (C + 5 * grain n) (grain n)
    refine ⟨along.mono (le_refl _) ?_, across.mono (le_refl _) (by linarith)⟩
    rw [← limit]
    exact min_le_min (by linarith) (by linarith)

/-- Clipping at a high edge leaves a drift of seven grains beyond it, wherever it is. -/
lemma everywhere_clip_high (range : n ≤ 900) (width : Float)
    (before : Everywhere (fun p => Within (-14 * grain n) (reach n + 3 * unit n) (a.along p) ∧
      Within lo hi (a.across p)) lines)
    (way : hi - lo ≤ 2 ^ (39 + n)) (double : IsDouble lo') (room : lo' ≤ lo - grain n)
    (least : -2 ^ (39 + n) ≤ lo') (most : hi + unit n ≤ 2 ^ (39 + n)) :
    ∃ limit, limit ≤ reach n + 4 * unit n ∧
      (∀ W, Worth width W → limit ≤ W + tolerance + 7 * grain n) ∧
      Everywhere (fun p => Within (-15 * grain n) limit (a.along p) ∧
        Within lo' (hi + 2 * grain n) (a.across p))
        ((edge (-1.0) (width + 0.0001) a).clip lines) := by
  have minus : Worth (-1.0 : Float) (-1) := by decide +kernel
  obtain ⟨positive, inch, wide, some, little⟩ := sizes n
  obtain ⟨power, _, grain₁, _⟩ := powers n
  by_cases number : ∃ W, Worth width W
  case neg =>
    -- Then the edge is at no number either, and nothing crosses it.
    have constant (C : ℚ) : ¬Worth (width + 0.0001) C := by
      intro worth
      have same := (unpack_add_of_not_worth worth_tolerance (not_exists.1 number)).2
      exact number ⟨C, (congrArg worth? same).symm.trans worth⟩
    refine ⟨reach n + 4 * unit n, le_refl _, fun W worth => absurd ⟨W, worth⟩ number, ?_⟩
    refine HalfPlane.everywhere_clip_of_same_side before ?_ ?_
    · rintro p q ⟨⟨P, hp, _⟩, P', hp', _⟩ ⟨⟨Q, hq, _⟩, Q', hq', _⟩
      have hp := contains_of_not_worth minus (.inr rfl) constant hp hp'
      have hq := contains_of_not_worth minus (.inr rfl) constant hq hq'
      exact hp.trans hq.symm
    · rintro p ⟨hp, hp'⟩ _
      exact ⟨hp.mono (by linarith) (by linarith), hp'.mono (by linarith) (by linarith)⟩
  case pos =>
    obtain ⟨W, worth⟩ := number
    have close : |W - (W + tolerance)| ≤ 2 ^ (969 : ℤ) := by
      have : tolerance ≤ 1 := by norm_num [tolerance]
      rw [sub_add_cancel_left, abs_neg, abs_of_pos some]
      exact this.trans (one_le_zpow₀ (by norm_num) (by norm_num))
    obtain ⟨C, hc, nearest⟩ :=
      (rounds_add worth worth_tolerance).exists_worth_of_abs_sub_le worth close
    refine ⟨min (reach n + 4 * unit n) (W + tolerance + 7 * grain n), min_le_left _ _, ?_, ?_⟩
    · intro W' worth'
      rw [← worth.unique worth']
      exact min_le_right _ _
    rcases lt_or_ge (reach n + 10 * unit n) W with far | below
    · have double : IsDouble (reach n + 9 * unit n) := by
        have := isDouble_units (m := 500000000009) (n := n) (by norm_num)
        rwa [reach, ← add_mul, ← (by norm_num : ((500000000009 : ℤ) : ℚ) = 500000000000 + 9)]
      have far' : reach n + 9 * unit n ≤ C := nearest.ge_of_ge double (by linarith)
      refine HalfPlane.everywhere_clip_of_same_side before ?_ ?_
      · rintro p q ⟨hp, hp'⟩ ⟨hq, hq'⟩
        have hp := contains_of_far range hc far' hp hp'
        have hq := contains_of_far range hc far' hq hq'
        exact hp.trans hq.symm
      · rintro p ⟨hp, hp'⟩ _
        exact ⟨hp.mono (by linarith) (le_min (by linarith) (by linarith)),
          hp'.mono (by linarith) (by linarith)⟩
    rcases lt_or_ge W (-10 * unit n) with far | above
    · have double : IsDouble (-9 * unit n) := by
        simpa using isDouble_units (m := -9) (n := n) (by norm_num)
      have far' : C ≤ -9 * unit n := nearest.le_of_le double (by linarith)
      refine HalfPlane.everywhere_clip_of_same_side before ?_ ?_
      · rintro p q ⟨hp, hp'⟩ ⟨hq, hq'⟩
        have hp := not_contains_of_far range hc far' hp hp'
        have hq := not_contains_of_far range hc far' hq hq'
        rw [Bool.eq_iff_iff]
        exact iff_of_false hp hq
      · rintro p ⟨hp, hp'⟩ inside
        exact absurd inside (not_contains_of_far range hc far' hp hp')
    · have near := nearest.abs_sub_le_of_le (by omega)
        (abs_le_two_pow (39 + n) (by linarith) (by linarith))
      rw [grain₁] at near
      obtain ⟨low, high⟩ := abs_le.1 near
      refine (everywhere_clip_near range hc (by linarith) (by linarith) before way double room least
        most).mono ?_
      rintro p ⟨hp, hp'⟩
      exact ⟨hp.mono (le_refl _) (min_le_min (le_refl _) (by linarith)), hp'⟩

end Axis

/-- A drawing is clipped to its page, but for a drift of sixteen grains below zero and nine grains
beyond the tolerance on the other sides. -/
theorem Page.everywhere_clip (range : n ≤ 900) (page : Page Float) {lines : List (Polyline Float)}
    (before : Everywhere (fun p => Within (-reach n) (reach n) p.x ∧
      Within (-reach n) (reach n) p.y) lines) :
    ∃ right top, right ≤ reach n + 5 * unit n ∧ top ≤ reach n + 5 * unit n ∧
      (∀ W, Worth page.width W → right ≤ W + tolerance + 9 * grain n) ∧
      (∀ H, Worth page.height H → top ≤ H + tolerance + 9 * grain n) ∧
      Everywhere (fun p => Within (-16 * grain n) right p.x ∧ Within (-16 * grain n) top p.y)
        (page.clip 0.0001 lines) := by
  obtain ⟨positive, inch, wide, _, _⟩ := sizes n
  obtain ⟨power, power', grain₁, grain₂⟩ := powers n
  have least : IsDouble (-(reach n + unit n)) := by
    have := isDouble_units (m := -500000000001) (n := n) (by norm_num)
    convert this using 1
    rw [reach]
    push_cast
    ring
  have grains (m : ℤ) (few : |m| ≤ 2 ^ 53) : IsDouble (m * grain n) := isDouble_grains few
  -- Left.
  have lines₀ : Everywhere (fun p =>
      Within (-(reach n + unit n)) (reach n + unit n) (Axis.x.along p) ∧
        Within (-reach n) (reach n) (Axis.x.across p)) lines :=
    before.mono fun p ⟨hx, hy⟩ => ⟨hx.mono (by linarith) (by linarith), hy⟩
  have lines₁ := Axis.everywhere_clip_low (k := 40 + n) range lines₀ (by omega) (by linarith)
    least (by linarith) (by linarith) (by linarith)
  -- Bottom.
  have lines₁ := lines₁.mono
    (Q := fun p => Within (-(reach n + unit n)) (reach n + unit n) (Axis.y.along p) ∧
      Within (-13 * grain n) (reach n + 2 * unit n) (Axis.y.across p)) fun p ⟨hx, hy⟩ => ⟨hy, hx⟩
  have lines₂ := Axis.everywhere_clip_low (k := 39 + n) range lines₁ (by omega) (by linarith)
    (grains (-14) (by norm_num)) (by rw [grain₁]; push_cast; linarith) (by push_cast; linarith)
    (by linarith)
  -- Right.
  have lines₂ := lines₂.mono
    (Q := fun p => Within (-14 * grain n) (reach n + 3 * unit n) (Axis.x.along p) ∧
      Within (-13 * grain n) (reach n + 2 * unit n) (Axis.x.across p)) fun p ⟨hy, hx⟩ =>
        ⟨hx.mono (by norm_num) (by linarith), hy⟩
  obtain ⟨right, near, right_le, lines₃⟩ := Axis.everywhere_clip_high range page.width lines₂
    (by linarith) (grains (-14) (by norm_num)) (by push_cast; linarith) (by push_cast; linarith)
    (by linarith)
  -- Top.
  have lines₃ := lines₃.mono
    (Q := fun p => Within (-14 * grain n) (reach n + 3 * unit n) (Axis.y.along p) ∧
      Within (-15 * grain n) right (Axis.y.across p)) fun p ⟨hx, hy⟩ =>
        ⟨hy.mono (by norm_num) (by linarith), hx⟩
  obtain ⟨top, near', top_le, lines₄⟩ := Axis.everywhere_clip_high range page.height lines₃
    (by linarith) (grains (-16) (by norm_num)) (by push_cast; linarith) (by push_cast; linarith)
    (by linarith)
  refine ⟨right + 2 * grain n, top, by linarith, by linarith, ?_, ?_, ?_⟩
  · intro W worth
    have := right_le W worth
    linarith
  · intro H worth
    have := top_le H worth
    linarith
  · rw [Page.clip, Axis.halfPlanes_eq]
    refine lines₄.mono fun p ⟨hy, hx⟩ => ⟨hx.mono (by norm_num) (le_refl _), ?_⟩
    exact hy.mono (by linarith) (le_refl _)

end Toolpath
