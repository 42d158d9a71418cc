import Toolpath.Proofs.Double.Arithmetic

/-!
# Interpolation in doubles

A crossing lies at a share of the way between two points, and its coordinates are interpolated at
this share. In doubles the share is rounded, the way is rounded, their product is rounded and the
sum is rounded. `exists_share` and `exists_interpolated` say what is left of the exact result: a
coordinate stays between those of the two points, but for one rounding of the way, and the crossing
comes as near to the edge as five roundings let it (`abs_add_le_of_interpolated`).

Sizes are given by powers of two. Below `2 ^ k` a rounding errs by `2 ^ (k - 54)` at most.
-/

namespace Toolpath.Double

/-- A double is worth a number between two bounds. -/
def Within (lo hi : ℚ) (x : Float) : Prop :=
  ∃ v, Worth x v ∧ lo ≤ v ∧ v ≤ hi

lemma Within.mono {lo hi lo' hi' : ℚ} {x : Float} (within : Within lo hi x) (low : lo' ≤ lo)
    (high : hi ≤ hi') : Within lo' hi' x := by
  obtain ⟨v, worth, above, below⟩ := within
  exact ⟨v, worth, low.trans above, below.trans high⟩

variable {t p q d e x : Float} {a b τ P Q S lo hi : ℚ} {k : ℤ}

/-- Rounding goes up by one error at most, and never below a double. -/
lemma Rounds.within (rounds : Rounds x S) (low : -1021 ≤ k) (high : k < 1024)
    (size : |S| ≤ 2 ^ k) (double : IsDouble lo) (above : lo ≤ S) (below : S ≤ hi) :
    Within lo (hi + 2 ^ (k - 54)) x := by
  obtain ⟨v, worth, nearest, _, near⟩ := rounds.exists_near low high size
  have := (abs_le.1 near).2
  exact ⟨v, worth, nearest.ge_of_ge double above, by linarith⟩

lemma abs_le_two_pow {v : ℚ} (n : ℕ) (low : -2 ^ n ≤ v) (high : v ≤ 2 ^ n) :
    |v| ≤ 2 ^ (n : ℤ) := by
  rw [zpow_natCast]
  exact abs_le.2 ⟨low, high⟩

/-- The share at which a value is zero that it has one sign before and another one after. The share
and the whole difference are rounded, but each undoes most of the error of the other. -/
lemma exists_share (hd : Worth d a) (he : Worth e b)
    (opposite : a < 0 ∧ 0 ≤ b ∨ 0 ≤ a ∧ b < 0) (low : -1021 ≤ k) (high : k < 1024)
    (apart : |b - a| ≤ 2 ^ k) :
    ∃ τ D, Worth (-d / (e - d)) τ ∧ 0 ≤ τ ∧ τ ≤ 1 ∧ |D - (b - a)| ≤ 2 ^ (k - 54) ∧
      |τ * D + a| ≤ 2 ^ (k - 54) := by
  obtain ⟨D, worth, nearest, size, near⟩ := (rounds_sub he hd).exists_near low high apart
  have start : Worth (-d) (-a) := worth_neg hd
  have ratio : D ≠ 0 ∧ 0 ≤ -a / D ∧ -a / D ≤ 1 := by
    rcases opposite with ⟨before, after⟩ | ⟨before, after⟩
    · have : -a ≤ D := nearest.ge_of_ge start.isDouble (by linarith)
      have positive : 0 < D := by linarith
      exact ⟨positive.ne', div_nonneg (by linarith) positive.le, (div_le_one positive).2 this⟩
    · have : D ≤ -a := nearest.le_of_le start.isDouble (by linarith)
      have negative : D < 0 := (nearest.le_of_le he.isDouble (by linarith)).trans_lt after
      exact ⟨negative.ne, div_nonneg_of_nonpos (by linarith) negative.le,
        (div_le_one_of_neg negative).2 this⟩
  obtain ⟨nonzero, above, below⟩ := ratio
  have unit : |-a / D| ≤ 2 ^ (0 : ℤ) := by
    rw [zpow_zero, abs_of_nonneg above]
    exact below
  obtain ⟨τ, share, nearest, _, close⟩ :=
    (rounds_div start worth nonzero).exists_near (by norm_num) (by norm_num) unit
  have one : IsDouble 1 := by simpa using isDouble_two_zpow (k := 0) (by norm_num)
  refine ⟨τ, D, share, nearest.nonneg above, nearest.le_of_le one below, near, ?_⟩
  calc |τ * D + a| = |τ - -a / D| * |D| := by
        rw [← abs_mul, sub_mul, div_mul_cancel₀ _ nonzero]
        ring_nf
    _ ≤ 2 ^ (0 - 54 : ℤ) * 2 ^ k := by gcongr
    _ = 2 ^ (k - 54) := by
        rw [← zpow_add₀ two_ne_zero]
        congr 1
        omega

/-- An interpolated coordinate is the rounding of a number that lies between those of the two
points, but for the rounding of the way between them, and near to the exact one. -/
lemma exists_interpolated (ht : Worth t τ) (least : 0 ≤ τ) (most : τ ≤ 1) (hp : Worth p P)
    (hq : Worth q Q) (low : -1021 ≤ k) (high : k < 1024) (apart : |Q - P| ≤ 2 ^ k) :
    ∃ S, Rounds (t * (q - p) + p) S ∧ min P Q - 2 ^ (k - 54) ≤ S ∧
      S ≤ max P Q + 2 ^ (k - 54) ∧ |S - (P + τ * (Q - P))| ≤ (1 + τ) * 2 ^ (k - 54) := by
  obtain ⟨D, way, nearest, size, near⟩ := (rounds_sub hq hp).exists_near low high apart
  have part : |τ * D| ≤ |D| := by
    rw [abs_mul, abs_of_nonneg least]
    exact mul_le_of_le_one_left (abs_nonneg D) most
  obtain ⟨M, product, nearest', _, near'⟩ :=
    (rounds_mul ht way).exists_near low high (part.trans size)
  refine ⟨M + P, rounds_add product hp, ?_, ?_, ?_⟩
  · -- Whichever way the coordinate goes, the product is between zero and the way.
    rcases le_total P Q with up | down
    · have := nearest'.nonneg (mul_nonneg least (nearest.nonneg (sub_nonneg.2 up)))
      have : (0 : ℚ) < 2 ^ (k - 54) := by positivity
      have := min_le_left P Q
      linarith
    · have negative := nearest.nonpos (sub_nonpos.2 down)
      have := nearest'.ge_of_ge way.isDouble (by nlinarith)
      have := (abs_le.1 near).1
      have := min_le_right P Q
      linarith
  · rcases le_total P Q with up | down
    · have positive := nearest.nonneg (sub_nonneg.2 up)
      have := nearest'.le_of_le way.isDouble (by nlinarith)
      have := (abs_le.1 near).2
      have := le_max_right P Q
      linarith
    · have negative := nearest.nonpos (sub_nonpos.2 down)
      have := nearest'.nonpos (mul_nonpos_of_nonneg_of_nonpos least negative)
      have : (0 : ℚ) < 2 ^ (k - 54) := by positivity
      have := le_max_left P Q
      linarith
  · calc |M + P - (P + τ * (Q - P))| = |(M - τ * D) + τ * (D - (Q - P))| := by ring_nf
      _ ≤ |M - τ * D| + |τ * (D - (Q - P))| := abs_add_le _ _
      _ = |M - τ * D| + τ * |D - (Q - P)| := by rw [abs_mul, abs_of_nonneg least]
      _ ≤ 2 ^ (k - 54) + τ * 2 ^ (k - 54) := by gcongr
      _ = (1 + τ) * 2 ^ (k - 54) := by ring

/-- The same for coordinates within bounds. -/
lemma exists_interpolated_of_within (ht : Within 0 1 t) (hp : Within lo hi p)
    (hq : Within lo hi q) (low : -1021 ≤ k) (high : k < 1024) (apart : hi - lo ≤ 2 ^ k) :
    ∃ S, Rounds (t * (q - p) + p) S ∧ lo - 2 ^ (k - 54) ≤ S ∧ S ≤ hi + 2 ^ (k - 54) := by
  obtain ⟨τ, ht, least, most⟩ := ht
  obtain ⟨P, hp, aboveP, belowP⟩ := hp
  obtain ⟨Q, hq, aboveQ, belowQ⟩ := hq
  have way : |Q - P| ≤ 2 ^ k := abs_le.2 ⟨by linarith, by linarith⟩
  obtain ⟨S, rounds, above, below, _⟩ :=
    exists_interpolated ht least most hp hq low high way
  have := le_min aboveP aboveQ
  have := max_le belowP belowQ
  exact ⟨S, rounds, by linarith, by linarith⟩

/-- Where the value `s P + C` is rounded to `a` and `s Q + C` to `b`, the point at the share at
which `a` and `b` meet zero is near to an edge: five errors come together. -/
lemma abs_add_le_of_interpolated {s C D : ℚ} (sign : |s| = 1) (least : 0 ≤ τ) (most : τ ≤ 1)
    {f g : ℚ} (first : |a - (s * P + C)| ≤ f) (last : |b - (s * Q + C)| ≤ f)
    (difference : |D - (b - a)| ≤ g) (share : |τ * D + a| ≤ g)
    (near : |S - (P + τ * (Q - P))| ≤ (1 + τ) * g) : |s * S + C| ≤ f + 4 * g := by
  have rest : 0 ≤ 1 - τ := by linarith
  have parts : s * S + C = s * (S - (P + τ * (Q - P))) + (τ * D + a) +
      (-(τ * (D - (b - a))) + (-((1 - τ) * (a - (s * P + C))) + -(τ * (b - (s * Q + C))))) := by
    ring
  have h₁ : |s * (S - (P + τ * (Q - P)))| ≤ (1 + τ) * g := by
    rw [abs_mul, sign, one_mul]
    exact near
  have h₂ : |-(τ * (D - (b - a)))| ≤ τ * g := by
    rw [abs_neg, abs_mul, abs_of_nonneg least]
    gcongr
  have h₃ : |-((1 - τ) * (a - (s * P + C)))| ≤ (1 - τ) * f := by
    rw [abs_neg, abs_mul, abs_of_nonneg rest]
    gcongr
  have h₄ : |-(τ * (b - (s * Q + C)))| ≤ τ * f := by
    rw [abs_neg, abs_mul, abs_of_nonneg least]
    gcongr
  have positive : 0 ≤ g := (abs_nonneg _).trans share
  have : τ * g ≤ g := mul_le_of_le_one_left positive most
  calc |s * S + C| ≤ (1 + τ) * g + g + (τ * g + ((1 - τ) * f + τ * f)) := by
        rw [parts]
        refine (abs_add_le _ _).trans (add_le_add ?_ ?_)
        · exact (abs_add_le _ _).trans (add_le_add h₁ share)
        · refine (abs_add_le _ _).trans (add_le_add h₂ ?_)
          exact (abs_add_le _ _).trans (add_le_add h₃ h₄)
    _ ≤ f + 4 * g := by linarith

end Toolpath.Double
