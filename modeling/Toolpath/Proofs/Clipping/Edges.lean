import Toolpath.Proofs.Clipping.Interpolation
import Toolpath.Proofs.Clipping.Points

/-!
# Edges of a page in doubles

A page has two axes and two edges across each. Over doubles, the value of a point at an edge is the
rounding of one sum (`exists_value`), whatever the edge is at, and the crossing of a line through an
edge lies near to it, and not beyond the points it lies between (`exists_crossing`).
-/

namespace Toolpath

open Double

/-- An axis of the plane. -/
inductive Axis where
  | x
  | y

namespace Axis

variable {α : Type}

/-- The coordinate along an axis. -/
def along : Axis → Point α → α
  | x, p => p.x
  | y, p => p.y

/-- The other coordinate. -/
def across : Axis → Point α → α
  | x, p => p.y
  | y, p => p.x

variable [Scalar α]

/-- The half-plane on one side of an edge across an axis. -/
def edge (s c : α) : Axis → HalfPlane α
  | x => ⟨s, 0.0, c⟩
  | y => ⟨0.0, s, c⟩

/-- The half-planes of a page are those of two edges across each axis. -/
lemma halfPlanes_eq (page : Page α) (tolerance : α) :
    page.halfPlanes tolerance =
      [edge 1.0 tolerance x, edge 1.0 tolerance y, edge (-1.0) (page.width + tolerance) x,
        edge (-1.0) (page.height + tolerance) y] :=
  rfl

/-- The share of the way from `p` to `q` at which an edge is crossed. -/
def share (s c : α) (a : Axis) (p q : Point α) : α :=
  -(edge s c a).eval p / ((edge s c a).eval q - (edge s c a).eval p)

lemma along_crossing (s c : α) (a : Axis) (p q : Point α) :
    a.along ((edge s c a).crossing p q) =
      share s c a p q * (a.along q - a.along p) + a.along p := by
  cases a <;> rfl

lemma across_crossing (s c : α) (a : Axis) (p q : Point α) :
    a.across ((edge s c a).crossing p q) =
      share s c a p q * (a.across q - a.across p) + a.across p := by
  cases a <;> rfl

/-! ### Values -/

variable {a : Axis} {s c : Float} {σ C P Q : ℚ} {p q : Point Float}

/-- Without its last term, a value is exact. -/
lemma worth_linear (hs : Worth s σ) (sign : σ = 1 ∨ σ = -1) (hp : Worth (a.along p) P)
    (hq : Worth (a.across p) Q) :
    Worth ((edge s c a).a * p.x + (edge s c a).b * p.y) (σ * P) := by
  have exact : IsDouble (σ * P) ∧ |σ * P| < beyond := by
    rcases sign with rfl | rfl
    · rw [one_mul]
      exact ⟨hp.isDouble, hp.abs_lt⟩
    · rw [neg_one_mul, abs_neg]
      exact ⟨hp.isDouble.neg, hp.abs_lt⟩
  have first (x : Float) (hx : Worth x P) : Worth (s * x) (σ * P) :=
    (rounds_mul hs hx).worth_of_isDouble exact.1 exact.2
  have zero : Worth (0.0 : Float) 0 := by decide +kernel
  have second (y : Float) (hy : Worth y Q) : Worth (0.0 * y) 0 := by
    have rounds := rounds_mul zero hy
    rw [zero_mul] at rounds
    exact rounds.worth_of_isDouble isDouble_zero (by rw [abs_zero]; exact zpow_pos two_pos _)
  cases a with
  | x =>
    have rounds := rounds_add (first p.x hp) (second p.y hq)
    rw [add_zero] at rounds
    exact rounds.worth_of_isDouble exact.1 exact.2
  | y =>
    have rounds := rounds_add (second p.x hq) (first p.y hp)
    rw [zero_add] at rounds
    exact rounds.worth_of_isDouble exact.1 exact.2

/-- The value of a point at an edge is one rounding away from the exact one. -/
lemma exists_value (hs : Worth s σ) (sign : σ = 1 ∨ σ = -1) (hc : Worth c C)
    (hp : Worth (a.along p) P) (hq : Worth (a.across p) Q) (small : |P| ≤ 2 ^ (969 : ℤ)) :
    ∃ E, Worth ((edge s c a).eval p) E ∧ Nearest E (σ * P + C) ∧
      ((edge s c a).contains p = true ↔ 0 ≤ E) := by
  have near : |C - (σ * P + C)| ≤ 2 ^ (969 : ℤ) := by
    rcases sign with rfl | rfl <;> simpa using small
  have constant : (edge s c a).c = c := by cases a <;> rfl
  have rounds : Rounds ((edge s c a).eval p) (σ * P + C) := by
    unfold HalfPlane.eval
    rw [constant]
    exact rounds_add (worth_linear hs sign hp hq) hc
  obtain ⟨E, value, nearest⟩ := rounds.exists_worth_of_abs_sub_le hc near
  have zero : Worth (0.0 : Float) 0 := by decide +kernel
  refine ⟨E, value, nearest, ?_⟩
  rw [← le_iff zero value]
  exact decide_eq_true_iff

/-- At an edge that is at no number, all points are on one side. -/
lemma contains_of_not_worth (hs : Worth s σ) (sign : σ = 1 ∨ σ = -1) (hc : ∀ C, ¬Worth c C)
    (hp : Worth (a.along p) P) (hq : Worth (a.across p) Q) :
    (edge s c a).contains p = decide (0.0 ≤ c) := by
  have constant : (edge s c a).c = c := by cases a <;> rfl
  have linear : Worth ((edge s c a).a * p.x + (edge s c a).b * p.y) (σ * P) :=
    worth_linear hs sign hp hq
  have same := (unpack_add_of_not_worth linear hc).1
  unfold HalfPlane.contains HalfPlane.eval
  rw [constant]
  refine decide_eq_decide.2 ?_
  rw [le_iff_isLE, le_iff_isLE, same]

/-! ### Crossings -/

variable {lo hi lo' hi' : ℚ}

/-- A crossing of an edge is near to it. Neither coordinate goes beyond those of the two points by
more than one rounding of the way between them. -/
lemma exists_crossing (j k k' : ℤ) (hs : Worth s σ) (sign : σ = 1 ∨ σ = -1) (hc : Worth c C)
    (hp : Within lo hi (a.along p)) (hq : Within lo hi (a.along q))
    (hp' : Within lo' hi' (a.across p)) (hq' : Within lo' hi' (a.across q))
    (apart : (edge s c a).contains p ≠ (edge s c a).contains q)
    (low : -900 ≤ j) (high : j < 969) (high' : k < 1024) (low'' : -900 ≤ k')
    (high'' : k' < 1024)
    (small : ∀ P, lo ≤ P → P ≤ hi → |P| ≤ 2 ^ j)
    (value : ∀ P, lo ≤ P → P ≤ hi → |σ * P + C| ≤ 2 ^ j)
    (way : hi - lo + 2 * 2 ^ (j - 54) ≤ 2 ^ k) (way' : hi' - lo' ≤ 2 ^ k') :
    (∃ S, Rounds (a.along ((edge s c a).crossing p q)) S ∧ lo - 2 ^ (k - 54) ≤ S ∧
      S ≤ hi + 2 ^ (k - 54) ∧ |σ * S + C| ≤ 2 ^ (j - 54) + 4 * 2 ^ (k - 54)) ∧
    ∃ S, Rounds (a.across ((edge s c a).crossing p q)) S ∧ lo' - 2 ^ (k' - 54) ≤ S ∧
      S ≤ hi' + 2 ^ (k' - 54) := by
  obtain ⟨P, hp, aboveP, belowP⟩ := hp
  obtain ⟨Q, hq, aboveQ, belowQ⟩ := hq
  obtain ⟨P', hP', _⟩ := id hp'
  obtain ⟨Q', hQ', _⟩ := id hq'
  have size : (2 : ℚ) ^ j ≤ 2 ^ (969 : ℤ) := zpow_le_zpow_right₀ (by norm_num) high.le
  obtain ⟨A, valueP, nearestP, sideP⟩ :=
    exists_value hs sign hc hp hP' ((small P aboveP belowP).trans size)
  obtain ⟨B, valueQ, nearestQ, sideQ⟩ :=
    exists_value hs sign hc hq hQ' ((small Q aboveQ belowQ).trans size)
  have first := nearestP.abs_sub_le_of_le (by omega) (value P aboveP belowP)
  have last := nearestQ.abs_sub_le_of_le (by omega) (value Q aboveQ belowQ)
  have opposite : A < 0 ∧ 0 ≤ B ∨ 0 ≤ A ∧ B < 0 := by
    rw [Ne, Bool.eq_iff_iff, sideP, sideQ] at apart
    rcases lt_or_ge A 0 with before | before <;> rcases lt_or_ge B 0 with after | after
    · exact absurd (iff_of_false (not_le.2 before) (not_le.2 after)) apart
    · exact .inl ⟨before, after⟩
    · exact .inr ⟨before, after⟩
    · exact absurd (iff_of_true before after) apart
  have between : |Q - P| ≤ hi - lo := abs_le.2 ⟨by linarith, by linarith⟩
  have turned : |σ * Q - σ * P| = |Q - P| := by
    rcases sign with rfl | rfl
    · ring_nf
    · rw [abs_sub_comm]
      ring_nf
  have difference : |B - A| ≤ 2 ^ k := by
    have parts : B - A = (B - (σ * Q + C)) + (-(A - (σ * P + C)) + (σ * Q - σ * P)) := by ring
    have := abs_add_le (B - (σ * Q + C)) (-(A - (σ * P + C)) + (σ * Q - σ * P))
    have := abs_add_le (-(A - (σ * P + C))) (σ * Q - σ * P)
    rw [abs_neg] at this
    rw [parts]
    linarith
  have step : (0 : ℚ) < 2 ^ (j - 54) := by positivity
  have room : j - 54 ≤ k := by
    have nonneg := (abs_nonneg (Q - P)).trans between
    exact (zpow_le_zpow_iff_right₀ (by norm_num : (1 : ℚ) < 2)).1 (by linarith)
  obtain ⟨τ, D, share, above, below, near, zero⟩ :=
    exists_share valueP valueQ opposite (by omega) high' difference
  constructor
  · obtain ⟨S, rounds, least, most, close⟩ :=
      exists_interpolated share above below hp hq (by omega) high' (by linarith)
    refine ⟨S, ?_, ?_, ?_, ?_⟩
    · rw [along_crossing]
      exact rounds
    · have := le_min aboveP aboveQ
      linarith
    · have := max_le belowP belowQ
      linarith
    · have one : |σ| = 1 := by rcases sign with rfl | rfl <;> simp
      exact abs_add_le_of_interpolated one above below first last near zero close
  · obtain ⟨S, rounds, least, most⟩ :=
      exists_interpolated_of_within ⟨τ, share, above, below⟩ hp' hq' (by omega) high'' way'
    refine ⟨S, ?_, least, most⟩
    rw [across_crossing]
    exact rounds

end Axis

end Toolpath
