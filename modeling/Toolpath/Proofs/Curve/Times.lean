import Mathlib
import Toolpath.Geometry.Cubic
import Toolpath.Proofs.Exact

/-!
# When a curve is where

A cubic curve runs through its points from time zero to time one, by Bernstein's polynomials
(`Cubic.pointAt`). Over exact numbers, each half of a curve runs through the same points in half the
time, so a piece that was halved `j` times is the curve from `k / 2 ^ j` to `(k + 1) / 2 ^ j` for
some `k`. The intervals of the pieces follow one another from zero to one, whichever pieces were
halved (`Tiles`), and the curve is drawn to its points at their ends: `Cubic.exists_times`.
-/

namespace Toolpath

/-! ### Times -/

/-- From one time to another by an interval that the unit interval leaves when it is halved at most
`depth` times. -/
inductive DyadicStep (depth : ℕ) (u v : ℝ) : Prop
  | interval (j k : ℕ) : j ≤ depth → u = k / 2 ^ j → v = (k + 1) / 2 ^ j → DyadicStep depth u v

namespace DyadicStep

variable {depth : ℕ} {u v : ℝ}

lemma whole (depth : ℕ) : DyadicStep depth 0 1 :=
  .interval 0 0 (Nat.zero_le _) (by simp) (by simp)

lemma lt (step : DyadicStep depth u v) : u < v := by
  obtain ⟨j, k, _, rfl, rfl⟩ := step
  gcongr
  exact lt_add_one _

lemma firstHalf (step : DyadicStep depth u v) : DyadicStep (depth + 1) (u / 2) (v / 2) := by
  obtain ⟨j, k, deep, rfl, rfl⟩ := step
  refine .interval (j + 1) k (Nat.succ_le_succ deep) ?_ ?_ <;> rw [pow_succ, div_div]

lemma secondHalf (step : DyadicStep depth u v) :
    DyadicStep (depth + 1) ((1 + u) / 2) ((1 + v) / 2) := by
  obtain ⟨j, k, deep, rfl, rfl⟩ := step
  refine .interval (j + 1) (2 ^ j + k) (Nat.succ_le_succ deep) ?_ ?_ <;>
    · push_cast
      field_simp
      ring

end DyadicStep

/-- Two chains of which one begins where the other ends are one chain. -/
lemma isChain_cons_append {β : Type} {related : β → β → Prop} {a b : β} {xs ys : List β}
    (first : (a :: xs).IsChain related) (last : xs.getLast? = some b)
    (second : (b :: ys).IsChain related) : (a :: (xs ++ ys)).IsChain related := by
  obtain ⟨front, rfl⟩ := List.getLast?_eq_some_iff.1 last
  rw [List.append_assoc]
  exact List.isChain_cons_split.2 ⟨first, second⟩

/-- Times that lead from zero to one by intervals of the halved unit interval. -/
structure Tiles (depth : ℕ) (times : List ℝ) : Prop where
  steps : (0 :: times).IsChain (DyadicStep depth)
  last : times.getLast? = some 1

namespace Tiles

lemma whole (depth : ℕ) : Tiles depth [1] where
  steps := List.isChain_pair.2 (.whole depth)
  last := rfl

lemma ne_nil {depth : ℕ} {times : List ℝ} (tiles : Tiles depth times) : times ≠ [] := by
  rintro rfl
  cases tiles.last

/-- Times for both halves are times for the whole, at half the pace. -/
lemma halves {depth : ℕ} {times times' : List ℝ} (first : Tiles depth times)
    (second : Tiles depth times') :
    Tiles (depth + 1) (times.map (fun u => u / 2) ++ times'.map (fun u => (1 + u) / 2)) where
  steps := by
    have early := List.isChain_cons_map_of_isChain_cons (fun u : ℝ => u / 2)
      (fun _ _ => DyadicStep.firstHalf) first.steps
    have late := List.isChain_cons_map_of_isChain_cons (fun u : ℝ => (1 + u) / 2)
      (fun _ _ => DyadicStep.secondHalf) second.steps
    rw [zero_div] at early
    rw [add_zero] at late
    refine isChain_cons_append early ?_ late
    rw [List.getLast?_map, first.last]
    rfl
  last := by
    rw [List.getLast?_append, List.getLast?_map, second.last]
    norm_num

end Tiles

/-! ### Curves -/

/-- Four numbers blended by Bernstein's polynomials of degree three. -/
noncomputable def blend (p₀ p₁ p₂ p₃ u : ℝ) : ℝ :=
  (1 - u) ^ 3 * p₀ + 3 * u * (1 - u) ^ 2 * p₁ + 3 * u ^ 2 * (1 - u) * p₂ + u ^ 3 * p₃

namespace Cubic

/-- Where a curve is at a time, from zero at its start to one at its end. -/
noncomputable def pointAt (c : Cubic ℝ) (u : ℝ) : Point ℝ :=
  ⟨blend c.start.x c.control₁.x c.control₂.x c.stop.x u,
    blend c.start.y c.control₁.y c.control₂.y c.stop.y u⟩

variable (c : Cubic ℝ) (u : ℝ)

lemma pointAt_one : c.pointAt 1 = c.stop := by
  simp [pointAt, blend]

lemma pointAt_firstHalf : c.halves.1.pointAt u = c.pointAt (u / 2) := by
  simp only [pointAt, blend, halves, Point.midpoint, Point.mk.injEq]
  constructor <;> ring

lemma pointAt_secondHalf : c.halves.2.pointAt u = c.pointAt ((1 + u) / 2) := by
  simp only [pointAt, blend, halves, Point.midpoint, Point.mk.injEq]
  constructor <;> ring

/-- The pieces of a curve end where the curve is at some times. -/
lemma exists_times_piecesFrom (t : Affine ℝ) (flatness : ℝ) (depth fuel : ℕ) :
    ∃ times, Tiles fuel times ∧
      (c.piecesFrom t flatness depth fuel).map (·.curve.stop) = times.map c.pointAt := by
  have leaf (fuel : ℕ) (c : Cubic ℝ) :
      ∃ times, Tiles fuel times ∧ [c.stop] = times.map c.pointAt :=
    ⟨[1], .whole fuel, by rw [List.map_singleton, pointAt_one]⟩
  induction fuel generalizing depth c with
  | zero => exact leaf 0 c
  | succ fuel ih =>
    rw [piecesFrom]
    split
    case isTrue =>
      obtain ⟨times, tiles, first⟩ := ih c.halves.1 (depth + 1)
      obtain ⟨times', tiles', second⟩ := ih c.halves.2 (depth + 1)
      refine ⟨_, tiles.halves tiles', ?_⟩
      rw [List.map_append, List.map_append, first, second, List.map_map, List.map_map]
      congr 1
      · exact List.map_congr_left fun u _ => c.pointAt_firstHalf u
      · exact List.map_congr_left fun u _ => c.pointAt_secondHalf u
    case isFalse => exact leaf (fuel + 1) c

/-- Halving `fuel` times leaves no more pieces than this. -/
lemma length_piecesFrom_le {α : Type} [Scalar α] (t : Affine α) (flatness : α) (depth fuel : ℕ)
    (c : Cubic α) : (c.piecesFrom t flatness depth fuel).length ≤ 2 ^ fuel := by
  induction fuel generalizing depth c with
  | zero => exact le_rfl
  | succ fuel ih =>
    rw [piecesFrom, pow_succ]
    split
    case isTrue =>
      have first := ih (depth + 1) c.halves.1
      have second := ih (depth + 1) c.halves.2
      rw [List.length_append]
      omega
    case isFalse => exact Nat.one_le_iff_ne_zero.2 (by positivity)

/-- A curve is drawn to its points at some times, of which the first is later than zero, each is
later than the one before it, and the last is one. Two times that follow each other are the ends of
an interval of the unit interval halved no more often than a piece may be halved. There is at least
one time, and there are no more than two to the number of halvings. -/
theorem exists_times (t : Affine ℝ) (f : Flattening ℝ) (c : Cubic ℝ) :
    ∃ times : List ℝ,
      (c.pieces t f).map (Piece.target t) = times.map (fun u => t.apply (c.pointAt u)) ∧
      (0 :: times).IsChain (· < ·) ∧ times.getLast? = some 1 ∧
      (0 :: times).IsChain (DyadicStep f.maxDepth) ∧
      1 ≤ times.length ∧ times.length ≤ 2 ^ f.maxDepth := by
  obtain ⟨times, tiles, stops⟩ := c.exists_times_piecesFrom t f.flatness 0 f.maxDepth
  have drawn := congrArg (List.map t.apply) stops
  rw [List.map_map, List.map_map] at drawn
  have count := congrArg List.length stops
  rw [List.length_map, List.length_map] at count
  refine ⟨times, drawn, tiles.steps.imp fun _ _ step => step.lt, tiles.last, tiles.steps, ?_, ?_⟩
  · exact List.length_pos_iff.2 tiles.ne_nil
  · exact count ▸ c.length_piecesFrom_le t f.flatness 0 f.maxDepth

end Cubic

end Toolpath
