import Toolpath.Proofs.Curve.Mapped
import Toolpath.Proofs.Curve.Times
import Toolpath.Proofs.Path.InStep

/-!
# How long pieces are

Over exact numbers, the control polygon of half a curve is no longer than seven eighths of that of
the whole, however the curve is mapped (`Cubic.polygonLength_halves_le`). So the pieces get shorter
with their depth, and with halvings enough for the length of the curve, none is left longer than the
flatness. A curve is no further from its start to its end than its control polygon is long, so the
lines it is drawn as are then no longer than the flatness either: `Cubic.pieces_short`.
-/

namespace Toolpath

/-! ### Distances -/

namespace Point

variable (p q r : Point ℝ)

lemma distance_eq_norm : p.distance q = ‖(⟨p.x, p.y⟩ - ⟨q.x, q.y⟩ : ℂ)‖ := by
  rw [Complex.norm_def, Complex.normSq_apply]
  rfl

lemma distance_nonneg : 0 ≤ p.distance q :=
  Real.sqrt_nonneg _

lemma distance_comm : p.distance q = q.distance p := by
  rw [distance_eq_norm, distance_eq_norm, norm_sub_rev]

lemma distance_triangle : p.distance r ≤ p.distance q + q.distance r := by
  simp only [distance_eq_norm]
  exact norm_sub_le_norm_sub_add_norm_sub _ _ _

lemma midpoint_comm : p.midpoint q = q.midpoint p := by
  simp only [midpoint, mk.injEq]
  constructor <;> ring

lemma distance_midpoint : p.distance (p.midpoint q) = p.distance q / 2 := by
  have half : (⟨p.x, p.y⟩ - ⟨(p.midpoint q).x, (p.midpoint q).y⟩ : ℂ) =
      (⟨p.x, p.y⟩ - ⟨q.x, q.y⟩) / 2 := by
    apply Complex.ext
    · simp only [midpoint, Complex.sub_re, Complex.div_ofNat_re]
      ring
    · simp only [midpoint, Complex.sub_im, Complex.div_ofNat_im]
      ring
  rw [distance_eq_norm, distance_eq_norm, half, norm_div, Complex.norm_ofNat]

lemma midpoint_distance : (p.midpoint q).distance q = p.distance q / 2 := by
  rw [distance_comm, midpoint_comm, distance_midpoint, distance_comm]

/-- The middles of two lines are no further apart than half the way along both. -/
lemma distance_midpoint_midpoint_le :
    (p.midpoint q).distance (q.midpoint r) ≤ (p.distance q + q.distance r) / 2 := by
  have through := distance_triangle (p.midpoint q) q (q.midpoint r)
  rw [midpoint_distance, distance_midpoint] at through
  linarith

end Point

namespace Cubic

variable (t : Affine ℝ) (c : Cubic ℝ)

/-! ### Halves -/

/-- A curve is drawn to its end by no longer a way than around its control points. -/
lemma distance_le_polygonLength :
    (t.apply c.start).distance (t.apply c.stop) ≤ c.polygonLength t := by
  have first := (t.apply c.start).distance_triangle (t.apply c.control₁) (t.apply c.stop)
  have second := (t.apply c.control₁).distance_triangle (t.apply c.control₂) (t.apply c.stop)
  simp only [polygonLength]
  linarith

/-- Both halves are shorter than the whole by an eighth at least. -/
lemma polygonLength_halves_le :
    c.halves.1.polygonLength t ≤ 7 / 8 * c.polygonLength t ∧
      c.halves.2.polygonLength t ≤ 7 / 8 * c.polygonLength t := by
  simp only [polygonLength, halves, Affine.apply_midpoint]
  generalize t.apply c.start = p₀
  generalize t.apply c.control₁ = p₁
  generalize t.apply c.control₂ = p₂
  generalize t.apply c.stop = p₃
  have := p₀.distance_nonneg p₁
  have := p₁.distance_nonneg p₂
  have := p₂.distance_nonneg p₃
  have first := p₀.distance_midpoint_midpoint_le p₁ p₂
  have second := p₁.distance_midpoint_midpoint_le p₂ p₃
  have inner := (p₀.midpoint p₁).distance_midpoint_midpoint_le (p₁.midpoint p₂) (p₂.midpoint p₃)
  rw [Point.distance_midpoint, Point.distance_midpoint, Point.distance_midpoint,
    Point.midpoint_distance, Point.midpoint_distance, Point.midpoint_distance]
  constructor <;> linarith

/-! ### Parts -/

/-- What a curve comes apart into by halving it this many times. -/
inductive IsPart {α : Type} [Scalar α] (c : Cubic α) : ℕ → Cubic α → Prop
  | whole : IsPart c 0 c
  | firstHalf {k : ℕ} {part : Cubic α} : IsPart c k part → IsPart c (k + 1) part.halves.1
  | secondHalf {k : ℕ} {part : Cubic α} : IsPart c k part → IsPart c (k + 1) part.halves.2

variable {t c}

lemma IsPart.polygonLength_le {k : ℕ} {part : Cubic ℝ} (isPart : c.IsPart k part) :
    part.polygonLength t ≤ (7 / 8) ^ k * c.polygonLength t := by
  have shorter {k : ℕ} {half whole : ℝ} (le : half ≤ 7 / 8 * whole)
      (ih : whole ≤ (7 / 8) ^ k * c.polygonLength t) :
      half ≤ (7 / 8) ^ (k + 1) * c.polygonLength t := by
    rw [pow_succ]
    linarith
  induction isPart with
  | whole => rw [pow_zero, one_mul]
  | firstHalf _ ih => exact shorter (polygonLength_halves_le t _).1 ih
  | secondHalf _ ih => exact shorter (polygonLength_halves_le t _).2 ih

/-- A piece is a part of the curve with its length. It is no deeper than a piece may be, and if it
could be halved once more, it is short enough. -/
structure HasPiece (t : Affine ℝ) (flatness : ℝ) (maxDepth : ℕ) (c : Cubic ℝ) (piece : Piece ℝ) :
    Prop where
  isPart : c.IsPart piece.depth piece.curve
  length : piece.length = piece.curve.polygonLength t
  depth : piece.depth ≤ maxDepth
  short : piece.depth < maxDepth → piece.length ≤ flatness

lemma IsPart.hasPiece {flatness : ℝ} {depth fuel : ℕ} {part : Cubic ℝ} {piece : Piece ℝ}
    (isPart : c.IsPart depth part) (mem : piece ∈ part.piecesFrom t flatness depth fuel) :
    c.HasPiece t flatness (depth + fuel) piece := by
  induction fuel generalizing depth part with
  | zero =>
    obtain rfl := List.mem_singleton.1 mem
    exact ⟨isPart, rfl, le_rfl, fun less => absurd less (lt_irrefl _)⟩
  | succ fuel ih =>
    rw [piecesFrom] at mem
    split at mem
    case isTrue =>
      rw [Nat.add_comm fuel 1, ← Nat.add_assoc]
      rcases List.mem_append.1 mem with first | second
      · exact ih isPart.firstHalf first
      · exact ih isPart.secondHalf second
    case isFalse short =>
      obtain rfl := List.mem_singleton.1 mem
      exact ⟨isPart, rfl, Nat.le_add_right _ _, fun _ => not_lt.1 short⟩

/-- With halvings enough, no piece is left long. -/
lemma HasPiece.length_le {flatness : ℝ} {maxDepth : ℕ} {piece : Piece ℝ}
    (hasPiece : c.HasPiece t flatness maxDepth piece)
    (enough : c.polygonLength t * (7 / 8) ^ maxDepth ≤ flatness) : piece.length ≤ flatness := by
  rcases hasPiece.depth.lt_or_eq with less | deepest
  · exact hasPiece.short less
  · have shrunk := hasPiece.isPart.polygonLength_le (t := t)
    rw [← hasPiece.length, deepest, mul_comm] at shrunk
    exact shrunk.trans enough

/-! ### The lines a curve is drawn as -/

/-- The pieces of a curve follow one another: what holds of the ends of each piece holds of each two
neighbours among the start of the curve and the ends of the pieces. -/
lemma isChain_stops {α : Type} [Scalar α] {related : Point α → Point α → Prop} (t : Affine α)
    (flatness : α) (depth fuel : ℕ) (c : Cubic α)
    (holds : ∀ piece ∈ c.piecesFrom t flatness depth fuel,
      related piece.curve.start piece.curve.stop) :
    (c.start :: (c.piecesFrom t flatness depth fuel).map (·.curve.stop)).IsChain related := by
  induction fuel generalizing depth c with
  | zero => exact List.isChain_pair.2 (holds _ List.mem_cons_self)
  | succ fuel ih =>
    rw [piecesFrom] at holds ⊢
    split at holds
    case isTrue long =>
      rw [if_pos long, List.map_append]
      have first := ih (depth + 1) c.halves.1 fun _ mem => holds _ (List.mem_append_left _ mem)
      have second := ih (depth + 1) c.halves.2 fun _ mem => holds _ (List.mem_append_right _ mem)
      exact isChain_cons_append first (getLast?_map_stop_piecesFrom t flatness _ _ _) second
    case isFalse short =>
      rw [if_neg short]
      exact List.isChain_pair.2 (holds _ List.mem_cons_self)

/-- A piece that a curve is drawn as has the length of its control polygon where it is drawn. It is
no longer than the flatness unless it was halved as often as a piece may be, and every part of the
curve is shorter than the whole by an eighth at least for each time it was halved. So where that
many eighths off the length of the curve leave no more than the flatness, the number of halvings
cuts nothing short, and the curve is drawn as lines that are no longer than the flatness. -/
theorem pieces_short (f : Svg.Frame ℝ) (c : Cubic ℝ) :
    let pieces := c.pieces f.map f.flattening
    (∀ piece ∈ pieces, c.IsPart piece.depth piece.curve ∧
        piece.length = piece.curve.polygonLength f.map ∧
        (piece.depth < f.flattening.maxDepth → piece.length ≤ f.flattening.flatness)) ∧
      (∀ k part, c.IsPart k part →
        part.polygonLength f.map ≤ (7 / 8) ^ k * c.polygonLength f.map) ∧
      (c.polygonLength f.map * (7 / 8) ^ f.flattening.maxDepth ≤ f.flattening.flatness →
        Svg.Sketch.depthNotes f pieces = [] ∧
          (f.map.apply c.start :: pieces.map (Piece.target f.map)).IsChain fun p q =>
            p.distance q ≤ f.flattening.flatness) := by
  intro pieces
  have known (piece : Piece ℝ) (mem : piece ∈ pieces) :
      c.HasPiece f.map f.flattening.flatness f.flattening.maxDepth piece := by
    have hasPiece := IsPart.hasPiece .whole mem
    rwa [Nat.zero_add] at hasPiece
  refine ⟨fun piece mem => ?_, fun k part isPart => isPart.polygonLength_le, fun enough => ⟨?_, ?_⟩⟩
  · have hasPiece := known piece mem
    exact ⟨hasPiece.isPart, hasPiece.length, hasPiece.short⟩
  · have flat : ∀ piece ∈ pieces, ¬ piece.isCapped f.flattening := fun piece mem => by
      simpa [Piece.isCapped] using (known piece mem).length_le enough
    rw [Svg.Sketch.depthNotes, List.filter_eq_nil_iff.2 flat]
    rfl
  · have split : Piece.target f.map = f.map.apply ∘ fun piece : Piece ℝ => piece.curve.stop := rfl
    rw [split, ← List.map_map]
    refine (List.isChain_cons_map f.map.apply).2 (isChain_stops _ _ _ _ c fun piece mem => ?_)
    have chord := distance_le_polygonLength f.map piece.curve
    rw [← (known piece mem).length] at chord
    exact chord.trans ((known piece mem).length_le enough)

/-- A curve of a length of four inches, as it is drawn: sixteen halvings are enough for half an
inch. -/
theorem pieces_short_of_four_inches :
    let f : Svg.Frame ℝ := ⟨⟨2, 0, 0, -1, 0, 3⟩, ⟨1 / 2, 16⟩⟩
    let c : Cubic ℝ := ⟨⟨0, 0⟩, ⟨0, 1⟩, ⟨1, 1⟩, ⟨1, 0⟩⟩
    let pieces := c.pieces f.map f.flattening
    (c.polygonLength f.map = 4 ∧ (4 : ℝ) * (7 / 8) ^ 16 ≤ 1 / 2) ∧
      (∀ piece ∈ pieces, piece.depth < 16 → piece.length ≤ 1 / 2) ∧
      c.halves.1.halves.2.polygonLength f.map ≤ (7 / 8) ^ 2 * 4 ∧
      Svg.Sketch.depthNotes f pieces = [] ∧
      (f.map.apply c.start :: pieces.map (Piece.target f.map)).IsChain fun p q =>
        p.distance q ≤ 1 / 2 := by
  intro f c pieces
  have four : c.polygonLength f.map = 4 := by
    simp only [polygonLength, Affine.apply, Point.distance, Scalar.sqrt, f, c]
    norm_num
  have enough : (4 : ℝ) * (7 / 8) ^ 16 ≤ 1 / 2 := by norm_num
  obtain ⟨known, shrunk, lines⟩ := pieces_short f c
  have drawn := lines (by rw [four]; exact enough)
  have quarter := shrunk 2 _ (.secondHalf (.firstHalf .whole))
  rw [four] at quarter
  exact ⟨⟨four, enough⟩, fun piece mem => (known piece mem).2.2, quarter, drawn⟩

end Cubic

end Toolpath
