import Mathlib
import Toolpath.Geometry.Cubic
import Toolpath.Proofs.Transform.Maps

/-!
# Mapped curves

A curve is halved where it is given and measured where it is drawn. Over exact numbers it makes no
difference how much of the way between the two is in its control points and how much in the map:
mapping a curve and then halving it gives the mapped halves (`Cubic.halves_map`), and both are
measured alike, so the same pieces are halved (`Cubic.piecesFrom_map`). What is drawn is known from
the curve as it is drawn: `Cubic.targets_compose`. No map has to be undone for this.
-/

namespace Toolpath

namespace Affine

variable (t : Affine ℝ)

/-- The point half-way is mapped to the point half-way. -/
lemma apply_midpoint (p q : Point ℝ) :
    t.apply (p.midpoint q) = (t.apply p).midpoint (t.apply q) := by
  simp only [apply, Point.midpoint, Point.mk.injEq]
  constructor <;> ring

lemma identity_compose : identity.compose t = t := by
  simp only [compose, identity]
  norm_num

end Affine

/-- A curve with its control points mapped. -/
def Cubic.map {α : Type} (g : Point α → Point α) (c : Cubic α) : Cubic α :=
  ⟨g c.start, g c.control₁, g c.control₂, g c.stop⟩

/-- A piece with its curve mapped, as deep and as long as before. -/
def Piece.map {α : Type} (g : Point α → Point α) (piece : Piece α) : Piece α :=
  { piece with curve := piece.curve.map g }

namespace Cubic

variable (t u : Affine ℝ) (c : Cubic ℝ)

lemma halves_map :
    (c.map t.apply).halves = (c.halves.1.map t.apply, c.halves.2.map t.apply) := by
  simp only [halves, map, Affine.apply_midpoint]

lemma polygonLength_map :
    (c.map u.apply).polygonLength t = c.polygonLength (t.compose u) := by
  simp only [polygonLength, map, Affine.apply_compose]

/-- The pieces of a mapped curve are the mapped pieces: whether to halve is decided alike. -/
lemma piecesFrom_map (flatness : ℝ) (depth fuel : ℕ) :
    (c.map u.apply).piecesFrom t flatness depth fuel =
      (c.piecesFrom (t.compose u) flatness depth fuel).map (Piece.map u.apply) := by
  induction fuel generalizing depth c with
  | zero =>
    rw [piecesFrom, piecesFrom, polygonLength_map]
    rfl
  | succ fuel ih =>
    rw [piecesFrom, piecesFrom, polygonLength_map]
    split
    case isTrue => rw [halves_map, ih, ih, List.map_append]
    case isFalse => rfl

lemma pieces_map (f : Flattening ℝ) :
    (c.map u.apply).pieces t f = (c.pieces (t.compose u) f).map (Piece.map u.apply) :=
  piecesFrom_map t u c f.flatness 0 f.maxDepth

/-- A mapped piece is drawn to where the piece is drawn to by both maps. -/
lemma target_map (piece : Piece ℝ) :
    (piece.map u.apply).target t = piece.target (t.compose u) :=
  (Affine.apply_compose t u _).symm

lemma targets_map (f : Flattening ℝ) :
    ((c.map u.apply).pieces t f).map (Piece.target t) =
      (c.pieces (t.compose u) f).map (Piece.target (t.compose u)) := by
  rw [pieces_map, List.map_map]
  exact List.map_congr_left fun piece _ => target_map t u piece

/-- A curve is drawn like the curve of its control points as they are drawn. -/
lemma targets_map_identity (f : Flattening ℝ) :
    ((c.map t.apply).pieces .identity f).map (Piece.target .identity) =
      (c.pieces t f).map (Piece.target t) := by
  rw [targets_map, Affine.identity_compose]

/-- Under two maps one inside the other a curve is drawn to the points that the curve mapped by the
inner one is drawn to under the outer one; the pieces are those of the mapped curve, as deep and as
long. So a curve is drawn to the same points however its control points and its map are chosen, as
long as the control points are drawn in the same places. The maps need not have inverses. -/
theorem targets_compose (t u : Affine ℝ) (f : Flattening ℝ) (c : Cubic ℝ) :
    (c.pieces (t.compose u) f).map (Piece.target (t.compose u)) =
        ((c.map u.apply).pieces t f).map (Piece.target t) ∧
      (c.pieces (t.compose u) f).map (Piece.map u.apply) = (c.map u.apply).pieces t f ∧
      ∀ (v : Affine ℝ) (d : Cubic ℝ), d.map v.apply = c.map t.apply →
        (d.pieces v f).map (Piece.target v) = (c.pieces t f).map (Piece.target t) := by
  refine ⟨(targets_map t u c f).symm, (pieces_map t u c f).symm, fun v d alike => ?_⟩
  rw [← targets_map_identity, alike, targets_map_identity]

/-- A flat map, and another one that is twice as flat, with curves that only look alike once they
are drawn. -/
theorem targets_compose_of_flat_maps :
    let t : Affine ℝ := ⟨1, 0, 0, 0, 0, 3⟩
    let v : Affine ℝ := ⟨1 / 2, 0, 0, 0, 0, 3⟩
    let c : Cubic ℝ := ⟨⟨0, 0⟩, ⟨1, 5⟩, ⟨2, -3⟩, ⟨3, 7⟩⟩
    let d : Cubic ℝ := ⟨⟨0, 8⟩, ⟨2, 0⟩, ⟨4, 1⟩, ⟨6, 0⟩⟩
    let f : Flattening ℝ := ⟨1 / 8, 16⟩
    d.map v.apply = c.map t.apply ∧
      (c.pieces (t.compose v) f).map (Piece.target (t.compose v)) =
        ((c.map v.apply).pieces t f).map (Piece.target t) ∧
      (d.pieces v f).map (Piece.target v) = (c.pieces t f).map (Piece.target t) := by
  intro t v c d f
  have alike : d.map v.apply = c.map t.apply := by
    simp only [map, Affine.apply, d, v, c, t]
    norm_num
  obtain ⟨composed, _, same⟩ := targets_compose t v f c
  exact ⟨alike, composed, same v d alike⟩

end Cubic

end Toolpath
