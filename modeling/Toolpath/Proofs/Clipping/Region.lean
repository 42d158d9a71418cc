import Mathlib
import Toolpath.Conversion
import Toolpath.Proofs.Exact

/-!
# What clipping draws

Over exact numbers, clipping to a page draws those points of the drawing that lie on the page and
the tolerance around it: `Page.drawn_clip_region`. A drawing is taken as the set of points on its
lines (`drawn`), which tells neither where a piece begins nor in which direction it runs.

The half-planes come first. A segment from inside to outside meets a half-plane in the part up to
the crossing, a segment outside does not meet it, and `HalfPlane.drawn_clip` follows by induction on
the points ahead, with the two states of the clipping side by side. A piece under way is kept with
its last point first, which is why `drawnLine_reverse` is needed. The page is the intersection of
four half-planes.

The second half of `Page.drawn_clip_region` says that no crossing divides by zero: the result is the
same whatever the quotient by zero is taken to be.
-/

namespace Toolpath

/-- The points of the straight line between two points. -/
def between (p q : Point ℝ) : Set (Point ℝ) :=
  {r | ∃ t : ℝ, 0 ≤ t ∧ t ≤ 1 ∧ r = ⟨(1 - t) * p.x + t * q.x, (1 - t) * p.y + t * q.y⟩}

/-- The points of a polyline: its vertices and what lies between neighbours. -/
def drawnLine (line : Polyline ℝ) : Set (Point ℝ) :=
  {r | r ∈ line ∨ ∃ p q, [p, q] <:+: line ∧ r ∈ between p q}

/-- The points of a drawing. -/
def drawn (lines : List (Polyline ℝ)) : Set (Point ℝ) :=
  {r | ∃ line ∈ lines, r ∈ drawnLine line}

/-- A half-plane as a set of points. -/
def HalfPlane.region (h : HalfPlane ℝ) : Set (Point ℝ) :=
  {r | 0 ≤ h.eval r}

/-- A page as a set of points, with a tolerance on all sides. -/
def Page.region (page : Page ℝ) (ε : ℝ) : Set (Point ℝ) :=
  {r | -ε ≤ r.x ∧ r.x ≤ page.width + ε ∧ -ε ≤ r.y ∧ r.y ≤ page.height + ε}

/-! ### Segments -/

lemma left_mem_between (p q : Point ℝ) : p ∈ between p q :=
  ⟨0, le_refl 0, zero_le_one, by simp⟩

lemma between_comm (p q : Point ℝ) : between p q = between q p := by
  ext r
  constructor <;>
    · rintro ⟨t, low, high, rfl⟩
      refine ⟨1 - t, by linarith, by linarith, ?_⟩
      simp only [Point.mk.injEq]
      constructor <;> ring

/-! ### Polylines -/

@[simp] lemma drawnLine_nil : drawnLine [] = ∅ := by
  ext r
  simp [drawnLine]

@[simp] lemma drawnLine_singleton (p : Point ℝ) : drawnLine [p] = {p} := by
  ext r
  simp [drawnLine, List.infix_cons_iff]

lemma drawnLine_cons_cons (p q : Point ℝ) (rest : Polyline ℝ) :
    drawnLine (p :: q :: rest) = between p q ∪ drawnLine (q :: rest) := by
  ext r
  constructor
  · rintro (vertex | ⟨a, b, pair, on⟩)
    · cases vertex with
      | head => exact .inl (left_mem_between p q)
      | tail _ later => exact .inr (.inl later)
    · rcases List.infix_cons_iff.1 pair with first | later
      · obtain ⟨rfl, rest'⟩ := List.cons_prefix_cons.1 first
        obtain ⟨rfl, _⟩ := List.cons_prefix_cons.1 rest'
        exact .inl on
      · exact .inr (.inr ⟨a, b, later, on⟩)
  · rintro (on | vertex | ⟨a, b, pair, on⟩)
    · exact .inr ⟨p, q, (List.prefix_append [p, q] rest).isInfix, on⟩
    · exact .inl (.tail _ vertex)
    · exact .inr ⟨a, b, List.infix_cons pair, on⟩

lemma head_mem_drawnLine (p : Point ℝ) (rest : Polyline ℝ) : p ∈ drawnLine (p :: rest) :=
  .inl (List.mem_cons_self)

/-- A polyline is the same in both directions. -/
lemma drawnLine_reverse (line : Polyline ℝ) : drawnLine line.reverse = drawnLine line := by
  have turned (line : Polyline ℝ) : drawnLine line.reverse ⊆ drawnLine line := by
    rintro r (vertex | ⟨a, b, pair, on⟩)
    · exact .inl (List.mem_reverse.1 vertex)
    · refine .inr ⟨b, a, ?_, between_comm a b ▸ on⟩
      have := List.reverse_infix.2 pair
      simpa using this
  apply (turned line).antisymm
  simpa using turned line.reverse

@[simp] lemma drawn_nil : drawn [] = ∅ := by
  ext r
  simp [drawn]

@[simp] lemma drawn_cons (line : Polyline ℝ) (lines : List (Polyline ℝ)) :
    drawn (line :: lines) = drawnLine line ∪ drawn lines := by
  ext r
  simp [drawn]

@[simp] lemma drawn_append (lines more : List (Polyline ℝ)) :
    drawn (lines ++ more) = drawn lines ∪ drawn more := by
  ext r
  simp [drawn, or_and_right, exists_or]

namespace HalfPlane

variable (h : HalfPlane ℝ)

/-! ### Segments and half-planes -/

lemma contains_iff (p : Point ℝ) : h.contains p = true ↔ 0 ≤ h.eval p := by
  norm_num [contains]

/-- The value changes evenly along a segment. -/
lemma eval_between (p q : Point ℝ) (t : ℝ) :
    h.eval ⟨(1 - t) * p.x + t * q.x, (1 - t) * p.y + t * q.y⟩ =
      (1 - t) * h.eval p + t * h.eval q := by
  simp only [eval]
  ring

lemma between_subset_region {p q : Point ℝ} (hp : h.contains p = true)
    (hq : h.contains q = true) : between p q ⊆ h.region := by
  rintro r ⟨t, low, high, rfl⟩
  rw [contains_iff] at hp hq
  show 0 ≤ h.eval _
  rw [eval_between]
  have := mul_nonneg (sub_nonneg.2 high) hp
  have := mul_nonneg low hq
  linarith

lemma between_inter_region_of_outside {p q : Point ℝ} (hp : ¬ h.contains p = true)
    (hq : ¬ h.contains q = true) : between p q ∩ h.region = ∅ := by
  rw [contains_iff, not_le] at hp hq
  rw [Set.eq_empty_iff_forall_notMem]
  rintro r ⟨⟨t, low, high, rfl⟩, inside⟩
  have inside : 0 ≤ h.eval _ := inside
  rw [eval_between] at inside
  rcases low.eq_or_lt with rfl | low
  · linarith
  · have := mul_neg_of_pos_of_neg low hq
    have := mul_nonpos_of_nonneg_of_nonpos (sub_nonneg.2 high) hp.le
    linarith

/-- Where a segment from inside to outside has its crossing. -/
noncomputable def share (p q : Point ℝ) : ℝ := h.eval p / (h.eval p - h.eval q)

/-- The crossing divides the segment by its share. -/
lemma crossing_eq (p q : Point ℝ) :
    h.crossing p q =
      ⟨(1 - h.share p q) * p.x + h.share p q * q.x,
        (1 - h.share p q) * p.y + h.share p q * q.y⟩ := by
  have turned : -h.eval p / (h.eval q - h.eval p) = h.share p q := by
    rw [share, ← neg_sub (h.eval p), neg_div_neg_eq]
  simp only [crossing, Point.lerp, turned, Point.mk.injEq]
  constructor <;> ring

lemma crossing_comm {p q : Point ℝ} (apart : h.eval p ≠ h.eval q) :
    h.crossing p q = h.crossing q p := by
  have turned : h.share q p = 1 - h.share p q := by
    have := sub_ne_zero.2 apart
    have := sub_ne_zero.2 apart.symm
    rw [share, share]
    field_simp
    ring
  rw [crossing_eq, crossing_eq, turned]
  simp only [Point.mk.injEq]
  constructor <;> ring

/-- The part of a segment inside, where it begins inside and ends outside. -/
lemma between_inter_region_of_leaving {p q : Point ℝ} (hp : h.contains p = true)
    (hq : ¬ h.contains q = true) : between p q ∩ h.region = between p (h.crossing p q) := by
  rw [contains_iff] at hp hq
  rw [not_le] at hq
  have fall : 0 < h.eval p - h.eval q := by linarith
  have spent : h.share p q * (h.eval p - h.eval q) = h.eval p := div_mul_cancel₀ _ fall.ne'
  have low : 0 ≤ h.share p q := div_nonneg hp fall.le
  have high : h.share p q ≤ 1 := (div_le_one fall).2 (by linarith)
  rw [crossing_eq]
  generalize h.share p q = s at spent low high
  ext r
  constructor
  · rintro ⟨⟨t, tlow, thigh, rfl⟩, inside⟩
    have inside : 0 ≤ h.eval _ := inside
    rw [eval_between] at inside
    -- The point comes before the crossing, so it is at the share `t / s` of the way there.
    have before : t ≤ s := by
      by_contra after
      nlinarith
    rcases low.eq_or_lt with rfl | low
    · have : t = 0 := le_antisymm before tlow
      subst this
      exact ⟨0, le_refl 0, zero_le_one, by simp⟩
    · refine ⟨t / s, by positivity, (div_le_one low).2 before, ?_⟩
      simp only [Point.mk.injEq]
      constructor <;> field_simp <;> ring
  · rintro ⟨t, tlow, thigh, rfl⟩
    refine ⟨⟨t * s, by positivity, by nlinarith, ?_⟩, ?_⟩
    · simp only [Point.mk.injEq]
      constructor <;> ring
    · show 0 ≤ h.eval _
      rw [eval_between, eval_between]
      nlinarith

/-- The part of a segment inside, where it begins outside and ends inside. -/
lemma between_inter_region_of_entering {p q : Point ℝ} (hp : ¬ h.contains p = true)
    (hq : h.contains q = true) : between p q ∩ h.region = between (h.crossing p q) q := by
  have apart : h.eval p ≠ h.eval q := by
    rw [contains_iff] at hp hq
    rw [not_le] at hp
    exact (hp.trans_le hq).ne
  rw [between_comm p q, h.between_inter_region_of_leaving hq hp, between_comm q,
    h.crossing_comm apart.symm]

/-! ### Polylines and half-planes -/

/-- What the pieces of the points ahead draw, behind a point inside and behind one outside. -/
lemma drawn_pieces (rest : Polyline ℝ) :
    (∀ p piece, h.contains p = true →
      drawn (h.piecesInside p (p :: piece) rest) =
        drawnLine (p :: piece) ∪ drawnLine (p :: rest) ∩ h.region) ∧
    (∀ p, ¬ h.contains p = true →
      drawn (h.piecesOutside p rest) = drawnLine (p :: rest) ∩ h.region) := by
  -- Each state hands over to the other where the edge is crossed, so both are proved together.
  induction rest with
  | nil =>
    constructor
    · intro p piece hp
      have here : ({p} : Set (Point ℝ)) ∩ h.region ⊆ drawnLine (p :: piece) := by
        rintro r ⟨rfl, _⟩
        exact head_mem_drawnLine r piece
      rw [piecesInside, drawn_cons, drawn_nil, drawnLine_reverse, drawnLine_singleton,
        Set.union_empty, Set.union_eq_left.2 here]
    · intro p hp
      have away : p ∉ h.region := fun inside => hp ((h.contains_iff p).2 inside)
      rw [piecesOutside, drawn_nil, drawnLine_singleton,
        Set.singleton_inter_eq_empty.2 away]
  | cons q rest ih =>
    obtain ⟨inside, outside⟩ := ih
    constructor
    · intro p piece hp
      rw [piecesInside, drawnLine_cons_cons, Set.union_inter_distrib_right]
      by_cases hq : h.contains q = true
      · rw [if_pos hq, inside q (p :: piece) hq, drawnLine_cons_cons, between_comm q p,
          Set.inter_eq_left.2 (h.between_subset_region hp hq)]
        ac_rfl
      · rw [if_neg hq, drawn_cons, outside q hq, drawnLine_reverse, drawnLine_cons_cons,
          between_comm _ p, h.between_inter_region_of_leaving hp hq]
        ac_rfl
    · intro p hp
      rw [piecesOutside, drawnLine_cons_cons, Set.union_inter_distrib_right]
      by_cases hq : h.contains q = true
      · have here : ({h.crossing p q} : Set (Point ℝ)) ⊆ between (h.crossing p q) q := by
          rintro r rfl
          exact left_mem_between _ q
        rw [if_pos hq, inside q [h.crossing p q] hq, drawnLine_cons_cons, drawnLine_singleton,
          between_comm q, Set.union_eq_left.2 here, h.between_inter_region_of_entering hp hq]
      · rw [if_neg hq, outside q hq, h.between_inter_region_of_outside hp hq, Set.empty_union]

/-- The pieces of a polyline draw the part of it inside. -/
lemma drawn_clipLine (line : Polyline ℝ) :
    drawn (h.clipLine line) = drawnLine line ∩ h.region := by
  cases line with
  | nil => simp [clipLine]
  | cons p rest =>
    obtain ⟨inside, outside⟩ := h.drawn_pieces rest
    rw [clipLine]
    by_cases hp : h.contains p = true
    · have here : drawnLine [p] ⊆ drawnLine (p :: rest) ∩ h.region := by
        rw [drawnLine_singleton]
        rintro r rfl
        exact ⟨head_mem_drawnLine r rest, (h.contains_iff r).1 hp⟩
      rw [if_pos hp, inside p [] hp, Set.union_eq_right.2 here]
    · rw [if_neg hp, outside p hp]

/-- Clipping draws the part of a drawing inside. -/
theorem drawn_clip (lines : List (Polyline ℝ)) :
    drawn (h.clip lines) = drawn lines ∩ h.region := by
  induction lines with
  | nil => simp [clip]
  | cons line lines ih =>
    have split : h.clip (line :: lines) = h.clipLine line ++ h.clip lines :=
      List.flatMap_cons
    rw [split, drawn_append, drawn_cons, drawn_clipLine, ih, Set.union_inter_distrib_right]

/-! ### No division by zero -/

/-- Two points on different sides have different values, so their crossing divides by a number that
is not zero. -/
lemma crossing_dividing (byZero : ℝ → ℝ) {p q : Point ℝ}
    (apart : h.contains p ≠ h.contains q) :
    @crossing ℝ (.dividing byZero) h p q = h.crossing p q := by
  have nonzero : h.eval q - h.eval p ≠ 0 := by
    intro zero
    apply apart
    rw [Bool.eq_iff_iff, contains_iff, contains_iff, sub_eq_zero.1 zero]
  show @Point.lerp ℝ _ p q (if h.eval q - h.eval p = 0 then _ else _) = _
  rw [if_neg nonzero]
  rfl

/-- The pieces of the points ahead do not depend on quotients by zero. -/
lemma pieces_dividing (byZero : ℝ → ℝ) (rest : Polyline ℝ) :
    (∀ p piece, h.contains p = true →
      @piecesInside ℝ (.dividing byZero) h p piece rest = h.piecesInside p piece rest) ∧
    (∀ p, ¬ h.contains p = true →
      @piecesOutside ℝ (.dividing byZero) h p rest = h.piecesOutside p rest) := by
  have same : @contains ℝ (.dividing byZero) h = h.contains := rfl
  induction rest with
  | nil =>
    constructor
    · intro p piece hp
      unfold piecesInside; rfl
    · intro p hp
      unfold piecesOutside; rfl
  | cons q rest ih =>
    obtain ⟨inside, outside⟩ := ih
    constructor
    · intro p piece hp
      unfold piecesInside
      rw [same]
      by_cases hq : h.contains q = true
      · rw [if_pos hq, if_pos hq, inside q _ hq]
      · rw [if_neg hq, if_neg hq, outside q hq, h.crossing_dividing byZero (by simp [hp, hq])]
    · intro p hp
      unfold piecesOutside
      rw [same]
      by_cases hq : h.contains q = true
      · rw [if_pos hq, if_pos hq, inside q _ hq, h.crossing_dividing byZero (by simp [hp, hq])]
      · rw [if_neg hq, if_neg hq, outside q hq]

/-- Clipping to a half-plane never divides by zero. -/
lemma clip_dividing (byZero : ℝ → ℝ) (lines : List (Polyline ℝ)) :
    @clip ℝ (.dividing byZero) h lines = h.clip lines := by
  have each (line : Polyline ℝ) : @clipLine ℝ (.dividing byZero) h line = h.clipLine line := by
    cases line with
    | nil => rfl
    | cons p rest =>
      obtain ⟨inside, outside⟩ := h.pieces_dividing byZero rest
      have same : @contains ℝ (.dividing byZero) h = h.contains := rfl
      unfold clipLine
      dsimp only
      rw [same]
      by_cases hp : h.contains p = true
      · rw [if_pos hp, if_pos hp, inside p _ hp]
      · rw [if_neg hp, if_neg hp, outside p hp]
  exact congrArg (lines.flatMap ·) (funext each)

end HalfPlane

/-! ### Pages -/

namespace Page

variable (page : Page ℝ) (ε : ℝ)

lemma mem_region_iff (r : Point ℝ) :
    r ∈ page.region ε ↔ ∀ h ∈ page.halfPlanes ε, r ∈ h.region := by
  simp only [region, halfPlanes, HalfPlane.region, HalfPlane.eval, Set.mem_ofPred_eq,
    List.forall_mem_cons, List.not_mem_nil, false_imp_iff, implies_true, and_true]
  norm_num
  constructor <;> rintro ⟨left, bottom, right, top⟩ <;> refine ⟨?_, ?_, ?_, ?_⟩ <;> linarith

/-- Clipping at one edge after another draws what lies inside all of them. -/
lemma drawn_foldl_clip (edges : List (HalfPlane ℝ)) (lines : List (Polyline ℝ)) :
    drawn (edges.foldl (fun lines edge => edge.clip lines) lines) =
      drawn lines ∩ {r | ∀ h ∈ edges, r ∈ h.region} := by
  induction edges generalizing lines with
  | nil => simp
  | cons edge edges ih =>
    rw [List.foldl_cons, ih, edge.drawn_clip, Set.inter_assoc]
    congr 1
    ext r
    simp

/-- Clipping to a page draws exactly what lies on the page and the tolerance around it, and it never
divides by zero. -/
theorem drawn_clip_region (lines : List (Polyline ℝ)) :
    drawn (page.clip ε lines) = drawn lines ∩ page.region ε ∧
    ∀ byZero : ℝ → ℝ, @clip ℝ (.dividing byZero) page ε lines = page.clip ε lines := by
  constructor
  · rw [clip, drawn_foldl_clip]
    congr 1
    ext r
    rw [mem_region_iff]
    rfl
  · intro byZero
    have same : @halfPlanes ℝ (.dividing byZero) page ε = page.halfPlanes ε := rfl
    have steps : (fun lines (edge : HalfPlane ℝ) => @HalfPlane.clip ℝ (.dividing byZero) edge lines)
        = fun lines edge => edge.clip lines := by
      funext lines edge
      exact edge.clip_dividing byZero lines
    unfold clip
    rw [same, steps]

end Page

end Toolpath
