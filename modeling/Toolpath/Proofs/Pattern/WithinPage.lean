import Toolpath.Proofs.Clipping.Points
import Toolpath.Proofs.Pattern.Accepted

/-!
# Previews within their page

The bounds of a preview are taken over the targets of its steps. What is drawn are these targets
and, if the first step is a line, the origin, where a pen that was never moved begins
(`flatten_strokeLines`). So the page of a preview shows all of the drawing if the first step is a
move, and otherwise if it shows the origin (`exists_result_preview_within`). Rounding never takes a
quarter of an inch within a million inches.
-/

namespace Toolpath

/-! ### What steps draw -/

namespace Drawing

variable {α : Type}

lemma flatten_moveTo (d : Drawing α) (p : Point α) :
    (d.moveTo p).polylines.flatten = d.polylines.flatten ++ [p] := by
  rw [polylines_moveTo, List.flatten_append, List.flatten_singleton]

lemma flatten_lineTo (d : Drawing α) (p : Point α) :
    (d.lineTo p).polylines.flatten = d.polylines.flatten ++ [p] := by
  cases current : d.current with
  | none => rw [polylines_lineTo_of_none current, List.flatten_append, List.flatten_singleton]
  | some t =>
    rw [polylines_lineTo_of_some current, polylines_of_current_eq_some current,
      List.flatten_append, List.flatten_append, List.flatten_singleton, List.flatten_singleton,
      List.append_assoc]

end Drawing

namespace Pattern

variable {α : Type} [Scalar α]

/-- Is a line the first step? -/
def beginsWithLine : List (Step α) → Bool
  | .line _ :: _ => true
  | _ => false

/-- The points that steps draw, in order. -/
def drawnPoints (steps : List (Step α)) : List (Point α) :=
  (if beginsWithLine steps then [.origin] else []) ++ steps.map Step.target

/-- A pen that was moved draws the targets. -/
lemma flatten_drawAll (f : Svg.Frame α) (steps : List (Step α)) {s : Svg.Sketch α}
    (begun : s.pen.start.isSome) :
    (s.drawAll f (steps.map Step.stroke)).value.drawing.polylines.flatten =
      s.drawing.polylines.flatten ++ (steps.map Step.target).map f.map.apply := by
  induction steps generalizing s with
  | nil => exact (List.append_nil _).symm
  | cons step steps ih =>
    obtain ⟨p, start⟩ := Option.isSome_iff_exists.1 begun
    cases step with
    | move q =>
      have later := ih (s := s.moveTo f q) rfl
      rw [Svg.Sketch.moveTo, Drawing.flatten_moveTo, List.append_assoc] at later
      exact later
    | line q =>
      have here : (s.lineTo f q).value =
          ⟨s.pen.goTo q, s.drawing.lineTo (f.map.apply q)⟩ := by
        show (Svg.Sketch.mk ((s.ensureBegun f).value.pen.goTo q)
          ((s.ensureBegun f).value.drawing.lineTo (f.map.apply q))) = _
        rw [Svg.Sketch.ensureBegun, start]
        rfl
      have later := ih (s := (s.lineTo f q).value) (by rw [here]; exact begun)
      rw [here, Drawing.flatten_lineTo, List.append_assoc] at later
      rw [← here] at later
      exact later

/-- Steps draw their targets, and the origin before them if a line is the first. -/
lemma flatten_strokeLines (f : Svg.Frame α) (steps : List (Step α)) :
    (Svg.strokeLines f (steps.map Step.stroke)).flatten =
      (drawnPoints steps).map f.map.apply := by
  have drawn : (Svg.strokeLines f (steps.map Step.stroke)) =
      (((Svg.Sketch.begin .empty).drawAll f (steps.map Step.stroke)).value).drawing.polylines :=
    Drawing.polylines_endLine _
  have begun (p : Point α) (steps : List (Step α)) :=
    flatten_drawAll f steps (s := (Svg.Sketch.begin .empty).moveTo f p) rfl
  rw [drawn]
  cases steps with
  | nil => rfl
  | cons step steps =>
    cases step with
    | move q => exact begun q steps
    | line q =>
      -- The first line begins a subpath at the origin; from there on it is as after a move.
      exact begun .origin (.line q :: steps)

end Pattern

/-! ### Exact arithmetic -/

namespace Double

variable {x y z : Float} {v u e : ℚ}

/-- A bound of all rounding errors here. -/
def tiny : ℚ := 1 / 1000000

/-- Up to four million, rounding is off by less than a millionth. -/
lemma Rounds.exists_tiny (rounds : Rounds x v) (size : |v| ≤ 4000000) :
    ∃ u, Worth x u ∧ Nearest u v ∧ |u - v| ≤ tiny := by
  obtain ⟨u, worth, nearest, _, near⟩ := rounds.exists_near (k := 22) (by norm_num) (by norm_num)
    (size.trans (by norm_num))
  exact ⟨u, worth, nearest, near.trans (by norm_num [tiny])⟩

lemma worth_mul_one (hx : Worth x v) (hy : Worth y 1) : Worth (x * y) v ∧ Worth (y * x) v := by
  have right := rounds_mul hx hy
  have left := rounds_mul hy hx
  rw [mul_one] at right
  rw [one_mul] at left
  exact ⟨right.exact hx, left.exact hx⟩

lemma worth_mul_zero (hx : Worth x v) (hy : Worth y 0) : Worth (x * y) 0 ∧ Worth (y * x) 0 := by
  have right := rounds_mul hx hy
  have left := rounds_mul hy hx
  rw [mul_zero] at right
  rw [zero_mul] at left
  exact ⟨right.exact hy, left.exact hy⟩

lemma worth_add_zero (hx : Worth x v) (hy : Worth y 0) : Worth (x + y) v ∧ Worth (y + x) v := by
  have right := rounds_add hx hy
  have left := rounds_add hy hx
  rw [add_zero] at right
  rw [zero_add] at left
  exact ⟨right.exact hx, left.exact hx⟩

lemma worth_neg_one_mul (hx : Worth x v) (hy : Worth y (-1)) : Worth (y * x) (-v) := by
  have rounds := rounds_mul hy hx
  rw [neg_one_mul] at rounds
  exact rounds.exact (worth_neg hx)

end Double

open Double

/-! ### Turned over -/

namespace Affine

variable {t : Affine Float} {e f x y : ℚ} {p : Point Float}

/-- A map of doubles that moves by `(e, f)` what it has turned over. -/
structure Turns (t : Affine Float) (e f : ℚ) : Prop where
  a : Worth t.a 1
  b : Worth t.b 0
  c : Worth t.c 0
  d : Worth t.d (-1)
  e : Worth t.e e
  f : Worth t.f f

/-- The identity changes nothing, in doubles as well. -/
lemma Turns.compose_identity (turns : t.Turns e f) : (t.compose .identity).Turns e f := by
  have one : Worth (identity : Affine Float).a 1 := by decide +kernel
  have one' : Worth (identity : Affine Float).d 1 := by decide +kernel
  have zeros : Worth (identity : Affine Float).b 0 ∧ Worth (identity : Affine Float).c 0 ∧
      Worth (identity : Affine Float).e 0 ∧ Worth (identity : Affine Float).f 0 := by
    decide +kernel
  obtain ⟨b, c, e, f⟩ := zeros
  refine ⟨?_, ?_, ?_, ?_, ?_, ?_⟩
  · exact (worth_add_zero (worth_mul_one turns.a one).1 (worth_mul_zero turns.c b).1).1
  · exact (worth_add_zero (worth_mul_one turns.b one).1 (worth_mul_zero turns.d b).1).1
  · exact (worth_add_zero (worth_mul_one turns.c one').1 (worth_mul_zero turns.a c).1).2
  · exact (worth_add_zero (worth_mul_one turns.d one').1 (worth_mul_zero turns.b c).1).2
  · have moved := (worth_add_zero (worth_mul_zero turns.a e).1 (worth_mul_zero turns.c f).1).1
    exact (worth_add_zero turns.e moved).2
  · have moved := (worth_add_zero (worth_mul_zero turns.b e).1 (worth_mul_zero turns.d f).1).1
    exact (worth_add_zero turns.f moved).2

/-- Where a point is mapped, up to rounding. -/
lemma Turns.exists_apply (turns : t.Turns e f) (hx : Worth p.x x) (hy : Worth p.y y)
    (across : |x + e| ≤ 4000000) (upward : |f - y| ≤ 4000000) :
    ∃ x' y', Worth (t.apply p).x x' ∧ Worth (t.apply p).y y' ∧
      |x' - (x + e)| ≤ tiny ∧ |y' - (f - y)| ≤ tiny := by
  have right := (worth_add_zero (worth_mul_one hx turns.a).2 (worth_mul_zero hy turns.c).2).1
  have up := (worth_add_zero (worth_neg_one_mul hy turns.d) (worth_mul_zero hx turns.b).2).2
  obtain ⟨x', worthX, _, nearX⟩ := (rounds_add right turns.e).exists_tiny across
  have upward : |-y + f| ≤ 4000000 := by rwa [neg_add_eq_sub]
  obtain ⟨y', worthY, _, nearY⟩ := (rounds_add up turns.f).exists_tiny upward
  rw [neg_add_eq_sub] at nearY
  exact ⟨x', y', worthX, worthY, nearX, nearY⟩

/-- The origin is mapped without rounding. -/
lemma Turns.apply_origin (turns : t.Turns e f) :
    Worth (t.apply .origin).x e ∧ Worth (t.apply .origin).y f := by
  have zero : Worth (0.0 : Float) 0 := by decide +kernel
  have right := (worth_add_zero (worth_mul_zero turns.a zero).1 (worth_mul_zero turns.c zero).1).1
  have up := (worth_add_zero (worth_mul_zero turns.b zero).1 (worth_mul_zero turns.d zero).1).1
  exact ⟨(worth_add_zero turns.e right).2, (worth_add_zero turns.f up).2⟩

end Affine

namespace Pattern

variable {xs : List Float} {a b l h w : ℚ}

/-! ### The bounds of a coordinate -/

/-- What the bounds of some coordinates are worth, which reach from `a` to `b`. -/
structure Span (xs : List Float) (a b l h w : ℚ) : Prop where
  low : Worth (Scalar.least xs - margin) l
  high : Worth (Scalar.greatest xs + margin) h
  size : Worth ((Scalar.greatest xs + margin) - (Scalar.least xs - margin)) w
  before : |l - (a - 1 / 4)| ≤ tiny
  behind : |h - (b + 1 / 4)| ≤ tiny
  nearest : Nearest w (h - l)
  across : |w - (h - l)| ≤ tiny
  least : -1000000 ≤ a
  most : b ≤ 1000000
  order : a ≤ b
  between : ∀ x ∈ xs, ∃ v, Worth x v ∧ a ≤ v ∧ v ≤ b

/-- Within a million, the bounds of coordinates are off by a millionth at most. -/
lemma exists_span (few : ∀ x ∈ xs, ∃ v, Worth x v ∧ |v| ≤ 1000000) (some : xs ≠ []) :
    ∃ a b l h w, Span xs a b l h w := by
  obtain ⟨a, b, worthA, worthB, smallA, smallB, order, between⟩ := exists_worth_extremes few some
  obtain ⟨least, mostA⟩ := abs_le.1 smallA
  obtain ⟨leastB, most⟩ := abs_le.1 smallB
  obtain ⟨l, low, _, before⟩ := (rounds_sub worthA worth_margin).exists_tiny
    (abs_le.2 ⟨by linarith, by linarith⟩)
  obtain ⟨h, high, _, behind⟩ := (rounds_add worthB worth_margin).exists_tiny
    (abs_le.2 ⟨by linarith, by linarith⟩)
  have nearL := abs_le.1 before
  have nearH := abs_le.1 behind
  rw [tiny] at nearL nearH
  obtain ⟨w, size, nearest, across⟩ := (rounds_sub high low).exists_tiny
    (abs_le.2 ⟨by linarith, by linarith⟩)
  exact ⟨a, b, l, h, w, low, high, size, before, behind, nearest, across, least, most, order,
    between⟩

namespace Span

/-- The bounds leave room, and their size is that of the room. -/
lemma size_bounds (span : Span xs a b l h w) :
    0 < w ∧ -1000001 ≤ l ∧ h ≤ 1000001 ∧ l ≤ a - 1 / 5 ∧ b + 1 / 5 ≤ h ∧ w ≤ 2000003 := by
  obtain ⟨_, before⟩ := abs_le.1 span.before
  obtain ⟨before', _⟩ := abs_le.1 span.before
  obtain ⟨behind, behind'⟩ := abs_le.1 span.behind
  obtain ⟨across, across'⟩ := abs_le.1 span.across
  have least := span.least
  have most := span.most
  have order := span.order
  rw [tiny] at *
  refine ⟨?_, ?_, ?_, ?_, ?_, ?_⟩ <;> linarith

end Span

/-! ### The page -/

/-- A point is on the page or on its edge. -/
structure OnPage (page : Page Float) (p : Point Float) : Prop where
  left : 0.0 ≤ p.x
  right : p.x ≤ page.width
  bottom : 0.0 ≤ p.y
  top : p.y ≤ page.height

instance {page : Page Float} : DecidablePred (OnPage page) := fun p =>
  decidable_of_iff (0.0 ≤ p.x ∧ p.x ≤ page.width ∧ 0.0 ≤ p.y ∧ p.y ≤ page.height)
    ⟨fun ⟨left, right, bottom, top⟩ => ⟨left, right, bottom, top⟩,
      fun ⟨left, right, bottom, top⟩ => ⟨left, right, bottom, top⟩⟩

lemma onPage_iff {page : Page Float} {p : Point Float} {x y width height : ℚ} (hx : Worth p.x x)
    (hy : Worth p.y y) (wide : Worth page.width width) (high : Worth page.height height) :
    OnPage page p ↔ (0 ≤ x ∧ x ≤ width) ∧ 0 ≤ y ∧ y ≤ height := by
  rw [← le_iff worth_zero hx, ← le_iff hx wide, ← le_iff worth_zero hy, ← le_iff hy high]
  exact ⟨fun ⟨left, right, bottom, top⟩ => ⟨⟨left, right⟩, bottom, top⟩,
    fun ⟨⟨left, right⟩, bottom, top⟩ => ⟨left, right, bottom, top⟩⟩

/-- The map of a preview turns it over. -/
lemma turns_previewMap {bounds : Bounds Float} {left below width height : ℚ}
    (minX : Worth bounds.minX left) (minY : Worth bounds.minY below)
    (wide : Worth (bounds.maxX - bounds.minX) width)
    (high : Worth (bounds.maxY - bounds.minY) height) (positive : 0 < width ∧ 0 < height)
    (size : |below + height| ≤ 4000000) :
    ∃ f, (previewMap bounds).Turns (-left) f ∧ Nearest f (below + height) ∧
      |f - (below + height)| ≤ tiny := by
  have one {x : Float} {v : ℚ} (worth : Worth x v) (positive : 0 < v) :
      Worth (x / Svg.AbsoluteUnit.inch.perInch / x) 1 := by
    have rounds := rounds_div (worth_inches worth) worth positive.ne'
    rw [div_self positive.ne'] at rounds
    exact rounds.exact (by decide +kernel : Worth 1.0 1)
  have sx := one wide positive.1
  have sy := one high positive.2
  obtain ⟨f, top, near⟩ := (rounds_add (worth_mul_one minY sy).2 (worth_inches high)).exists_tiny
    size
  exact ⟨f, ⟨sx, worth_zero, worth_zero, worth_neg sy, worth_neg_one_mul minX (worth_neg sx), top⟩,
    near⟩

/-- The map that a preview is drawn with. -/
def drawnMap (bounds : Bounds Float) : Affine Float :=
  ((previewMap bounds).compose .identity).compose .identity

/-- A double of a million at most. -/
def Near (x : Float) : Prop := -1000000.0 ≤ x ∧ x ≤ 1000000.0

lemma Near.exists_worth {x : Float} (near : Near x) : ∃ v, Worth x v ∧ |v| ≤ 1000000 := by
  have least : Worth (-1000000.0 : Float) (-1000000) := by decide +kernel
  have most : Worth (1000000.0 : Float) 1000000 := by decide +kernel
  obtain ⟨v, worth, above, below⟩ := exists_worth_of_between least most near.1 near.2
  exact ⟨v, worth, abs_le.2 ⟨above, below⟩⟩

/-- The origin lies within some bounds. -/
structure Bounds.HasOrigin (b : Bounds Float) : Prop where
  left : b.minX ≤ 0.0
  right : 0.0 ≤ b.maxX
  below : b.minY ≤ 0.0
  above : 0.0 ≤ b.maxY

/-- The origin lies a thousandth or more outside of some bounds. -/
def Bounds.MissesOrigin (b : Bounds Float) : Prop :=
  0.001 ≤ b.minX ∨ b.maxX ≤ -0.001 ∨ 0.001 ≤ b.minY ∨ b.maxY ≤ -0.001

section Padded

variable {steps : List (Step Float)} {a' b' l' h' w' : ℚ}

/-- Both bounds of a preview. -/
structure Spans (steps : List (Step Float)) (a b l h w a' b' l' h' w' : ℚ) : Prop where
  x : Span (along Point.x steps) a b l h w
  y : Span (along Point.y steps) a' b' l' h' w'

variable (spans : Spans steps a b l h w a' b' l' h' w')

include spans

lemma exists_turns :
    ∃ f, (drawnMap (.padded steps)).Turns (-l) f ∧ Nearest f (l' + w') ∧
      |f - (l' + w')| ≤ tiny := by
  obtain ⟨wide, _⟩ := spans.x.size_bounds
  obtain ⟨high, low, _, _, _, size⟩ := spans.y.size_bounds
  have lows : Worth (Bounds.padded steps).minX l ∧ Worth (Bounds.padded steps).minY l' := by
    rw [padded_eq]
    exact ⟨spans.x.low, spans.y.low⟩
  have sizes : Worth ((Bounds.padded steps).maxX - (Bounds.padded steps).minX) w ∧
      Worth ((Bounds.padded steps).maxY - (Bounds.padded steps).minY) w' := by
    rw [padded_eq]
    exact ⟨spans.x.size, spans.y.size⟩
  have top : |l' + w'| ≤ 4000000 :=
    abs_le.2 ⟨by linarith, by linarith [spans.y.order, spans.y.most]⟩
  obtain ⟨f, turns, near⟩ :=
    turns_previewMap lows.1 lows.2 sizes.1 sizes.2 ⟨wide, high⟩ top
  exact ⟨f, turns.compose_identity.compose_identity, near⟩

lemma worth_page :
    Worth (previewPage (.padded steps)).width w ∧
      Worth (previewPage (.padded steps)).height w' := by
  rw [padded_eq]
  exact ⟨worth_inches spans.x.size, worth_inches spans.y.size⟩

/-- What lies between the coordinates is shown on the page. -/
lemma onPage_of_between {p : Point Float} {x y : ℚ} (hx : Worth p.x x) (hy : Worth p.y y)
    (across : a ≤ x ∧ x ≤ b) (upward : a' ≤ y ∧ y ≤ b') :
    OnPage (previewPage (.padded steps)) ((drawnMap (.padded steps)).apply p) := by
  obtain ⟨f, turns, _, top⟩ := exists_turns spans
  obtain ⟨wide, high⟩ := worth_page spans
  have sizes := spans.x.size_bounds
  have sizes' := spans.y.size_bounds
  have size := abs_le.1 spans.x.across
  have size' := abs_le.1 spans.y.across
  have top := abs_le.1 top
  have margins := spans.x.most
  have margins' := spans.y.most
  rw [tiny] at size size' top
  obtain ⟨x', y', hx', hy', nearX, nearY⟩ := turns.exists_apply hx hy
    (abs_le.2 ⟨by linarith, by linarith⟩) (abs_le.2 ⟨by linarith, by linarith⟩)
  have nearX := abs_le.1 nearX
  have nearY := abs_le.1 nearY
  rw [tiny] at nearX nearY
  -- A fifth of an inch is left on either side, more than all that was rounded.
  rw [onPage_iff hx' hy' wide high]
  exact ⟨⟨by linarith, by linarith⟩, by linarith, by linarith⟩

/-- The origin is shown on the page if it lies within the bounds. -/
lemma onPage_origin (inside : (Bounds.padded steps).HasOrigin) :
    OnPage (previewPage (.padded steps)) ((drawnMap (.padded steps)).apply .origin) := by
  obtain ⟨f, turns, nearest, _⟩ := exists_turns spans
  obtain ⟨wide, high⟩ := worth_page spans
  obtain ⟨hx, hy⟩ := turns.apply_origin
  have left := inside.left
  have right := inside.right
  have below := inside.below
  have above := inside.above
  simp only [padded_eq] at left right below above
  rw [le_iff spans.x.low worth_zero] at left
  rw [le_iff worth_zero spans.x.high] at right
  rw [le_iff spans.y.low worth_zero] at below
  rw [le_iff worth_zero spans.y.high] at above
  -- Rounding does not go past the origin.
  have width := spans.x.nearest.ge_of_ge spans.x.low.isDouble.neg (by linarith)
  have height := spans.y.nearest.ge_of_ge spans.y.low.isDouble.neg (by linarith)
  have top := nearest.le_of_le spans.y.size.isDouble (by linarith)
  have bottom := nearest.nonneg (by linarith)
  rw [onPage_iff hx hy wide high]
  exact ⟨⟨by linarith, width⟩, bottom, top⟩

/-- It is not if it lies a thousandth outside of them. -/
lemma not_onPage_origin (outside : (Bounds.padded steps).MissesOrigin) :
    ¬ OnPage (previewPage (.padded steps)) ((drawnMap (.padded steps)).apply .origin) := by
  obtain ⟨f, turns, _, top⟩ := exists_turns spans
  obtain ⟨wide, high⟩ := worth_page spans
  obtain ⟨hx, hy⟩ := turns.apply_origin
  have thousandth : Worth (0.001 : Float) (1152921504606847 / 2 ^ 60) := by decide +kernel
  have sizes := spans.x.size_bounds
  have sizes' := spans.y.size_bounds
  have size := abs_le.1 spans.x.across
  have size' := abs_le.1 spans.y.across
  have top := abs_le.1 top
  rw [tiny] at size size' top
  simp only [Bounds.MissesOrigin, padded_eq, le_iff thousandth spans.x.low,
    le_iff spans.x.high (worth_neg thousandth), le_iff thousandth spans.y.low,
    le_iff spans.y.high (worth_neg thousandth)] at outside
  rw [onPage_iff hx hy wide high]
  rintro ⟨⟨left, right⟩, bottom, above⟩
  rcases outside with outside | outside | outside | outside <;> norm_num at outside <;> linarith

end Padded

/-! ### What is drawn -/

lemma everywhere_iff_flatten {β : Type} {P : Point β → Prop} {lines : List (Polyline β)} :
    Everywhere P lines ↔ ∀ p ∈ lines.flatten, P p := by
  simp only [Everywhere, List.mem_flatten]
  exact ⟨fun all p ⟨line, mem, on⟩ => all line mem p on, fun all line mem p on =>
    all p ⟨line, mem, on⟩⟩

/-- Within a million inches, the bounds of a preview leave room on all sides. -/
lemma exists_spans {steps : List (Step Float)}
    (near : ∀ step ∈ steps, Near step.target.x ∧ Near step.target.y) :
    ∃ a b l h w a' b' l' h' w', Spans steps a b l h w a' b' l' h' w' := by
  have zero : ∃ v, Worth 0.0 v ∧ |v| ≤ 1000000 := ⟨0, worth_zero, by norm_num⟩
  have xs : ∀ x ∈ along Point.x steps, ∃ v, Worth x v ∧ |v| ≤ 1000000 :=
    forall_mem_along zero fun step mem => (near step mem).1.exists_worth
  have ys : ∀ y ∈ along Point.y steps, ∃ v, Worth y v ∧ |v| ≤ 1000000 :=
    forall_mem_along zero fun step mem => (near step mem).2.exists_worth
  obtain ⟨a, b, l, h, w, spanX⟩ := exists_span xs (along_ne_nil _ _)
  obtain ⟨a', b', l', h', w', spanY⟩ := exists_span ys (along_ne_nil _ _)
  exact ⟨a, b, l, h, w, a', b', l', h', w', spanX, spanY⟩

/-- Within a million inches, all numbers of a preview are written so that they can be read. -/
lemma legible_of_near {steps : List (Step Float)}
    (near : ∀ step ∈ steps, Near step.target.x ∧ Near step.target.y) :
    Legible steps ∧ (Bounds.padded steps).Proper := by
  have number {x : Float} (near : Near x) : ∃ v, Worth x v ∧ |v| < 2 ^ 51 := by
    obtain ⟨v, worth, size⟩ := near.exists_worth
    exact ⟨v, worth, size.trans_lt (by norm_num)⟩
  have isNaN {x : Float} (near : Near x) : x.isNaN = false := by
    obtain ⟨v, worth, _⟩ := near.exists_worth
    exact worth.isNaN
  have numbers (step : Step Float) (mem : step ∈ steps) :
      step.target.x.isNaN = false ∧ step.target.y.isNaN = false :=
    ⟨isNaN (near step mem).1, isNaN (near step mem).2⟩
  have sized := sized_of_small fun step mem => ⟨number (near step mem).1, number (near step mem).2⟩
  exact ⟨legible_of_sized numbers sized, sized.proper⟩

/-- Within a million inches, all of a preview is drawn on its page, if it begins with a move or
its bounds have the origin. If it begins with a line and the origin is a thousandth outside of the
bounds, it is not. -/
theorem exists_result_preview_within {steps : List (Step Float)}
    (near : ∀ step ∈ steps, Near step.target.x ∧ Near step.target.y)
    (flattening : Flattening Float) :
    ∃ document, (Svg.Document.ofText flattening (preview steps)).result = .ok document ∧
      (beginsWithLine steps = false ∨ (Bounds.padded steps).HasOrigin →
        Everywhere (OnPage document.page) document.polylines) ∧
      (beginsWithLine steps = true → (Bounds.padded steps).MissesOrigin →
        ¬ Everywhere (OnPage document.page) document.polylines) := by
  obtain ⟨a, b, l, h, w, a', b', l', h', w', spans⟩ := exists_spans near
  obtain ⟨legible, proper⟩ := legible_of_near near
  refine ⟨_, result_ofText_preview legible proper flattening, ?_⟩
  rw [everywhere_iff_flatten, flatten_strokeLines, List.forall_mem_map, drawnPoints]
  constructor
  · intro shown p mem
    rcases List.mem_append.1 mem with first | target
    · split at first
      case isTrue line =>
        obtain rfl := List.mem_singleton.1 first
        exact onPage_origin spans (shown.resolve_left (by simp [line]))
      case isFalse => cases first
    · obtain ⟨step, listed, rfl⟩ := List.mem_map.1 target
      obtain ⟨x, hx, across⟩ := spans.x.between _ (mem_along listed)
      obtain ⟨y, hy, upward⟩ := spans.y.between _ (mem_along listed)
      exact onPage_of_between spans hx hy across upward
  · intro line outside everywhere
    exact not_onPage_origin spans outside (everywhere .origin (by simp [line]))

/-- A preview that begins with a line, with the origin within its bounds. -/
theorem exists_result_preview_within_of_line_first :
    let steps : List (Step Float) :=
      [.line ⟨0.125, -0.2⟩, .move ⟨999999.5, 1.25⟩, .line ⟨-1000000.0, 0.1⟩]
    (∀ step ∈ steps, Near step.target.x ∧ Near step.target.y) ∧
      beginsWithLine steps = true ∧ (Bounds.padded steps).HasOrigin ∧
      ∃ document, (Svg.Document.ofText .standard (preview steps)).result = .ok document ∧
        Everywhere (OnPage document.page) document.polylines := by
  intro steps
  have near : ∀ step ∈ steps, Near step.target.x ∧ Near step.target.y := by
    unfold Near
    decide +kernel
  have inside : (Bounds.padded steps).HasOrigin :=
    ⟨by decide +kernel, by decide +kernel, by decide +kernel, by decide +kernel⟩
  obtain ⟨document, read, shown, _⟩ := exists_result_preview_within near .standard
  exact ⟨near, rfl, inside, document, read, shown (.inr inside)⟩

/-- A single line away from the origin is drawn from the origin, which is not on the page. -/
theorem not_everywhere_onPage_of_line_first :
    let document : Svg.Document Float := ⟨⟨0.5, 0.5⟩, [[⟨-4.75, 5.25⟩, ⟨0.25, 0.25⟩]]⟩
    (Svg.Document.ofText .standard (preview (α := Float) [.line ⟨5.0, 5.0⟩])).result =
        .ok document ∧
      ¬ Everywhere (OnPage document.page) document.polylines := by
  have near : ∀ step ∈ [Step.line (⟨5.0, 5.0⟩ : Point Float)],
      Near step.target.x ∧ Near step.target.y := by
    unfold Near
    decide +kernel
  obtain ⟨legible, proper⟩ := legible_of_near near
  refine ⟨(result_ofText_preview legible proper .standard).trans ?_, by decide +kernel⟩
  exact Except.eq_ok_of_toOption (by decide +kernel)

end Pattern

end Toolpath
