import Toolpath.Proofs.Pattern.Moved
import Toolpath.Proofs.Pattern.Preview
import Toolpath.Proofs.Pattern.RoundTrip

/-!
# What the preview of a program shows

The steps of a program are in inches and turned over; its preview shows the edges of what it draws
and the margin around them (`padded_map_stepOf`). With exact arithmetic all numbers of the preview
can be read back, and the map onto its page moves every target so that the least coordinates are
those of the margin (`apply_previewMap`).
-/

namespace Toolpath.Pattern

/-! ### The steps of a program -/

section Steps

variable {α : Type} [Scalar α]

/-- The step of a motion. -/
def stepOf (m : Motion × Target) : Step α :=
  m.1.step (pointOf (thousandths m.2.x) (thousandths m.2.y))

lemma filterMap_step?_number (ms : List (Motion × Target)) :
    (number ms).filterMap Record.step? = ms.map (stepOf (α := α)) := by
  have motions (n : ℕ) : (numberFrom n ms).filterMap Record.step? = ms.map (stepOf (α := α)) := by
    induction ms generalizing n with
    | nil => rfl
    | cons m ms ih => simpa [Record.step?, stepOf] using ih (n + 1)
  rw [number_eq, List.filterMap_append, motions]
  simp [Record.step?]

/-- The point that a target is read as. -/
def Target.point (t : Target) : Point α := pointOf (thousandths t.x) (thousandths t.y)

end Steps

/-- The coordinates of targets. -/
lemma point_eq (t : Target) : (t.point : Point ℝ) = ⟨t.x.toInt / 1000, -t.y.toInt / 1000⟩ := by
  have worth (n : Int64) : (Scalar.ofDecimal (thousandths n) : ℝ) = n.toInt / 1000 :=
    Exact.toReal_thousandths n.toInt
  rw [Target.point, pointOf, worth, worth]
  congr 1
  · norm_num
  · norm_num
    ring

/-! ### The edges of a program -/

/-- The least and the greatest coordinates of targets. -/
structure Edges where
  left : ℤ
  bottom : ℤ
  right : ℤ
  top : ℤ
deriving DecidableEq, Repr

/-- The edges of targets, all zero if there are none. -/
def Edges.of (ts : List Target) : Edges :=
  let xs := ts.map (·.x.toInt)
  let ys := ts.map (·.y.toInt)
  ⟨xs.min?.getD 0, ys.min?.getD 0, xs.max?.getD 0, ys.max?.getD 0⟩

/-- The edges of what a program draws. -/
def Program.edges (program : Program) : Edges :=
  .of (program.records.filterMap Record.target?)

lemma min?_getD_le {z : ℤ} {zs : List ℤ} (mem : z ∈ zs) : zs.min?.getD 0 ≤ z := by
  cases found : zs.min? with
  | none => simp_all
  | some a => exact (List.min?_eq_some_iff.1 found).2 z mem

lemma le_max?_getD {z : ℤ} {zs : List ℤ} (mem : z ∈ zs) : z ≤ zs.max?.getD 0 := by
  cases found : zs.max? with
  | none => simp_all
  | some a => exact (List.max?_eq_some_iff.1 found).2 z mem

lemma min?_getD_le_max?_getD (zs : List ℤ) : zs.min?.getD 0 ≤ zs.max?.getD 0 := by
  cases zs with
  | nil => exact le_rfl
  | cons z zs => exact (min?_getD_le List.mem_cons_self).trans (le_max?_getD List.mem_cons_self)

lemma Edges.left_le_right (ts : List Target) : (Edges.of ts).left ≤ (Edges.of ts).right :=
  min?_getD_le_max?_getD _

lemma Edges.bottom_le_top (ts : List Target) : (Edges.of ts).bottom ≤ (Edges.of ts).top :=
  min?_getD_le_max?_getD _

/-- The bounds of a preview of targets, turned over and in inches. -/
noncomputable def Edges.bounds (e : Edges) : Bounds ℝ :=
  ⟨inches (e.left - 250), inches (-e.top - 250), inches (e.right + 250), inches (-e.bottom + 250)⟩

/-- The least of numbers that stand for whole ones. -/
lemma least_map {g : ℤ → ℝ} {p : ℤ → ℤ → ℤ}
    (hom : ∀ a b, (if g b < g a then g b else g a) = g (p a b)) (z : ℤ) (zs : List ℤ) :
    Scalar.least ((z :: zs).map g) = g (zs.foldl p z) := by
  have all : ((z :: zs).map g).filter (fun x => x ≤ x) = (z :: zs).map g :=
    List.filter_eq_self.2 fun x _ => by simp
  rw [Scalar.least, all, List.map_cons]
  dsimp only
  rw [List.foldl_map]
  exact List.foldl_hom g fun a b => hom a b

lemma greatest_map {g : ℤ → ℝ} {p : ℤ → ℤ → ℤ}
    (hom : ∀ a b, (if g a < g b then g b else g a) = g (p a b)) (z : ℤ) (zs : List ℤ) :
    Scalar.greatest ((z :: zs).map g) = g (zs.foldl p z) := by
  have all : ((z :: zs).map g).filter (fun x => x ≤ x) = (z :: zs).map g :=
    List.filter_eq_self.2 fun x _ => by simp
  rw [Scalar.greatest, all, List.map_cons]
  dsimp only
  rw [List.foldl_map]
  exact List.foldl_hom g fun a b => hom a b

/-- Inches keep the order of thousandths. -/
lemma inches_lt (a b : ℤ) : (a / 1000 : ℝ) < b / 1000 ↔ a < b := by
  rw [div_lt_div_iff_of_pos_right (by norm_num), Int.cast_lt]

/-- Turning over reverses it. -/
lemma turned_lt (a b : ℤ) : (-a / 1000 : ℝ) < -b / 1000 ↔ b < a := by
  rw [div_lt_div_iff_of_pos_right (by norm_num), neg_lt_neg_iff, Int.cast_lt]

variable {zs : List ℤ}

lemma least_inches (some : zs ≠ []) :
    Scalar.least (zs.map fun n : ℤ => (n / 1000 : ℝ)) = (zs.min?.getD 0 : ℤ) / 1000 := by
  obtain ⟨z, zs, rfl⟩ := List.exists_cons_of_ne_nil some
  refine least_map (p := min) (fun a b => ?_) z zs
  simp only [inches_lt]
  split_ifs with below
  · rw [min_eq_right below.le]
  · rw [min_eq_left (not_lt.1 below)]

lemma greatest_inches (some : zs ≠ []) :
    Scalar.greatest (zs.map fun n : ℤ => (n / 1000 : ℝ)) = (zs.max?.getD 0 : ℤ) / 1000 := by
  obtain ⟨z, zs, rfl⟩ := List.exists_cons_of_ne_nil some
  refine greatest_map (p := max) (fun a b => ?_) z zs
  simp only [inches_lt]
  split_ifs with above
  · rw [max_eq_right above.le]
  · rw [max_eq_left (not_lt.1 above)]

lemma least_turned (some : zs ≠ []) :
    Scalar.least (zs.map fun n : ℤ => (-n / 1000 : ℝ)) = -(zs.max?.getD 0 : ℤ) / 1000 := by
  obtain ⟨z, zs, rfl⟩ := List.exists_cons_of_ne_nil some
  refine least_map (p := max) (fun a b => ?_) z zs
  simp only [turned_lt]
  split_ifs with above
  · rw [max_eq_right above.le]
  · rw [max_eq_left (not_lt.1 above)]

lemma greatest_turned (some : zs ≠ []) :
    Scalar.greatest (zs.map fun n : ℤ => (-n / 1000 : ℝ)) = -(zs.min?.getD 0 : ℤ) / 1000 := by
  obtain ⟨z, zs, rfl⟩ := List.exists_cons_of_ne_nil some
  refine greatest_map (p := min) (fun a b => ?_) z zs
  simp only [turned_lt]
  split_ifs with below
  · rw [min_eq_right below.le]
  · rw [min_eq_left (not_lt.1 below)]

lemma target_stepOf (m : Motion × Target) :
    (stepOf m : Step ℝ).target = ⟨m.2.x.toInt / 1000, -m.2.y.toInt / 1000⟩ := by
  rw [← point_eq]
  obtain ⟨kind, t⟩ := m
  cases kind <;> rfl

/-- The preview of a program shows its edges and the margin. -/
lemma padded_map_stepOf (ms : List (Motion × Target)) :
    Bounds.padded (ms.map stepOf) = (Edges.of (ms.map Prod.snd)).bounds := by
  rcases eq_or_ne ms [] with rfl | some
  · simp only [List.map_nil, Bounds.padded, Bounds.ofSteps, Bounds.grow, margin, Edges.bounds,
      Edges.of, inches]
    norm_num
  · have xs : (ms.map stepOf).map (fun step => step.target.x) =
        ((ms.map Prod.snd).map (·.x.toInt)).map fun n : ℤ => (n / 1000 : ℝ) := by
      simp [target_stepOf, Function.comp_def]
    have ys : (ms.map stepOf).map (fun step => step.target.y) =
        ((ms.map Prod.snd).map (·.y.toInt)).map fun n : ℤ => (-n / 1000 : ℝ) := by
      simp [target_stepOf, Function.comp_def]
    have steps : Bounds.ofSteps (ms.map stepOf : List (Step ℝ)) =
        ⟨Scalar.least ((ms.map stepOf).map fun step => step.target.x),
          Scalar.least ((ms.map stepOf).map fun step => step.target.y),
          Scalar.greatest ((ms.map stepOf).map fun step => step.target.x),
          Scalar.greatest ((ms.map stepOf).map fun step => step.target.y)⟩ := by
      obtain ⟨m, ms, rfl⟩ := List.exists_cons_of_ne_nil some
      rfl
    rw [Bounds.padded, steps, xs, ys, least_inches (by simpa using some),
      least_turned (by simpa using some), greatest_inches (by simpa using some),
      greatest_turned (by simpa using some)]
    simp only [Bounds.grow, margin, Edges.bounds, Edges.of, inches, Bounds.mk.injEq]
    push_cast
    refine ⟨?_, ?_, ?_, ?_⟩ <;> norm_num <;> ring

lemma Edges.width_bounds (e : Edges) :
    e.bounds.maxX - e.bounds.minX = (e.right - e.left + 500 : ℤ) / 1000 := by
  simp only [bounds, inches]
  push_cast
  ring

lemma Edges.height_bounds (e : Edges) :
    e.bounds.maxY - e.bounds.minY = (e.top - e.bottom + 500 : ℤ) / 1000 := by
  simp only [bounds, inches]
  push_cast
  ring

/-- The preview of a program can be read back. -/
lemma legible_map_stepOf (ms : List (Motion × Target)) :
    Legible (ms.map stepOf : List (Step ℝ)) := by
  constructor
  case minX =>
    rw [padded_map_stepOf]
    exact Exact.legible_thousandths _
  case minY =>
    rw [padded_map_stepOf]
    exact Exact.legible_thousandths _
  case width =>
    rw [padded_map_stepOf, Edges.width_bounds]
    exact Exact.legible_thousandths _
  case height =>
    rw [padded_map_stepOf, Edges.height_bounds]
    exact Exact.legible_thousandths _
  case targets =>
    intro step mem
    obtain ⟨m, _, rfl⟩ := List.mem_map.1 mem
    rw [target_stepOf]
    have turned := Exact.legible_thousandths (-m.2.y.toInt)
    rw [Int.cast_neg] at turned
    exact ⟨Exact.legible_thousandths _, turned⟩

/-- The page of a preview is as large as its bounds. -/
lemma previewPage_eq (b : Bounds ℝ) :
    previewPage b = ⟨b.maxX - b.minX, b.maxY - b.minY⟩ := by
  have inch : (Svg.AbsoluteUnit.inch.perInch : ℝ) = 1 := by norm_num [Svg.AbsoluteUnit.perInch]
  rw [previewPage, inch, div_one, div_one]

section Map

variable {e : Edges} (across : e.left ≤ e.right) (upward : e.bottom ≤ e.top)

include across upward

lemma size_pos : 0 < e.bounds.maxX - e.bounds.minX ∧ 0 < e.bounds.maxY - e.bounds.minY := by
  rw [e.width_bounds, e.height_bounds]
  have width : (0 : ℝ) < (e.right - e.left + 500 : ℤ) := by
    exact_mod_cast (by omega : 0 < e.right - e.left + 500)
  have height : (0 : ℝ) < (e.top - e.bottom + 500 : ℤ) := by
    exact_mod_cast (by omega : 0 < e.top - e.bottom + 500)
  exact ⟨by positivity, by positivity⟩

/-- The page of a preview has room for its margin. -/
lemma proper_bounds : e.bounds.Proper := by
  obtain ⟨width, height⟩ := size_pos across upward
  constructor
  case wide =>
    norm_num
    linarith
  case high =>
    norm_num
    linarith
  case width =>
    rw [previewPage_eq]
    norm_num
    linarith
  case height =>
    rw [previewPage_eq]
    norm_num
    linarith

/-- On its page a preview is moved until its least coordinates are those of the margin. -/
lemma apply_previewMap (t : Target) :
    (((previewMap e.bounds).compose .identity).compose .identity).apply t.point =
      t.pointAt (250 - e.left) (250 - e.bottom) := by
  obtain ⟨width, height⟩ := size_pos across upward
  have sx : (previewPage e.bounds).width / (e.bounds.maxX - e.bounds.minX) = 1 := by
    rw [previewPage_eq]
    exact div_self width.ne'
  have sy : (previewPage e.bounds).height / (e.bounds.maxY - e.bounds.minY) = 1 := by
    rw [previewPage_eq]
    exact div_self height.ne'
  have size : (previewPage e.bounds).height = (e.top - e.bottom + 500 : ℤ) / 1000 := by
    rw [previewPage_eq]
    exact e.height_bounds
  rw [point_eq, Target.pointAt, previewMap, Page.viewBoxMap]
  dsimp only
  rw [sx, sy, size]
  simp only [Affine.compose, Affine.identity, Affine.apply, Edges.bounds, inches, Point.mk.injEq]
  push_cast
  constructor
  · norm_num
    ring
  · norm_num
    ring

end Map

end Toolpath.Pattern
