import Toolpath.Proofs.Double.Whole

/-!
# The least and the greatest of some doubles

Doubles other than not-a-number are in order, with an infinity at either end (`compare_eq_rank`). So
the least and the greatest of some of them are two of them, and the others lie between.
-/

namespace Toolpath.Double

open Float.Model (UnpackedFloat)
open Float.Model.UnpackedFloat

/-! ### Order with infinities -/

/-- The place of a double in the order; not-a-number has none and gets any. -/
noncomputable def rank (x : Float) : EReal :=
  match x.toModel.unpack with
  | .infinity .positive => ⊤
  | .infinity .negative | .notANumber => ⊥
  | .zero _ => ((0 : ℚ) : ℝ)
  | .finite sign m e _ => ((signed sign (m * 2 ^ e) : ℚ) : ℝ)

variable {x y : Float} {v : ℚ}

lemma rank_of_worth (hx : Worth x v) : rank x = ((v : ℝ) : EReal) := by
  unfold rank
  obtain ⟨_, hu, rfl⟩ | ⟨_, _, _, _, hu, rfl⟩ := zero_or_finite hx <;> rw [hu]

lemma rank_of_positive (hx : x.toModel.unpack = .infinity .positive) : rank x = ⊤ := by
  rw [rank, hx]

lemma rank_of_negative (hx : x.toModel.unpack = .infinity .negative) : rank x = ⊥ := by
  rw [rank, hx]

/-- A double is a number, an infinity or not-a-number. -/
lemma worth_or_infinity (number : x.isNaN = false) :
    (∃ v, Worth x v) ∨ x.toModel.unpack = .infinity .positive ∨
      x.toModel.unpack = .infinity .negative := by
  change x.toModel.unpack.isNaN = false at number
  unfold Worth
  cases hu : x.toModel.unpack with
  | notANumber =>
    rw [hu] at number
    cases number
  | infinity sign => cases sign <;> simp
  | zero sign => exact .inl ⟨_, rfl⟩
  | finite sign m e positive => exact .inl ⟨_, rfl⟩

lemma compare_coe (a b : ℚ) : compare ((a : ℝ) : EReal) ((b : ℝ) : EReal) = compare a b := by
  rcases lt_trichotomy a b with less | rfl | greater
  · rw [compare_lt_iff_lt.2 less, compare_lt_iff_lt.2 (by exact_mod_cast less)]
  · rw [compare_eq_iff_eq.2 rfl, compare_eq_iff_eq.2 rfl]
  · rw [compare_gt_iff_gt.2 greater, compare_gt_iff_gt.2 (by exact_mod_cast greater)]

lemma compare_infinity_of_worth? {u : UnpackedFloat} (worth : worth? u = some v) :
    u.compare (.infinity .positive) = some .lt ∧
      (UnpackedFloat.infinity .positive).compare u = some .gt ∧
      u.compare (.infinity .negative) = some .gt ∧
      (UnpackedFloat.infinity .negative).compare u = some .lt := by
  obtain ⟨s, rfl, _⟩ | ⟨s, _, _, _, rfl, _⟩ := zero_or_finite worth <;> cases s <;>
    exact ⟨rfl, rfl, rfl, rfl⟩

/-- Doubles are compared by their places. -/
lemma compare_eq_rank (hx : x.isNaN = false) (hy : y.isNaN = false) :
    x.toModel.unpack.compare y.toModel.unpack = some (compare (rank x) (rank y)) := by
  have ends : compare (⊥ : EReal) ⊤ = .lt ∧ compare (⊤ : EReal) ⊥ = .gt :=
    ⟨compare_lt_iff_lt.2 bot_lt_top, compare_gt_iff_gt.2 bot_lt_top⟩
  rcases worth_or_infinity hx with ⟨a, ha⟩ | ha | ha <;>
    rcases worth_or_infinity hy with ⟨b, hb⟩ | hb | hb
  · rw [compare_eq (canonical x).1 (canonical y).1 ha hb, rank_of_worth ha, rank_of_worth hb,
      compare_coe]
  · rw [hb, rank_of_worth ha, rank_of_positive hb, (compare_infinity_of_worth? ha).1,
      compare_lt_iff_lt.2 (EReal.coe_lt_top _)]
  · rw [hb, rank_of_worth ha, rank_of_negative hb, (compare_infinity_of_worth? ha).2.2.1,
      compare_gt_iff_gt.2 (EReal.bot_lt_coe _)]
  · rw [ha, rank_of_positive ha, rank_of_worth hb, (compare_infinity_of_worth? hb).2.1,
      compare_gt_iff_gt.2 (EReal.coe_lt_top _)]
  · rw [ha, hb, rank_of_positive ha, rank_of_positive hb, compare_eq_iff_eq.2 rfl]
    rfl
  · rw [ha, hb, rank_of_positive ha, rank_of_negative hb, ends.2]
    rfl
  · rw [ha, rank_of_negative ha, rank_of_worth hb, (compare_infinity_of_worth? hb).2.2.2,
      compare_lt_iff_lt.2 (EReal.bot_lt_coe _)]
  · rw [ha, hb, rank_of_negative ha, rank_of_positive hb, ends.1]
    rfl
  · rw [ha, hb, rank_of_negative ha, rank_of_negative hb, compare_eq_iff_eq.2 rfl]
    rfl

lemma le_iff_rank (hx : x.isNaN = false) (hy : y.isNaN = false) : x ≤ y ↔ rank x ≤ rank y := by
  rw [le_iff_isLE, compare_eq_rank hx hy, ← compare_le_iff_le]
  cases compare (rank x) (rank y) <;> decide

lemma lt_iff_eq_lt :
    x < y ↔ (x.toModel.unpack.compare y.toModel.unpack == some .lt) = true := by
  show decide (x.toModel < y.toModel) = true ↔ _
  rw [decide_eq_true_iff]
  rfl

lemma le_of_lt (less : x < y) : x ≤ y := by
  rw [le_iff_isLE, eq_of_beq (lt_iff_eq_lt.1 less)]
  rfl

lemma lt_iff_rank (hx : x.isNaN = false) (hy : y.isNaN = false) : x < y ↔ rank x < rank y := by
  rw [lt_iff_eq_lt, compare_eq_rank hx hy, ← compare_lt_iff_lt]
  cases compare (rank x) (rank y) <;> decide

/-- Not-a-number is not below anything, and nothing is below it. -/
lemma isNaN_of_le (below : x ≤ y) : x.isNaN = false ∧ y.isNaN = false := by
  change x.toModel.unpack.isNaN = false ∧ y.toModel.unpack.isNaN = false
  rw [le_iff_isLE] at below
  generalize x.toModel.unpack = u at below ⊢
  generalize y.toModel.unpack = v at below ⊢
  cases u <;> cases v <;> first | exact ⟨rfl, rfl⟩ | cases below

lemma lt_of_le {z : Float} (below : x ≤ y) (less : y < z) : x < z := by
  obtain ⟨hx, hy⟩ := isNaN_of_le below
  obtain ⟨_, hz⟩ := isNaN_of_le (le_of_lt less)
  rw [le_iff_rank hx hy] at below
  rw [lt_iff_rank hy hz] at less
  exact (lt_iff_rank hx hz).2 (below.trans_lt less)

/-- Numbers are compared as they are. -/
theorem lt_iff {a b : ℚ} (hx : Worth x a) (hy : Worth y b) : x < y ↔ a < b := by
  rw [lt_iff_rank hx.isNaN hy.isNaN, rank_of_worth hx, rank_of_worth hy]
  exact_mod_cast Iff.rfl

/-! ### Extremes -/

/-- What is kept of a list by changing to whatever is better is one of the list, and none is
better. -/
lemma foldl_better {β L : Type} [LinearOrder L] (better : β → β → Prop) [DecidableRel better]
    (rank : β → L) {first : β} {others : List β}
    (agrees : ∀ a ∈ first :: others, ∀ b ∈ first :: others, better b a ↔ rank b < rank a) :
    others.foldl (fun a b => if better b a then b else a) first ∈ first :: others ∧
      ∀ a ∈ first :: others,
        rank (others.foldl (fun a b => if better b a then b else a) first) ≤ rank a := by
  induction others generalizing first with
  | nil => simp
  | cons second others ih =>
    rw [List.foldl_cons]
    have here := agrees first (by simp) second (by simp)
    -- One of the two is kept, and the other one is not better.
    obtain ⟨kept, same, one, first', second'⟩ : ∃ kept,
        (if better second first then second else first) = kept ∧ (kept = first ∨ kept = second) ∧
          rank kept ≤ rank first ∧ rank kept ≤ rank second := by
      split
      case isTrue change => exact ⟨_, rfl, .inr rfl, (here.1 change).le, le_refl _⟩
      case isFalse keep => exact ⟨_, rfl, .inl rfl, le_refl _, not_lt.1 (mt here.2 keep)⟩
    rw [same]
    have sub : ∀ a ∈ kept :: others, a ∈ first :: second :: others := by
      intro a mem
      rcases List.mem_cons.1 mem with rfl | later
      · rcases one with rfl | rfl <;> simp
      · simp [later]
    obtain ⟨mem, least⟩ := ih fun a ha b hb => agrees a (sub a ha) b (sub b hb)
    refine ⟨sub _ mem, fun a ha => ?_⟩
    have below := least kept (by simp)
    rcases List.mem_cons.1 ha with rfl | ha
    · exact below.trans first'
    · rcases List.mem_cons.1 ha with rfl | later
      · exact below.trans second'
      · exact least a (by simp [later])

variable {xs : List Float}

lemma filter_self (numbers : ∀ x ∈ xs, x.isNaN = false) :
    xs.filter (fun x => decide (x ≤ x)) = xs :=
  List.filter_eq_self.2 fun x mem =>
    decide_eq_true ((le_iff_rank (numbers x mem) (numbers x mem)).2 (le_refl _))

/-- The least of some doubles is one of them, and not above any. -/
theorem least_mem_and_le (numbers : ∀ x ∈ xs, x.isNaN = false) (some : xs ≠ []) :
    Scalar.least xs ∈ xs ∧ ∀ x ∈ xs, Scalar.least xs ≤ x := by
  obtain ⟨first, others, rfl⟩ := List.exists_cons_of_ne_nil some
  obtain ⟨mem, least⟩ := foldl_better (fun b a : Float => b < a) rank
    fun a ha b hb => lt_iff_rank (numbers b hb) (numbers a ha)
  unfold Scalar.least
  rw [show (first :: others).filter (fun x => x ≤ x) = first :: others from filter_self numbers]
  exact ⟨mem, fun x hx => (le_iff_rank (numbers _ mem) (numbers x hx)).2 (least x hx)⟩

/-- The greatest of some doubles is one of them, and not below any. -/
theorem greatest_mem_and_ge (numbers : ∀ x ∈ xs, x.isNaN = false) (some : xs ≠ []) :
    Scalar.greatest xs ∈ xs ∧ ∀ x ∈ xs, x ≤ Scalar.greatest xs := by
  obtain ⟨first, others, rfl⟩ := List.exists_cons_of_ne_nil some
  obtain ⟨mem, greatest⟩ := foldl_better (L := ERealᵒᵈ) (fun b a : Float => a < b) rank
    fun a ha b hb => lt_iff_rank (numbers a ha) (numbers b hb)
  unfold Scalar.greatest
  rw [show (first :: others).filter (fun x => x ≤ x) = first :: others from filter_self numbers]
  exact ⟨mem, fun x hx => (le_iff_rank (numbers x hx) (numbers _ mem)).2 (greatest x hx)⟩

end Toolpath.Double
