import Toolpath.Proofs.Exact
import Toolpath.Proofs.Pattern.Written

/-!
# Moved programs

With exact arithmetic whole thousandths are rounded to themselves, so the program of lines of targets
that are moved is the program of the targets with its records moved (`Program.ofPolylines_pointAt`,
`Program.forall₂_records`). Moving keeps targets apart that were apart.
-/

namespace Toolpath.Pattern

lemma nearest_intCast (n : ℤ) : Exact.nearest n = n := by
  have floor (m : ℤ) : ⌊(m : ℝ) + 1 / 2⌋ = m := by
    rw [Int.floor_intCast_add]
    norm_num
  rw [Exact.nearest]
  split
  · rw [← Int.cast_neg, floor, neg_neg]
  · exact floor n

/-- Whole thousandths are rounded to themselves. -/
lemma quantize_thousandths {n : ℤ} (low : -2 ^ 63 ≤ n) (high : n < 2 ^ 63) :
    quantize (n / 1000 : ℝ) = .ok (Int64.ofInt n) := by
  have thousand : (n / 1000 : ℝ) * 1000.0 = n := by norm_num
  have nearest : Scalar.nearest? (n : ℝ) = some n := congrArg some (nearest_intCast n)
  have held : (Int64.ofInt n).toInt = n := Int64.toInt_ofInt_of_le low high
  refine quantize_of_nearest? ?_
  rw [thousand, nearest, held]

/-! ### Moved targets -/

/-- A target moved by thousandths. -/
def Target.move (dx dy : ℤ) (t : Target) : Target :=
  ⟨t.x + Int64.ofInt dx, t.y + Int64.ofInt dy⟩

/-- Moved thousandths stay in range. -/
structure Target.Fits (dx dy : ℤ) (t : Target) : Prop where
  left : -2 ^ 63 ≤ t.x.toInt + dx
  right : t.x.toInt + dx < 2 ^ 63
  bottom : -2 ^ 63 ≤ t.y.toInt + dy
  top : t.y.toInt + dy < 2 ^ 63

/-- Thousandths in inches. -/
noncomputable def inches (n : ℤ) : ℝ := n / 1000

/-- The point of a target that is moved. -/
noncomputable def Target.pointAt (dx dy : ℤ) (t : Target) : Point ℝ :=
  ⟨inches (t.x.toInt + dx), inches (t.y.toInt + dy)⟩

/-- One target is another moved by thousandths. -/
structure Target.Moved (dx dy : ℤ) (t t' : Target) : Prop where
  x : t'.x.toInt = t.x.toInt + dx
  y : t'.y.toInt = t.y.toInt + dy

lemma add_ofInt (n : Int64) (d : ℤ) : n + Int64.ofInt d = Int64.ofInt (n.toInt + d) := by
  rw [Int64.ofInt_add, Int64.ofInt_toInt]

variable {dx dy : ℤ} {t : Target}

lemma Target.Fits.moved (fits : t.Fits dx dy) : t.Moved dx dy (t.move dx dy) := by
  obtain ⟨left, right, bottom, top⟩ := fits
  constructor
  · exact (congrArg _ (add_ofInt t.x dx)).trans (Int64.toInt_ofInt_of_le left right)
  · exact (congrArg _ (add_ofInt t.y dy)).trans (Int64.toInt_ofInt_of_le bottom top)

lemma Target.Fits.ofPoint_pointAt (fits : t.Fits dx dy) :
    Target.ofPoint (t.pointAt dx dy) = .ok (t.move dx dy) := by
  obtain ⟨left, right, bottom, top⟩ := fits
  rw [Target.ofPoint, pointAt, inches, inches, quantize_thousandths left right, Except.bind_of_ok,
    quantize_thousandths bottom top, Except.bind_of_ok, ← add_ofInt, ← add_ofInt]
  rfl

/-- Targets that differ still differ when they are moved. -/
lemma Target.move_injective (dx dy : ℤ) : Function.Injective (Target.move dx dy) := by
  rintro ⟨x, y⟩ ⟨x', y'⟩ same
  obtain ⟨hx, hy⟩ := Target.mk.inj same
  obtain rfl := (Int64.add_left_inj _).1 hx
  obtain rfl := (Int64.add_left_inj _).1 hy
  rfl

/-! ### Moved programs -/

lemma mapM_map_eq_ok {ε β γ δ : Type} {f : β → Except ε γ} {h : δ → β} {g : δ → γ} {ds : List δ}
    (each : ∀ d ∈ ds, f (h d) = .ok (g d)) : (ds.map h).mapM f = .ok (ds.map g) := by
  induction ds with
  | nil => rfl
  | cons d ds ih =>
    rw [List.map_cons, List.mapM_cons, each d List.mem_cons_self, Except.bind_of_ok,
      ih fun d mem => each d (List.mem_cons_of_mem _ mem)]
    rfl

lemma targets_pointAt {line : List Target} (fits : ∀ t ∈ line, t.Fits dx dy)
    (apart : line.IsChain (· ≠ ·)) :
    targets (line.map (Target.pointAt dx dy)) = .ok (line.map (Target.move dx dy)) := by
  have still : (line.map (Target.move dx dy)).IsChain (· ≠ ·) :=
    (List.isChain_map _).2 (apart.imp fun _ _ other => (Target.move_injective dx dy).ne other)
  rw [targets, mapM_map_eq_ok fun t mem => (fits t mem).ofPoint_pointAt, Except.bind_of_ok,
    collapse_eq_destutter, List.destutter_of_isChain _ _ still]
  rfl

/-- The program of moved points is that of moved targets. -/
lemma Program.ofPolylines_pointAt {lines : List (List Target)}
    (fits : ∀ l ∈ lines, ∀ t ∈ l, t.Fits dx dy) (long : ∀ l ∈ lines, 2 ≤ l.length)
    (apart : ∀ l ∈ lines, l.IsChain (· ≠ ·)) :
    Program.ofPolylines (lines.map (·.map (Target.pointAt dx dy))) =
      .ok (.ofTargets (lines.map (·.map (Target.move dx dy)))) := by
  have all : (lines.map (·.map (Target.move dx dy))).filter (2 ≤ ·.length) =
      lines.map (·.map (Target.move dx dy)) := by
    refine List.filter_eq_self.2 fun moved mem => ?_
    obtain ⟨l, drawn, rfl⟩ := List.mem_map.1 mem
    simpa using long l drawn
  rw [Program.ofPolylines, mapM_map_eq_ok fun l mem => targets_pointAt (fits l mem) (apart l mem),
    Except.bind_of_ok, all]
  rfl

/-- One record is another with its target moved: line and code are the same. -/
inductive Record.Moved (dx dy : ℤ) : Record → Record → Prop
  | motion {line : UInt32} {kind : Motion} {t t' : Target} (target : t.Moved dx dy t') :
      Moved dx dy (.motion line kind t) (.motion line kind t')
  | endOfProgram {line : UInt32} : Moved dx dy (.endOfProgram line) (.endOfProgram line)

lemma flatMap_motions_map (g : Target → Target) (lines : List (List Target)) :
    (lines.map (·.map g)).flatMap motions = (lines.flatMap motions).map (Prod.map id g) := by
  rw [List.map_flatMap, List.flatMap_map]
  congr 1
  funext line
  cases line with
  | nil => rfl
  | cons first later => simp [motions, Function.comp_def]

lemma forall₂_numberFrom (n : ℕ) {ms : List (Motion × Target)} (fits : ∀ m ∈ ms, m.2.Fits dx dy) :
    List.Forall₂ (Record.Moved dx dy) (numberFrom n ms)
      (numberFrom n (ms.map (Prod.map id (Target.move dx dy)))) := by
  induction ms generalizing n with
  | nil => exact .nil
  | cons m ms ih =>
    exact .cons (.motion (fits m List.mem_cons_self).moved)
      (ih (n + 1) fun m mem => fits m (List.mem_cons_of_mem _ mem))

/-- Moving the targets of a program moves its records. -/
lemma Program.forall₂_records {lines : List (List Target)}
    (fits : ∀ l ∈ lines, ∀ t ∈ l, t.Fits dx dy) :
    List.Forall₂ (Record.Moved dx dy) (Program.ofTargets lines).records
      (Program.ofTargets (lines.map (·.map (Target.move dx dy)))).records := by
  have motions : ∀ m ∈ lines.flatMap motions, m.2.Fits dx dy := by
    intro m mem
    obtain ⟨l, drawn, on⟩ := List.mem_flatMap.1 mem
    exact fits l drawn m.2 (mem_of_mem_motions on)
  rw [Program.ofTargets, Program.ofTargets, flatMap_motions_map, number_eq, number_eq,
    List.length_map]
  exact List.rel_append (forall₂_numberFrom 1 motions) (.cons .endOfProgram .nil)

end Toolpath.Pattern
