import Toolpath.Pattern.Program
import Toolpath.Proofs.Attempt

/-!
# Where targets come from

Every motion of a program goes to the target of a point that was to be drawn
(`exists_point_of_mem_records`), and the coordinates of a target are the nearest thousandths of
those of its point (`toInt_of_quantize`).
-/

namespace Toolpath.Pattern

variable {α : Type} [Scalar α]

/-- What a function gives on a list, it gives on each member. -/
lemma forall₂_of_mapM {ε β γ : Type} {f : β → Except ε γ} {bs : List β} {cs : List γ}
    (mapped : bs.mapM f = .ok cs) : List.Forall₂ (fun c b => f b = .ok c) cs bs := by
  induction bs generalizing cs with
  | nil =>
    obtain rfl : [] = cs := Except.ok.inj mapped
    exact .nil
  | cons b bs ih =>
    rw [List.mapM_cons] at mapped
    obtain ⟨c, here, mapped⟩ := Except.bind_eq_ok.1 mapped
    obtain ⟨cs, later, done⟩ := Except.bind_eq_ok.1 mapped
    obtain rfl := Except.ok.inj done
    exact .cons here (ih later)

/-- What a function gives on a list came from a member of the list. -/
lemma exists_of_mem_mapM {ε β γ : Type} {f : β → Except ε γ} {xs : List β} {ys : List γ}
    (mapped : xs.mapM f = .ok ys) {y : γ} (mem : y ∈ ys) : ∃ x ∈ xs, f x = .ok y := by
  have each := forall₂_of_mapM mapped
  clear mapped
  induction each with
  | nil => cases mem
  | cons here _ ih =>
    rcases List.mem_cons.1 mem with rfl | mem
    · exact ⟨_, List.mem_cons_self, here⟩
    · obtain ⟨x, drawn, found⟩ := ih mem
      exact ⟨x, List.mem_cons_of_mem _ drawn, found⟩

lemma mem_of_mem_collapse {β : Type} [DecidableEq β] {b : β} {bs : List β}
    (mem : b ∈ collapse bs) : b ∈ bs := by
  fun_induction collapse bs with
  | case1 => exact mem
  | case2 c => exact mem
  | case3 c rest ih => exact List.mem_cons_of_mem c (ih mem)
  | case4 c d rest apart ih =>
    rcases List.mem_cons.1 mem with rfl | mem
    · exact List.mem_cons_self
    · exact List.mem_cons_of_mem c (ih mem)

lemma mem_of_mem_motions {m : Motion × Target} {ts : List Target} (mem : m ∈ motions ts) :
    m.2 ∈ ts := by
  cases ts with
  | nil => exact absurd mem List.not_mem_nil
  | cons first later =>
    rcases List.mem_cons.1 mem with rfl | mem
    · exact List.mem_cons_self
    · obtain ⟨t, later, rfl⟩ := List.mem_map.1 mem
      exact List.mem_cons_of_mem first later

lemma mem_of_motion_mem_number {ms : List (Motion × Target)} {line : UInt32} {kind : Motion}
    {target : Target} (mem : .motion line kind target ∈ number ms) : (kind, target) ∈ ms := by
  rcases List.mem_append.1 mem with mem | last
  · obtain ⟨⟨m, n⟩, counted, same⟩ := List.mem_map.1 mem
    cases same
    exact List.fst_mem_of_mem_zipIdx counted
  · cases List.mem_singleton.1 last

/-- Every motion goes to the target of a point that was to be drawn. -/
theorem exists_point_of_mem_records {lines : List (Polyline α)} {program : Program}
    (written : Program.ofPolylines lines = .ok program) {line : UInt32} {kind : Motion}
    {target : Target} (mem : .motion line kind target ∈ program.records) :
    ∃ l ∈ lines, ∃ p ∈ l, Target.ofPoint p = .ok target := by
  obtain ⟨ts, rounded, done⟩ := Except.bind_eq_ok.1 written
  obtain rfl := Except.ok.inj done
  obtain ⟨t, kept, mem⟩ := List.mem_flatMap.1 (mem_of_motion_mem_number mem)
  have mem := mem_of_mem_motions mem
  obtain ⟨l, drawn, found⟩ := exists_of_mem_mapM rounded (List.mem_filter.1 kept).1
  obtain ⟨all, rounded, done⟩ := Except.bind_eq_ok.1 found
  have same : collapse all = t := Except.ok.inj done
  rw [← same] at mem
  obtain ⟨p, on, found⟩ := exists_of_mem_mapM rounded (mem_of_mem_collapse mem)
  exact ⟨l, drawn, p, on, found⟩

/-- A number is rounded to the nearest whole one, if sixty-four bits hold it. -/
lemma round?_eq_some_iff {x : α} {n : Int64} :
    round? x = some n ↔ Scalar.nearest? x = some n.toInt := by
  unfold round?
  cases found : Scalar.nearest? x with
  | none => simp
  | some m =>
    dsimp only
    by_cases range : Int64.minValue.toInt ≤ m ∧ m ≤ Int64.maxValue.toInt
    · rw [if_pos range, Option.some.injEq, Option.some.injEq]
      have kept := Int64.toInt_ofInt_of_le range.1 (Int.lt_add_one_of_le range.2)
      constructor
      · rintro rfl
        exact kept.symm
      · rintro rfl
        exact Int64.ofInt_toInt n
    · rw [if_neg range]
      simp only [reduceCtorEq, Option.some.injEq, false_iff]
      rintro rfl
      exact range ⟨n.minValue_le_toInt, n.toInt_le⟩

/-- A coordinate of a target is the nearest number of thousandths. -/
lemma toInt_of_quantize {x : α} {n : Int64} (rounded : quantize x = .ok n) :
    Scalar.nearest? (x * 1000.0) = some n.toInt := by
  rw [← round?_eq_some_iff]
  unfold quantize at rounded
  split at rounded
  · cases rounded
  · rename_i found
    rw [found, Except.ok.inj rounded]

/-- A coordinate with a nearest number of thousandths is rounded to it. -/
lemma quantize_of_nearest? {x : α} {n : Int64}
    (nearest : Scalar.nearest? (x * 1000.0) = some n.toInt) : quantize x = .ok n := by
  rw [quantize, round?_eq_some_iff.2 nearest]

/-- The coordinates of a target are those of its point, rounded. -/
lemma nearest_of_ofPoint {p : Point α} {target : Target} (found : Target.ofPoint p = .ok target) :
    Scalar.nearest? (p.x * 1000.0) = some target.x.toInt ∧
      Scalar.nearest? (p.y * 1000.0) = some target.y.toInt := by
  obtain ⟨x, hx, found⟩ := Except.bind_eq_ok.1 found
  obtain ⟨y, hy, done⟩ := Except.bind_eq_ok.1 found
  obtain rfl := Except.ok.inj done
  exact ⟨toInt_of_quantize hx, toInt_of_quantize hy⟩

end Toolpath.Pattern
