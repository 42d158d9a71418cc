import Mathlib
import Toolpath.Proofs.Clipping.Points
import Toolpath.Proofs.Clipping.Region
import Toolpath.Proofs.Clipping.Runs

/-!
# Clipping twice

Over exact numbers, what is clipped to a page stays as it is when it is clipped again
(`Page.clip_clip`). Lines with points, all inside, are clipped to themselves, so this is a matter of
what one pass leaves behind (`Contained`). A pass may add points, but only crossings. A crossing is
where the segment meets the edge, so it is inside the half-plane, and it is on a segment between two
points inside all edges that came before. A half-plane contains the segments between its points,
therefore a pass takes nothing back of what the passes before it did.
-/

namespace Toolpath

/-- Lines with points, all of them inside the half-planes. -/
structure Contained {α : Type} [Scalar α] (edges : List (HalfPlane α)) (lines : List (Polyline α)) :
    Prop where
  nonempty : ∀ line ∈ lines, line ≠ []
  inside : Everywhere (fun p => ∀ edge ∈ edges, edge.contains p = true) lines

namespace HalfPlane

/-- A piece has the points of its run, so it is not empty. -/
lemma ne_nil_of_mem_clip {α : Type} [Scalar α] {h : HalfPlane α} {lines : List (Polyline α)}
    {piece : Polyline α} (mem : piece ∈ h.clip lines) : piece ≠ [] := by
  obtain ⟨line, _, mem⟩ := List.mem_flatMap.1 mem
  rw [clipLine_eq_runs] at mem
  obtain ⟨part, run, rfl⟩ := List.mem_map.1 mem
  have points := ((mem_runs_iff line).1 run).nonempty
  simp [HalfPlane.piece, points]

variable {h : HalfPlane ℝ} {p q : Point ℝ}

/-- The crossing between two points on different sides is where the segment meets the edge. -/
lemma crossing_mem (apart : h.contains p ≠ h.contains q) :
    h.crossing p q ∈ between p q ∩ h.region := by
  cases hp : h.contains p with
  | true =>
    have hq : ¬ h.contains q = true := fun hq => apart (hp.trans hq.symm)
    rw [h.between_inter_region_of_leaving hp hq, between_comm]
    exact left_mem_between _ p
  | false =>
    have hq : h.contains q = true := by simpa [hp] using apart.symm
    rw [h.between_inter_region_of_entering (by simp [hp]) hq]
    exact left_mem_between _ q

lemma contains_crossing (apart : h.contains p ≠ h.contains q) :
    h.contains (h.crossing p q) = true :=
  (h.contains_iff _).2 (crossing_mem apart).2

/-- A crossing is inside wherever both ends of its segment are. -/
lemma contains_crossing_of_contains {edge : HalfPlane ℝ} (hp : edge.contains p = true)
    (hq : edge.contains q = true) (apart : h.contains p ≠ h.contains q) :
    edge.contains (h.crossing p q) = true :=
  (edge.contains_iff _).2 (edge.between_subset_region hp hq (crossing_mem apart).1)

/-- One pass: what was inside before it stays inside. -/
lemma contained_clip {edges : List (HalfPlane ℝ)} {lines : List (Polyline ℝ)}
    (before : Everywhere (fun p => ∀ edge ∈ edges, edge.contains p = true) lines) :
    Contained (h :: edges) (h.clip lines) where
  nonempty line mem := ne_nil_of_mem_clip mem
  inside := by
    refine everywhere_clip before ?kept ?crossed
    case kept =>
      intro p inside hp
      exact List.forall_mem_cons.2 ⟨hp, inside⟩
    case crossed =>
      intro p q hp hq apart
      refine List.forall_mem_cons.2 ⟨contains_crossing apart, fun edge mem => ?_⟩
      exact contains_crossing_of_contains (hp edge mem) (hq edge mem) apart

/-- Any number of passes. -/
lemma contained_foldl_clip {edges : List (HalfPlane ℝ)} {lines : List (Polyline ℝ)}
    (ahead : List (HalfPlane ℝ)) (before : Contained edges lines) :
    Contained (ahead.reverse ++ edges) (ahead.foldl (fun lines edge => edge.clip lines) lines) := by
  induction ahead generalizing edges lines with
  | nil => exact before
  | cons edge ahead ih =>
    have := ih (contained_clip (h := edge) before.inside)
    simpa using this

end HalfPlane

namespace Page

/-- Lines clipped to a page have points, and these are inside all of its edges. -/
lemma contained_clip (page : Page ℝ) (ε : ℝ) (lines : List (Polyline ℝ)) :
    Contained (page.halfPlanes ε) (page.clip ε lines) := by
  rw [clip]
  cases hedges : page.halfPlanes ε with
  | nil => cases hedges
  | cons first ahead =>
    -- The first pass takes out lines without points.
    have begun : Contained [first] (first.clip lines) :=
      HalfPlane.contained_clip fun _ _ _ _ => by simp
    obtain ⟨nonempty, inside⟩ := HalfPlane.contained_foldl_clip ahead begun
    refine ⟨nonempty, inside.mono fun p all edge mem => all edge ?_⟩
    simpa [or_comm] using mem

/-- Clipping to a page a second time changes nothing: the lines are the same, with the same points
in the same order. All of these points are inside the four edges, so they are on the page and the
tolerance around it. -/
theorem clip_clip (page : Page ℝ) (ε : ℝ) (lines : List (Polyline ℝ)) :
    page.clip ε (page.clip ε lines) = page.clip ε lines ∧
    ∀ line ∈ page.clip ε lines, ∀ p ∈ line,
      (∀ edge ∈ page.halfPlanes ε, edge.contains p = true) ∧ p ∈ page.region ε := by
  obtain ⟨nonempty, inside⟩ := page.contained_clip ε lines
  refine ⟨clip_eq_self nonempty inside, fun line mem p on => ⟨inside line mem p on, ?_⟩⟩
  rw [mem_region_iff]
  exact fun edge mem' => (edge.contains_iff p).1 (inside line mem p on edge mem')

end Page

end Toolpath
