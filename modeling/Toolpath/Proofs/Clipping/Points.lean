import Mathlib
import Toolpath.Conversion

/-!
# The points of clipped drawings

Clipping keeps points of a drawing and adds crossings between neighbours on different sides, and
nothing else. `HalfPlane.everywhere_clip` is this fact as a rule: what is to hold of all points
afterwards has to be shown of these two.
-/

namespace Toolpath

variable {α : Type}

/-- A property of all points of a drawing. -/
def Everywhere (P : Point α → Prop) (lines : List (Polyline α)) : Prop :=
  ∀ line ∈ lines, ∀ p ∈ line, P p

instance {P : Point α → Prop} [DecidablePred P] {lines : List (Polyline α)} :
    Decidable (Everywhere P lines) :=
  inferInstanceAs (Decidable (∀ line ∈ lines, ∀ p ∈ line, P p))

lemma Everywhere.mono {P Q : Point α → Prop} {lines : List (Polyline α)}
    (everywhere : Everywhere P lines) (weaker : ∀ p, P p → Q p) : Everywhere Q lines :=
  fun line mem p on => weaker p (everywhere line mem p on)

namespace HalfPlane

variable [Scalar α] {h : HalfPlane α} {P Q : Point α → Prop}

/-- The pieces of the points ahead, behind a point inside and behind one outside. -/
lemma everywhere_pieces (kept : ∀ p, P p → h.contains p = true → Q p)
    (crossed : ∀ p q, P p → P q → h.contains p ≠ h.contains q → Q (h.crossing p q))
    (rest : Polyline α) (before : ∀ p ∈ rest, P p) :
    (∀ p piece, P p → h.contains p = true → (∀ r ∈ piece, Q r) →
      Everywhere Q (h.piecesInside p piece rest)) ∧
    (∀ p, P p → ¬ h.contains p = true → Everywhere Q (h.piecesOutside p rest)) := by
  -- `P` holds of what is ahead, `Q` of the piece under way.
  induction rest with
  | nil =>
    constructor
    · intro p piece _ _ points line mem r on
      rw [piecesInside, List.mem_singleton] at mem
      subst mem
      exact points r (List.mem_reverse.1 on)
    · intro p _ _ line mem
      rw [piecesOutside] at mem
      exact absurd mem List.not_mem_nil
  | cons q rest ih =>
    obtain ⟨next, later⟩ := List.forall_mem_cons.1 before
    obtain ⟨inside, outside⟩ := ih later
    constructor
    · intro p piece here hp points
      rw [piecesInside]
      by_cases hq : h.contains q = true
      · rw [if_pos hq]
        exact inside q (q :: piece) next hq (List.forall_mem_cons.2 ⟨kept q next hq, points⟩)
      · rw [if_neg hq]
        have leaving := crossed p q here next (by simp [hp, hq])
        refine List.forall_mem_cons.2 ⟨fun r on => ?_, outside q next hq⟩
        rcases List.mem_cons.1 (List.mem_reverse.1 on) with rfl | mem
        · exact leaving
        · exact points r mem
    · intro p here hp
      rw [piecesOutside]
      by_cases hq : h.contains q = true
      · rw [if_pos hq]
        have entering := crossed p q here next (by simp [hp, hq])
        refine inside q [q, h.crossing p q] next hq ?_
        exact List.forall_mem_cons.2 ⟨kept q next hq, List.forall_mem_singleton.2 entering⟩
      · rw [if_neg hq]
        exact outside q next hq

/-- Clipping keeps points inside and adds crossings. -/
theorem everywhere_clip {lines : List (Polyline α)} (before : Everywhere P lines)
    (kept : ∀ p, P p → h.contains p = true → Q p)
    (crossed : ∀ p q, P p → P q → h.contains p ≠ h.contains q → Q (h.crossing p q)) :
    Everywhere Q (h.clip lines) := by
  intro piece mem
  obtain ⟨line, found, mem⟩ := List.mem_flatMap.1 mem
  cases line with
  | nil => exact absurd mem List.not_mem_nil
  | cons p rest =>
    obtain ⟨here, later⟩ := List.forall_mem_cons.1 (before _ found)
    obtain ⟨inside, outside⟩ := everywhere_pieces kept crossed rest later
    rw [clipLine] at mem
    by_cases hp : h.contains p = true
    · rw [if_pos hp] at mem
      exact inside p [p] here hp (List.forall_mem_singleton.2 (kept p here hp)) piece mem
    · rw [if_neg hp] at mem
      exact outside p here hp piece mem

/-- Where all points are on one side there are no crossings. -/
lemma everywhere_clip_of_same_side {lines : List (Polyline α)} (before : Everywhere P lines)
    (same : ∀ p q, P p → P q → h.contains p = h.contains q)
    (kept : ∀ p, P p → h.contains p = true → Q p) : Everywhere Q (h.clip lines) :=
  everywhere_clip before kept fun p q hp hq apart => absurd (same p q hp hq) apart

end HalfPlane

end Toolpath
