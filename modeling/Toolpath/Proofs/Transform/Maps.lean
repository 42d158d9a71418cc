import Toolpath.Proofs.Exact
import Toolpath.Proofs.Transform.Joined

/-!
# The maps of transform lists

With exact arithmetic, composing maps is applying one after the other (`Affine.apply_compose`), so
the map of a list applies its functions from the last one to the first
(`TransformFunction.exists_composeFrom`).
-/

namespace Toolpath

/-! ### Affine maps -/

namespace Affine

variable (t u v : Affine ℝ)

lemma apply_compose (p : Point ℝ) : (t.compose u).apply p = t.apply (u.apply p) := by
  simp only [compose, apply, Point.mk.injEq]
  constructor <;> ring

lemma compose_assoc : (t.compose u).compose v = t.compose (u.compose v) := by
  simp only [compose, mk.injEq]
  refine ⟨?_, ?_, ?_, ?_, ?_, ?_⟩ <;> ring

lemma compose_identity : t.compose .identity = t := by
  simp only [compose, identity]
  norm_num

lemma apply_identity (p : Point ℝ) : identity.apply p = p := by
  simp only [apply, identity]
  norm_num

end Affine

namespace Svg

/-! ### Functions -/

/-- What a function does to a point, if it is one of the three that do something. -/
def TransformFunction.act? : TransformFunction ℝ → Option (Point ℝ → Point ℝ)
  | .matrix ⟨a, b, c, d, e, f⟩ => some fun p => ⟨a * p.x + c * p.y + e, b * p.x + d * p.y + f⟩
  | .translate tx ty => some fun p => ⟨p.x + tx, p.y + ty⟩
  | .scale sx sy => some fun p => ⟨sx * p.x, sy * p.y⟩
  | _ => none

/-- What functions do one after the other, the last one first. -/
def actAll (acts : List (Point ℝ → Point ℝ)) (p : Point ℝ) : Point ℝ :=
  acts.foldr (fun act p => act p) p

lemma actAll_append (acts acts' : List (Point ℝ → Point ℝ)) (p : Point ℝ) :
    actAll (acts ++ acts') p = actAll acts (actAll acts' p) :=
  List.foldr_append

namespace TransformFunction

/-- The map of a function does what the function does. -/
lemma exists_map? {f : TransformFunction ℝ} {act : Point ℝ → Point ℝ} (acts : f.act? = some act) :
    ∃ t, f.map? = .ok t ∧ ∀ p, t.apply p = act p := by
  cases f with
  | matrix map =>
    cases acts
    exact ⟨_, rfl, fun p => rfl⟩
  | translate tx ty =>
    cases acts
    refine ⟨_, rfl, fun p => ?_⟩
    simp only [Affine.translate, Affine.apply]
    norm_num
  | scale sx sy =>
    cases acts
    refine ⟨_, rfl, fun p => ?_⟩
    simp only [Affine.scale, Affine.apply]
    norm_num
  | rotate | skewX | skewY => cases acts

end TransformFunction

variable {fs gs : List (TransformFunction ℝ)} {acts : List (Point ℝ → Point ℝ)}

/-- The map of a list inside another map. -/
lemma composeFrom_compose (t u : Affine ℝ) (fs : List (TransformFunction ℝ)) :
    composeFrom (t.compose u) fs = composeFrom u fs >>= fun v => .ok (t.compose v) := by
  induction fs generalizing u with
  | nil => rfl
  | cons f fs ih =>
    unfold composeFrom
    cases f.map? with
    | error fault => rfl
    | ok inner =>
      dsimp only
      rw [Affine.compose_assoc]
      exact ih _

/-- The map of two lists one behind the other is that of the second inside that of the first. -/
lemma composeFrom_append (t : Affine ℝ) (fs gs : List (TransformFunction ℝ)) :
    composeFrom t (fs ++ gs) = composeFrom t fs >>= fun u => composeFrom u gs := by
  induction fs generalizing t with
  | nil => rfl
  | cons f fs ih =>
    rw [List.cons_append, composeFrom, composeFrom]
    cases f.map? with
    | error fault => rfl
    | ok inner => exact ih _

/-- The map of a list does what its functions do. -/
theorem exists_composeFrom (t : Affine ℝ) (known : fs.mapM TransformFunction.act? = some acts) :
    ∃ u, composeFrom t fs = .ok u ∧ ∀ p, u.apply p = t.apply (actAll acts p) := by
  induction fs generalizing t acts with
  | nil =>
    cases known
    exact ⟨t, rfl, fun p => rfl⟩
  | cons f fs ih =>
    rw [List.mapM_cons] at known
    obtain ⟨act, first, known⟩ := Option.bind_eq_some_iff.1 known
    obtain ⟨others, later, known⟩ := Option.bind_eq_some_iff.1 known
    cases known
    obtain ⟨inner, map, applied⟩ := TransformFunction.exists_map? first
    obtain ⟨u, composed, all⟩ := ih (t.compose inner) later
    refine ⟨u, ?_, fun p => ?_⟩
    · rw [composeFrom, map]
      exact composed
    · rw [all, Affine.apply_compose, applied]
      rfl

/-! ### Attributes -/

/-- A transform attribute is a list of matrices, translations and scalings, which do this. -/
def Transforms (text : String) (acts : List (Point ℝ → Point ℝ)) : Prop :=
  ∃ fs, TransformList.ofText text = ⟨fs, none⟩ ∧ fs.mapM TransformFunction.act? = some acts

/-- What two lists with a space between them do. -/
lemma Transforms.append {A B : String} {acts acts' : List (Point ℝ → Point ℝ)}
    (first : Transforms A acts) (second : Transforms B acts') :
    Transforms (A ++ " " ++ B) (acts ++ acts') := by
  obtain ⟨fs, readA, knownA⟩ := first
  obtain ⟨gs, readB, knownB⟩ := second
  refine ⟨fs ++ gs, TransformList.ofText_append readA readB, ?_⟩
  rw [List.mapM_append, knownA, knownB]
  rfl

/-- The map of an attribute does what its functions do. -/
lemma Transforms.exists_transform {text : String} (transforms : Transforms text acts) :
    ∃ t : Affine ℝ, transform text = .ok t ∧ ∀ p, t.apply p = actAll acts p := by
  obtain ⟨fs, read, known⟩ := transforms
  obtain ⟨t, composed, applied⟩ := exists_composeFrom .identity known
  refine ⟨t, ?_, fun p => (applied p).trans (Affine.apply_identity _)⟩
  rw [transform, read, TransformList.map, composed]

/-- What a list is that has a map: one without a fault, of functions that have maps. -/
lemma transform_eq_ok {text : String} {t : Affine ℝ} :
    transform text = .ok t ↔
      ∃ fs, TransformList.ofText text = ⟨fs, none⟩ ∧ composeFrom .identity fs = .ok t := by
  rw [transform]
  cases (TransformList.ofText text : TransformList ℝ) with
  | mk fs fault =>
    rw [TransformList.map]
    dsimp only
    cases composed : composeFrom .identity fs with
    | error function => simp [composed]
    | ok u => cases fault <;> simp [composed]

/-- The map of two lists with a space between them. -/
lemma transform_append {A B : String} {t u : Affine ℝ} (first : transform A = .ok t)
    (second : transform B = .ok u) : transform (A ++ " " ++ B) = .ok (t.compose u) := by
  obtain ⟨fs, readA, composedA⟩ := transform_eq_ok.1 first
  obtain ⟨gs, readB, composedB⟩ := transform_eq_ok.1 second
  refine transform_eq_ok.2 ⟨fs ++ gs, TransformList.ofText_append readA readB, ?_⟩
  have inside := composeFrom_compose t .identity gs
  rw [Affine.compose_identity, composedB] at inside
  rw [composeFrom_append, composedA]
  exact inside

end Svg

end Toolpath
