import Mathlib
import Toolpath.Conversion
import Toolpath.Proofs.Double.Extremes

/-!
# The pieces of a clipped drawing

The pieces of a polyline are its longest runs of points inside, in order. A run that does not begin
the polyline has the crossing before it, one that does not end the polyline the crossing behind it,
and nothing else is added or left out (`HalfPlane.clip_eq_runs`). No arithmetic is looked at: a
crossing is whatever comes of two neighbours on different sides.

The pieces can also be made in one sweep over all points, which puts each point inside at the end of
the last piece so far. What makes this right is that the last piece is the one under way as long as
the point before was inside, and that it ends in that point. So a sweep never touches the pieces it
finds (`HalfPlane.foldl_sweepLine`).
-/

namespace Toolpath

variable {α : Type}

/-- A polyline taken apart: some points in a row, what comes before them and what comes behind. -/
structure Part (α : Type) where
  before : Polyline α
  points : Polyline α
  behind : Polyline α

namespace HalfPlane

variable [Scalar α] (h : HalfPlane α)

/-! ### Runs -/

/-- The points of a part are inside, and the polyline is outside next to them, or ends there. -/
structure IsRun (line : Polyline α) (part : Part α) : Prop where
  whole : part.before ++ part.points ++ part.behind = line
  nonempty : part.points ≠ []
  inside : ∀ p ∈ part.points, h.contains p = true
  entered : ∀ p ∈ part.before.getLast?, h.contains p = false
  left : ∀ p ∈ part.behind.head?, h.contains p = false

/-- The runs of a polyline from a place on. The run under way has these points so far, or none if
the polyline is outside. -/
def runsFrom (before points : Polyline α) : Polyline α → List (Part α)
  | [] => if points = [] then [] else [⟨before, points, []⟩]
  | q :: rest =>
    if h.contains q then runsFrom before (points ++ [q]) rest
    else
      let others := runsFrom (before ++ points ++ [q]) [] rest
      if points = [] then others else ⟨before, points, q :: rest⟩ :: others

/-- The runs of a polyline. -/
def runs (line : Polyline α) : List (Part α) := h.runsFrom [] [] line

variable {h} {before points behind rest line : Polyline α} {part : Part α} {p q : Point α}

/-- A run that does not begin before some points inside consists of them, or begins behind them. -/
lemma IsRun.eq_or_lt (run : h.IsRun (before ++ points ++ behind) part)
    (inside : ∀ p ∈ points, h.contains p = true)
    (left : ∀ p ∈ behind.head?, h.contains p = false)
    (later : before.length ≤ part.before.length) :
    part = ⟨before, points, behind⟩ ∨ before.length + points.length < part.before.length := by
  obtain ⟨before', points', behind'⟩ := part
  obtain ⟨whole, nonempty, inside', entered, left'⟩ := run
  simp only at whole later entered left' inside' ⊢
  have ahead : before <+: before ++ points ++ behind := by simp
  have ahead' : before' <+: before ++ points ++ behind := by simp [← whole]
  obtain ⟨between, rfl⟩ := List.prefix_of_prefix_length_le ahead ahead' later
  replace whole : between ++ (points' ++ behind') = points ++ behind := by simpa using whole
  cases last : between.getLast? with
  | none =>
    obtain rfl : between = [] := List.getLast?_eq_none_iff.1 last
    refine .inl ?_
    rw [List.nil_append] at whole
    rcases List.append_eq_append_iff.1 whole with ⟨more, rfl, rfl⟩ | ⟨more, rfl, rfl⟩
    · cases more with
      | nil => simp
      | cons x more => exact absurd (inside x (by simp)) (by simp [left' x rfl])
    · cases more with
      | nil => simp
      | cons x more => exact absurd (inside' x (by simp)) (by simp [left x rfl])
  | some x =>
    have outside : h.contains x = false := entered x (by simp [last])
    have mem : x ∈ between := List.mem_of_getLast? last
    refine .inr ?_
    rcases List.append_eq_append_iff.1 whole with ⟨more, rfl, _⟩ | ⟨more, rfl, _⟩
    · simp [inside x (List.mem_append_left _ mem)] at outside
    · cases more with
      | nil => simp [inside x (by simpa using mem)] at outside
      | cons y more => simp

/-- From a place on these are the runs that do not begin before it, the one under way included. -/
lemma mem_runsFrom_iff (inside : ∀ p ∈ points, h.contains p = true)
    (entered : ∀ p ∈ before.getLast?, h.contains p = false) :
    part ∈ h.runsFrom before points rest ↔
      h.IsRun (before ++ points ++ rest) part ∧ before.length ≤ part.before.length := by
  induction rest generalizing before points with
  | nil =>
    rw [runsFrom]
    constructor
    · split
      case isTrue => exact fun bad => absurd bad List.not_mem_nil
      case isFalse nonempty =>
        intro mem
        obtain rfl := List.mem_singleton.1 mem
        exact ⟨⟨rfl, nonempty, inside, entered, by simp⟩, le_refl _⟩
    · rintro ⟨run, later⟩
      rcases run.eq_or_lt inside (by simp) later with rfl | beyond
      · rw [if_neg run.nonempty]
        exact List.mem_singleton_self _
      · have := congrArg List.length run.whole
        have := List.length_pos_iff.2 run.nonempty
        simp only [List.length_append, List.length_nil] at *
        omega
  | cons q rest ih =>
    rw [runsFrom]
    by_cases hq : h.contains q = true
    case pos =>
      rw [if_pos hq, ih (by simpa [or_imp, forall_and, hq] using inside) entered]
      simp
    case neg =>
      have outside : h.contains q = false := by simpa using hq
      have entered' : ∀ p ∈ (before ++ points ++ [q]).getLast?, h.contains p = false := by
        simpa using outside
      have others := ih (List.forall_mem_nil _) entered'
      have same : before ++ points ++ [q] ++ [] ++ rest = before ++ points ++ q :: rest := by simp
      rw [same] at others
      rw [if_neg hq]
      dsimp only
      constructor
      · intro mem
        have cases : (points ≠ [] ∧ part = ⟨before, points, q :: rest⟩) ∨
            part ∈ h.runsFrom (before ++ points ++ [q]) [] rest := by
          split at mem
          case isTrue => exact .inr mem
          case isFalse nonempty =>
            exact (List.mem_cons.1 mem).imp_left fun same => ⟨nonempty, same⟩
        rcases cases with ⟨nonempty, rfl⟩ | mem
        · exact ⟨⟨rfl, nonempty, inside, entered, by simpa using outside⟩, le_refl _⟩
        · obtain ⟨run, later⟩ := others.1 mem
          refine ⟨run, le_trans ?_ later⟩
          simp
      · rintro ⟨run, later⟩
        rcases run.eq_or_lt inside (by simpa using outside) later with rfl | beyond
        · rw [if_neg run.nonempty]
          exact List.mem_cons_self
        · have mem := others.2 ⟨run, by simp; omega⟩
          split
          case isTrue => exact mem
          case isFalse => exact List.mem_cons_of_mem _ mem

lemma mem_runs_iff (line : Polyline α) : part ∈ h.runs line ↔ h.IsRun line part := by
  rw [runs, mem_runsFrom_iff (by simp) (by simp)]
  simp

/-- The runs come in order. -/
lemma pairwise_runsFrom (inside : ∀ p ∈ points, h.contains p = true)
    (entered : ∀ p ∈ before.getLast?, h.contains p = false) :
    (h.runsFrom before points rest).Pairwise (·.before.length < ·.before.length) := by
  induction rest generalizing before points with
  | nil =>
    rw [runsFrom]
    split <;> simp
  | cons q rest ih =>
    rw [runsFrom]
    by_cases hq : h.contains q = true
    case pos =>
      rw [if_pos hq]
      exact ih (by simpa [or_imp, forall_and, hq] using inside) entered
    case neg =>
      have entered' : ∀ p ∈ (before ++ points ++ [q]).getLast?, h.contains p = false := by
        simpa using hq
      have others := ih (List.forall_mem_nil _) entered'
      rw [if_neg hq]
      dsimp only
      split
      case isTrue => exact others
      case isFalse =>
        refine List.pairwise_cons.2 ⟨fun part mem => ?_, others⟩
        obtain ⟨_, later⟩ := (mem_runsFrom_iff (by simp) entered').1 mem
        simp at later ⊢
        omega

/-! ### The pieces of runs -/

variable (h)

/-- The crossing between two points, if there are both. -/
def crossing? (p q : Option (Point α)) : Polyline α := (Option.map₂ h.crossing p q).toList

/-- The piece of a run: the crossing where the polyline comes in, the points, and the crossing where
it goes out. -/
def piece (part : Part α) : Polyline α :=
  h.crossing? part.before.getLast? part.points.head? ++ part.points ++
    h.crossing? part.points.getLast? part.behind.head?

variable {h}

/-- The pieces of the points ahead are those of the runs from there on, behind a point inside and
behind one outside. -/
lemma pieces_eq_runsFrom (rest : Polyline α) :
    (∀ before points p under, points.getLast? = some p →
      under.reverse = h.crossing? before.getLast? points.head? ++ points →
      h.piecesInside p under rest = (h.runsFrom before points rest).map h.piece) ∧
    (∀ before p, before.getLast? = some p →
      h.piecesOutside p rest = (h.runsFrom before [] rest).map h.piece) := by
  induction rest with
  | nil =>
    constructor
    · intro before points p under last same
      have nonempty : points ≠ [] := by
        rintro rfl
        cases last
      rw [piecesInside, runsFrom, if_neg nonempty, same]
      simp [piece, crossing?]
    · intro before p last
      rw [piecesOutside, runsFrom, if_pos rfl, List.map_nil]
  | cons q rest ih =>
    obtain ⟨inside, outside⟩ := ih
    constructor
    · intro before points p under last same
      have nonempty : points ≠ [] := by
        rintro rfl
        cases last
      rw [piecesInside, runsFrom]
      by_cases hq : h.contains q = true
      · rw [if_pos hq, if_pos hq]
        refine inside before (points ++ [q]) q (q :: under) (by simp) ?_
        rw [List.reverse_cons, same, List.head?_append_of_ne_nil _ nonempty, List.append_assoc]
      · rw [if_neg hq, if_neg hq]
        dsimp only
        rw [if_neg nonempty, List.map_cons, outside (before ++ points ++ [q]) q (by simp),
          List.reverse_cons, same]
        simp [piece, crossing?, last]
    · intro before p last
      rw [piecesOutside, runsFrom]
      by_cases hq : h.contains q = true
      · rw [if_pos hq, if_pos hq]
        refine inside before [q] q [q, h.crossing p q] rfl ?_
        simp [crossing?, last]
      · rw [if_neg hq, if_neg hq]
        dsimp only
        rw [if_pos rfl, outside (before ++ [] ++ [q]) q (by simp)]

/-- The pieces of a polyline are those of its runs. -/
lemma clipLine_eq_runs (line : Polyline α) : h.clipLine line = (h.runs line).map h.piece := by
  cases line with
  | nil => rfl
  | cons p rest =>
    obtain ⟨inside, outside⟩ := pieces_eq_runsFrom (h := h) rest
    rw [clipLine, runs, runsFrom]
    by_cases hp : h.contains p = true
    · rw [if_pos hp, if_pos hp]
      exact inside [] [p] p [p] rfl rfl
    · rw [if_neg hp, if_neg hp]
      exact outside [p] p rfl

/-! ### One sweep over all points -/

variable (h)

/-- One more point of a polyline, after the point before it if there is one. -/
def sweepPoint : List (Polyline α) × Option (Point α) → Point α →
    List (Polyline α) × Option (Point α)
  | (out, none), q => (if h.contains q then out ++ [[q]] else out, some q)
  | (out, some p), q =>
    let out :=
      match h.contains p, h.contains q with
      | true, true => out.modifyLast (· ++ [q])
      | true, false => out.modifyLast (· ++ [h.crossing p q])
      | false, true => out ++ [[h.crossing p q, q]]
      | false, false => out
    (out, some q)

/-- The points of one polyline. -/
def sweepLine (out : List (Polyline α)) (line : Polyline α) : List (Polyline α) :=
  (line.foldl h.sweepPoint (out, none)).1

/-- All points of all polylines, with one list for all pieces. -/
def sweep (lines : List (Polyline α)) : List (Polyline α) := lines.foldl h.sweepLine []

variable {h}

/-- Behind a point inside the last piece is the one under way, and ends in that point; behind one
outside no piece is under way. -/
lemma foldl_sweepPoint (rest : Polyline α) :
    (∀ out under p, h.contains p = true →
      (rest.foldl h.sweepPoint (out ++ [(p :: under).reverse], some p)).1 =
        out ++ h.piecesInside p (p :: under) rest) ∧
    (∀ out p, h.contains p = false →
      (rest.foldl h.sweepPoint (out, some p)).1 = out ++ h.piecesOutside p rest) := by
  induction rest with
  | nil =>
    constructor
    · intro out under p hp
      rw [piecesInside]
      rfl
    · intro out p hp
      rw [piecesOutside, List.append_nil]
      rfl
  | cons q rest ih =>
    obtain ⟨inside, outside⟩ := ih
    constructor
    · intro out under p hp
      rw [List.foldl_cons, sweepPoint, piecesInside, hp]
      cases hq : h.contains q with
      | true =>
        dsimp only
        rw [List.modifyLast_concat, if_pos rfl, ← List.reverse_cons]
        exact inside out (p :: under) q hq
      | false =>
        dsimp only
        rw [List.modifyLast_concat, if_neg (by simp), ← List.reverse_cons, outside _ q hq,
          List.append_assoc]
        rfl
    · intro out p hp
      rw [List.foldl_cons, sweepPoint, piecesOutside, hp]
      cases hq : h.contains q with
      | true =>
        dsimp only
        rw [if_pos rfl]
        exact inside out [h.crossing p q] q hq
      | false =>
        dsimp only
        rw [if_neg (by simp)]
        exact outside out q hq

lemma sweepLine_eq (out : List (Polyline α)) (line : Polyline α) :
    h.sweepLine out line = out ++ h.clipLine line := by
  cases line with
  | nil => simp [sweepLine, clipLine]
  | cons p rest =>
    obtain ⟨inside, outside⟩ := foldl_sweepPoint (h := h) rest
    rw [sweepLine, List.foldl_cons, sweepPoint, clipLine]
    cases hp : h.contains p with
    | true =>
      rw [if_pos rfl, if_pos rfl]
      exact inside out [] p hp
    | false =>
      rw [if_neg (by simp), if_neg (by simp)]
      exact outside out p hp

/-- A sweep leaves the pieces that it finds, and puts those of its polylines behind them. -/
lemma foldl_sweepLine (out lines : List (Polyline α)) :
    lines.foldl h.sweepLine out = out ++ h.clip lines := by
  induction lines generalizing out with
  | nil => simp [clip]
  | cons line lines ih =>
    rw [List.foldl_cons, ih, sweepLine_eq, List.append_assoc]
    rfl

/-! ### Drawings inside -/

lemma piecesInside_eq_self (under : List (Point α)) (inside : ∀ q ∈ rest, h.contains q = true) :
    h.piecesInside p under rest = [under.reverse ++ rest] := by
  induction rest generalizing p under with
  | nil => rw [piecesInside, List.append_nil]
  | cons q rest ih =>
    obtain ⟨hq, later⟩ := List.forall_mem_cons.1 inside
    rw [piecesInside, if_pos hq, ih (q :: under) later]
    simp

/-- Lines with points, all inside, are clipped to themselves. -/
lemma clip_eq_self {lines : List (Polyline α)} (nonempty : ∀ line ∈ lines, line ≠ [])
    (inside : ∀ line ∈ lines, ∀ p ∈ line, h.contains p = true) : h.clip lines = lines := by
  have each : ∀ line ∈ lines, h.clipLine line = [line] := by
    intro line mem
    obtain ⟨p, rest, rfl⟩ := List.exists_cons_of_ne_nil (nonempty line mem)
    obtain ⟨hp, later⟩ := List.forall_mem_cons.1 (inside _ mem)
    rw [clipLine, if_pos hp, piecesInside_eq_self [p] later]
    rfl
  rw [clip, List.flatMap_congr each, List.flatMap_singleton']

end HalfPlane

/-- Lines with points, all on the page, are clipped to themselves. -/
lemma Page.clip_eq_self [Scalar α] {page : Page α} {tolerance : α} {lines : List (Polyline α)}
    (nonempty : ∀ line ∈ lines, line ≠ [])
    (inside : ∀ line ∈ lines, ∀ p ∈ line, ∀ edge ∈ page.halfPlanes tolerance,
      edge.contains p = true) : page.clip tolerance lines = lines := by
  rw [clip]
  generalize page.halfPlanes tolerance = edges at inside
  induction edges with
  | nil => rfl
  | cons edge edges ih =>
    have here : edge.clip lines = lines := HalfPlane.clip_eq_self nonempty
      fun line mem p on => inside line mem p on edge List.mem_cons_self
    rw [List.foldl_cons, here]
    exact ih fun line mem p on edge' later =>
      inside line mem p on edge' (List.mem_cons_of_mem edge later)

namespace HalfPlane

/-- Not-a-number is not above zero, so a point with such a value is outside. -/
lemma contains_of_isNaN {h : HalfPlane Float} {p : Point Float}
    (value : (h.eval p).isNaN = true) : h.contains p = false := by
  change (h.eval p).toModel.unpack.isNaN = true at value
  refine decide_eq_false fun above => ?_
  rw [Double.le_iff_isLE] at above
  cases hu : (h.eval p).toModel.unpack with
  | notANumber =>
    rw [hu] at above
    cases (0.0 : Float).toModel.unpack <;> cases above
  | infinity | zero | finite =>
    rw [hu] at value
    cases value

variable [Scalar α]

/-- The pieces of a drawing are those of its runs, polyline by polyline and in order, and one sweep
over all points makes the same ones. The runs of a polyline are all parts of it that are inside and
cannot be made longer, each of them once. So drawings are clipped one apart from the other, also
where one sweep goes over both, and lines with points that lie on a page altogether are clipped to
themselves. Of doubles, a point of which the value is not-a-number is outside. -/
theorem clip_eq_runs (h : HalfPlane α) :
    (∀ lines, h.clip lines = lines.flatMap (fun line => (h.runs line).map h.piece) ∧
      h.sweep lines = h.clip lines) ∧
    (∀ line, (∀ part, part ∈ h.runs line ↔ h.IsRun line part) ∧
      (h.runs line).Pairwise (·.before.length < ·.before.length)) ∧
    (∀ lines more, h.clip (lines ++ more) = h.clip lines ++ h.clip more ∧
      more.foldl h.sweepLine (h.clip lines) = h.clip lines ++ h.clip more) ∧
    (∀ (page : Page α) (tolerance : α) (lines : List (Polyline α)), (∀ line ∈ lines, line ≠ []) →
      (∀ line ∈ lines, ∀ p ∈ line, ∀ edge ∈ page.halfPlanes tolerance, edge.contains p = true) →
      page.clip tolerance lines = lines) ∧
    ∀ (g : HalfPlane Float) (p : Point Float), (g.eval p).isNaN = true → g.contains p = false := by
  refine ⟨fun lines => ⟨?_, ?_⟩, fun line => ⟨fun part => ?_, ?_⟩, fun lines more => ⟨?_, ?_⟩,
    fun page tolerance lines => Page.clip_eq_self, fun g p => contains_of_isNaN⟩
  · exact List.flatMap_congr fun line _ => clipLine_eq_runs line
  · exact foldl_sweepLine [] lines
  · exact mem_runs_iff line
  · exact pairwise_runsFrom (by simp) (by simp)
  · exact List.flatMap_append
  · exact foldl_sweepLine _ more

/-- A point without a value is outside, and a line along the edge of a page is on it. -/
theorem clip_eq_runs_of_edge :
    let h : HalfPlane Float := ⟨-1.0, 0.0, 1.0⟩
    let off : Point Float := ⟨0.0 / 0.0, 0.5⟩
    let lines : List (Polyline Float) := [[⟨0.5, 0.5⟩], [⟨0.0, 1.0⟩, ⟨1.0001, 1.0⟩, ⟨1.0, -0.0001⟩]]
    ((h.eval off).isNaN = true ∧ h.contains off = false) ∧
      (∀ line ∈ lines, line ≠ []) ∧
      (∀ line ∈ lines, ∀ p ∈ line, ∀ edge ∈ Page.standard.halfPlanes 0.0001,
        edge.contains p = true) ∧
      Page.standard.clip 0.0001 lines = lines := by
  intro h off lines
  obtain ⟨_, _, _, kept, outside⟩ := clip_eq_runs h
  have value : (h.eval off).isNaN = true := by decide +kernel
  have nonempty : ∀ line ∈ lines, line ≠ [] := by simp [lines]
  have inside : ∀ line ∈ lines, ∀ p ∈ line, ∀ edge ∈ Page.standard.halfPlanes 0.0001,
      edge.contains p = true := by decide +kernel
  have same := kept .standard 0.0001 lines nonempty inside
  exact ⟨⟨value, outside h off value⟩, nonempty, inside, same⟩

-- A line that comes in, goes out and comes in again, with one point of it without a value.
example :
    (⟨-1.0, 0.0, 1.0⟩ : HalfPlane Float).clip
        [[⟨3.0, 0.0⟩, ⟨1.0, 0.0⟩, ⟨2.0, 0.0⟩, ⟨0.0 / 0.0, 0.0⟩, ⟨4.0, 8.0⟩, ⟨0.0, 0.0⟩]] =
      [[⟨1.0, 0.0⟩, ⟨1.0, 0.0⟩, ⟨1.0, 0.0⟩], [⟨1.0, 2.0⟩, ⟨0.0, 0.0⟩]] := by
  decide +kernel

end HalfPlane

end Toolpath
