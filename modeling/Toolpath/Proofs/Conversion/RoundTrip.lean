import Toolpath.Proofs.Pattern.Edges
import Toolpath.Proofs.Conversion.Emission

/-!
# A program, its preview and the program of that

A written program is read, its steps are shown in a preview, and the preview is converted without
clipping. With exact arithmetic this comes to the same program, moved so that its least coordinates
are a quarter of an inch (`Program.exists_convert_preview`).
-/

namespace Toolpath

/-! ### Drawing polylines -/

namespace Svg

variable {α : Type}

/-- The strokes that draw a polyline. -/
def polylineStrokes : Polyline α → List (Stroke α)
  | [] => []
  | first :: later => .move first :: later.map .line

variable [Scalar α]

lemma Sketch.value_drawAll_append (f : Frame α) (strokes more : List (Stroke α)) (s : Sketch α) :
    (s.drawAll f (strokes ++ more)).value = ((s.drawAll f strokes).value.drawAll f more).value := by
  induction strokes generalizing s with
  | nil => rfl
  | cons stroke strokes ih => exact ih _

/-- Lines go on from an open polyline. -/
lemma Sketch.polylines_drawAll_line (f : Frame α) (points : Polyline α) {s : Sketch α} {t : Trace α}
    (begun : s.pen.start ≠ none) (current : s.drawing.current = some t) :
    (s.drawAll f (points.map .line)).value.drawing.polylines =
      s.drawing.ended.toList.map Trace.toList ++ [t.toList ++ points.map f.map.apply] := by
  induction points generalizing s t with
  | nil =>
    simpa [drawAll] using Drawing.polylines_of_current_eq_some current
  | cons p points ih =>
    obtain ⟨⟨here, control, start⟩, ended, open'⟩ := s
    cases start with
    | none => exact absurd rfl begun
    | some p₀ =>
      cases current
      have later := ih (s := ⟨⟨p, p, some p₀⟩, ⟨ended, some (t.push (f.map.apply p))⟩⟩)
        (by simp) rfl
      simp only [Trace.toList_push, List.append_assoc, List.singleton_append] at later
      exact later

/-- A polyline is drawn behind what is drawn. -/
lemma Sketch.polylines_drawAll_polyline (f : Frame α) {line : Polyline α} (some : line ≠ [])
    (s : Sketch α) :
    (s.drawAll f (polylineStrokes line)).value.drawing.polylines =
      s.drawing.polylines ++ [line.map f.map.apply] := by
  obtain ⟨p, points, rfl⟩ := List.exists_cons_of_ne_nil some
  have current : (s.moveTo f p).drawing.current = .some (.single (f.map.apply p)) := rfl
  have ended : (s.moveTo f p).drawing.ended.toList.map Trace.toList = s.drawing.polylines := by
    have moved := Drawing.polylines_moveTo s.drawing (f.map.apply p)
    have split := Drawing.polylines_of_current_eq_some current
    exact (List.append_inj_left' (split.symm.trans moved) rfl)
  have drawn := polylines_drawAll_line f points (s := s.moveTo f p) (by simp [moveTo]) current
  rw [ended] at drawn
  exact drawn

/-- Polylines are drawn one behind another. -/
lemma strokeLines_polylines (f : Frame α) {lines : List (Polyline α)} (full : ∀ l ∈ lines, l ≠ []) :
    strokeLines f (lines.flatMap polylineStrokes) = lines.map (·.map f.map.apply) := by
  have drawn (s : Sketch α) :
      (s.drawAll f (lines.flatMap polylineStrokes)).value.drawing.polylines =
        s.drawing.polylines ++ lines.map (·.map f.map.apply) := by
    induction lines generalizing s with
    | nil => simp [Sketch.drawAll]
    | cons l lines ih =>
      rw [List.flatMap_cons, Sketch.value_drawAll_append,
        ih fun l' mem => full l' (List.mem_cons_of_mem l mem),
        Sketch.polylines_drawAll_polyline f (full l List.mem_cons_self)]
      simp
  exact (Drawing.polylines_endLine _).trans (drawn _)

end Svg

namespace Pattern

/-! ### The program of a preview -/

lemma map_stroke_motions {α : Type} [Scalar α] (line : List Target) :
    (motions line).map (fun m => (stepOf m : Step α).stroke) =
      Svg.polylineStrokes (line.map Target.point) := by
  cases line with
  | nil => rfl
  | cons first later =>
    simp only [motions, List.map_cons, List.map_map, Svg.polylineStrokes]
    rfl

/-- The steps of lines draw the lines. -/
lemma map_stroke_flatMap_motions {α : Type} [Scalar α] (lines : List (List Target)) :
    ((lines.flatMap motions).map (stepOf (α := α))).map Step.stroke =
      (lines.map (·.map Target.point)).flatMap Svg.polylineStrokes := by
  rw [List.map_map, List.map_flatMap, List.flatMap_map]
  congr 1
  funext line
  exact map_stroke_motions line

lemma map_snd_flatMap_motions (lines : List (List Target)) :
    (lines.flatMap motions).map Prod.snd = lines.flatten := by
  rw [List.map_flatMap, List.flatten_eq_flatMap]
  congr 1
  funext line
  exact map_snd_motions line

/-- The polylines that are read from the preview of lines are the lines, moved. -/
lemma result_ofText_preview_motions {lines : List (List Target)} (full : ∀ l ∈ lines, l ≠ [])
    (flattening : Flattening ℝ) :
    ∃ page : Page ℝ,
      (Svg.Document.ofText flattening
          (preview ((lines.flatMap motions).map (stepOf (α := ℝ))))).result =
        .ok ⟨page, lines.map (·.map (Target.pointAt (250 - (Edges.of lines.flatten).left)
          (250 - (Edges.of lines.flatten).bottom)))⟩ := by
  have across := Edges.left_le_right lines.flatten
  have upward := Edges.bottom_le_top lines.flatten
  have bounds := padded_map_stepOf (lines.flatMap motions)
  rw [map_snd_flatMap_motions] at bounds
  have nonempty : ∀ l ∈ lines.map (·.map (Target.point (α := ℝ))), l ≠ [] := by
    intro l mem
    obtain ⟨line, drawn, rfl⟩ := List.mem_map.1 mem
    simpa using full line drawn
  have read := result_ofText_preview (legible_map_stepOf (lines.flatMap motions))
    (by rw [bounds]; exact proper_bounds across upward) flattening
  have moved (line : List Target) :
      (line.map Target.point).map (((previewMap (Edges.of lines.flatten).bounds).compose
          .identity).compose .identity).apply =
        line.map (Target.pointAt (250 - (Edges.of lines.flatten).left)
          (250 - (Edges.of lines.flatten).bottom)) := by
    rw [List.map_map]
    exact List.map_congr_left fun t _ => apply_previewMap across upward t
  have drawn := List.map_congr_left (l := lines) fun line _ => moved line
  rw [bounds, map_stroke_flatMap_motions, Svg.strokeLines_polylines _ nonempty, List.map_map] at read
  refine ⟨previewPage (Edges.of lines.flatten).bounds, read.trans ?_⟩
  exact congrArg (fun lines => Except.ok (Svg.Document.mk _ lines)) drawn

/-- The edges of a program are those of its lines. -/
lemma Program.edges_ofTargets (lines : List (List Target)) :
    (Program.ofTargets lines).edges = .of lines.flatten := by
  have motions (n : ℕ) (ms : List (Motion × Target)) :
      (numberFrom n ms).filterMap Record.target? = ms.map Prod.snd := by
    induction ms generalizing n with
    | nil => rfl
    | cons m ms ih => simpa [Record.target?] using ih (n + 1)
  rw [edges, ofTargets, number_eq, List.filterMap_append, motions, map_snd_flatMap_motions]
  exact congrArg Edges.of (List.append_nil _)

/-- Targets that are moved to the edges stay in range if all of them have room. -/
lemma fits_of_mem {ts : List Target} (across : (Edges.of ts).right - (Edges.of ts).left + 250 < 2 ^ 63)
    (upward : (Edges.of ts).top - (Edges.of ts).bottom + 250 < 2 ^ 63) {t : Target} (mem : t ∈ ts) :
    t.Fits (250 - (Edges.of ts).left) (250 - (Edges.of ts).bottom) := by
  have left : (Edges.of ts).left ≤ t.x.toInt := min?_getD_le (List.mem_map_of_mem mem)
  have right : t.x.toInt ≤ (Edges.of ts).right := le_max?_getD (List.mem_map_of_mem mem)
  have bottom : (Edges.of ts).bottom ≤ t.y.toInt := min?_getD_le (List.mem_map_of_mem mem)
  have top : t.y.toInt ≤ (Edges.of ts).top := le_max?_getD (List.mem_map_of_mem mem)
  constructor <;> omega

/-- A program is written and read, its preview is converted without clipping, and with exact
arithmetic this gives the same program, moved until its least coordinates are a quarter of an
inch. -/
theorem Program.exists_convert_preview {α : Type} [Scalar α] {lines : List (Polyline α)}
    {program : Program} (written : Program.ofPolylines lines = .ok program)
    (across : program.edges.right - program.edges.left + 250 < 2 ^ 63)
    (upward : program.edges.top - program.edges.bottom + 250 < 2 ^ 63)
    (options : Options ℝ) (unclipped : options.clip = false) :
    ∃ c : Conversion ℝ,
      (convert options (preview (α := ℝ) (Listing.ofText (write program.records)).value.steps)).result =
          .ok c ∧
        List.Forall₂ (Record.Moved (250 - program.edges.left) (250 - program.edges.bottom))
          program.records c.records := by
  obtain ⟨ts, _, rfl⟩ := exists_rounds_of_ofPolylines written
  have long : ∀ l ∈ kept ts, 2 ≤ l.length := fun l => two_le_length_of_mem_kept
  have apart : ∀ l ∈ kept ts, l.IsChain (· ≠ ·) := fun l => isChain_of_mem_kept
  have full : ∀ l ∈ kept ts, l ≠ [] := fun l mem =>
    List.ne_nil_of_length_pos (Nat.lt_of_lt_of_le two_pos (long l mem))
  rw [edges_ofTargets] at across upward ⊢
  have fits : ∀ l ∈ kept ts, ∀ t ∈ l, t.Fits (250 - (Edges.of (kept ts).flatten).left)
      (250 - (Edges.of (kept ts).flatten).bottom) := fun l drawn t on =>
    fits_of_mem across upward (List.mem_flatten.2 ⟨l, drawn, on⟩)
  have steps : (Listing.ofText (write (Program.ofTargets (kept ts)).records)).value.steps =
      ((kept ts).flatMap motions).map (stepOf (α := ℝ)) := by
    rw [value_ofText_write]
    exact filterMap_step?_number _
  obtain ⟨page, read⟩ := result_ofText_preview_motions full options.flattening
  rw [steps, result_convert, read, Except.bind_of_ok, unclipped]
  dsimp only
  rw [if_neg Bool.false_ne_true, Program.ofPolylines_pointAt fits long apart, Except.bind_of_ok]
  exact ⟨_, rfl, Program.forall₂_records fits⟩

/-- A line that is drawn back on itself, away from the origin. -/
theorem Program.exists_convert_preview_of_hook :
    let lines : List (Polyline ℝ) := [[⟨2, -1⟩, ⟨7 / 2, -1⟩, ⟨7 / 2, 1 / 8⟩, ⟨7 / 2, -1⟩]]
    let program : Program :=
      ⟨[.motion 1 .rapid ⟨2000, -1000⟩, .motion 2 .linear ⟨3500, -1000⟩,
        .motion 3 .linear ⟨3500, 125⟩, .motion 4 .linear ⟨3500, -1000⟩, .endOfProgram 5], 1, 4⟩
    let options : Options ℝ := ⟨false, .standard, 0⟩
    Program.ofPolylines lines = .ok program ∧ program.edges = ⟨2000, -1000, 3500, 125⟩ ∧
      ∃ c : Conversion ℝ,
        (convert options (preview (α := ℝ) (Listing.ofText (write program.records)).value.steps)).result =
            .ok c ∧
          List.Forall₂ (Record.Moved (-1750) 1250) program.records c.records := by
  intro lines program options
  let targets : List (List Target) :=
    [[⟨2000, -1000⟩, ⟨3500, -1000⟩, ⟨3500, 125⟩, ⟨3500, -1000⟩]]
  have drawn : targets.map (·.map (Target.pointAt 0 0)) = lines := by
    have places : (2000 : Int64).toInt = 2000 ∧ (-1000 : Int64).toInt = -1000 ∧
        (3500 : Int64).toInt = 3500 ∧ (125 : Int64).toInt = 125 := by decide
    obtain ⟨h₁, h₂, h₃, h₄⟩ := places
    norm_num [targets, lines, Target.pointAt, inches, h₁, h₂, h₃, h₄]
  have fits : ∀ l ∈ targets, ∀ t ∈ l, t.Fits 0 0 := by
    intro l _ t _
    constructor <;> rw [add_zero]
    · exact t.x.le_toInt
    · exact t.x.toInt_lt
    · exact t.y.le_toInt
    · exact t.y.toInt_lt
  have written : Program.ofPolylines lines = .ok program := by
    rw [← drawn, ofPolylines_pointAt fits (by decide) (by decide)]
    exact congrArg Except.ok (by decide)
  have edges : program.edges = ⟨2000, -1000, 3500, 125⟩ := by decide
  have moved := exists_convert_preview written (by rw [edges]; decide) (by rw [edges]; decide)
    options rfl
  rw [edges] at moved
  exact ⟨written, edges, moved⟩

end Pattern

end Toolpath
