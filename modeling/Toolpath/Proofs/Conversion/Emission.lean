import Toolpath.Conversion
import Toolpath.Proofs.Pattern.Written

/-!
# What a conversion writes

A conversion reads a document, clips its polylines or leaves them as they are, and writes the program
of what is left (`result_convert`). So what is known of written programs holds of conversions
(`Pattern.Program.ofPolylines_draws`).
-/

namespace Toolpath

variable {α : Type} [Scalar α]

/-- A conversion without what is told on the way. -/
lemma result_convert (options : Options α) (text : String) :
    (convert options text).result =
      (Svg.Document.ofText options.flattening text).result >>= fun document =>
        let lines :=
          if options.clip then document.page.clip options.tolerance document.polylines
          else document.polylines
        Pattern.Program.ofPolylines lines >>= fun program =>
          .ok ⟨document.page, lines, program.records, .of document.polylines, .of lines,
            ⟨program.polylines, program.points⟩⟩ := by
  have noted (page : Page α) (lines : List (Polyline α)) :
      (page.clipNoted options.tolerance lines).value = page.clip options.tolerance lines := rfl
  unfold convert
  rw [Attempt.result_bind]
  congr 1
  funext document
  cases options.clip with
  | false =>
    simp only [Bool.false_eq_true, if_false, pure_bind, Attempt.result_bind, Attempt.result_note,
      Except.bind_of_ok]
    cases Pattern.Program.ofPolylines document.polylines <;> rfl
  | true =>
    simp only [if_true, Attempt.result_bind, Attempt.result_note, Attempt.result_lift,
      Except.bind_of_ok, noted]
    cases Pattern.Program.ofPolylines (document.page.clip options.tolerance document.polylines) <;>
      rfl

/-- What a conversion is made of: a document, and the program of what clipping left of it. -/
lemma Conversion.exists_parts {options : Options α} {text : String} {c : Conversion α}
    (accepted : (convert options text).result = .ok c) :
    ∃ (document : Svg.Document α) (program : Pattern.Program),
      (Svg.Document.ofText options.flattening text).result = .ok document ∧
      Pattern.Program.ofPolylines c.polylines = .ok program ∧
      c = ⟨document.page,
        if options.clip then document.page.clip options.tolerance document.polylines
          else document.polylines,
        program.records, .of document.polylines, .of c.polylines,
        ⟨program.polylines, program.points⟩⟩ := by
  rw [result_convert] at accepted
  obtain ⟨document, read, accepted⟩ := Except.bind_eq_ok.1 accepted
  obtain ⟨program, written, done⟩ := Except.bind_eq_ok.1 accepted
  obtain rfl := Except.ok.inj done
  exact ⟨document, program, read, written, rfl⟩

namespace Pattern

/-- Polylines are written if every coordinate is in range, and the first one that is not is the
fault. The program draws what is left of the polylines in thousandths, and a conversion counts what
it draws. -/
theorem Program.ofPolylines_draws (lines : List (Polyline α)) :
    ((∃ program, ofPolylines lines = .ok program) ↔
        ∀ x ∈ coordinates lines, ∃ n, round? (x * 1000.0) = some n) ∧
      (∀ x, (coordinates lines).find? (fun x => (round? (x * 1000.0)).isNone) = some x →
        ofPolylines lines = .error (.outOfRange x)) ∧
      (∀ program, ofPolylines lines = .ok program → program.points < 2 ^ 32 - 1 →
        ∃ ts, List.Forall₂ (List.Forall₂ Target.Rounds) ts lines ∧ program.Draws (kept ts)) ∧
      ∀ (options : Options α) (text : String) (c : Conversion α),
        (convert options text).result = .ok c →
          c.emitted.points + 1 = c.records.length ∧
            c.emitted.polylines ≤ c.clipped.polylines ∧ c.emitted.points ≤ c.clipped.points := by
  have faults := faultsAt_ofPolylines lines
  refine ⟨?_, fun x first => ?_, fun program => draws_of_ofPolylines, ?_⟩
  · rw [faults.exists_ok_iff]
    simp only [outOfRange, Option.isNone_eq_false_iff, Option.isSome_iff_exists]
  · unfold FaultsAt at faults
    change (coordinates lines).find? outOfRange = some x at first
    rwa [first] at faults
  · intro options text c accepted
    obtain ⟨document, program, _, written, parts⟩ := Conversion.exists_parts accepted
    obtain ⟨fewerLines, fewerPoints⟩ := le_of_ofPolylines written
    rw [parts]
    exact ⟨length_records written, fewerLines, fewerPoints⟩

/-- A repetition, a line that shrinks to a point, a line that draws back on itself, a coordinate out
of range in a line that would be left out, and a conversion of all that. -/
theorem Program.ofPolylines_draws_of_repetition :
    let lines : List (Polyline Float) :=
      [[⟨0.0, 0.0⟩, ⟨0.0004, -0.0002⟩, ⟨1.0, 0.0⟩, ⟨0.0, 0.0⟩], [⟨0.1, 0.1⟩, ⟨0.1002, 0.0998⟩],
        [⟨-0.0005, 2.0⟩, ⟨1.5, 2.0⟩]]
    let program : Program :=
      ⟨[.motion 1 .rapid ⟨0, 0⟩, .motion 2 .linear ⟨1000, 0⟩, .motion 3 .linear ⟨0, 0⟩,
        .motion 4 .rapid ⟨-1, 2000⟩, .motion 5 .linear ⟨1500, 2000⟩, .endOfProgram 6], 2, 5⟩
    let off : List (Polyline Float) := [[⟨0.5, 0.5⟩], [⟨-3.0, 1e20⟩], [⟨-1e20, 0.0⟩]]
    let text := "<svg width='1in' viewBox='0 0 10 10'><path d='M0 0H9V0.001M1 1H12Z'/></svg>"
    let c : Conversion Float :=
      ⟨⟨1.0, 1.0⟩, [[⟨0.0, 1.0⟩, ⟨0.9, 1.0⟩, ⟨0.9, 0.9999⟩], [⟨0.1, 0.9⟩, ⟨1.0001, 0.9⟩],
          [⟨1.0001, 0.9⟩, ⟨0.1, 0.9⟩]],
        [.motion 1 .rapid ⟨0, 1000⟩, .motion 2 .linear ⟨900, 1000⟩, .motion 3 .rapid ⟨100, 900⟩,
          .motion 4 .linear ⟨1000, 900⟩, .motion 5 .rapid ⟨1000, 900⟩,
          .motion 6 .linear ⟨100, 900⟩, .endOfProgram 7], ⟨2, 6⟩, ⟨3, 7⟩, ⟨3, 6⟩⟩
    (ofPolylines lines = .ok program ∧ program.points < 2 ^ 32 - 1 ∧
        ∃ ts, List.Forall₂ (List.Forall₂ Target.Rounds) ts lines ∧ program.Draws (kept ts)) ∧
      ((coordinates off).find? (fun x => (round? (x * 1000.0)).isNone) = some 1e20 ∧
        ofPolylines off = .error (.outOfRange 1e20)) ∧
      (convert .standard text).result = .ok c ∧ c.emitted.points + 1 = c.records.length ∧
        c.emitted.polylines ≤ c.clipped.polylines ∧ c.emitted.points ≤ c.clipped.points := by
  intro lines program off text c
  have written : ofPolylines lines = .ok program := Except.eq_ok_of_toOption (by decide +kernel)
  have first : (coordinates off).find? (fun x => (round? (x * 1000.0)).isNone) = some 1e20 := by
    decide +kernel
  have accepted : (convert .standard text).result = .ok c :=
    Except.eq_ok_of_toOption (by decide +kernel)
  exact ⟨⟨written, by decide, (ofPolylines_draws lines).2.2.1 program written (by decide)⟩,
    ⟨first, (ofPolylines_draws off).2.1 1e20 first⟩, accepted,
    (ofPolylines_draws lines).2.2.2 .standard text c accepted⟩

end Pattern

end Toolpath
