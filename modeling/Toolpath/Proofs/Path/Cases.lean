import Mathlib
import Toolpath.Svg.Path

/-!
# Path data without memory

`drawGroups` and `drawData` read and draw in one go, and remember in each case what was read, since
they end because it was read. The equations below leave the memory out. Proofs about either function
go by induction along its calls and rewrite with its equation.
-/

namespace Toolpath.Svg.Sketch

open Text (Cursor isSpace)

variable {α : Type} [Scalar α]

/-- The groups behind the first one: each that can be read is drawn, and the others follow. -/
lemma drawGroups_eq (f : Frame α) (letter : Char) (command : Command) (relative : Bool)
    (s : Sketch α) (c : Cursor) :
    s.drawGroups f letter command relative c =
      if (skipSeparator c).atEnd then pure (s, skipSeparator c)
      else
        match (group command : PathReader (Stroke α)).at (skipSeparator c) with
        | (.ok stroke, next) => do
          let s ← s.draw f (stroke.resolve relative s.pen)
          drawGroups f letter command relative s next
        | (.error fault, next) =>
          ⟨(s, next), discardNotes letter (skipSeparator c) next fault⟩ := by
  rw [drawGroups]
  split
  case isTrue => rfl
  case isFalse =>
    cases read : (group command : PathReader (Stroke α)).at (skipSeparator c) with
    | mk outcome next => cases outcome <;> rfl

/-- The commands: each draws its groups, and the others follow. -/
lemma drawData_eq (f : Frame α) (s : Sketch α) (c : Cursor) :
    s.drawData f c =
      match nextLetter c with
      | none => pure ({ s with drawing := s.finish }, none)
      | some (letter, offset, behind) =>
        match Instruction.ofChar? letter with
        | none => pure (s, some (.command letter offset))
        | some .close => s.close.drawData f behind
        | some (.draw command relative) =>
          match (group command : PathReader (Stroke α)).at (behind.skipWhile isSpace) with
          | (.error fault, _) => pure (s, some (.number fault))
          | (.ok stroke, after) =>
            let first := s.draw f (stroke.resolve relative s.pen)
            let others := first.value.drawGroups f letter command.repeated relative after
            let rest := others.value.1.drawData f others.value.2
            ⟨rest.value, first.notes ++ others.notes ++ rest.notes⟩ := by
  rw [drawData]
  cases next : nextLetter c with
  | none => rfl
  | some found =>
    obtain ⟨letter, offset, behind⟩ := found
    dsimp only
    cases known : Instruction.ofChar? letter with
    | none => rfl
    | some instruction =>
      cases instruction with
      | close => rfl
      | draw command relative =>
        dsimp only
        cases read : (group command : PathReader (Stroke α)).at (behind.skipWhile isSpace) with
        | mk outcome after => cases outcome <;> rfl

end Toolpath.Svg.Sketch
