import Toolpath.Svg.Sketch

/-!
# Paths

Path data are read and drawn in one go. The first group behind a letter has to be there; after it,
groups are drawn as long as they can be read, and one that breaks off is dropped. Everything before
a fault has been drawn.
-/

namespace Toolpath.Svg

open Text (Cursor isSpace)

variable {α : Type} [Scalar α]

/-- The stroke of a group, which may be relative to the current point. -/
def Stroke.resolve (relative : Bool) (pen : Pen α) (stroke : Stroke α) : Stroke α :=
  if relative then stroke.shift pen.current else stroke

/-- What is worth telling about a group that breaks off: nothing, unless a part of it was read. -/
def discardNotes (letter : Char) (start next : Cursor) (fault : NumberFault) :
    List (Diagnostic α) :=
  if next.offset = start.offset then [] else [.groupDiscarded letter start.offset fault]

namespace Sketch

/-- Draws the groups that follow the first group behind `letter`. -/
def drawGroups (f : Frame α) (letter : Char) (command : Command) (relative : Bool)
    (s : Sketch α) (c : Cursor) : Logged (Diagnostic α) (Sketch α × Cursor) :=
  let start := skipSeparator c
  if start.atEnd then pure (s, start)
  else
    match _read : (group command : PathReader (Stroke α)).at start with
    | (.ok stroke, next) => do
      let s ← s.draw f (stroke.resolve relative s.pen)
      drawGroups f letter command relative s next
    | (.error fault, next) => ⟨(s, next), discardNotes letter start next fault⟩
termination_by c.rest.length
decreasing_by exact Nat.lt_of_lt_of_le (consumes_group _ _ _ _ _read) (length_skipSeparator_le c)

theorem length_drawGroups_le (f : Frame α) (letter : Char) (command : Command) (relative : Bool)
    (s : Sketch α) (c : Cursor) :
    (s.drawGroups f letter command relative c).value.2.rest.length ≤ c.rest.length := by
  fun_induction drawGroups f letter command relative s c with
  | case1 s c start atEnd => exact length_skipSeparator_le c
  | case2 s c start atEnd stroke next read ih =>
    have reached := Nat.le_of_lt (consumes_group _ _ _ _ read)
    exact Nat.le_trans (ih _) (Nat.le_trans reached (length_skipSeparator_le c))
  | case3 s c start atEnd fault next read =>
    have reached := forward_group (α := α) command start
    rw [read] at reached
    exact Nat.le_trans reached (length_skipSeparator_le c)

/-- Draws path data from a place on. The pen is laid down at the end, but not where a fault is. -/
def drawData (f : Frame α) (s : Sketch α) (c : Cursor) :
    Logged (Diagnostic α) (Sketch α × Option (Fault α)) :=
  match _next : nextLetter c with
  | none => pure ({ s with drawing := s.finish }, none)
  | some (letter, offset, behind) =>
    match Instruction.ofChar? letter with
    | none => pure (s, some (.command letter offset))
    | some .close => drawData f s.close behind
    | some (.draw command relative) =>
      match _read : (group command : PathReader (Stroke α)).at (behind.skipWhile isSpace) with
      | (.error fault, _) => pure (s, some (.number fault))
      | (.ok stroke, after) =>
        -- A move goes on with lines, so the groups behind the first one have their own command.
        let first := s.draw f (stroke.resolve relative s.pen)
        let others := first.value.drawGroups f letter command.repeated relative after
        let rest := drawData f others.value.1 others.value.2
        ⟨rest.value, first.notes ++ others.notes ++ rest.notes⟩
termination_by c.rest.length
decreasing_by
  · exact length_of_nextLetter _next
  · have toBehind := Nat.le_of_lt (length_of_nextLetter _next)
    have toAfter := consumes_group _ _ _ _ _read
    exact Nat.lt_of_le_of_lt (length_drawGroups_le ..)
      (Nat.lt_of_lt_of_le toAfter
        (Nat.le_trans (Cursor.length_rest_skipWhile_le _ _) toBehind))

/-- Draws path data. -/
def drawPath (f : Frame α) (data : String) (s : Sketch α) :
    Logged (Diagnostic α) (Sketch α × Option (Fault α)) :=
  s.drawData f (.start data)

end Sketch

end Toolpath.Svg
