import Toolpath.Proofs.Decimal.Grammar
import Toolpath.Proofs.Document.Fresh
import Toolpath.Proofs.Path.BeforeFault

/-!
# A move between path data

Where path data are followed by others that begin with a move, the two are drawn as each is drawn
alone (`Sketch.drawPath_append`). Nothing of the first part is left over for the second. What was
being read ends before the move, whether it was a number, a separator or a group that breaks off:
`Ahead` compares what is ahead of a reader with and without the second part, and each reader is
followed from one such pair to another. And a move forgets the pen, so all that is drawn behind it
is what a new pen draws, behind the polylines that were there.
-/

namespace Toolpath

/-- The same fault of path data that stand some bytes further on. -/
def Fault.further {α : Type} (bytes : ℕ) : Fault α → Fault α
  | .command letter offset => .command letter (offset + bytes)
  | .number missing => .number { missing with offset := missing.offset + bytes }
  | fault => fault

namespace Svg

open Text (Cursor isSpace)
open Text.Cursor (bytes bytes_append bytes_le_of_suffix)
open Decimal (InNumeral)

variable {α : Type} [Scalar α] {back rest cs : List Char}

/-! ### Readers before a bar -/

/-- Behind spaces stands a character that goes on with no number and no separator. -/
def Bars (back : List Char) : Prop :=
  ∃ c rest, back.dropWhile isSpace = c :: rest ∧ ¬InNumeral c ∧ c ≠ ','

lemma not_inNumeral_of_isSpace {c : Char} (space : isSpace c = true) : ¬InNumeral c := by
  rcases Text.eq_of_isSpace space with rfl | rfl | rfl | rfl <;> simp [InNumeral]

lemma ne_comma_of_isSpace {c : Char} (space : isSpace c = true) : c ≠ ',' := by
  rintro rfl
  exact absurd space (by decide)

lemma Bars.head? (bars : Bars back) : ∀ c ∈ back.head?, ¬InNumeral c ∧ c ≠ ',' := by
  obtain ⟨c, rest, ahead, noNumber, noComma⟩ := bars
  intro k first
  obtain ⟨behind, rfl⟩ := List.head?_eq_some_iff.1 first
  by_cases space : isSpace k = true
  case pos => exact ⟨not_inNumeral_of_isSpace space, ne_comma_of_isSpace space⟩
  case neg =>
    rw [List.dropWhile_cons_of_neg space] at ahead
    obtain rfl := (List.cons.inj ahead).1
    exact ⟨noNumber, noComma⟩

lemma Bars.dropWhile (bars : Bars back) : Bars (back.dropWhile isSpace) := by
  obtain ⟨c, rest, ahead, stops⟩ := bars
  exact ⟨c, rest, by rw [List.dropWhile_idempotent, ahead], stops⟩

lemma bars_of_move (move : (back.dropWhile isSpace).head? = some 'M') : Bars back := by
  obtain ⟨after, start⟩ := List.head?_eq_some_iff.1 move
  exact ⟨'M', after, start, by simp [InNumeral], by decide⟩

lemma number?_append (bars : Bars back) (cs : List Char) :
    (number? (cs ++ back) : Option (α × List Char)) =
      (number? cs).map fun found => (found.1, found.2 ++ back) := by
  have within := Decimal.numeralLength_append_le cs fun c first => (bars.head? c first).1
  have same := Decimal.counted_numeralLength cs back within
  rw [← same] at within
  rw [number?, number?, ← same, List.take_append_of_le_length within,
    List.drop_append_of_le_length within, Option.map_map]
  rfl

/-- What is ahead of a reader in a text that goes on with `back`, where `rest` is ahead of it
without. Spaces at the front of `back` may have been passed over together with those before. -/
inductive Ahead (back : List Char) : List Char → List Char → Prop
  | inside (rest : List Char) : Ahead back rest (rest ++ back)
  | spaced : Ahead back [] (back.dropWhile isSpace)

namespace Ahead

lemma eq_of_cons {c : Char} (ahead : Ahead back (c :: rest) cs) : cs = c :: (rest ++ back) := by
  cases ahead
  rfl

lemma dropWhile (ahead : Ahead back rest cs) :
    Ahead back (rest.dropWhile isSpace) (cs.dropWhile isSpace) := by
  cases ahead with
  | inside =>
    rw [List.dropWhile_append]
    split
    case isTrue none =>
      rw [List.isEmpty_iff.1 none]
      exact .spaced
    case isFalse => exact .inside _
  | spaced =>
    rw [List.dropWhile_idempotent]
    exact .spaced

/-- Where only spaces are ahead without `back`, only spaces stand before it. -/
lemma dropWhile_eq (ahead : Ahead back rest cs) (none : rest.dropWhile isSpace = []) :
    cs.dropWhile isSpace = back.dropWhile isSpace := by
  cases ahead with
  | inside => rw [List.dropWhile_append, none, if_pos List.isEmpty_nil]
  | spaced => exact List.dropWhile_idempotent _ _

/-- No comma stands ahead, unless one does without `back`. -/
lemma head?_eq_comma (ahead : Ahead back rest cs) (bars : Bars back) :
    cs.head? = some ',' ↔ rest.head? = some ',' := by
  cases ahead with
  | inside =>
    cases rest with
    | nil => simpa using fun comma => (bars.head? ',' comma).2 rfl
    | cons c rest => rfl
  | spaced => simpa using fun comma => (bars.dropWhile.head? ',' comma).2 rfl

lemma tail (ahead : Ahead back rest cs) (some : rest ≠ []) : Ahead back rest.tail cs.tail := by
  obtain ⟨c, rest, rfl⟩ := List.exists_cons_of_ne_nil some
  rw [ahead.eq_of_cons]
  exact .inside rest

lemma passSeparator (ahead : Ahead back rest cs) (bars : Bars back) :
    Ahead back (passSeparator rest) (passSeparator cs) := by
  have start := ahead.dropWhile
  rw [passSeparator_eq, passSeparator_eq]
  by_cases comma : (rest.dropWhile isSpace).head? = some ','
  case pos =>
    rw [if_pos comma, if_pos ((start.head?_eq_comma bars).2 comma)]
    exact (start.tail (by rintro none; simp [none] at comma)).dropWhile
  case neg =>
    rw [if_neg comma, if_neg fun other => comma ((start.head?_eq_comma bars).1 other)]
    exact start

lemma number? (ahead : Ahead back rest cs) (bars : Bars back) :
    (Svg.number? cs : Option (α × List Char)) =
      (Svg.number? rest).map fun found => (found.1, found.2 ++ back) := by
  cases ahead with
  | inside => exact number?_append bars rest
  | spaced => exact number?_append bars.dropWhile []

/-- Numbers are read alike, and what is left over compares again. -/
lemma numbers (ahead : Ahead back rest cs) (bars : Bars back) (n : ℕ) :
    ∃ left, numbers n cs = ((numbers n rest : Option (List α) × _).1, left) ∧
      Ahead back (numbers n rest : Option (List α) × _).2 left := by
  induction n generalizing rest cs with
  | zero => exact ⟨cs, rfl, ahead⟩
  | succ n ih =>
    rw [Svg.numbers, Svg.numbers, ahead.number? bars]
    cases (Svg.number? rest : Option (α × List Char)) with
    | none => exact ⟨cs, rfl, ahead⟩
    | some found =>
      obtain ⟨x, left⟩ := found
      have next : Ahead back (if n = 0 then left else Svg.passSeparator left)
          (if n = 0 then left ++ back else Svg.passSeparator (left ++ back)) := by
        split
        · exact .inside left
        · exact (Ahead.inside left).passSeparator bars
      obtain ⟨last, read, behind⟩ := ih next
      refine ⟨last, ?_, behind⟩
      dsimp only [Option.map_some]
      rw [read]

lemma readGroup (ahead : Ahead back rest cs) (bars : Bars back) (command : Command) :
    ∃ left, readGroup command cs = ((readGroup command rest : Option (Stroke α) × _).1, left) ∧
      Ahead back (readGroup command rest : Option (Stroke α) × _).2 left := by
  obtain ⟨left, read, behind⟩ := ahead.numbers (α := α) bars command.size
  refine ⟨left, ?_, behind⟩
  rw [Svg.readGroup, read]
  rfl

lemma readGroups (ahead : Ahead back rest cs) (bars : Bars back) (command : Command) :
    ∃ left, readGroups command cs = ((readGroups command rest : List (Stroke α) × _).1, left) ∧
      Ahead back (readGroups command rest : List (Stroke α) × _).2 left := by
  fun_induction Svg.readGroups (α := α) command rest generalizing cs with
  | case1 rest stop first =>
    obtain ⟨left, read, behind⟩ := (ahead.passSeparator bars).readGroup (α := α) bars command
    rw [first] at read behind
    exact ⟨left, by rw [readGroups_eq, read], behind⟩
  | case2 rest stroke stop first others =>
    rename_i ih
    obtain ⟨left, read, behind⟩ := (ahead.passSeparator bars).readGroup (α := α) bars command
    rw [first] at read behind
    obtain ⟨last, further, end'⟩ := ih behind
    refine ⟨last, ?_, end'⟩
    rw [readGroups_eq, read]
    dsimp only
    rw [further]

end Ahead

namespace Script

variable {text text' : List Char}

lemma read_congr (same : cs.dropWhile isSpace = rest.dropWhile isSpace) :
    (read text cs : Script α) = read text rest := by
  rw [read_eq, read_eq text rest, same]

/-- The strokes of what is read without `back`, and then those of `back`. -/
lemma read_append (ahead : Ahead back rest cs) (bars : Bars back)
    (ends : (read text' rest : Script α).fault = none) :
    (read text cs : Script α) =
      ⟨(read text' rest : Script α).strokes ++ (read text back : Script α).strokes,
        (read text back : Script α).fault⟩ := by
  fun_induction read (α := α) text' rest generalizing cs with
  | case1 rest none => rw [List.nil_append, read_congr (ahead.dropWhile_eq none)]
  | case2 rest letter after start isClose ih =>
    have first := ahead.dropWhile
    rw [start] at first
    rw [read_eq text cs, first.eq_of_cons]
    dsimp only
    rw [if_pos isClose, ih (.inside after) ends]
    simp [behind]
  | case3 => cases ends
  | case4 => cases ends
  | case5 rest letter after start notClose command known stroke stop first others =>
    rename_i ih
    have letter' := ahead.dropWhile
    rw [start] at letter'
    obtain ⟨left, group, behind⟩ := (Ahead.inside after).dropWhile.readGroup (α := α) bars command
    rw [first] at group behind
    obtain ⟨last, groups, end'⟩ := behind.readGroups (α := α) bars command.repeated
    rw [read_eq text cs, letter'.eq_of_cons]
    dsimp only
    rw [if_neg notClose, known]
    dsimp only
    rw [group]
    dsimp only
    rw [groups, ih end' ends]
    simp [Script.behind, others]

lemma offset_before_append (front : List Char) (part : cs <:+ text) :
    (Cursor.before (front ++ text) cs).offset = (Cursor.before text cs).offset + bytes front := by
  have inside := bytes_le_of_suffix part
  simp only [Cursor.before, bytes_append]
  omega

/-- A script does not depend on what stands before it in its text, but its fault is told from the
beginning of the text. -/
lemma read_behind (front : List Char) (part : cs <:+ text) :
    (read (front ++ text) cs : Script α) =
      ⟨(read text cs : Script α).strokes, (read text cs).fault.map (.further (bytes front))⟩ := by
  fun_induction read (α := α) text cs with
  | case1 cs none =>
    rw [read_eq, none]
    rfl
  | case2 cs letter after start isClose ih =>
    rw [read_eq, start]
    dsimp only
    rw [if_pos isClose, ih (letter_suffix start part)]
    rfl
  | case3 cs letter after start notClose unknown =>
    have toLetter : letter :: after <:+ text := (start ▸ List.dropWhile_suffix isSpace).trans part
    rw [read_eq, start]
    dsimp only
    rw [if_neg notClose, unknown]
    dsimp only
    rw [offset_before_append front toLetter]
    rfl
  | case4 cs letter after start notClose command known rest first =>
    have toGroup := (List.dropWhile_suffix isSpace).trans (letter_suffix start part)
    have toMissing := (suffix_of_readGroup first).trans toGroup
    rw [read_eq, start]
    dsimp only
    rw [if_neg notClose, known]
    dsimp only
    rw [first]
    dsimp only
    rw [missingNumber, offset_before_append front toMissing]
    rfl
  | case5 cs letter after start notClose command known stroke rest first others =>
    rename_i ih
    have toGroup := (List.dropWhile_suffix isSpace).trans (letter_suffix start part)
    have toRest := (suffix_of_readGroup first).trans toGroup
    have toOthers := (readGroups_suffix (α := α) command.repeated rest).trans toRest
    rw [read_eq, start]
    dsimp only
    rw [if_neg notClose, known]
    dsimp only
    rw [first]
    dsimp only
    rw [ih toOthers]
    rfl

lemma exists_eq_move {stroke : Stroke α} (read : readGroup .move cs = (some stroke, rest)) :
    ∃ p, stroke = .move p := by
  obtain ⟨xs, _, made⟩ := Option.bind_eq_some_iff.1 (Prod.mk.inj read).1
  match xs, made with
  | [x, y], made => exact ⟨⟨x, y⟩, (Option.some.inj made).symm⟩

/-- Path data that begin with a move ask for a move first, unless its group cannot be read. -/
lemma strokes_of_move (text : List Char) (move : (cs.dropWhile isSpace).head? = some 'M') :
    (read text cs : Script α).strokes = [] ∨
      ∃ p others, (read text cs : Script α).strokes = (false, .move p) :: others := by
  obtain ⟨after, start⟩ := List.head?_eq_some_iff.1 move
  have notClose : ¬Char.toUpper 'M' = 'Z' := by decide
  have known : Command.ofCapital? (Char.toUpper 'M') = some .move := rfl
  rw [read_eq, start]
  dsimp only
  rw [if_neg notClose, known]
  dsimp only
  cases first : (readGroup .move (after.dropWhile isSpace) : Option (Stroke α) × _) with
  | mk stroke left =>
    cases stroke with
    | none => exact .inl rfl
    | some stroke =>
      obtain ⟨p, rfl⟩ := exists_eq_move first
      exact .inr ⟨p, _, rfl⟩

end Script

namespace Sketch

variable (f : Frame α)

/-- A move forgets the pen and ends what is open. -/
lemma moveTo_eq_behind (p : Point α) (s : Sketch α) :
    s.moveTo f p = ((begin .empty).moveTo f p).behind s.drawing.endLine.ended := by
  simp [moveTo, behind, Drawing.moveTo, Drawing.behind, begin, Drawing.empty, Drawing.endLine]

lemma draw_behind (before : Array (Trace α)) (script : Script α) (s : Sketch α) :
    script.draw f (s.behind before) = (script.draw f s).behind before := by
  obtain ⟨strokes, fault⟩ := script
  induction strokes generalizing s with
  | nil => rfl
  | cons first strokes ih =>
    have step := ih (s.draw f (first.2.resolve first.1 s.pen)).value
    simp only [Script.draw, List.foldl_cons, pen_behind, value_draw_behind] at step ⊢
    exact step

/-- A script that begins with a move is drawn as by a new pen, behind what was drawn before. -/
lemma draw_of_move {p : Point α} {others : List (Bool × Stroke α)} {script : Script α}
    (move : script.strokes = (false, .move p) :: others) (s : Sketch α) :
    script.draw f s = (script.draw f (begin .empty)).behind s.drawing.endLine.ended := by
  have rest (s : Sketch α) : script.draw f s = Script.draw f ⟨others, none⟩ (s.moveTo f p) := by
    rw [Script.draw, move]
    rfl
  rw [rest, moveTo_eq_behind, draw_behind, ← rest]

/-- What a script comes to in polylines does not depend on the pen being laid down. -/
lemma polylines_outcome (script : Script α) (s : Sketch α) :
    (script.outcome f s).1.drawing.polylines = (script.draw f s).drawing.polylines := by
  obtain ⟨strokes, fault⟩ := script
  cases fault with
  | none => exact Drawing.polylines_endLine _
  | some fault => rfl

lemma pen_outcome (script : Script α) (s : Sketch α) :
    (script.outcome f s).1.pen = (script.draw f s).pen := by
  obtain ⟨strokes, fault⟩ := script
  cases fault <;> rfl

/-- Drawn behind anything, a script that begins with a move adds the polylines of a new pen, and
leaves the pen where it leaves a new one once it has begun a subpath. -/
lemma draw_behind_of_move {script : Script α} (s : Sketch α)
    (move : script.strokes = [] ∨ ∃ p others, script.strokes = (false, .move p) :: others) :
    (script.draw f s).drawing.polylines =
        s.drawing.polylines ++ (script.draw f (begin .empty)).drawing.polylines ∧
      ((script.draw f (begin .empty)).pen.start ≠ none →
        (script.draw f s).pen = (script.draw f (begin .empty)).pen) := by
  rcases move with none | ⟨p, others, move⟩
  case inl =>
    have still (s : Sketch α) : script.draw f s = s := by rw [Script.draw, none, List.foldl_nil]
    rw [still, still]
    exact ⟨(List.append_nil _).symm, fun begun => absurd rfl begun⟩
  case inr =>
    have idle := Drawing.polylines_of_idle (Drawing.current_endLine s.drawing)
    rw [draw_of_move f move s, drawing_behind, Drawing.polylines_behind, ← idle,
      Drawing.polylines_endLine]
    exact ⟨rfl, fun _ => rfl⟩

/-- Path data followed by others that begin with a move draw what they draw, and then what the
others draw by themselves with a new pen. They fail exactly if the others do, with the same fault,
told from further on. Once the others have begun a subpath, the pen is where it is without the
first. -/
theorem drawPath_append (front back : String) (s : Sketch α)
    (move : (back.toList.dropWhile isSpace).head? = some 'M')
    (ends : (s.drawPath f front).value.2 = none) :
    let first := (s.drawPath f front).value
    let second := ((begin .empty).drawPath f back).value
    let both := (s.drawPath f (front ++ back)).value
    both.1.drawing.polylines = first.1.drawing.polylines ++ second.1.drawing.polylines ∧
      both.2 = second.2.map (.further front.utf8ByteSize) ∧
      (second.1.pen.start ≠ none → both.1.pen = second.1.pen) := by
  intro first second both
  let before : Script α := .read front.toList front.toList
  let behind : Script α := .read back.toList back.toList
  have well : before.fault = none := by
    rw [drawPath_eq_script, Script.snd_outcome] at ends
    exact ends
  have whole : Script.read (front ++ back).toList (front ++ back).toList =
      (⟨before.strokes ++ behind.strokes, behind.fault.map (.further front.utf8ByteSize)⟩ :
        Script α) := by
    have size : bytes front.toList = front.utf8ByteSize := by
      rw [← Cursor.utf8ByteSize_ofList, String.ofList_toList]
    rw [String.toList_append, Script.read_append (.inside front.toList) (bars_of_move move) well,
      Script.read_behind front.toList List.suffix_rfl, size]
  have drawn : Script.draw f ⟨before.strokes ++ behind.strokes,
      behind.fault.map (.further front.utf8ByteSize)⟩ s = behind.draw f (before.draw f s) :=
    List.foldl_append
  have same : both = Script.outcome f _ s :=
    (drawPath_eq_script f (front ++ back) s).trans (congrArg (Script.outcome f · s) whole)
  have alone : second = behind.outcome f (begin .empty) := drawPath_eq_script f back _
  obtain ⟨polylines, pen⟩ := draw_behind_of_move f (before.draw f s)
    (Script.strokes_of_move back.toList move)
  refine ⟨?_, ?_, ?_⟩
  · have start : first = before.outcome f s := drawPath_eq_script f front s
    rw [same, start, alone, polylines_outcome, polylines_outcome, polylines_outcome, drawn]
    exact polylines
  · rw [same, alone, Script.snd_outcome, Script.snd_outcome]
  · rw [same, alone, pen_outcome, pen_outcome, drawn]
    exact pen

/-- A curve and a group that breaks off behind a comma leave nothing to the data behind them. -/
theorem drawPath_append_of_half_group :
    let f : Frame Float := ⟨.identity, .standard⟩
    let s : Sketch Float := .begin .empty
    let front := "M1 2C0 1 1 1 1 0 7,8 ,"
    let back := "\n M3 3S4 4 5 5 1e"
    let first := (s.drawPath f front).value
    let second := (s.drawPath f back).value
    let both := (s.drawPath f (front ++ back)).value
    (back.toList.dropWhile isSpace).head? = some 'M' ∧ first.2 = none ∧
      both.1.drawing.polylines = first.1.drawing.polylines ++ second.1.drawing.polylines ∧
      both.2 = second.2.map (.further front.utf8ByteSize) ∧
      (second.1.pen.start ≠ none → both.1.pen = second.1.pen) := by
  have move : ("\n M3 3S4 4 5 5 1e".toList.dropWhile isSpace).head? = some 'M' := by decide +kernel
  have ends : ((begin .empty : Sketch Float).drawPath ⟨.identity, .standard⟩
      "M1 2C0 1 1 1 1 0 7,8 ,").value.2 = none := by decide +kernel
  exact ⟨move, ends, drawPath_append _ _ _ _ move ends⟩

end Sketch

end Svg

end Toolpath
