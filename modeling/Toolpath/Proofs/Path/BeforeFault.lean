import Toolpath.Proofs.Decimal.Longest
import Toolpath.Proofs.Path.Script

/-!
# Path data before a fault

Path data are drawn up to a fault. The fault has a character to blame: one that is no instruction,
or the letter of a command whose first group cannot be read. What stands before that character is
path data without a fault, and drawing it draws the same (`Sketch.drawPath_before_fault`).

Numbers and separators are read as far as they go, so it has to be seen that nothing before the
character was read differently because of what stands from there on. Each reader is followed
through: where it leaves `back` over, it has read the characters before `back` as it reads them
alone.
-/

namespace Toolpath

namespace Text.Cursor

lemma bytes_append (front back : List Char) : bytes (front ++ back) = bytes front + bytes back := by
  simp [bytes]

/-- The bytes of a text are those of its characters. -/
lemma utf8ByteSize_ofList (cs : List Char) : (String.ofList cs).utf8ByteSize = bytes cs := by
  rw [String.utf8ByteSize_ofList]
  induction cs with
  | nil => rfl
  | cons c cs ih => rw [String.utf8Len_cons, ih, bytes_cons, Nat.add_comm]

/-- What stands behind a character stands at a greater offset. -/
lemma offset_before_lt {text rest after : List Char} {letter : Char}
    (part : letter :: after <:+ text) (later : rest <:+ after) :
    (before text (letter :: after)).offset < (before text rest).offset := by
  have whole := bytes_le_of_suffix part
  have less := bytes_le_of_suffix later
  have positive := letter.utf8Size_pos
  rw [bytes_cons] at whole
  rw [before, before, bytes_cons]
  dsimp only
  omega

end Text.Cursor

namespace Svg

open Text (Cursor isSpace)

variable {α : Type} [Scalar α] {front back rest : List Char}

/-! ### Readers that leave something over -/

lemma dropWhile_front {p : Char → Bool} (left : (front ++ back).dropWhile p = rest ++ back) :
    front.dropWhile p = rest := by
  rw [List.dropWhile_append] at left
  split at left
  case isTrue all =>
    have shorter := (List.dropWhile_suffix p (l := back)).length_le
    rw [left, List.length_append] at shorter
    rw [List.isEmpty_iff.1 all, eq_comm, ← List.length_eq_zero_iff]
    omega
  case isFalse => exact List.append_cancel_right left

lemma number?_front {x : α} (read : number? (front ++ back) = some (x, rest ++ back)) :
    number? front = some (x, rest) := by
  obtain ⟨d, numeral, found⟩ := Option.map_eq_some_iff.1 read
  obtain ⟨rfl, left⟩ := Prod.mk.inj found
  have within : Decimal.numeralLength (front ++ back) ≤ front.length := by
    have size := Decimal.numeralLength_le (front ++ back)
    have length := congrArg List.length left
    rw [List.length_drop, List.length_append, List.length_append] at length
    rw [List.length_append] at size
    omega
  rw [List.drop_append_of_le_length within] at left
  rw [List.take_append_of_le_length within] at numeral
  rw [number?, Decimal.counted_numeralLength front back within, numeral,
    List.append_cancel_right left]
  rfl

lemma number?_front_eq_none (read : (number? (front ++ back) : Option (α × _)) = none) :
    (number? front : Option (α × _)) = none := by
  have none : Decimal.numeralLength (front ++ back) = 0 := by
    by_contra counted
    obtain ⟨d, numeral⟩ := Decimal.exists_ofChars?_take counted
    rw [number?, numeral] at read
    cases read
  have none' : Decimal.numeralLength front = 0 := by
    rw [Decimal.counted_numeralLength front back (by omega), none]
  rw [number?, none', List.take_zero, Decimal.ofChars?_nil]
  rfl

lemma passSeparator_eq (cs : List Char) :
    passSeparator cs =
      if (cs.dropWhile isSpace).head? = some ',' then (cs.dropWhile isSpace).tail.dropWhile isSpace
      else cs.dropWhile isSpace := by
  rw [passSeparator]
  split
  next rest ahead => rw [ahead, List.head?_cons, if_pos rfl, List.tail_cons]
  next noComma =>
    rw [if_neg]
    intro comma
    obtain ⟨rest, ahead⟩ := List.head?_eq_some_iff.1 comma
    exact noComma rest ahead

lemma passSeparator_front (left : passSeparator (front ++ back) = rest ++ back) :
    passSeparator front = rest := by
  rw [passSeparator_eq] at left ⊢
  -- The spaces before a comma end before `back`.
  obtain ⟨middle, spaces⟩ : back <:+ (front ++ back).dropWhile isSpace := by
    refine (List.suffix_append rest back).trans ?_
    rw [← left]
    split
    · exact (List.dropWhile_suffix _).trans (List.tail_suffix _)
    · exact List.suffix_rfl
  rw [← spaces] at left
  rw [dropWhile_front spaces.symm]
  cases middle with
  | nil =>
    rw [if_neg (by simp)]
    rw [List.nil_append] at left
    split at left
    case isTrue comma =>
      obtain ⟨behind, rfl⟩ := List.head?_eq_some_iff.1 comma
      have shorter := (List.dropWhile_suffix isSpace (l := behind)).length_le
      rw [List.tail_cons] at left
      rw [left, List.length_append, List.length_cons] at shorter
      omega
    case isFalse => exact List.append_cancel_right left
  | cons c middle =>
    rw [List.cons_append, List.head?_cons, List.tail_cons] at left
    rw [List.head?_cons, List.tail_cons]
    split at left
    case isTrue comma =>
      rw [if_pos comma]
      exact dropWhile_front left
    case isFalse noComma =>
      rw [if_neg noComma]
      exact List.append_cancel_right left

lemma numbers_front {n : ℕ} {xs : Option (List α)}
    (read : numbers n (front ++ back) = (xs, rest ++ back)) : numbers n front = (xs, rest) := by
  induction n generalizing front xs rest with
  | zero =>
    obtain ⟨rfl, left⟩ := Prod.mk.inj read
    rw [numbers, List.append_cancel_right left]
  | succ n ih =>
    rw [numbers] at read ⊢
    cases first : (number? (front ++ back) : Option (α × List Char)) with
    | none =>
      rw [first] at read
      obtain ⟨rfl, left⟩ := Prod.mk.inj read
      rw [number?_front_eq_none first, List.append_cancel_right left]
    | some found =>
      obtain ⟨x, behind⟩ := found
      rw [first] at read
      obtain ⟨rfl, left⟩ := Prod.mk.inj read
      have others := numbers_suffix (α := α) n (if n = 0 then behind else passSeparator behind)
      obtain ⟨start, same⟩ := (List.suffix_append rest back).trans (left ▸ others)
      have toStart : (if n = 0 then behind else passSeparator behind) <:+ behind := by
        split
        · exact List.suffix_rfl
        · exact passSeparator_suffix behind
      obtain ⟨middle, rfl⟩ := (List.suffix_append start back).trans (same ▸ toStart)
      have separated : (if n = 0 then middle else passSeparator middle) = start := by
        split at same
        case isTrue last => rw [if_pos last, List.append_cancel_right same]
        case isFalse more => rw [if_neg more, passSeparator_front same.symm]
      rw [number?_front first]
      dsimp only
      rw [separated, ← same]
      rw [← same] at left
      have alone := ih (Prod.ext rfl left)
      rw [alone]

lemma suffix_of_readGroup {command : Command} {stroke : Option (Stroke α)} {cs : List Char}
    (read : readGroup command cs = (stroke, rest)) : rest <:+ cs := by
  have behind := readGroup_suffix (α := α) command cs
  rwa [read] at behind

lemma readGroup_front (command : Command) {stroke : Option (Stroke α)}
    (read : readGroup command (front ++ back) = (stroke, rest ++ back)) :
    readGroup command front = (stroke, rest) := by
  obtain ⟨rfl, left⟩ := Prod.mk.inj read
  rw [readGroup, numbers_front (Prod.ext rfl left)]

lemma readGroups_front (command : Command) {strokes : List (Stroke α)}
    (read : readGroups command (front ++ back) = (strokes, rest ++ back)) :
    readGroups command front = (strokes, rest) := by
  generalize whole : front ++ back = cs at read
  fun_induction readGroups (α := α) command cs generalizing front rest strokes with
  | case1 cs left first =>
    obtain ⟨rfl, rfl⟩ := Prod.mk.inj read
    obtain ⟨start, separated⟩ :=
      (List.suffix_append rest back).trans (suffix_of_readGroup first)
    rw [← separated] at first
    subst whole
    rw [readGroups_eq, passSeparator_front separated.symm, readGroup_front command first]
  | case2 cs stroke left first others =>
    rename_i ih
    obtain ⟨rfl, ends⟩ := Prod.mk.inj read
    have further := readGroups_suffix (α := α) command left
    rw [ends] at further
    obtain ⟨middle, rfl⟩ := (List.suffix_append rest back).trans further
    obtain ⟨start, separated⟩ :=
      (List.suffix_append middle back).trans (suffix_of_readGroup first)
    rw [← separated] at first
    subst whole
    rw [readGroups_eq, passSeparator_front separated.symm, readGroup_front command first]
    dsimp only
    rw [ih rfl (Prod.ext rfl ends)]

/-! ### What a fault is blamed on -/

/-- A fault is blamed on the character at a place: on one that is no instruction, which it names, or
on the letter of a command whose first group lacks a number further on. -/
inductive Blamed : Cursor → Fault α → Prop
  | unknown {place : Cursor} {letter : Char} {behind : List Char} :
    place.rest = letter :: behind →
    Instruction.ofChar? letter = none →
    Blamed place (.command letter place.offset)
  | group {place stop : Cursor} {letter : Char} {behind : List Char} {command : Command}
      {relative : Bool} {missing : NumberFault} :
    place.rest = letter :: behind →
    Instruction.ofChar? letter = some (.draw command relative) →
    (group command : PathReader (Stroke α)).at ((place.advance 1).skipWhile isSpace) =
      (.error missing, stop) →
    place.offset < missing.offset →
    Blamed place (.number missing)

namespace Script

variable {text cs : List Char}

/-- Spaces alone ask for nothing. -/
lemma read_spaces (spaces : front.dropWhile isSpace = []) :
    (read text front : Script α) = ⟨[], none⟩ := by
  rw [read_eq, spaces]

/-- Where reading a script ends with a fault, the character to blame parts what is ahead, and what
stands before it reads as the same strokes without a fault, in whatever text. -/
lemma read_before_fault {fault : Fault α} (part : cs <:+ text)
    (failed : (read text cs).fault = some fault) :
    ∃ front back, front ++ back = cs ∧ Blamed (.before text back) fault ∧
      ∀ text', read text' front = ⟨(read text cs : Script α).strokes, none⟩ := by
  fun_induction read (α := α) text cs with
  | case1 cs ended => cases failed
  | case2 cs letter after start isClose ih =>
    obtain ⟨middle, back, rfl, blamed, alone⟩ := ih (letter_suffix start part) failed
    have toLetter : letter :: (middle ++ back) <:+ cs := start ▸ List.dropWhile_suffix isSpace
    obtain ⟨front, rfl⟩ := (List.suffix_append (letter :: middle) back).trans toLetter
    have ahead : front.dropWhile isSpace = letter :: middle := dropWhile_front start
    refine ⟨front, back, rfl, blamed, fun text' => ?_⟩
    rw [read_eq, ahead]
    dsimp only
    rw [if_pos isClose, alone]
    rfl
  | case3 cs letter after start notClose unknown =>
    obtain rfl := Option.some.inj failed
    obtain ⟨spaces, rfl⟩ : letter :: after <:+ cs := start ▸ List.dropWhile_suffix isSpace
    refine ⟨spaces, letter :: after, rfl, .unknown rfl ?_, fun _ => ?_⟩
    · rw [instruction_eq, if_neg notClose, unknown]
      rfl
    · exact read_spaces (dropWhile_front start)
  | case4 cs letter after start notClose command known rest first =>
    obtain rfl := Option.some.inj failed
    obtain ⟨spaces, rfl⟩ : letter :: after <:+ cs := start ▸ List.dropWhile_suffix isSpace
    have toLetter := (List.suffix_append spaces (letter :: after)).trans part
    have toAfter := letter_suffix start part
    have toGroup := List.dropWhile_suffix isSpace (l := after)
    have toMissing := suffix_of_readGroup first
    have isCommand : Instruction.ofChar? letter = some (.draw command letter.isLower) := by
      rw [instruction_eq, if_neg notClose, known]
      rfl
    have fails : (group command : PathReader (Stroke α)).at
        (((Cursor.before text (letter :: after)).advance 1).skipWhile isSpace) =
          (.error (missingNumber text rest), .before text rest) := by
      rw [Cursor.advance_before toLetter, List.drop_succ_cons, List.drop_zero,
        Cursor.skipWhile_before toAfter, at_group command (toGroup.trans toAfter), first]
    have further := Cursor.offset_before_lt toLetter (toMissing.trans toGroup)
    refine ⟨spaces, letter :: after, rfl, .group rfl isCommand fails further, fun _ => ?_⟩
    exact read_spaces (dropWhile_front start)
  | case5 cs letter after start notClose command known stroke rest first others ih =>
    have toLetter : letter :: after <:+ cs := start ▸ List.dropWhile_suffix isSpace
    have toAfter := letter_suffix start part
    have toGroup := List.dropWhile_suffix isSpace (l := after)
    have toRest := suffix_of_readGroup first
    have toOthers := readGroups_suffix (α := α) command.repeated rest
    obtain ⟨middle, back, ends, blamed, alone⟩ :=
      ih (toOthers.trans (toRest.trans (toGroup.trans toAfter))) failed
    -- `back` ends all that was ahead, at each place that was reached.
    rw [← ends] at toOthers
    obtain ⟨left, rfl⟩ := (List.suffix_append middle back).trans toOthers
    obtain ⟨group, grouped⟩ := (List.suffix_append left back).trans toRest
    rw [← grouped] at toGroup first
    obtain ⟨further, rfl⟩ := (List.suffix_append group back).trans toGroup
    obtain ⟨front, rfl⟩ := (List.suffix_append (letter :: further) back).trans toLetter
    have ahead : front.dropWhile isSpace = letter :: further := dropWhile_front start
    have groups : readGroups command.repeated left = (others.1, middle) :=
      readGroups_front command.repeated (Prod.ext rfl ends.symm)
    refine ⟨front, back, rfl, blamed, fun text' => ?_⟩
    rw [read_eq, ahead]
    dsimp only
    rw [if_neg notClose, known]
    dsimp only
    rw [dropWhile_front grouped.symm, readGroup_front command first]
    dsimp only
    rw [groups, alone]
    rfl

lemma snd_outcome (f : Frame α) (script : Script α) (s : Sketch α) :
    (script.outcome f s).2 = script.fault := by
  obtain ⟨strokes, fault⟩ := script
  cases fault <;> rfl

end Script

/-- Where drawing path data ends with a fault, the data are parted before the character to blame:
drawing what stands before it ends without a fault and comes to all that had been drawn, with the
pen laid down. -/
theorem Sketch.drawPath_before_fault (f : Frame α) (data : String) (s : Sketch α) {fault : Fault α}
    (failed : (s.drawPath f data).value.2 = some fault) :
    ∃ front back : String, data = front ++ back ∧
      Blamed ⟨front.utf8ByteSize, back.toList⟩ fault ∧
      (s.drawPath f front).value.2 = none ∧
      (s.drawPath f front).value.1.pen = (s.drawPath f data).value.1.pen ∧
      (s.drawPath f front).value.1.drawing.polylines =
        (s.drawPath f data).value.1.drawing.polylines := by
  rw [drawPath_eq_script] at failed ⊢
  rw [Script.snd_outcome] at failed
  obtain ⟨front, back, whole, blamed, alone⟩ := Script.read_before_fault List.suffix_rfl failed
  have place : Cursor.before data.toList back = ⟨(String.ofList front).utf8ByteSize, back⟩ := by
    rw [Cursor.utf8ByteSize_ofList, Cursor.before, ← whole, Cursor.bytes_append, Nat.add_sub_cancel]
  refine ⟨.ofList front, .ofList back, ?_, ?_, ?_⟩
  · rw [← String.ofList_append, whole, String.ofList_toList]
  · rw [String.toList_ofList, ← place]
    exact blamed
  · rw [drawPath_eq_script, String.toList_ofList, alone, Script.outcome, Script.outcome, failed]
    exact ⟨rfl, rfl, Drawing.polylines_endLine _⟩

/-- The second group of a curve breaks off at an exponent without digits. The letter of the exponent
is to blame, and the number before it was read without it. -/
theorem Sketch.drawPath_before_fault_of_exponent :
    let f : Frame Float := ⟨.identity, .standard⟩
    let s : Sketch Float := .begin .empty
    let data := "M1 2C0 1,1 1,1 0 3,.5e+L"
    (s.drawPath f data).value.2 = some (.command 'e' 21) ∧
    ∃ front back : String, data = front ++ back ∧
      Blamed (α := Float) ⟨front.utf8ByteSize, back.toList⟩ (.command 'e' 21) ∧
      (s.drawPath f front).value.2 = none ∧
      (s.drawPath f front).value.1.pen = (s.drawPath f data).value.1.pen ∧
      (s.drawPath f front).value.1.drawing.polylines =
        (s.drawPath f data).value.1.drawing.polylines := by
  have failed : ((Sketch.begin .empty : Sketch Float).drawPath ⟨.identity, .standard⟩
      "M1 2C0 1,1 1,1 0 3,.5e+L").value.2 = some (.command 'e' 21) := by decide +kernel
  exact ⟨failed, drawPath_before_fault _ _ _ failed⟩

end Svg

end Toolpath
