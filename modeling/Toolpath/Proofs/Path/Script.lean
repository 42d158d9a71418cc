import Toolpath.Proofs.Path.Cases

/-!
# Reading path data apart from drawing

Path data can be read without a pen. `Script.read` takes a text apart into the strokes it asks for,
up to the first fault; `Script.draw` then draws them one after another, relative ones from where the
pen is by then. Drawing path data as they are read comes to the same (`Sketch.drawPath_eq_script`).

The script is read from the characters ahead alone. A cursor also counts the bytes behind it:
`Cursor.before` is the cursor at a place of a text that is given by what is ahead there, and each
reader is followed from one such place to another.
-/

namespace Toolpath

namespace Text.Cursor

/-- How many bytes characters take. -/
def bytes (cs : List Char) : ℕ := (cs.map Char.utf8Size).sum

/-- The place of a text before a part at its end. -/
def before (text rest : List Char) : Cursor := ⟨bytes text - bytes rest, rest⟩

@[simp] lemma rest_before (text rest : List Char) : (before text rest).rest = rest :=
  rfl

lemma ofChars_eq_before (text : List Char) : ofChars text = before text text := by
  simp [ofChars, before]

lemma bytes_cons (c : Char) (cs : List Char) : bytes (c :: cs) = c.utf8Size + bytes cs := by
  simp [bytes]

lemma bytes_le_of_suffix {cs text : List Char} (part : cs <:+ text) : bytes cs ≤ bytes text := by
  obtain ⟨front, rfl⟩ := part
  simp [bytes]

/-- A cursor stays in its text as it moves. -/
lemma advance_before {cs text : List Char} (part : cs <:+ text) (n : ℕ) :
    (before text cs).advance n = before text (cs.drop n) := by
  induction n generalizing cs with
  | zero => simp [advance]
  | succ n ih =>
    cases cs with
    | nil => simp [advance, before]
    | cons c cs =>
      have inside := bytes_le_of_suffix part
      have part' : cs <:+ text := (List.suffix_cons c cs).trans part
      have moved : Cursor.mk (bytes text - bytes (c :: cs) + c.utf8Size) cs = before text cs := by
        rw [before]
        congr 1
        rw [bytes_cons] at inside ⊢
        omega
      rw [before, advance, moved, ih part', List.drop_succ_cons]

lemma skipWhile_before {cs text : List Char} (part : cs <:+ text) (p : Char → Bool) :
    (before text cs).skipWhile p = before text (cs.dropWhile p) := by
  have behind := rest_skipWhile p (before text cs)
  rw [skipWhile, advance_before part, rest_before, rest_before] at behind
  rw [skipWhile, advance_before part, rest_before, behind]

end Text.Cursor

namespace Svg

open Text (Cursor isSpace)

variable {α : Type} [Scalar α]

/-! ### Numbers and groups -/

/-- The longest numeral at the front as a number, and what follows it. -/
def number? (cs : List Char) : Option (α × List Char) :=
  let length := Decimal.numeralLength cs
  (Decimal.ofChars? (cs.take length)).map fun d => (Scalar.ofDecimal d, cs.drop length)

/-- What follows spaces, a comma if there is one, and spaces again. -/
def passSeparator (cs : List Char) : List Char :=
  match cs.dropWhile isSpace with
  | ',' :: cs => cs.dropWhile isSpace
  | cs => cs

/-- As many numbers with separators between them, and what follows; or none, and what stands where
one is missing. -/
def numbers : ℕ → List Char → Option (List α) × List Char
  | 0, cs => (some [], cs)
  | n + 1, cs =>
    match number? cs with
    | none => (none, cs)
    | some (x, rest) =>
      -- Behind the last number no separator is passed.
      let others := numbers n (if n = 0 then rest else passSeparator rest)
      (others.1.map (x :: ·), others.2)

/-- How many numbers a group of a command has. -/
def Command.size : Command → ℕ
  | .move => 2
  | .line => 2
  | .horizontal => 1
  | .vertical => 1
  | .curve => 6
  | .smooth => 4

/-- The stroke of the numbers of a group. -/
def Command.stroke? : Command → List α → Option (Stroke α)
  | .move, [x, y] => some (.move ⟨x, y⟩)
  | .line, [x, y] => some (.line ⟨x, y⟩)
  | .horizontal, [x] => some (.horizontal x)
  | .vertical, [y] => some (.vertical y)
  | .curve, [x₁, y₁, x₂, y₂, x, y] => some (.curve ⟨x₁, y₁⟩ ⟨x₂, y₂⟩ ⟨x, y⟩)
  | .smooth, [x₂, y₂, x, y] => some (.smooth ⟨x₂, y₂⟩ ⟨x, y⟩)
  | _, _ => none

/-- The group of a command at the front, and what follows it; or none, and what stands where a
number is missing. -/
def readGroup (command : Command) (cs : List Char) : Option (Stroke α) × List Char :=
  let read := numbers command.size cs
  (read.1.bind command.stroke?, read.2)

/-! ### Nothing is read twice -/

lemma number?_suffix {cs rest : List Char} {x : α} (read : number? cs = some (x, rest)) :
    rest <:+ cs ∧ rest.length < cs.length := by
  obtain ⟨d, numeral, found⟩ := Option.map_eq_some_iff.1 read
  obtain rfl : cs.drop (Decimal.numeralLength cs) = rest := (Prod.mk.inj found).2
  refine ⟨List.drop_suffix _ _, ?_⟩
  have taken : cs.take (Decimal.numeralLength cs) ≠ [] := by
    intro empty
    rw [empty, Decimal.ofChars?_nil] at numeral
    cases numeral
  have positive := List.length_pos_iff.2 taken
  rw [List.length_take] at positive
  rw [List.length_drop]
  omega

lemma passSeparator_suffix (cs : List Char) : passSeparator cs <:+ cs := by
  unfold passSeparator
  split
  next cs' comma =>
    have behind : cs' <:+ cs := (List.suffix_cons _ _).trans (comma ▸ List.dropWhile_suffix _)
    exact (List.dropWhile_suffix _).trans behind
  next => exact List.dropWhile_suffix _

lemma numbers_suffix (n : ℕ) (cs : List Char) : (numbers n cs : Option (List α) × _).2 <:+ cs := by
  induction n generalizing cs with
  | zero => exact List.suffix_refl cs
  | succ n ih =>
    rw [numbers]
    cases read : (number? cs : Option (α × List Char)) with
    | none => exact List.suffix_refl cs
    | some found =>
      have behind := (number?_suffix read).1
      refine (ih _).trans ?_
      split
      · exact behind
      · exact (passSeparator_suffix _).trans behind

lemma readGroup_suffix (command : Command) (cs : List Char) :
    (readGroup command cs : Option (Stroke α) × _).2 <:+ cs :=
  numbers_suffix _ cs

/-- A group that is read takes something away. -/
lemma length_readGroup_lt {command : Command} {cs rest : List Char} {stroke : Stroke α}
    (read : readGroup command cs = (some stroke, rest)) : rest.length < cs.length := by
  have some : 0 < command.size := by cases command <;> decide
  obtain ⟨n, size⟩ := Nat.exists_eq_succ_of_ne_zero some.ne'
  rw [readGroup, size, numbers] at read
  cases first : (number? cs : Option (α × List Char)) with
  | none =>
    rw [first] at read
    cases read
  | some found =>
    rw [first] at read
    obtain rfl := (Prod.mk.inj read).2
    refine Nat.lt_of_le_of_lt (List.IsSuffix.length_le ?_) (number?_suffix first).2
    refine (numbers_suffix (α := α) n _).trans ?_
    split
    · exact List.suffix_refl _
    · exact passSeparator_suffix _

/-- The groups that follow the first one, as many as can be read, and what follows them. What was
read of a group that breaks off is passed over. -/
def readGroups (command : Command) (cs : List Char) : List (Stroke α) × List Char :=
  match _read : (readGroup command (passSeparator cs) : Option (Stroke α) × List Char) with
  | (none, rest) => ([], rest)
  | (some stroke, rest) =>
    let others := readGroups command rest
    (stroke :: others.1, others.2)
termination_by cs.length
decreasing_by
  exact Nat.lt_of_lt_of_le (length_readGroup_lt _read) (passSeparator_suffix cs).length_le

/-- The groups without memory of what was read. -/
lemma readGroups_eq (command : Command) (cs : List Char) :
    (readGroups command cs : List (Stroke α) × _) =
      match (readGroup command (passSeparator cs) : Option (Stroke α) × List Char) with
      | (none, rest) => ([], rest)
      | (some stroke, rest) =>
        let others : List (Stroke α) × List Char := readGroups command rest
        (stroke :: others.1, others.2) := by
  rw [readGroups]
  cases read : (readGroup command (passSeparator cs) : Option (Stroke α) × List Char) with
  | mk found rest => cases found <;> rfl

lemma readGroups_suffix (command : Command) (cs : List Char) :
    (readGroups command cs : List (Stroke α) × _).2 <:+ cs := by
  fun_induction readGroups (α := α) command cs with
  | case1 cs rest read =>
    have behind := readGroup_suffix (α := α) command (passSeparator cs)
    rw [read] at behind
    exact behind.trans (passSeparator_suffix cs)
  | case2 cs stroke rest read others ih =>
    have behind := readGroup_suffix (α := α) command (passSeparator cs)
    rw [read] at behind
    exact (ih.trans behind).trans (passSeparator_suffix cs)

/-! ### Scripts -/

/-- The command of a capital letter. -/
def Command.ofCapital? : Char → Option Command
  | 'M' => some .move
  | 'L' => some .line
  | 'H' => some .horizontal
  | 'V' => some .vertical
  | 'C' => some .curve
  | 'S' => some .smooth
  | _ => none

/-- A number is missing in a text before what is ahead. -/
def missingNumber (text ahead : List Char) : NumberFault :=
  ⟨(Cursor.before text ahead).offset, String.ofList (excerpt 12 ahead)⟩

/-- What path data ask for: strokes, each relative to the current point or not, up to a fault if
there is one. -/
structure Script (α : Type) where
  strokes : List (Bool × Stroke α)
  fault : Option (Fault α)
deriving DecidableEq, Repr

namespace Script

/-- Strokes before the others. -/
def behind (relative : Bool) (strokes : List (Stroke α)) (script : Script α) : Script α :=
  { script with strokes := strokes.map (relative, ·) ++ script.strokes }

/-- Reads what is ahead in a text. A letter is taken behind spaces. A close has no group; another
command has one group behind spaces, and then as many as can be read. -/
def read (text ahead : List Char) : Script α :=
  match _start : ahead.dropWhile isSpace with
  | [] => ⟨[], none⟩
  | letter :: after =>
    if letter.toUpper = 'Z' then (read text after).behind letter.isLower [.close]
    else
      match Command.ofCapital? letter.toUpper with
      | none => ⟨[], some (.command letter (Cursor.before text (letter :: after)).offset)⟩
      | some command =>
        match _first : (readGroup command (after.dropWhile isSpace) : Option (Stroke α) × _) with
        | (none, rest) => ⟨[], some (.number (missingNumber text rest))⟩
        | (some stroke, rest) =>
          -- A move goes on with lines.
          let others : List (Stroke α) × List Char := readGroups command.repeated rest
          (read text others.2).behind letter.isLower (stroke :: others.1)
termination_by ahead.length
decreasing_by
  all_goals
    have toLetter := (List.dropWhile_suffix isSpace (l := ahead)).length_le
    rw [_start, List.length_cons] at toLetter
  · omega
  · have toGroup := (List.dropWhile_suffix isSpace (l := after)).length_le
    have toOthers := (readGroups_suffix (α := α) command.repeated rest).length_le
    have := length_readGroup_lt _first
    omega

/-- A script without memory of what was read. -/
lemma read_eq (text ahead : List Char) :
    (read text ahead : Script α) =
      match ahead.dropWhile isSpace with
      | [] => ⟨[], none⟩
      | letter :: after =>
        if letter.toUpper = 'Z' then (read text after).behind letter.isLower [.close]
        else
          match Command.ofCapital? letter.toUpper with
          | none => ⟨[], some (.command letter (Cursor.before text (letter :: after)).offset)⟩
          | some command =>
            match (readGroup command (after.dropWhile isSpace) : Option (Stroke α) × _) with
            | (none, rest) => ⟨[], some (.number (missingNumber text rest))⟩
            | (some stroke, rest) =>
              let others : List (Stroke α) × List Char := readGroups command.repeated rest
              (read text others.2).behind letter.isLower (stroke :: others.1) := by
  rw [read]
  cases ahead.dropWhile isSpace with
  | nil => rfl
  | cons letter after =>
    dsimp only
    split
    case isTrue => rfl
    case isFalse =>
      cases Command.ofCapital? letter.toUpper with
      | none => rfl
      | some command =>
        dsimp only
        cases read : (readGroup command (after.dropWhile isSpace) : Option (Stroke α) × _) with
        | mk found rest => cases found <;> rfl

/-- Draws the strokes in order, each seen from where the pen is by then. -/
def draw (f : Frame α) (script : Script α) (s : Sketch α) : Sketch α :=
  script.strokes.foldl (fun s (relative, stroke) => (s.draw f (stroke.resolve relative s.pen)).value) s

/-- What drawing a script comes to: the pen is laid down behind the last stroke, but not where a
fault is. -/
def outcome (f : Frame α) (script : Script α) (s : Sketch α) : Sketch α × Option (Fault α) :=
  let drawn := script.draw f s
  match script.fault with
  | none => ({ drawn with drawing := drawn.finish }, none)
  | some fault => (drawn, some fault)

end Script

/-! ### Readers at a place of a text -/

variable {text cs : List Char}

lemma at_pathNumber (part : cs <:+ text) :
    (pathNumber : PathReader α).at (.before text cs) =
      match number? cs with
      | none => (.error (missingNumber text cs), .before text cs)
      | some (x, rest) => (.ok x, .before text rest) := by
  simp only [PathReader.at, pathNumber, number?, Cursor.rest_before, Cursor.advance_before part]
  cases Decimal.ofChars? (cs.take (Decimal.numeralLength cs)) <;> rfl

lemma skipSeparator_before (part : cs <:+ text) :
    skipSeparator (.before text cs) = .before text (passSeparator cs) := by
  have spaces := (List.dropWhile_suffix isSpace (l := cs)).trans part
  rw [skipSeparator, Cursor.skipWhile_before part, passSeparator]
  cases ahead : cs.dropWhile isSpace with
  | nil => rfl
  | cons c rest =>
    rw [ahead] at spaces
    by_cases comma : c = ','
    case pos =>
      subst comma
      have behind : rest <:+ text := (List.suffix_cons _ _).trans spaces
      simp only [Cursor.rest_before, List.head?_cons, if_pos, Cursor.advance_before spaces,
        List.drop_succ_cons, List.drop_zero, Cursor.skipWhile_before behind]
    case neg =>
      simp only [Cursor.rest_before, List.head?_cons, Option.some.injEq, if_neg comma]
      split
      next same => exact absurd (List.cons.inj same).1 comma
      next => rfl

lemma at_separator (part : cs <:+ text) :
    separator.at (.before text cs) = (.ok (), .before text (passSeparator cs)) :=
  congrArg (Prod.mk _) (skipSeparator_before part)

/-- Numbers one behind another. -/
def PathReader.numbers : ℕ → PathReader (List α)
  | 0 => pure []
  | n + 1 => do
    let x ← pathNumber
    if n ≠ 0 then separator
    let others ← PathReader.numbers n
    pure (x :: others)

/-- A group is as many numbers as it has. -/
lemma group_eq (command : Command) (otherwise : PathReader (Stroke α)) :
    group command =
      PathReader.numbers command.size >>= fun xs => (command.stroke? xs).elim otherwise pure := by
  cases command <;>
    simp [group, pair, PathReader.numbers, Command.size, Command.stroke?]

lemma at_numbers (n : ℕ) (part : cs <:+ text) :
    (PathReader.numbers n : PathReader (List α)).at (.before text cs) =
      match (numbers n cs : Option (List α) × _) with
      | (none, rest) => (.error (missingNumber text rest), .before text rest)
      | (some xs, rest) => (.ok xs, .before text rest) := by
  induction n generalizing cs with
  | zero => rfl
  | succ n ih =>
    rw [PathReader.numbers, numbers, at_bind, at_pathNumber part]
    cases read : (number? cs : Option (α × List Char)) with
    | none => rfl
    | some found =>
      obtain ⟨x, rest⟩ := found
      have behind := (number?_suffix read).1.trans part
      -- Whether a separator is passed decides where the others begin.
      have others (start : List Char) (inside : start <:+ text) :
          (PathReader.numbers n >>= fun others => pure (x :: others) : PathReader (List α)).at
              (.before text start) =
            match ((numbers n start).1.map (x :: ·), (numbers n start : Option (List α) × _).2) with
            | (none, rest) => (.error (missingNumber text rest), .before text rest)
            | (some xs, rest) => (.ok xs, .before text rest) := by
        rw [at_bind, ih inside]
        obtain ⟨xs, rest⟩ := (numbers n start : Option (List α) × _)
        cases xs <;> rfl
      dsimp only
      by_cases last : n = 0
      case pos =>
        subst last
        simpa using others rest behind
      case neg =>
        have separated := others (passSeparator rest) ((passSeparator_suffix rest).trans behind)
        rw [if_neg last, ← separated, if_pos last, at_bind, at_separator behind]

/-- A group is read at a place of a text as it is read from what is ahead there. -/
lemma at_group (command : Command) (part : cs <:+ text) :
    (group command : PathReader (Stroke α)).at (.before text cs) =
      match (readGroup command cs : Option (Stroke α) × _) with
      | (none, rest) => (.error (missingNumber text rest), .before text rest)
      | (some stroke, rest) => (.ok stroke, .before text rest) := by
  -- A group of another size would be one with a number missing, but there is none.
  rw [group_eq command fun c => (.error (missingNumber text c.rest), c), at_bind,
    at_numbers _ part, readGroup]
  obtain ⟨xs, rest⟩ := (numbers command.size cs : Option (List α) × _)
  cases xs with
  | none => rfl
  | some xs =>
    dsimp only [Option.bind_some]
    cases command.stroke? xs <;> rfl

/-! ### Letters -/

/-- The instruction of a small letter is found by its capital, and is relative. -/
lemma instruction_of_lower {letter : Char} (small : letter.isLower = true) :
    Instruction.ofChar? letter =
      if letter.toUpper = 'Z' then some .close
      else (Command.ofCapital? letter.toUpper).map (.draw · true) := by
  have range : letter.toNat ∈ Finset.Icc 97 122 := by
    simpa [Char.isLower, UInt32.le_iff_toNat_le] using small
  rw [← Char.ofNat_toNat letter]
  generalize letter.toNat = n at range
  fin_cases range <;> rfl

/-- Of the other characters some capitals are instructions. -/
lemma instruction_of_not_lower {letter : Char} (other : letter.isLower = false) :
    Instruction.ofChar? letter =
      if letter = 'Z' then some .close
      else (Command.ofCapital? letter).map (.draw · false) := by
  unfold Instruction.ofChar?
  split
  case h_15 =>
    have noCommand : Command.ofCapital? letter = none := by
      unfold Command.ofCapital?
      split <;> simp_all
    have noClose : letter ≠ 'Z' := by
      rintro rfl
      simp_all
    rw [if_neg noClose, noCommand]
    rfl
  all_goals first | rfl | cases other

lemma instruction_eq (letter : Char) :
    Instruction.ofChar? letter =
      if letter.toUpper = 'Z' then some .close
      else (Command.ofCapital? letter.toUpper).map (.draw · letter.isLower) := by
  cases lower : letter.isLower with
  | true => exact instruction_of_lower lower
  | false =>
    rw [Char.toUpper_eq_of_not_isLower (by simp [lower])]
    exact instruction_of_not_lower lower

/-! ### Reading and drawing in one go -/

/-- Draws strokes in order, each seen from where the pen is by then. -/
def Sketch.drawEach (f : Frame α) (relative : Bool) (strokes : List (Stroke α)) (s : Sketch α) :
    Sketch α :=
  strokes.foldl (fun s stroke => (s.draw f (stroke.resolve relative s.pen)).value) s

lemma Script.draw_behind (f : Frame α) (relative : Bool) (strokes : List (Stroke α))
    (script : Script α) (s : Sketch α) :
    (script.behind relative strokes).draw f s = script.draw f (s.drawEach f relative strokes) := by
  simp [Script.draw, Script.behind, Sketch.drawEach, List.foldl_map]

lemma readGroup_nil (command : Command) :
    (readGroup command [] : Option (Stroke α) × _) = (none, []) := by
  cases command <;> rfl

/-- The groups behind the first one are drawn as those that can be read. -/
lemma Sketch.value_drawGroups (f : Frame α) (letter : Char) (command : Command) (relative : Bool)
    (s : Sketch α) (part : cs <:+ text) :
    (s.drawGroups f letter command relative (.before text cs)).value =
      (s.drawEach f relative (readGroups command cs).1,
        .before text (readGroups command cs : List (Stroke α) × _).2) := by
  fun_induction readGroups (α := α) command cs generalizing s with
  | case1 cs rest read =>
    have start := (passSeparator_suffix cs).trans part
    rw [drawGroups_eq, skipSeparator_before part, at_group command start]
    by_cases ended : passSeparator cs = []
    case pos =>
      rw [ended, readGroup_nil] at read
      obtain rfl : [] = rest := (Prod.mk.inj read).2
      rw [ended]
      rfl
    case neg =>
      rw [if_neg (by simpa [Cursor.atEnd] using ended), read]
      rfl
  | case2 cs stroke rest read others ih =>
    have start := (passSeparator_suffix cs).trans part
    have more : passSeparator cs ≠ [] := by
      intro ended
      rw [ended, readGroup_nil] at read
      cases read
    have behind := readGroup_suffix (α := α) command (passSeparator cs)
    rw [read] at behind
    rw [drawGroups_eq, skipSeparator_before part, at_group command start,
      if_neg (by simpa [Cursor.atEnd] using more), read]
    exact ih _ (behind.trans start)

/-- The next letter is the one behind the spaces. -/
lemma nextLetter_before (part : cs <:+ text) :
    nextLetter (.before text cs) =
      match cs.dropWhile isSpace with
      | [] => none
      | letter :: after =>
        some (letter, (Cursor.before text (letter :: after)).offset, .before text after) := by
  have start := (List.dropWhile_suffix isSpace (l := cs)).trans part
  rw [nextLetter, Cursor.skipWhile_before part]
  cases ahead : cs.dropWhile isSpace with
  | nil => rfl
  | cons letter after =>
    rw [ahead] at start
    simp only [Cursor.rest_before, Cursor.advance_before start, List.drop_succ_cons,
      List.drop_zero]

lemma Script.outcome_behind (f : Frame α) (relative : Bool) (strokes : List (Stroke α))
    (script : Script α) (s : Sketch α) :
    (script.behind relative strokes).outcome f s =
      script.outcome f (s.drawEach f relative strokes) := by
  rw [outcome, outcome, draw_behind]
  rfl

/-- A close is the same seen from anywhere. -/
lemma Sketch.drawEach_close (f : Frame α) (relative : Bool) (s : Sketch α) :
    s.drawEach f relative [.close] = s.close := by
  cases relative <;> rfl

lemma letter_suffix {letter : Char} {after : List Char}
    (start : cs.dropWhile isSpace = letter :: after) (part : cs <:+ text) : after <:+ text :=
  ((List.suffix_cons letter after).trans (start ▸ List.dropWhile_suffix isSpace)).trans part

/-- From any place on, drawing path data while reading them comes to reading them and drawing the
strokes. -/
lemma Sketch.value_drawData (f : Frame α) (s : Sketch α) (part : cs <:+ text) :
    (s.drawData f (.before text cs)).value = (Script.read text cs).outcome f s := by
  fun_induction Script.read (α := α) text cs generalizing s with
  | case1 cs ended =>
    rw [drawData_eq, nextLetter_before part, ended]
    rfl
  | case2 cs letter after start isClose ih =>
    have behind := letter_suffix start part
    rw [drawData_eq, nextLetter_before part, start]
    dsimp only
    rw [instruction_eq, if_pos isClose, Script.outcome_behind, drawEach_close]
    exact ih s.close behind
  | case3 cs letter after start notClose unknown =>
    rw [drawData_eq, nextLetter_before part, start]
    dsimp only
    rw [instruction_eq, if_neg notClose, unknown]
    rfl
  | case4 cs letter after start notClose command known rest first =>
    have behind := letter_suffix start part
    have inside := (List.dropWhile_suffix isSpace (l := after)).trans behind
    rw [drawData_eq, nextLetter_before part, start]
    dsimp only
    rw [instruction_eq, if_neg notClose, known, Cursor.skipWhile_before behind]
    dsimp only [Option.map_some]
    rw [at_group command inside, first]
    rfl
  | case5 cs letter after start notClose command known stroke rest first others ih =>
    have behind := letter_suffix start part
    have inside := (List.dropWhile_suffix isSpace (l := after)).trans behind
    have firstRest := (readGroup_suffix (α := α) command (after.dropWhile isSpace)).trans inside
    rw [first] at firstRest
    have othersRest := (readGroups_suffix (α := α) command.repeated rest).trans firstRest
    rw [drawData_eq, nextLetter_before part, start]
    dsimp only
    rw [instruction_eq, if_neg notClose, known, Cursor.skipWhile_before behind]
    dsimp only [Option.map_some]
    rw [at_group command inside, first, Script.outcome_behind]
    dsimp only
    rw [value_drawGroups f letter command.repeated letter.isLower _ firstRest]
    exact ih _ othersRest

/-- Path data are drawn as they are read: reading them does not depend on the pen, and their strokes
are drawn in order up to the end or a fault. -/
theorem Sketch.drawPath_eq_script (f : Frame α) (data : String) (s : Sketch α) :
    (s.drawPath f data).value = (Script.read data.toList data.toList).outcome f s := by
  rw [drawPath, Cursor.start, Cursor.ofChars_eq_before]
  exact value_drawData f s (List.suffix_refl _)

end Svg

end Toolpath
