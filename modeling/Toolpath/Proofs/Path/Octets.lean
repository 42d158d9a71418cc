import Toolpath.Proofs.Path.BeforeFault
import Toolpath.Proofs.Path.Numbers

/-!
# Path data byte for byte

Path data can be scanned without being taken apart into characters. A place is then a number of
bytes, a test looks at a single byte, and characters are only met where a part of the text is cut
out between two places. Such a cut is refused unless a character begins at both.

`Request.scan` reads path data in this way, with no value at all where a cut is refused. It comes to
what a cursor reads (`Request.exists_read`): spaces, separators and numerals are made of characters
of one byte each, and no byte of another character looks like one of these. So whatever is asked for
in whatever order, no cut is refused and every place reached is one where a character begins
(`Request.scanAll_progress`).
-/

namespace Toolpath

namespace Text

open Cursor (bytes before bytes_append bytes_cons bytes_le_of_suffix)

/-! ### Bytes -/

/-- The bytes of characters, each as the character of its number. -/
def octetsOf (cs : List Char) : List Char := (cs.flatMap String.utf8EncodeChar).map Char.ofUInt8

/-- The bytes of a text. -/
def octets (text : String) : List Char := text.toByteArray.data.toList.map Char.ofUInt8

variable {cs front rest : List Char} {c : Char} {p : Char → Bool}

lemma octets_eq (text : String) : octets text = octetsOf text.toList := by
  rw [octets, octetsOf, ← List.toList_data_toByteArray (l := text.toList.flatMap _)]
  congr 3
  rw [← List.utf8Encode, ← String.toByteArray_ofList, String.ofList_toList]

lemma octetsOf_append (front rest : List Char) :
    octetsOf (front ++ rest) = octetsOf front ++ octetsOf rest := by
  simp [octetsOf]

lemma length_octetsOf (cs : List Char) : (octetsOf cs).length = bytes cs := by
  simp [octetsOf, bytes, List.length_flatMap]

/-- A character of one byte is its byte. -/
lemma octetsOf_cons (single : c.utf8Size = 1) (cs : List Char) :
    octetsOf (c :: cs) = c :: octetsOf cs := by
  have small : c.val.toNat ≤ 127 := UInt32.le_iff_toNat_le.1 (Char.utf8Size_eq_one_iff.1 single)
  have same : Char.ofUInt8 c.val.toUInt8 = c := by
    apply Char.ext
    apply UInt32.toNat.inj
    show c.val.toUInt8.toUInt32.toNat = c.val.toNat
    rw [UInt8.toNat_toUInt32, UInt32.toNat_toUInt8]
    omega
  rw [octetsOf, List.flatMap_cons, String.utf8EncodeChar_eq_singleton single, List.singleton_append,
    List.map_cons, same]
  rfl

lemma utf8Size_ofUInt8 {n : ℕ} (low : 128 ≤ n) (high : n < 256) :
    (Char.ofUInt8 (UInt8.ofNat n)).utf8Size ≠ 1 := by
  intro single
  have small := UInt32.le_iff_toNat_le.1 (Char.utf8Size_eq_one_iff.1 single)
  change (UInt8.ofNat n).toUInt32.toNat ≤ 127 at small
  rw [UInt8.toNat_toUInt32, UInt8.toNat_ofNat'] at small
  omega

/-- The first byte of another character is no character of one byte. -/
lemma exists_octetsOf_cons (several : c.utf8Size ≠ 1) (cs : List Char) :
    ∃ b rest, octetsOf (c :: cs) = b :: rest ∧ b.utf8Size ≠ 1 := by
  have large : ¬ c.val.toNat ≤ 127 := fun small =>
    several (Char.utf8Size_eq_one_iff.2 (UInt32.le_iff_toNat_le.2 small))
  simp only [octetsOf, List.flatMap_cons, String.utf8EncodeChar, if_neg large]
  split
  case isTrue => exact ⟨_, _, rfl, utf8Size_ofUInt8 (by omega) (by omega)⟩
  case isFalse =>
    split
    case isTrue => exact ⟨_, _, rfl, utf8Size_ofUInt8 (by omega) (by omega)⟩
    case isFalse => exact ⟨_, _, rfl, utf8Size_ofUInt8 (by omega) (by omega)⟩

/-- Characters of one byte stand in front of others as they stand in front of their bytes. -/
lemma exists_narrow (cs : List Char) :
    ∃ front rest, cs = front ++ rest ∧ octetsOf cs = front ++ octetsOf rest ∧
      (∀ c ∈ rest.head?, c.utf8Size ≠ 1) ∧ ∀ c ∈ (octetsOf rest).head?, c.utf8Size ≠ 1 := by
  -- `front` ends where neither the next character nor its first byte is of that kind.
  induction cs with
  | nil => exact ⟨[], [], rfl, rfl, by simp, by simp [octetsOf]⟩
  | cons c cs ih =>
    by_cases single : c.utf8Size = 1
    case pos =>
      obtain ⟨front, rest, same, bytes, ends, ends'⟩ := ih
      refine ⟨c :: front, rest, congrArg (c :: ·) same, ?_, ends, ends'⟩
      rw [octetsOf_cons single, bytes, List.cons_append]
    case neg =>
      obtain ⟨b, rest, bytes, several⟩ := exists_octetsOf_cons single cs
      refine ⟨[], c :: cs, rfl, rfl, by simpa using single, ?_⟩
      rw [bytes]
      simpa using several

/-- A class of characters of one byte is passed over byte for byte. -/
lemma takeWhile_octetsOf (narrow : ∀ c, p c = true → c.utf8Size = 1) (cs : List Char) :
    (octetsOf cs).takeWhile p = cs.takeWhile p := by
  obtain ⟨front, rest, rfl, bytes, ends, ends'⟩ := exists_narrow cs
  have stops {back : List Char} (ends : ∀ c ∈ back.head?, c.utf8Size ≠ 1) :
      back.takeWhile p = [] := by
    cases back with
    | nil => rfl
    | cons c back => exact List.takeWhile_cons_of_neg fun inside => ends c rfl (narrow c inside)
  rw [bytes, List.takeWhile_append, List.takeWhile_append, stops ends, stops ends']

lemma head?_octetsOf {k : Char} (single : k.utf8Size = 1) (cs : List Char) :
    (octetsOf cs).head? = some k ↔ cs.head? = some k := by
  obtain ⟨front, rest, rfl, bytes, ends, ends'⟩ := exists_narrow cs
  rw [bytes]
  cases front with
  | nil =>
    exact ⟨fun first => absurd single (ends' k first), fun first => absurd single (ends k first)⟩
  | cons c front => rfl

/-- A numeral is counted byte for byte. -/
lemma numeralLength_octetsOf (cs : List Char) :
    Decimal.numeralLength (octetsOf cs) = Decimal.numeralLength cs := by
  -- A numeral does not reach beyond `front`, whatever stands behind it.
  obtain ⟨front, rest, rfl, bytes, ends, ends'⟩ := exists_narrow cs
  have counted {back : List Char} (ends : ∀ c ∈ back.head?, c.utf8Size ≠ 1) :
      Decimal.numeralLength front = Decimal.numeralLength (front ++ back) := by
    refine Decimal.counted_numeralLength front back (Decimal.numeralLength_append_le front ?_)
    exact fun c first inside => ends c first (Decimal.utf8Size_of_inNumeral inside)
  rw [bytes, ← counted ends, ← counted ends']

lemma bytes_of_utf8Size (single : ∀ c ∈ cs, c.utf8Size = 1) : bytes cs = cs.length := by
  rw [bytes, List.map_congr_left single, List.map_const', List.sum_replicate, smul_eq_mul, mul_one]

/-! ### Cuts -/

/-- The part of a text between two places, refused unless a character begins at both; the end of the
text counts as such a place. -/
def cut? (text : String) (start stop : ℕ) : Option String :=
  if (String.Pos.Raw.mk start).IsValid text ∧ (String.Pos.Raw.mk stop).IsValid text ∧
      start ≤ stop then
    some (String.Pos.Raw.extract text ⟨start⟩ ⟨stop⟩)
  else none

variable {text : String}

lemma utf8Len_eq_bytes (cs : List Char) : String.utf8Len cs = bytes cs := by
  rw [← String.utf8ByteSize_ofList, Cursor.utf8ByteSize_ofList]

/-- A cursor stands where a character begins, and so does the end of the text. -/
lemma isValid_offset (part : cs <:+ text.toList) :
    (String.Pos.Raw.mk (before text.toList cs).offset).IsValid text := by
  obtain ⟨front, whole⟩ := part
  rw [String.Pos.Raw.isValid_iff_exists_append]
  refine ⟨.ofList front, .ofList cs, ?_, ?_⟩
  · rw [← String.ofList_append, whole, String.ofList_toList]
  · rw [before, ← whole, bytes_append, Nat.add_sub_cancel, ← Cursor.utf8ByteSize_ofList]
    rfl

lemma offset_nil (text : String) : (before text.toList []).offset = text.utf8ByteSize := by
  rw [before, ← Cursor.utf8ByteSize_ofList, String.ofList_toList]
  rfl

lemma offset_append (part : front ++ rest <:+ text.toList) :
    (before text.toList rest).offset =
      (before text.toList (front ++ rest)).offset + bytes front := by
  have inside := bytes_le_of_suffix part
  rw [bytes_append] at inside
  simp only [before, bytes_append]
  omega

/-- Between two places of cursors there is what is passed over from one to the other. -/
lemma cut?_offset (part : front ++ rest <:+ text.toList) :
    cut? text (before text.toList (front ++ rest)).offset (before text.toList rest).offset =
      some (.ofList front) := by
  have behind := offset_append part
  have start := isValid_offset part
  have stop := isValid_offset ((List.suffix_append front rest).trans part)
  rw [cut?, if_pos ⟨start, stop, by omega⟩]
  obtain ⟨passed, whole⟩ := part
  have place : (before text.toList (front ++ rest)).offset = bytes passed := by
    rw [before, ← whole, bytes_append, Nat.add_sub_cancel]
  have parts := String.extract_of_valid passed front rest
  rw [utf8Len_eq_bytes, utf8Len_eq_bytes, List.append_assoc, whole, String.ofList_toList] at parts
  rw [behind, place, parts]

end Text

namespace Svg

open Text (Cursor isSpace octets octetsOf cut? octets_eq octetsOf_append length_octetsOf
  takeWhile_octetsOf head?_octetsOf numeralLength_octetsOf bytes_of_utf8Size isValid_offset
  offset_nil offset_append cut?_offset)
open Text.Cursor (bytes before)

variable {α : Type} [Scalar α]

/-! ### Scanning bytes -/

namespace Scan

variable (text : String) (place : ℕ)

/-- The bytes ahead. -/
def ahead : List Char := (octets text).drop place

/-- The place behind spaces. -/
def spaces : ℕ := place + ((ahead text place).takeWhile isSpace).length

/-- The place behind spaces, a comma if there is one, and spaces again. -/
def separator : ℕ :=
  let place := spaces text place
  spaces text (if (ahead text place).head? = some ',' then place + 1 else place)

/-- The letter behind spaces and where it stands, if the text does not end there, and the place
behind it. -/
def letter? : Option (Option (Char × ℕ) × ℕ) := do
  let place := spaces text place
  let rest ← cut? text place text.utf8ByteSize
  match rest.toList with
  | [] => some (none, place)
  | letter :: _ => some (some (letter, place), place + letter.utf8Size)

/-- No number stands at a place. What is told of it are twelve bytes, or as many as there are. -/
def fault? : Option NumberFault :=
  let stop := min (place + 12) text.utf8ByteSize
  if place ≤ stop then
    (cut? text place text.utf8ByteSize).map fun rest =>
      ⟨place, String.ofList (excerpt (stop - place) rest.toList)⟩
  else none

/-- The longest numeral at a place, and the place behind it. -/
def number? : Option (Except NumberFault α × ℕ) := do
  let length := Decimal.numeralLength (ahead text place)
  if length = 0 then
    let fault ← fault? text place
    some (.error fault, place)
  else
    let numeral ← cut? text place (place + length)
    match Decimal.ofText? numeral with
    | some d => some (.ok (Scalar.ofDecimal d), place + length)
    | none =>
      let fault ← fault? text place
      some (.error fault, place)

/-- Two numbers with a separator between them. -/
def pair? : Option (Except NumberFault (Point α) × ℕ) := do
  let (x, place) ← number? text place
  match x with
  | .error fault => some (.error fault, place)
  | .ok x =>
    let (y, place) ← number? text (separator text place)
    match y with
    | .error fault => some (.error fault, place)
    | .ok y => some (.ok ⟨x, y⟩, place)

end Scan

/-- What a reader of path data can be asked for. -/
inductive Request where
  | spaces
  | separator
  | letter
  | number
  | pair
deriving DecidableEq, Repr

/-- What is found: nothing but a new place, a letter with its place, a number or two. -/
inductive Finding (α : Type) where
  | passed
  | letter (found : Option (Char × ℕ))
  | number (read : Except NumberFault α)
  | pair (read : Except NumberFault (Point α))

/-- Was something taken? -/
def Finding.Taken : Finding α → Prop
  | .letter (some _) => True
  | .number (.ok _) => True
  | .pair (.ok _) => True
  | _ => False

namespace Request

/-- Reads with a cursor. -/
def read (request : Request) (c : Cursor) : Finding α × Cursor :=
  match request with
  | .spaces => (.passed, c.skipWhile isSpace)
  | .separator => (.passed, skipSeparator c)
  | .letter =>
    match nextLetter c with
    | none => (.letter none, c.skipWhile isSpace)
    | some (k, offset, behind) => (.letter (some (k, offset)), behind)
  | .number =>
    let (x, behind) := (pathNumber : PathReader α).at c
    (.number x, behind)
  | .pair =>
    let (p, behind) := (Svg.pair : PathReader (Point α)).at c
    (.pair p, behind)

/-- Reads bytes. There is no value if a cut is refused. -/
def scan (request : Request) (text : String) (place : ℕ) : Option (Finding α × ℕ) :=
  match request with
  | .spaces => some (.passed, Scan.spaces text place)
  | .separator => some (.passed, Scan.separator text place)
  | .letter => (Scan.letter? text place).map fun (found, place) => (.letter found, place)
  | .number => (Scan.number? text place).map fun (read, place) => (.number read, place)
  | .pair => (Scan.pair? text place).map fun (read, place) => (.pair read, place)

/-- Reads with a cursor as often as is asked for. -/
def readAll : List Request → Cursor → List (Finding α × Cursor)
  | [], _ => []
  | request :: requests, c =>
    let found : Finding α × Cursor := request.read c
    found :: readAll requests found.2

/-- Reads bytes as often as is asked for. -/
def scanAll (text : String) : List Request → ℕ → Option (List (Finding α × ℕ))
  | [], _ => some []
  | request :: requests, place => do
    let found : Finding α × ℕ ← request.scan text place
    let others ← scanAll text requests found.2
    some (found :: others)

end Request

/-! ### Bytes and cursors -/

section

variable {text : String} {cs : List Char}

lemma Scan.ahead_offset (part : cs <:+ text.toList) :
    Scan.ahead text (before text.toList cs).offset = octetsOf cs := by
  obtain ⟨front, whole⟩ := part
  rw [Scan.ahead, octets_eq, ← whole, octetsOf_append, before, Cursor.bytes_append,
    Nat.add_sub_cancel, ← length_octetsOf, List.drop_left]

lemma utf8Size_of_isSpace {c : Char} (space : isSpace c = true) : c.utf8Size = 1 := by
  rcases Text.eq_of_isSpace space with rfl | rfl | rfl | rfl <;> rfl

lemma Scan.spaces_offset (part : cs <:+ text.toList) :
    Scan.spaces text (before text.toList cs).offset =
      (before text.toList (cs.dropWhile isSpace)).offset := by
  have parts : cs.takeWhile isSpace ++ cs.dropWhile isSpace <:+ text.toList := by
    rwa [List.takeWhile_append_dropWhile]
  have behind := offset_append parts
  rw [List.takeWhile_append_dropWhile,
    bytes_of_utf8Size fun c mem => utf8Size_of_isSpace (List.mem_takeWhile_imp mem)] at behind
  rw [Scan.spaces, Scan.ahead_offset part, takeWhile_octetsOf fun _ => utf8Size_of_isSpace, behind]

lemma Scan.separator_offset (part : cs <:+ text.toList) :
    Scan.separator text (before text.toList cs).offset =
      (before text.toList (passSeparator cs)).offset := by
  have start := (List.dropWhile_suffix isSpace).trans part
  rw [Scan.separator, passSeparator_eq, Scan.spaces_offset part, Scan.ahead_offset start,
    if_congr (head?_octetsOf rfl _) rfl rfl]
  split
  case isTrue comma =>
    obtain ⟨rest, ahead⟩ := List.head?_eq_some_iff.1 comma
    rw [ahead] at start ⊢
    have next : [','] ++ rest <:+ text.toList := start
    have behind := offset_append next
    have one : bytes [','] = 1 := rfl
    rw [one] at behind
    rw [List.tail_cons, ← Scan.spaces_offset ((List.suffix_cons _ _).trans start), behind]
    rfl
  case isFalse =>
    rw [Scan.spaces_offset start, List.dropWhile_idempotent]

/-- To the end of the text there is all that is ahead. -/
lemma cut?_end (part : cs <:+ text.toList) :
    cut? text (before text.toList cs).offset text.utf8ByteSize = some (.ofList cs) := by
  have whole : cs ++ [] <:+ text.toList := by rwa [List.append_nil]
  have parts := cut?_offset whole
  rwa [List.append_nil, offset_nil] at parts

/-- An excerpt is the same if it is taken of no more bytes than there are. -/
lemma excerpt_min (n : ℕ) (cs : List Char) : excerpt (min n (bytes cs)) cs = excerpt n cs := by
  induction cs generalizing n with
  | nil => rfl
  | cons c cs ih =>
    rw [excerpt, excerpt, Cursor.bytes_cons]
    by_cases fits : c.utf8Size ≤ n
    case pos =>
      have rest : min n (c.utf8Size + bytes cs) - c.utf8Size = min (n - c.utf8Size) (bytes cs) := by
        omega
      rw [if_pos fits, if_pos (by omega), rest, ih]
    case neg => rw [min_eq_left (by omega)]

lemma Scan.fault?_offset (part : cs <:+ text.toList) :
    Scan.fault? text (before text.toList cs).offset = some (missingNumber text.toList cs) := by
  have whole : cs ++ [] <:+ text.toList := by rwa [List.append_nil]
  have size := offset_append whole
  rw [List.append_nil, offset_nil] at size
  have few : min ((before text.toList cs).offset + 12) text.utf8ByteSize -
      (before text.toList cs).offset = min 12 (bytes cs) := by omega
  rw [Scan.fault?, if_pos (by omega), cut?_end part, Option.map_some, few, String.toList_ofList,
    excerpt_min, missingNumber]

lemma Scan.letter?_offset (part : cs <:+ text.toList) :
    Scan.letter? text (before text.toList cs).offset =
      match cs.dropWhile isSpace with
      | [] => some (none, (before text.toList []).offset)
      | letter :: after =>
        some (some (letter, (before text.toList (letter :: after)).offset),
          (before text.toList after).offset) := by
  have start := (List.dropWhile_suffix isSpace).trans part
  rw [Scan.letter?, Scan.spaces_offset part, cut?_end start, Option.bind_eq_bind, Option.bind_some,
    String.toList_ofList]
  cases ahead : cs.dropWhile isSpace with
  | nil => rfl
  | cons letter after =>
    rw [ahead] at start
    have next : [letter] ++ after <:+ text.toList := start
    have behind := offset_append next
    have one : bytes [letter] = letter.utf8Size := rfl
    rw [one] at behind
    exact congrArg (fun place => some (some (letter, _), place)) behind.symm

lemma Scan.number?_offset (part : cs <:+ text.toList) :
    (Scan.number? text (before text.toList cs).offset : Option (Except NumberFault α × ℕ)) =
      match (Svg.number? cs : Option (α × List Char)) with
      | none => some (.error (missingNumber text.toList cs), (before text.toList cs).offset)
      | some (x, rest) => some (.ok x, (before text.toList rest).offset) := by
  rw [Scan.number?, Scan.ahead_offset part, numeralLength_octetsOf, Svg.number?]
  split
  case isTrue none =>
    rw [none, List.take_zero, Decimal.ofChars?_nil, Scan.fault?_offset part]
    rfl
  case isFalse counted =>
    obtain ⟨d, read, longest⟩ := Decimal.exists_longest counted
    have length := List.length_take_of_le (Decimal.numeralLength_le cs)
    have parts : cs.take (Decimal.numeralLength cs) ++ cs.drop (Decimal.numeralLength cs) <:+
        text.toList := by rwa [List.take_append_drop]
    have behind := offset_append parts
    have numeral := cut?_offset parts
    rw [bytes_of_utf8Size fun c mem =>
      Decimal.utf8Size_of_inNumeral (longest.spells.inNumeral c mem), length] at behind
    rw [List.take_append_drop] at behind numeral
    rw [← behind, numeral, Option.bind_eq_bind, Option.bind_some, Decimal.ofText?,
      String.toList_ofList, read]
    rfl

/-- Two numbers are scanned as they are read. -/
lemma exists_at_pair (part : cs <:+ text.toList) :
    ∃ (p : Except NumberFault (Point α)) (rest : List Char),
      pair.at (before text.toList cs) = (p, before text.toList rest) ∧
        Scan.pair? text (before text.toList cs).offset =
          some (p, (before text.toList rest).offset) ∧ rest <:+ cs := by
  rw [Scan.pair?, Scan.number?_offset part, pair, at_bind, at_pathNumber part]
  cases first : (Svg.number? cs : Option (α × List Char)) with
  | none => exact ⟨_, cs, rfl, rfl, List.suffix_refl cs⟩
  | some found =>
    obtain ⟨x, rest⟩ := found
    have toRest := (number?_suffix first).1
    have toNext := (passSeparator_suffix rest).trans toRest
    dsimp only [Option.bind_eq_bind, Option.bind_some]
    rw [Scan.separator_offset (toRest.trans part), Scan.number?_offset (toNext.trans part), at_bind,
      at_separator (toRest.trans part)]
    dsimp only
    rw [at_bind, at_pathNumber (toNext.trans part)]
    cases second : (Svg.number? (passSeparator rest) : Option (α × List Char)) with
    | none => exact ⟨_, _, rfl, rfl, toNext⟩
    | some found => exact ⟨_, _, rfl, rfl, (number?_suffix second).1.trans toNext⟩

/-! ### Progress -/

/-- What is known of a finding between two places. -/
structure Finding.Progress (text : String) (found : Finding α) (here there : ℕ) : Prop where
  forward : here ≤ there
  inside : there ≤ text.utf8ByteSize
  boundary : (String.Pos.Raw.mk there).IsValid text
  /-- No letter is missing but at the end. -/
  atEnd : found = .letter none → there = text.utf8ByteSize
  further : found.Taken → here < there

/-- What is asked for at a place is scanned as it is read. Both come to what is ahead at some later
place, which is behind what was taken. -/
lemma Request.exists_read (request : Request) (part : cs <:+ text.toList) :
    ∃ (found : Finding α) (rest : List Char),
      request.read (before text.toList cs) = (found, before text.toList rest) ∧
        request.scan text (before text.toList cs).offset =
          some (found, (before text.toList rest).offset) ∧
        rest <:+ cs ∧ (found = .letter none → rest = []) ∧
        (found.Taken → rest.length < cs.length) := by
  cases request with
  | spaces =>
    refine ⟨.passed, cs.dropWhile isSpace, ?_, ?_, List.dropWhile_suffix isSpace, nofun, nofun⟩
    · rw [read, Cursor.skipWhile_before part]
    · rw [scan, Scan.spaces_offset part]
  | separator =>
    refine ⟨.passed, passSeparator cs, ?_, ?_, passSeparator_suffix cs, nofun, nofun⟩
    · rw [read, skipSeparator_before part]
    · rw [scan, Scan.separator_offset part]
  | letter =>
    have toStart := List.dropWhile_suffix isSpace (l := cs)
    rw [read, scan, Scan.letter?_offset part, nextLetter_before part, Cursor.skipWhile_before part]
    cases ahead : cs.dropWhile isSpace with
    | nil => exact ⟨_, [], rfl, rfl, List.nil_suffix, fun _ => rfl, nofun⟩
    | cons letter after =>
      rw [ahead] at toStart
      have size := toStart.length_le
      rw [List.length_cons] at size
      exact ⟨_, after, rfl, rfl, (List.suffix_cons letter after).trans toStart, nofun,
        fun _ => by omega⟩
  | number =>
    rw [read, scan, Scan.number?_offset part, at_pathNumber part]
    cases found : (Svg.number? cs : Option (α × List Char)) with
    | none => exact ⟨_, cs, rfl, rfl, List.suffix_refl cs, nofun, nofun⟩
    | some found' =>
      obtain ⟨toRest, shorter⟩ := number?_suffix found
      exact ⟨_, _, rfl, rfl, toRest, nofun, fun _ => shorter⟩
  | pair =>
    obtain ⟨p, rest, read', scanned, toRest⟩ := exists_at_pair (α := α) part
    rw [read, scan, read', scanned]
    refine ⟨.pair p, rest, rfl, rfl, toRest, nofun, fun taken => ?_⟩
    cases p with
    | error fault => exact taken.elim
    | ok q => exact consumes_pair _ _ _ read'

lemma offset_le_of_suffix {rest : List Char} (later : rest <:+ cs) (part : cs <:+ text.toList) :
    (before text.toList cs).offset ≤ (before text.toList rest).offset ∧
      (rest.length < cs.length →
        (before text.toList cs).offset < (before text.toList rest).offset) := by
  obtain ⟨front, rfl⟩ := later
  have behind := offset_append part
  refine ⟨by omega, fun shorter => ?_⟩
  cases front with
  | nil => exact absurd shorter (lt_irrefl _)
  | cons c front =>
    have positive := c.utf8Size_pos
    rw [Cursor.bytes_cons] at behind
    omega

/-- What is asked for is found in the same way by bytes and by cursors, and every step makes
progress. -/
lemma Request.exists_scanAll (requests : List Request) (part : cs <:+ text.toList)
    (last : Finding α) :
    ∃ trace : List (Finding α × ℕ),
      scanAll text requests (before text.toList cs).offset = some trace ∧
        trace = (readAll requests (before text.toList cs)).map
          (fun (found, c) => (found, c.offset)) ∧
        List.IsChain (fun here there => there.1.Progress text here.2 there.2)
          ((last, (before text.toList cs).offset) :: trace) := by
  induction requests generalizing cs last with
  | nil => exact ⟨[], rfl, rfl, List.isChain_singleton _⟩
  | cons request requests ih =>
    obtain ⟨found, rest, read, scanned, later, ended, taken⟩ := request.exists_read (α := α) part
    obtain ⟨trace, all, same, chain⟩ := ih (later.trans part) found
    have forward := offset_le_of_suffix later part
    have inside := (offset_le_of_suffix List.nil_suffix (later.trans part)).1
    rw [offset_nil] at inside
    refine ⟨(found, (before text.toList rest).offset) :: trace, ?_, ?_, ?_⟩
    · rw [scanAll, scanned, Option.bind_eq_bind, Option.bind_some, all]
      rfl
    · rw [readAll, read, same]
      rfl
    · refine List.isChain_cons_cons.2 ⟨⟨forward.1, inside, isValid_offset (later.trans part),
        fun none => ?_, fun some => forward.2 (taken some)⟩, chain⟩
      rw [ended none, offset_nil]

/-! ### Strokes -/

lemma length_readGroups_add_le (command : Command) (cs : List Char) :
    (readGroups command cs : List (Stroke α) × _).1.length +
      (readGroups command cs : List (Stroke α) × _).2.length ≤ cs.length := by
  fun_induction readGroups (α := α) command cs with
  | case1 cs rest read =>
    have toRest := ((suffix_of_readGroup read).trans (passSeparator_suffix cs)).length_le
    simpa using toRest
  | case2 cs stroke rest read others ih =>
    have shorter := length_readGroup_lt read
    have toStart := (passSeparator_suffix cs).length_le
    change others.1.length + others.2.length ≤ rest.length at ih
    simp only [List.length_cons]
    omega

/-- No stroke is read without a character. -/
lemma Script.length_strokes_le (whole cs : List Char) :
    (Script.read whole cs : Script α).strokes.length ≤ cs.length := by
  fun_induction Script.read (α := α) whole cs with
  | case1 | case3 | case4 => exact Nat.zero_le _
  | case2 cs letter after start isClose ih =>
    have toLetter := (List.dropWhile_suffix isSpace (l := cs)).length_le
    rw [start, List.length_cons] at toLetter
    simp only [behind, List.map_cons, List.map_nil, List.singleton_append, List.length_cons]
    omega
  | case5 cs letter after start notClose command known stroke rest first others ih =>
    have toLetter := (List.dropWhile_suffix isSpace (l := cs)).length_le
    have toGroup := (List.dropWhile_suffix isSpace (l := after)).length_le
    have shorter := length_readGroup_lt first
    have groups := length_readGroups_add_le (α := α) command.repeated rest
    change others.1.length + others.2.length ≤ rest.length at groups
    rw [start, List.length_cons] at toLetter
    simp only [behind, List.length_append, List.length_map, List.length_cons]
    omega

lemma length_le_bytes (cs : List Char) : cs.length ≤ bytes cs := by
  induction cs with
  | nil => exact Nat.zero_le _
  | cons c cs ih =>
    have positive := c.utf8Size_pos
    rw [List.length_cons, Cursor.bytes_cons]
    omega

end

/-- Path data can be scanned byte for byte, whatever is asked for in whatever order: no cut is
refused, and what is found is what cursors read. The place never goes back or beyond the end, and a
character begins wherever it comes to. A letter is missing only at the end, and a letter, a number
or a pair that is found takes at least one byte. So drawing path data comes to an end, after at most
as many strokes as there are bytes. -/
theorem Request.scanAll_progress (text : String) :
    (∀ requests : List Request, ∃ trace : List (Finding α × ℕ),
      scanAll text requests 0 = some trace ∧
        trace = (readAll requests (.start text)).map (fun (found, c) => (found, c.offset)) ∧
        List.IsChain (fun here there => there.1.Progress text here.2 there.2)
          ((.passed, 0) :: trace)) ∧
      ∃ script : Script α, script.strokes.length ≤ text.utf8ByteSize ∧
        ∀ (f : Frame α) (s : Sketch α), (s.drawPath f text).value = script.outcome f s := by
  have start : Cursor.start text = before text.toList text.toList := Cursor.ofChars_eq_before _
  have zero : (before text.toList text.toList).offset = 0 := Nat.sub_self _
  constructor
  · intro requests
    have scanned := exists_scanAll (α := α) requests (List.suffix_refl text.toList) .passed
    rwa [zero, ← start] at scanned
  · refine ⟨.read text.toList text.toList, ?_, fun f s => ?_⟩
    · have few := Script.length_strokes_le (α := α) text.toList text.toList
      have wide := length_le_bytes text.toList
      rw [← Cursor.utf8ByteSize_ofList, String.ofList_toList] at wide
      exact few.trans wide
    · rw [Sketch.drawPath, start]
      exact Sketch.value_drawData f s (List.suffix_refl _)

end Svg

end Toolpath
