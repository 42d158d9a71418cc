import Mathlib
import Toolpath.Markup.Entity
import Toolpath.Proofs.Attempt

/-!
# Escaped values

Between its quotes a value may have characters that stand for themselves, the five named entities
and references by number. `Escaped` says so without the reader, and what is escaped is read as what
it stands for (`Escaped.unescape`).

The reader takes all characters up to the next ampersand at once, while a text is escaped one
character at a time. Taking one character less comes to the same (`unescapeFrom_cons`), because the
ampersand is found at the same place.
-/

namespace Toolpath

namespace Markup

open Text (Cursor)

/-! ### Texts with references -/

/-- The number that digits spell behind a number. -/
def numberFrom (base n : ℕ) (digits : List Char) : ℕ :=
  digits.foldl (fun n c => n * base + (digit? base c).getD 0) n

/-- Digits that spell the number of a character. -/
structure Spell (base : ℕ) (digits : List Char) (c : Char) : Prop where
  nonempty : digits ≠ []
  valid : ∀ d ∈ digits, (digit? base d).isSome = true
  number : numberFrom base 0 digits = c.toNat
  nonzero : c.toNat ≠ 0

/-- What stands between an ampersand and a semicolon, and the character it refers to. -/
inductive Refers : List Char → Char → Prop
  | less : Refers ['l', 't'] '<'
  | greater : Refers ['g', 't'] '>'
  | ampersand : Refers ['a', 'm', 'p'] '&'
  | tick : Refers ['a', 'p', 'o', 's'] '\''
  | quote : Refers ['q', 'u', 'o', 't'] '"'
  | decimal {digits : List Char} {c : Char} (spell : Spell 10 digits c) : Refers ('#' :: digits) c
  | hexadecimal {digits : List Char} {c : Char} (spell : Spell 16 digits c) :
    Refers ('#' :: 'x' :: digits) c

/-- What stands between two quotes, and the value it is escaped from. -/
inductive Escaped (quote : Char) : List Char → List Char → Prop
  | nil : Escaped quote [] []
  | plain {c : Char} {text value : List Char} (noQuote : c ≠ quote) (noReference : c ≠ '&')
    (later : Escaped quote text value) : Escaped quote (c :: text) (c :: value)
  | reference {name text value : List Char} {c : Char} (refers : Refers name c)
    (later : Escaped quote text value) :
    Escaped quote ('&' :: (name ++ ';' :: text)) (c :: value)

/-! ### References -/

lemma le_numberFrom {base : ℕ} (positive : 0 < base) (n : ℕ) (digits : List Char) :
    n ≤ numberFrom base n digits := by
  induction digits generalizing n with
  | nil => exact le_refl n
  | cons c digits ih =>
    refine le_trans ?_ (ih _)
    exact le_add_right (Nat.le_mul_of_pos_right n positive)

/-- A number below the limit stays below it all the way. -/
lemma codeFrom_eq {base n : ℕ} {digits : List Char} (positive : 0 < base)
    (valid : ∀ d ∈ digits, (digit? base d).isSome = true)
    (small : numberFrom base n digits < UInt32.size) :
    codeFrom base n digits = .ok (numberFrom base n digits) := by
  induction digits generalizing n with
  | nil => rfl
  | cons c digits ih =>
    obtain ⟨here, later⟩ := List.forall_mem_cons.1 valid
    obtain ⟨d, digit⟩ := Option.isSome_iff_exists.1 here
    have next : numberFrom base n (c :: digits) = numberFrom base (n * base + d) digits := by
      rw [numberFrom, List.foldl_cons, digit]
      rfl
    rw [next] at small ⊢
    have below := lt_of_le_of_lt (le_numberFrom positive (n * base + d) digits) small
    rw [codeFrom, digit]
    dsimp only
    rw [if_pos below, ih later small]

lemma digit?_eq_none {base : ℕ} {c : Char}
    (other : c ∈ [';', '&', '"', '\'', '+', '-', 'x']) : digit? base c = none := by
  fin_cases other <;> simp [digit?]

/-- A character that ends a name, a value or a reference, or begins a number, is no digit. -/
lemma Spell.notMem {base : ℕ} {digits : List Char} {c x : Char} (spell : Spell base digits c)
    (other : x ∈ [';', '&', '"', '\'', '+', '-', 'x']) : x ∉ digits := by
  intro mem
  have digit := spell.valid x mem
  rw [digit?_eq_none other] at digit
  cases digit

lemma Spell.characterOf {base : ℕ} {digits : List Char} {c : Char} (positive : 0 < base)
    (spell : Spell base digits c) : characterOf base digits = .ok c := by
  have small : numberFrom base 0 digits < UInt32.size := spell.number ▸ c.val.toNat_lt
  have code := codeFrom_eq positive spell.valid small
  rw [spell.number] at code
  unfold Markup.characterOf
  split
  next => exact absurd rfl spell.nonempty
  next => exact absurd List.mem_cons_self (spell.notMem (x := '+') (by simp))
  next => exact absurd List.mem_cons_self (spell.notMem (x := '-') (by simp))
  next =>
    rw [code]
    split
    next bad => cases bad
    next zero => exact absurd (Except.ok.inj zero) spell.nonzero
    next n _ same =>
      obtain rfl := Except.ok.inj same
      have valid : c.toNat.isValidChar := c.valid
      rw [if_pos valid, Char.ofNat_toNat]

namespace Refers

variable {name : List Char} {c : Char}

lemma entity (refers : Refers name c) (first last : ℕ) : entity first last name = .ok c := by
  cases refers with
  | less | greater | ampersand | tick | quote => rfl
  | hexadecimal spell =>
    change (characterOf 16 _).mapError _ = _
    rw [spell.characterOf (by decide)]
    rfl
  | @decimal digits _ spell =>
    have decimal : Markup.entity first last ('#' :: digits) =
        (characterOf 10 digits).mapError .reference := by
      unfold Markup.entity
      split
      case h_6 same =>
        cases same
        exact absurd List.mem_cons_self (spell.notMem (x := 'x') (by simp))
      case h_7 same =>
        cases same
        rfl
      case h_8 other => exact absurd rfl (other digits)
      case h_1 same | h_2 same | h_3 same | h_4 same | h_5 same => cases same
    rw [decimal, spell.characterOf (by decide)]
    rfl

/-- The name of a character has neither a semicolon in it nor anything that ends a value. -/
lemma notMem {x : Char} (refers : Refers name c) (other : x ∈ [';', '&', '"', '\'']) :
    x ∉ name := by
  have other' : x ∈ [';', '&', '"', '\'', '+', '-', 'x'] := by
    simp only [List.mem_cons] at other ⊢
    tauto
  cases refers with
  | less | greater | ampersand | tick | quote => fin_cases other <;> simp
  | decimal spell =>
    rw [List.mem_cons, not_or]
    exact ⟨by fin_cases other <;> simp, spell.notMem other'⟩
  | hexadecimal spell =>
    rw [List.mem_cons, List.mem_cons, not_or, not_or]
    exact ⟨by fin_cases other <;> simp, by fin_cases other <;> simp, spell.notMem other'⟩

end Refers

/-! ### Values -/

/-- The entities of a value, without memory of what was read. -/
lemma unescapeFrom_eq (c : Cursor) :
    unescapeFrom c =
      let plain := c.rest.takeWhile (· != '&')
      let start := c.advance plain.length
      match start.rest with
      | [] => .ok plain
      | _ :: ahead =>
        let name := ahead.takeWhile (fun x => x != ';' && x != '&')
        let stop := start.advance (name.length + 1)
        match stop.rest with
        | ';' :: _ => do
          let x ← entity (start.offset + 1) stop.offset name
          let tail ← unescapeFrom (start.advance (name.length + 2))
          .ok (plain ++ x :: tail)
        | _ => .error (.unterminatedEntity start.offset c.endOffset) := by
  rw [unescapeFrom]
  dsimp only
  split
  next none => rw [none]
  next x ahead found =>
    rw [found]
    dsimp only
    generalize entity _ _ _ = read
    generalize unescapeFrom _ = others
    cases read with
    | error fault => rfl
    | ok x => cases others <;> rfl

/-- A character that stands for itself is the first one of the value. -/
lemma unescapeFrom_cons {offset : ℕ} {c : Char} {text : List Char} (plain : c ≠ '&') :
    unescapeFrom ⟨offset, c :: text⟩ =
      (unescapeFrom ⟨offset + c.utf8Size, text⟩).map (c :: ·) := by
  have start (n : ℕ) : (Cursor.mk offset (c :: text)).advance (n + 1) =
      (Cursor.mk (offset + c.utf8Size) text).advance n := rfl
  have stop : (Cursor.mk offset (c :: text)).endOffset =
      (Cursor.mk (offset + c.utf8Size) text).endOffset := rfl
  have first : (c :: text).takeWhile (· != '&') = c :: text.takeWhile (· != '&') := by
    rw [List.takeWhile_cons_of_pos (by simpa using plain)]
  rw [unescapeFrom_eq, unescapeFrom_eq]
  dsimp only
  rw [first, List.length_cons, start, stop]
  split
  case h_1 => rfl
  case h_2 =>
    split
    case h_2 => rfl
    case h_1 =>
      cases entity _ _ _ with
      | error fault => rfl
      | ok x =>
        dsimp only [Except.bind_of_ok]
        cases unescapeFrom _ <;> rfl

/-- An entity stands for its character. -/
lemma exists_unescapeFrom_reference {c : Cursor} {name text : List Char} {x : Char}
    (refers : Refers name x) (ahead : c.rest = '&' :: (name ++ ';' :: text)) :
    ∃ next : Cursor, next.rest = text ∧ unescapeFrom c = (unescapeFrom next).map (x :: ·) := by
  have inside : ∀ y ∈ name, (y != ';' && y != '&') = true := by
    intro y mem
    have noStop : y ≠ ';' := fun same => refers.notMem (x := ';') (by simp) (same ▸ mem)
    have noStart : y ≠ '&' := fun same => refers.notMem (x := '&') (by simp) (same ▸ mem)
    simp [noStop, noStart]
  have named : (name ++ ';' :: text).takeWhile (fun y => y != ';' && y != '&') = name :=
    Text.takeWhile_append_of_head? inside (by simp)
  have stop : (c.advance (name.length + 1)).rest = ';' :: text := by
    rw [Cursor.rest_advance, ahead, List.drop_succ_cons, List.drop_left]
  refine ⟨c.advance (name.length + 2), ?_, ?_⟩
  · rw [Cursor.rest_advance, ahead, List.drop_succ_cons, ← List.drop_drop, List.drop_left]
    rfl
  · have none : c.rest.takeWhile (· != '&') = [] := by
      rw [ahead]
      rfl
    have still : c.advance 0 = c := by cases c; rfl
    rw [unescapeFrom_eq]
    dsimp only
    rw [none, List.length_nil, still, ahead]
    dsimp only
    rw [named, stop, refers.entity, Except.bind_of_ok]
    cases unescapeFrom _ <;> rfl

/-- A value is read as what it is escaped from. -/
lemma unescapeFrom_of_escaped {quote : Char} {text value : List Char}
    (escaped : Escaped quote text value) {c : Cursor} (ahead : c.rest = text) :
    unescapeFrom c = .ok value := by
  induction escaped generalizing c with
  | nil =>
    rw [unescapeFrom_eq, ahead]
    simp [ahead]
  | @plain x text value _ noReference _ ih =>
    obtain ⟨offset, rest⟩ := c
    obtain rfl : rest = x :: text := ahead
    rw [unescapeFrom_cons noReference, ih rfl]
    rfl
  | reference refers _ ih =>
    obtain ⟨next, behind, read⟩ := exists_unescapeFrom_reference refers ahead
    rw [read, ih behind]
    rfl

namespace Escaped

variable {quote : Char} {text value : List Char}

lemma unescape (escaped : Escaped quote text value) : unescape text = .ok value :=
  unescapeFrom_of_escaped escaped rfl

/-- The quote that ends a value is not in it. -/
lemma notMem (escaped : Escaped quote text value) (isQuote : quote = '"' ∨ quote = '\'') :
    quote ∉ text := by
  induction escaped with
  | nil => exact List.not_mem_nil
  | plain noQuote _ _ ih =>
    rw [List.mem_cons, not_or]
    exact ⟨Ne.symm noQuote, ih⟩
  | reference refers _ ih =>
    have inside := refers.notMem (x := quote) (by rcases isQuote with rfl | rfl <;> simp)
    simp only [List.mem_cons, List.mem_append, not_or]
    exact ⟨by rcases isQuote with rfl | rfl <;> simp, inside,
      by rcases isQuote with rfl | rfl <;> simp, ih⟩

/-- A text without references stands for itself. -/
lemma of_plain (plain : ∀ c ∈ text, c ≠ quote ∧ c ≠ '&') : Escaped quote text text := by
  induction text with
  | nil => exact .nil
  | cons c text ih =>
    obtain ⟨⟨noQuote, noReference⟩, later⟩ := List.forall_mem_cons.1 plain
    exact .plain noQuote noReference (ih later)

end Escaped

end Markup

end Toolpath
