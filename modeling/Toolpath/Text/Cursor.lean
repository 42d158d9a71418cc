/-!
# Cursors

A place in a text: the characters ahead, and how many bytes the characters behind it take. A cursor
only moves over whole characters, so its offset is always where a character begins.
-/

namespace Toolpath.Text

/-- The characters of a class at the front, if what stands behind them does not begin with one. -/
theorem takeWhile_append_of_head? {p : Char → Bool} {front rest : List Char}
    (inside : ∀ c ∈ front, p c = true) (outside : ∀ c ∈ rest.head?, p c = false) :
    (front ++ rest).takeWhile p = front := by
  rw [List.takeWhile_append_of_pos inside]
  cases rest with
  | nil => simp
  | cons c rest => simp [outside c rfl]

/-- What stands behind the characters of a class. -/
theorem dropWhile_append_of_head? {p : Char → Bool} {front rest : List Char}
    (inside : ∀ c ∈ front, p c = true) (outside : ∀ c ∈ rest.head?, p c = false) :
    (front ++ rest).dropWhile p = rest := by
  rw [List.dropWhile_append_of_pos inside]
  cases rest with
  | nil => simp
  | cons c rest => simp [outside c rfl]

/-- A place in a text. -/
structure Cursor where
  /-- The bytes behind, as the text is encoded. -/
  offset : Nat
  /-- The characters ahead. -/
  rest : List Char
deriving DecidableEq, Repr

namespace Cursor

/-- The beginning of a list of characters. -/
def ofChars (cs : List Char) : Cursor :=
  ⟨0, cs⟩

/-- The beginning of a text. -/
def start (text : String) : Cursor :=
  ofChars text.toList

/-- Is nothing ahead? -/
def atEnd (c : Cursor) : Bool :=
  c.rest.isEmpty

/-- Moves over at most `n` characters. -/
def advance : Nat → Cursor → Cursor
  | n + 1, ⟨offset, c :: rest⟩ => advance n ⟨offset + c.utf8Size, rest⟩
  | _, c => c

/-- Moves over the characters of a class. -/
def skipWhile (p : Char → Bool) (c : Cursor) : Cursor :=
  c.advance (c.rest.takeWhile p).length

/-- The byte offset of the end of the text. -/
def endOffset (c : Cursor) : Nat :=
  (c.advance c.rest.length).offset

/-! ### What is ahead after a move -/

@[simp] theorem rest_advance (n : Nat) (c : Cursor) : (c.advance n).rest = c.rest.drop n := by
  fun_induction advance n c with
  | case1 n offset c rest ih => simpa using ih
  | case2 n c h =>
    match n, c with
    | 0, c => simp
    | n + 1, ⟨_, []⟩ => simp
    | n + 1, ⟨_, _ :: _⟩ => exact (h _ _ _ _ rfl rfl).elim

/-- What is ahead behind the characters of a class. -/
theorem rest_skipWhile (p : Char → Bool) (c : Cursor) :
    (c.skipWhile p).rest = c.rest.dropWhile p := by
  have behind : (c.rest.takeWhile p ++ c.rest.dropWhile p).drop (c.rest.takeWhile p).length =
      c.rest.dropWhile p := List.drop_left
  rwa [List.takeWhile_append_dropWhile, ← rest_advance] at behind

theorem length_rest_advance_le (n : Nat) (c : Cursor) :
    (c.advance n).rest.length ≤ c.rest.length := by
  simp

theorem length_rest_skipWhile_le (p : Char → Bool) (c : Cursor) :
    (c.skipWhile p).rest.length ≤ c.rest.length :=
  length_rest_advance_le _ c

/-- No move goes back. -/
theorem offset_le_advance (n : Nat) (c : Cursor) : c.offset ≤ (c.advance n).offset := by
  fun_induction advance n c with
  | case1 n offset c rest ih => exact Nat.le_trans (Nat.le_add_right _ _) ih
  | case2 => exact Nat.le_refl _

end Cursor

end Toolpath.Text
