/-!
# Blank characters

Two classes of blank: the four characters that part the items of an attribute, and the twenty-five
that Unicode calls white space.
-/

namespace Toolpath.Text

/-- Space, tab, line feed or carriage return. -/
def isSpace (c : Char) : Bool :=
  c = ' ' || c = '\t' || c = '\n' || c = '\r'

/-- Unicode white space. -/
def isBlank (c : Char) : Bool :=
  let n := c.toNat
  (9 ≤ n && n ≤ 13) || n = 0x20 || n = 0x85 || n = 0xA0 || n = 0x1680
    || (0x2000 ≤ n && n ≤ 0x200A) || n = 0x2028 || n = 0x2029 || n = 0x202F || n = 0x205F
    || n = 0x3000

theorem eq_of_isSpace {c : Char} (h : isSpace c = true) :
    c = ' ' ∨ c = '\t' ∨ c = '\n' ∨ c = '\r' := by
  simpa [isSpace, or_assoc] using h

/-- What parts the items of an attribute is white space. -/
theorem isBlank_of_isSpace {c : Char} (h : isSpace c = true) : isBlank c = true := by
  rcases eq_of_isSpace h with rfl | rfl | rfl | rfl <;> decide

/-- Cuts the characters of a class off at the end. -/
def dropEndWhile (p : Char → Bool) (cs : List Char) : List Char :=
  (cs.reverse.dropWhile p).reverse

/-- Cuts the white space off at both ends. -/
def trim (cs : List Char) : List Char :=
  dropEndWhile isBlank (cs.dropWhile isBlank)

/-- Nothing is cut off behind a last character that stays. -/
theorem dropEndWhile_eq_self {p : Char → Bool} {cs : List Char}
    (last : ∀ c ∈ cs.getLast?, p c = false) : dropEndWhile p cs = cs := by
  rw [dropEndWhile]
  cases reversed : cs.reverse with
  | nil => simpa using reversed.symm
  | cons c rest =>
    have outside : p c = false := last c (by rw [← List.head?_reverse, reversed]; rfl)
    rw [List.dropWhile_cons_of_neg (by simp [outside]), ← reversed, List.reverse_reverse]

/-- Nothing is cut off between characters that stay. -/
theorem trim_eq_self {cs : List Char} (first : ∀ c ∈ cs.head?, isBlank c = false)
    (last : ∀ c ∈ cs.getLast?, isBlank c = false) : trim cs = cs := by
  have start : cs.dropWhile isBlank = cs := by
    cases cs with
    | nil => rfl
    | cons c cs => simp [first c rfl]
  rw [trim, start, dropEndWhile_eq_self last]

end Toolpath.Text
