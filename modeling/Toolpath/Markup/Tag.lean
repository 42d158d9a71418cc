import Toolpath.Markup.Entity
import Toolpath.Text.Blank

/-!
# Tags and their attributes

A start tag is what stands between `<` and `>`: a name, then attributes with quoted values. No key
may come twice.
-/

namespace Toolpath.Markup

open Text (Cursor isSpace)

/-- What stands between the brackets of a start tag, without the slash that makes it childless. -/
structure Tag where
  content : List Char
deriving DecidableEq, Repr

/-- The name of an element without what stands before its first colon. -/
def localName (name : List Char) : List Char :=
  match name.dropWhile (· != ':') with
  | [] => name
  | _ :: rest => rest

namespace Tag

/-- The name, up to the first space. -/
def name (t : Tag) : List Char :=
  t.content.takeWhile (!isSpace ·)

/-- The name without what stands before its first colon. -/
def localName (t : Tag) : String :=
  String.ofList (Markup.localName t.name)

end Tag

/-- The attributes of an element in the order they stand in. -/
structure Attributes where
  entries : List (String × String)
deriving DecidableEq, Repr

namespace Attributes

/-- The value of an attribute. -/
def get? (as : Attributes) (name : String) : Option String :=
  as.entries.lookup name

/-- Does the element have an attribute? -/
def has (as : Attributes) (name : String) : Bool :=
  (as.get? name).isSome

/-- Reads a quoted value, before which spaces may stand: what is between the quotes, and the place
behind them. -/
def valueAt (c : Cursor) : Except Fault (List Char × Cursor) :=
  let start := c.skipWhile isSpace
  match start.rest with
  | [] => .error (.tag start.offset .missingValue)
  | quote :: ahead =>
    if quote != '"' && quote != '\'' then .error (.tag start.offset .unquotedValue)
    else
      let text := ahead.takeWhile (· != quote)
      let stop := start.advance (text.length + 1)
      if stop.atEnd then .error (.tag stop.offset (.missingQuote quote))
      else .ok (text, stop.advance 1)

theorem length_of_valueAt {c next : Cursor} {text : List Char}
    (h : valueAt c = .ok (text, next)) : next.rest.length ≤ c.rest.length := by
  have start := c.length_rest_skipWhile_le isSpace
  simp only [valueAt] at h
  split at h
  · exact absurd h (by simp)
  · split at h
    · exact absurd h (by simp)
    · split at h
      · exact absurd h (by simp)
      · simp only [Except.ok.injEq, Prod.mk.injEq] at h
        obtain ⟨_, rfl⟩ := h
        exact Nat.le_trans (Cursor.length_rest_advance_le _ _)
          (Nat.le_trans (Cursor.length_rest_advance_le _ _) start)

/-- The key at the front: the first character, whatever it is, and all up to an equals sign or a
space. -/
def keyOf : List Char → List Char
  | [] => []
  | c :: cs => c :: cs.takeWhile fun x => x != '=' && !isSpace x

/-- Reads the attributes from a place in a tag on. The keys seen so far are given with their
offsets. -/
def entriesFrom (seen : List (List Char × Nat)) (c : Cursor) :
    Except Fault (List (String × String)) :=
  let start := c.skipWhile isSpace
  if start.atEnd then .ok []
  else
    let key := keyOf start.rest
    let sign := (start.advance key.length).skipWhile isSpace
    if _equals : sign.rest.head? = some '=' then
      -- A repeated key is a fault before its value can be one.
      match seen.lookup key with
      | some previous => .error (.tag start.offset (.duplicated previous))
      | none =>
        match _found : valueAt (sign.advance 1) with
        | .error fault => .error fault
        | .ok (text, next) =>
          match unescape text with
          | .error fault => .error fault
          | .ok text =>
            match entriesFrom ((key, start.offset) :: seen) next with
            | .error fault => .error fault
            | .ok entries => .ok ((String.ofList key, String.ofList text) :: entries)
    else .error (.tag sign.offset .keyWithoutValue)
termination_by c.rest.length
decreasing_by
  have toSign : sign.rest.length ≤ c.rest.length :=
    Nat.le_trans (Cursor.length_rest_skipWhile_le _ _)
      (Nat.le_trans (Cursor.length_rest_advance_le _ _) (Cursor.length_rest_skipWhile_le _ _))
  have toNext := length_of_valueAt _found
  have positive : 0 < sign.rest.length := by
    cases ahead : sign.rest with
    | nil => rw [ahead] at _equals; simp at _equals
    | cons => simp
  rw [Cursor.rest_advance, List.length_drop] at toNext
  show next.rest.length < c.rest.length
  omega

/-- The attributes of a tag. -/
def ofTag (t : Tag) : Except Fault Attributes :=
  (entriesFrom [] ((Cursor.ofChars t.content).skipWhile (!isSpace ·))).map Attributes.mk

end Attributes

end Toolpath.Markup
