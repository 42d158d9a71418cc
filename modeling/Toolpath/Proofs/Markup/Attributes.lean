import Toolpath.Proofs.Markup.Escaped
import Toolpath.Proofs.Markup.Items

/-!
# Well-formed tags

What a tag may look like is said here without the reader: a name, then attributes with spaces before
them and on either side of the equals sign, and escaped values in quotes of either kind
(`Attribute.WellFormed`). Such attributes are read as what they stand for, if no key comes twice
(`Opening.WellFormed.ofTag`), and their tag is found between its brackets whatever stands in the
values (`Opening.WellFormed.scanItem_start`, `Opening.WellFormed.scanItem_childless`).
-/

namespace Toolpath

namespace Markup

open Text (Cursor isSpace)

/-! ### Attributes -/

/-- A character that neither ends a name nor a tag, nor begins a value. -/
def isBare (c : Char) : Bool :=
  !isSpace c && c != '=' && c != '"' && c != '\'' && c != '>' && c != '/'

lemma isSpace_of_isBare {c : Char} (bare : isBare c = true) : isSpace c = false := by
  simp only [isBare, Bool.and_eq_true, Bool.not_eq_true'] at bare
  exact bare.1.1.1.1.1

lemma ne_of_isBare {c : Char} (bare : isBare c = true) :
    (c ≠ '>' ∧ c ≠ '"' ∧ c ≠ '\'') ∧ c ≠ '/' := by
  simp only [isBare, Bool.and_eq_true, bne_iff_ne] at bare
  obtain ⟨⟨⟨⟨_, quote⟩, tick⟩, close⟩, slash⟩ := bare
  exact ⟨⟨close, quote, tick⟩, slash⟩

lemma ne_of_isSpace {c : Char} (space : isSpace c = true) :
    (c ≠ '>' ∧ c ≠ '"' ∧ c ≠ '\'') ∧ c ≠ '/' := by
  refine ⟨⟨?_, ?_, ?_⟩, ?_⟩ <;>
    · rintro rfl
      cases space

/-- An attribute as it is written, and the value it stands for. -/
structure Attribute where
  /-- What stands between the attribute and what comes before it. -/
  before : List Char
  key : List Char
  beforeSign : List Char
  behindSign : List Char
  quote : Char
  text : List Char
  value : List Char
deriving DecidableEq

namespace Attribute

/-- The characters of an attribute. -/
def chars (a : Attribute) : List Char :=
  a.before ++ (a.key ++ (a.beforeSign ++
    '=' :: (a.behindSign ++ a.quote :: (a.text ++ [a.quote]))))

/-- What an attribute is read as. -/
def entry (a : Attribute) : String × String := (String.ofList a.key, String.ofList a.value)

/-- Spaces stand before an attribute and may stand beside the sign, the key is bare, and the text
between the quotes is escaped. -/
structure WellFormed (a : Attribute) : Prop where
  parted : a.before ≠ []
  blank : ∀ c ∈ a.before ++ (a.beforeSign ++ a.behindSign), isSpace c = true
  named : a.key ≠ []
  bare : ∀ c ∈ a.key, isBare c = true
  quoted : a.quote = '"' ∨ a.quote = '\''
  escaped : Escaped a.quote a.text a.value

end Attribute

namespace Attributes

/-- A value is read up to the quote that ends it. -/
lemma exists_valueAt {quote : Char} {spaces text rest : List Char} {c : Cursor}
    (quoted : quote = '"' ∨ quote = '\'') (blank : ∀ x ∈ spaces, isSpace x = true)
    (inside : quote ∉ text) (ahead : c.rest = spaces ++ quote :: (text ++ quote :: rest)) :
    ∃ next, valueAt c = .ok (text, next) ∧ next.rest = rest := by
  have dark : isSpace quote = false := by rcases quoted with rfl | rfl <;> rfl
  have start : (c.skipWhile isSpace).rest = quote :: (text ++ quote :: rest) := by
    rw [Cursor.rest_skipWhile, ahead]
    exact Text.dropWhile_append_of_head? blank (by simp [dark])
  have taken : (text ++ quote :: rest).takeWhile (· != quote) = text := by
    refine Text.takeWhile_append_of_head? (fun x mem => ?_) (by simp)
    have other : x ≠ quote := fun same => inside (same ▸ mem)
    simpa using other
  have stop : ((c.skipWhile isSpace).advance (text.length + 1)).rest = quote :: rest := by
    rw [Cursor.rest_advance, start, List.drop_succ_cons, List.drop_left]
  have isQuote : (quote != '"' && quote != '\'') = false := by
    rcases quoted with rfl | rfl <;> rfl
  refine ⟨((c.skipWhile isSpace).advance (text.length + 1)).advance 1, ?_, ?_⟩
  · simp [valueAt, start, taken, Cursor.atEnd, isQuote]
  · rw [Cursor.rest_advance, stop]
    rfl

/-- A key ends where the spaces before the sign begin, or the sign. -/
lemma keyOf_append {key spaces rest : List Char} (nonempty : key ≠ [])
    (bare : ∀ c ∈ key, isBare c = true) (blank : ∀ x ∈ spaces, isSpace x = true) :
    keyOf (key ++ (spaces ++ '=' :: rest)) = key := by
  obtain ⟨c, cs, rfl⟩ := List.exists_cons_of_ne_nil nonempty
  have inside : ∀ x ∈ cs, (x != '=' && !isSpace x) = true := by
    intro x mem
    have bare := bare x (List.mem_cons_of_mem c mem)
    rw [isSpace_of_isBare bare]
    simp only [isBare, Bool.and_eq_true] at bare
    simp [bare.1.1.1.1.2]
  have outside : ∀ x ∈ (spaces ++ '=' :: rest).head?, (x != '=' && !isSpace x) = false := by
    intro x mem
    cases spaces with
    | nil =>
      obtain rfl : '=' = x := by simpa using mem
      rfl
    | cons y spaces =>
      obtain rfl : y = x := by simpa using mem
      simp [blank y List.mem_cons_self]
  rw [List.cons_append, keyOf, Text.takeWhile_append_of_head? inside outside]

/-- The attributes from a place on, without memory of what was read: the first one, and the
others. -/
lemma entriesFrom_eq (seen : List (List Char × ℕ)) (c : Cursor) :
    entriesFrom seen c =
      let start := c.skipWhile isSpace
      if start.atEnd then .ok []
      else
        let key := keyOf start.rest
        let sign := (start.advance key.length).skipWhile isSpace
        if sign.rest.head? = some '=' then
          match seen.lookup key with
          | some previous => .error (.tag start.offset (.duplicated previous))
          | none => do
            let (text, next) ← valueAt (sign.advance 1)
            let text ← unescape text
            let entries ← entriesFrom ((key, start.offset) :: seen) next
            .ok ((String.ofList key, String.ofList text) :: entries)
        else .error (.tag sign.offset .keyWithoutValue) := by
  rw [entriesFrom]
  dsimp only
  split
  case isTrue => rfl
  case isFalse =>
    split
    case isFalse => rfl
    case isTrue =>
      cases seen.lookup (keyOf (c.skipWhile isSpace).rest) with
      | some previous => rfl
      | none =>
        dsimp only
        split
        next fault found =>
          rw [found]
          rfl
        next text next found =>
          rw [found]
          dsimp only [Except.bind_of_ok]
          cases unescape text with
          | error fault => rfl
          | ok text =>
            dsimp only
            cases entriesFrom _ next <;> rfl

/-- A well-formed attribute is read, if its key has not been seen before. -/
lemma exists_entriesFrom_attribute {a : Attribute} {rest : List Char} (well : a.WellFormed)
    {c : Cursor} (ahead : c.rest = a.chars ++ rest) {seen : List (List Char × ℕ)}
    (unseen : seen.lookup a.key = none) :
    ∃ offset next, next.rest = rest ∧
      entriesFrom seen c = (entriesFrom ((a.key, offset) :: seen) next).map (a.entry :: ·) := by
  obtain ⟨before, key, beforeSign, behindSign, quote, text, value⟩ := a
  obtain ⟨_, blank, named, bare, quoted, escaped⟩ := well
  simp only [List.forall_mem_append] at blank named bare quoted escaped unseen
  obtain ⟨blank, blankSign, blankQuote⟩ := blank
  have start : (c.skipWhile isSpace).rest =
      key ++ (beforeSign ++ '=' :: (behindSign ++ quote :: (text ++ quote :: rest))) := by
    have first : ∀ x ∈ (key ++ (beforeSign ++
        '=' :: (behindSign ++ quote :: (text ++ quote :: rest)))).head?, isSpace x = false := by
      obtain ⟨x, xs, rfl⟩ := List.exists_cons_of_ne_nil named
      simpa using isSpace_of_isBare (bare x List.mem_cons_self)
    rw [Cursor.rest_skipWhile, ahead]
    simpa [Attribute.chars] using Text.dropWhile_append_of_head? blank first
  have sign : (((c.skipWhile isSpace).advance key.length).skipWhile isSpace).rest =
      '=' :: (behindSign ++ quote :: (text ++ quote :: rest)) := by
    rw [Cursor.rest_skipWhile, Cursor.rest_advance, start, List.drop_left]
    exact Text.dropWhile_append_of_head? blankSign (by simp [isSpace])
  obtain ⟨next, found, behind⟩ := exists_valueAt
    (c := (((c.skipWhile isSpace).advance key.length).skipWhile isSpace).advance 1)
    quoted blankQuote (escaped.notMem quoted) (by rw [Cursor.rest_advance, sign]; rfl)
  have keyed : keyOf (c.skipWhile isSpace).rest = key := by
    rw [start, keyOf_append named bare blankSign]
  have more : ¬ (c.skipWhile isSpace).atEnd = true := by simp [Cursor.atEnd, start]
  refine ⟨(c.skipWhile isSpace).offset, next, behind, ?_⟩
  rw [entriesFrom_eq]
  dsimp only
  rw [if_neg more, keyed, if_pos (by rw [sign]; rfl), unseen]
  dsimp only
  rw [found, Except.bind_of_ok, escaped.unescape, Except.bind_of_ok]
  cases entriesFrom ((key, (c.skipWhile isSpace).offset) :: seen) next <;> rfl

/-- Well-formed attributes are read, up to spaces at the end of the tag. No key may come twice. -/
lemma entriesFrom_attributes {attributes : List Attribute} {spaces : List Char}
    (well : ∀ a ∈ attributes, a.WellFormed) (distinct : (attributes.map Attribute.key).Nodup)
    (blank : ∀ x ∈ spaces, isSpace x = true) {seen : List (List Char × ℕ)}
    (fresh : ∀ a ∈ attributes, seen.lookup a.key = none) {c : Cursor}
    (ahead : c.rest = attributes.flatMap Attribute.chars ++ spaces) :
    entriesFrom seen c = .ok (attributes.map Attribute.entry) := by
  induction attributes generalizing seen c with
  | nil =>
    have ended : (c.skipWhile isSpace).rest = [] := by
      rw [Cursor.rest_skipWhile, ahead]
      exact List.dropWhile_eq_nil_iff.2 blank
    rw [entriesFrom_eq]
    simp [Cursor.atEnd, ended]
  | cons a attributes ih =>
    obtain ⟨new, distinct⟩ := List.nodup_cons.1 distinct
    rw [List.flatMap_cons, List.append_assoc] at ahead
    obtain ⟨offset, next, behind, read⟩ :=
      exists_entriesFrom_attribute (well a List.mem_cons_self) ahead (fresh a List.mem_cons_self)
    have unseen : ∀ b ∈ attributes, ((a.key, offset) :: seen).lookup b.key = none := by
      intro b mem
      have other : b.key ≠ a.key := fun same => new (same ▸ List.mem_map_of_mem mem)
      rw [List.lookup_cons, beq_eq_false_iff_ne.2 other]
      exact fresh b (List.mem_cons_of_mem _ mem)
    rw [read, ih (fun b mem => well b (List.mem_cons_of_mem _ mem)) distinct unseen behind]
    rfl

end Attributes

/-! ### Tags -/

/-- A name that is written as it is. -/
structure IsName (name : List Char) : Prop where
  nonempty : name ≠ []
  bare : ∀ c ∈ name, isBare c = true
  noMark : ∀ c ∈ name.head?, c ≠ '!' ∧ c ≠ '?'

/-- A name ends where a space follows. -/
lemma IsName.takeWhile_append {name rest : List Char} (named : IsName name)
    (outside : ∀ c ∈ rest.head?, isSpace c = true) :
    (name ++ rest).takeWhile (!isSpace ·) = name ∧
      (name ++ rest).dropWhile (!isSpace ·) = rest := by
  have inside : ∀ c ∈ name, (!isSpace c) = true := fun c mem => by
    simp [isSpace_of_isBare (named.bare c mem)]
  have outside : ∀ c ∈ rest.head?, (!isSpace c) = false := fun c mem => by simp [outside c mem]
  exact ⟨Text.takeWhile_append_of_head? inside outside,
    Text.dropWhile_append_of_head? inside outside⟩

/-- A start tag as it is written, without its brackets and the slash that makes it childless. -/
structure Opening where
  name : List Char
  attributes : List Attribute
  spaces : List Char
deriving DecidableEq

namespace Opening

/-- The characters of a tag. -/
def chars (o : Opening) : List Char :=
  o.name ++ (o.attributes.flatMap Attribute.chars ++ o.spaces)

/-- The name and the attributes are well-formed, and only spaces follow. -/
structure WellFormed (o : Opening) : Prop where
  named : IsName o.name
  attributes : ∀ a ∈ o.attributes, a.WellFormed
  blank : ∀ c ∈ o.spaces, isSpace c = true

variable {o : Opening}

/-- What stands behind the name of a tag begins with a space. -/
lemma WellFormed.isSpace_of_mem_head? (well : o.WellFormed) :
    ∀ c ∈ (o.attributes.flatMap Attribute.chars ++ o.spaces).head?, isSpace c = true := by
  intro c mem
  cases attributes : o.attributes with
  | nil =>
    rw [attributes] at mem
    exact well.blank c (List.mem_of_mem_head? mem)
  | cons a later =>
    have first := well.attributes a (by simp [attributes])
    obtain ⟨x, xs, begins⟩ := List.exists_cons_of_ne_nil first.parted
    obtain rfl : x = c := by simpa [attributes, Attribute.chars, begins] using mem
    exact first.blank x (by simp [begins])

lemma WellFormed.name_chars (well : o.WellFormed) : (Tag.mk o.chars).name = o.name :=
  (well.named.takeWhile_append well.isSpace_of_mem_head?).1

lemma WellFormed.localName_chars (well : o.WellFormed) :
    (Tag.mk o.chars).localName = String.ofList (localName o.name) := by
  rw [Tag.localName, well.name_chars]

/-- The attributes of a tag are read as what they stand for, if no key comes twice. -/
lemma WellFormed.ofTag (well : o.WellFormed) (distinct : (o.attributes.map Attribute.key).Nodup) :
    Attributes.ofTag ⟨o.chars⟩ = .ok ⟨o.attributes.map Attribute.entry⟩ := by
  have ahead : ((Cursor.ofChars o.chars).skipWhile (!isSpace ·)).rest =
      o.attributes.flatMap Attribute.chars ++ o.spaces := by
    rw [Cursor.rest_skipWhile]
    exact (well.named.takeWhile_append well.isSpace_of_mem_head?).2
  rw [Attributes.ofTag, Attributes.entriesFrom_attributes well.attributes distinct well.blank
    (fun _ _ => rfl) ahead]
  rfl

end Opening

/-! ### Tags between brackets -/

/-- Characters of a tag that leave it open: a quote that begins among them ends among them. -/
def Open (cs : List Char) : Prop :=
  ∀ before rest, splitTag none before (cs ++ rest) = splitTag none (cs.reverse ++ before) rest

lemma Open.append {cs ds : List Char} (first : Open cs) (second : Open ds) : Open (cs ++ ds) := by
  intro before rest
  rw [List.append_assoc, first, second, List.reverse_append, List.append_assoc]

lemma open_nil : Open [] :=
  fun _ _ => rfl

lemma open_cons {c : Char} {cs : List Char} (bare : c ≠ '>' ∧ c ≠ '"' ∧ c ≠ '\'')
    (later : Open cs) : Open (c :: cs) := by
  intro before rest
  obtain ⟨noEnd, noQuote, noTick⟩ := bare
  rw [List.cons_append, splitTag]
  simp only [noEnd, noQuote, noTick, if_false, decide_false, Bool.or_self, Bool.false_eq_true]
  rw [later, List.reverse_cons, List.append_assoc, List.singleton_append]

lemma open_of_bare {cs : List Char} (bare : ∀ c ∈ cs, c ≠ '>' ∧ c ≠ '"' ∧ c ≠ '\'') : Open cs := by
  induction cs with
  | nil => exact open_nil
  | cons c cs ih =>
    obtain ⟨here, later⟩ := List.forall_mem_cons.1 bare
    exact open_cons here (ih later)

lemma open_of_blank {cs : List Char} (blank : ∀ c ∈ cs, isSpace c = true) : Open cs :=
  open_of_bare fun c mem => (ne_of_isSpace (blank c mem)).1

/-- A quoted text is passed over, whatever stands in it. -/
lemma splitTag_quoted {quote : Char} {text : List Char} (inside : quote ∉ text)
    (before rest : List Char) :
    splitTag (some quote) before (text ++ quote :: rest) =
      splitTag none (quote :: (text.reverse ++ before)) rest := by
  induction text generalizing before with
  | nil =>
    rw [List.nil_append, splitTag, if_pos rfl]
    rfl
  | cons c text ih =>
    rw [List.mem_cons, not_or] at inside
    rw [List.cons_append, splitTag, if_neg (Ne.symm inside.1), ih inside.2, List.reverse_cons,
      List.append_assoc, List.singleton_append]

lemma open_quoted {quote : Char} {text : List Char} (quoted : quote = '"' ∨ quote = '\'')
    (inside : quote ∉ text) : Open (quote :: (text ++ [quote])) := by
  intro before rest
  have start : splitTag none before (quote :: (text ++ [quote]) ++ rest) =
      splitTag (some quote) (quote :: before) (text ++ quote :: rest) := by
    rw [List.cons_append, List.append_assoc, splitTag]
    rcases quoted with rfl | rfl <;> rfl
  rw [start, splitTag_quoted inside]
  simp

lemma Attribute.WellFormed.isOpen {a : Attribute} (well : a.WellFormed) : Open a.chars := by
  have blank := well.blank
  simp only [List.forall_mem_append] at blank
  have key : Open a.key := open_of_bare fun c mem => (ne_of_isBare (well.bare c mem)).1
  have value : Open (a.quote :: (a.text ++ [a.quote])) :=
    open_quoted well.quoted (well.escaped.notMem well.quoted)
  have signed := open_cons (by decide : '=' ≠ '>' ∧ '=' ≠ '"' ∧ '=' ≠ '\'')
    ((open_of_blank blank.2.2).append value)
  exact (open_of_blank blank.1).append (key.append ((open_of_blank blank.2.1).append signed))

lemma splitTag_of_open {content : List Char} (isOpen : Open content) (rest : List Char) :
    splitTag none [] (content ++ '>' :: rest) = some content := by
  rw [isOpen, splitTag]
  simp

namespace Opening

variable {o : Opening}

lemma WellFormed.isOpen (well : o.WellFormed) : Open o.chars := by
  have name : Open o.name := open_of_bare fun c mem => (ne_of_isBare (well.named.bare c mem)).1
  have attributes : Open (o.attributes.flatMap Attribute.chars) := by
    have each := well.attributes
    generalize o.attributes = attributes at each
    induction attributes with
    | nil => exact open_nil
    | cons a attributes ih =>
      obtain ⟨first, later⟩ := List.forall_mem_cons.1 each
      exact first.isOpen.append (ih later)
  exact name.append (attributes.append (open_of_blank well.blank))

/-- No slash ends a tag, so that it is not taken for a childless one. -/
lemma WellFormed.getLast?_chars_ne (well : o.WellFormed) : o.chars.getLast? ≠ some '/' := by
  intro slash
  rw [chars, List.getLast?_append, List.getLast?_append] at slash
  cases spaces : o.spaces.getLast? with
  | some c =>
    obtain rfl : c = '/' := by simpa [spaces] using slash
    exact absurd (well.blank _ (List.mem_of_getLast? spaces)) (by decide)
  | none =>
    rw [spaces] at slash
    rcases List.eq_nil_or_concat o.attributes with none | ⟨front, a, attributes⟩
    · rw [none] at slash
      have mem := List.mem_of_getLast? (by simpa using slash)
      exact (ne_of_isBare (well.named.bare _ mem)).2 rfl
    · have quoted := (well.attributes a (by simp [attributes])).quoted
      have ends : a.quote = '/' := by
        simpa [attributes, Attribute.chars, List.getLast?_append, List.getLast?_cons] using slash
      rcases quoted with quote | quote <;> rw [quote] at ends <;> cases ends

/-- A tag begins with its name, so it is a start tag. -/
lemma WellFormed.scanItem_chars (well : o.WellFormed) (rest : List Char) :
    scanItem (o.chars ++ rest) = startTag (o.chars ++ rest) := by
  obtain ⟨c, cs, name⟩ := List.exists_cons_of_ne_nil well.named.nonempty
  obtain ⟨noMark, noQuestion⟩ := well.named.noMark c (by simp [name])
  have noSlash := (ne_of_isBare (well.named.bare c (by simp [name]))).2
  simp only [chars, name, List.cons_append]
  exact scanItem_eq_startTag noMark noQuestion noSlash

/-- A start tag ends behind its attributes. -/
lemma WellFormed.scanItem_start (well : o.WellFormed) (rest : List Char) :
    scanItem (o.chars ++ '>' :: rest) = .ok (.start ⟨o.chars⟩, o.chars.length + 1) := by
  rw [well.scanItem_chars, startTag, splitTag_of_open well.isOpen]
  dsimp only
  rw [if_neg well.getLast?_chars_ne]

/-- A tag without content ends in a slash. -/
lemma WellFormed.scanItem_childless (well : o.WellFormed) (rest : List Char) :
    scanItem (o.chars ++ '/' :: '>' :: rest) =
      .ok (.childless ⟨o.chars⟩, o.chars.length + 2) := by
  have slash : Open (o.chars ++ ['/']) := well.isOpen.append (open_of_bare (by simp))
  have ended : o.chars ++ '/' :: '>' :: rest = (o.chars ++ ['/']) ++ '>' :: rest := by simp
  rw [well.scanItem_chars, startTag, ended, splitTag_of_open slash]
  simp

end Opening

/-- An end tag is that of its name, up to spaces at its end. -/
lemma scanItem_stop {name spaces : List Char} (named : IsName name)
    (blank : ∀ c ∈ spaces, isSpace c = true) (rest : List Char) :
    scanItem ('/' :: (name ++ (spaces ++ '>' :: rest))) =
      .ok (.stop name, name.length + spaces.length + 2) := by
  have bare : Open name := open_of_bare fun c mem => (ne_of_isBare (named.bare c mem)).1
  have isOpen : Open (name ++ spaces) := bare.append (open_of_blank blank)
  have last : ∀ c ∈ name.reverse.head?, isSpace c = false := fun c mem =>
    isSpace_of_isBare (named.bare c (List.mem_reverse.1 (List.mem_of_mem_head? mem)))
  have trimmed : Text.dropEndWhile isSpace (name ++ spaces) = name := by
    rw [Text.dropEndWhile, List.reverse_append,
      Text.dropWhile_append_of_head? (fun c mem => blank c (List.mem_reverse.1 mem)) last,
      List.reverse_reverse]
  have same : stopName (name ++ spaces) = name := by
    obtain ⟨c, cs, start⟩ := List.exists_cons_of_ne_nil named.nonempty
    rw [stopName, trimmed, start]
  rw [scanItem, stopTag, ← List.append_assoc, splitTag_of_open isOpen]
  dsimp only
  rw [same, List.length_append]

end Markup

end Toolpath
