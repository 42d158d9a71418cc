import Toolpath.Proofs.Markup.Attributes

/-!
# Reading markup that was written

A tag is written as its name and its attributes, each value in double quotes and without anything to
escape. Such a tag is well-formed (`Opening.wellFormed_written`), so it is found between its
brackets and its attributes are read back. `Reads` says which events a text is read as from a place
on, whatever stands before the place.
-/

namespace Toolpath

namespace Markup

open Text (Cursor isSpace)

/-! ### Tags -/

/-- A value that is written as it is. -/
def IsValue (value : List Char) : Prop :=
  ∀ c ∈ value, c ≠ '"' ∧ c ≠ '&'

lemma IsValue.append {value value' : List Char} (first : IsValue value) (second : IsValue value') :
    IsValue (value ++ value') :=
  fun c mem => (List.mem_append.1 mem).elim (first c) (second c)

lemma IsValue.cons {c : Char} {value : List Char} (later : IsValue value)
    (plain : c ≠ '"' ∧ c ≠ '&') : IsValue (c :: value) :=
  List.forall_mem_cons.2 ⟨plain, later⟩

/-- A key and a value that are written as they are. -/
structure Writable (entry : List Char × List Char) : Prop where
  key : entry.1 ≠ []
  bare : ∀ c ∈ entry.1, isBare c = true
  value : IsValue entry.2

/-- An attribute as it is written behind what stands before it. -/
def entryChars (entry : List Char × List Char) : List Char :=
  ' ' :: (entry.1 ++ '=' :: '"' :: (entry.2 ++ ['"']))

/-- The content of a tag with a name and attributes. -/
def tagChars (name : List Char) (entries : List (List Char × List Char)) : List Char :=
  name ++ entries.flatMap entryChars

/-- The attribute that is written for an entry. -/
def Attribute.written (entry : List Char × List Char) : Attribute :=
  ⟨[' '], entry.1, [], [], '"', entry.2, entry.2⟩

lemma Writable.wellFormed {entry : List Char × List Char} (well : Writable entry) :
    (Attribute.written entry).WellFormed where
  parted := List.cons_ne_nil _ _
  blank := by simp [Attribute.written, isSpace]
  named := well.key
  bare := well.bare
  quoted := .inl rfl
  escaped := .of_plain well.value

/-- The tag that is written for a name and entries. -/
def Opening.written (name : List Char) (entries : List (List Char × List Char))
    (spaces : List Char) : Opening :=
  ⟨name, entries.map .written, spaces⟩

section Tags

variable {name : List Char} {entries : List (List Char × List Char)} {spaces : List Char}

lemma Opening.chars_written :
    (Opening.written name entries spaces).chars = tagChars name entries ++ spaces := by
  have attributes : (entries.map Attribute.written).flatMap Attribute.chars =
      entries.flatMap entryChars := List.flatMap_map ..
  simp [Opening.chars, Opening.written, tagChars, attributes]

lemma Opening.wellFormed_written (named : IsName name) (well : ∀ a ∈ entries, Writable a)
    (blank : ∀ c ∈ spaces, isSpace c = true) :
    (Opening.written name entries spaces).WellFormed where
  named := named
  attributes a mem := by
    obtain ⟨entry, written, rfl⟩ := List.mem_map.1 mem
    exact (well entry written).wellFormed
  blank := blank

lemma name_tagChars (named : IsName name) (blank : ∀ x ∈ spaces, isSpace x = true) :
    (Tag.mk (tagChars name entries ++ spaces)).name = name := by
  have outside : ∀ x ∈ (entries.flatMap entryChars ++ spaces).head?, isSpace x = true := by
    intro x mem
    cases entries with
    | nil => exact blank x (List.mem_of_mem_head? mem)
    | cons a entries =>
      obtain rfl : ' ' = x := by simpa [entryChars] using mem
      rfl
  rw [Tag.name, tagChars, List.append_assoc]
  exact (named.takeWhile_append outside).1

/-- The attributes of a tag are read as they were written. -/
lemma Attributes.ofTag_written (named : IsName name) (well : ∀ a ∈ entries, Writable a)
    (distinct : (entries.map Prod.fst).Nodup) (blank : ∀ x ∈ spaces, isSpace x = true) :
    Attributes.ofTag ⟨tagChars name entries ++ spaces⟩ =
      .ok ⟨entries.map fun a => (String.ofList a.1, String.ofList a.2)⟩ := by
  have keys : (entries.map Attribute.written).map Attribute.key = entries.map Prod.fst :=
    List.map_map
  have read := (Opening.wellFormed_written named well blank).ofTag (keys ▸ distinct)
  rw [Opening.chars_written] at read
  rw [read, Opening.written, List.map_map]
  rfl

/-- A start tag ends behind its attributes. -/
lemma scanItem_startTag (named : IsName name) (well : ∀ a ∈ entries, Writable a)
    (rest : List Char) :
    scanItem (tagChars name entries ++ '>' :: rest) =
      .ok (.start ⟨tagChars name entries⟩, (tagChars name entries).length + 1) := by
  have blank : ∀ c ∈ [], isSpace c = true := List.forall_mem_nil _
  have scanned := (Opening.wellFormed_written named well blank).scanItem_start rest
  rwa [Opening.chars_written, List.append_nil] at scanned

/-- A tag without content ends in a slash. -/
lemma scanItem_childlessTag (named : IsName name) (well : ∀ a ∈ entries, Writable a)
    (rest : List Char) :
    scanItem (tagChars name entries ++ ' ' :: '/' :: '>' :: rest) =
      .ok (.childless ⟨tagChars name entries ++ [' ']⟩, (tagChars name entries).length + 3) := by
  have blank : ∀ c ∈ [' '], isSpace c = true := by simp [isSpace]
  have scanned := (Opening.wellFormed_written named well blank).scanItem_childless rest
  simpa [Opening.chars_written] using scanned

/-- An end tag is that of its name. -/
lemma scanItem_stopTag (named : IsName name) (rest : List Char) :
    scanItem ('/' :: (name ++ '>' :: rest)) = .ok (.stop name, name.length + 2) :=
  scanItem_stop named (List.forall_mem_nil _) rest

end Tags

/-! ### Items that are passed over -/

lemma splitAtClose_append {ends : List Char → Bool} {content before : List Char}
    (inside : ∀ c ∈ content, c ≠ '>') (ended : ends (content.reverse ++ before) = true)
    (rest : List Char) :
    splitAtClose ends before (content ++ '>' :: rest) = some (before.reverse ++ content) := by
  induction content generalizing before with
  | nil =>
    rw [List.reverse_nil, List.nil_append] at ended
    simp [splitAtClose, ended]
  | cons c content ih =>
    have other : c ≠ '>' := inside c List.mem_cons_self
    rw [List.reverse_cons, List.append_assoc, List.singleton_append] at ended
    rw [List.cons_append, splitAtClose, ih (fun d mem => inside d (List.mem_cons_of_mem c mem)) ended]
    simp [other]

/-- An instruction ends with the first question mark before a bracket. -/
lemma scanItem_instruction {content : List Char} (inside : ∀ c ∈ content, c ≠ '>')
    (rest : List Char) :
    scanItem ('?' :: (content ++ '?' :: '>' :: rest)) = .ok (.skipped, content.length + 3) := by
  have whole : ∀ c ∈ '?' :: (content ++ ['?']), c ≠ '>' := by
    intro c mem
    simp only [List.mem_cons, List.mem_append] at mem
    rcases mem with rfl | mem | rfl | never
    · decide
    · exact inside c mem
    · decide
    · cases never
  have found : splitAtClose endsInstruction [] ('?' :: (content ++ ['?']) ++ '>' :: rest) = _ :=
    splitAtClose_append whole (by simp [endsInstruction]) rest
  have text : '?' :: (content ++ '?' :: '>' :: rest) = '?' :: (content ++ ['?']) ++ '>' :: rest := by
    simp
  change skip (splitAtClose endsInstruction [] _) .instructionNotClosed (· != ['?']) = _
  rw [text, found, skip]
  simp

lemma splitDeclaration_append {content : List Char} (inside : ∀ c ∈ content, c ≠ '<' ∧ c ≠ '>')
    (before rest : List Char) :
    splitDeclaration 0 before (content ++ '>' :: rest) = some (before.reverse ++ content) := by
  induction content generalizing before with
  | nil => simp [splitDeclaration]
  | cons c content ih =>
    obtain ⟨noOpen, noClose⟩ := inside c List.mem_cons_self
    rw [List.cons_append, splitDeclaration, ih fun d mem => inside d (List.mem_cons_of_mem c mem)]
    · simp
    · exact noOpen
    · exact noClose

/-- A document type that has a name. -/
lemma scanItem_doctype {content : List Char} (inside : ∀ c ∈ content, c ≠ '<' ∧ c ≠ '>')
    (named : content.all isSpace = false) (rest : List Char) :
    scanItem ("!DOCTYPE".toList ++ content ++ '>' :: rest) = .ok (.skipped, content.length + 9) := by
  have keyword : ∀ c ∈ "!DOCTYPE".toList, c ≠ '<' ∧ c ≠ '>' := by simp
  have whole : ∀ c ∈ "!DOCTYPE".toList ++ content, c ≠ '<' ∧ c ≠ '>' := fun c mem =>
    (List.mem_append.1 mem).elim (keyword c) (inside c)
  change doctype ("!DOCTYPE".toList ++ content ++ '>' :: rest) = _
  rw [doctype, splitDeclaration_append whole]
  simp [named]

/-! ### Events -/

/-- The text ahead is read as these events inside these elements, whatever stands before it. -/
def Reads (names : List (List Char)) (cs : List Char) (events : List Event) : Prop :=
  ∀ c : Cursor, c.rest = cs → Reading.from names c = ⟨events, none⟩

/-- What an item says. -/
def Item.events : Item → List Event
  | .start tag => [.start tag]
  | .childless tag => [.childless tag]
  | .stop _ => [.stop]
  | .skipped => []

/-- Behind an item other elements are open than before it. -/
inductive Item.Passes : List (List Char) → Item → List (List Char) → Prop
  | start {names : List (List Char)} {tag : Tag} : Passes names (.start tag) (tag.name :: names)
  | childless {names : List (List Char)} {tag : Tag} : Passes names (.childless tag) names
  | stop {names : List (List Char)} {name : List Char} : Passes (name :: names) (.stop name) names
  | skipped {names : List (List Char)} : Passes names .skipped names

/-- Text without an item. -/
lemma reads_text {names : List (List Char)} {cs : List Char} (plain : ∀ c ∈ cs, c ≠ '<') :
    Reads names cs [] := by
  intro c ahead
  have ended : (c.skipWhile (· != '<')).rest = [] := by
    rw [Cursor.rest_skipWhile, ahead]
    exact List.dropWhile_eq_nil_iff.2 fun x mem => by simpa using plain x mem
  rw [Reading.from]
  split
  next => rfl
  next more =>
    rw [ended] at more
    cases more

/-- An item, and what is read behind it. -/
lemma Reads.item {names names' : List (List Char)} {front cs : List Char} {item : Item} {n : ℕ}
    {events : List Event} (later : Reads names' (cs.drop n) events)
    (plain : ∀ c ∈ front, c ≠ '<') (scanned : scanItem cs = .ok (item, n))
    (passes : item.Passes names names') :
    Reads names (front ++ '<' :: cs) (item.events ++ events) := by
  intro c ahead
  have start : (c.skipWhile (· != '<')).rest = '<' :: cs := by
    rw [Cursor.rest_skipWhile, ahead]
    exact Text.dropWhile_append_of_head? (fun x mem => by simpa using plain x mem) (by simp)
  have behind := later ((c.skipWhile (· != '<')).advance (n + 1))
    (by rw [Cursor.rest_advance, start, List.drop_succ_cons])
  rw [Reading.from]
  split
  next none =>
    rw [start] at none
    cases none
  next x cs' found =>
    rw [start] at found
    obtain ⟨rfl, rfl⟩ := List.cons.inj found
    simp only [scanned]
    cases passes with
    | start => exact congrArg (Reading.cons _) behind
    | childless => exact congrArg (Reading.cons _) behind
    | stop =>
      dsimp only
      rw [if_pos rfl]
      exact congrArg (Reading.cons _) behind
    | skipped => exact behind

section Reads

variable {names : List (List Char)} {name front rest : List Char} {events : List Event}
  {entries : List (List Char × List Char)}

lemma Reads.startTag (later : Reads (name :: names) rest events) (named : IsName name)
    (well : ∀ a ∈ entries, Writable a) (plain : ∀ c ∈ front, c ≠ '<') :
    Reads names (front ++ '<' :: (tagChars name entries ++ '>' :: rest))
      (.start ⟨tagChars name entries⟩ :: events) := by
  have tagName : (Tag.mk (tagChars name entries ++ [])).name = name := name_tagChars named (by simp)
  refine Reads.item ?_ plain (scanItem_startTag named well rest) .start
  rw [List.append_nil] at tagName
  rw [tagName, ← List.drop_drop, List.drop_left]
  exact later

lemma Reads.childlessTag (later : Reads names rest events) (named : IsName name)
    (well : ∀ a ∈ entries, Writable a) (plain : ∀ c ∈ front, c ≠ '<') :
    Reads names (front ++ '<' :: (tagChars name entries ++ ' ' :: '/' :: '>' :: rest))
      (.childless ⟨tagChars name entries ++ [' ']⟩ :: events) := by
  refine Reads.item ?_ plain (scanItem_childlessTag named well rest) .childless
  rw [← List.drop_drop, List.drop_left]
  exact later

lemma Reads.stopTag (later : Reads names rest events) (named : IsName name)
    (plain : ∀ c ∈ front, c ≠ '<') :
    Reads (name :: names) (front ++ '<' :: '/' :: (name ++ '>' :: rest)) (.stop :: events) := by
  refine Reads.item ?_ plain (scanItem_stopTag named rest) .stop
  rw [List.drop_succ_cons, ← List.drop_drop, List.drop_left]
  exact later

lemma Reads.instruction {content : List Char} (later : Reads names rest events)
    (inside : ∀ c ∈ content, c ≠ '>') (plain : ∀ c ∈ front, c ≠ '<') :
    Reads names (front ++ '<' :: '?' :: (content ++ '?' :: '>' :: rest)) events := by
  refine Reads.item ?_ plain (scanItem_instruction inside rest) .skipped
  rw [List.drop_succ_cons, ← List.drop_drop, List.drop_left]
  exact later

lemma Reads.doctype {content : List Char} (later : Reads names rest events)
    (inside : ∀ c ∈ content, c ≠ '<' ∧ c ≠ '>') (named : content.all isSpace = false)
    (plain : ∀ c ∈ front, c ≠ '<') :
    Reads names (front ++ '<' :: ("!DOCTYPE".toList ++ content ++ '>' :: rest)) events := by
  refine Reads.item ?_ plain (scanItem_doctype inside named rest) .skipped
  have size : content.length + 9 = ("!DOCTYPE".toList ++ content).length + 1 := by simp
  rw [size, ← List.drop_drop, List.drop_left]
  exact later

end Reads

end Markup

end Toolpath
