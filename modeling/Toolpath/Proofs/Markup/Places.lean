import Toolpath.Proofs.Markup.Items
import Toolpath.Proofs.Markup.Written

/-!
# Places in a text

A place of a text is between its items if what stands before it is read without a fault. `Passage`
says what such a part of a text is read as, and inside which elements it ends, without the offsets
that the reader counts. A text without a fault is one passage (`Reading.ofText_iff`), passages one
behind another are one (`Passage.append`), and a passage at the front of one can be taken off it
(`Passage.behind`): an item is found at its first bracket and does not look behind its last one.
So anything that is a passage itself can be put at a place between items.
-/

namespace Toolpath

namespace Markup

open Text (Cursor)

/-- A text of whole items, from inside the first elements to inside the others, is read as these
events. -/
inductive Passage : List (List Char) → List Char → List Event → List (List Char) → Prop
  | text {names : List (List Char)} {cs : List Char} (plain : ∀ c ∈ cs, c ≠ '<') :
    Passage names cs [] names
  | item {names names' names'' : List (List Char)} {front cs : List Char} {item : Item} {n : ℕ}
    {events : List Event} (plain : ∀ c ∈ front, c ≠ '<') (scanned : scanItem cs = .ok (item, n))
    (passes : item.Passes names names') (later : Passage names' (cs.drop n) events names'') :
    Passage names (front ++ '<' :: cs) (item.events ++ events) names''

/-- An item is passed into one state of the open elements. -/
lemma Item.Passes.unique {item : Item} {names names' names'' : List (List Char)}
    (passes : item.Passes names names') (other : item.Passes names names'') : names' = names'' := by
  cases passes <;> cases other <;> rfl

/-- The first bracket of a text is in one place. -/
lemma front_unique {front front' cs cs' : List Char} (plain : ∀ c ∈ front, c ≠ '<')
    (plain' : ∀ c ∈ front', c ≠ '<') (same : front ++ '<' :: cs = front' ++ '<' :: cs') :
    front = front' ∧ cs = cs' := by
  have before {front : List Char} (plain : ∀ c ∈ front, c ≠ '<') (cs : List Char) :
      (front ++ '<' :: cs).takeWhile (· != '<') = front :=
    Text.takeWhile_append_of_head? (fun c mem => by simpa using plain c mem) (by simp)
  have fronts : front = front' := by
    rw [← before plain cs, same, before plain' cs']
  subst fronts
  exact ⟨rfl, (List.cons.inj (List.append_cancel_left same)).2⟩

namespace Passage

variable {names names' names'' : List (List Char)} {front back cs : List Char}
  {events more all : List Event} {item : Item} {n : ℕ}

/-! ### Passages one behind another -/

/-- An item at the front of a text. -/
lemma at_front (scanned : scanItem cs = .ok (item, n)) (passes : item.Passes names names')
    (later : Passage names' (cs.drop n) events names'') :
    Passage names ('<' :: cs) (item.events ++ events) names'' := by
  have none_before : ∀ c ∈ ([] : List Char), c ≠ '<' := List.forall_mem_nil _
  exact .item none_before scanned passes later

lemma text_append (passage : Passage names cs events names') (plain : ∀ c ∈ front, c ≠ '<') :
    Passage names (front ++ cs) events names' := by
  cases passage with
  | text plain' => exact .text fun c mem => (List.mem_append.1 mem).elim (plain c) (plain' c)
  | item plain' scanned passes later =>
    rw [← List.append_assoc]
    refine .item (fun c mem => ?_) scanned passes later
    exact (List.mem_append.1 mem).elim (plain c) (plain' c)

lemma append (first : Passage names front events names')
    (second : Passage names' back more names'') :
    Passage names (front ++ back) (events ++ more) names'' := by
  induction first with
  | text plain => exact second.text_append plain
  | @item names names₁ names₂ front cs item n events plain scanned passes later ih =>
    have behind := ih second
    rw [← List.drop_append_of_le_length (length_of_scanItem scanned)] at behind
    rw [List.append_assoc, List.append_assoc]
    exact .item plain (scanItem_extend scanned back) passes behind

/-! ### What is behind a passage -/

lemma tail {c : Char} (passage : Passage names (c :: cs) events names') (plain : c ≠ '<') :
    Passage names cs events names' := by
  generalize whole : c :: cs = text at passage
  cases passage with
  | text plain' =>
    subst whole
    exact .text fun d mem => plain' d (List.mem_cons_of_mem c mem)
  | @item _ _ _ front _ _ _ _ plain' scanned passes later =>
    cases front with
    | nil => exact absurd (List.cons.inj whole).1 plain
    | cons d front =>
      obtain ⟨_, rfl⟩ := List.cons.inj whole
      exact .item (fun x mem => plain' x (List.mem_cons_of_mem d mem)) scanned passes later

lemma behind_text (passage : Passage names (front ++ cs) events names')
    (plain : ∀ c ∈ front, c ≠ '<') : Passage names cs events names' := by
  induction front with
  | nil => exact passage
  | cons c front ih =>
    obtain ⟨here, later⟩ := List.forall_mem_cons.1 plain
    exact ih (passage.tail here) later

/-- A passage that begins with an item is that item and a passage behind it. -/
lemma behind_item (passage : Passage names (front ++ '<' :: cs) all names'')
    (plain : ∀ c ∈ front, c ≠ '<') (scanned : scanItem cs = .ok (item, n))
    (passes : item.Passes names names') :
    ∃ later, all = item.events ++ later ∧ Passage names' (cs.drop n) later names'' := by
  generalize whole : front ++ '<' :: cs = text at passage
  cases passage with
  | text clean => exact absurd rfl (clean '<' (by simp [← whole]))
  | item clean scanned' passes' later =>
    obtain ⟨rfl, rfl⟩ := front_unique plain clean whole
    obtain ⟨rfl, rfl⟩ := Prod.mk.inj (Except.ok.inj (scanned.symm.trans scanned'))
    obtain rfl := passes.unique passes'
    exact ⟨_, rfl, later⟩

/-- A passage at the front of another one leaves a passage behind it. -/
lemma behind (first : Passage names front events names')
    (passage : Passage names (front ++ back) all names'') :
    ∃ later, all = events ++ later ∧ Passage names' back later names'' := by
  induction first generalizing all with
  | text plain => exact ⟨all, rfl, passage.behind_text plain⟩
  | @item names names₁ names₂ front cs item n events plain scanned passes later ih =>
    rw [List.append_assoc, List.cons_append] at passage
    obtain ⟨inner, rfl, behind⟩ :=
      passage.behind_item plain (scanItem_extend scanned back) passes
    rw [List.drop_append_of_le_length (length_of_scanItem scanned)] at behind
    obtain ⟨later, rfl, outer⟩ := ih behind
    exact ⟨later, (List.append_assoc ..).symm, outer⟩

/-! ### Passages and the reader -/

lemma reads (passage : Passage names cs events names') : Reads names cs events := by
  induction passage with
  | text plain => exact reads_text plain
  | item plain scanned passes _ ih => exact ih.item plain scanned passes

/-- What stands ahead of a cursor, if an item is found there. -/
lemma of_item {c : Cursor} {x : Char} (ahead : (c.skipWhile (· != '<')).rest = x :: cs)
    (scanned : scanItem cs = .ok (item, n)) (passes : item.Passes names names')
    (later : Passage names' ((c.skipWhile (· != '<')).advance (n + 1)).rest events names'') :
    Passage names c.rest (item.events ++ events) names'' := by
  have whole := List.takeWhile_append_dropWhile (p := (· != '<')) (l := c.rest)
  have bracket : x = '<' := by
    have head := List.head?_dropWhile_not (· != '<') c.rest
    rw [← Cursor.rest_skipWhile, ahead] at head
    simpa using head
  rw [Cursor.rest_advance, ahead, List.drop_succ_cons] at later
  rw [← Cursor.rest_skipWhile, ahead, bracket] at whole
  rw [← whole]
  refine .item (fun y mem => ?_) scanned passes later
  simpa using List.mem_takeWhile_imp mem

end Passage

/-- What is read without a fault is a passage. -/
lemma exists_passage {names : List (List Char)} {c : Cursor} :
    (Reading.from names c).fault = none →
      ∃ names', Passage names c.rest (Reading.from names c).events names' := by
  fun_induction Reading.from names c with
  | case1 names c start ended =>
    intro sound
    have plain := List.dropWhile_eq_nil_iff.1 ((Cursor.rest_skipWhile _ c).symm.trans ended)
    exact ⟨names, .text fun x mem => by simpa using plain x mem⟩
  | case2 | case6 | case8 => exact fun sound => nomatch sound
  | case3 names c start x cs ahead n next scanned ih =>
    intro sound
    obtain ⟨names', later⟩ := ih sound
    exact ⟨names', .of_item ahead scanned .skipped later⟩
  | case4 names c start x cs ahead n next tag scanned ih =>
    intro sound
    obtain ⟨names', later⟩ := ih sound
    exact ⟨names', .of_item ahead scanned .childless later⟩
  | case5 names c start x cs ahead n next tag scanned ih =>
    intro sound
    obtain ⟨names', later⟩ := ih sound
    exact ⟨names', .of_item ahead scanned .start later⟩
  | case7 c start x cs ahead n next name names scanned ih =>
    intro sound
    obtain ⟨names', later⟩ := ih sound
    exact ⟨names', .of_item ahead scanned .stop later⟩

/-- A text is read without a fault exactly if it is a passage from outside all elements. A byte
order mark before it is text like any other. -/
theorem Reading.ofText_iff {text : String} {events : List Event} :
    Reading.ofText text = ⟨events, none⟩ ↔ ∃ names, Passage [] text.toList events names := by
  unfold Reading.ofText
  constructor
  · split
    next cs marked =>
      intro read
      obtain ⟨names, passage⟩ := exists_passage (congrArg Reading.fault read)
      rw [read] at passage
      rw [marked]
      have plain : ∀ c ∈ ['\uFEFF'], c ≠ '<' := by simp
      exact ⟨names, passage.text_append plain⟩
    next =>
      intro read
      obtain ⟨names, passage⟩ := exists_passage (congrArg Reading.fault read)
      rw [read] at passage
      exact ⟨names, passage⟩
  · rintro ⟨names, passage⟩
    split
    next cs marked =>
      rw [marked] at passage
      exact (passage.tail (by decide)).reads _ rfl
    next => exact passage.reads _ rfl

/-! ### Elements without content -/

/-- An element without content is written as one tag, or as a start tag with its end tag. -/
inductive Opening.Writes (o : Opening) : List Char → List Event → Prop
  | childless : Writes o ('<' :: (o.chars ++ ['/', '>'])) [.childless ⟨o.chars⟩]
  | ended {spaces : List Char} (blank : ∀ c ∈ spaces, Text.isSpace c = true) :
    Writes o ('<' :: (o.chars ++ '>' :: '<' :: '/' :: (o.name ++ (spaces ++ ['>']))))
      [.start ⟨o.chars⟩, .stop]

/-- An element without content can stand inside any elements. -/
lemma Opening.WellFormed.passage {o : Opening} (well : o.WellFormed) {cs : List Char}
    {events : List Event} (writes : o.Writes cs events) (names : List (List Char)) :
    Passage names cs events names := by
  cases writes with
  | childless =>
    refine .at_front (well.scanItem_childless []) .childless (.text ?_)
    rw [← List.drop_drop, List.drop_left]
    exact List.forall_mem_nil _
  | @ended spaces blank =>
    have stop : Passage (o.name :: names) ('<' :: '/' :: (o.name ++ (spaces ++ ['>']))) [.stop]
        names := by
      refine .at_front (scanItem_stop well.named blank []) .stop (.text ?_)
      rw [List.drop_succ_cons, ← List.append_assoc, ← List.length_append, ← List.drop_drop,
        List.drop_left]
      exact List.forall_mem_nil _
    refine .at_front (well.scanItem_start _) .start ?_
    rw [well.name_chars, ← List.drop_drop, List.drop_left]
    exact stop

end Markup

end Toolpath
