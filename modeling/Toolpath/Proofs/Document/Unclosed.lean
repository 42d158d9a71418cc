import Toolpath.Proofs.Document.Tree
import Toolpath.Proofs.Markup.Items

/-!
# Documents that are cut off

A text that ends between tags reads without a fault, however many elements are open by then, and
nothing else asks whether they were closed. Such a text comes to what it would come to with the
missing end tags behind it; only a text that ends inside a piece of markup is refused. Both are in
`Document.result_of_cut_off`.

Everything goes back to `openAfter`, how many elements are open behind some events: the reader hands
out no end tag too many, the walk has one map for each open element, and events with the missing
ends behind them spell a forest.
-/

namespace Toolpath

namespace Markup

open Text (Cursor)

/-! ### Elements left open -/

/-- How many elements are open behind some events, if this many are open before them. There is no
answer if an end tag closes nothing. -/
def openAfter : ℕ → List Event → Option ℕ
  | n, [] => some n
  | n, .start _ :: events => openAfter (n + 1) events
  | n, .childless _ :: events => openAfter n events
  | 0, .stop :: _ => none
  | n + 1, .stop :: events => openAfter n events

/-- No end tag is handed out that closes nothing, also not before a fault. -/
lemma exists_openAfter_from (names : List (List Char)) (c : Cursor) :
    ∃ n, openAfter names.length (Reading.from names c).events = some n := by
  fun_induction Reading.from names c with
  | case1 | case2 | case6 | case8 => exact ⟨_, rfl⟩
  | case3 | case4 | case5 | case7 => assumption

lemma exists_openAfter (text : String) :
    ∃ n, openAfter 0 (Reading.ofText text).events = some n := by
  unfold Reading.ofText
  split <;> exact exists_openAfter_from [] _

/-! ### Markup left open -/

/-- What begins with a character outside a class stays ahead when the class is skipped. -/
lemma suffix_dropWhile {p : Char → Bool} {x : Char} {xs cs : List Char} (outside : p x = false)
    (ahead : x :: xs <:+ cs) : x :: xs <:+ cs.dropWhile p := by
  induction cs with
  | nil => cases List.suffix_nil.1 ahead
  | cons c cs ih =>
    rcases List.suffix_cons_iff.1 ahead with same | later
    · obtain ⟨rfl, rfl⟩ := List.cons.inj same
      rw [List.dropWhile_cons, outside]
      exact List.suffix_rfl
    · rw [List.dropWhile_cons]
      split
      · exact ih later
      · exact ahead

/-- An item does not reach into characters without a closing bracket. -/
lemma suffix_of_scanItem {cs back : List Char} {item : Item} {n : ℕ}
    (scanned : scanItem cs = .ok (item, n)) (unclosed : '>' ∉ back)
    (ahead : '<' :: back <:+ '<' :: cs) : '<' :: back <:+ cs.drop n := by
  obtain ⟨content, rest, rfl, rfl⟩ := exists_of_scanItem scanned
  have notHere : '>' ∉ '<' :: back := by simp [unclosed]
  have inside : '>' ∈ content ++ '>' :: rest := by simp
  rw [← List.drop_drop, List.drop_left, List.drop_one, List.tail_cons]
  rcases List.suffix_cons_iff.1 ahead with same | later
  · rw [(List.cons.inj same).2] at unclosed
    exact absurd inside unclosed
  · rcases List.suffix_or_suffix_of_suffix later (List.suffix_append content _) with inner | outer
    · rcases List.suffix_cons_iff.1 inner with same | behind
      · cases same
      · exact behind
    · exact absurd (outer.mem List.mem_cons_self) notHere

/-- Nor does one that is found further on. -/
lemma suffix_behind {c : Cursor} {back cs : List Char} {x : Char} {item : Item} {n : ℕ}
    (found : (c.skipWhile (· != '<')).rest = x :: cs) (scanned : scanItem cs = .ok (item, n))
    (unclosed : '>' ∉ back) (ahead : '<' :: back <:+ c.rest) :
    '<' :: back <:+ ((c.skipWhile (· != '<')).advance (n + 1)).rest := by
  have bracket : x = '<' := by
    have head := List.head?_dropWhile_not (· != '<') c.rest
    rw [← Cursor.rest_skipWhile, found] at head
    simpa using head
  have here : '<' :: back <:+ '<' :: cs := by
    rw [← bracket, ← found, Cursor.rest_skipWhile, bracket]
    exact suffix_dropWhile (by simp) ahead
  rw [Cursor.rest_advance, found, List.drop_succ_cons]
  exact suffix_of_scanItem scanned unclosed here

/-- A text that ends inside a piece of markup has a fault. -/
lemma exists_fault_from {back : List Char} (unclosed : '>' ∉ back) (names : List (List Char))
    (c : Cursor) (ahead : '<' :: back <:+ c.rest) :
    ∃ fault, (Reading.from names c).fault = some fault := by
  fun_induction Reading.from names c with
  | case1 names c start none =>
    have bad := suffix_dropWhile (p := (· != '<')) rfl ahead
    rw [← Cursor.rest_skipWhile, none] at bad
    cases List.suffix_nil.1 bad
  | case2 | case6 | case8 => exact ⟨_, rfl⟩
  | case3 _ _ _ _ _ found _ _ scanned ih | case4 _ _ _ _ _ found _ _ _ scanned ih
  | case5 _ _ _ _ _ found _ _ _ scanned ih | case7 _ _ _ _ found _ _ _ _ scanned ih =>
    exact ih (suffix_behind found scanned unclosed ahead)

/-- A text that ends behind a bracket that is not closed has a fault. -/
lemma exists_fault {text : String} {front back : List Char}
    (cut : text.toList = front ++ '<' :: back) (unclosed : '>' ∉ back) :
    ∃ fault, (Reading.ofText text).fault = some fault := by
  unfold Reading.ofText
  have ahead : '<' :: back <:+ text.toList := ⟨front, cut.symm⟩
  split
  next cs marked =>
    rw [marked] at ahead
    rcases List.suffix_cons_iff.1 ahead with same | later
    · cases same
    · exact exists_fault_from unclosed [] _ later
  next => exact exists_fault_from unclosed [] _ ahead

end Markup

namespace Svg

open Markup (Event openAfter)

/-! ### Missing end tags -/

/-- Events that spell a forest on each of some levels, the innermost first, with an end tag between
one level and the next. -/
inductive SpellLevels : ℕ → List Event → Prop
  | outermost {forest : Forest} {events : List Event} (spells : forest.Spells events) :
      SpellLevels 0 events
  | inner {n : ℕ} {forest : Forest} {es fs : List Event} (spells : forest.Spells es)
      (outer : SpellLevels n fs) : SpellLevels (n + 1) (es ++ .stop :: fs)

namespace SpellLevels

variable {n : ℕ} {events : List Event}

lemma replicate_stop (n : ℕ) : SpellLevels n (List.replicate n .stop) := by
  induction n with
  | zero => exact .outermost .empty
  | succ n ih => exact .inner .empty ih

lemma childless (levels : SpellLevels n events) (tag : Markup.Tag) :
    SpellLevels n (.childless tag :: events) := by
  cases levels with
  | outermost spells => exact .outermost (.childless spells)
  | inner spells outer => exact .inner (.childless spells) outer

/-- A start tag takes the innermost level into the one around it. -/
lemma start (levels : SpellLevels (n + 1) events) (tag : Markup.Tag) :
    SpellLevels n (.start tag :: events) := by
  cases levels with
  | inner within outer =>
    cases outer with
    | outermost behind => exact .outermost (.element within behind)
    | inner behind outer =>
      have joined : Forest.Spells (.element tag _ _) _ := .element within behind
      simpa using SpellLevels.inner joined outer

/-- With the missing end tags behind them, events spell every level. -/
lemma of_openAfter {n unclosed : ℕ} {events : List Event}
    (counted : openAfter n events = some unclosed) :
    SpellLevels n (events ++ List.replicate unclosed .stop) := by
  fun_induction openAfter n events with
  | case1 n =>
    rw [Option.some.inj counted]
    exact replicate_stop _
  | case2 n tag events ih => exact (ih counted).start tag
  | case3 n tag events ih => exact (ih counted).childless tag
  | case4 => cases counted
  | case5 n events ih => exact .inner .empty (ih counted)

end SpellLevels

variable {α : Type} [Scalar α] {flattening : Flattening α}

namespace Walk

variable {maps : List (Affine α)} {page : Option (Page α)} {lines : List (Polyline α)}
  {w w' : Walk α}

lemma Stands.exists_of_enter {tag : Markup.Tag} (stands : Stands maps page lines w)
    (entered : (w.enter flattening tag).result = .ok w') :
    ∃ placed : Placed α, Stands (placed.map :: maps) placed.page (lines ++ placed.lines) w' := by
  have alike : Alike _ (w.enter flattening tag).result _ := stands.enter tag
  rw [entered] at alike
  generalize place flattening tag _ page = outcome at alike
  cases alike with
  | value holds => exact ⟨_, holds⟩

/-- A walk has one map for each element that is open. -/
lemma Stands.length_maps_steps {events : List Event} {unclosed : ℕ}
    (stands : Stands maps page lines w) (counted : openAfter maps.length events = some unclosed)
    (walked : (w.steps flattening events).result = .ok w') : w'.maps.length = unclosed := by
  induction events generalizing w maps page lines with
  | nil =>
    obtain rfl : w = w' := Except.ok.inj walked
    rw [stands.maps]
    exact Option.some.inj counted
  | cons event events ih =>
    rw [Walk.steps, Attempt.result_bind, Except.bind_eq_ok] at walked
    obtain ⟨w₁, stepped, walked⟩ := walked
    cases event with
    | start tag =>
      obtain ⟨placed, entered⟩ := stands.exists_of_enter stepped
      exact ih entered counted walked
    | childless tag =>
      rw [step, Attempt.result_bind, Except.bind_eq_ok] at stepped
      obtain ⟨w₂, stepped, left⟩ := stepped
      obtain ⟨placed, entered⟩ := stands.exists_of_enter stepped
      rw [← Except.ok.inj left] at walked
      exact ih entered.leave counted walked
    | stop =>
      rw [← Except.ok.inj stepped] at walked
      cases maps with
      | nil => cases counted
      | cons map maps => exact ih stands.leave counted walked

/-- End tags at the end change nothing about the document. -/
lemma result_steps_replicate_stop (n : ℕ) (w : Walk α) :
    (w.steps flattening (List.replicate n .stop) >>= finish).result = w.finish.result := by
  induction n generalizing w with
  | zero => rfl
  | succ n ih => exact ih w.leave

end Walk

/-- A text without a fault comes to the forest that it spells with some end tags behind it. -/
lemma Document.result_of_missing_stops {text : String} {forest : Forest} {events : List Event}
    {n : ℕ} (read : Markup.Reading.ofText text = ⟨events, none⟩)
    (spells : forest.Spells (events ++ List.replicate n .stop)) :
    (ofText flattening text).result = forest.document flattening := by
  have walked := Forest.result_walk flattening spells
  rw [Walk.steps_append, bind_assoc, Attempt.result_bind] at walked
  simp only [Walk.result_steps_replicate_stop] at walked
  rw [← walked, ofText, read, Attempt.result_bind]

/-- A document comes from a text exactly if the text reads without a fault and its forest, with an
end tag behind the text for each of the elements left open, comes to the document. The walk stands
in that many elements when the text ends. A text that ends behind a bracket that is not closed has
a fault, which counts after everything before it. -/
theorem Document.result_of_cut_off (flattening : Flattening α) (text : String) :
    (∀ document, (ofText flattening text).result = .ok document ↔
      ∃ events unclosed forest, Markup.Reading.ofText text = ⟨events, none⟩ ∧
        openAfter 0 events = some unclosed ∧
        Forest.Spells forest (events ++ List.replicate unclosed .stop) ∧
        forest.document flattening = .ok document) ∧
    (∀ w, (Walk.start.steps flattening (Markup.Reading.ofText text).events).result = .ok w →
      openAfter 0 (Markup.Reading.ofText text).events = some w.maps.length) ∧
    ∀ front back, text.toList = front ++ '<' :: back → '>' ∉ back →
      ∃ fault, (Markup.Reading.ofText text).fault = some fault ∧
        (ofText flattening text).result =
          (Walk.start.steps flattening (Markup.Reading.ofText text).events).result >>=
            fun _ => .error (.markup fault) := by
  obtain ⟨unclosed, counted⟩ := Markup.exists_openAfter text
  have levels := SpellLevels.of_openAfter counted
  generalize hEvents : (Markup.Reading.ofText text).events = events at counted levels
  obtain ⟨forest, spells⟩ : ∃ forest : Forest,
      forest.Spells (events ++ List.replicate unclosed .stop) := by
    cases levels with
    | outermost spells => exact ⟨_, spells⟩
  refine ⟨fun document => ?_, fun w walked => ?_, fun front back cut unclosed => ?_⟩
  · constructor
    · intro value
      cases failed : (Markup.Reading.ofText text).fault with
      | some fault =>
        rw [ofText, Attempt.result_bind, Except.bind_eq_ok] at value
        obtain ⟨w, _, value⟩ := value
        rw [failed] at value
        cases value
      | none =>
        have read : Markup.Reading.ofText text = ⟨events, none⟩ := by
          rw [← hEvents, ← failed]
        rw [result_of_missing_stops read spells] at value
        exact ⟨events, unclosed, forest, read, counted, spells, value⟩
    · rintro ⟨events, unclosed, forest, read, _, spells, value⟩
      rw [result_of_missing_stops read spells, value]
  · have start : Walk.Stands [] none [] (Walk.start : Walk α) := ⟨rfl, rfl, rfl, rfl⟩
    rw [counted, start.length_maps_steps counted walked]
  · obtain ⟨fault, failed⟩ := Markup.exists_fault cut unclosed
    refine ⟨fault, failed, ?_⟩
    simp only [ofText, Attempt.result_bind, failed, Attempt.result_throw, hEvents]

/-- A text that ends inside a group is drawn as if the group and the root were closed; a text that
ends inside a tag behind it has a fault. -/
theorem Document.result_of_cut_off_group :
    let cut := "<svg width=\"1in\" height=\"1in\" viewBox=\"0 0 1 1\">"
      ++ "<g transform=\"scale(.5)\"><path d=\"M0 0H1\"/>"
    (ofText .standard cut).result =
      .ok (⟨⟨1.0, 1.0⟩, [[⟨0.0, 1.0⟩, ⟨0.5, 1.0⟩]]⟩ : Document Float) ∧
    (∃ w : Walk Float, w.maps.length = 2 ∧
      (Walk.start.steps .standard (Markup.Reading.ofText cut).events).result = .ok w ∧
      openAfter 0 (Markup.Reading.ofText cut).events = some w.maps.length) ∧
    ∃ fault, (Markup.Reading.ofText (cut ++ "<g")).fault = some fault ∧
      (ofText (.standard : Flattening Float) (cut ++ "<g")).result = .error (.markup fault) := by
  intro cut
  let root : Markup.Tag := ⟨"svg width=\"1in\" height=\"1in\" viewBox=\"0 0 1 1\"".toList⟩
  let group : Markup.Tag := ⟨"g transform=\"scale(.5)\"".toList⟩
  let path : Markup.Tag := ⟨"path d=\"M0 0H1\"".toList⟩
  have drawn : Forest.Spells (.element path .empty .empty) [.childless path] := .childless .empty
  have grouped : Forest.Spells (.element group (.element path .empty .empty) .empty)
      [.start group, .childless path, .stop] := .element drawn .empty
  have spells : Forest.Spells (.element root (.element group (.element path .empty .empty) .empty)
      .empty) [.start root, .start group, .childless path, .stop, .stop] := .element grouped .empty
  have walks (text : String) (walked : (Walk.start.steps (.standard : Flattening Float)
      (Markup.Reading.ofText text).events).result.toOption.isSome) :
      ∃ w, (Walk.start.steps (.standard : Flattening Float)
        (Markup.Reading.ofText text).events).result = .ok w := by
    obtain ⟨w, walked⟩ := Option.isSome_iff_exists.1 walked
    exact ⟨w, Except.eq_ok_of_toOption walked⟩
  refine ⟨?_, ?_, ?_⟩
  · refine ((result_of_cut_off .standard cut).1 _).2
      ⟨[.start root, .start group, .childless path], 2, _, ?_, rfl, spells, ?_⟩
    · decide +kernel
    · exact Except.eq_ok_of_toOption (by decide +kernel)
  · obtain ⟨w, walked⟩ := walks cut (by decide +kernel)
    have counted := (result_of_cut_off .standard cut).2.1 w walked
    have two : openAfter 0 (Markup.Reading.ofText cut).events = some 2 := by decide +kernel
    exact ⟨w, Option.some.inj (counted.symm.trans two), walked, counted⟩
  · obtain ⟨w, walked⟩ := walks (cut ++ "<g") (by decide +kernel)
    obtain ⟨fault, failed, result⟩ :=
      (result_of_cut_off (.standard : Flattening Float) (cut ++ "<g")).2.2 cut.toList ['g']
        (by decide +kernel) (by decide)
    exact ⟨fault, failed, by rw [result, walked, Except.bind_of_ok]⟩

/-- A text that ends before its root is closed is accepted, with the root still open. -/
theorem Document.result_of_root_left_open :
    let cut := "<svg width=\"1in\" height=\"1in\" viewBox=\"0 0 1 1\"><path d=\"M0 0H1\"/>"
    (ofText .standard cut).result =
      .ok (⟨⟨1.0, 1.0⟩, [[⟨0.0, 1.0⟩, ⟨1.0, 1.0⟩]]⟩ : Document Float) ∧
    openAfter 0 (Markup.Reading.ofText cut).events = some 1 := by
  intro cut
  exact ⟨Except.eq_ok_of_toOption (by decide +kernel), by decide +kernel⟩

end Svg

end Toolpath
