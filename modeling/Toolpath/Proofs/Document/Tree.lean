import Toolpath.Proofs.Attempt
import Toolpath.Proofs.Document.Fresh
import Toolpath.Svg.Document

/-!
# Documents as trees

A document is walked along its events with a stack of maps, one page and one drawing for all
elements. `Forest.document` evaluates the tree of its elements instead, by recursion: the map of an
element comes from the element around it, the page is handed on in document order, each element
draws on a drawing of its own, and what they draw is put together. Both come to the same
(`Document.result_of_spells`).

The walk is followed by induction on how the events spell the tree. What holds between elements is
`Walk.Stands`: the stack is that of the open elements, the page is the one handed on, no polyline
is open, and the drawing has grown by what the elements drew.
-/

namespace Toolpath.Svg

open Markup (Attributes Event Tag)

/-- Elements side by side: the first one, what is inside it, and what comes after it. -/
inductive Forest where
  | empty
  | element (tag : Tag) (inside after : Forest)
deriving DecidableEq, Repr

/-- The events that spell a forest. An element with nothing inside has two spellings. -/
inductive Forest.Spells : Forest → List Event → Prop
  | empty : Spells .empty []
  | element {tag : Tag} {inside after : Forest} {es fs : List Event} (within : Spells inside es)
      (behind : Spells after fs) :
      Spells (.element tag inside after) (.start tag :: (es ++ .stop :: fs))
  | childless {tag : Tag} {after : Forest} {fs : List Event} (behind : Spells after fs) :
      Spells (.element tag .empty after) (.childless tag :: fs)

variable {α : Type} [Scalar α]

/-! ### The evaluation of a tree -/

/-- The polylines of path data on a drawing of their own. -/
def pathLines (f : Frame α) (data : String) : Except (Fault α) (List (Polyline α)) :=
  match ((Sketch.begin .empty).drawPath f data).value with
  | (s, none) => .ok s.drawing.polylines
  | (_, some fault) => .error fault

/-- The polylines of strokes on a drawing of their own. -/
def strokeLines (f : Frame α) (strokes : List (Stroke α)) : List (Polyline α) :=
  ((Sketch.begin .empty).drawAll f strokes).value.finish.polylines

/-- What an element draws itself: a path with data and a rectangle with its sizes draw, nothing
else does. -/
def elementLines (f : Frame α) (name : String) (as : Attributes) :
    Except (Fault α) (List (Polyline α)) :=
  match name with
  | "path" =>
    match as.get? "d" with
    | none => .ok []
    | some data => pathLines f data
  | "rect" => do
    match ← (Rect.ofAttributes as).result with
    | none => .ok []
    | some rect => .ok (strokeLines f rect.strokes)
  | _ => .ok []

/-- An element in its place: its map, the page as it is known from here on, and what the element
draws itself. -/
structure Placed (α : Type) where
  map : Affine α
  page : Option (Page α)
  lines : List (Polyline α)

/-- The page as it is known from an element on, and the map around the element. The first `svg`
element gives the page, and the map of the page takes the place of the one around it. -/
def surroundings (tag : Tag) (as : Attributes) (outer : Affine α) (page : Option (Page α)) :
    Except (Fault α) (Option (Page α) × Affine α) :=
  match page, tag.localName with
  | none, "svg" => do
    let (page, map) ←
      (Page.ofRoot (as.get? "width") (as.get? "height") (as.get? "viewBox")).result
    .ok (some page, map)
  | page, _ => .ok (page, outer)

/-- Puts an element in its place, given the map around it and the page known so far. -/
def place (flattening : Flattening α) (tag : Tag) (outer : Affine α) (page : Option (Page α)) :
    Except (Fault α) (Placed α) := do
  let as ← (Attributes.ofTag tag).mapError Fault.markup
  let own ← (ownMap as).result
  let (page, outer) ← surroundings tag as outer page
  let lines ← elementLines ⟨outer.compose own, flattening⟩ tag.localName as
  .ok ⟨outer.compose own, page, lines⟩

/-- Evaluates a forest inside a map: the page known after it, and everything drawn in document
order. -/
def Forest.draw (flattening : Flattening α) :
    Forest → Affine α → Option (Page α) →
      Except (Fault α) (Option (Page α) × List (Polyline α))
  | .empty, _, page => .ok (page, [])
  | .element tag inside after, outer, page => do
    let placed ← place flattening tag outer page
    let (page, within) ← inside.draw flattening placed.map placed.page
    let (page, behind) ← after.draw flattening outer page
    .ok (page, placed.lines ++ within ++ behind)

/-- Evaluates the forest of a whole document. -/
def Forest.document (flattening : Flattening α) (forest : Forest) :
    Except (Fault α) (Document α) := do
  let (page, lines) ← forest.draw flattening .identity none
  .ok ⟨page.getD .standard, lines⟩

/-! ### One element -/

namespace Walk

/-- A walk stands between elements: the open elements have these maps, the page is known as this,
and these lines were drawn, of which none is open. -/
structure Stands (maps : List (Affine α)) (page : Option (Page α)) (lines : List (Polyline α))
    (w : Walk α) : Prop where
  maps : w.maps = maps
  page : w.page = page
  idle : w.drawing.current = none
  lines : w.drawing.polylines = lines

variable {flattening : Flattening α} {w : Walk α}

omit [Scalar α] in
lemma stands_self (idle : w.drawing.current = none) :
    Stands w.maps w.page (w.drawing.polylines ++ []) w :=
  ⟨rfl, rfl, idle, (List.append_nil _).symm⟩

/-- Strokes come to what they draw on a drawing of their own. -/
lemma alike_drawStrokes (idle : w.drawing.current = none) (map : Affine α)
    (strokes : List (Stroke α)) :
    Alike (fun w' lines => Stands w.maps w.page (w.drawing.polylines ++ lines) w')
      (w.drawStrokes map flattening strokes).result
      (.ok (strokeLines ⟨map, flattening⟩ strokes)) := by
  obtain ⟨maps, page, drawing⟩ := w
  simp only [drawStrokes, Attempt.result_bind, Attempt.result_lift, Except.bind_of_ok,
    Attempt.result_pure]
  exact .value ⟨rfl, rfl, Drawing.current_endLine _, Sketch.drawAll_fresh _ idle strokes⟩

/-- Path data come to what they draw on a drawing of their own. -/
lemma alike_drawData (idle : w.drawing.current = none) (map : Affine α) (data : String) :
    Alike (fun w' lines => Stands w.maps w.page (w.drawing.polylines ++ lines) w')
      (w.drawData map flattening data).result (pathLines ⟨map, flattening⟩ data) := by
  obtain ⟨maps, page, drawing⟩ := w
  obtain ⟨lines, fault⟩ := Sketch.drawPath_fresh ⟨map, flattening⟩ idle data
  have ended := Sketch.current_drawData ⟨map, flattening⟩ (Sketch.begin drawing) (.start data)
  simp only [drawData, pathLines, Attempt.result_bind, Attempt.result_lift, Except.bind_of_ok]
  rw [← Sketch.drawPath] at ended
  generalize ((Sketch.begin drawing).drawPath _ data).value = onto at lines fault ended ⊢
  generalize ((Sketch.begin (.empty : Drawing α)).drawPath _ data).value = fresh at lines fault ⊢
  obtain ⟨s, fault₁⟩ := onto
  obtain ⟨s', fault₂⟩ := fresh
  simp only at lines fault ended
  subst fault
  cases fault₁ with
  | none => exact .value ⟨rfl, rfl, ended rfl, lines⟩
  | some fault => exact .fault fault

/-- An open element draws what it draws on a drawing of its own. -/
lemma alike_drawElement (flattening : Flattening α) (idle : w.drawing.current = none)
    (name : String) (as : Attributes) (isRoot : Bool) (map : Affine α) :
    Alike (fun w' lines => Stands w.maps w.page (w.drawing.polylines ++ lines) w')
      (drawElement flattening name as isRoot map w).result
      (elementLines ⟨map, flattening⟩ name as) := by
  unfold drawElement
  split
  case h_1 =>
    -- Whether a note is taken does not matter.
    cases isRoot <;> exact .value (stands_self idle)
  case h_2 =>
    simp only [elementLines]
    cases as.get? "d" with
    | none => exact .value (stands_self idle)
    | some data => exact alike_drawData idle map data
  case h_3 =>
    simp only [elementLines, Attempt.result_bind]
    refine (Alike.refl _).bind ?_
    rintro rect _ rfl
    cases rect with
    | none => exact .value (stands_self idle)
    | some rect => exact alike_drawStrokes idle map rect.strokes
  case h_4 _ notSvg notPath notRect =>
    have nothing : elementLines ⟨map, flattening⟩ name as = .ok [] := by
      unfold elementLines
      split
      · exact absurd rfl notPath
      · exact absurd rfl notRect
      · rfl
    rw [nothing]
    cases isUnsupportedShape name <;> exact .value (stands_self idle)

variable {maps : List (Affine α)} {page : Option (Page α)} {lines : List (Polyline α)}

/-- An element that is opened is put in its place. -/
lemma Stands.enter (stands : Stands maps page lines w) (tag : Tag) :
    Alike (fun w' placed => Stands (placed.map :: maps) placed.page (lines ++ placed.lines) w')
      (w.enter flattening tag).result
      (place flattening tag (maps.headD .identity) page) := by
  obtain ⟨rfl, rfl, idle, rfl⟩ := stands
  change Alike _ _ (place flattening tag w.innermost w.page)
  unfold Walk.enter place
  cases Attributes.ofTag tag with
  | error fault => exact .fault _
  | ok as =>
    simp only [Except.mapError, Except.bind_of_ok, Attempt.result_bind]
    refine (Alike.refl _).bind ?_
    rintro own _ rfl
    have drawn (isRoot : Bool) (page : Option (Page α)) (map : Affine α) :=
      alike_drawElement (w := { w with page := page, maps := map :: w.maps }) flattening idle
        tag.localName as isRoot map
    split
    case isTrue root =>
      obtain ⟨svg, unknown⟩ := Bool.and_eq_true_iff.1 root
      have svg : tag.localName = "svg" := eq_of_beq svg
      have unknown : w.page = none := Option.isNone_iff_eq_none.1 unknown
      have here : surroundings tag as w.innermost w.page =
          (Page.ofRoot (as.get? "width") (as.get? "height") (as.get? "viewBox")).result >>=
            fun found => .ok (some found.1, found.2) := by
        unfold surroundings
        rw [svg, unknown]
        rfl
      rw [here, bind_assoc, Attempt.result_bind]
      refine (Alike.refl _).bind ?_
      rintro ⟨page, outer⟩ _ rfl
      exact (drawn _ (some page) (outer.compose own)).map_right fun _ _ stands => stands
    case isFalse notRoot =>
      have here : surroundings tag as w.innermost w.page = .ok (w.page, w.innermost) := by
        unfold surroundings
        split
        next page name unknown svg => simp [unknown, svg] at notRoot
        next => rfl
      rw [here, Except.bind_of_ok]
      exact (drawn _ w.page (w.innermost.compose own)).map_right fun _ _ stands => stands

/-! ### A whole forest -/

omit [Scalar α] in
lemma Stands.leave {map : Affine α} (stands : Stands (map :: maps) page lines w) :
    Stands maps page lines w.leave :=
  ⟨congrArg List.tail stands.maps, stands.page, stands.idle, stands.lines⟩

/-- Events one behind another are followed one after another. -/
lemma steps_append (es fs : List Event) (w : Walk α) :
    w.steps flattening (es ++ fs) = w.steps flattening es >>= fun w => w.steps flattening fs := by
  induction es generalizing w with
  | nil => simp [steps]
  | cons event es ih => simp [steps, ih]

/-- The events of a forest come to what the forest comes to. -/
lemma Stands.steps {forest : Forest} {events : List Event} (spells : forest.Spells events)
    (stands : Stands maps page lines w) :
    Alike (fun w' drawn => Stands maps drawn.1 (lines ++ drawn.2) w')
      (w.steps flattening events).result
      (forest.draw flattening (maps.headD .identity) page) := by
  -- The walk is generalised: inside an element it stands on a longer stack, and on the page and
  -- the lines that are known by then.
  induction spells generalizing w maps page lines with
  | empty => exact .value (by simpa using stands)
  | @element tag inside after es fs within behind ihWithin ihBehind =>
    simp only [Walk.steps, steps_append, step, Attempt.result_bind, Attempt.result_pure,
      Forest.draw, Except.bind_of_ok]
    refine (stands.enter tag).bind fun opened placed hOpened => ?_
    refine (ihWithin hOpened).bind fun filled inner hFilled => ?_
    refine (ihBehind hFilled.leave).map_right fun w' outer hLeft => ?_
    simpa using hLeft
  | @childless tag after fs behind ihBehind =>
    simp only [Walk.steps, step, Attempt.result_bind, Attempt.result_pure, Forest.draw,
      Except.bind_of_ok, bind_assoc]
    refine (stands.enter tag).bind fun opened placed hOpened => ?_
    refine (ihBehind hOpened.leave).map_right fun w' outer hLeft => ?_
    simpa using hLeft

end Walk

/-- A walk along the events of a forest comes to the document of the forest. -/
theorem Forest.result_walk (flattening : Flattening α) {forest : Forest}
    {events : List Event} (spells : forest.Spells events) :
    (Walk.start.steps flattening events >>= Walk.finish).result = forest.document flattening := by
  have start : Walk.Stands [] none [] (Walk.start : Walk α) := ⟨rfl, rfl, rfl, rfl⟩
  rw [Attempt.result_bind, Forest.document]
  refine ((start.steps spells).bind fun w drawn stands => ?_).eq
  obtain ⟨page, lines⟩ := drawn
  have drew : w.drawing.polylines = lines := stands.lines
  have known : w.page = page := stands.page
  subst drew known
  unfold Walk.finish
  cases page : w.page with
  | none => exact .value (by simp)
  | some page => exact .value rfl

/-- A document is what its tree comes to: along the events that spell the tree, and from every
text that is read as these events. -/
theorem Document.result_of_spells (flattening : Flattening α) {forest : Forest}
    {events : List Event} (spells : forest.Spells events) :
    (Walk.start.steps flattening events >>= Walk.finish).result = forest.document flattening ∧
      ∀ text, Markup.Reading.ofText text = ⟨events, none⟩ →
        (Document.ofText flattening text).result = forest.document flattening := by
  have walked := Forest.result_walk flattening spells
  refine ⟨walked, fun text read => ?_⟩
  rw [← walked, Document.ofText, read]

/-- A group in a document, and a second root of which the width is not looked at. -/
theorem Document.result_of_spells_nested :
    let root : Tag := ⟨"svg viewBox='0 0 9 9'".toList⟩
    let group : Tag := ⟨"g transform='scale(2)'".toList⟩
    let path : Tag := ⟨"path d='M1,1H2'".toList⟩
    let inner : Tag := ⟨"svg width='wide'".toList⟩
    let forest : Forest :=
      .element root (.element group (.element path .empty .empty) (.element inner .empty .empty))
        .empty
    let text := "<svg viewBox='0 0 9 9'><g transform='scale(2)'><path d='M1,1H2'/></g>"
      ++ "<svg width='wide'></svg></svg>"
    (Document.ofText (.standard : Flattening Float) text).result = forest.document .standard :=
  (Document.result_of_spells .standard
    (.element (.element (.childless .empty) (.element .empty .empty)) .empty)).2 _
    (by decide +kernel)

end Toolpath.Svg
