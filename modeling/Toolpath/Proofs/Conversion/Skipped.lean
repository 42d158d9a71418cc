import Toolpath.Conversion
import Toolpath.Proofs.Document.Tree
import Toolpath.Proofs.Markup.Places

/-!
# Shapes that are skipped

A basic shape that is left out may stand anywhere between the items of a document, and with any
attributes: the document is converted as it would be without it, and one note tells of the shape.
There is one exception. The map of an element is read before its name is looked at, so a shape with
a transform that cannot be read ends the conversion, although nothing would be drawn under its map
(`convert_insert_shape`).

A shape leaves the walk as it was, and notes pile up in the order of the events. So the attempts
with and without the shape are the same up to its place and from there on.
-/

namespace Toolpath

open Markup (Attribute Attributes Event IsValue Opening Passage Reading Tag isBare)
open Text (isSpace)

namespace Attempt

variable {α β γ : Type} {x : Attempt α β} {f : β → Attempt α γ}

/-! ### Notes of attempts in a row -/

lemma outcome_bind_of_ok {b : β} {notes : List (Diagnostic α)}
    (first : x.outcome = ⟨.ok b, notes⟩) :
    (x >>= f).outcome = ⟨(f b).outcome.value, notes ++ (f b).outcome.notes⟩ := by
  obtain rfl : x = ⟨.ok b, notes⟩ := first
  rfl

lemma outcome_bind_of_error {fault : Fault α} {notes : List (Diagnostic α)}
    (first : x.outcome = ⟨.error fault, notes⟩) :
    (x >>= f).outcome = ⟨.error fault, notes⟩ := by
  obtain rfl : x = ⟨.error fault, notes⟩ := first
  exact Logged.eq_of_value_of_notes rfl (List.append_nil notes)

lemma outcome_note (d : Diagnostic α) : (note d).outcome = ⟨.ok (), [d]⟩ :=
  rfl

lemma exists_of_outcome_bind {c : γ} {notes : List (Diagnostic α)}
    (whole : (x >>= f).outcome = ⟨.ok c, notes⟩) :
    ∃ b before after, x.outcome = ⟨.ok b, before⟩ ∧ (f b).outcome = ⟨.ok c, after⟩ ∧
      notes = before ++ after := by
  obtain ⟨value, before⟩ := x
  cases value with
  | error fault => cases congrArg Logged.value whole
  | ok b =>
    have value : (f b).outcome.value = .ok c := congrArg Logged.value whole
    have piled : before ++ (f b).outcome.notes = notes := congrArg Logged.notes whole
    exact ⟨b, before, _, rfl, Logged.eq_of_value_of_notes value rfl, piled.symm⟩

end Attempt

namespace Svg

variable {α : Type} [Scalar α] {flattening : Flattening α} {tag : Tag} {as : Attributes}

/-! ### A shape on a walk -/

lemma ownMap_of_none (absent : as.get? "transform" = none) :
    (ownMap as : Attempt α (Affine α)).outcome = ⟨.ok .identity, []⟩ := by
  rw [ownMap, absent]
  rfl

lemma ownMap_of_ok {text : String} {map : Affine α} (given : as.get? "transform" = some text)
    (read : transform text = .ok map) :
    (ownMap as).outcome = ⟨.ok map, [.transformRead text map]⟩ := by
  rw [ownMap, given]
  dsimp only
  rw [readTransform, read]
  rfl

lemma ownMap_of_error {text : String} {cause : TransformFault}
    (given : as.get? "transform" = some text)
    (read : (transform text : Except _ (Affine α)) = .error cause) :
    (ownMap as : Attempt α (Affine α)).outcome = ⟨.error (.transform text cause), []⟩ := by
  rw [ownMap, given]
  dsimp only
  rw [readTransform, read]
  rfl

/-- A shape that is left out draws nothing and is told. -/
lemma Walk.drawElement_of_shape {name : String} (shape : isUnsupportedShape name = true)
    (isRoot : Bool) (map : Affine α) (w : Walk α) :
    drawElement flattening name as isRoot map w = (do
      Attempt.note (.unsupportedElement name)
      pure w) := by
  have known : name ∈ unsupportedShapes := by simpa [isUnsupportedShape] using shape
  simp only [unsupportedShapes, List.mem_cons, List.not_mem_nil, or_false] at known
  rcases known with rfl | rfl | rfl | rfl | rfl <;> rfl

/-- A shape that is left out adds its map and nothing else. -/
lemma Walk.enter_of_shape (read : Attributes.ofTag tag = .ok as)
    (shape : isUnsupportedShape tag.localName = true) (w : Walk α) :
    w.enter flattening tag = (do
      let own ← ownMap as
      Attempt.note (.unsupportedElement tag.localName)
      pure { w with maps := w.innermost.compose own :: w.maps }) := by
  have other : (tag.localName == "svg" && w.page.isNone) = false := by
    rw [Bool.and_eq_false_iff]
    refine .inl (beq_eq_false_iff_ne.2 fun same => ?_)
    rw [same] at shape
    exact absurd shape (by decide)
  rw [enter, read]
  dsimp only
  rw [other]
  simp only [Bool.false_eq_true, if_false, drawElement_of_shape shape]

/-- The events of a shape that is left out leave the walk as it was. -/
lemma Walk.steps_of_shape {o : Opening} (well : o.WellFormed)
    (distinct : (o.attributes.map Attribute.key).Nodup)
    (shape : isUnsupportedShape (String.ofList (Markup.localName o.name)) = true)
    {cs : List Char} {events : List Event} (writes : o.Writes cs events) (w : Walk α) :
    w.steps flattening events = (do
      let _ ← ownMap (α := α) ⟨o.attributes.map Attribute.entry⟩
      Attempt.note (.unsupportedElement (String.ofList (Markup.localName o.name)))
      pure w) := by
  have named := well.localName_chars
  rw [← named] at shape ⊢
  have entered : w.enter flattening _ = _ := enter_of_shape (well.ofTag distinct) shape w
  cases writes with
  | childless =>
    simp only [steps, step, entered, bind_assoc, pure_bind]
    rfl
  | ended =>
    simp only [steps, step, entered, bind_assoc, pure_bind]
    rfl

/-! ### A shape in a document -/

/-- A document without a fault of its markup is what the walk along its events comes to. -/
lemma Document.ofText_eq {text : String} {events : List Event}
    (read : Reading.ofText text = ⟨events, none⟩) :
    Document.ofText flattening text = Walk.start.steps flattening events >>= Walk.finish := by
  rw [ofText, read]

lemma Document.exists_events {text : String} {document : Document α}
    {notes : List (Diagnostic α)}
    (accepted : (ofText flattening text).outcome = ⟨.ok document, notes⟩) :
    ∃ events, Reading.ofText text = ⟨events, none⟩ := by
  obtain ⟨w, before, after, _, ended, _⟩ := Attempt.exists_of_outcome_bind accepted
  generalize Reading.ofText text = reading at ended
  obtain ⟨events, fault⟩ := reading
  cases fault with
  | none => exact ⟨events, rfl⟩
  | some fault => cases congrArg Logged.value ended

/-- An element without content put at a place between the items of a document is walked through
between what is done before its place and what is done behind it. -/
lemma Document.exists_ofText_insert {front back inserted : String} {o : Opening}
    {events all : List Event} (read : Reading.ofText (front ++ back) = ⟨all, none⟩)
    (between : (Reading.ofText front).fault = none) (well : o.WellFormed)
    (writes : o.Writes inserted.toList events) (flattening : Flattening α) :
    ∃ (before : Attempt α (Walk α)) (behind : Walk α → Attempt α (Document α)),
      ofText flattening (front ++ back) = before >>= behind ∧
      ofText flattening (front ++ inserted ++ back) =
        before >>= fun w => w.steps flattening events >>= behind := by
  obtain ⟨first, hfirst⟩ : ∃ first, Reading.ofText front = ⟨first, none⟩ := by
    generalize Reading.ofText front = reading at between
    obtain ⟨first, fault⟩ := reading
    exact ⟨first, congrArg (Reading.mk first) between⟩
  obtain ⟨names, passage⟩ := Reading.ofText_iff.1 hfirst
  obtain ⟨last, whole⟩ := Reading.ofText_iff.1 read
  rw [String.toList_append] at whole
  obtain ⟨later, rfl, behind⟩ := passage.behind whole
  have more : Reading.ofText (front ++ inserted ++ back) = ⟨first ++ events ++ later, none⟩ := by
    refine Reading.ofText_iff.2 ⟨last, ?_⟩
    rw [String.toList_append, String.toList_append]
    exact (passage.append (well.passage writes names)).append behind
  refine ⟨Walk.start.steps flattening first,
    fun w => w.steps flattening later >>= Walk.finish, ?_, ?_⟩
  · rw [ofText_eq read, Walk.steps_append, bind_assoc]
  · rw [ofText_eq more, Walk.steps_append, Walk.steps_append, bind_assoc, bind_assoc]

end Svg

variable {α : Type} [Scalar α]

/-- A text that is converted, with a basic shape that is left out put at a place between its items.
If the shape has no transform, or one that can be read, the conversion is the same, and all that is
noted is what was noted before, with the transform and the name of the shape in their place. If the
transform cannot be read, this ends the conversion. -/
theorem convert_insert_shape (options : Options α) {front back inserted : String} {o : Opening}
    {events : List Event} {c : Conversion α} {notes : List (Diagnostic α)}
    (accepted : (convert options (front ++ back)).outcome = ⟨.ok c, notes⟩)
    (between : (Reading.ofText front).fault = none) (well : o.WellFormed)
    (distinct : (o.attributes.map Attribute.key).Nodup)
    (shape : Svg.isUnsupportedShape (String.ofList (Markup.localName o.name)) = true)
    (writes : o.Writes inserted.toList events) :
    let transform? := (Attributes.mk (o.attributes.map Attribute.entry)).get? "transform"
    let told : Diagnostic α := .unsupportedElement (String.ofList (Markup.localName o.name))
    let outcome := (convert options (front ++ inserted ++ back)).outcome
    ∃ before after, notes = before ++ after ∧
      (transform? = none → outcome = ⟨.ok c, before ++ told :: after⟩) ∧
      (∀ text map, transform? = some text → Svg.transform text = .ok map →
        outcome = ⟨.ok c, before ++ .transformRead text map :: told :: after⟩) ∧
      ∀ text cause, transform? = some text →
        (Svg.transform text : Except _ (Affine α)) = .error cause →
        outcome = ⟨.error (.transform text cause), before⟩ := by
  intro transform? told outcome
  -- What is done with the document does not depend on the text.
  obtain ⟨rest, converted⟩ : ∃ rest, ∀ text, convert options text =
      Svg.Document.ofText options.flattening text >>= rest := ⟨_, fun _ => rfl⟩
  rw [converted] at accepted
  obtain ⟨document, _, _, drawn, _⟩ := Attempt.exists_of_outcome_bind accepted
  obtain ⟨all, read⟩ := Svg.Document.exists_events drawn
  obtain ⟨before, behind, without, inside⟩ :=
    Svg.Document.exists_ofText_insert read between well writes options.flattening
  rw [without, bind_assoc] at accepted
  obtain ⟨w, noted, after, reached, ended, rfl⟩ := Attempt.exists_of_outcome_bind accepted
  -- The walk comes to the place as before, and goes on from there as before.
  have whole : convert options (front ++ inserted ++ back) = before >>= fun w =>
      w.steps options.flattening events >>= fun w => behind w >>= rest := by
    rw [converted, inside, bind_assoc]
    simp only [bind_assoc]
  have here := Attempt.outcome_bind_of_ok (f := fun w =>
      w.steps options.flattening events >>= fun w => behind w >>= rest) reached
  rw [← whole, Svg.Walk.steps_of_shape well distinct shape writes, bind_assoc] at here
  simp only [bind_assoc, pure_bind] at here
  have goesOn : (Attempt.note told >>= fun _ => behind w >>= rest).outcome =
      ⟨.ok c, told :: after⟩ := by
    rw [Attempt.outcome_bind_of_ok (Attempt.outcome_note told), ended]
    rfl
  refine ⟨noted, after, rfl, fun absent => ?_, fun text map given reads => ?_,
    fun text cause given fails => ?_⟩
  · rw [Attempt.outcome_bind_of_ok (Svg.ownMap_of_none absent), goesOn] at here
    exact here
  · rw [Attempt.outcome_bind_of_ok (Svg.ownMap_of_ok given reads), goesOn] at here
    exact here
  · rw [Attempt.outcome_bind_of_error (Svg.ownMap_of_error given fails)] at here
    rw [List.append_nil] at here
    exact here

/-- A polygon without anything, a circle with references in its title that is made larger, and a
line that is turned, each before the only path of a document. -/
theorem convert_insert_shape_of_polygon :
    let front := "<svg width=\"1in\" height=\"1in\" viewBox=\"0 0 1 1\">"
    let back := "<path d=\"M0 0H1\"/></svg>"
    let circle := "<svg:circle title = '&lt;a&#x21;' transform=\"scale(2)\"></svg:circle >"
    let line := "<line transform=\"rotate(45)\"/>"
    let converted (text : String) := (convert (.standard : Options Float) text).outcome
    ∃ c, (converted (front ++ back)).value = .ok c ∧
      (∃ before after, (converted (front ++ back)).notes = before ++ after ∧
        converted (front ++ "<polygon/>" ++ back) =
          ⟨.ok c, before ++ .unsupportedElement "polygon" :: after⟩) ∧
      (∃ before after, (converted (front ++ back)).notes = before ++ after ∧
        converted (front ++ circle ++ back) =
          ⟨.ok c, before ++ .transformRead "scale(2)" ⟨2.0, 0.0, 0.0, 2.0, 0.0, 0.0⟩ ::
            .unsupportedElement "circle" :: after⟩) ∧
      ∃ before after, (converted (front ++ back)).notes = before ++ after ∧
        converted (front ++ line ++ back) =
          ⟨.error (.transform "rotate(45)" (.unsupported .rotate)), before⟩ := by
  intro front back circle line converted
  obtain ⟨c, value⟩ : ∃ c, (converted (front ++ back)).value = .ok c := by
    obtain ⟨c, found⟩ := Option.isSome_iff_exists.1
      (by decide +kernel : (converted (front ++ back)).value.toOption.isSome = true)
    exact ⟨c, Except.eq_ok_of_toOption found⟩
  have accepted : converted (front ++ back) = ⟨.ok c, (converted (front ++ back)).notes⟩ :=
    Logged.eq_of_value_of_notes value rfl
  have between : (Reading.ofText front).fault = none := by decide +kernel
  -- The attributes, and how the title is escaped.
  let title : Attribute := ⟨[' '], "title".toList, [' '], [' '], '\'',
    ['&', 'l', 't', ';', 'a', '&', '#', 'x', '2', '1', ';'], ['<', 'a', '!']⟩
  have isTitle : title.WellFormed := by
    have mark : Markup.Spell 16 ['2', '1'] '!' :=
      ⟨by decide, by simp [Markup.digit?], by decide, by decide⟩
    have escaped : Markup.Escaped '\'' title.text title.value :=
      .reference .less (.plain (by decide) (by decide) (.reference (.hexadecimal mark) .nil))
    exact ⟨by simp [title], by simp [title, isSpace], by simp [title],
      by simp [title, isBare, isSpace], .inr rfl, escaped⟩
  let scale : Attribute := .written ("transform".toList, "scale(2)".toList)
  let turn : Attribute := .written ("transform".toList, "rotate(45)".toList)
  have isScale : scale.WellFormed :=
    Markup.Writable.wellFormed ⟨by simp, by simp [isBare, isSpace], by simp [IsValue]⟩
  have isTurn : turn.WellFormed :=
    Markup.Writable.wellFormed ⟨by simp, by simp [isBare, isSpace], by simp [IsValue]⟩
  -- The elements, and how they are written.
  let polygonTag : Opening := ⟨"polygon".toList, [], []⟩
  let circleTag : Opening := ⟨"svg:circle".toList, [title, scale], []⟩
  let lineTag : Opening := ⟨"line".toList, [turn], []⟩
  have isPolygon : polygonTag.WellFormed :=
    ⟨⟨by simp [polygonTag], by simp [polygonTag, isBare, isSpace], by simp [polygonTag]⟩,
      List.forall_mem_nil _, List.forall_mem_nil _⟩
  have isCircle : circleTag.WellFormed :=
    ⟨⟨by simp [circleTag], by simp [circleTag, isBare, isSpace], by simp [circleTag]⟩,
      List.forall_mem_cons.2 ⟨isTitle, List.forall_mem_singleton.2 isScale⟩, List.forall_mem_nil _⟩
  have isLine : lineTag.WellFormed :=
    ⟨⟨by simp [lineTag], by simp [lineTag, isBare, isSpace], by simp [lineTag]⟩,
      List.forall_mem_singleton.2 isTurn, List.forall_mem_nil _⟩
  have polygonWritten : polygonTag.Writes "<polygon/>".toList _ := .childless
  have circleWritten : circleTag.Writes circle.toList [.start ⟨circleTag.chars⟩, .stop] := by
    have spelled : circle.toList =
        '<' :: (circleTag.chars ++ '>' :: '<' :: '/' :: (circleTag.name ++ ([' '] ++ ['>']))) := by
      simp [circle, circleTag, title, scale, Opening.chars, Attribute.chars, Attribute.written]
    rw [spelled]
    exact .ended (by simp [isSpace])
  have lineWritten : lineTag.Writes line.toList [.childless ⟨lineTag.chars⟩] := by
    have spelled : line.toList = '<' :: (lineTag.chars ++ ['/', '>']) := by
      simp [line, lineTag, turn, Opening.chars, Attribute.chars, Attribute.written]
    rw [spelled]
    exact .childless
  obtain ⟨before₁, after₁, noted₁, plain, _, _⟩ := convert_insert_shape .standard accepted between
    isPolygon (by decide +kernel) (by decide +kernel) polygonWritten
  obtain ⟨before₂, after₂, noted₂, _, larger, _⟩ := convert_insert_shape .standard accepted between
    isCircle (by decide +kernel) (by decide +kernel) circleWritten
  obtain ⟨before₃, after₃, noted₃, _, _, turned⟩ := convert_insert_shape .standard accepted between
    isLine (by decide +kernel) (by decide +kernel) lineWritten
  refine ⟨c, value, ⟨before₁, after₁, noted₁, plain (by decide +kernel)⟩,
    ⟨before₂, after₂, noted₂, ?_⟩, before₃, after₃, noted₃, ?_⟩
  · exact larger "scale(2)" _ (by decide +kernel) (Except.eq_ok_of_toOption (by decide +kernel))
  · exact turned "rotate(45)" _ (by decide +kernel) (by decide +kernel)

/-- A document with a circle that is turned is not converted, while the document without it is. -/
theorem convert_insert_turned_circle :
    let front := "<svg width=\"1in\" height=\"1in\" viewBox=\"0 0 1 1\">"
    let back := "<path d=\"M0 0H1\"/></svg>"
    (convert .standard (front ++ back)).result =
      .ok (⟨⟨1.0, 1.0⟩, [[⟨0.0, 1.0⟩, ⟨1.0, 1.0⟩]],
        [.motion 1 .rapid ⟨0, 1000⟩, .motion 2 .linear ⟨1000, 1000⟩, .endOfProgram 3],
        ⟨1, 2⟩, ⟨1, 2⟩, ⟨1, 2⟩⟩ : Conversion Float) ∧
    (convert (.standard : Options Float)
        (front ++ "<circle transform=\"rotate(45)\" r=\".2\"/>" ++ back)).result =
      .error (.transform "rotate(45)" (.unsupported .rotate)) := by
  intro front back
  exact ⟨Except.eq_ok_of_toOption (by decide +kernel), by decide +kernel⟩

end Toolpath
