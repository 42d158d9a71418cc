import Toolpath.Proofs.Path.UserSpace
import Toolpath.Proofs.Transform.Arguments

/-!
# Places in a document

What stands at a place of a document is drawn under one map, that of the elements around it
(`Ancestry.exists_around_document`): the map of the page, then the transforms from the root element
inwards. What else the document draws comes before and behind, whatever stands at the place. With
exact arithmetic this map applies the functions of all these transforms one after the other, the
last one first, and a group with two lists of functions is two groups with one list each
(`Document.result_of_chain`).
-/

namespace Toolpath.Svg

open Markup (Attributes Event Tag)

/-! ### Places -/

/-- One forest behind another. -/
def Forest.append : Forest → Forest → Forest
  | .empty, forest => forest
  | .element tag inside after, forest => .element tag inside (after.append forest)

/-- There is no `svg` element in a forest. -/
def Forest.Rootless : Forest → Prop
  | .empty => True
  | .element tag inside after => tag.localName ≠ "svg" ∧ inside.Rootless ∧ after.Rootless

/-- An element around a place, with what stands before and behind it. -/
structure Level where
  before : Forest
  tag : Tag
  behind : Forest

/-- What stands at a place, with the elements around the place, the outermost first. -/
def Forest.within (core : Forest) : List Level → Forest
  | [] => core
  | level :: levels => level.before.append (.element level.tag (core.within levels) level.behind)

lemma Forest.within_append (core : Forest) (levels levels' : List Level) :
    core.within (levels ++ levels') = (core.within levels').within levels := by
  induction levels with
  | nil => rfl
  | cons level levels ih => rw [List.cons_append, within, within, ih]

/-- A text is read without a fault as the elements of a forest. -/
def Forest.ReadFrom (forest : Forest) (text : String) : Prop :=
  ∃ events, forest.Spells events ∧ Markup.Reading.ofText text = ⟨events, none⟩

section Lines

variable {α : Type} [Scalar α] {flattening : Flattening α}

lemma Forest.ReadFrom.result {forest : Forest} {text : String} (read : forest.ReadFrom text)
    (flattening : Flattening α) :
    (Document.ofText flattening text).result = forest.document flattening := by
  obtain ⟨events, spells, reading⟩ := read
  rw [← Forest.result_walk flattening spells, Document.ofText, reading]

/-! ### Where the page is known -/

/-- What a forest draws inside a map, once the page is known. -/
def Forest.lines (flattening : Flattening α) :
    Forest → Affine α → Except (Fault α) (List (Polyline α))
  | .empty, _ => .ok []
  | .element tag inside after, outer => do
    let placed ← place flattening tag outer (some .standard)
    let within ← inside.lines flattening placed.map
    let behind ← after.lines flattening outer
    .ok (placed.lines ++ within ++ behind)

/-- Only an `svg` element looks at the page, and only if it is not known. -/
lemma surroundings_of_settled {tag : Tag} {page : Option (Page α)}
    (settled : page.isSome ∨ tag.localName ≠ "svg") (as : Attributes) (outer : Affine α) :
    surroundings tag as outer page = .ok (page, outer) := by
  unfold surroundings
  split
  next none svg => exact absurd svg (settled.resolve_left (by simp))
  next => rfl

lemma place_of_settled {tag : Tag} {page : Option (Page α)}
    (settled : page.isSome ∨ tag.localName ≠ "svg") (outer : Affine α) :
    place flattening tag outer page =
      place flattening tag outer (some .standard) >>= fun placed =>
        .ok { placed with page := page } := by
  have known : (some Page.standard : Option (Page α)).isSome ∨ tag.localName ≠ "svg" := .inl rfl
  simp only [place, surroundings_of_settled settled, surroundings_of_settled known,
    Except.bind_of_ok, bind_assoc]

lemma Forest.draw_of_settled {forest : Forest} {page : Option (Page α)}
    (settled : page.isSome ∨ forest.Rootless) (outer : Affine α) :
    forest.draw flattening outer page =
      forest.lines flattening outer >>= fun lines => .ok (page, lines) := by
  induction forest generalizing outer with
  | empty => rfl
  | element tag inside after ihInside ihAfter =>
    have here := settled.imp_right (·.1)
    simp only [draw, lines, place_of_settled here, ihInside (settled.imp_right (·.2.1)),
      ihAfter (settled.imp_right (·.2.2)), Except.bind_of_ok, bind_assoc]

lemma Forest.draw_some (forest : Forest) (page : Page α) (outer : Affine α) :
    forest.draw flattening outer (some page) =
      forest.lines flattening outer >>= fun lines => .ok (some page, lines) :=
  draw_of_settled (.inl rfl) outer

lemma Forest.lines_append (forest forest' : Forest) (outer : Affine α) :
    (forest.append forest').lines flattening outer = (do
      let lines ← forest.lines flattening outer
      let lines' ← forest'.lines flattening outer
      .ok (lines ++ lines')) := by
  induction forest with
  | empty => simp [append, lines, Except.bind_ok]
  | element tag inside after _ ihAfter =>
    simp only [append, lines, ihAfter, bind_assoc, Except.bind_of_ok, List.append_assoc]

lemma Forest.draw_append (forest forest' : Forest) (outer : Affine α) (page : Option (Page α)) :
    (forest.append forest').draw flattening outer page = (do
      let (page, lines) ← forest.draw flattening outer page
      let (page, lines') ← forest'.draw flattening outer page
      .ok (page, lines ++ lines')) := by
  induction forest generalizing page with
  | empty => simp [append, draw, Except.bind_ok]
  | element tag inside after _ ihAfter =>
    simp only [append, draw, ihAfter, bind_assoc, Except.bind_of_ok, List.append_assoc]

/-! ### The elements around a place -/

/-- An element can be read, and this is its own map. -/
structure Owns (tag : Tag) (as : Attributes) (own : Affine α) : Prop where
  attributes : Attributes.ofTag tag = .ok as
  map : (ownMap as).result = .ok own

lemma Owns.place {tag : Tag} {as : Attributes} {own : Affine α} (owns : Owns tag as own)
    {page : Option (Page α)} (settled : page.isSome ∨ tag.localName ≠ "svg") (outer : Affine α) :
    Svg.place flattening tag outer page =
      elementLines ⟨outer.compose own, flattening⟩ tag.localName as >>= fun lines =>
        .ok ⟨outer.compose own, page, lines⟩ := by
  rw [Svg.place, owns.attributes, Except.mapError, Except.bind_of_ok, owns.map, Except.bind_of_ok,
    surroundings_of_settled settled, Except.bind_of_ok]

/-- What stands at a place is drawn inside `map`, and what the whole around it draws before and
behind it does not depend on it. The whole is drawn inside `outer` with what is known of the page
before it; behind it the page is known to be `shown`. -/
def Encloses (flattening : Flattening α) (whole : Forest → Forest) (outer : Affine α)
    (page : Option (Page α)) (shown : Page α) (map : Affine α) : Prop :=
  ∃ above below : Except (Fault α) (List (Polyline α)), ∀ core : Forest,
    (whole core).draw flattening outer page = (do
      let before ← above
      let lines ← core.lines flattening map
      let behind ← below
      .ok (some shown, before ++ lines ++ behind))

/-- Nested elements can be read, and these are their own maps. -/
abbrev OwnsAll (levels : List Level) (maps : List (Affine α)) : Prop :=
  List.Forall₂ (fun level own => ∃ as, Owns level.tag as own) levels maps

variable {whole : Forest → Forest} {outer inner map : Affine α} {page : Option (Page α)}
  {shown : Page α} {levels levels' : List Level} {maps maps' : List (Affine α)}

lemma Encloses.here (flattening : Flattening α) (map : Affine α) (shown : Page α) :
    Encloses flattening (fun core => core) map (some shown) shown map := by
  refine ⟨.ok [], .ok [], fun core => ?_⟩
  simp [Forest.draw_some]

/-- An element around the whole. -/
lemma Encloses.element {level : Level} {page' : Option (Page α)}
    {own : Except (Fault α) (List (Polyline α))} (settled : page.isSome ∨ level.before.Rootless)
    (placed : place flattening level.tag outer page =
      own >>= fun lines => .ok ⟨inner, page', lines⟩)
    (encloses : Encloses flattening whole inner page' shown map) :
    Encloses flattening (fun core => (whole core).within [level]) outer page shown map := by
  obtain ⟨above, below, drawn⟩ := encloses
  refine ⟨do
    let first ← level.before.lines flattening outer
    let lines ← own
    let further ← above
    .ok (first ++ lines ++ further), do
    let further ← below
    let last ← level.behind.lines flattening outer
    .ok (further ++ last), fun core => ?_⟩
  simp only [Forest.within, Forest.draw_append, Forest.draw, Forest.draw_of_settled settled,
    Forest.draw_some, placed, drawn, bind_assoc, Except.bind_of_ok, List.append_assoc]

/-- Elements around the whole, none of which changes what is known of the page. -/
lemma Encloses.within
    (settled : ∀ level ∈ levels, page.isSome ∨
      level.before.Rootless ∧ level.tag.localName ≠ "svg")
    (owns : OwnsAll levels maps)
    (encloses : Encloses flattening whole (maps.foldl Affine.compose outer) page shown map) :
    Encloses flattening (fun core => (whole core).within levels) outer page shown map := by
  induction owns generalizing outer with
  | nil => exact encloses
  | cons first _ ih =>
    obtain ⟨here, others⟩ := List.forall_mem_cons.1 settled
    obtain ⟨as, owns⟩ := first
    exact .element (here.imp_right (·.1)) (owns.place (here.imp_right (·.2)) outer)
      (ih others encloses)

/-- A root element: the first `svg` element, which gives the page and its map. -/
structure IsRoot (level : Level) (as : Attributes) (page : Page α) (shown : Affine α) : Prop where
  before : level.before.Rootless
  name : level.tag.localName = "svg"
  page : (Page.ofRoot (as.get? "width") (as.get? "height") (as.get? "viewBox")).result =
    .ok (page, shown)

variable {root : Level} {as : Attributes} {page : Page α} {shown own : Affine α}

/-- The map of the page takes the place of the one around the root element. -/
lemma IsRoot.place (isRoot : IsRoot root as page shown) (owns : Owns root.tag as own)
    (around : Affine α) :
    Svg.place flattening root.tag around none = .ok ⟨shown.compose own, some page, []⟩ := by
  have here : surroundings root.tag as around none = .ok (some page, shown) := by
    unfold surroundings
    rw [isRoot.name]
    dsimp only
    rw [isRoot.page]
    rfl
  rw [Svg.place, owns.attributes, Except.mapError, Except.bind_of_ok, owns.map, Except.bind_of_ok,
    here, isRoot.name]
  rfl

/-- Around a place inside a root element. -/
lemma IsRoot.encloses (isRoot : IsRoot root as page shown) (owns : Owns root.tag as own)
    (rootless : ∀ level ∈ levels, level.before.Rootless ∧ level.tag.localName ≠ "svg")
    (ownsOuter : OwnsAll levels maps) (ownsInner : OwnsAll levels' maps')
    (flattening : Flattening α) (outer : Affine α) :
    Encloses flattening (fun core => core.within (levels ++ root :: levels')) outer none page
      (maps'.foldl Affine.compose (shown.compose own)) := by
  have placed : Svg.place flattening root.tag (maps.foldl Affine.compose outer) none =
      (Except.ok [] : Except (Fault α) _) >>= fun lines =>
        .ok ⟨shown.compose own, some page, lines⟩ :=
    isRoot.place owns _
  have inside : Encloses flattening (fun core => core.within levels') (shown.compose own)
      (some page) page (maps'.foldl Affine.compose (shown.compose own)) :=
    .within (fun _ _ => .inl rfl) ownsInner (.here flattening _ page)
  have atRoot := inside.element (.inr isRoot.before) placed
  simp only [Forest.within_append]
  exact .within (fun level mem => .inr (rootless level mem)) ownsOuter atRoot

end Lines

/-! ### What elements do -/

/-- An element can be read, and its transforms do this. -/
def Acts (tag : Tag) (acts : List (Point ℝ → Point ℝ)) : Prop :=
  ∃ as, Attributes.ofTag tag = .ok as ∧
    match as.get? "transform" with
    | none => acts = []
    | some text => Transforms text acts

/-- An element is a path with data. -/
def IsPath (tag : Tag) (data : String) : Prop :=
  tag.localName = "path" ∧ ∃ as, Attributes.ofTag tag = .ok as ∧ as.get? "d" = some data

/-- An element is a group with a transform. -/
def IsGroup (tag : Tag) (text : String) : Prop :=
  tag.localName = "g" ∧ ∃ as, Attributes.ofTag tag = .ok as ∧ as.get? "transform" = some text

variable {tag : Tag} {acts : List (Point ℝ → Point ℝ)}

/-- The own map of an element does what its transforms do. -/
lemma Acts.exists_owns (does : Acts tag acts) :
    ∃ as, ∃ own : Affine ℝ, Owns tag as own ∧ ∀ p, own.apply p = actAll acts p := by
  obtain ⟨as, attributes, transforms⟩ := does
  cases text : as.get? "transform" with
  | none =>
    rw [text] at transforms
    cases transforms
    refine ⟨as, .identity, ⟨attributes, ?_⟩, Affine.apply_identity⟩
    rw [ownMap, text]
    rfl
  | some text' =>
    rw [text] at transforms
    obtain ⟨own, read, applied⟩ := Transforms.exists_transform transforms
    refine ⟨as, own, ⟨attributes, ?_⟩, applied⟩
    rw [ownMap, text]
    dsimp only
    rw [readTransform, read]
    rfl

/-- The maps of nested elements do what all their transforms do, the outermost last. -/
lemma exists_maps {levels : List Level} {actss : List (List (Point ℝ → Point ℝ))}
    (does : List.Forall₂ (fun level acts => Acts level.tag acts) levels actss) :
    ∃ maps : List (Affine ℝ), OwnsAll levels maps ∧ ∀ outer p,
      (maps.foldl Affine.compose outer).apply p = outer.apply (actAll actss.flatten p) := by
  induction does with
  | nil => exact ⟨[], .nil, fun outer p => rfl⟩
  | cons first _ ih =>
    obtain ⟨as, own, owns, applied⟩ := first.exists_owns
    obtain ⟨maps, all, composed⟩ := ih
    refine ⟨own :: maps, .cons ⟨as, owns⟩ all, fun outer p => ?_⟩
    rw [List.foldl_cons, composed, Affine.apply_compose, applied, List.flatten_cons, actAll_append]

/-! ### The chain -/

/-- The elements around a place: some outside of the root element, the root element, and some inside
it. `shown` is the map of the page, and `acts` are all functions from the root element inwards. -/
structure Ancestry (outer : List Level) (root : Level) (inner : List Level) (page : Page ℝ)
    (shown : Affine ℝ) (acts : List (Point ℝ → Point ℝ)) : Prop where
  rootless : ∀ level ∈ outer, level.before.Rootless ∧ level.tag.localName ≠ "svg"
  outside : ∃ actss, List.Forall₂ (fun level acts => Acts level.tag acts) outer actss
  isRoot : ∃ as, Attributes.ofTag root.tag = .ok as ∧ IsRoot root as page shown
  inside : ∃ actss, List.Forall₂ (fun level acts => Acts level.tag acts) (root :: inner) actss ∧
    acts = actss.flatten

variable {outer inner : List Level} {root : Level} {page : Page ℝ} {shown : Affine ℝ}

/-- What stands at a place of a document is drawn under the map of the page and the functions around
the place. -/
lemma Ancestry.exists_around_document (ancestry : Ancestry outer root inner page shown acts)
    (flattening : Flattening ℝ) :
    ∃ map : Affine ℝ, (∀ p, map.apply p = shown.apply (actAll acts p)) ∧
      ∃ above below : Except (Fault ℝ) (List (Polyline ℝ)), ∀ core : Forest,
        (core.within (outer ++ root :: inner)).document flattening = (do
          let before ← above
          let lines ← core.lines flattening map
          let behind ← below
          .ok ⟨page, before ++ lines ++ behind⟩) := by
  obtain ⟨rootless, ⟨_, outside⟩, ⟨as, read, isRoot⟩, ⟨_, inside, rfl⟩⟩ := ancestry
  obtain ⟨outerMaps, ownsOuter, _⟩ := exists_maps outside
  cases inside with
  | @cons _ acts _ actss first inside =>
    obtain ⟨as', own, owns, applied⟩ := first.exists_owns
    obtain rfl : as = as' := Except.ok.inj (read.symm.trans owns.attributes)
    obtain ⟨maps, ownsInner, composed⟩ := exists_maps inside
    obtain ⟨above, below, around⟩ :=
      isRoot.encloses owns rootless ownsOuter ownsInner flattening .identity
    refine ⟨maps.foldl Affine.compose (shown.compose own), fun p => ?_, above, below,
      fun core => ?_⟩
    · rw [composed, Affine.apply_compose, applied, List.flatten_cons, actAll_append]
    · simp only [Forest.document, around, bind_assoc, Except.bind_of_ok, Option.getD_some]

/-! ### Groups -/

/-- A group draws nothing itself. -/
lemma IsGroup.place {text : String} {map : Affine ℝ} (group : IsGroup tag text)
    (read : transform text = .ok map) (flattening : Flattening ℝ) (outer : Affine ℝ)
    (page : Option (Page ℝ)) :
    Svg.place flattening tag outer page = .ok ⟨outer.compose map, page, []⟩ := by
  obtain ⟨name, as, attributes, given⟩ := group
  have owns : Owns tag as map := by
    refine ⟨attributes, ?_⟩
    rw [ownMap, given]
    dsimp only
    rw [readTransform, read]
    rfl
  have nothing (f : Frame ℝ) : elementLines f "g" as = .ok [] := rfl
  rw [owns.place (.inr (by simp [name])), name, nothing]
  rfl

/-- What is drawn the same inside any map can stand for each other at any place. -/
lemma Forest.draw_within {flattening : Flattening ℝ} {core core' : Forest}
    (same : ∀ outer page, core.draw flattening outer page = core'.draw flattening outer page)
    (levels : List Level) (outer : Affine ℝ) (page : Option (Page ℝ)) :
    (core.within levels).draw flattening outer page =
      (core'.within levels).draw flattening outer page := by
  induction levels generalizing outer page with
  | nil => exact same outer page
  | cons level levels ih => simp only [within, draw_append, draw, ih]

/-- A group with two lists draws what two groups with one list each draw. -/
lemma draw_group {A B : String} {joined first second : Tag} {t u : Affine ℝ}
    (isJoined : IsGroup joined (A ++ " " ++ B)) (isFirst : IsGroup first A)
    (isSecond : IsGroup second B) (readA : transform A = .ok t) (readB : transform B = .ok u)
    (flattening : Flattening ℝ) (content behind : Forest) (outer : Affine ℝ)
    (page : Option (Page ℝ)) :
    (Forest.element joined content behind).draw flattening outer page =
      (Forest.element first (.element second content .empty) behind).draw flattening outer
        page := by
  simp only [Forest.draw, isJoined.place (transform_append readA readB), isFirst.place readA,
    isSecond.place readB, Except.bind_of_ok, Affine.compose_assoc, bind_assoc, List.nil_append,
    List.append_nil]

/-! ### Paths -/

/-- A path is drawn where its own transform and the map around it put its points. -/
lemma IsPath.place {data : String} {as : Attributes} {own : Affine ℝ} (path : IsPath tag data)
    (owns : Owns tag as own) (flattening : Flattening ℝ) (outer : Affine ℝ) :
    Svg.place flattening tag outer (some .standard) = (do
      let lines ← userLines (Frame.cuts ⟨outer.compose own, flattening⟩) data
      .ok ⟨outer.compose own, some .standard, lines.map (·.map (outer.compose own).apply)⟩) := by
  obtain ⟨name, as', attributes, given⟩ := path
  obtain rfl : as = as' := Except.ok.inj (owns.attributes.symm.trans attributes)
  have drawn (f : Frame ℝ) : elementLines f "path" as = pathLines f data := by
    unfold elementLines
    rw [given]
    rfl
  rw [owns.place (.inl rfl), name, drawn, pathLines_eq_map, bind_assoc]
  rfl

/-- A path in a document is drawn where the page puts what the functions do to its points, from the
last one of the path to the first one of the root element. What is drawn before and behind it does
not depend on it. So a group with two lists of functions is drawn as two groups with one list each.
-/
theorem Document.result_of_chain (flattening : Flattening ℝ) :
    (∀ outer root inner page shown acts, Ancestry outer root inner page shown acts →
      ∀ before behind : Forest, ∃ above below : Except (Fault ℝ) (List (Polyline ℝ)),
        ∀ (path : Tag) (data : String) (own : List (Point ℝ → Point ℝ)),
          IsPath path data → Acts path own →
          ∃ map : Affine ℝ, (∀ p, map.apply p = shown.apply (actAll (acts ++ own) p)) ∧
            ∀ (inside : Forest) (text : String),
              ((before.append (.element path inside behind)).within
                (outer ++ root :: inner)).ReadFrom text →
              (Document.ofText flattening text).result = (do
                let first ← above
                let lines ← userLines (Frame.cuts ⟨map, flattening⟩) data
                let within ← inside.lines flattening map
                let last ← below
                .ok ⟨page, first ++
                  lines.map (·.map fun p => shown.apply (actAll (acts ++ own) p)) ++ within ++
                  last⟩)) ∧
    (∀ A B acts acts' joined first second, Transforms A acts → Transforms B acts' →
      IsGroup joined (A ++ " " ++ B) → IsGroup first A → IsGroup second B →
      ∀ (levels : List Level) (before content behind : Forest) (text text' : String),
        ((before.append (.element joined content behind)).within levels).ReadFrom text →
        ((before.append (.element first (.element second content .empty) behind)).within
          levels).ReadFrom text' →
        (Document.ofText flattening text).result = (Document.ofText flattening text').result) ∧
    (∀ A B acts acts', Transforms A acts → Transforms B acts' →
      Transforms (A ++ " " ++ B) (acts ++ acts')) ∧
    (∀ (name args : String) xs act, act? name xs = some act → Listed xs args.toList →
      Transforms (name ++ "(" ++ args ++ ")") [act]) := by
  refine ⟨?_, ?_, fun _ _ _ _ => .append, fun _ _ _ _ => transforms_of_listed⟩
  · intro outer root inner page shown acts ancestry before behind
    obtain ⟨map, applied, above, below, around⟩ := ancestry.exists_around_document flattening
    refine ⟨do
      let first ← above
      let further ← before.lines flattening map
      .ok (first ++ further), do
      let further ← behind.lines flattening map
      let last ← below
      .ok (further ++ last), fun path data own isPath does => ?_⟩
    obtain ⟨as, ownMap, owns, does⟩ := does.exists_owns
    have whole (p : Point ℝ) :
        (map.compose ownMap).apply p = shown.apply (actAll (acts ++ own) p) := by
      rw [Affine.apply_compose, does, applied, actAll_append]
    refine ⟨map.compose ownMap, whole, fun inside text read => ?_⟩
    simp only [read.result, around, Forest.lines_append, Forest.lines, isPath.place owns,
      funext whole, bind_assoc, Except.bind_of_ok, List.append_assoc]
  · intro A B acts acts' joined first second transforms transforms' isJoined isFirst isSecond
      levels before content behind text text' read read'
    obtain ⟨t, readA, _⟩ := transforms.exists_transform
    obtain ⟨u, readB, _⟩ := transforms'.exists_transform
    have same := draw_group isJoined isFirst isSecond readA readB flattening content behind
    have here (outer : Affine ℝ) (page : Option (Page ℝ)) :
        (before.append (.element joined content behind)).draw flattening outer page =
          (before.append (.element first (.element second content .empty) behind)).draw flattening
            outer page := by
      rw [Forest.draw_append, Forest.draw_append]
      simp only [same]
    rw [read.result, read'.result, Forest.document, Forest.document, Forest.draw_within here]

/-- A path in a group with two functions, and in two groups with one each. The group around the root
element does nothing. -/
theorem Document.result_of_chain_group :
    let text := "<g transform='scale(2)'><svg><g transform='translate(1 2) scale(2)'>"
      ++ "<path transform='translate(3)' d='M1 1L2 1'/></g></svg></g>"
    let text' := "<g transform='scale(2)'><svg><g transform='translate(1 2)'>"
      ++ "<g transform='scale(2)'><path transform='translate(3)' d='M1 1L2 1'/></g></g></svg></g>"
    let shown (p : Point ℝ) : Point ℝ :=
      Page.standard.userUnitMap.apply ⟨2 * (p.x + 3) + 1, 2 * (p.y + 0) + 2⟩
    (∃ (map : Affine ℝ) (above below : Except (Fault ℝ) (List (Polyline ℝ))),
      (∀ p, map.apply p = shown p) ∧
        (Document.ofText .standard text).result = (do
          let first ← above
          let lines ← userLines (Frame.cuts ⟨map, .standard⟩) "M1 1L2 1"
          let last ← below
          .ok ⟨.standard, first ++ lines.map (·.map shown) ++ last⟩)) ∧
      (Document.ofText (.standard : Flattening ℝ) text).result =
        (Document.ofText .standard text').result := by
  intro text text' shown
  obtain ⟨chain, regroup, joined, single⟩ := Document.result_of_chain (.standard : Flattening ℝ)
  -- The functions that are written.
  have numeral (n : ℕ) {x : ℝ} {cs : List Char} (worth : (n : ℝ) = x)
      (digits : (⟨false, n, 0⟩ : Decimal).plainChars = cs) : IsNumeral cs x :=
    isNumeral_of_plainChars _ (by simp [Decimal.toReal, worth]) digits
  have two : IsNumeral ['2'] 2 := numeral 2 (by norm_num) rfl
  let move : Point ℝ → Point ℝ := fun p => ⟨p.x + 1, p.y + 2⟩
  let double : Point ℝ → Point ℝ := fun p => ⟨2 * p.x, 2 * p.y⟩
  let shift : Point ℝ → Point ℝ := fun p => ⟨p.x + 3, p.y + 0⟩
  have blank : Separates [' '] := .blank (by simp [Text.isSpace]) (by simp)
  have moves : Transforms "translate(1 2)" [move] :=
    single "translate" "1 2" [1, 2] move rfl
      (.cons (numeral 1 (by norm_num) rfl) blank (.single two))
  have doubles : Transforms "scale(2)" [double] := single "scale" "2" [2] double rfl (.single two)
  have shifts : Transforms "translate(3)" [shift] :=
    single "translate" "3" [3] shift rfl (.single (numeral 3 (by norm_num) rfl))
  -- The elements that are read.
  let scaled : Level := ⟨.empty, ⟨"g transform='scale(2)'".toList⟩, .empty⟩
  let root : Level := ⟨.empty, ⟨"svg".toList⟩, .empty⟩
  let group : Level := ⟨.empty, ⟨"g transform='translate(1 2) scale(2)'".toList⟩, .empty⟩
  let moved : Tag := ⟨"g transform='translate(1 2)'".toList⟩
  let path : Tag := ⟨"path transform='translate(3)' d='M1 1L2 1'".toList⟩
  let leaf : Forest := .element path .empty .empty
  have read : (Forest.element scaled.tag
      (.element root.tag (.element group.tag leaf .empty) .empty) .empty).ReadFrom text :=
    ⟨[.start scaled.tag, .start root.tag, .start group.tag, .childless path, .stop, .stop, .stop],
      .element (.element (.element (.childless .empty) .empty) .empty) .empty, by decide +kernel⟩
  have read' : (Forest.element scaled.tag (.element root.tag
      (.element moved (.element scaled.tag leaf .empty) .empty) .empty) .empty).ReadFrom text' :=
    ⟨[.start scaled.tag, .start root.tag, .start moved, .start scaled.tag, .childless path,
        .stop, .stop, .stop, .stop],
      .element (.element (.element (.element (.childless .empty) .empty) .empty) .empty) .empty,
      by decide +kernel⟩
  have isGroup : IsGroup group.tag ("translate(1 2)" ++ " " ++ "scale(2)") :=
    ⟨rfl, ⟨[("transform", "translate(1 2) scale(2)")]⟩, by decide +kernel, by decide +kernel⟩
  have isMoved : IsGroup moved "translate(1 2)" :=
    ⟨rfl, ⟨[("transform", "translate(1 2)")]⟩, by decide +kernel, rfl⟩
  have isScaled : IsGroup scaled.tag "scale(2)" :=
    ⟨rfl, ⟨[("transform", "scale(2)")]⟩, by decide +kernel, rfl⟩
  have isPath : IsPath path "M1 1L2 1" :=
    ⟨rfl, ⟨[("transform", "translate(3)"), ("d", "M1 1L2 1")]⟩, by decide +kernel, rfl⟩
  have doesGroup : Acts group.tag [move, double] := by
    obtain ⟨_, as, read, given⟩ := isGroup
    refine ⟨as, read, ?_⟩
    rw [given]
    exact joined _ _ _ _ moves doubles
  have doesScaled : Acts scaled.tag [double] :=
    ⟨⟨[("transform", "scale(2)")]⟩, by decide +kernel, doubles⟩
  have doesPath : Acts path [shift] :=
    ⟨⟨[("transform", "translate(3)"), ("d", "M1 1L2 1")]⟩, by decide +kernel, shifts⟩
  have ancestry : Ancestry [scaled] root [group] .standard Page.standard.userUnitMap
      [move, double] := by
    refine ⟨?_, ⟨_, .cons doesScaled .nil⟩, ⟨⟨[]⟩, by decide +kernel, trivial, rfl, rfl⟩,
      ⟨[[], [move, double]], .cons ⟨⟨[]⟩, by decide +kernel, rfl⟩ (.cons doesGroup .nil), rfl⟩⟩
    rw [List.forall_mem_singleton]
    exact ⟨trivial, by decide +kernel⟩
  refine ⟨?_, regroup _ _ _ _ group.tag moved scaled.tag moves doubles isGroup isMoved isScaled
    [scaled, root] .empty leaf .empty text text' read read'⟩
  obtain ⟨above, below, drawn⟩ := chain _ _ _ _ _ _ ancestry .empty .empty
  obtain ⟨map, applied, result⟩ := drawn path "M1 1L2 1" [shift] isPath doesPath
  refine ⟨map, above, below, applied, (result .empty text read).trans ?_⟩
  simp only [Forest.lines, Except.bind_of_ok, List.append_nil]
  rfl

end Toolpath.Svg
