import Toolpath.Markup.Event
import Toolpath.Svg.Page
import Toolpath.Svg.Path
import Toolpath.Svg.Rect

/-!
# Documents

A document is walked tag by tag. The walk keeps one map for each open element, the page once it is
known, and what was drawn so far. The first `svg` element gives the page; later ones are groups.
-/

namespace Toolpath.Svg

open Markup (Attributes Event Tag)

/-- What a walk has come to. -/
structure Walk (α : Type) where
  /-- The maps of the open elements, the innermost first. -/
  maps : List (Affine α)
  page : Option (Page α)
  drawing : Drawing α

/-- A page with what is drawn on it. -/
structure Document (α : Type) where
  page : Page α
  polylines : List (Polyline α)
deriving DecidableEq, Repr

variable {α : Type} [Scalar α]

/-- The map of a transform attribute, which is told. -/
def readTransform (text : String) : Attempt α (Affine α) :=
  match transform text with
  | .error cause => throw (.transform text cause)
  | .ok map => do
    Attempt.note (.transformRead text map)
    pure map

/-- The map that an element adds to those around it. -/
def ownMap (as : Attributes) : Attempt α (Affine α) :=
  match as.get? "transform" with
  | none => pure .identity
  | some text => readTransform text

namespace Walk

/-- The beginning of a walk. -/
def start : Walk α := ⟨[], none, .empty⟩

/-- The map of the innermost open element. -/
def innermost (w : Walk α) : Affine α :=
  w.maps.headD .identity

/-- Draws strokes under a map. -/
def drawStrokes (map : Affine α) (flattening : Flattening α) (strokes : List (Stroke α)) :
    Walk α → Attempt α (Walk α)
  | ⟨maps, page, drawing⟩ => do
    let s ← ExceptT.lift ((Sketch.begin drawing).drawAll ⟨map, flattening⟩ strokes)
    pure ⟨maps, page, s.finish⟩

/-- Draws path data under a map. -/
def drawData (map : Affine α) (flattening : Flattening α) (data : String) :
    Walk α → Attempt α (Walk α)
  | ⟨maps, page, drawing⟩ => do
    let (s, fault) ← ExceptT.lift ((Sketch.begin drawing).drawPath ⟨map, flattening⟩ data)
    match fault with
    | some fault => throw fault
    | none => pure ⟨maps, page, s.drawing⟩

/-- What an element that has been opened draws, or what is told about it. -/
def drawElement (flattening : Flattening α) (name : String) (as : Attributes) (isRoot : Bool)
    (map : Affine α) (w : Walk α) : Attempt α (Walk α) :=
  match name with
  | "svg" => do
    if !isRoot then Attempt.note .nestedRoot
    pure w
  | "path" =>
    match as.get? "d" with
    | none => do
      Attempt.note .pathWithoutData
      pure w
    | some data => do
      Attempt.note (.pathFound w.maps.length)
      w.drawData map flattening data
  | "rect" => do
    match ← Rect.ofAttributes as with
    | none => pure w
    | some rect => w.drawStrokes map flattening rect.strokes
  | name => do
    if isUnsupportedShape name then Attempt.note (.unsupportedElement name)
    pure w

/-- Opens an element: its map joins the others, and it is drawn. -/
def enter (flattening : Flattening α) (tag : Tag) (w : Walk α) : Attempt α (Walk α) := do
  match Attributes.ofTag tag with
  | .error fault => throw (.markup fault)
  | .ok as =>
    let own ← ownMap as
    let name := tag.localName
    let isRoot := name == "svg" && w.page.isNone
    if isRoot then
      let (page, outer) ← Page.ofRoot (as.get? "width") (as.get? "height") (as.get? "viewBox")
      -- The root's own map lies inside the map of the page.
      let map := outer.compose own
      drawElement flattening name as isRoot map
        { w with page := some page, maps := map :: w.maps }
    else
      let map := w.innermost.compose own
      drawElement flattening name as isRoot map { w with maps := map :: w.maps }

/-- Closes the innermost open element. -/
def leave (w : Walk α) : Walk α :=
  { w with maps := w.maps.tail }

/-- Follows one event. -/
def step (flattening : Flattening α) (event : Event) (w : Walk α) : Attempt α (Walk α) :=
  match event with
  | .start tag => w.enter flattening tag
  | .childless tag => do
    let w ← w.enter flattening tag
    pure w.leave
  | .stop => pure w.leave

/-- Follows events in order. -/
def steps (flattening : Flattening α) : List Event → Walk α → Attempt α (Walk α)
  | [], w => pure w
  | event :: events, w => do
    let w ← w.step flattening event
    steps flattening events w

/-- The document at the end of a walk. -/
def finish (w : Walk α) : Attempt α (Document α) :=
  match w.page with
  | some page => pure ⟨page, w.drawing.polylines⟩
  | none => do
    Attempt.note .noRoot
    pure ⟨.standard, w.drawing.polylines⟩

end Walk

/-- Reads a document. A fault of its markup counts after everything before it. -/
def Document.ofText (flattening : Flattening α) (text : String) : Attempt α (Document α) := do
  let reading := Markup.Reading.ofText text
  let w ← Walk.start.steps flattening reading.events
  match reading.fault with
  | some fault => throw (.markup fault)
  | none => w.finish

end Toolpath.Svg
