import Toolpath.Pattern.Preview
import Toolpath.Proofs.Decimal.Plain
import Toolpath.Proofs.Document.Tree
import Toolpath.Proofs.Markup.Written

/-!
# Reading previews

A preview whose numbers can be read back is read as the document it was written as: a page as large
as the bounds of the steps, the bounds as its view box, and one path on it
(`result_ofText_preview`). The strokes of the path are the steps in order.
-/

namespace Toolpath.Page

/-! ### Pages -/

variable {α : Type} [Scalar α] {width height : String} {W H : α}

lemma result_dimension {text : String} {inches : α} (read : Svg.extent text = .ok inches)
    (which : Dimension) : (dimension which (some text)).result = .ok inches := by
  rw [dimension, read]
  rfl

lemma result_ofRoot_viewBox {viewBox : String} {box : Svg.ViewBox α}
    (wide : Svg.extent width = .ok W) (high : Svg.extent height = .ok H)
    (shown : Svg.ViewBox.ofText? viewBox = some box) :
    (ofRoot (some width) (some height) (some viewBox)).result =
      .ok (⟨W, H⟩, viewBoxMap ⟨W, H⟩ box) := by
  rw [ofRoot, Attempt.result_bind, result_dimension wide, Except.bind_of_ok, Attempt.result_bind,
    result_dimension high, Except.bind_of_ok]
  dsimp only
  rw [shown]
  rfl

lemma result_ofRoot_none (wide : Svg.extent width = .ok W) (high : Svg.extent height = .ok H) :
    (ofRoot (some width) (some height) none).result = .ok (⟨W, H⟩, userUnitMap ⟨W, H⟩) := by
  rw [ofRoot, Attempt.result_bind, result_dimension wide, Except.bind_of_ok, Attempt.result_bind,
    result_dimension high, Except.bind_of_ok]
  rfl

end Toolpath.Page

namespace Toolpath.Pattern

open Decimal (Ends)
open Markup
open Scalar (chars)
open Text (isSpace)

variable {α : Type} [Scalar α]

/-- What holds of all numbers of a preview. -/
structure Numbers (P : α → Prop) (steps : List (Step α)) : Prop where
  minX : P (Bounds.padded steps).minX
  minY : P (Bounds.padded steps).minY
  width : P ((Bounds.padded steps).maxX - (Bounds.padded steps).minX)
  height : P ((Bounds.padded steps).maxY - (Bounds.padded steps).minY)
  targets : ∀ step ∈ steps, P step.target.x ∧ P step.target.y

/-- All numbers of a preview can be read back. -/
abbrev Legible (steps : List (Step α)) : Prop := Numbers Scalar.Legible steps

/-- All numbers of a preview can stand in a value. -/
abbrev Quotable (steps : List (Step α)) : Prop := Numbers (fun x => IsValue (chars x)) steps

/-! ### The text -/

def widthChars (b : Bounds α) : List Char := chars (b.maxX - b.minX) ++ ['i', 'n']

def heightChars (b : Bounds α) : List Char := chars (b.maxY - b.minY) ++ ['i', 'n']

def viewBoxChars (b : Bounds α) : List Char :=
  chars b.minX ++ ' ' :: (chars b.minY ++ ' ' ::
    (chars (b.maxX - b.minX) ++ ' ' :: chars (b.maxY - b.minY)))

/-- The attributes of the root element. -/
def rootEntries (b : Bounds α) : List (List Char × List Char) :=
  [("width".toList, widthChars b), ("height".toList, heightChars b),
    ("viewBox".toList, viewBoxChars b), ("version".toList, "1.1".toList),
    ("xmlns".toList, "http://www.w3.org/2000/svg".toList)]

/-- The steps as path data. -/
def pathData (steps : List (Step α)) : String := " ".intercalate (steps.map Step.data)

/-- The attributes of the path. -/
def pathEntries (steps : List (Step α)) : List (List Char × List Char) :=
  [("d".toList, (pathData steps).toList),
    ("style".toList, "stroke:#000;stroke-width:0.01;fill:none".toList)]

/-- What stands in the instruction that a preview begins with. -/
def prologText : String := "xml version=\"1.0\" standalone=\"no\""

/-- What stands in the document type of a preview. -/
def doctypeText : String :=
  " svg PUBLIC \"-//W3C//DTD SVG 1.1//EN\" \"http://www.w3.org/Graphics/SVG/1.1/DTD/svg11.dtd\""

lemma toList_preview (steps : List (Step α)) :
    (preview steps).toList =
      '<' :: '?' :: (prologText.toList ++ '?' :: '>' ::
        ('\n' :: '<' :: ("!DOCTYPE".toList ++ doctypeText.toList ++ '>' ::
          ('\n' :: '<' :: (tagChars "svg".toList (rootEntries (.padded steps)) ++ '>' ::
            ('\n' :: '<' :: (tagChars "path".toList (pathEntries steps) ++ ' ' :: '/' :: '>' ::
              ('\n' :: '<' :: '/' :: ("svg".toList ++ '>' :: ['\n']))))))))) := by
  have prolog : "<?xml version=\"1.0\" standalone=\"no\"?>\n".toList =
      '<' :: '?' :: (prologText.toList ++ ['?', '>', '\n']) := by simp [prologText]
  have doctype (rest : List Char) : "<!DOCTYPE svg PUBLIC \"-//W3C//DTD SVG 1.1//EN\" ".toList ++
      ("\"http://www.w3.org/Graphics/SVG/1.1/DTD/svg11.dtd\">\n".toList ++ rest) =
        '<' :: ("!DOCTYPE".toList ++ (doctypeText.toList ++ '>' :: '\n' :: rest)) := by
    simp [doctypeText]
  have width : "<svg width=\"".toList =
      '<' :: ("svg".toList ++ ' ' :: ("width".toList ++ ['=', '"'])) := by simp
  have height : "in\" height=\"".toList =
      ['i', 'n', '"'] ++ ' ' :: ("height".toList ++ ['=', '"']) := by simp
  have viewBox : "in\" viewBox=\"".toList =
      ['i', 'n', '"'] ++ ' ' :: ("viewBox".toList ++ ['=', '"']) := by simp
  have version : "\" version=\"1.1\" xmlns=\"http://www.w3.org/2000/svg\">\n".toList =
      '"' :: (entryChars ("version".toList, "1.1".toList)
        ++ entryChars ("xmlns".toList, "http://www.w3.org/2000/svg".toList) ++ ['>', '\n']) := by
    simp [entryChars]
  have path : "<path d=\"".toList =
      '<' :: ("path".toList ++ ' ' :: ("d".toList ++ ['=', '"'])) := by simp
  have style : "\" style=\"stroke:#000;stroke-width:0.01;fill:none\" />\n".toList =
      '"' :: (entryChars ("style".toList, "stroke:#000;stroke-width:0.01;fill:none".toList)
        ++ [' ', '/', '>', '\n']) := by simp [entryChars]
  have stop : "</svg>\n".toList = '<' :: '/' :: ("svg".toList ++ ['>', '\n']) := by simp
  have space : " ".toList = [' '] := by simp
  -- Unfolded first: the equation of `preview` is slow to make.
  unfold preview
  simp only [String.toList_append, prolog, doctype, width, height, viewBox,
    version, path, style, stop, space, tagChars, rootEntries, pathEntries, List.flatMap_cons,
    List.flatMap_nil, entryChars, widthChars, heightChars, viewBoxChars, chars, pathData,
    List.append_assoc, List.cons_append, List.nil_append]

/-! ### The path -/

/-- The stroke that a step is written as. -/
def Step.stroke : Step α → Svg.Stroke α
  | .move p => .move p
  | .line p => .line p

/-- The command that draws a step. -/
def Step.command : Step α → Svg.Command
  | .move _ => .move
  | .line _ => .line

def Step.letter : Step α → Char
  | .move _ => 'M'
  | .line _ => 'L'

lemma toList_data (step : Step α) :
    step.data.toList =
      step.letter :: ' ' :: (chars step.target.x ++ ' ' :: chars step.target.y) := by
  cases step <;> simp [Step.data, Step.letter, chars]

lemma toList_pathData_nil : (pathData ([] : List (Step α))).toList = [] := by
  simp [pathData]

lemma toList_pathData_singleton (step : Step α) :
    (pathData [step]).toList = step.data.toList := by
  simp [pathData]

lemma toList_pathData_cons_cons (step next : Step α) (steps : List (Step α)) :
    (pathData (step :: next :: steps)).toList =
      step.data.toList ++ ' ' :: (pathData (next :: steps)).toList := by
  simp [pathData]

lemma exists_pathData_eq_cons (step : Step α) (steps : List (Step α)) :
    ∃ cs, (pathData (step :: steps)).toList = step.letter :: cs := by
  cases steps with
  | nil => exact ⟨_, by rw [toList_pathData_singleton, toList_data]⟩
  | cons next steps => exact ⟨_, by rw [toList_pathData_cons_cons, toList_data, List.cons_append]⟩

/-- Two numbers are read as the point they are written for. -/
lemma numbers_append {x y : α} (hx : Scalar.Legible x) (hy : Scalar.Legible y) {rest : List Char}
    (ends : Ends rest) :
    Svg.numbers 2 (chars x ++ ' ' :: (chars y ++ rest)) = (some [x, y], rest) := by
  simp only [Svg.numbers, hx.number?_append (Scalar.ends_space _), one_ne_zero, if_false,
    hy.passSeparator_append, hy.number?_append ends, if_true, Option.map_some]

/-- No group begins at the letter of a step. -/
lemma readGroups_letter (step : Step α) (cs : List Char) :
    (Svg.readGroups .line (' ' :: step.letter :: cs) : List (Svg.Stroke α) × _) =
      ([], step.letter :: cs) := by
  cases step <;> rw [Svg.readGroups_eq] <;> rfl

lemma readGroups_nil : (Svg.readGroups .line [] : List (Svg.Stroke α) × _) = ([], []) := by
  rw [Svg.readGroups_eq]
  rfl

/-- A step is read as its stroke, and no other group is read up to the next letter. -/
lemma read_step {step : Step α} (hx : Scalar.Legible step.target.x)
    (hy : Scalar.Legible step.target.y) {rest behind : List Char} (ends : Ends rest)
    (others : (Svg.readGroups .line rest : List (Svg.Stroke α) × _) = ([], behind))
    (text : List Char) :
    Svg.Script.read text (step.data.toList ++ rest) =
      (Svg.Script.read text behind).behind false [step.stroke] := by
  have ahead : step.data.toList ++ rest =
      step.letter :: ' ' :: (chars step.target.x ++ ' ' :: (chars step.target.y ++ rest)) := by
    simp [toList_data]
  have start (cs : List Char) : (step.letter :: cs).dropWhile isSpace = step.letter :: cs := by
    cases step <;> rfl
  have notClose : step.letter.toUpper ≠ 'Z' := by
    unfold Step.letter
    split <;> decide
  have known : Svg.Command.ofCapital? step.letter.toUpper = some step.command := by
    cases step <;> rfl
  have capital : step.letter.isLower = false := by cases step <;> rfl
  have goesOn : step.command.repeated = .line := by cases step <;> rfl
  have first : Svg.readGroup step.command
      (chars step.target.x ++ ' ' :: (chars step.target.y ++ rest)) = (some step.stroke, rest) := by
    have size : step.command.size = 2 := by cases step <;> rfl
    rw [Svg.readGroup, size, numbers_append hx hy ends]
    cases step <;> rfl
  rw [ahead, Svg.Script.read_eq, start]
  dsimp only
  rw [if_neg notClose, known]
  dsimp only
  rw [hx.dropWhile_space_append, first]
  dsimp only
  rw [goesOn, others, capital]

/-- The path data of steps are read as their strokes. -/
lemma read_pathData {steps : List (Step α)}
    (legible : ∀ step ∈ steps, Scalar.Legible step.target.x ∧ Scalar.Legible step.target.y)
    (text : List Char) :
    Svg.Script.read text (pathData steps).toList =
      ⟨steps.map fun step => (false, step.stroke), none⟩ := by
  induction steps with
  | nil =>
    rw [toList_pathData_nil, Svg.Script.read_eq]
    rfl
  | cons step steps ih =>
    obtain ⟨hx, hy⟩ := legible step List.mem_cons_self
    have later := ih fun next mem => legible next (List.mem_cons_of_mem step mem)
    cases steps with
    | nil =>
      have ended : Svg.Script.read text (step.data.toList ++ []) = _ :=
        read_step hx hy Decimal.ends_nil readGroups_nil text
      rw [toList_pathData_nil] at later
      rw [List.append_nil, later] at ended
      rw [toList_pathData_singleton, ended]
      rfl
    | cons next steps =>
      obtain ⟨cs, first⟩ := exists_pathData_eq_cons next steps
      have groups := readGroups_letter next cs
      rw [← first] at groups
      rw [toList_pathData_cons_cons, read_step hx hy (Scalar.ends_space _) groups, later]
      rfl

/-! ### The document -/

lemma isValue_chars {x : α} (legible : Scalar.Legible x) : IsValue (chars x) :=
  fun _ mem => ⟨legible.ne_of_mem_chars mem (by decide), legible.ne_of_mem_chars mem (by decide)⟩

lemma Numbers.quotable {steps : List (Step α)} (legible : Legible steps) : Quotable steps where
  minX := isValue_chars legible.minX
  minY := isValue_chars legible.minY
  width := isValue_chars legible.width
  height := isValue_chars legible.height
  targets := fun step mem =>
    ⟨isValue_chars (legible.targets step mem).1, isValue_chars (legible.targets step mem).2⟩

lemma isValue_data {step : Step α} (hx : IsValue (chars step.target.x))
    (hy : IsValue (chars step.target.y)) : IsValue step.data.toList := by
  have numbers : IsValue (' ' :: (chars step.target.x ++ ' ' :: chars step.target.y)) :=
    (hx.append (hy.cons (by decide))).cons (by decide)
  rw [toList_data]
  refine numbers.cons ?_
  unfold Step.letter
  split <;> decide

lemma isValue_pathData {steps : List (Step α)}
    (quotable : ∀ step ∈ steps, IsValue (chars step.target.x) ∧ IsValue (chars step.target.y)) :
    IsValue (pathData steps).toList := by
  induction steps with
  | nil => simp [toList_pathData_nil, IsValue]
  | cons step steps ih =>
    obtain ⟨hx, hy⟩ := quotable step List.mem_cons_self
    have later := ih fun next mem => quotable next (List.mem_cons_of_mem step mem)
    cases steps with
    | nil =>
      rw [toList_pathData_singleton]
      exact isValue_data hx hy
    | cons next steps =>
      rw [toList_pathData_cons_cons]
      exact (isValue_data hx hy).append (later.cons (by decide))

lemma writable_rootEntries {steps : List (Step α)} (quotable : Quotable steps) :
    ∀ a ∈ rootEntries (.padded steps), Writable a := by
  have width := quotable.width
  have height := quotable.height
  have units : IsValue ['i', 'n'] := by simp [IsValue]
  have box : IsValue (viewBoxChars (.padded steps)) :=
    quotable.minX.append ((quotable.minY.append
      ((width.append (height.cons (by decide))).cons (by decide))).cons (by decide))
  intro a mem
  simp only [rootEntries, List.mem_cons, List.not_mem_nil, or_false] at mem
  rcases mem with rfl | rfl | rfl | rfl | rfl
  · exact ⟨by simp, by simp [isBare, isSpace], width.append units⟩
  · exact ⟨by simp, by simp [isBare, isSpace], height.append units⟩
  · exact ⟨by simp, by simp [isBare, isSpace], box⟩
  · exact ⟨by simp, by simp [isBare, isSpace], by simp [IsValue]⟩
  · exact ⟨by simp, by simp [isBare, isSpace], by simp [IsValue]⟩

lemma writable_pathEntries {steps : List (Step α)} (quotable : Quotable steps) :
    ∀ a ∈ pathEntries steps, Writable a := by
  intro a mem
  simp only [pathEntries, List.mem_cons, List.not_mem_nil, or_false] at mem
  rcases mem with rfl | rfl
  · exact ⟨by simp, by simp [isBare, isSpace], isValue_pathData quotable.targets⟩
  · exact ⟨by simp, by simp [isBare, isSpace], by simp [IsValue]⟩

lemma isName_svg : IsName "svg".toList :=
  ⟨by simp, by simp [isBare, isSpace], by simp⟩

lemma isName_path : IsName "path".toList :=
  ⟨by simp, by simp [isBare, isSpace], by simp⟩

/-- The root element of a preview. -/
def rootTag (steps : List (Step α)) : Tag := ⟨tagChars "svg".toList (rootEntries (.padded steps))⟩

/-- The path of a preview. -/
def pathTag (steps : List (Step α)) : Tag := ⟨tagChars "path".toList (pathEntries steps) ++ [' ']⟩

/-- A preview is read as its root element with the path inside it. -/
lemma reading_preview {steps : List (Step α)} (quotable : Quotable steps) :
    Reading.ofText (preview steps) =
      ⟨[.start (rootTag steps), .childless (pathTag steps), .stop], none⟩ := by
  have lineFeed : ∀ c ∈ ['\n'], c ≠ '<' := by simp
  have ended : Reads [] ['\n'] [] := reads_text lineFeed
  have stop := ended.stopTag isName_svg lineFeed
  have path := stop.childlessTag isName_path (writable_pathEntries quotable) lineFeed
  have root := path.startTag isName_svg (writable_rootEntries quotable) lineFeed
  have doctype : Reads [] ('\n' :: '<' :: ("!DOCTYPE".toList ++ doctypeText.toList ++ '>' :: _)) _ :=
    root.doctype (by simp [doctypeText]) (by simp [doctypeText, isSpace]) lineFeed
  have prolog : Reads [] ('<' :: '?' :: (prologText.toList ++ '?' :: '>' :: _)) _ :=
    doctype.instruction (by simp [prologText]) (List.forall_mem_nil _)
  rw [Reading.ofText, toList_preview]
  exact prolog _ rfl

/-! ### The page -/

lemma isBlank_of_mem_head? {x : α} (legible : Scalar.Legible x) (rest : List Char) :
    ∀ c ∈ (chars x ++ rest).head?, Text.isBlank c = false := by
  obtain ⟨c, cs, start, dark, _⟩ := legible.exists_chars_eq_cons
  intro d mem
  obtain rfl : c = d := by simpa [start] using mem
  exact dark

/-- A number with the unit of an inch. -/
lemma coordinate_inches {x : α} (legible : Scalar.Legible x) :
    Svg.coordinate (String.ofList (chars x ++ ['i', 'n'])) =
      .ok (x / Svg.AbsoluteUnit.inch.perInch) := by
  have whole : Text.trim (chars x ++ ['i', 'n']) = chars x ++ ['i', 'n'] :=
    Text.trim_eq_self (isBlank_of_mem_head? legible _) (by simp [Text.isBlank])
  have ends : Ends ['i', 'n'] := by simp [Ends]
  rw [Svg.coordinate, String.toList_ofList, whole, legible.number_append ends]
  rfl

lemma isBlank_of_mem_getLast? {x : α} (legible : Scalar.Legible x) (front : List Char) :
    ∀ c ∈ (front ++ chars x).getLast?, Text.isBlank c = false := by
  obtain ⟨d, ds, start, _⟩ := legible.exists_chars_eq_cons
  intro c mem
  have last : c ∈ (chars x).getLast? := by
    rw [start] at mem ⊢
    rwa [List.getLast?_append_cons] at mem
  exact legible.not_isBlank (List.mem_of_getLast? last)

/-- Four numbers are read as the view box that they are, if its sizes are above zero. -/
lemma ofText?_chars {x y width height : α} (hx : Scalar.Legible x) (hy : Scalar.Legible y)
    (hw : Scalar.Legible width) (hh : Scalar.Legible height) :
    Svg.ViewBox.ofText? (String.ofList (chars x ++ ' ' :: (chars y ++ ' ' ::
      (chars width ++ ' ' :: chars height)))) =
        if width ≤ 0.0 ∨ height ≤ 0.0 then none else some ⟨x, y, width, height⟩ := by
  have whole : Text.trim (chars x ++ ' ' :: (chars y ++ ' ' :: (chars width ++ ' ' :: chars height))) =
      chars x ++ ' ' :: (chars y ++ ' ' :: (chars width ++ ' ' :: chars height)) := by
    refine Text.trim_eq_self (isBlank_of_mem_head? hx _) ?_
    have last := isBlank_of_mem_getLast? hh
      (chars x ++ ' ' :: (chars y ++ ' ' :: (chars width ++ [' '])))
    simpa using last
  have third (n : ℕ) : Svg.item n (chars width ++ ' ' :: chars height) = .ok (width, chars height) := by
    simpa using hw.item_append hh n []
  rw [Svg.ViewBox.ofText?, String.toList_ofList, whole]
  simp only [Scalar.bind_of_read (hx.item_append hy _ _), Scalar.bind_of_read (hy.item_append hw _ _),
    Scalar.bind_of_read (third _), Scalar.bind_of_read (hh.item_self _)]
  rfl

/-! ### What a preview is read as -/

/-- The page of a preview. -/
def previewPage (b : Bounds α) : Page α :=
  ⟨(b.maxX - b.minX) / Svg.AbsoluteUnit.inch.perInch,
    (b.maxY - b.minY) / Svg.AbsoluteUnit.inch.perInch⟩

/-- The map of a preview onto its page. -/
def previewMap (b : Bounds α) : Affine α :=
  (previewPage b).viewBoxMap ⟨b.minX, b.minY, b.maxX - b.minX, b.maxY - b.minY⟩

/-- The sizes of a preview are above zero. -/
structure Bounds.Proper (b : Bounds α) : Prop where
  wide : ¬ b.maxX - b.minX ≤ 0.0
  high : ¬ b.maxY - b.minY ≤ 0.0
  width : ¬ (previewPage b).width < 0.0
  height : ¬ (previewPage b).height < 0.0

variable {steps : List (Step α)}

lemma result_ofRoot (legible : Legible steps) (proper : (Bounds.padded steps).Proper) :
    (Page.ofRoot (some (String.ofList (widthChars (.padded steps))))
        (some (String.ofList (heightChars (.padded steps))))
        (some (String.ofList (viewBoxChars (.padded steps))))).result =
      .ok (previewPage (.padded steps), previewMap (.padded steps)) := by
  have inches {x : α} (legible : Scalar.Legible x)
      (positive : ¬ x / Svg.AbsoluteUnit.inch.perInch < 0.0) :
      Svg.extent (String.ofList (chars x ++ ['i', 'n'])) =
        .ok (x / Svg.AbsoluteUnit.inch.perInch) := by
    rw [Svg.extent, coordinate_inches legible]
    exact if_neg positive
  have box := ofText?_chars legible.minX legible.minY legible.width legible.height
  rw [if_neg (not_or.2 ⟨proper.wide, proper.high⟩)] at box
  exact Page.result_ofRoot_viewBox (inches legible.width proper.width)
    (inches legible.height proper.height) box

/-- The attributes of the root element. -/
def rootAttributes (b : Bounds α) : Attributes :=
  ⟨[("width", String.ofList (widthChars b)), ("height", String.ofList (heightChars b)),
    ("viewBox", String.ofList (viewBoxChars b)), ("version", "1.1"),
    ("xmlns", "http://www.w3.org/2000/svg")]⟩

/-- The attributes of the path. -/
def pathAttributes (steps : List (Step α)) : Attributes :=
  ⟨[("d", pathData steps), ("style", "stroke:#000;stroke-width:0.01;fill:none")]⟩

lemma ofTag_rootTag (quotable : Quotable steps) :
    Attributes.ofTag (rootTag steps) = .ok (rootAttributes (.padded steps)) := by
  have written : Attributes.ofTag ⟨tagChars "svg".toList (rootEntries (.padded steps)) ++ []⟩ = _ :=
    Attributes.ofTag_written isName_svg (writable_rootEntries quotable) (by simp [rootEntries])
      (by simp)
  rw [List.append_nil] at written
  rw [rootTag, written]
  simp [rootEntries, rootAttributes]

lemma ofTag_pathTag (quotable : Quotable steps) :
    Attributes.ofTag (pathTag steps) = .ok (pathAttributes steps) := by
  rw [pathTag, Attributes.ofTag_written isName_path (writable_pathEntries quotable)
    (by simp [pathEntries]) (by simp [isSpace])]
  simp [pathEntries, pathAttributes]

lemma localName_rootTag (steps : List (Step α)) : (rootTag steps).localName = "svg" := by
  have named : (Tag.mk (tagChars "svg".toList (rootEntries (.padded steps)) ++ [])).name = _ :=
    name_tagChars isName_svg (by simp)
  rw [List.append_nil] at named
  rw [rootTag, Tag.localName, named]
  simp [localName]

lemma localName_pathTag (steps : List (Step α)) : (pathTag steps).localName = "path" := by
  rw [pathTag, Tag.localName, name_tagChars isName_path (by simp [isSpace])]
  simp [localName]

/-- Strokes that are drawn as they are are drawn as a script of them. -/
lemma draw_absolute (f : Svg.Frame α) (strokes : List (Svg.Stroke α)) (s : Svg.Sketch α) :
    Svg.Script.draw f ⟨strokes.map fun stroke => (false, stroke), none⟩ s =
      (s.drawAll f strokes).value := by
  induction strokes generalizing s with
  | nil => rfl
  | cons stroke strokes ih => exact ih _

/-- The path of a preview draws the steps. -/
lemma pathLines_pathData
    (legible : ∀ step ∈ steps, Scalar.Legible step.target.x ∧ Scalar.Legible step.target.y)
    (f : Svg.Frame α) :
    Svg.pathLines f (pathData steps) = .ok (Svg.strokeLines f (steps.map Step.stroke)) := by
  have script : Svg.Script.read (pathData steps).toList (pathData steps).toList =
      (⟨(steps.map Step.stroke).map fun stroke => (false, stroke), none⟩ : Svg.Script α) := by
    rw [read_pathData legible, List.map_map]
    rfl
  rw [Svg.pathLines, Svg.Sketch.drawPath, Text.Cursor.start, Text.Cursor.ofChars_eq_before,
    Svg.Sketch.value_drawData f _ (List.suffix_refl _), script, Svg.Script.outcome]
  dsimp only
  rw [draw_absolute]
  rfl

lemma result_ownMap {as : Attributes} (none : as.get? "transform" = none) :
    (Svg.ownMap as : Attempt α (Affine α)).result = .ok .identity := by
  rw [Svg.ownMap, none]
  rfl

/-- The page that the root element of a preview gives, and its map. -/
def rootPage (b : Bounds α) : Attempt α (Page α × Affine α) :=
  Page.ofRoot (some (String.ofList (widthChars b))) (some (String.ofList (heightChars b)))
    (some (String.ofList (viewBoxChars b)))

/-- The root element gives the page. -/
lemma place_rootTag (quotable : Quotable steps) (flattening : Flattening α) :
    Svg.place flattening (rootTag steps) .identity none =
      (rootPage (.padded steps)).result >>= fun (page, map) =>
        .ok ⟨map.compose .identity, some page, []⟩ := by
  have own : (Svg.ownMap (rootAttributes (.padded steps)) : Attempt α _).result = .ok .identity :=
    result_ownMap (by simp [rootAttributes, Attributes.get?])
  have page : Svg.surroundings (rootTag steps) (rootAttributes (.padded steps)) .identity none =
      (rootPage (.padded steps)).result >>= fun (page, map) => .ok (some page, map) := by
    have width : (rootAttributes (.padded steps)).get? "width" =
        some (String.ofList (widthChars (.padded steps))) := by
      simp [rootAttributes, Attributes.get?]
    have height : (rootAttributes (.padded steps)).get? "height" =
        some (String.ofList (heightChars (.padded steps))) := by
      simp [rootAttributes, Attributes.get?, List.lookup]
    have viewBox : (rootAttributes (.padded steps)).get? "viewBox" =
        some (String.ofList (viewBoxChars (.padded steps))) := by
      simp [rootAttributes, Attributes.get?, List.lookup]
    unfold Svg.surroundings
    rw [localName_rootTag]
    dsimp only
    rw [width, height, viewBox]
    rfl
  have nothing (f : Svg.Frame α) (as : Attributes) : Svg.elementLines f "svg" as = .ok [] := rfl
  rw [Svg.place, ofTag_rootTag quotable, Except.mapError, Except.bind_of_ok, own,
    Except.bind_of_ok, page, localName_rootTag, bind_assoc]
  rfl

/-- The path draws its data. -/
lemma place_pathTag (quotable : Quotable steps) (flattening : Flattening α) (outer : Affine α)
    (page : Page α) :
    Svg.place flattening (pathTag steps) outer (some page) =
      Svg.pathLines ⟨outer.compose .identity, flattening⟩ (pathData steps) >>= fun lines =>
        .ok ⟨outer.compose .identity, some page, lines⟩ := by
  have own : (Svg.ownMap (pathAttributes steps) : Attempt α _).result = .ok .identity :=
    result_ownMap (by simp [pathAttributes, Attributes.get?])
  have data : (pathAttributes steps).get? "d" = some (pathData steps) := by
    simp [pathAttributes, Attributes.get?]
  have lines (f : Svg.Frame α) : Svg.elementLines f "path" (pathAttributes steps) =
      Svg.pathLines f (pathData steps) := by
    rw [Svg.elementLines, data]
  have around : Svg.surroundings (pathTag steps) (pathAttributes steps) outer (some page) =
      .ok (some page, outer) := rfl
  rw [Svg.place, ofTag_pathTag quotable, Except.mapError, Except.bind_of_ok, own,
    Except.bind_of_ok, around, Except.bind_of_ok, localName_pathTag]
  dsimp only
  rw [lines]

/-- A preview is read as the page of its root element with its path data drawn on it. -/
theorem result_ofText_preview_of_quotable (quotable : Quotable steps)
    (flattening : Flattening α) :
    (Svg.Document.ofText flattening (preview steps)).result =
      (rootPage (.padded steps)).result >>= fun (page, map) =>
        Svg.pathLines ⟨(map.compose .identity).compose .identity, flattening⟩ (pathData steps) >>=
          fun lines => .ok ⟨page, lines⟩ := by
  have spells : (Svg.Forest.element (rootTag steps) (.element (pathTag steps) .empty .empty)
      .empty).Spells [.start (rootTag steps), .childless (pathTag steps), .stop] :=
    .element (.childless .empty) .empty
  have walked := Svg.Forest.result_walk flattening spells
  rw [Svg.Document.ofText, reading_preview quotable]
  refine walked.trans ?_
  simp only [Svg.Forest.document, Svg.Forest.draw, place_rootTag quotable,
    place_pathTag quotable, Except.bind_of_ok, bind_assoc]
  simp

/-- A preview is read as one page with the steps drawn on it. -/
theorem result_ofText_preview (legible : Legible steps) (proper : (Bounds.padded steps).Proper)
    (flattening : Flattening α) :
    (Svg.Document.ofText flattening (preview steps)).result =
      .ok ⟨previewPage (.padded steps),
        Svg.strokeLines ⟨((previewMap (.padded steps)).compose .identity).compose .identity,
          flattening⟩ (steps.map Step.stroke)⟩ := by
  rw [result_ofText_preview_of_quotable legible.quotable, rootPage, result_ofRoot legible proper,
    Except.bind_of_ok]
  dsimp only
  rw [pathLines_pathData legible.targets]
  rfl

end Toolpath.Pattern
