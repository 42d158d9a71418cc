import Toolpath.Markup.Tag

/-!
# Elements as events

A marked-up text as the sequence of its start and end tags. Text between tags, comments, character
data, instructions and document types are passed over; end tags have to match the start tags they
close, but elements may be left open at the end.
-/

namespace Toolpath.Markup

open Text (Cursor isSpace)

/-- What a text says about its elements, in order. -/
inductive Event where
  /-- An element begins. -/
  | start (tag : Tag)
  /-- An element begins and ends. -/
  | childless (tag : Tag)
  /-- The innermost open element ends. -/
  | stop
deriving DecidableEq, Repr

/-- A piece of markup between `<` and `>`. -/
inductive Item where
  | start (tag : Tag)
  | childless (tag : Tag)
  | stop (name : List Char)
  | skipped
deriving DecidableEq, Repr

/-- Splits at the first `>` for which what stands before it, last character first, satisfies
`ends`. -/
def splitAtClose (ends : List Char → Bool) (before : List Char) :
    List Char → Option (List Char)
  | [] => none
  | c :: cs =>
    if c = '>' && ends before then some before.reverse else splitAtClose ends (c :: before) cs

/-- What stands before the first `>` outside quotes. -/
def splitTag (quote : Option Char) (before : List Char) : List Char → Option (List Char)
  | [] => none
  | c :: cs =>
    match quote with
    | some q => splitTag (if c = q then none else quote) (c :: before) cs
    | none =>
      if c = '>' then some before.reverse
      else splitTag (if c = '"' || c = '\'' then some c else none) (c :: before) cs

/-- What stands before the first `>` that closes no inner `<`; `depth` of those are open. -/
def splitDeclaration (depth : Nat) (before : List Char) : List Char → Option (List Char)
  | [] => none
  | '<' :: cs => splitDeclaration (depth + 1) ('<' :: before) cs
  | '>' :: cs =>
    match depth with
    | 0 => some before.reverse
    | depth + 1 => splitDeclaration depth ('>' :: before) cs
  | c :: cs => splitDeclaration depth (c :: before) cs

/-- A comment ends in two dashes that are not those it begins with. -/
def endsComment (before : List Char) : Bool :=
  ['-', '-'].isPrefixOf before && 4 < before.length

/-- Character data end in two brackets. -/
def endsCharacters (before : List Char) : Bool :=
  [']', ']'].isPrefixOf before

/-- An instruction ends in a question mark. -/
def endsInstruction (before : List Char) : Bool :=
  ['?'].isPrefixOf before

/-- A fault, with how many characters lie from the `<` to where it is reported; or an item, with how
many characters it takes behind the `<`, its `>` included. -/
abbrev Scanned := Except (Nat × Cause) (Item × Nat)

/-- An item that is passed over, if it could be found and begins as it has to. -/
def skip (content : Option (List Char)) (cause : Cause) (begins : List Char → Bool) : Scanned :=
  match content with
  | none => .error (0, cause)
  | some content => if begins content then .ok (.skipped, content.length + 1) else .error (0, cause)

/-- A document type, which has to have a name. -/
def doctype (cs : List Char) : Scanned :=
  match splitDeclaration 0 [] cs with
  | none => .error (0, .doctypeNotClosed)
  | some content =>
    if (content.take 8).map Char.toUpper != "!DOCTYPE".toList then .error (0, .doctypeNotClosed)
    else if (content.drop 8).all isSpace then .error (content.length + 1, .doctypeWithoutName)
    else .ok (.skipped, content.length + 1)

/-- The name in an end tag: all of it but spaces at its end. A name of spaces alone stays. -/
def stopName (content : List Char) : List Char :=
  match Text.dropEndWhile isSpace content with
  | [] => content
  | name => name

/-- An end tag, given without its slash. -/
def stopTag (cs : List Char) : Scanned :=
  match splitTag none [] cs with
  | none => .error (0, .tagNotClosed)
  | some content => .ok (.stop (stopName content), content.length + 2)

/-- A start tag, childless if a slash is its last character. -/
def startTag (cs : List Char) : Scanned :=
  match splitTag none [] cs with
  | none => .error (0, .tagNotClosed)
  | some content =>
    let item :=
      if content.getLast? = some '/' then Item.childless ⟨content.dropLast⟩ else .start ⟨content⟩
    .ok (item, content.length + 1)

/-- The item that stands behind a `<`. -/
def scanItem (cs : List Char) : Scanned :=
  match cs with
  | [] => .error (0, .tagNotClosed)
  | '!' :: kind =>
    match kind with
    | '[' :: _ =>
      skip (splitAtClose endsCharacters [] cs) .charactersNotClosed "![CDATA[".toList.isPrefixOf
    | '-' :: _ =>
      skip (splitAtClose endsComment [] cs) .commentNotClosed "!--".toList.isPrefixOf
    | 'D' :: _ => doctype cs
    | 'd' :: _ => doctype cs
    | _ => .error (0, .unknownMarkup)
  | '?' :: _ =>
    skip (splitAtClose endsInstruction [] cs) .instructionNotClosed (fun content => content != ['?'])
  | '/' :: cs => stopTag cs
  | cs => startTag cs

/-- The events of a text, and the fault that ends it early. -/
structure Reading where
  events : List Event
  fault : Option Fault
deriving DecidableEq, Repr

/-- An event before the others. -/
def Reading.cons (event : Event) (r : Reading) : Reading :=
  { r with events := event :: r.events }

/-- Reads from a place on, inside open elements with the given names, the innermost first. -/
def Reading.from (names : List (List Char)) (c : Cursor) : Reading :=
  let start := c.skipWhile (· != '<')
  match _ahead : start.rest with
  | [] => ⟨[], none⟩
  | _ :: cs =>
    let failed (place : Nat) (cause : Cause) : Reading :=
      ⟨[], some (.markup (start.advance place).offset cause)⟩
    match scanItem cs with
    | .error (place, cause) => failed place cause
    | .ok (item, length) =>
      let next := start.advance (length + 1)
      match item with
      | .skipped => Reading.from names next
      | .childless tag => (Reading.from names next).cons (.childless tag)
      | .start tag => (Reading.from (tag.name :: names) next).cons (.start tag)
      | .stop name =>
        match names with
        | [] => failed 0 (.unmatchedEnd (String.ofList name))
        | expected :: names =>
          if name = expected then (Reading.from names next).cons .stop
          else failed 0 (.mismatchedEnd (String.ofList expected) (String.ofList name))
termination_by c.rest.length
decreasing_by
  all_goals
    have shorter : start.rest.length ≤ c.rest.length := c.length_rest_skipWhile_le _
    have positive : 0 < start.rest.length := by rw [_ahead]; simp
    show (start.advance (length + 1)).rest.length < c.rest.length
    rw [Cursor.rest_advance, List.length_drop]
    omega

/-- Reads a text. A byte order mark before it does not count. -/
def Reading.ofText (text : String) : Reading :=
  match text.toList with
  | '\uFEFF' :: cs => .from [] (.ofChars cs)
  | cs => .from [] (.ofChars cs)

end Toolpath.Markup
