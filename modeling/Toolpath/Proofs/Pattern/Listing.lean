import Mathlib.Data.List.DropRight
import Toolpath.Proofs.Pattern.RoundTrip

/-!
# What a pattern text says

The lines of a text stand between its line feeds, and behind the last one only if something stands
there; all carriage returns at their ends are cut off (`linesOf`). Each of them says one thing, by
its characters and its number alone, and the steps and issues of a text are what its lines say, in
order. No line is read with an eye to another, so a text with a line feed in it is read as the part
before and the part behind, the latter with its lines further down (`Listing.ofText_lines`).
-/

namespace Toolpath.Pattern

/-! ### Lines -/

/-- Leaves out a last piece that is empty. -/
def dropEmptyLast (pieces : List (List Char)) : List (List Char) :=
  if pieces.getLast? = some [] then pieces.dropLast else pieces

/-- The lines of a text. -/
def linesOf (text : String) : List (List Char) :=
  (dropEmptyLast (text.toList.splitOn '\n')).map (List.rdropWhile (· == '\r'))

lemma dropEmptyLast_append (pieces : List (List Char)) {later : List (List Char)}
    (some : later ≠ []) :
    dropEmptyLast (pieces ++ later) = pieces ++ dropEmptyLast later := by
  unfold dropEmptyLast
  rw [List.getLast?_append_of_ne_nil _ some, List.dropLast_append_of_ne_nil some]
  split <;> rfl

/-- Lines are split off as at every line feed, with what was read of the first before it. -/
lemma splitLines_eq (before cs : List Char) :
    splitLines before cs =
      dropEmptyLast ((cs.splitOn '\n').modifyHead (before.reverse ++ ·)) := by
  -- `before` holds what was read of the line, last character first.
  induction cs generalizing before with
  | nil =>
    rw [List.splitOn_nil, splitLines]
    cases before <;> simp [dropEmptyLast]
  | cons c cs ih =>
    rw [List.splitOn_cons_eq_if_modifyHead]
    by_cases feed : c = '\n'
    case pos =>
      subst feed
      have later : cs.splitOn '\n' ≠ [] := List.splitOn_ne_nil _ cs
      have nothing : (cs.splitOn '\n').modifyHead (([] : List Char).reverse ++ ·) =
          cs.splitOn '\n' := congrFun List.modifyHead_id _
      rw [splitLines, ih, nothing, if_pos (by simp), List.modifyHead_cons, List.append_nil]
      exact (dropEmptyLast_append [before.reverse] later).symm
    case neg =>
      rw [splitLines, ih, if_neg (by simpa using feed), List.modifyHead_modifyHead]
      · congr 2
        funext line
        simp
      · exact feed

lemma textLines_eq (text : String) : textLines text = linesOf text := by
  rw [textLines, splitLines_eq, linesOf]
  exact congrArg (fun pieces => (dropEmptyLast pieces).map _) (congrFun List.modifyHead_id _)

/-- A line feed at the end begins no line, and any number of returns is cut off. -/
example : linesOf "N1\r\r\n\nN\r2\n" = [['N', '1'], [], ['N', '\r', '2']] := by decide +kernel

/-- Behind a line feed the lines begin anew. -/
lemma linesOf_feed (text rest : String) :
    linesOf (text ++ "\n" ++ rest) =
      (text.toList.splitOn '\n').map (List.rdropWhile (· == '\r')) ++ linesOf rest := by
  have split : (text ++ "\n" ++ rest).toList.splitOn '\n' =
      text.toList.splitOn '\n' ++ rest.toList.splitOn '\n' := by
    have feed : "\n".toList = ['\n'] := rfl
    rw [String.toList_append, String.toList_append, feed, List.append_assoc]
    exact List.splitOnP_append_cons _ _ (by simp)
  rw [linesOf, split, dropEmptyLast_append _ (List.splitOn_ne_nil _ _), List.map_append, linesOf]

lemma linesOf_ended (text : String) :
    linesOf (text ++ "\n") = (text.toList.splitOn '\n').map (List.rdropWhile (· == '\r')) := by
  have feed := linesOf_feed text ""
  have none : linesOf "" = [] := by simp [linesOf, dropEmptyLast]
  rwa [String.append_empty, none, List.append_nil] at feed

lemma linesOf_append (a b : String) :
    linesOf (a ++ "\n" ++ b) = linesOf (a ++ "\n") ++ linesOf b := by
  rw [linesOf_feed, linesOf_ended]

/-- A line feed at the end ends the last line, or an empty one. -/
lemma linesOf_ended_eq (text : String) :
    linesOf (text ++ "\n") = linesOf text ∨ linesOf (text ++ "\n") = linesOf text ++ [[]] := by
  rw [linesOf_ended, linesOf, dropEmptyLast]
  split
  case isTrue empty =>
    right
    have last := List.dropLast_append_getLast? [] empty
    conv_lhs => rw [← last, List.map_append]
    rfl
  case isFalse => exact .inl rfl

/-! ### Listings -/

/-- An issue on a line that many lines further down. -/
def Issue.further (count : ℕ) : Issue → Issue
  | .unrecognizedLine line text => .unrecognizedLine (line + count) text
  | .unknownMotion line code => .unknownMotion (line + count) code

variable {α : Type} {line count : ℕ} {cs : List Char}

/-- What is said on a line that many lines further down. -/
def Entry.further (count : ℕ) : Entry α → Entry α
  | .issue found => .issue (found.further count)
  | e => e

@[simp] lemma step?_further (e : Entry α) : (e.further count).step? = e.step? := by
  cases e <;> rfl

@[simp] lemma issue?_further (e : Entry α) :
    (e.further count).issue? = e.issue?.map (Issue.further count) := by
  cases e <;> rfl

/-- The steps and the issues among what lines say. -/
def listing (es : List (Entry α)) : Listing α :=
  ⟨es.filterMap Entry.step?, es.filterMap Entry.issue?⟩

lemma listing_append (es later : List (Entry α)) :
    listing (es ++ later) = ⟨(listing es).steps ++ (listing later).steps,
      (listing es).issues ++ (listing later).issues⟩ := by
  simp only [listing, List.filterMap_append]

lemma listing_further (es : List (Entry α)) :
    listing (es.map (Entry.further count)) =
      ⟨(listing es).steps, (listing es).issues.map (Issue.further count)⟩ := by
  simp [listing, List.filterMap_map, List.map_filterMap]

/-- The warnings among notes are the issues. -/
lemma warnings_notes (es : List (ℕ × Entry α)) :
    (es.flatMap fun (line, e) => e.notes line).filter (·.level = .warn) =
      (listing (es.map Prod.snd)).issues.map Diagnostic.lineSkipped := by
  induction es with
  | nil => rfl
  | cons entry es ih =>
    obtain ⟨line, e⟩ := entry
    rw [List.flatMap_cons, List.filter_append, ih]
    cases e <;> rfl

/-! ### Line numbers -/

variable [Scalar α] {e : Entry α}

/-- A line says the same wherever it stands. -/
lemma Says.further (told : Says line cs e) : Says (line + count) cs (e.further count) := by
  cases told with
  | blank blank => exact .blank blank
  | endOfProgram ends => exact .endOfProgram ends
  | move motion => exact .move motion
  | line motion => exact .line motion
  | unknownMotion motion large small => exact .unknownMotion motion large small
  | unrecognized written goesOn large => exact .unrecognized written goesOn large

/-- What lines say, numbered from a first number. -/
def entriesFrom (first : ℕ) (lines : List (List Char)) : List (Entry α) :=
  (lines.zipIdx first).map fun (cs, line) => .ofLine line cs

lemma entriesFrom_append (first : ℕ) (lines later : List (List Char)) :
    (entriesFrom first (lines ++ later) : List (Entry α)) =
      entriesFrom first lines ++ entriesFrom (first + lines.length) later := by
  rw [entriesFrom, List.zipIdx_append, List.map_append]
  rfl

lemma entriesFrom_add (first count : ℕ) (lines : List (List Char)) :
    (entriesFrom (first + count) lines : List (Entry α)) =
      (entriesFrom first lines).map (Entry.further count) := by
  induction lines generalizing first with
  | nil => rfl
  | cons cs lines ih =>
    have line : (Entry.ofLine (first + count) cs : Entry α) =
        (Entry.ofLine first cs).further count := (Says.of_ofLine first cs).further.ofLine_eq
    have later := ih (first + 1)
    rw [Nat.add_right_comm] at later
    simp only [entriesFrom, List.zipIdx_cons, List.map_cons] at later ⊢
    rw [line, later]

/-- A line feed at the end says nothing. -/
lemma listing_ended (text : String) :
    listing (entriesFrom 1 (linesOf (text ++ "\n")) : List (Entry α)) =
      listing (entriesFrom 1 (linesOf text)) := by
  rcases linesOf_ended_eq text with same | one
  · rw [same]
  · have nothing (first : ℕ) : listing (entriesFrom first [[]] : List (Entry α)) = ⟨[], []⟩ := rfl
    rw [one, entriesFrom_append, listing_append, nothing, List.append_nil, List.append_nil]

/-! ### Texts -/

lemma map_snd_entries (text : String) :
    (entries text : List (ℕ × Entry α)).map Prod.snd = entriesFrom 1 (linesOf text) := by
  rw [entries, textLines_eq, List.map_map]
  rfl

lemma value_ofText_eq (text : String) :
    (Listing.ofText text : Logged (Diagnostic α) (Listing α)).value =
      listing (entriesFrom 1 (linesOf text)) := by
  rw [value_ofText, map_snd_entries]
  rfl

/-- Each line of a text says exactly one thing, and that by its characters and its number alone. The
steps and the issues of the text are what its lines say, in order, with one warning for each issue.
A text with a line feed in it is read as the part before and the part behind, whose lines are
further down by as many as the part before has with the line feed. -/
theorem Listing.ofText_lines :
    (∀ text, ∃ es : List (Entry α),
      List.Forall₂ (fun l e => ∀ other, Says l.2 l.1 other ↔ other = e)
        ((linesOf text).zipIdx 1) es ∧
      (Listing.ofText text).value =
        (⟨es.filterMap Entry.step?, es.filterMap Entry.issue?⟩ : Listing α) ∧
      (Listing.ofText text : Logged (Diagnostic α) (Listing α)).notes.filter (·.level = .warn) =
        (es.filterMap Entry.issue?).map .lineSkipped) ∧
    ∀ a b,
      (Listing.ofText (a ++ "\n" ++ b) : Logged (Diagnostic α) (Listing α)).value =
        let before : Listing α := (Listing.ofText a).value
        let behind : Listing α := (Listing.ofText b).value
        ⟨before.steps ++ behind.steps,
          before.issues ++ behind.issues.map (Issue.further (linesOf (a ++ "\n")).length)⟩ := by
  refine ⟨fun text => ⟨entriesFrom 1 (linesOf text), ?_, value_ofText_eq text, ?_⟩, fun a b => ?_⟩
  · rw [entriesFrom, List.forall₂_map_right_iff, List.forall₂_same]
    exact fun l _ other => ofLine_eq_iff.symm.trans eq_comm
  · have warned := warnings_notes (entries text : List (ℕ × Entry α))
    rwa [map_snd_entries] at warned
  · rw [value_ofText_eq, value_ofText_eq, value_ofText_eq, linesOf_append, entriesFrom_append,
      entriesFrom_add, listing_append, listing_further, listing_ended]

end Toolpath.Pattern
