import Toolpath.Proofs.Attempt
import Toolpath.Svg.TransformList

/-!
# Transform lists one behind another

A reader that leaves something over has not looked further, so it reads the same when more stands
behind (`Extends`). The readers of a transform list are put together from such readers; only behind
its last bracket does a list look for a comma that may be missing. So two lists with a space between
them are read as the functions of both (`TransformList.ofText_append`).
-/

namespace Toolpath

open Text (isSpace)

/-! ### Numerals -/

section Span

variable {β : Type} {p : β → Bool} {cs : List β}

/-- What ends a run is still there when more stands behind. -/
lemma span_append_of_left (left : cs.dropWhile p ≠ []) (ext : List β) :
    (cs ++ ext).takeWhile p = cs.takeWhile p ∧
      (cs ++ ext).dropWhile p = cs.dropWhile p ++ ext := by
  have shorter : (cs.takeWhile p).length ≠ cs.length := by
    intro whole
    have := congrArg List.length (List.takeWhile_append_dropWhile (p := p) (l := cs))
    rw [List.length_append, whole] at this
    exact left (List.length_eq_zero_iff.1 (by omega))
  exact ⟨by rw [List.takeWhile_append, if_neg shorter],
    by rw [List.dropWhile_append, if_neg (by simpa using left)]⟩

end Span

namespace Decimal

variable {cs rest : List Char}

lemma sign_append (some : cs ≠ []) (ext : List Char) :
    sign (cs ++ ext) = ((sign cs).1, (sign cs).2 ++ ext) := by
  obtain ⟨c, cs, rfl⟩ := List.exists_cons_of_ne_nil some
  rw [List.cons_append]
  unfold sign
  split
  next same =>
    obtain ⟨rfl, rfl⟩ := List.cons.inj same
    rfl
  next same =>
    obtain ⟨rfl, rfl⟩ := List.cons.inj same
    rfl
  next minus plus =>
    split
    next same => exact absurd (by rw [(List.cons.inj same).1]) (minus (cs ++ ext))
    next same => exact absurd (by rw [(List.cons.inj same).1]) (plus (cs ++ ext))
    next => rfl

lemma spanDigits_append_of_left (left : (spanDigits cs).2 ≠ []) (ext : List Char) :
    spanDigits (cs ++ ext) = ((spanDigits cs).1, (spanDigits cs).2 ++ ext) := by
  obtain ⟨digits, behind⟩ := span_append_of_left left ext
  exact Prod.ext digits behind

/-- A significand without a point ends with its first digits. -/
lemma significand?_of_noPoint (noPoint : (spanDigits cs).2.head? ≠ some '.') :
    significand? cs =
      if (spanDigits cs).1.isEmpty then none
      else some (digitsFrom 0 (spanDigits cs).1, 0, (spanDigits cs).2) := by
  unfold significand?
  dsimp only
  split
  next behind ahead => exact absurd (by rw [ahead]; rfl) noPoint
  next => rfl

lemma significand?_append {digits places : ℕ}
    (read : significand? cs = some (digits, places, rest)) (left : rest ≠ []) (ext : List Char) :
    significand? (cs ++ ext) = some (digits, places, rest ++ ext) := by
  by_cases point : (spanDigits cs).2.head? = some '.'
  case pos =>
    obtain ⟨behind, ahead⟩ := List.head?_eq_some_iff.1 point
    have more : (spanDigits cs).2 ≠ [] := by simp [ahead]
    have further := spanDigits_append_of_left more ext
    simp only [significand?, ahead, further, List.cons_append, Option.ite_none_left_eq_some,
      Option.some.injEq, Prod.mk.injEq] at read ⊢
    obtain ⟨some, number, size, rfl⟩ := read
    rw [spanDigits_append_of_left left]
    exact ⟨some, number, size, rfl⟩
  case neg =>
    rw [significand?_of_noPoint point] at read
    simp only [Option.ite_none_left_eq_some, Option.some.injEq, Prod.mk.injEq] at read
    obtain ⟨some, number, size, rfl⟩ := read
    have further := spanDigits_append_of_left left ext
    rw [significand?_of_noPoint, further, if_neg some, number, size]
    rw [further]
    simpa [List.head?_append, left] using point

lemma power?_append {n : ℤ} (read : power? cs = some (n, rest)) (left : rest ≠ [])
    (ext : List Char) : power? (cs ++ ext) = some (n, rest ++ ext) := by
  have some : cs ≠ [] := by
    rintro rfl
    cases read
  simp only [power?, sign_append some, Option.ite_none_left_eq_some, Option.some.injEq,
    Prod.mk.injEq] at read ⊢
  obtain ⟨digits, number, rfl⟩ := read
  rw [spanDigits_append_of_left left]
  exact ⟨digits, number, rfl⟩

end Decimal

namespace Svg

variable {cs rest : List Char}

/-- The letter of a power is read as one unless a unit begins. -/
lemma power?_letter {letter c : Char} (power : (letter = 'e' || letter = 'E') = true)
    (behind : List Char) :
    power? (letter :: c :: behind) =
      if c = 'm' ∨ c = 'x' then some (0, letter :: c :: behind)
      else Decimal.power? (c :: behind) := by
  simp only [power?, power, if_true]
  split
  next same => rw [if_pos (.inl (List.cons.inj same).1)]
  next same => rw [if_pos (.inr (List.cons.inj same).1)]
  next noUnit noUnit' =>
    rw [if_neg]
    rintro (rfl | rfl)
    · exact noUnit behind rfl
    · exact noUnit' behind rfl

lemma power?_append {n : ℤ} (read : power? cs = some (n, rest)) (left : rest ≠ [])
    (ext : List Char) : power? (cs ++ ext) = some (n, rest ++ ext) := by
  cases cs with
  | nil =>
    cases read
    exact absurd rfl left
  | cons letter behind =>
    by_cases power : (letter = 'e' || letter = 'E') = true
    case pos =>
      cases behind with
      | nil =>
        simp only [power?, power, if_true] at read
        cases read
      | cons c behind =>
        rw [List.cons_append, List.cons_append, power?_letter power]
        rw [power?_letter power] at read
        by_cases unit : c = 'm' ∨ c = 'x'
        · rw [if_pos unit] at read ⊢
          cases read
          rfl
        · rw [if_neg unit] at read ⊢
          exact Decimal.power?_append read left ext
    case neg =>
      simp only [power?, List.cons_append, if_neg power] at read ⊢
      cases read
      rfl

lemma numeral?_append {d : Decimal} (read : numeral? cs = some (d, rest)) (left : rest ≠ [])
    (ext : List Char) : numeral? (cs ++ ext) = some (d, rest ++ ext) := by
  have some : cs ≠ [] := by
    rintro rfl
    cases read
  simp only [numeral?] at read ⊢
  rw [Decimal.sign_append some]
  split at read
  · cases read
  · rename_i digits places behind significand
    split at read
    · cases read
    · rename_i exponent rest' power
      cases read
      have more : behind ≠ [] := by
        rintro rfl
        cases power
        exact left rfl
      rw [Decimal.significand?_append significand more]
      dsimp only
      rw [power?_append power left]

/-! ### Readers -/

/-- A reader does not leave more than it was given. Where it leaves something over, another one
reads the same, whatever stands behind. -/
structure Extends {β : Type} (x y : ListReader β) : Prop where
  shrinks : Shrinks x
  reads : ∀ cs b rest, x cs = .ok (b, rest) → rest ≠ [] →
    ∀ ext, y (cs ++ ext) = .ok (b, rest ++ ext)

namespace Extends

variable {β γ : Type} {x y : ListReader β}

lemma pure (b : β) : Extends (Pure.pure b) (Pure.pure b) where
  shrinks := .pure b
  reads := by
    intro cs b rest read _ ext
    cases read
    rfl

/-- Something was there if something is left. -/
lemma ne_nil (extends_ : Extends x y) {cs rest : List Char} {b : β} (read : x cs = .ok (b, rest))
    (left : rest ≠ []) : cs ≠ [] := by
  rintro rfl
  have less := extends_.shrinks _ _ _ read
  rw [List.length_nil, Nat.le_zero, List.length_eq_zero_iff] at less
  exact left less

lemma bind {f g : β → ListReader γ} (first : Extends x y) (next : ∀ b, Extends (f b) (g b)) :
    Extends (x >>= f) (y >>= g) where
  shrinks := .bind first.shrinks fun b => (next b).shrinks
  reads := by
    intro cs c rest read left ext
    change (x cs >>= fun p => f p.1 p.2) = _ at read
    obtain ⟨⟨b, between⟩, before, behind⟩ := Except.bind_eq_ok.1 read
    change (y (cs ++ ext) >>= fun p => g p.1 p.2) = _
    rw [first.reads _ _ _ before ((next b).ne_nil behind left) ext]
    exact (next b).reads _ _ _ behind left ext

end Extends

lemma extends_spaces : Extends spaces spaces where
  shrinks := shrinks_spaces
  reads := by
    intro cs b rest read left ext
    cases read
    show Except.ok ((), (cs ++ ext).dropWhile isSpace) = _
    rw [(span_append_of_left left ext).2]

/-- No other character is passed over as a comma. -/
lemma comma_of_head? {cs : List Char} (other : cs.head? ≠ some ',') : comma cs = .ok ((), cs) := by
  unfold comma
  split
  next => exact absurd rfl other
  next => rfl

lemma extends_comma : Extends comma comma where
  shrinks := shrinks_comma
  reads := by
    intro cs b rest read left ext
    by_cases isComma : cs.head? = some ','
    · obtain ⟨behind, rfl⟩ := List.head?_eq_some_iff.1 isComma
      cases read
      rfl
    · rw [comma_of_head? isComma] at read
      cases read
      exact comma_of_head? (by rwa [List.head?_append_of_ne_nil _ left])

variable {α : Type} [Scalar α] {length : ℕ}

lemma extends_number (length length' : ℕ) :
    Extends (number length : ListReader α) (number length') where
  shrinks := shrinks_number length
  reads := by
    intro cs x rest read left ext
    simp only [number] at read ⊢
    split at read
    · cases read
    · rename_i d behind numeral
      split at read
      case isFalse => cases read
      case isTrue finite =>
        cases read
        have some : cs.dropWhile isSpace ≠ [] := by
          intro none
          rw [none] at numeral
          cases numeral
        rw [(span_append_of_left some ext).2, numeral?_append numeral left ext]
        dsimp only
        rw [if_pos finite]

lemma extends_item (length length' : ℕ) :
    Extends (item length : ListReader α) (item length') where
  shrinks := shrinks_item length
  reads := by
    have parts : Extends (do let x ← number length; spaces; comma; pure x : ListReader α)
        (do let x ← number length'; spaces; comma; pure x) :=
      (extends_number length length').bind fun x => extends_spaces.bind fun _ =>
        extends_comma.bind fun _ => .pure x
    intro cs x rest read left ext
    unfold item at read ⊢
    split at read
    case isTrue => cases read
    case isFalse some =>
      have some' : ¬ (cs ++ ext).isEmpty = true := by
        rw [List.isEmpty_iff] at some ⊢
        exact fun none => some (List.append_eq_nil_iff.1 none).1
      rw [if_neg some']
      exact parts.reads _ _ _ read left ext

omit [Scalar α] in
lemma Extends.unlessClosed {β : Type} {x y : ListReader β} (extends_ : Extends x y) :
    Extends (unlessClosed x) (unlessClosed y) where
  shrinks := shrinks_unlessClosed extends_.shrinks
  reads := by
    have mapped : Extends (some <$> x) (some <$> y) := by
      rw [← bind_pure_comp, ← bind_pure_comp]
      exact extends_.bind fun _ => .pure _
    intro cs b rest read left ext
    unfold Svg.unlessClosed at read ⊢
    split at read
    case isTrue closed =>
      cases read
      rw [List.head?_append, closed, if_pos (by rfl)]
    case isFalse opened =>
      rw [List.head?_append_of_ne_nil _ (mapped.ne_nil read left), if_neg opened]
      exact mapped.reads _ _ _ read left ext

/-- The arguments of a function stop before its closing bracket. -/
lemma exists_extends_arguments {name : String} {x : ListReader (TransformFunction α)}
    (known : arguments? length name = some x) (length' : ℕ) :
    ∃ y : ListReader (TransformFunction α), arguments? length' name = some y ∧ Extends x y := by
  have item : Extends (item length : ListReader α) (item length') := extends_item length length'
  unfold arguments? at known ⊢
  split at known <;> cases known <;> refine ⟨_, rfl, item.bind fun _ => ?_⟩
  · exact item.bind fun _ => item.bind fun _ => item.bind fun _ => item.bind fun _ =>
      item.bind fun _ => .pure _
  · exact extends_spaces.bind fun _ => item.unlessClosed.bind fun _ => .pure _
  · exact extends_spaces.bind fun _ => item.unlessClosed.bind fun _ => .pure _
  · exact extends_spaces.bind fun _ =>
      (item.bind fun _ => item.bind fun _ => .pure _).unlessClosed.bind fun _ => .pure _
  · exact .pure _
  · exact .pure _

/-! ### Functions -/

/-- The blanks before what is ahead do not count. -/
def SameAhead (cs ds : List Char) : Prop := cs.dropWhile isSpace = ds.dropWhile isSpace

variable {cs rest tail ext : List Char} {f : TransformFunction α}

omit [Scalar α] in
/-- What a function is: arguments, a closing bracket, and a comma that may be missing. -/
lemma body_eq_ok {x : ListReader (TransformFunction α)} :
    body length x cs = .ok (f, rest) ↔
      ∃ behind tail, x cs = .ok (f, behind) ∧ behind.dropWhile isSpace = ')' :: tail ∧
        comma (tail.dropWhile isSpace) = .ok ((), rest) := by
  constructor
  · intro read
    change (x cs >>= fun p => _) = _ at read
    obtain ⟨⟨g, behind⟩, arguments, closed⟩ := Except.bind_eq_ok.1 read
    change (bracket length ')' (behind.dropWhile isSpace) >>= fun p => _) = _ at closed
    obtain ⟨⟨_, tail⟩, bracket, passed⟩ := Except.bind_eq_ok.1 closed
    change (comma (tail.dropWhile isSpace) >>= fun p => .ok (g, p.2)) = _ at passed
    obtain ⟨⟨_, _⟩, comma, same⟩ := Except.bind_eq_ok.1 passed
    cases same
    refine ⟨behind, tail, arguments, ?_, comma⟩
    unfold Svg.bracket at bracket
    split at bracket
    · cases bracket
    · rename_i ahead
      split at bracket <;> cases bracket
      rename_i here
      rw [ahead, here]
  · rintro ⟨behind, tail, arguments, ahead, comma⟩
    change (x cs >>= fun p => _) = _
    rw [arguments]
    change (bracket length ')' (behind.dropWhile isSpace) >>= fun p => _) = _
    rw [ahead]
    change (Svg.comma (tail.dropWhile isSpace) >>= fun p => .ok (f, p.2)) = _
    rw [comma]
    rfl

/-- A comma that is missing is missing as well if none is next behind. -/
lemma comma_append (passed : comma (tail.dropWhile isSpace) = .ok ((), rest))
    (noComma : (ext.dropWhile isSpace).head? ≠ some ',') :
    ∃ rest', comma ((tail ++ ext).dropWhile isSpace) = .ok ((), rest') ∧
      SameAhead rest' (rest ++ ext) := by
  by_cases blank : tail.dropWhile isSpace = []
  case pos =>
    rw [blank] at passed
    cases passed
    refine ⟨ext.dropWhile isSpace, ?_, List.dropWhile_idempotent _ _⟩
    rw [List.dropWhile_append, blank]
    exact comma_of_head? noComma
  case neg =>
    rw [(span_append_of_left blank ext).2]
    by_cases isComma : (tail.dropWhile isSpace).head? = some ','
    · obtain ⟨behind, ahead⟩ := List.head?_eq_some_iff.1 isComma
      rw [ahead] at passed ⊢
      cases passed
      exact ⟨_, rfl, rfl⟩
    · rw [comma_of_head? isComma] at passed
      cases passed
      exact ⟨_, comma_of_head? (by rwa [List.head?_append_of_ne_nil _ blank]), rfl⟩

omit [Scalar α] in
lemma body_append {x y : ListReader (TransformFunction α)} (extends_ : Extends x y)
    (read : body length x cs = .ok (f, rest)) (length' : ℕ)
    (noComma : (ext.dropWhile isSpace).head? ≠ some ',') :
    ∃ rest', body length' y (cs ++ ext) = .ok (f, rest') ∧ SameAhead rest' (rest ++ ext) := by
  obtain ⟨behind, tail, arguments, ahead, passed⟩ := body_eq_ok.1 read
  have left : behind.dropWhile isSpace ≠ [] := by simp [ahead]
  have more : behind ≠ [] := by
    rintro rfl
    exact left rfl
  obtain ⟨rest', passed', same⟩ := comma_append passed noComma
  refine ⟨rest', body_eq_ok.2 ⟨behind ++ ext, tail ++ ext, ?_, ?_, passed'⟩, same⟩
  · exact extends_.reads _ _ _ arguments more ext
  · rw [(span_append_of_left left ext).2, ahead, List.cons_append]

/-- A function is read the same, whatever stands behind it but a comma. -/
lemma function_append (read : function length cs = .ok (f, rest)) (length' : ℕ)
    (noComma : (ext.dropWhile isSpace).head? ≠ some ',') :
    ∃ rest', function length' (cs ++ ext) = .ok (f, rest') ∧ SameAhead rest' (rest ++ ext) := by
  unfold function at read ⊢
  dsimp only at read ⊢
  split at read
  · cases read
  · rename_i c ahead found
    have left : (cs.dropWhile isNameCharacter).dropWhile isSpace ≠ [] := by simp [found]
    have more : cs.dropWhile isNameCharacter ≠ [] := by
      intro none
      rw [none] at left
      exact left rfl
    obtain ⟨name, behind⟩ := span_append_of_left more ext
    rw [name, behind, (span_append_of_left left ext).2, found, List.cons_append]
    dsimp only
    split at read
    case isTrue => cases read
    case isFalse isBracket =>
      rw [if_neg isBracket]
      split at read
      · cases read
      · rename_i arguments known
        obtain ⟨arguments', known', extends_⟩ := exists_extends_arguments known length'
        rw [known']
        exact body_append extends_ read length' noComma

/-! ### Lists -/

/-- Reading a list without the memory of what was read. -/
lemma from_eq (length : ℕ) (cs : List Char) :
    (TransformList.from length cs : TransformList α) =
      if (cs.dropWhile isSpace).isEmpty then ⟨[], none⟩
      else
        match (function length : ListReader (TransformFunction α)) (cs.dropWhile isSpace) with
        | .error fault => ⟨[], some fault⟩
        | .ok (f, rest) =>
          let others : TransformList α := .from length rest
          { others with functions := f :: others.functions } := by
  rw [TransformList.from]
  dsimp only
  split
  case isTrue => rfl
  case isFalse =>
    cases read : (function length : ListReader (TransformFunction α)) (cs.dropWhile isSpace) with
    | error fault => rfl
    | ok found => rfl

lemma from_of_sameAhead {ds : List Char} (same : SameAhead cs ds) (length : ℕ) :
    (TransformList.from length cs : TransformList α) = .from length ds := by
  rw [from_eq, same, ← from_eq]

/-- A list that has no fault is read the same before anything but a comma. -/
lemma from_append {fs : List (TransformFunction α)}
    (read : .from length cs = TransformList.mk fs none) (length' : ℕ)
    (noComma : (ext.dropWhile isSpace).head? ≠ some ',') :
    TransformList.from length' (cs ++ ext) =
      let others : TransformList α := .from length' ext
      { others with functions := fs ++ others.functions } := by
  fun_induction TransformList.from (α := α) length cs generalizing fs with
  | case1 cs start =>
    rename_i blank
    cases read
    have ahead : SameAhead (cs ++ ext) ext := by
      rw [SameAhead, List.dropWhile_append, if_pos blank]
    rw [from_of_sameAhead ahead]
    rfl
  | case2 => cases read
  | case3 cs start =>
    rename_i some f rest function others ih
    cases read_others : others with
    | mk gs fault =>
      rw [read_others] at read
      cases read
      obtain ⟨rest', function', same⟩ := function_append function length' noComma
      have left : start ≠ [] := by simpa using some
      rw [from_eq, (span_append_of_left left ext).2, if_neg (by simp [left, start]), function']
      dsimp only
      rw [from_of_sameAhead same, ih read_others]
      rfl

namespace TransformList

variable {A B : String} {fs gs : List (TransformFunction α)}

/-- How long the whole text is matters for faults only. -/
lemma from_length (read : .from length cs = TransformList.mk fs none) (length' : ℕ) :
    TransformList.from length' cs = ⟨fs, none⟩ := by
  have noComma : (([] : List Char).dropWhile isSpace).head? ≠ some ',' := by simp
  have alone := from_append read length' noComma
  rw [List.append_nil, from_eq length' []] at alone
  simpa using alone

/-- No list begins with a comma. -/
lemma head?_ne_comma (read : .from length cs = TransformList.mk gs none) :
    (cs.dropWhile isSpace).head? ≠ some ',' := by
  intro comma
  obtain ⟨behind, ahead⟩ := List.head?_eq_some_iff.1 comma
  rw [from_eq, ahead] at read
  cases read

/-- Two lists with a space between them are read as the functions of both. -/
theorem ofText_append (first : ofText A = ⟨fs, none⟩) (second : ofText B = ⟨gs, none⟩) :
    ofText (A ++ " " ++ B) = (⟨fs ++ gs, none⟩ : TransformList α) := by
  have text : (A ++ " " ++ B).toList = A.toList ++ ' ' :: B.toList := by simp
  have behind : SameAhead (' ' :: B.toList) B.toList := rfl
  rw [ofText, text, from_append first _ (by rw [behind]; exact head?_ne_comma second),
    from_of_sameAhead behind, from_length second]

end TransformList

end Svg

end Toolpath
