import Toolpath.Proofs.Decimal.Plain
import Toolpath.Proofs.Transform.Maps

/-!
# The arguments of a function

A function is written with its arguments between brackets: numerals with blanks or a comma between
them (`Listed`). What it does is told from its name and its arguments, of which the last may be
missing (`act?`). It is read as a function that does this (`transforms_of_listed`).
-/

namespace Toolpath.Svg

open Text (isSpace)
open Decimal (Ends)

/-! ### Written numbers -/

/-- Characters are a numeral worth `x`, whatever ends it. -/
def IsNumeral (n : List Char) (x : ℝ) : Prop :=
  ∃ d : Decimal, d.toReal = x ∧ ∀ rest, Ends rest → numeral? (n ++ rest) = some (d, rest)

/-- A plain decimal is a numeral. -/
lemma isNumeral_of_plainChars {n : List Char} {x : ℝ} (d : Decimal) (worth : d.toReal = x)
    (digits : d.plainChars = n) : IsNumeral n x := by
  rw [← digits, ← worth]
  exact ⟨d.spelled, d.toReal_spelled, fun _ ends => d.numeral?_plainChars ends⟩

/-- What stands between two numbers: blanks, with one comma among them or none. -/
inductive Separates : List Char → Prop
  | blank {sep : List Char} (blanks : ∀ c ∈ sep, isSpace c = true) (nonempty : sep ≠ []) :
    Separates sep
  | withComma {before behind : List Char} (blanksBefore : ∀ c ∈ before, isSpace c = true)
    (blanksBehind : ∀ c ∈ behind, isSpace c = true) : Separates (before ++ ',' :: behind)

/-- Numerals one behind another with something between them. -/
inductive Listed : List ℝ → List Char → Prop
  | single {x : ℝ} {n : List Char} (numeral : IsNumeral n x) : Listed [x] n
  | cons {x : ℝ} {xs : List ℝ} {n sep cs : List Char} (numeral : IsNumeral n x)
    (separates : Separates sep) (others : Listed xs cs) : Listed (x :: xs) (n ++ (sep ++ cs))

/-- What a function does to a point, by its name and its arguments. -/
def act? (name : String) (xs : List ℝ) : Option (Point ℝ → Point ℝ) :=
  match name, xs with
  | "matrix", [a, b, c, d, e, f] => some fun p => ⟨a * p.x + c * p.y + e, b * p.x + d * p.y + f⟩
  | "translate", [tx, ty] => some fun p => ⟨p.x + tx, p.y + ty⟩
  | "translate", [tx] => some fun p => ⟨p.x + tx, p.y + 0⟩
  | "scale", [sx, sy] => some fun p => ⟨sx * p.x, sy * p.y⟩
  | "scale", [sx] => some fun p => ⟨sx * p.x, sx * p.y⟩
  | _, _ => none

/-! ### Reading numbers -/

section Numbers

variable {x : ℝ} {n sep cs rest tail ds : List Char}

/-- No numeral begins with a blank or a mark of a list. -/
lemma head?_of_numeral? {d : Decimal} (read : numeral? cs = some (d, rest)) :
    ∃ c behind, cs = c :: behind ∧ isSpace c = false ∧ c ≠ ',' ∧ c ≠ ')' := by
  cases cs with
  | nil => cases read
  | cons c cs =>
    refine ⟨c, cs, rfl, Bool.eq_false_iff.2 fun space => ?_, ?_, ?_⟩
    · rcases Text.eq_of_isSpace space with rfl | rfl | rfl | rfl <;> cases read
    · rintro rfl
      cases read
    · rintro rfl
      cases read

lemma IsNumeral.head? (numeral : IsNumeral n x) (ends : Ends rest) :
    ∃ c behind, n ++ rest = c :: behind ∧ isSpace c = false ∧ c ≠ ',' ∧ c ≠ ')' := by
  obtain ⟨d, _, read⟩ := numeral
  exact head?_of_numeral? (read rest ends)

lemma number_of_isNumeral (numeral : IsNumeral n x) (ends : Ends rest)
    (ahead : SameAhead cs (n ++ rest)) (length : ℕ) : number length cs = .ok (x, rest) := by
  obtain ⟨c, behind, start, nonblank, _⟩ := numeral.head? ends
  obtain ⟨d, rfl, read⟩ := numeral
  have front : cs.dropWhile isSpace = n ++ rest := by
    rw [ahead, start, List.dropWhile_cons_of_neg (by simp [nonblank])]
  rw [number, front, read rest ends]
  rfl

lemma item_of_isNumeral {behind : List Char} (numeral : IsNumeral n x) (ends : Ends rest)
    (ahead : SameAhead cs (n ++ rest))
    (passed : comma (rest.dropWhile isSpace) = .ok ((), behind)) (length : ℕ) :
    item length cs = .ok (x, behind) := by
  refine Scalar.item_of_number (number_of_isNumeral numeral ends ahead length) ?_ passed
  rintro rfl
  obtain ⟨c, behind, start, nonblank, _⟩ := numeral.head? ends
  rw [SameAhead, start, List.dropWhile_cons_of_neg (by simp [nonblank])] at ahead
  cases ahead

lemma ends_of_isSpace {c : Char} (space : isSpace c = true) (rest : List Char) :
    Ends (c :: rest) := by
  refine Decimal.ends_cons ?_ rest
  rcases Text.eq_of_isSpace space with rfl | rfl | rfl | rfl <;> decide

lemma ends_comma (rest : List Char) : Ends (',' :: rest) :=
  Decimal.ends_cons (by decide) rest

lemma ends_bracket (rest : List Char) : Ends (')' :: rest) :=
  Decimal.ends_cons (by decide) rest

/-- A separator ends a numeral. -/
lemma Separates.ends (separates : Separates sep) (rest : List Char) : Ends (sep ++ rest) := by
  cases separates with
  | @blank sep blanks nonempty =>
    obtain ⟨c, sep, rfl⟩ := List.exists_cons_of_ne_nil nonempty
    exact ends_of_isSpace (blanks c (by simp)) _
  | @withComma before behind blanksBefore _ =>
    cases before with
    | nil => exact ends_comma _
    | cons c before => exact ends_of_isSpace (blanksBefore c (by simp)) _

/-- A separator is passed over up to blanks. -/
lemma Separates.passed (separates : Separates sep)
    (noComma : (rest.dropWhile isSpace).head? ≠ some ',') :
    ∃ behind, comma ((sep ++ rest).dropWhile isSpace) = .ok ((), behind) ∧
      SameAhead behind rest := by
  cases separates with
  | blank blanks _ =>
    rw [List.dropWhile_append_of_pos blanks]
    exact ⟨_, comma_of_head? noComma, List.dropWhile_idempotent _ _⟩
  | withComma blanksBefore blanksBehind =>
    rw [List.append_assoc, List.dropWhile_append_of_pos blanksBefore]
    exact ⟨_, rfl, List.dropWhile_append_of_pos blanksBehind⟩

end Numbers

/-! ### Reading arguments -/

/-- Numbers are ahead, and a closing bracket behind them. -/
def Awaits (xs : List ℝ) (tail cs : List Char) : Prop :=
  match xs with
  | [] => SameAhead cs (')' :: tail)
  | xs => ∃ ds, Listed xs ds ∧ SameAhead cs (ds ++ ')' :: tail)

section Arguments

variable {x : ℝ} {xs : List ℝ} {cs ds tail : List Char}

lemma Listed.head? (listed : Listed xs ds) (tail : List Char) :
    ∃ c behind, ds ++ ')' :: tail = c :: behind ∧ isSpace c = false ∧ c ≠ ',' ∧ c ≠ ')' := by
  cases listed with
  | single numeral => exact numeral.head? (ends_bracket tail)
  | cons numeral separates _ =>
    rw [List.append_assoc, List.append_assoc]
    exact numeral.head? (separates.ends _)

lemma Listed.exists_cons (listed : Listed xs ds) : ∃ y ys, xs = y :: ys := by
  cases listed <;> exact ⟨_, _, rfl⟩

/-- The next number is read. -/
lemma Awaits.exists_item (awaits : Awaits (x :: xs) tail cs) (length : ℕ) :
    ∃ behind, item length cs = .ok (x, behind) ∧ Awaits xs tail behind := by
  obtain ⟨ds, listed, ahead⟩ := awaits
  cases listed with
  | single numeral =>
    exact ⟨')' :: tail, item_of_isNumeral numeral (ends_bracket tail) ahead rfl length, rfl⟩
  | @cons _ _ n sep ds numeral separates others =>
    obtain ⟨c, front, start, nonblank, noComma, _⟩ := others.head? tail
    have next : ((ds ++ ')' :: tail).dropWhile isSpace).head? ≠ some ',' := by
      rw [start, List.dropWhile_cons_of_neg (by simp [nonblank])]
      simpa using noComma
    obtain ⟨behind, passed, same⟩ := separates.passed next
    rw [List.append_assoc, List.append_assoc] at ahead
    refine ⟨behind, item_of_isNumeral numeral (separates.ends _) ahead passed length, ?_⟩
    obtain ⟨y, ys, rfl⟩ := others.exists_cons
    exact ⟨ds, others, same⟩

/-- A number that may be missing is read if it is there. -/
lemma Awaits.exists_unlessClosed (awaits : Awaits xs tail cs) (length : ℕ) :
    ∃ behind, unlessClosed (item length) (cs.dropWhile isSpace) = .ok (xs.head?, behind) ∧
      Awaits xs.tail tail behind := by
  cases xs with
  | nil =>
    have front : cs.dropWhile isSpace = ')' :: tail := awaits
    refine ⟨')' :: tail, ?_, rfl⟩
    rw [unlessClosed, front]
    rfl
  | cons x xs =>
    have front : Awaits (x :: xs) tail (cs.dropWhile isSpace) := by
      obtain ⟨ds, listed, ahead⟩ := awaits
      exact ⟨ds, listed, (List.dropWhile_idempotent _ _).trans ahead⟩
    obtain ⟨behind, read, others⟩ := front.exists_item length
    refine ⟨behind, ?_, others⟩
    have opened : ¬ (cs.dropWhile isSpace).head? = some ')' := by
      obtain ⟨ds, listed, ahead⟩ := awaits
      obtain ⟨c, _, start, nonblank, _, opened⟩ := listed.head? tail
      rw [ahead, start, List.dropWhile_cons_of_neg (by simp [nonblank])]
      simpa using opened
    rw [unlessClosed, if_neg opened, ← bind_pure_comp, Scalar.bind_of_read read]
    rfl

/-- A number and another one that may be missing. -/
lemma Awaits.exists_pair (awaits : Awaits (x :: xs) tail cs) (length : ℕ)
    (f : ℝ → Option ℝ → TransformFunction ℝ) :
    ∃ behind, (do
        let a ← item length
        spaces
        let b ← unlessClosed (item length)
        pure (f a b) : ListReader (TransformFunction ℝ)) cs = .ok (f x xs.head?, behind) ∧
      Awaits xs.tail tail behind := by
  obtain ⟨between, first, awaits⟩ := awaits.exists_item length
  obtain ⟨behind, second, awaits⟩ := awaits.exists_unlessClosed length
  have spaces : Svg.spaces between = .ok ((), between.dropWhile isSpace) := rfl
  refine ⟨behind, ?_, awaits⟩
  rw [Scalar.bind_of_read first, Scalar.bind_of_read spaces, Scalar.bind_of_read second]
  rfl

/-- A function has a reader, which reads one that does the same. -/
lemma exists_arguments {name : String} {act : Point ℝ → Point ℝ} (known : act? name xs = some act)
    (awaits : Awaits xs tail cs) (length : ℕ) :
    ∃ reader f behind, arguments? length name = some reader ∧ reader cs = .ok (f, behind) ∧
      f.act? = some act ∧ Awaits [] tail behind := by
  unfold act? at known
  split at known <;> cases known
  case h_1 a b c d e f =>
    obtain ⟨_, first, awaits⟩ := awaits.exists_item length
    obtain ⟨_, second, awaits⟩ := awaits.exists_item length
    obtain ⟨_, third, awaits⟩ := awaits.exists_item length
    obtain ⟨_, fourth, awaits⟩ := awaits.exists_item length
    obtain ⟨_, fifth, awaits⟩ := awaits.exists_item length
    obtain ⟨behind, sixth, awaits⟩ := awaits.exists_item length
    refine ⟨_, .matrix ⟨a, b, c, d, e, f⟩, behind, rfl, ?_, rfl, awaits⟩
    rw [Scalar.bind_of_read first, Scalar.bind_of_read second, Scalar.bind_of_read third,
      Scalar.bind_of_read fourth, Scalar.bind_of_read fifth, Scalar.bind_of_read sixth]
    rfl
  case h_2 tx ty =>
    obtain ⟨behind, read, awaits⟩ := awaits.exists_pair length fun a b => .translate a (b.getD 0.0)
    exact ⟨_, _, behind, rfl, read, rfl, awaits⟩
  case h_3 tx =>
    obtain ⟨behind, read, awaits⟩ := awaits.exists_pair length fun a b => .translate a (b.getD 0.0)
    refine ⟨_, _, behind, rfl, read, ?_, awaits⟩
    simp only [TransformFunction.act?, List.head?_nil, Option.getD_none]
    norm_num
  case h_4 sx sy =>
    obtain ⟨behind, read, awaits⟩ := awaits.exists_pair length fun a b => .scale a (b.getD a)
    exact ⟨_, _, behind, rfl, read, rfl, awaits⟩
  case h_5 sx =>
    obtain ⟨behind, read, awaits⟩ := awaits.exists_pair length fun a b => .scale a (b.getD a)
    exact ⟨_, _, behind, rfl, read, rfl, awaits⟩

end Arguments

/-! ### Reading a function -/

/-- The name of a function stands before its opening bracket. -/
lemma function_of_name {name : String} {length : ℕ}
    {reader : ListReader (TransformFunction ℝ)}
    (letters : ∀ c ∈ name.toList, isNameCharacter c = true)
    (known : arguments? length name = some reader) (ahead : List Char) :
    function length (name.toList ++ '(' :: ahead) = body length reader ahead := by
  have bracket : ¬ isNameCharacter '(' = true := by decide
  have stop : ('(' :: ahead).dropWhile isSpace = '(' :: ahead := rfl
  unfold function
  rw [List.takeWhile_append_of_pos letters, List.dropWhile_append_of_pos letters,
    List.takeWhile_cons_of_neg bracket, List.dropWhile_cons_of_neg bracket, stop, List.append_nil]
  dsimp only
  rw [if_neg (not_not.2 rfl), String.ofList_toList, known]

/-- The names of the functions that do something. -/
lemma name_of_act? {name : String} {xs : List ℝ} {act : Point ℝ → Point ℝ}
    (known : act? name xs = some act) : name = "matrix" ∨ name = "translate" ∨ name = "scale" := by
  unfold act? at known
  split at known <;> simp_all

/-- A list of one function. -/
lemma from_of_function {cs : List Char} {f : TransformFunction ℝ} {length : ℕ}
    (read : function length (cs.dropWhile isSpace) = .ok (f, [])) :
    TransformList.from length cs = ⟨[f], none⟩ := by
  rw [from_eq, read, if_neg]
  · dsimp only
    rw [from_eq]
    rfl
  · rw [List.isEmpty_iff]
    intro blank
    rw [blank] at read
    cases read

/-- A function that is written with its arguments does what they say. -/
theorem transforms_of_listed {name args : String} {xs : List ℝ} {act : Point ℝ → Point ℝ}
    (known : act? name xs = some act) (listed : Listed xs args.toList) :
    Transforms (name ++ "(" ++ args ++ ")") [act] := by
  obtain ⟨letters, nonblank⟩ : (∀ c ∈ name.toList, isNameCharacter c = true) ∧
      ∀ ahead, (name.toList ++ ahead).dropWhile isSpace = name.toList ++ ahead := by
    rcases name_of_act? known with rfl | rfl | rfl
    all_goals exact ⟨List.all_eq_true.1 rfl, fun ahead => rfl⟩
  have awaits : Awaits xs [] (args.toList ++ [')']) := by
    obtain ⟨y, ys, rfl⟩ := listed.exists_cons
    exact ⟨_, listed, rfl⟩
  have text : (name ++ "(" ++ args ++ ")").toList =
      name.toList ++ '(' :: (args.toList ++ [')']) := by
    simp
  rw [Transforms, TransformList.ofText, text]
  obtain ⟨reader, f, behind, reads, read, acts, closed⟩ := exists_arguments known awaits _
  refine ⟨[f], from_of_function ?_, by simp [acts]⟩
  rw [nonblank, function_of_name letters reads]
  exact body_eq_ok.2 ⟨behind, [], read, closed, rfl⟩

end Toolpath.Svg
