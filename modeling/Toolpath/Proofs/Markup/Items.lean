import Mathlib
import Toolpath.Markup.Event

/-!
# What an item takes

An item is looked for from its bracket on, and found at its closing one. So it takes a part of the
text that ends with a bracket (`exists_of_scanItem`), and what stands behind that part does not
matter (`scanItem_extend`).
-/

namespace Toolpath.Markup

/-- An item that begins with none of the marks is a start tag. -/
lemma scanItem_eq_startTag {c : Char} {cs : List Char} (noMark : c ≠ '!') (noQuestion : c ≠ '?')
    (noSlash : c ≠ '/') : scanItem (c :: cs) = startTag (c :: cs) := by
  unfold scanItem
  split
  next none => cases none
  next same => exact absurd (List.cons.inj same).1 noMark
  next same => exact absurd (List.cons.inj same).1 noQuestion
  next same => exact absurd (List.cons.inj same).1 noSlash
  next => rfl

/-! ### Items end with their bracket -/

lemma exists_of_splitAtClose {ends : List Char → Bool} {before cs content : List Char}
    (found : splitAtClose ends before cs = some content) :
    ∃ rest, before.reverse ++ cs = content ++ '>' :: rest := by
  fun_induction splitAtClose ends before cs with
  | case1 => cases found
  | case2 before c cs closed =>
    obtain rfl : c = '>' := by simp at closed; exact closed.1
    exact ⟨cs, by rw [← Option.some.inj found]⟩
  | case3 before c cs _ ih =>
    obtain ⟨rest, same⟩ := ih found
    exact ⟨rest, by simpa using same⟩

lemma exists_of_splitTag {quote : Option Char} {before cs content : List Char}
    (found : splitTag quote before cs = some content) :
    ∃ rest, before.reverse ++ cs = content ++ '>' :: rest := by
  fun_induction splitTag quote before cs with
  | case1 => cases found
  | case3 before cs => exact ⟨cs, by rw [← Option.some.inj found]⟩
  | case2 _ _ _ _ ih | case4 _ _ _ _ ih =>
    obtain ⟨rest, same⟩ := ih found
    exact ⟨rest, by simpa using same⟩

lemma exists_of_splitDeclaration {depth : ℕ} {before cs content : List Char}
    (found : splitDeclaration depth before cs = some content) :
    ∃ rest, before.reverse ++ cs = content ++ '>' :: rest := by
  fun_induction splitDeclaration depth before cs with
  | case1 => cases found
  | case3 before cs => exact ⟨cs, by rw [← Option.some.inj found]⟩
  | case2 _ _ _ ih | case4 _ _ _ ih | case5 _ _ _ _ _ _ ih =>
    obtain ⟨rest, same⟩ := ih found
    exact ⟨rest, by simpa using same⟩

lemma exists_of_skip {content : Option (List Char)} {cause : Cause} {begins : List Char → Bool}
    {item : Item} {n : ℕ} (skipped : skip content cause begins = .ok (item, n)) :
    ∃ found, content = some found ∧ n = found.length + 1 := by
  unfold skip at skipped
  split at skipped
  · cases skipped
  · split at skipped
    · cases skipped
      exact ⟨_, rfl, rfl⟩
    · cases skipped

lemma exists_of_doctype {cs : List Char} {item : Item} {n : ℕ}
    (scanned : doctype cs = .ok (item, n)) :
    ∃ content, splitDeclaration 0 [] cs = some content ∧ n = content.length + 1 := by
  unfold doctype at scanned
  split at scanned
  · cases scanned
  next content found =>
    split at scanned
    · cases scanned
    · split at scanned
      · cases scanned
      · cases scanned
        exact ⟨content, found, rfl⟩

/-- Whatever an item is, it ends with its bracket. -/
lemma exists_of_scanItem {cs : List Char} {item : Item} {n : ℕ}
    (scanned : scanItem cs = .ok (item, n)) :
    ∃ content rest, cs = content ++ '>' :: rest ∧ n = content.length + 1 := by
  unfold scanItem at scanned
  split at scanned
  case h_1 => cases scanned
  case h_2 kind =>
    split at scanned
    case h_1 | h_2 =>
      obtain ⟨content, found, rfl⟩ := exists_of_skip scanned
      obtain ⟨rest, same⟩ := exists_of_splitAtClose found
      exact ⟨content, rest, same, rfl⟩
    case h_3 | h_4 =>
      obtain ⟨content, found, rfl⟩ := exists_of_doctype scanned
      obtain ⟨rest, same⟩ := exists_of_splitDeclaration found
      exact ⟨content, rest, same, rfl⟩
    case h_5 => cases scanned
  case h_3 =>
    obtain ⟨content, found, rfl⟩ := exists_of_skip scanned
    obtain ⟨rest, same⟩ := exists_of_splitAtClose found
    exact ⟨content, rest, same, rfl⟩
  case h_4 cs =>
    unfold stopTag at scanned
    split at scanned
    · cases scanned
    next content found =>
      cases scanned
      obtain ⟨rest, same⟩ := exists_of_splitTag found
      exact ⟨'/' :: content, rest, congrArg (List.cons '/') same, rfl⟩
  case h_5 =>
    unfold startTag at scanned
    split at scanned
    · cases scanned
    next content found =>
      cases scanned
      obtain ⟨rest, same⟩ := exists_of_splitTag found
      exact ⟨content, rest, same, rfl⟩

lemma length_of_scanItem {cs : List Char} {item : Item} {n : ℕ}
    (scanned : scanItem cs = .ok (item, n)) : n ≤ cs.length := by
  obtain ⟨content, rest, rfl, rfl⟩ := exists_of_scanItem scanned
  simp

/-! ### What follows does not matter -/

lemma splitAtClose_extend {ends : List Char → Bool} {before cs content : List Char}
    (found : splitAtClose ends before cs = some content) (more : List Char) :
    splitAtClose ends before (cs ++ more) = some content := by
  fun_induction splitAtClose ends before cs with
  | case1 => cases found
  | case2 before c cs closed => rwa [List.cons_append, splitAtClose, if_pos closed]
  | case3 before c cs other ih =>
    rw [List.cons_append, splitAtClose, if_neg other]
    exact ih found

lemma splitTag_extend {quote : Option Char} {before cs content : List Char}
    (found : splitTag quote before cs = some content) (more : List Char) :
    splitTag quote before (cs ++ more) = some content := by
  fun_induction splitTag quote before cs with
  | case1 => cases found
  | case2 before c cs q ih =>
    rw [List.cons_append, splitTag]
    exact ih found
  | case3 before cs => rwa [List.cons_append, splitTag]
  | case4 before c cs other ih =>
    rw [List.cons_append, splitTag, if_neg other]
    exact ih found

lemma splitDeclaration_extend {depth : ℕ} {before cs content : List Char}
    (found : splitDeclaration depth before cs = some content) (more : List Char) :
    splitDeclaration depth before (cs ++ more) = some content := by
  fun_induction splitDeclaration depth before cs with
  | case1 => cases found
  | case2 depth before cs ih => exact ih found
  | case3 before cs => exact found
  | case4 depth before cs ih => exact ih found
  | case5 depth before c cs notOpen notClose ih =>
    rw [List.cons_append, splitDeclaration]
    · exact ih found
    · exact notOpen
    · exact notClose

lemma skip_extend {ends : List Char → Bool} {cs : List Char} {cause : Cause}
    {begins : List Char → Bool} {item : Item} {n : ℕ}
    (skipped : skip (splitAtClose ends [] cs) cause begins = .ok (item, n)) (more : List Char) :
    skip (splitAtClose ends [] (cs ++ more)) cause begins = .ok (item, n) := by
  obtain ⟨content, found, _⟩ := exists_of_skip skipped
  rwa [splitAtClose_extend found, ← found]

lemma doctype_extend {cs : List Char} {item : Item} {n : ℕ} (scanned : doctype cs = .ok (item, n))
    (more : List Char) : doctype (cs ++ more) = .ok (item, n) := by
  obtain ⟨content, found, _⟩ := exists_of_doctype scanned
  rw [doctype, found] at scanned
  rwa [doctype, splitDeclaration_extend found]

lemma stopTag_extend {cs : List Char} {item : Item} {n : ℕ} (scanned : stopTag cs = .ok (item, n))
    (more : List Char) : stopTag (cs ++ more) = .ok (item, n) := by
  rw [stopTag] at scanned ⊢
  cases found : splitTag none [] cs with
  | none =>
    rw [found] at scanned
    cases scanned
  | some content => rwa [splitTag_extend found, ← found]

lemma startTag_extend {cs : List Char} {item : Item} {n : ℕ}
    (scanned : startTag cs = .ok (item, n)) (more : List Char) :
    startTag (cs ++ more) = .ok (item, n) := by
  rw [startTag] at scanned ⊢
  cases found : splitTag none [] cs with
  | none =>
    rw [found] at scanned
    cases scanned
  | some content => rwa [splitTag_extend found, ← found]

/-- An item is the same whatever follows it. -/
lemma scanItem_extend {cs : List Char} {item : Item} {n : ℕ} (scanned : scanItem cs = .ok (item, n))
    (more : List Char) : scanItem (cs ++ more) = .ok (item, n) := by
  unfold scanItem at scanned
  split at scanned
  case h_1 => cases scanned
  case h_2 kind =>
    split at scanned
    case h_1 | h_2 => exact skip_extend scanned more
    case h_3 | h_4 => exact doctype_extend scanned more
    case h_5 => cases scanned
  case h_3 => exact skip_extend scanned more
  case h_4 cs => exact stopTag_extend scanned more
  case h_5 nonempty noMark noQuestion noSlash =>
    obtain ⟨c, cs, rfl⟩ := List.exists_cons_of_ne_nil nonempty
    rw [List.cons_append, scanItem_eq_startTag]
    · exact startTag_extend scanned more
    · exact fun same => noMark cs (same ▸ rfl)
    · exact fun same => noQuestion cs (same ▸ rfl)
    · exact fun same => noSlash cs (same ▸ rfl)

end Toolpath.Markup
