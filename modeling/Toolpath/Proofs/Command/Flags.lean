import Toolpath.Command.Arguments
import Toolpath.Proofs.Attempt

/-!
# Whether to clip

Two flags say whether to clip, and each makes the other forgotten. So the last of them decides, if
one stands before `--`, and all else that the words set is set without them too (`settings_clip`).

A flag also sets what is pending before it. Without the flag that stays pending until a later word,
so that what the other words have come to may lag behind (`Progress.Follows`), but not at the end.
-/

namespace Toolpath.Command

/-- Does a flag say whether to clip? -/
def Flag.tellsClip : Flag → Bool
  | .clip => true
  | .noClip => true
  | _ => false

/-- A flag that says whether to clip overrides the other that does. -/
lemma Flag.overridden?_eq_some_iff {flag : Flag} (tells : flag.tellsClip = true) (other : Flag) :
    flag.overridden? = some other ↔ other.tellsClip = true ∧ other ≠ flag := by
  cases flag <;> cases other <;> first | exact absurd tells (by decide) | decide

/-- The flag of a word that says whether to clip. -/
def clipFlag? : String → Option Flag
  | "--clip" => some .clip
  | "--no-clip" => some .noClip
  | _ => none

/-- The flags that say whether to clip, in the order of their words. Behind `--` there are none. -/
def clipFlags (words : List String) : List Flag :=
  (words.takeWhile (· != "--")).filterMap clipFlag?

/-- The words that are left without these flags. -/
def withoutClipFlags (words : List String) : List String :=
  (words.takeWhile (· != "--")).filter (fun word => (clipFlag? word).isNone) ++
    words.dropWhile (· != "--")

variable {clip : List Flag} {literal : Bool} {s s' t : Settings} {p p' q r : Progress}
  {flag : Flag} {word : String} {words : List String}

/-! ### Settings without these flags -/

namespace Settings

/-- The settings with no word on whether to clip. -/
def unclipped (s : Settings) : Settings :=
  { s with flags := s.flags.filter (!·.tellsClip) }

/-- The second settings are the first ones, which say with these flags whether to clip, without
them. -/
structure Without (clip : List Flag) (s t : Settings) : Prop where
  flags : s.flags.filter Flag.tellsClip = clip
  rest : t = s.unclipped

lemma has_unclipped (other : flag.tellsClip = false) : s.unclipped.has flag = s.has flag := by
  rw [Bool.eq_iff_iff]
  simp [unclipped, has, other]

lemma Without.setFlag (without : s.Without clip t) (other : flag.tellsClip = false) :
    Alike (Without clip) (s.setFlag flag) (t.setFlag flag) := by
  obtain ⟨flags, rfl⟩ := without
  have same := has_unclipped (s := s) other
  -- No other flag overrides one.
  have kept (flags : List Flag) :
      (flags.filter fun other => flag.overridden? != some other) = flags :=
    List.filter_eq_self.2 fun _ _ => by
      cases flag <;> first | rfl | exact absurd other (by decide)
  unfold Settings.setFlag
  split
  · exact .fault _
  · exact .fault _
  · rw [same]
    split
    case isTrue => exact .fault _
    case isFalse =>
      simp only [kept]
      refine .value ⟨?_, ?_⟩
      · simpa [other] using flags
      · simp [unclipped, other]

lemma hasValue_unclipped (slot : Slot) : s.unclipped.hasValue slot = s.hasValue slot := by
  cases slot <;> rfl

lemma Without.setValue (without : s.Without clip t) (slot : Slot) (text : String) :
    Alike (Without clip) (s.setValue slot text) (t.setValue slot text) := by
  obtain ⟨flags, rfl⟩ := without
  unfold Settings.setValue
  rw [hasValue_unclipped]
  split
  case isTrue => exact .fault _
  case isFalse =>
    cases slot with
    | flatness => exact .map _ fun _ => ⟨flags, rfl⟩
    | maxDepth => exact .map _ fun _ => ⟨flags, rfl⟩
    | stats => exact .map _ fun _ => ⟨flags, rfl⟩
    | input => exact .map _ fun _ => ⟨flags, rfl⟩
    | output => exact .map _ fun _ => ⟨flags, rfl⟩

lemma setFlag_eq_ok (set : s.setFlag flag = .ok s') :
    s.has flag = false ∧ s' =
      { s with flags := flag :: s.flags.filter fun other => flag.overridden? != some other } := by
  unfold setFlag at set
  split at set
  · cases set
  · cases set
  · split at set
    case isTrue => cases set
    case isFalse fresh => exact ⟨Bool.not_eq_true _ ▸ fresh, (Except.ok.inj set).symm⟩

/-- A flag that says whether to clip is then the only one that does. -/
lemma Without.setFlag_left (without : s.Without clip t) (tells : flag.tellsClip = true)
    (set : s.setFlag flag = .ok s') : flag ∉ clip ∧ s'.Without [flag] t := by
  obtain ⟨rfl, rfl⟩ := without
  obtain ⟨fresh, rfl⟩ := setFlag_eq_ok set
  have fresh : flag ∉ s.flags := by simpa [has] using fresh
  refine ⟨fun present => fresh (List.mem_of_mem_filter present), ?_, ?_⟩
  · have overridden : ∀ other ∈ s.flags, other.tellsClip = true → flag.overridden? = some other :=
      fun other present tells' =>
        (Flag.overridden?_eq_some_iff tells other).2 ⟨tells', fun same => fresh (same ▸ present)⟩
    simpa [tells] using overridden
  · simp only [unclipped, tells, List.filter_cons, List.filter_filter, Bool.not_true]
    congr 1
    refine List.filter_congr fun other _ => ?_
    cases silent : other.tellsClip with
    | true => rfl
    | false => simp [Flag.overridden?_eq_some_iff tells, silent]

/-- What settings say that differ in nothing but these flags. -/
lemma Without.tells (without : s.Without clip t) :
    (s.options.clip = false ↔ .noClip ∈ clip) ∧ t.options.clip = true ∧
      s.options = { t.options with clip := s.options.clip } ∧
      s.level = t.level ∧ s.stats = t.stats ∧ s.input = t.input ∧ s.output = t.output := by
  obtain ⟨rfl, rfl⟩ := without
  refine ⟨?_, ?_, rfl, ?_, rfl, rfl, rfl⟩
  · simp [options, has, Flag.tellsClip]
  · simp [options, has, unclipped, Flag.tellsClip]
  · rw [level, level, has_unclipped rfl, has_unclipped rfl]

end Settings

/-! ### Words side by side -/

namespace Progress

/-- The second progress is the first without its flags that say whether to clip. -/
structure Without (clip : List Flag) (literal : Bool) (p q : Progress) : Prop where
  settings : p.settings.Without clip q.settings
  literal : p.literal = literal
  rest : q = { p with settings := q.settings }

/-- The same, but what is set in the first may still be pending in the second. -/
def Follows (clip : List Flag) (literal : Bool) (p q : Progress) : Prop :=
  Without clip literal p q ∨
    p.pending = none ∧ ∃ r, q.resolve = .ok r ∧ Without clip literal p r

/-- What is pending in either is set. -/
lemma Without.resolve (without : Without clip literal p q) :
    Alike (fun p q => Without clip literal p q ∧ p.pending = none) p.resolve q.resolve := by
  obtain ⟨s, pending, paths, literal⟩ := p
  obtain ⟨settings, same, rest⟩ := without
  rw [rest]
  rcases pending with _ | ⟨slot, _ | text⟩
  · exact .value ⟨⟨settings, same, rfl⟩, rfl⟩
  · exact .fault _
  · exact (settings.setValue slot text).bind fun s t without =>
      .value ⟨⟨without, same, rfl⟩, rfl⟩

lemma resolve_of_pending (nothing : p.pending = none) : p.resolve = .ok p := by
  unfold resolve
  rw [nothing]

lemma Follows.resolve (follows : Follows clip literal p q) :
    Alike (fun p q => Without clip literal p q ∧ p.pending = none) p.resolve q.resolve := by
  rcases follows with without | ⟨nothing, r, resolved, without⟩
  · exact without.resolve
  · rw [resolve_of_pending nothing, resolved]
    exact .value ⟨without, nothing⟩

/-- What begins with setting what is pending goes on from the same place. -/
lemma Follows.bind {β γ : Type} {related : β → γ → Prop} {f : Progress → Except UsageFault β}
    {g : Progress → Except UsageFault γ} (follows : Follows clip literal p q)
    (next : ∀ (p : Progress) (t : Settings), p.settings.Without clip t → p.literal = literal →
      Alike related (f p) (g { p with settings := t })) :
    Alike related (p.resolve >>= f) (q.resolve >>= g) := by
  refine follows.resolve.bind ?_
  rintro p q ⟨⟨settings, same, rest⟩, -⟩
  rw [rest]
  exact next p q.settings settings same

lemma Follows.takeFlag (follows : Follows clip literal p q) (other : flag.tellsClip = false) :
    Alike (Follows clip literal) (p.takeFlag flag) (q.takeFlag flag) :=
  follows.bind fun _ _ settings same =>
    (settings.setFlag other).bind fun _ _ without => .value (.inl ⟨without, same, rfl⟩)

/-- A flag that says whether to clip is taken by the first alone, which sets what is pending. -/
lemma Follows.takeFlag_left (follows : Follows clip literal p q) (tells : flag.tellsClip = true)
    (taken : p.takeFlag flag = .ok p') : flag ∉ clip ∧ Follows [flag] literal p' q := by
  obtain ⟨r, resolved, taken⟩ := Except.bind_eq_ok.1 taken
  obtain ⟨s, set, taken⟩ := Except.bind_eq_ok.1 taken
  cases taken
  obtain ⟨q', resolved', ⟨settings, same, rest⟩, nothing⟩ := follows.resolve.exists_right resolved
  obtain ⟨fresh, without⟩ := settings.setFlag_left tells set
  refine ⟨fresh, .inr ⟨nothing, q', resolved', without, same, ?_⟩⟩
  rw [rest]

lemma Follows.takeLong {tool : Tool} {name : String} {value : Option String}
    (follows : Follows clip literal p q)
    (other : ∀ flag, tool.long? name = some (.flag flag) → value = none → flag.tellsClip = false) :
    Alike (Follows clip literal) (p.takeLong tool name value) (q.takeLong tool name value) := by
  unfold Progress.takeLong
  split
  case h_1 => exact .fault _
  case h_2 => exact .fault _
  case h_3 flag named => exact follows.takeFlag (other flag named rfl)
  case h_4 slot text _ =>
    exact follows.bind fun _ _ settings same =>
      (settings.setValue slot text).bind fun _ _ without => .value (.inl ⟨without, same, rfl⟩)
  case h_5 slot _ =>
    exact follows.bind fun _ _ settings same => .value (.inl ⟨settings, same, rfl⟩)

/-- No letter stands for a flag that says whether to clip. -/
lemma Follows.takeShort (follows : Follows clip literal p q) (cs : List Char) :
    Alike (Follows clip literal) (p.takeShort cs) (q.takeShort cs) := by
  induction cs generalizing p q with
  | nil => exact .value follows
  | cons c cs ih =>
    unfold Progress.takeShort
    split
    case h_1 => exact .fault _
    case h_2 flag named =>
      have other : flag.tellsClip = false := by
        unfold shortFlag? at named
        split at named <;> cases named <;> rfl
      exact (follows.takeFlag other).bind fun p q follows => ih follows

/-- Setting what is pending changes nothing else, and does not depend on how words are taken. -/
lemma of_resolve (resolved : q.resolve = .ok r) :
    r.paths = q.paths ∧ r.literal = q.literal ∧
      { q with literal := true }.resolve = .ok { r with literal := true } := by
  obtain ⟨s, pending, paths, literal⟩ := q
  rcases pending with _ | ⟨slot, _ | text⟩
  · cases resolved
    exact ⟨rfl, rfl, rfl⟩
  · cases resolved
  · simp only [resolve] at resolved ⊢
    cases set : s.setValue slot text with
    | error fault =>
      rw [set] at resolved
      cases resolved
    | ok t =>
      rw [set] at resolved
      cases resolved
      exact ⟨rfl, rfl, rfl⟩

/-- Nothing waits for a value. -/
lemma given_of_resolve (resolved : q.resolve = .ok r) (slot : Slot) :
    q.pending ≠ some (slot, none) := by
  intro waiting
  rw [resolve, waiting] at resolved
  cases resolved

/-- Both have had the same paths, and take further words the same way. -/
lemma Follows.same (follows : Follows clip literal p q) :
    q.paths = p.paths ∧ p.literal = literal ∧ q.literal = literal := by
  rcases follows with without | ⟨-, r, resolved, without⟩
  · rw [without.rest]
    exact ⟨rfl, without.literal, without.literal⟩
  · obtain ⟨paths, same, -⟩ := of_resolve resolved
    rw [← paths, ← same, without.rest]
    exact ⟨rfl, without.literal, without.literal⟩

lemma Follows.takePath (follows : Follows clip literal p q) (text : String) :
    Alike (Follows clip literal) (p.takePath text) (q.takePath text) := by
  have begun (slot : Slot) : Alike (Follows clip literal)
      (p.resolve >>= fun p =>
        pure { p with pending := some (slot, some text), paths := p.paths + 1 })
      (q.resolve >>= fun q =>
        pure { q with pending := some (slot, some text), paths := q.paths + 1 }) :=
    follows.bind fun _ _ settings same => .value (.inl ⟨settings, same, rfl⟩)
  unfold Progress.takePath
  rw [follows.same.1]
  split
  case h_1 => exact begun .input
  case h_2 => exact begun .output
  case h_3 => exact .fault _

lemma takePlain_of_given (given : ∀ slot, p.pending ≠ some (slot, none)) (text : String) :
    p.takePlain text = p.takePath text := by
  unfold takePlain
  split
  case h_1 waiting => exact absurd waiting (given _)
  case h_2 => rfl

lemma Follows.takePlain (follows : Follows clip literal p q) (text : String) :
    Alike (Follows clip literal) (p.takePlain text) (q.takePlain text) := by
  have path := follows.takePath text
  rcases follows with ⟨settings, same, rest⟩ | ⟨nothing, r, resolved, -⟩
  · obtain ⟨s, pending, paths, literal⟩ := p
    rw [rest] at path ⊢
    rcases pending with _ | ⟨slot, _ | value⟩
    · exact path
    · exact .value (.inl ⟨settings, same, rfl⟩)
    · exact path
  · rw [takePlain_of_given (by simp [nothing]), takePlain_of_given (given_of_resolve resolved)]
    exact path

/-! ### Which words are flags -/

/-- Without an equals sign all is the name. -/
lemma fst_splitEquals {cs : List Char} (none : (splitEquals cs).2 = none) :
    (splitEquals cs).1 = String.ofList cs := by
  unfold splitEquals at none ⊢
  split at none
  case h_1 done =>
    rw [List.dropWhile_eq_nil_iff] at done
    rw [List.takeWhile_eq_self_iff.2 done]
  case h_2 => cases none

lemma dashes_append {cs : List Char} (chars : word.toList = '-' :: '-' :: cs) :
    "--" ++ String.ofList cs = word := by
  rw [← String.toList_inj, chars, String.toList_append]
  simp

/-- Only two long names stand for a flag that says whether to clip. -/
lemma of_long? {tool : Tool} {name : String} (named : tool.long? name = some (.flag flag))
    (tells : flag.tellsClip = true) : clipFlag? ("--" ++ name) = some flag := by
  unfold Tool.long? at named
  split at named <;> try cases named
  · rfl
  · rfl
  · unfold commonLong? at named
    split at named <;> cases named <;> exact absurd tells (by decide)

/-- A word that says nothing about it is taken by both. -/
lemma Follows.take (follows : Follows clip false p q) (silent : clipFlag? word = none)
    (option : word ≠ "--") :
    Alike (Follows clip false) (p.take .plot word) (q.take .plot word) := by
  obtain ⟨-, first, second⟩ := follows.same
  unfold Progress.take
  rw [first, second, if_neg (by decide), if_neg (by decide)]
  split
  case h_1 chars => exact absurd (String.toList_inj.1 chars) option
  case h_2 chars =>
    refine follows.takeLong fun flag named whole => ?_
    have named := (congrArg (Tool.long? .plot) (fst_splitEquals whole)).symm.trans named
    by_contra tells
    have told := of_long? named (by simpa using tells)
    rw [dashes_append chars, silent] at told
    cases told
  case h_3 => exact follows.takeShort _
  case h_4 => exact follows.takePlain word

/-- A flag that says whether to clip is not the one that was told last. -/
lemma Follows.take_left (follows : Follows clip false p q) (told : clipFlag? word = some flag)
    (taken : p.take .plot word = .ok p') : flag ∉ clip ∧ Follows [flag] false p' q := by
  obtain ⟨-, opened, -⟩ := follows.same
  unfold Progress.take at taken
  rw [opened, if_neg (by decide)] at taken
  unfold clipFlag? at told
  split at told <;> cases told
  · exact follows.takeFlag_left rfl taken
  · exact follows.takeFlag_left rfl taken

/-- After `--` both take all words as paths. -/
lemma Follows.take_terminator (follows : Follows clip false p q) :
    Alike (Follows clip true) (p.take .plot "--") (q.take .plot "--") := by
  obtain ⟨-, first, second⟩ := follows.same
  unfold Progress.take
  rw [first, second, if_neg (by decide), if_neg (by decide)]
  refine .value ?_
  rcases follows with ⟨settings, -, rest⟩ | ⟨nothing, r, resolved, settings, -, rest⟩
  · rw [rest]
    exact .inl ⟨settings, rfl, rfl⟩
  · refine .inr ⟨nothing, _, (of_resolve resolved).2.2, settings, rfl, ?_⟩
    rw [rest]

lemma Follows.take_literal (follows : Follows clip true p q) :
    Alike (Follows clip true) (p.take .plot word) (q.take .plot word) := by
  obtain ⟨-, first, second⟩ := follows.same
  unfold Progress.take
  rw [first, second, if_pos rfl, if_pos rfl]
  exact follows.takePath word

/-! ### A run -/

lemma takeAll_append (tool : Tool) (p : Progress) (words words' : List String) :
    p.takeAll tool (words ++ words') = p.takeAll tool words >>= fun p => p.takeAll tool words' := by
  induction words generalizing p with
  | nil => rfl
  | cons word words ih =>
    simp only [List.cons_append, takeAll]
    cases p.take tool word with
    | error fault => rfl
    | ok p' => exact ih p'

/-- The flags that say whether to clip alternate, and the last one is left. -/
lemma Follows.takeAll {told : List Flag} (follows : Follows told.getLast?.toList false p q)
    (alternate : told.IsChain (· ≠ ·)) (options : "--" ∉ words)
    (taken : p.takeAll .plot words = .ok p') :
    (told ++ words.filterMap clipFlag?).IsChain (· ≠ ·) ∧
      ∃ q', q.takeAll .plot (words.filter fun word => (clipFlag? word).isNone) = .ok q' ∧
        Follows (told ++ words.filterMap clipFlag?).getLast?.toList false p' q' := by
  induction words generalizing p q told with
  | nil =>
    cases taken
    simpa using ⟨alternate, q, rfl, follows⟩
  | cons word words ih =>
    obtain ⟨option, options⟩ := not_or.1 (mt List.mem_cons.2 options)
    obtain ⟨p₁, first, taken⟩ := Except.bind_eq_ok.1 taken
    cases found : clipFlag? word with
    | none =>
      obtain ⟨q₁, second, follows⟩ := (follows.take found (Ne.symm option)).exists_right first
      obtain ⟨alternate, q', rest, follows⟩ := ih follows alternate options taken
      simp only [List.filterMap_cons, List.filter_cons, found, Option.isNone_none, if_true]
      refine ⟨alternate, q', ?_, follows⟩
      rw [Progress.takeAll, second]
      exact rest
    | some flag =>
      obtain ⟨differ, follows⟩ := follows.take_left found first
      have alternate : (told ++ [flag]).IsChain (· ≠ ·) := by
        refine List.isChain_append.2 ⟨alternate, .singleton _, fun last told next here => ?_⟩
        cases here
        rintro rfl
        exact differ (Option.mem_toList.2 told)
      have last : (told ++ [flag]).getLast?.toList = [flag] := by simp
      rw [← last] at follows
      obtain ⟨alternate, q', rest, follows⟩ := ih follows alternate options taken
      simp only [List.filterMap_cons, List.filter_cons, found]
      rw [List.append_assoc, List.singleton_append] at alternate follows
      exact ⟨alternate, q', rest, follows⟩

lemma Follows.takeAll_literal (follows : Follows clip true p q) (words : List String) :
    Alike (Follows clip true) (p.takeAll .plot words) (q.takeAll .plot words) := by
  induction words generalizing p q with
  | nil => exact .value follows
  | cons word words ih => exact follows.take_literal.bind fun p q follows => ih follows

/-- From `--` on nothing more is said about it. -/
lemma Follows.takeAll_terminator (follows : Follows clip false p q) (words : List String)
    (taken : p.takeAll .plot (words.dropWhile (· != "--")) = .ok p') :
    ∃ literal q', q.takeAll .plot (words.dropWhile (· != "--")) = .ok q' ∧
      Follows clip literal p' q' := by
  have head := List.head?_dropWhile_not (· != "--") words
  generalize words.dropWhile (· != "--") = rest at taken head
  rcases rest with _ | ⟨word, paths⟩
  · cases taken
    exact ⟨false, q, rfl, follows⟩
  · obtain rfl : word = "--" := by simpa using head
    exact ⟨true, (follows.take_terminator.bind fun p q follows =>
      follows.takeAll_literal paths).exists_right taken⟩

lemma Follows.finish (follows : Follows clip literal p q) :
    Alike (Settings.Without clip) p.finish q.finish := by
  refine follows.bind fun p t settings _ => ?_
  have same (flag : Flag) (other : flag.tellsClip = false) :
      t.has flag = p.settings.has flag := by
    rw [settings.rest, Settings.has_unclipped other]
  rw [same .quiet rfl, same .verbose rfl]
  split
  · exact .fault _
  · exact .value settings

end Progress

/-- Words that are accepted say not to clip if the last of the flags that say whether to stands for
that. These flags alternate, and all else is set without them too. -/
theorem settings_clip (accepted : Tool.plot.settings words = .ok s) :
    (s.options.clip = false ↔ (clipFlags words).getLast? = some .noClip) ∧
    (clipFlags words).IsChain (· ≠ ·) ∧
    ∃ t, Tool.plot.settings (withoutClipFlags words) = .ok t ∧
      t.options.clip = true ∧ s.options = { t.options with clip := s.options.clip } ∧
      s.level = t.level ∧ s.stats = t.stats ∧ s.input = t.input ∧ s.output = t.output := by
  obtain ⟨p, taken, finished⟩ := Except.bind_eq_ok.1 accepted
  have start : Progress.Follows ([] : List Flag).getLast?.toList false .start .start :=
    .inl ⟨⟨rfl, rfl⟩, rfl, rfl⟩
  have options : "--" ∉ words.takeWhile (· != "--") := fun found => by
    simpa using List.mem_takeWhile_imp found
  rw [← List.takeWhile_append_dropWhile (p := (· != "--")) (l := words),
    Progress.takeAll_append] at taken
  obtain ⟨p₁, first, rest⟩ := Except.bind_eq_ok.1 taken
  obtain ⟨alternate, q₁, first', follows⟩ := start.takeAll .nil options first
  rw [List.nil_append] at alternate follows
  obtain ⟨literal, q, rest', follows⟩ := follows.takeAll_terminator words rest
  obtain ⟨t, finished', without⟩ := follows.finish.exists_right finished
  obtain ⟨clip, others⟩ := without.tells
  refine ⟨clip.trans Option.mem_toList, alternate, t, ?_, others⟩
  rw [Tool.settings, withoutClipFlags, Progress.takeAll_append, first', Except.bind_of_ok, rest']
  exact finished'

/-- The two flags among options of all kinds. A value and a path that look like them are none. -/
theorem settings_clip_of_four :
    ∃ s t, Tool.plot.settings ["--clip", "-q", "drawing.svg", "--no-clip", "--flatness", "0.5",
        "--clip", "--stats=--clip", "--no-clip", "--", "--clip"] = .ok s ∧
      s.options.clip = false ∧
      Tool.plot.settings ["-q", "drawing.svg", "--flatness", "0.5", "--stats=--clip", "--",
        "--clip"] = .ok t ∧
      t.options.clip = true ∧ s.options = { t.options with clip := s.options.clip } ∧
      s.level = t.level ∧ s.stats = t.stats ∧ s.input = t.input ∧ s.output = t.output := by
  obtain ⟨s, found⟩ := Option.isSome_iff_exists.1 (by decide +kernel :
    (Tool.plot.settings ["--clip", "-q", "drawing.svg", "--no-clip", "--flatness", "0.5",
      "--clip", "--stats=--clip", "--no-clip", "--", "--clip"]).toOption.isSome = true)
  have accepted := Except.eq_ok_of_toOption found
  obtain ⟨clip, -, t, without, others⟩ := settings_clip accepted
  exact ⟨s, t, accepted, clip.2 (by decide +kernel), without, others⟩

end Toolpath.Command
