import Toolpath.Proofs.Pattern.Targets

/-!
# What a program is

Polylines are written as a program if every coordinate is in range, and otherwise the first one that
is not is named (`Program.faultsAt_ofPolylines`). A program that is written draws the polylines in
thousandths, in order, without repetitions and without those that have fewer than two points left;
`Program.Draws` says what that means for its records (`Program.draws_of_ofPolylines`).
-/

namespace Toolpath.Pattern

/-! ### Faults -/

section Faults

variable {ι ε β γ : Type} {off : ι → Bool} {fault : ι → ε}

/-- Work that looks at some things in order: it is done if nothing is off, and otherwise it fails
at the first thing that is. -/
def FaultsAt (off : ι → Bool) (fault : ι → ε) (things : List ι) (x : Except ε β) : Prop :=
  match things.find? off with
  | none => ∃ b, x = .ok b
  | some a => x = .error (fault a)

lemma FaultsAt.ok (b : β) : FaultsAt off fault [] (.ok b) :=
  ⟨b, rfl⟩

/-- Work that goes on looks at the things of both parts. -/
lemma FaultsAt.bind {things more : List ι} {x : Except ε β} {f : β → Except ε γ}
    (first : FaultsAt off fault things x) (next : ∀ b, FaultsAt off fault more (f b)) :
    FaultsAt off fault (things ++ more) (x >>= f) := by
  unfold FaultsAt at first
  cases found : things.find? off with
  | none =>
    rw [found] at first
    obtain ⟨b, rfl⟩ := first
    have later := next b
    unfold FaultsAt at later ⊢
    rw [List.find?_append, found]
    exact later
  | some a =>
    rw [found] at first
    obtain rfl := first
    unfold FaultsAt
    rw [List.find?_append, found]
    rfl

lemma FaultsAt.mapM {things : β → List ι} {f : β → Except ε γ}
    (each : ∀ b, FaultsAt off fault (things b) (f b)) (bs : List β) :
    FaultsAt off fault (bs.flatMap things) (bs.mapM f) := by
  induction bs with
  | nil => exact .ok []
  | cons b bs ih =>
    rw [List.mapM_cons, List.flatMap_cons]
    refine (each b).bind fun c => ?_
    rw [← List.append_nil (bs.flatMap things)]
    exact ih.bind fun cs => .ok (c :: cs)

lemma FaultsAt.exists_ok_iff {things : List ι} {x : Except ε β}
    (faults : FaultsAt off fault things x) :
    (∃ b, x = .ok b) ↔ ∀ a ∈ things, off a = false := by
  unfold FaultsAt at faults
  cases found : things.find? off with
  | none =>
    rw [found] at faults
    simpa [List.find?_eq_none] using iff_of_true faults (List.find?_eq_none.1 found)
  | some a =>
    rw [found] at faults
    obtain rfl := faults
    have wrong := List.find?_some found
    refine iff_of_false (fun ⟨_, ok⟩ => nomatch ok) fun right => ?_
    rw [right a (List.mem_of_find?_eq_some found)] at wrong
    cases wrong

end Faults

variable {α : Type} [Scalar α]

/-- Do sixty-four bits not hold a coordinate in thousandths? -/
def outOfRange (x : α) : Bool := (round? (x * 1000.0)).isNone

/-- The coordinates of a drawing in order, `x` before `y`. -/
def coordinates (lines : List (Polyline α)) : List α :=
  lines.flatMap fun line => line.flatMap fun p => [p.x, p.y]

lemma faultsAt_quantize (x : α) : FaultsAt outOfRange Fault.outOfRange [x] (quantize x) := by
  unfold FaultsAt quantize
  cases rounded : round? (x * 1000.0) with
  | none =>
    have off : outOfRange x = true := by simp [outOfRange, rounded]
    simp [off]
  | some n =>
    have fits : outOfRange x = false := by simp [outOfRange, rounded]
    simp [fits]

lemma faultsAt_ofPoint (p : Point α) :
    FaultsAt outOfRange Fault.outOfRange [p.x, p.y] (Target.ofPoint p) :=
  (faultsAt_quantize p.x).bind fun x => (faultsAt_quantize p.y).bind fun y => .ok (Target.mk x y)

/-- Polylines are written if all coordinates are in range; otherwise the first one that is not is
the fault. -/
lemma Program.faultsAt_ofPolylines (lines : List (Polyline α)) :
    FaultsAt outOfRange Fault.outOfRange (coordinates lines) (ofPolylines lines) := by
  have line (l : Polyline α) :
      FaultsAt outOfRange Fault.outOfRange (l.flatMap fun p => [p.x, p.y]) (targets l) := by
    rw [← List.append_nil (l.flatMap _)]
    exact (FaultsAt.mapM faultsAt_ofPoint l).bind fun ts => .ok (collapse ts)
  rw [← List.append_nil (coordinates lines)]
  exact (FaultsAt.mapM line lines).bind fun ts => .ok _

/-! ### Records -/

/-- The number of a record. -/
def Record.line : Record → UInt32
  | .motion line _ _ => line
  | .endOfProgram line => line

/-- Where a record leads; the end of a program leads nowhere. -/
def Record.target? : Record → Option Target
  | .motion _ _ target => some target
  | .endOfProgram _ => none

def Record.isRapid : Record → Bool
  | .motion _ .rapid _ => true
  | _ => false

def Record.isEnd : Record → Bool
  | .endOfProgram _ => true
  | _ => false

/-- The program draws lines of targets. -/
structure Program.Draws (lines : List (List Target)) (program : Program) : Prop where
  /-- Split before each rapid motion, the motions go through the lines. -/
  lines : (program.records.dropLast.splitBy fun _ r => !r.isRapid).map (·.map Record.target?) =
    lines.map (·.map some)
  /-- The records are numbered from one on. -/
  numbered : program.records.map (·.line.toNat) = List.range' 1 program.records.length
  /-- The last record ends the program. -/
  ended : (program.records.getLast?.map Record.isEnd) = some true
  /-- No other record does. -/
  once : program.records.countP Record.isEnd = 1
  /-- A rapid motion is followed by a linear one. -/
  followed : ∀ i n t, program.records[i]? = some (.motion n .rapid t) →
    ∃ n' t', program.records[i + 1]? = some (.motion n' .linear t')
  /-- A linear motion follows a motion to another target. -/
  fresh : ∀ i n t, program.records[i]? = some (.motion n .linear t) →
    ∃ j n' kind t', i = j + 1 ∧ program.records[j]? = some (.motion n' kind t') ∧ t' ≠ t
  points : program.points = program.records.countP fun r => r.target?.isSome
  polylines : program.polylines = program.records.countP Record.isRapid

/-- Motions with their numbers, counted from `n`. -/
def numberFrom (n : ℕ) (ms : List (Motion × Target)) : List Record :=
  (ms.zipIdx n).map fun (m, line) => .motion (UInt32.ofNat line) m.1 m.2

lemma number_eq (ms : List (Motion × Target)) :
    number ms = numberFrom 1 ms ++ [.endOfProgram (UInt32.ofNat (ms.length + 1))] :=
  rfl

@[simp] lemma numberFrom_nil (n : ℕ) : numberFrom n [] = [] :=
  rfl

@[simp] lemma numberFrom_cons (n : ℕ) (m : Motion × Target) (ms : List (Motion × Target)) :
    numberFrom n (m :: ms) = .motion (UInt32.ofNat n) m.1 m.2 :: numberFrom (n + 1) ms :=
  rfl

lemma numberFrom_append (n : ℕ) (ms ns : List (Motion × Target)) :
    numberFrom n (ms ++ ns) = numberFrom n ms ++ numberFrom (n + ms.length) ns := by
  simp [numberFrom, List.zipIdx_append]

@[simp] lemma length_numberFrom (n : ℕ) (ms : List (Motion × Target)) :
    (numberFrom n ms).length = ms.length := by
  simp [numberFrom]

@[simp] lemma map_target?_numberFrom (n : ℕ) (ms : List (Motion × Target)) :
    (numberFrom n ms).map Record.target? = (ms.map Prod.snd).map some := by
  induction ms generalizing n with
  | nil => rfl
  | cons m ms ih => simp [ih, Record.target?]

@[simp] lemma map_snd_motions (line : List Target) : (motions line).map Prod.snd = line := by
  cases line with
  | nil => rfl
  | cons first later => simp [motions, Function.comp_def]

/-- A line is drawn without a rapid motion behind its first one. -/
lemma isChain_numberFrom_linear (n : ℕ) (m : Motion × Target) (ts : List Target) :
    (numberFrom n (m :: ts.map fun t => (.linear, t))).IsChain fun _ r => !r.isRapid := by
  induction ts generalizing n m with
  | nil => simp
  | cons t ts ih => simpa [Record.isRapid] using ih (n + 1) (.linear, t)

/-- Split before each rapid motion, the motions of lines come apart. -/
lemma map_splitBy_numberFrom (n : ℕ) {lines : List (List Target)} (full : ∀ l ∈ lines, l ≠ []) :
    ((numberFrom n (lines.flatMap motions)).splitBy fun _ r => !r.isRapid).map
      (·.map Record.target?) = lines.map (·.map some) := by
  induction lines generalizing n with
  | nil => rfl
  | cons l lines ih =>
    have whole : ((numberFrom n (motions l)).splitBy fun _ r => !r.isRapid) =
        [numberFrom n (motions l)] := by
      obtain ⟨first, later, rfl⟩ := List.exists_cons_of_ne_nil (full l List.mem_cons_self)
      exact List.splitBy_of_isChain (by simp [motions]) (isChain_numberFrom_linear n _ later)
    have apart : ∀ r ∈ (numberFrom (n + (motions l).length) (lines.flatMap motions)).head?,
        (!r.isRapid) = false := by
      cases lines with
      | nil => simp
      | cons l' lines =>
        obtain ⟨first, later, rfl⟩ :=
          List.exists_cons_of_ne_nil (full l' (List.mem_cons_of_mem l List.mem_cons_self))
        simp [motions, Record.isRapid]
    have others := ih (n + (motions l).length) fun l' mem => full l' (List.mem_cons_of_mem l mem)
    rw [List.flatMap_cons, numberFrom_append, List.splitBy_append fun _ _ r mem => apart r mem,
      whole, List.map_append, others]
    simp

/-! ### One motion behind another -/

/-- A motion may stand behind another. -/
inductive Motion.Follows : Motion × Target → Motion × Target → Prop
  | line {kind : Motion} {t t' : Target} (other : t ≠ t') : Follows (kind, t) (.linear, t')
  | next {t t' : Target} : Follows (.linear, t) (.rapid, t')

/-- The motions of lines with two points or more and no repetitions: they begin with a rapid motion
and end with a linear one, and each follows the one before it. -/
structure Orderly (ms : List (Motion × Target)) : Prop where
  first : ∀ m ∈ ms.head?, m.1 = .rapid
  last : ∀ m ∈ ms.getLast?, m.1 = .linear
  chain : ms.IsChain Motion.Follows

lemma orderly_nil : Orderly [] :=
  ⟨by simp, by simp, .nil⟩

lemma Orderly.append {ms ns : List (Motion × Target)} (hm : Orderly ms) (hn : Orderly ns) :
    Orderly (ms ++ ns) where
  first m mem := by
    cases ms with
    | nil => exact hn.first m mem
    | cons a ms => exact hm.first m mem
  last m mem := by
    rw [List.getLast?_append] at mem
    cases last : ns.getLast? with
    | none => exact hm.last m (by simpa [last] using mem)
    | some b => exact hn.last m (by simpa [last] using mem)
  chain := by
    refine List.isChain_append.2 ⟨hm.chain, hn.chain, fun a ha b hb => ?_⟩
    have linear := hm.last a ha
    have rapid := hn.first b hb
    obtain ⟨kind, t⟩ := a
    obtain ⟨kind', t'⟩ := b
    subst linear rapid
    exact .next

lemma isChain_linear {m : Motion × Target} {ts : List Target} (apart : (m.2 :: ts).IsChain (· ≠ ·)) :
    (m :: ts.map fun t => (Motion.linear, t)).IsChain Motion.Follows := by
  induction ts generalizing m with
  | nil => simp
  | cons t ts ih =>
    obtain ⟨other, apart⟩ := List.isChain_cons_cons.1 apart
    exact List.isChain_cons_cons.2 ⟨.line other, ih apart⟩

lemma orderly_motions {line : List Target} (long : 2 ≤ line.length)
    (apart : line.IsChain (· ≠ ·)) : Orderly (motions line) := by
  obtain ⟨first, later, rfl⟩ := List.exists_cons_of_length_pos (Nat.lt_of_lt_of_le two_pos long)
  refine ⟨by simp [motions], fun m mem => ?_, isChain_linear apart⟩
  rcases List.eq_nil_or_concat later with rfl | ⟨before, last, rfl⟩
  · simp at long
  · have shape : motions (first :: before.concat last) =
        ((.rapid, first) :: before.map fun t => (.linear, t)) ++ [(.linear, last)] := by
      simp [motions]
    rw [shape, List.getLast?_concat] at mem
    rw [← Option.some.inj mem]

lemma orderly_flatMap_motions {lines : List (List Target)} (long : ∀ l ∈ lines, 2 ≤ l.length)
    (apart : ∀ l ∈ lines, l.IsChain (· ≠ ·)) : Orderly (lines.flatMap motions) := by
  induction lines with
  | nil => exact orderly_nil
  | cons l lines ih =>
    have here := orderly_motions (long l List.mem_cons_self) (apart l List.mem_cons_self)
    exact here.append (ih (fun l mem => long l (List.mem_cons_of_mem _ mem))
      fun l mem => apart l (List.mem_cons_of_mem _ mem))

/-! ### A whole program -/

lemma getElem?_numberFrom (n : ℕ) (ms : List (Motion × Target)) (i : ℕ) :
    (numberFrom n ms)[i]? = ms[i]?.map fun m => .motion (UInt32.ofNat (n + i)) m.1 m.2 := by
  simp only [numberFrom, List.getElem?_map, List.getElem?_zipIdx]
  cases ms[i]? <;> rfl

/-- A motion of a program comes from the motion in its place. -/
lemma getElem?_number_eq_motion {ms : List (Motion × Target)} {i : ℕ} {n : UInt32}
    {kind : Motion} {t : Target} (found : (number ms)[i]? = some (.motion n kind t)) :
    ms[i]? = some (kind, t) := by
  rw [number_eq, List.getElem?_append, length_numberFrom] at found
  split at found
  case isTrue =>
    rw [getElem?_numberFrom] at found
    obtain ⟨m, here, same⟩ := Option.map_eq_some_iff.1 found
    rw [here]
    cases same
    rfl
  case isFalse =>
    have last := List.mem_of_getElem? found
    simp at last

lemma exists_getElem?_number {ms : List (Motion × Target)} {i : ℕ} {kind : Motion} {t : Target}
    (here : ms[i]? = some (kind, t)) : ∃ n, (number ms)[i]? = some (.motion n kind t) := by
  have inside : i < (numberFrom 1 ms).length := by
    rw [length_numberFrom]
    exact (List.getElem?_eq_some_iff.1 here).1
  rw [number_eq, List.getElem?_append_left inside, getElem?_numberFrom, here]
  exact ⟨_, rfl⟩

lemma Orderly.followed {ms : List (Motion × Target)} (orderly : Orderly ms) {i : ℕ} {n : UInt32}
    {t : Target} (found : (number ms)[i]? = some (.motion n .rapid t)) :
    ∃ n' t', (number ms)[i + 1]? = some (.motion n' .linear t') := by
  have here := getElem?_number_eq_motion found
  cases next : ms[i + 1]? with
  | none =>
    -- The last motion is linear.
    have last : ms.getLast? = some (.rapid, t) := by
      have inside := (List.getElem?_eq_some_iff.1 here).1
      have outside := List.getElem?_eq_none_iff.1 next
      rw [List.getLast?_eq_getElem?, show ms.length - 1 = i by omega, here]
    cases orderly.last _ last
  | some m =>
    obtain ⟨kind', t'⟩ := m
    have follows : Motion.Follows (.rapid, t) (kind', t') := by
      obtain ⟨inside, here⟩ := List.getElem?_eq_some_iff.1 here
      obtain ⟨inside', next⟩ := List.getElem?_eq_some_iff.1 next
      have follows := List.isChain_iff_getElem.1 orderly.chain i inside'
      rwa [here, next] at follows
    cases follows with
    | line other =>
      obtain ⟨n', found⟩ := exists_getElem?_number next
      exact ⟨n', t', found⟩

lemma Orderly.fresh {ms : List (Motion × Target)} (orderly : Orderly ms) {i : ℕ} {n : UInt32}
    {t : Target} (found : (number ms)[i]? = some (.motion n .linear t)) :
    ∃ j n' kind t', i = j + 1 ∧ (number ms)[j]? = some (.motion n' kind t') ∧ t' ≠ t := by
  have here := getElem?_number_eq_motion found
  cases i with
  | zero =>
    -- The first motion is rapid.
    rw [← List.head?_eq_getElem?] at here
    cases orderly.first _ here
  | succ j =>
    obtain ⟨inside, here⟩ := List.getElem?_eq_some_iff.1 here
    have follows := List.isChain_iff_getElem.1 orderly.chain j inside
    have before : ms[j]? = some ms[j] := List.getElem?_eq_getElem (Nat.lt_of_succ_lt inside)
    rw [here] at follows
    generalize ms[j] = m at follows before
    cases follows with
    | @line kind t' _ other =>
      obtain ⟨n', found⟩ := exists_getElem?_number before
      exact ⟨j, n', kind, t', rfl, found, other⟩

lemma map_line_numberFrom (n : ℕ) (ms : List (Motion × Target))
    (few : n + ms.length ≤ 2 ^ 32) :
    (numberFrom n ms).map (·.line.toNat) = List.range' n ms.length := by
  induction ms generalizing n with
  | nil => rfl
  | cons m ms ih =>
    rw [List.length_cons] at few
    have others := ih (n + 1) (by omega)
    have here : (UInt32.ofNat n).toNat = n :=
      UInt32.toNat_ofNat_of_lt' (show n < 2 ^ 32 by omega)
    rw [numberFrom_cons, List.map_cons, others, List.length_cons, List.range'_succ, Record.line,
      here]

/-- What is counted in motions does not depend on their numbers. -/
lemma countP_numberFrom (p : Record → Bool) (q : Motion × Target → Bool)
    (same : ∀ n kind t, p (.motion n kind t) = q (kind, t)) (n : ℕ)
    (ms : List (Motion × Target)) : (numberFrom n ms).countP p = ms.countP q := by
  induction ms generalizing n with
  | nil => rfl
  | cons m ms ih => simp [List.countP_cons, ih, same]

lemma length_flatMap_motions (lines : List (List Target)) :
    (lines.flatMap motions).length = lines.flatten.length := by
  induction lines with
  | nil => rfl
  | cons l lines ih =>
    have here : (motions l).length = l.length := by
      rw [← List.length_map Prod.snd, map_snd_motions]
    simp [ih, here]

/-- Each line has one rapid motion. -/
lemma countP_rapid_motions {line : List Target} (full : line ≠ []) :
    (motions line).countP (fun m => m.1 = .rapid) = 1 := by
  obtain ⟨first, later, rfl⟩ := List.exists_cons_of_ne_nil full
  have linear : later.countP ((fun m : Motion × Target => decide (m.1 = .rapid)) ∘
      fun t => (.linear, t)) = 0 := List.countP_eq_zero.2 (by simp)
  simp [motions, List.countP_map, linear]

lemma countP_rapid_flatMap_motions {lines : List (List Target)} (full : ∀ l ∈ lines, l ≠ []) :
    (lines.flatMap motions).countP (fun m => m.1 = .rapid) = lines.length := by
  induction lines with
  | nil => rfl
  | cons l lines ih =>
    rw [List.flatMap_cons, List.countP_append, countP_rapid_motions (full l List.mem_cons_self),
      ih fun l mem => full l (List.mem_cons_of_mem _ mem), List.length_cons, Nat.add_comm]

/-- A program for lines with two points or more and no repetitions draws them. -/
lemma Program.draws_ofTargets {lines : List (List Target)} (long : ∀ l ∈ lines, 2 ≤ l.length)
    (apart : ∀ l ∈ lines, l.IsChain (· ≠ ·)) (few : lines.flatten.length < 2 ^ 32 - 1) :
    (Program.ofTargets lines).Draws lines := by
  have full : ∀ l ∈ lines, l ≠ [] := fun l mem =>
    List.ne_nil_of_length_pos (Nat.lt_of_lt_of_le two_pos (long l mem))
  have orderly := orderly_flatMap_motions long apart
  have size := length_flatMap_motions lines
  have records : (Program.ofTargets lines).records = numberFrom 1 (lines.flatMap motions) ++
      [.endOfProgram (UInt32.ofNat ((lines.flatMap motions).length + 1))] := rfl
  constructor
  case lines =>
    rw [records, List.dropLast_concat]
    exact map_splitBy_numberFrom 1 full
  case numbered =>
    have last : (UInt32.ofNat ((lines.flatMap motions).length + 1)).toNat =
        (lines.flatMap motions).length + 1 :=
      UInt32.toNat_ofNat_of_lt' (show (lines.flatMap motions).length + 1 < 2 ^ 32 by omega)
    rw [records, List.map_append, map_line_numberFrom 1 _ (by omega), List.length_append,
      length_numberFrom, List.length_singleton, List.range'_concat, List.map_singleton,
      Record.line, last, Nat.one_mul, Nat.add_comm 1]
  case ended =>
    rw [records, List.getLast?_concat]
    rfl
  case once =>
    rw [records, List.countP_append,
      countP_numberFrom Record.isEnd (fun _ => false) fun _ _ _ => rfl]
    simp [Record.isEnd]
  case followed => exact fun i n t found => orderly.followed found
  case fresh => exact fun i n t found => orderly.fresh found
  case points =>
    rw [records, List.countP_append,
      countP_numberFrom (fun r => r.target?.isSome) (fun _ => true) fun _ _ _ => rfl]
    simp [Record.target?, size, Program.ofTargets]
  case polylines =>
    have same (n : UInt32) (kind : Motion) (t : Target) :
        Record.isRapid (.motion n kind t) = decide (kind = .rapid) := by
      cases kind <;> rfl
    rw [records, List.countP_append,
      countP_numberFrom Record.isRapid (fun m => m.1 = .rapid) same,
      countP_rapid_flatMap_motions full]
    rfl

/-! ### The program of polylines -/

/-- A target is a point in thousandths, each coordinate rounded. -/
def Target.Rounds (t : Target) (p : Point α) : Prop :=
  round? (p.x * 1000.0) = some t.x ∧ round? (p.y * 1000.0) = some t.y

lemma round?_of_quantize {x : α} {n : Int64} (rounded : quantize x = .ok n) :
    round? (x * 1000.0) = some n := by
  unfold quantize at rounded
  cases found : round? (x * 1000.0) with
  | none =>
    rw [found] at rounded
    cases rounded
  | some m =>
    rw [found] at rounded
    rw [Except.ok.inj rounded]

lemma rounds_of_ofPoint {p : Point α} {t : Target} (found : Target.ofPoint p = .ok t) :
    t.Rounds p := by
  obtain ⟨x, hx, found⟩ := Except.bind_eq_ok.1 found
  obtain ⟨y, hy, done⟩ := Except.bind_eq_ok.1 found
  obtain rfl := Except.ok.inj done
  exact ⟨round?_of_quantize hx, round?_of_quantize hy⟩

/-- Keeping one of each run is dropping what repeats the last one kept. -/
lemma collapse_eq_destutter {β : Type} [DecidableEq β] (bs : List β) :
    collapse bs = bs.destutter (· ≠ ·) := by
  fun_induction collapse bs with
  | case1 => rfl
  | case2 b => rfl
  | case3 b rest ih => rw [ih, List.destutter_cons_cons, if_neg (by simp), List.destutter_cons']
  | case4 b c rest other ih => rw [ih, List.destutter_cons_cons, if_pos other, List.destutter_cons']

lemma exists_rounds_of_targets {line : Polyline α} {ts : List Target}
    (found : targets line = .ok ts) :
    ∃ all, List.Forall₂ Target.Rounds all line ∧ ts = all.destutter (· ≠ ·) := by
  obtain ⟨all, rounded, done⟩ := Except.bind_eq_ok.1 found
  obtain rfl := Except.ok.inj done
  exact ⟨all, (forall₂_of_mapM rounded).imp fun _ _ => rounds_of_ofPoint,
    collapse_eq_destutter all⟩

lemma exists_rounds_of_mapM {lines : List (Polyline α)} {collapsed : List (List Target)}
    (found : lines.mapM targets = .ok collapsed) :
    ∃ ts, List.Forall₂ (List.Forall₂ Target.Rounds) ts lines ∧
      collapsed = ts.map fun line => line.destutter (· ≠ ·) := by
  have each := forall₂_of_mapM found
  clear found
  induction each with
  | nil => exact ⟨[], .nil, rfl⟩
  | cons here _ ih =>
    obtain ⟨all, rounds, rfl⟩ := exists_rounds_of_targets here
    obtain ⟨ts, later, rfl⟩ := ih
    exact ⟨all :: ts, .cons rounds later, rfl⟩

/-- What is left of lines of targets: one of each run, and the lines with two points or more. -/
def kept (lines : List (List Target)) : List (List Target) :=
  (lines.map fun line => line.destutter (· ≠ ·)).filter fun line => 2 ≤ line.length

/-- A program is that of what is left of its polylines in thousandths. -/
lemma Program.exists_rounds_of_ofPolylines {lines : List (Polyline α)} {program : Program}
    (written : ofPolylines lines = .ok program) :
    ∃ ts, List.Forall₂ (List.Forall₂ Target.Rounds) ts lines ∧ program = .ofTargets (kept ts) := by
  obtain ⟨collapsed, rounded, done⟩ := Except.bind_eq_ok.1 written
  obtain rfl := Except.ok.inj done
  obtain ⟨ts, rounds, rfl⟩ := exists_rounds_of_mapM rounded
  exact ⟨ts, rounds, rfl⟩

lemma two_le_length_of_mem_kept {lines : List (List Target)} {l : List Target}
    (mem : l ∈ kept lines) : 2 ≤ l.length := by
  simpa using (List.mem_filter.1 mem).2

lemma isChain_of_mem_kept {lines : List (List Target)} {l : List Target} (mem : l ∈ kept lines) :
    l.IsChain (· ≠ ·) := by
  obtain ⟨t, _, rfl⟩ := List.mem_map.1 (List.mem_filter.1 mem).1
  exact List.isChain_destutter _ t

/-- A program that is written draws what is left of its polylines in thousandths. -/
lemma Program.draws_of_ofPolylines {lines : List (Polyline α)} {program : Program}
    (written : ofPolylines lines = .ok program) (few : program.points < 2 ^ 32 - 1) :
    ∃ ts, List.Forall₂ (List.Forall₂ Target.Rounds) ts lines ∧ program.Draws (kept ts) := by
  obtain ⟨ts, rounds, rfl⟩ := exists_rounds_of_ofPolylines written
  exact ⟨ts, rounds, draws_ofTargets (fun l => two_le_length_of_mem_kept)
    (fun l => isChain_of_mem_kept) few⟩

/-! ### How much is written -/

/-- Every point has its record, and the end of the program has one. -/
lemma Program.length_records {lines : List (Polyline α)} {program : Program}
    (written : ofPolylines lines = .ok program) :
    program.points + 1 = program.records.length := by
  obtain ⟨ts, _, rfl⟩ := exists_rounds_of_ofPolylines written
  rw [ofTargets, number_eq, List.length_append, length_numberFrom, length_flatMap_motions]
  rfl

lemma length_flatten_kept_le {ts : List (List Target)} {lines : List (Polyline α)}
    (rounds : List.Forall₂ (List.Forall₂ Target.Rounds) ts lines) :
    (kept ts).flatten.length ≤ pointCount lines := by
  have points : (ts.map fun line => line.destutter (· ≠ ·)).flatten.length ≤
      lines.flatten.length := by
    induction rounds with
    | nil => exact le_rfl
    | cons here _ ih =>
      have fewer := (List.destutter_sublist (· ≠ ·) _).length_le.trans here.length_eq.le
      simpa only [List.map_cons, List.flatten_cons, List.length_append] using
        Nat.add_le_add fewer ih
  exact List.filter_sublist.flatten.length_le.trans points

/-- Nothing is written that was not to be drawn. -/
lemma Program.le_of_ofPolylines {lines : List (Polyline α)} {program : Program}
    (written : ofPolylines lines = .ok program) :
    program.polylines ≤ lines.length ∧ program.points ≤ pointCount lines := by
  obtain ⟨ts, rounds, rfl⟩ := exists_rounds_of_ofPolylines written
  refine ⟨?_, length_flatten_kept_le rounds⟩
  calc (kept ts).length
      ≤ (ts.map fun line => line.destutter (· ≠ ·)).length := List.length_filter_le _ _
    _ = ts.length := List.length_map _
    _ = lines.length := rounds.length_eq

end Toolpath.Pattern
