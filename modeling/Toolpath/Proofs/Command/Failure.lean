import Toolpath.Command.Directory
import Toolpath.Command.Run
import Toolpath.Proofs.Attempt

/-!
# What a failed command leaves

A command reads, works, opens its output, writes it, and writes the statistics. Until the output is
open it has changed nothing, so that a failure up to there leaves the world as it was. The
statistics come last: if they cannot be written, the output has been, and stays
(`Tool.invoke_fails`).
-/

namespace Toolpath.Command

variable {σ : Type}

/-- What files and the standard output hold changes only where something is written: not by reading,
and not by an attempt to open a file that fails. -/
structure Access.Careful (access : Access (StateM σ)) : Prop where
  readFile (path : String) (w : σ) : ((access.readFile path).run w).2 = w
  readInput (w : σ) : (access.readInput.run w).2 = w
  createFile {path : String} {cause : FileFault} {w w' : σ} :
    (access.createFile path).run w = (.error cause, w') → w' = w

lemma Directory.careful_access : access.Careful where
  readFile _ _ := rfl
  readInput _ := rfl
  createFile := by
    intro path cause d d' failed
    simp only [access, StateT.run] at failed
    split at failed
    case h_1 => exact (congrArg Prod.snd failed).symm
    case h_2 => cases congrArg Prod.fst failed

/-- Whatever a directory holds, a point stands for itself. -/
lemma Directory.target_point (d : Directory) : d.target "." = .error .isDirectory := by
  have route : Route.ofPath "." = .ok ⟨.here, [], some ".", false⟩ :=
    Except.eq_ok_of_toOption (by decide +kernel)
  rw [target, route]
  rfl

variable {access : Access (StateM σ)} {tool : Tool} {s : Settings} {text : String} {w w' : σ}
  {path : Option String} {failure : Failure} {products : Products}

/-! ### What each step fails with -/

lemma run_bind {β γ : Type} (x : StateM σ β) (f : β → StateM σ γ) (w : σ) :
    (x >>= f).run w = (f (x.run w).1).run (x.run w).2 :=
  rfl

lemma exists_of_mapError {β : Type} {x : Except FileFault β} {f : FileFault → Failure}
    (failed : x.mapError f = .error failure) : ∃ cause, x = .error cause ∧ failure = f cause := by
  cases x with
  | error cause => exact ⟨cause, rfl, (Except.error.inj failed).symm⟩
  | ok b => cases failed

/-- Reading changes nothing. -/
lemma run_readInput (careful : access.Careful) (path : Option String) (w : σ) :
    ∃ x : Except FileFault String, (readInput access path).run w = (x.mapError (.read path), w) := by
  unfold readInput
  cases filePath path with
  | none => exact ⟨(access.readInput.run w).1, Prod.ext rfl (careful.readInput w)⟩
  | some file =>
    exact ⟨((access.readFile file).run w).1, Prod.ext rfl (careful.readFile file w)⟩

lemma exists_value_showPattern (text : String) :
    ∃ output, (showPattern text).value = .ok ⟨output, none⟩ := by
  unfold showPattern
  simp only [Logged.value_bind]
  split <;> exact ⟨_, rfl⟩

lemma exists_of_work (failed : (tool.work s text).value = .error failure) :
    ∃ fault, failure = .convert s.input fault := by
  cases tool with
  | plot =>
    simp only [Tool.work, convertDrawing, Logged.value_bind] at failed
    split at failed
    case h_1 fault _ => exact ⟨fault, (Except.error.inj failed).symm⟩
    case h_2 => cases failed
  | preview =>
    obtain ⟨output, shown⟩ := exists_value_showPattern text
    cases shown.symm.trans failed

/-- Without the statistics the work is the same. -/
lemma work_without_statistics (worked : (tool.work s text).value = .ok products) :
    (tool.work { s with stats := none } text).value = .ok { products with statistics := none } ∧
      ∀ path text, products.statistics = some (path, text) → s.stats = some path := by
  cases tool with
  | plot =>
    simp only [Tool.work, convertDrawing, Logged.value_bind] at worked ⊢
    have same : { s with stats := none }.options = s.options := rfl
    rw [same]
    split at worked
    case h_1 => cases worked
    case h_2 c _ =>
      cases worked
      refine ⟨rfl, fun path text asked => ?_⟩
      obtain ⟨path, found, same⟩ := Option.map_eq_some_iff.1 asked
      cases same
      exact found
  | preview =>
    obtain ⟨output, shown⟩ := exists_value_showPattern text
    cases shown.symm.trans worked
    exact ⟨shown, fun _ _ asked => nomatch asked⟩

/-- The output is open, or the world is as it was. -/
lemma of_writeOutput (careful : access.Careful)
    (failed : (tool.writeOutput access path text).run w = (.error failure, w')) :
    (∃ file cause, failure = .create file cause ∧ w' = w) ∨
      ∃ cause, failure = .write tool path cause := by
  unfold Tool.writeOutput at failed
  cases named : filePath path with
  | none =>
    rw [named] at failed
    obtain ⟨cause, -, rfl⟩ := exists_of_mapError (congrArg Prod.fst failed)
    exact .inr ⟨cause, rfl⟩
  | some file =>
    rw [named] at failed
    rcases opened : (access.createFile file).run w with ⟨cause | write, w₁⟩
    · rw [run_bind, opened] at failed
      cases failed
      exact .inl ⟨file, cause, rfl, careful.createFile opened⟩
    · rw [run_bind, opened] at failed
      obtain ⟨cause, -, rfl⟩ := exists_of_mapError (congrArg Prod.fst failed)
      exact .inr ⟨cause, rfl⟩

/-! ### How a command fails -/

/-- What is left of a world in which a command fails. -/
inductive Leaves (tool : Tool) (s : Settings) (access : Access (StateM σ)) (w : σ) :
    Failure → σ → Prop
  | read (path : Option String) (cause : FileFault) : Leaves tool s access w (.read path cause) w
  | convert (path : Option String) (cause : Fault Float) :
    Leaves tool s access w (.convert path cause) w
  | create (path : String) (cause : FileFault) : Leaves tool s access w (.create path cause) w
  /-- What opening the output has done, and what was written before the fault. -/
  | write {text : String} {cause : FileFault} {w' : σ}
    (tried : (tool.writeOutput access s.output text).run w =
      (.error (.write tool s.output cause), w')) :
    Leaves tool s access w (.write tool s.output cause) w'
  /-- What the command leaves that writes no statistics, which succeeds. -/
  | openStatistics {path : String} {cause : FileFault} {w₁ : σ} {notes : List (Diagnostic Float)}
    (asked : s.stats = some path)
    (without : (tool.run { s with stats := none } access).run w = (⟨.ok (), notes⟩, w₁))
    (tried : (access.createFile path).run w₁ = (.error cause, w₁)) :
    Leaves tool s access w (.writeStatistics path cause) w₁
  /-- The same with the file of the statistics, and what was written into it before the fault. -/
  | fillStatistics {path text : String} {cause : FileFault} {w₁ w₂ w₃ : σ}
    {notes : List (Diagnostic Float)} {write : String → StateM σ (Except FileFault Unit)}
    (asked : s.stats = some path)
    (without : (tool.run { s with stats := none } access).run w = (⟨.ok (), notes⟩, w₁))
    (opened : (access.createFile path).run w₁ = (.ok write, w₂))
    (tried : (write text).run w₂ = (.error cause, w₃)) :
    Leaves tool s access w (.writeStatistics path cause) w₃

lemma Tool.run_of_error (read : (readInput access s.input).run w = (.ok text, w))
    (worked : (tool.work s text).value = .error failure) :
    (tool.run s access).run w = (⟨.error failure, (tool.work s text).notes⟩, w) := by
  unfold Tool.run
  rw [run_bind, read]
  dsimp only
  rw [worked]
  rfl

lemma Tool.run_of_ok (s : Settings) (read : (readInput access s.input).run w = (.ok text, w))
    (worked : (tool.work s text).value = .ok products) {written : Except Failure Unit}
    (wrote : (tool.writeProducts access s.output products).run w = (written, w')) :
    (tool.run s access).run w = (⟨written, (tool.work s text).notes⟩, w') := by
  unfold Tool.run
  rw [run_bind, read]
  dsimp only
  rw [worked]
  dsimp only
  rw [run_bind, wrote]
  rfl

lemma Tool.writeProducts_of_error
    (wrote : (tool.writeOutput access path products.output).run w = (.error failure, w')) :
    (tool.writeProducts access path products).run w = (.error failure, w') := by
  unfold Tool.writeProducts
  rw [run_bind, wrote]
  rfl

lemma Tool.writeProducts_of_ok (products : Products)
    (wrote : (tool.writeOutput access path products.output).run w = (.ok (), w')) :
    (tool.writeProducts access path products).run w =
      (writeStatistics access products).run w' := by
  unfold Tool.writeProducts
  rw [run_bind, wrote]

/-- The output is the same without the statistics. -/
lemma Tool.run_without_statistics (read : (readInput access s.input).run w = (.ok text, w))
    (worked : (tool.work s text).value = .ok products)
    (wrote : (tool.writeOutput access s.output products.output).run w = (.ok (), w')) :
    ∃ notes, (tool.run { s with stats := none } access).run w = (⟨.ok (), notes⟩, w') :=
  ⟨_, run_of_ok { s with stats := none } read (work_without_statistics worked).1
    (writeProducts_of_ok { products with statistics := none } wrote)⟩

lemma Leaves.of_writeStatistics (careful : access.Careful) {w₁ : σ}
    (without : ∃ notes, (tool.run { s with stats := none } access).run w = (⟨.ok (), notes⟩, w₁))
    (asked : ∀ path text, products.statistics = some (path, text) → s.stats = some path)
    (failed : (writeStatistics access products).run w₁ = (.error failure, w')) :
    Leaves tool s access w failure w' := by
  obtain ⟨notes, without⟩ := without
  unfold writeStatistics at failed
  split at failed
  case h_1 => cases congrArg Prod.fst failed
  case h_2 file text wanted =>
    rw [run_bind, writeFile, run_bind] at failed
    rcases opened : (access.createFile file).run w₁ with ⟨cause | write, w₂⟩
    · rw [opened] at failed
      cases failed
      obtain rfl := careful.createFile opened
      exact .openStatistics (asked file text wanted) without opened
    · rw [opened] at failed
      obtain ⟨cause, tried, rfl⟩ := exists_of_mapError (congrArg Prod.fst failed)
      have left := congrArg Prod.snd failed
      exact .fillStatistics (asked file text wanted) without opened (Prod.ext tried left)

/-- Up to the output each step leaves the world to the next one as it was. -/
lemma Tool.leaves_of_run (careful : access.Careful) {notes : List (Diagnostic Float)}
    (ran : (tool.run s access).run w = (⟨.error failure, notes⟩, w')) :
    Leaves tool s access w failure w' := by
  obtain ⟨input, read⟩ := run_readInput careful s.input w
  cases input with
  | error cause =>
    unfold Tool.run at ran
    rw [run_bind, read] at ran
    cases ran
    exact .read _ _
  | ok text =>
    cases worked : (tool.work s text).value with
    | error failure =>
      obtain ⟨fault, rfl⟩ := exists_of_work worked
      cases (run_of_error read worked).symm.trans ran
      exact .convert _ _
    | ok products =>
      rcases wrote : (tool.writeOutput access s.output products.output).run w with
        ⟨failure | ⟨⟩, w₁⟩
      · cases (run_of_ok s read worked (writeProducts_of_error wrote)).symm.trans ran
        obtain ⟨file, cause, rfl, rfl⟩ | ⟨cause, rfl⟩ := of_writeOutput careful wrote
        · exact .create _ _
        · exact .write wrote
      · rcases told : (writeStatistics access products).run w₁ with ⟨written, w₂⟩
        have wrote' := (writeProducts_of_ok products wrote).trans told
        cases (run_of_ok s read worked wrote').symm.trans ran
        exact .of_writeStatistics careful (run_without_statistics read worked wrote)
          (work_without_statistics worked).2 told

/-- A command line that is not understood changes nothing, and neither does a command that fails to
read its input, to convert it, or to open its output. One that fails to write its statistics leaves
its output, as it would without them. -/
theorem Tool.invoke_fails (careful : access.Careful) (tool : Tool) (words : List String) (w : σ) :
    (∀ fault w', (tool.invoke words access).run w = (.error fault, w') → w' = w) ∧
    ∀ s failure notes w', (tool.invoke words access).run w = (.ok (s, ⟨.error failure, notes⟩), w') →
      Leaves tool s access w failure w' := by
  unfold Tool.invoke
  cases tool.settings words with
  | error fault =>
    refine ⟨fun _ _ ran => ?_, fun _ _ _ _ ran => ?_⟩
    · cases ran
      rfl
    · cases ran
  | ok s =>
    dsimp only
    rw [run_bind]
    refine ⟨fun _ _ ran => ?_, fun _ _ _ _ ran => ?_⟩
    · cases ran
    · rcases left : (tool.run s access).run w with ⟨⟨written, notes⟩, w₁⟩
      rw [left] at ran
      cases ran
      exact leaves_of_run careful left

/-- A drawing that cannot be converted leaves everything as it was. Statistics that cannot be written
leave what the command writes without them. -/
theorem Tool.invoke_fails_of_directory :
    (∃ s path fault notes, (Tool.plot.invoke ["-", "out.pat"] Directory.access).run
        ⟨[("out.pat", .empty)], "<svg><g transform=\"rotate(45)\"/></svg>".toUTF8, ""⟩ =
      (.ok (s, ⟨.error (.convert path fault), notes⟩),
        ⟨[("out.pat", .empty)], "<svg><g transform=\"rotate(45)\"/></svg>".toUTF8, ""⟩)) ∧
    ∃ s notes notes' d', (Tool.plot.invoke ["--stats", "."] Directory.access).run
        ⟨[], "<svg/>".toUTF8, ""⟩ =
        (.ok (s, ⟨.error (.writeStatistics "." .isDirectory), notes⟩), d') ∧
      (Tool.plot.run { s with stats := none } Directory.access).run ⟨[], "<svg/>".toUTF8, ""⟩ =
        (⟨.ok (), notes'⟩, d') := by
  constructor
  · have found : (match (Tool.plot.invoke ["-", "out.pat"] Directory.access).run
        ⟨[("out.pat", .empty)], "<svg><g transform=\"rotate(45)\"/></svg>".toUTF8, ""⟩ with
      | (.ok (_, ⟨.error (.convert _ _), _⟩), _) => true
      | _ => false) = true := by decide +kernel
    split at found
    case h_1 s path fault notes d' ran =>
      have leaves := (invoke_fails Directory.careful_access .plot _ _).2 s _ notes d' ran
      cases leaves
      exact ⟨s, path, fault, notes, ran⟩
    case h_2 => cases found
  · have found : (match (Tool.plot.invoke ["--stats", "."] Directory.access).run
        ⟨[], "<svg/>".toUTF8, ""⟩ with
      | (.ok (_, ⟨.error (.writeStatistics "." .isDirectory), _⟩), _) => true
      | _ => false) = true := by decide +kernel
    split at found
    case h_1 s notes d' ran =>
      have leaves := (invoke_fails Directory.careful_access .plot _ _).2 s _ notes d' ran
      cases leaves with
      | openStatistics _ without _ => exact ⟨s, notes, _, d', ran, without⟩
      | @fillStatistics _ _ _ d₁ _ _ _ _ _ without opened _ =>
        simp only [Directory.access, StateT.run, d₁.target_point] at opened
        cases congrArg Prod.fst opened
    case h_2 => cases found

/-- The output has been written when the statistics cannot be. -/
theorem Tool.invoke_fails_late :
    (∃ s notes files input, (Tool.plot.invoke ["--stats", "."] Directory.access).run
        ⟨[], "<svg/>".toUTF8, ""⟩ =
        (.ok (s, ⟨.error (.writeStatistics "." .isDirectory), notes⟩),
          ⟨files, input, "N1M02\r\n"⟩)) ∧
      "N1M02\r\n" ≠ "" := by
  refine ⟨?_, by decide⟩
  have found : (match (Tool.plot.invoke ["--stats", "."] Directory.access).run
      ⟨[], "<svg/>".toUTF8, ""⟩ with
    | (.ok (_, ⟨.error (.writeStatistics "." .isDirectory), _⟩), ⟨_, _, "N1M02\r\n"⟩) => true
    | _ => false) = true := by decide +kernel
  split at found
  case h_1 s notes files input ran => exact ⟨s, notes, files, input, ran⟩
  case h_2 => cases found

end Toolpath.Command
