import Mathlib
import Toolpath.Diagnostic

/-!
# What an attempt comes to

An attempt notes diagnostics on its way, and notes never decide anything. `Attempt.result` leaves
them out: what remains is a value or a fault, in a monad without a log. The lemmas below carry
`result` through every operation that attempts are made of, so that proofs about results never see
the log. `Alike` compares two such results whose values are of different types.
-/

namespace Toolpath

@[simp] lemma Except.bind_of_ok {ε β γ : Type} (b : β) (f : β → Except ε γ) :
    (Except.ok b >>= f) = f b :=
  rfl

@[simp] lemma Except.bind_of_error {ε β γ : Type} (e : ε) (f : β → Except ε γ) :
    (Except.error e >>= f) = Except.error e :=
  rfl

lemma Except.bind_ok {ε β : Type} (x : Except ε β) : (x >>= fun b => .ok b) = x := by
  cases x <;> rfl

/-- A value was gone on to from a value. -/
lemma Except.bind_eq_ok {ε β γ : Type} {x : Except ε β} {f : β → Except ε γ} {c : γ} :
    (x >>= f) = .ok c ↔ ∃ b, x = .ok b ∧ f b = .ok c := by
  cases x with
  | error e => exact ⟨fun bad => (nomatch bad), fun ⟨_, bad, _⟩ => (nomatch bad)⟩
  | ok b => exact ⟨fun next => ⟨b, rfl, next⟩, fun ⟨_, rfl, next⟩ => next⟩

/-- A value is known without the type of the faults. -/
lemma Except.eq_ok_of_toOption {ε β : Type} {x : Except ε β} {b : β}
    (value : x.toOption = some b) : x = .ok b := by
  cases x with
  | error e => cases value
  | ok c => exact congrArg _ (Option.some.inj value)

/-- Two outcomes that are the same fault, or two values of which a relation holds. -/
inductive Alike {ε β γ : Type} (related : β → γ → Prop) :
    Except ε β → Except ε γ → Prop
  | fault (e : ε) : Alike related (.error e) (.error e)
  | value {b : β} {c : γ} (holds : related b c) : Alike related (.ok b) (.ok c)

namespace Alike

variable {ε β γ δ ζ : Type} {related : β → γ → Prop} {x : Except ε β} {y : Except ε γ}

/-- Outcomes stay alike when both go on alike from related values. -/
lemma bind {related' : δ → ζ → Prop} {f : β → Except ε δ} {g : γ → Except ε ζ}
    (alike : Alike related x y) (next : ∀ b c, related b c → Alike related' (f b) (g c)) :
    Alike related' (x >>= f) (y >>= g) := by
  cases alike with
  | fault e => exact .fault e
  | value holds => exact next _ _ holds

lemma map {f : δ → β} {g : δ → γ} (x : Except ε δ) (holds : ∀ d, related (f d) (g d)) :
    Alike related (x.map f) (x.map g) := by
  cases x with
  | error e => exact .fault e
  | ok d => exact .value (holds d)

lemma map_right {related' : β → δ → Prop} {g : γ → δ} (alike : Alike related x y)
    (turn : ∀ b c, related b c → related' b (g c)) :
    Alike related' x (y >>= fun c => .ok (g c)) := by
  cases alike with
  | fault e => exact .fault e
  | value holds => exact .value (turn _ _ holds)

lemma refl (x : Except ε β) : Alike Eq x x := by
  cases x with
  | error e => exact .fault e
  | ok b => exact .value rfl

/-- What the one comes to is related to a value of the other. -/
lemma exists_right {b : β} (alike : Alike related x y) (value : x = .ok b) :
    ∃ c, y = .ok c ∧ related b c := by
  cases alike with
  | fault e => cases value
  | value holds =>
    cases value
    exact ⟨_, rfl, holds⟩

lemma eq {x y : Except ε β} (alike : Alike Eq x y) : x = y := by
  cases alike with
  | fault e => rfl
  | value holds => rw [holds]

end Alike

namespace Attempt

variable {α β γ : Type}

/-- The value or the fault, without the diagnostics. -/
def result (x : Attempt α β) : Except (Fault α) β := x.outcome.value

@[simp] lemma result_pure (b : β) : (pure b : Attempt α β).result = .ok b :=
  rfl

@[simp] lemma result_throw (fault : Fault α) :
    (throw fault : Attempt α β).result = .error fault :=
  rfl

@[simp] lemma result_note (d : Diagnostic α) : (note d).result = .ok () :=
  rfl

@[simp] lemma result_lift (x : Logged (Diagnostic α) β) :
    Attempt.result (ExceptT.lift x) = .ok x.value :=
  rfl

@[simp] lemma result_bind (x : Attempt α β) (f : β → Attempt α γ) :
    (x >>= f).result = x.result >>= fun b => (f b).result := by
  obtain ⟨value, notes⟩ := x
  cases value <;> rfl

end Attempt

end Toolpath
