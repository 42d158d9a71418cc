/-!
# Values with notes

A value together with what was noted on the way to it, in order. Notes never decide anything: they
only pile up.
-/

namespace Toolpath

/-- A value and the notes taken on the way to it. -/
structure Logged (δ β : Type) where
  value : β
  notes : List δ
deriving Repr

namespace Logged

variable {δ β γ : Type}

instance : Monad (Logged δ) where
  pure b := ⟨b, []⟩
  bind
    | ⟨value, notes⟩, f =>
      let ⟨result, more⟩ := f value
      ⟨result, notes ++ more⟩

/-- Takes a note. -/
def note (d : δ) : Logged δ Unit := ⟨(), [d]⟩

@[simp] theorem value_pure (b : β) : (pure b : Logged δ β).value = b := rfl

@[simp] theorem notes_pure (b : β) : (pure b : Logged δ β).notes = [] := rfl

@[simp] theorem value_bind (x : Logged δ β) (f : β → Logged δ γ) :
    (x >>= f).value = (f x.value).value := rfl

@[simp] theorem notes_bind (x : Logged δ β) (f : β → Logged δ γ) :
    (x >>= f).notes = x.notes ++ (f x.value).notes := rfl

@[simp] theorem notes_note (d : δ) : (note d).notes = [d] := rfl

theorem eq_of_value_of_notes {x y : Logged δ β} (value : x.value = y.value)
    (notes : x.notes = y.notes) : x = y := by
  cases x
  cases y
  cases value
  cases notes
  rfl

instance : LawfulMonad (Logged δ) := LawfulMonad.mk' _
  (fun x => by cases x; simp [Functor.map])
  (fun b f => by simp [bind, pure])
  (fun x f g => by simp [bind])

end Logged

end Toolpath
