import AsprNet.Lib.Runs

/-! # Computations that note what they do

`Noted ν η α` is a computation that may fail, together with what it noted up to its end. The notes
survive a failure. `Noted.result` forgets them, and goes through sequences (`result_bind`).
-/

namespace AsprNet

/-- The notes, and how it ends. -/
structure Noted (ν η α : Type) where
  notes : List ν
  result : Except η α

namespace Noted

variable {ν η α β : Type}

instance : Monad (Noted ν η) where
  pure a := ⟨[], .ok a⟩
  bind x f :=
    match x.result with
    | .error e => ⟨x.notes, .error e⟩
    | .ok a => ⟨x.notes ++ (f a).notes, (f a).result⟩

/-- A computation without notes. -/
def silent (x : Except η α) : Noted ν η α := ⟨[], x⟩

/-- A note. -/
def note (n : ν) : Noted ν η Unit := ⟨[n], .ok ()⟩

@[simp] theorem result_pure (a : α) : (pure a : Noted ν η α).result = .ok a := rfl

@[simp] theorem result_silent (x : Except η α) : (silent x : Noted ν η α).result = x := rfl

@[simp] theorem result_note (n : ν) : (note n : Noted ν η Unit).result = .ok () := rfl

/-- Forgetting the notes of a sequence. -/
@[simp] theorem result_bind (x : Noted ν η α) (f : α → Noted ν η β) :
    (x >>= f).result = (x.result >>= fun a => (f a).result) := by
  show (match x.result with
    | .error e => (⟨x.notes, .error e⟩ : Noted ν η β)
    | .ok a => ⟨x.notes ++ (f a).notes, (f a).result⟩).result = _
  cases x.result <;> rfl

@[simp] theorem silent_ok_bind (a : α) (f : α → Noted ν η β) :
    (silent (.ok a) >>= f) = f a := rfl

@[simp] theorem notes_note_bind (n : ν) (f : Unit → Noted ν η β) :
    (note n >>= f).notes = n :: (f ()).notes := rfl

end Noted

end AsprNet
