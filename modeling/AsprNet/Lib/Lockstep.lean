import AsprNet.Lib.Runs

/-! # Computations in lockstep

Two computations that may fail are in lockstep when they fail in the same way, or both succeed with
results that a relation `R` holds of. The rules follow the structure of the computations, so that a
program and its counterpart on smaller states are compared step by step, failures included.
-/

namespace AsprNet

universe u v w

variable {α β α' β' : Type u} {η : Type v} {ι : Type w}

/-- `x` and `y` end in the same error, or in results that `R` holds of. -/
def Lockstep (R : α → β → Prop) : Except η α → Except η β → Prop
  | .ok a, .ok b => R a b
  | .error e, .error e' => e = e'
  | _, _ => False

namespace Lockstep

variable {R : α → β → Prop} {Q : α' → β' → Prop} {x : Except η α} {y : Except η β}

/-- **Sequence rule.** -/
theorem bind {f : α → Except η α'} {g : β → Except η β'} (h : Lockstep R x y)
    (hf : ∀ a b, x = .ok a → y = .ok b → R a b → Lockstep Q (f a) (g b)) :
    Lockstep Q (x >>= f) (y >>= g) := by
  cases x with
  | error e =>
      cases y with
      | error e' => exact h
      | ok b => exact h.elim
  | ok a =>
      cases y with
      | error e' => exact h.elim
      | ok b => exact hf a b rfl rfl h

/-- A computation that both sides make is in lockstep with itself. -/
theorem same (x : Except η α) : Lockstep Eq x x := by
  cases x with
  | error e => rfl
  | ok a => rfl

/-- The relation may be weakened, and the results used for that. -/
theorem mono {R' : α → β → Prop} (h : Lockstep R x y)
    (hR : ∀ a b, x = .ok a → y = .ok b → R a b → R' a b) : Lockstep R' x y := by
  cases x with
  | error e =>
      cases y with
      | error e' => exact h
      | ok b => exact h.elim
  | ok a =>
      cases y with
      | error e' => exact h.elim
      | ok b => exact hR a b rfl rfl h

/-- A success on one side is one on the other. -/
theorem of_ok (h : Lockstep R x y) {a : α} (hx : x = .ok a) : ∃ b, y = .ok b ∧ R a b := by
  subst hx
  cases y with
  | error e' => exact h.elim
  | ok b => exact ⟨b, rfl, h⟩

theorem symm (h : Lockstep R x y) : Lockstep (fun b a => R a b) y x := by
  cases x with
  | error e =>
      cases y with
      | error e' => exact Eq.symm h
      | ok b => exact h.elim
  | ok a =>
      cases y with
      | error e' => exact h.elim
      | ok b => exact h

end Lockstep

end AsprNet
