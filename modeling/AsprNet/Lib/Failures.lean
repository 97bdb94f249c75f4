import AsprNet.Lib.Runs
import Mathlib.Data.Set.Basic

/-! # Which errors a computation can end in

`FailsOnly S x`: when `x` fails, its error is one of `S`. The rules follow the structure of `x`, so
a set that holds the errors of the parts holds those of the whole.

`Checks bad emb x y`: `x` is `y` with checks added, which end in the error `bad`. The errors of `y`
are embedded by `emb`.
-/

namespace AsprNet

universe u v

variable {α β : Type u} {η : Type v} {S T : Set η}

/-- Every error of `x` is in `S`. -/
def FailsOnly (S : Set η) (x : Except η α) : Prop := ∀ e, x = .error e → e ∈ S

namespace FailsOnly

theorem ok (a : α) : FailsOnly S (Except.ok a) := fun _ h => nomatch h

theorem error {e : η} (he : e ∈ S) : FailsOnly S (Except.error e : Except η α) := by
  intro e' h
  cases h
  exact he

/-- **Sequence rule.** -/
theorem bind {x : Except η α} {f : α → Except η β} (hx : FailsOnly S x)
    (hf : ∀ a, x = .ok a → FailsOnly S (f a)) : FailsOnly S (x >>= f) := by
  intro e h
  cases hxe : x with
  | error e' =>
      rw [hxe, error_bind] at h
      cases h
      exact hx e hxe
  | ok a =>
      rw [hxe, ok_bind] at h
      exact hf a hxe e h

/-- **Branch rule.** Each branch may use its side of the test. -/
theorem ite {p : Prop} [Decidable p] {x y : Except η α} (hx : p → FailsOnly S x)
    (hy : ¬p → FailsOnly S y) : FailsOnly S (if p then x else y) := by
  split
  · exact hx ‹_›
  · exact hy ‹_›

/-- **Consequence rule.** A larger set of errors. -/
theorem mono {x : Except η α} (h : FailsOnly S x) (hST : S ⊆ T) : FailsOnly T x :=
  fun e he => hST (h e he)

/-- An error outside the set does not occur. -/
theorem ne {x : Except η α} {e : η} (h : FailsOnly S x) (he : e ∉ S) : x ≠ .error e :=
  fun hx => he (h e hx)

end FailsOnly

section Checks

variable {θ : Type v} {bad : θ} {emb : η → θ} {x x' : Except θ α} {y y' : Except η α}

/-- `x` ends in `bad`, or it ends as `y` does. -/
def Checks (bad : θ) (emb : η → θ) (x : Except θ α) (y : Except η α) : Prop :=
  x = .error bad ∨ x = y.mapError emb

namespace Checks

theorem refl (y : Except η α) : Checks bad emb (y.mapError emb) y := Or.inr rfl

theorem ok (a : α) : Checks bad emb (.ok a) (.ok a : Except η α) := Or.inr rfl

/-- **Sequence rule.** -/
theorem bind {f : α → Except θ β} {g : α → Except η β} (hx : Checks bad emb x y)
    (hf : ∀ a, Checks bad emb (f a) (g a)) : Checks bad emb (x >>= f) (y >>= g) := by
  rcases hx with rfl | rfl
  · exact Or.inl rfl
  · cases y with
    | error e => exact Or.inr rfl
    | ok a => exact hf a

/-- **Branch rule.** The two computations take the same branch. -/
theorem ite {p : Prop} [Decidable p] (h : Checks bad emb x y) (h' : Checks bad emb x' y') :
    Checks bad emb (if p then x else x') (if p then y else y') := by
  split
  · exact h
  · exact h'

/-- Checks that do not fail change nothing. -/
theorem eq_of_ne (h : Checks bad emb x y) (hne : x ≠ .error bad) : x = y.mapError emb :=
  h.resolve_left hne

end Checks

end Checks

end AsprNet
