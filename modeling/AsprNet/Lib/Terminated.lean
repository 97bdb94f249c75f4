import Mathlib.Data.List.Basic
import Mathlib.Data.List.TakeWhile

/-! # Sequences cut at a terminator

`truncated z l` is what a copy that stops at the first `z` and fills up with `z` makes of `l`. It
is `l` itself exactly when `l` is `Padded z`: nothing but `z` follows its first `z`.
-/

namespace AsprNet

universe u

variable {α : Type u} [DecidableEq α] {z : α}

/-- The elements up to the first `z`, and `z` from there on. -/
def truncated (z : α) : List α → List α
  | [] => []
  | x :: l => if x = z then List.replicate (l.length + 1) z else x :: truncated z l

/-- Nothing but `z` follows the first `z`. -/
def Padded (z : α) (l : List α) : Prop := ∀ x ∈ l.dropWhile (· ≠ z), x = z

instance (l : List α) : Decidable (Padded z l) := inferInstanceAs (Decidable (∀ x ∈ _, _))

@[simp] theorem length_truncated (l : List α) : (truncated z l).length = l.length := by
  induction l with
  | nil => rfl
  | cons x l ih =>
      rw [truncated]
      split
      · rw [List.length_replicate, List.length_cons]
      · rw [List.length_cons, List.length_cons, ih]

/-- `truncated` as a copy of the elements in front of the first `z`. -/
theorem truncated_eq (l : List α) :
    truncated z l = l.takeWhile (· ≠ z) ++
      List.replicate (l.length - (l.takeWhile (· ≠ z)).length) z := by
  induction l with
  | nil => rfl
  | cons x l ih =>
      rw [truncated]
      by_cases hx : x = z
      · rw [if_pos hx, List.takeWhile_cons_of_neg (by simp [hx])]
        rfl
      · rw [if_neg hx, List.takeWhile_cons_of_pos (by simp [hx]), List.cons_append,
          List.length_cons, List.length_cons, Nat.succ_sub_succ, ih]

/-- The front of a truncated sequence depends on the front only. -/
theorem take_truncated (p q : List α) :
    (truncated z (p ++ q)).take p.length = truncated z p := by
  induction p with
  | nil => rfl
  | cons x p ih =>
      rw [List.cons_append, truncated, truncated]
      by_cases hx : x = z
      · rw [if_pos hx, if_pos hx, List.take_replicate, List.length_append, List.length_cons]
        congr 1
        omega
      · rw [if_neg hx, if_neg hx, List.length_cons, List.take_succ_cons, ih]

/-- The copy has `z` at an index when one of the elements up to there is `z`. -/
theorem getElem?_truncated_append {p q : List α} (hq : q ≠ []) :
    (truncated z (p ++ q))[p.length]? = some z ↔ z ∈ p ∨ q[0]? = some z := by
  obtain ⟨y, q, rfl⟩ := List.exists_cons_of_ne_nil hq
  induction p with
  | nil => by_cases hy : y = z <;> simp [truncated, hy]
  | cons x p ih =>
      rw [List.cons_append, truncated, List.length_cons]
      by_cases hx : x = z
      · rw [if_pos hx, List.getElem?_replicate]
        simp [hx]
      · rw [if_neg hx, List.getElem?_cons_succ, ih]
        simp [Ne.symm hx]

/-- **The copy is faithful** exactly for padded sequences. -/
theorem truncated_eq_self_iff {l : List α} : truncated z l = l ↔ Padded z l := by
  induction l with
  | nil => simp [truncated, Padded]
  | cons x l ih =>
      unfold truncated Padded
      by_cases hx : x = z
      · subst hx
        rw [if_pos rfl, List.dropWhile_cons_of_neg (by simp), eq_comm, List.eq_replicate_iff]
        exact and_iff_right List.length_cons
      · rw [if_neg hx, List.dropWhile_cons_of_pos (by simp [hx]), List.cons.injEq,
          and_iff_right rfl, ih, Padded]

end AsprNet
