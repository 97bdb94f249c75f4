import Mathlib.Order.Bounds.Basic

/-! # The highest element of a set that may be empty

A program that remembers the greatest member of a changing set stores some value `b` below all
members while the set is empty. `Highest b S m` says that `m` is what it has to store; the rules
below are the updates it has to make.
-/

namespace AsprNet

variable {α : Type*} [LinearOrder α] {b m a : α} {S : Set α}

/-- `m` is the greatest element of `S`, or the value `b` of the empty set. -/
def Highest (b : α) (S : Set α) (m : α) : Prop := (S = ∅ ∧ m = b) ∨ IsGreatest S m

namespace Highest

/-- Of no elements the highest is the bottom. -/
theorem empty (b : α) : Highest b ∅ b := Or.inl ⟨rfl, rfl⟩

/-- No element is above the highest. -/
theorem le (h : Highest b S m) (ha : a ∈ S) : a ≤ m := by
  rcases h with ⟨rfl, -⟩ | h
  · exact absurd ha (Set.notMem_empty a)
  · exact h.2 ha

/-- The highest is an element, unless it is the bottom. -/
theorem mem (h : Highest b S m) (hm : m ≠ b) : m ∈ S := by
  rcases h with ⟨-, hb⟩ | h
  · exact absurd hb hm
  · exact h.1

/-- A value that is `b` or a member, and not below a member, is the highest. -/
theorem of_mem_of_le (hm : m = b ∨ m ∈ S) (hb : ∀ a ∈ S, b < a) (hle : ∀ a ∈ S, a ≤ m) :
    Highest b S m := by
  rcases hm with rfl | hm
  · refine Or.inl ⟨Set.eq_empty_of_forall_notMem fun a ha => ?_, rfl⟩
    exact absurd (hle a ha) (not_le_of_gt (hb a ha))
  · exact Or.inr ⟨hm, hle⟩

/-- A new member is compared with the highest one. -/
theorem insert (h : Highest b S m) (ha : b ≤ a) : Highest b (Insert.insert a S) (max m a) := by
  rcases h with ⟨rfl, rfl⟩ | h
  · rw [max_eq_right ha, insert_empty_eq]
    exact Or.inr isGreatest_singleton
  · rw [max_comm]
    exact Or.inr (h.insert a)

/-- The highest member stays when another one leaves. -/
theorem diff (h : Highest b S m) (ha : a ≠ m) : Highest b (S \ {a}) m := by
  rcases h with ⟨rfl, rfl⟩ | h
  · rw [Set.empty_sdiff]
    exact empty _
  · exact Or.inr ⟨⟨h.1, ha.symm⟩, fun c hc => h.2 hc.1⟩

end Highest

end AsprNet
