import AsprNet.Lib.Runs
import Mathlib.Data.Finset.Insert
import Mathlib.Data.Finset.Erase

/-! # Blocks of memory

A heap is the set of its live blocks. An allocation gives a block that was never given before, and
releasing a block that is not live fails.
-/

namespace AsprNet

universe v

/-- The live blocks, and the number of the next one. -/
structure Blocks where
  live : Finset ℕ
  next : ℕ
  lt_next : ∀ b ∈ live, b < next

namespace Blocks

variable {η : Type v}

def empty : Blocks where
  live := ∅
  next := 0
  lt_next := by simp

/-- `new`. -/
def alloc (h : Blocks) : ℕ × Blocks :=
  (h.next,
    { live := insert h.next h.live
      next := h.next + 1
      lt_next := by
        intro b hb
        rcases Finset.mem_insert.mp hb with rfl | hb
        · exact Nat.lt_succ_self _
        · exact Nat.lt_succ_of_lt (h.lt_next b hb) })

/-- The heap without a block. -/
def without (h : Blocks) (b : ℕ) : Blocks where
  live := h.live.erase b
  next := h.next
  lt_next := fun c hc => h.lt_next c (Finset.mem_of_mem_erase hc)

/-- `delete`, with `e` as the error. -/
def release (e : η) (h : Blocks) (b : ℕ) : Except η Blocks :=
  if b ∈ h.live then .ok (h.without b) else .error e

variable {h h' : Blocks} {b c : ℕ} {e : η}

@[simp] theorem next_alloc : h.alloc.2.next = h.next + 1 := rfl

@[simp] theorem mem_alloc : c ∈ h.alloc.2.live ↔ c = h.next ∨ c ∈ h.live := Finset.mem_insert

@[simp] theorem mem_without : c ∈ (h.without b).live ↔ c ≠ b ∧ c ∈ h.live := Finset.mem_erase

/-- A block that lives can be released. -/
theorem release_of_mem (hb : b ∈ h.live) : h.release e b = .ok (h.without b) := if_pos hb

/-- A block that does not live cannot. -/
theorem release_of_notMem (hb : b ∉ h.live) : h.release e b = .error e := if_neg hb

/-- A release returns or fails in the one way it can. -/
theorem release_cases (e : η) (h : Blocks) (b : ℕ) :
    (∃ h', h.release e b = .ok h') ∨ h.release e b = .error e := by
  by_cases hb : b ∈ h.live
  · exact Or.inl ⟨_, release_of_mem hb⟩
  · exact Or.inr (release_of_notMem hb)

/-- **A released block stays released**: another allocation does not give it back. -/
theorem release_twice (hrel : h.release e b = .ok h') : h'.alloc.2.release e b = .error e := by
  unfold release at hrel
  split_ifs at hrel with hb
  obtain rfl := Except.ok.inj hrel
  apply release_of_notMem
  rw [mem_alloc, mem_without]
  rintro (hnext | ⟨hne, -⟩)
  · exact absurd hnext (h.lt_next b hb).ne
  · exact hne rfl

end Blocks

end AsprNet
