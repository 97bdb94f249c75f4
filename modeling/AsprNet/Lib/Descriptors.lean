import Mathlib.Algebra.Order.Ring.Int
import Mathlib.Data.List.GetD
import Mathlib.Logic.Function.Basic

/-! # Tables of descriptors

A process names what it has opened by small numbers. The table gives a new entry the lowest number
that is free (`alloc`), an entry may change while it is open (`set`), and closing it makes its
number free again (`free`). What the numbers stand for is the function `get`, and the three
operations are updates of it.

`Beside base n x f` is how a function that works on one descriptor is specified: what is open is
`base`, and `n` beside it if `x` is an entry.
-/

namespace AsprNet

universe u

variable {ω : Type u}

/-- What is open, by its number; what was closed leaves a gap. -/
structure Descriptors (ω : Type u) where
  entries : List (Option ω) := []

namespace Descriptors

variable (d : Descriptors ω) {x : ω} {m n : ℤ}

/-- What the number `n` stands for. -/
def get (n : ℤ) : Option ω := if n < 0 then none else d.entries.getD n.toNat none

/-- The lowest number that is free. -/
def lowest : ℕ := d.entries.findIdx Option.isNone

/-- Put `x` at a number of the table or at the first one behind it. -/
def put (n : ℕ) (x : Option ω) : Descriptors ω :=
  if n < d.entries.length then ⟨d.entries.set n x⟩ else ⟨d.entries ++ [x]⟩

/-- Open `x` at the lowest free number. -/
def alloc (x : ω) : Descriptors ω := d.put d.lowest (some x)

/-- What `n` stands for changes. -/
def set (n : ℤ) (x : ω) : Descriptors ω := d.put n.toNat (some x)

/-- Close `n`. -/
def free (n : ℤ) : Descriptors ω := d.put n.toNat none

/-- A negative number is no descriptor. -/
theorem get_of_neg (h : n < 0) : d.get n = none := if_pos h

@[simp] theorem get_natCast (n : ℕ) : d.get n = d.entries.getD n none := by
  rw [get, if_neg (by omega), Int.toNat_natCast]

/-- The lowest free number is in the entries or right behind them. -/
theorem lowest_le : d.lowest ≤ d.entries.length := List.findIdx_le_length

/-- The lowest free number is free. -/
theorem get_lowest : d.get d.lowest = none := by
  rw [get_natCast]
  rcases Nat.lt_or_ge d.lowest d.entries.length with h | h
  · have hnone := @List.findIdx_getElem _ Option.isNone d.entries h
    rw [List.getD_eq_getElem _ _ h]
    exact Option.isNone_iff_eq_none.mp hnone
  · exact List.getD_eq_default _ _ h

/-- Every lower number is taken. -/
theorem isSome_of_lt_lowest {i : ℕ} (h : i < d.lowest) : (d.get i).isSome = true := by
  have hlen := h.trans_le d.lowest_le
  have hnot := List.not_of_lt_findIdx h
  rw [get_natCast, List.getD_eq_getElem _ _ hlen]
  cases hx : d.entries[i] with
  | none =>
      rw [hx] at hnot
      cases hnot
  | some x => rfl

/-- Putting changes the descriptor put. -/
theorem get_put {i : ℕ} (hi : i ≤ d.entries.length) (x : Option ω) :
    (d.put i x).get = Function.update d.get i x := by
  funext m
  rcases lt_or_ge m 0 with hm | hm
  · rw [get_of_neg _ hm, Function.update_of_ne (by omega), get_of_neg _ hm]
  · obtain ⟨j, rfl⟩ := Int.eq_ofNat_of_zero_le hm
    rw [get_natCast, Function.update_apply, get_natCast, put]
    simp only [Int.natCast_inj, List.getD_eq_getElem?_getD]
    split_ifs with hlt hj hj
    · subst hj
      rw [List.getElem?_set_self hlt]
      rfl
    · rw [List.getElem?_set_ne (Ne.symm hj)]
    · subst hj
      rw [List.getElem?_append_right (by omega), show j - d.entries.length = 0 by omega]
      rfl
    · rcases Nat.lt_or_ge j d.entries.length with hlt' | hge
      · rw [List.getElem?_append_left hlt']
      · rw [List.getElem?_eq_none (by rw [List.length_append, List.length_singleton]; omega),
          List.getElem?_eq_none hge]

/-- Allocating opens the lowest free number. -/
theorem get_alloc (x : ω) : (d.alloc x).get = Function.update d.get d.lowest (some x) :=
  d.get_put d.lowest_le _

/-- A number that stands for something is one of the table. -/
theorem toNat_le {y : ω} (h : d.get n = some y) : 0 ≤ n ∧ n.toNat ≤ d.entries.length := by
  rw [get] at h
  split_ifs at h with hn
  refine ⟨not_lt.mp hn, ?_⟩
  by_contra hlen
  rw [List.getD_eq_default _ _ (by omega)] at h
  cases h

/-- Setting changes an open descriptor. -/
theorem get_set {y : ω} (h : d.get n = some y) (x : ω) :
    (d.set n x).get = Function.update d.get n (some x) := by
  obtain ⟨h0, hlen⟩ := d.toNat_le h
  rw [set, get_put _ hlen, Int.toNat_of_nonneg h0]

/-- Freeing closes an open descriptor. -/
theorem get_free {y : ω} (h : d.get n = some y) :
    (d.free n).get = Function.update d.get n none := by
  obtain ⟨h0, hlen⟩ := d.toNat_le h
  rw [free, get_put _ hlen, Int.toNat_of_nonneg h0]

end Descriptors

/-! ## One descriptor beside the others -/

/-- `f` is `base`, and beside it `n` for `x`, if this is an entry. -/
structure Beside (base : ℤ → Option ω) (n : ℤ) (x : Option ω) (f : ℤ → Option ω) : Prop where
  fresh : base n = none
  eq : f = Function.update base n x

namespace Beside

variable {base f f' : ℤ → Option ω} {n : ℤ} {x x' : Option ω}

/-- The number itself has `x`. -/
theorem get (h : Beside base n x f) : f n = x := by
  rw [h.eq, Function.update_self]

/-- Every other number has what it had. -/
theorem get_of_ne (h : Beside base n x f) {m : ℤ} (hm : m ≠ n) : f m = base m := by
  rw [h.eq, Function.update_of_ne hm]

/-- Nothing is open beside `base`. -/
theorem none_iff (h : base n = none) : Beside base n none f ↔ f = base := by
  constructor
  · intro hb
    rw [hb.eq, ← h, Function.update_eq_self]
  · rintro rfl
    exact ⟨h, by rw [← h, Function.update_eq_self]⟩

/-- The entry changes, or is closed. -/
theorem update (h : Beside base n x f) (hf : f' = Function.update f n x') :
    Beside base n x' f' := by
  refine ⟨h.fresh, ?_⟩
  rw [hf, h.eq, Function.update_idem]

end Beside

end AsprNet
