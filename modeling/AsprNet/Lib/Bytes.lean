import Mathlib.Data.List.Basic
import Mathlib.Algebra.Order.Ring.Nat
import Mathlib.Tactic.Ring

/-! # Bytes, little-endian numbers and stores into an array

A byte array is a list of bytes. `leBytes w n` is the number `n` in `w` bytes, least significant
first, and `leNat` reads such a number back. `splice mem i bs` is the array `mem` after the bytes
`bs` were stored from index `i` on.
-/

namespace AsprNet

/-- A sequence of bytes: the contents of an array, of a file or of a stream. -/
abbrev Bytes := List UInt8

/-- The bytes of an ASCII text. -/
def text (s : String) : Bytes := s.toList.map fun c => UInt8.ofNat c.toNat

/-! ## Little-endian numbers -/

/-- The `w` low bytes of `n`, least significant first. -/
def leBytes : ℕ → ℕ → Bytes
  | 0, _ => []
  | w + 1, n => UInt8.ofNat n :: leBytes w (n / 256)

/-- The number a byte sequence spells, least significant byte first. -/
def leNat : Bytes → ℕ
  | [] => 0
  | b :: bs => b.toNat + 256 * leNat bs

@[simp] theorem length_leBytes (w n : ℕ) : (leBytes w n).length = w := by
  induction w generalizing n with
  | zero => rfl
  | succ w ih => simp [leBytes, ih]

/-- Reading back `w` bytes of `n` gives `n`, when `n` fits. -/
theorem leNat_leBytes {w n : ℕ} (h : n < 256 ^ w) : leNat (leBytes w n) = n := by
  induction w generalizing n with
  | zero =>
      have : n = 0 := by simpa using h
      simp [leBytes, leNat, this]
  | succ w ih =>
      have hdiv : n / 256 < 256 ^ w := by
        rw [pow_succ] at h
        exact Nat.div_lt_of_lt_mul (by omega)
      have hbyte : (UInt8.ofNat n).toNat = n % 256 := by simp
      rw [leBytes, leNat, ih hdiv, hbyte]
      omega

/-- Eight bytes hold every number below `2 ^ 64`. -/
theorem leNat_leBytes_eight {n : ℕ} (h : n < 2 ^ 64) : leNat (leBytes 8 n) = n :=
  leNat_leBytes (by simpa using h)

/-! ## Stores -/

/-- The array `mem` after `bs` was stored from index `i` on. -/
def splice (mem : Bytes) (i : ℕ) (bs : Bytes) : Bytes :=
  mem.take i ++ bs ++ mem.drop (i + bs.length)

/-- Writing inside the array keeps its length. -/
theorem length_splice {mem : Bytes} {i : ℕ} {bs : Bytes} (h : i + bs.length ≤ mem.length) :
    (splice mem i bs).length = mem.length := by
  simp only [splice, List.length_append, List.length_take, List.length_drop]
  omega

/-- Up to the end of the stored bytes the array is what it was before `i`, then those bytes. -/
theorem take_splice {mem : Bytes} {i : ℕ} {bs : Bytes} (h : i ≤ mem.length) :
    (splice mem i bs).take (i + bs.length) = mem.take i ++ bs := by
  rw [splice, List.take_left']
  simp only [List.length_append, List.length_take]
  omega

/-- A store leaves everything before its first index alone. -/
theorem take_splice_of_le {mem : Bytes} {i n : ℕ} {bs : Bytes} (hi : i ≤ mem.length) (h : n ≤ i) :
    (splice mem i bs).take n = mem.take n := by
  rw [splice, List.append_assoc, List.take_append_of_le_length, List.take_take, min_eq_left h]
  simpa using ⟨h, h.trans hi⟩

/-- A store leaves everything after its last index alone. -/
theorem drop_splice {mem : Bytes} {i n : ℕ} {bs : Bytes} (h : i + bs.length ≤ mem.length)
    (hn : i + bs.length ≤ n) : (splice mem i bs).drop n = mem.drop n := by
  have hlen : (mem.take i ++ bs).length = i + bs.length := by
    simp only [List.length_append, List.length_take]
    omega
  rw [splice, List.drop_append, List.drop_of_length_le (by omega), List.nil_append,
    List.drop_drop, hlen]
  congr 1
  omega

/-- Storing at the front of an array. -/
theorem splice_zero (mem bs : Bytes) : splice mem 0 bs = bs ++ mem.drop bs.length := by
  simp [splice]

/-- Two stores one behind the other are one store. -/
theorem splice_splice {mem : Bytes} {i : ℕ} {bs cs : Bytes}
    (h : i + bs.length + cs.length ≤ mem.length) :
    splice (splice mem i bs) (i + bs.length) cs = splice mem i (bs ++ cs) := by
  have htake : (splice mem i bs).take (i + bs.length) = mem.take i ++ bs :=
    take_splice (by omega)
  have hdrop : (splice mem i bs).drop (i + bs.length + cs.length) =
      mem.drop (i + bs.length + cs.length) := drop_splice (by omega) (by omega)
  rw [splice, htake, hdrop, splice]
  simp [Nat.add_assoc]

end AsprNet
