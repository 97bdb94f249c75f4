import AsprNet.Lib.Bytes
import Mathlib.Data.List.Range

/-! # Cutting data into chunks and framing it

`chunks n l` is what a reader that asks for `n` elements at a time and stops at its first short
read collects: the `n`-blocks of `l`, then the rest, which is empty exactly when `n` divides the
length. `frame w p` is a package: the length of `p` as a `w`-byte number, then `p`. `frames w bs`
are the payloads of the packages that a stream starts with.
-/

namespace AsprNet

variable {α : Type*}

/-! ## Chunks -/

/-- The `n`-blocks of `l` followed by the (possibly empty) rest. -/
def chunks (n : ℕ) (l : List α) : List (List α) :=
  (List.range (l.length / n + 1)).map fun i => (l.drop (i * n)).take n

@[simp] theorem length_chunks (n : ℕ) (l : List α) : (chunks n l).length = l.length / n + 1 := by
  simp [chunks]

/-- Data shorter than a block is one chunk. -/
theorem chunks_of_lt {n : ℕ} {l : List α} (h : l.length < n) : chunks n l = [l] := by
  simp [chunks, Nat.div_eq_of_lt h, List.take_of_length_le h.le]

/-- Otherwise the first block is cut off. -/
theorem chunks_of_le {n : ℕ} {l : List α} (hn : 0 < n) (h : n ≤ l.length) :
    chunks n l = l.take n :: chunks n (l.drop n) := by
  have hdiv : l.length / n = (l.drop n).length / n + 1 := by
    rw [List.length_drop, Nat.div_eq l.length, if_pos ⟨hn, h⟩]
  rw [chunks, hdiv, List.range_succ_eq_map, List.map_cons, List.map_map, chunks]
  congr 1
  · simp
  · refine List.map_congr_left fun i _ => ?_
    simp [Nat.succ_mul, Nat.add_comm]

/-- Induction along the cutting of a list. -/
theorem chunks_induction {n : ℕ} (hn : 0 < n) {motive : List α → Prop}
    (short : ∀ l, l.length < n → motive l)
    (long : ∀ l, n ≤ l.length → motive (l.drop n) → motive l) (l : List α) : motive l := by
  induction hlen : l.length using Nat.strong_induction_on generalizing l with
  | _ k ih =>
      rcases Nat.lt_or_ge l.length n with hlt | hge
      · exact short l hlt
      · exact long l hge (ih (l.length - n) (by omega) (l.drop n) (by simp))

/-- The chunks put together are the data. -/
theorem flatten_chunks {n : ℕ} (hn : 0 < n) (l : List α) : (chunks n l).flatten = l := by
  induction l using chunks_induction hn with
  | short l h => simp [chunks_of_lt h]
  | long l h ih => rw [chunks_of_le hn h, List.flatten_cons, ih, List.take_append_drop]

/-- No chunk is longer than `n`. -/
theorem length_le_of_mem_chunks {n : ℕ} {l c : List α} (h : c ∈ chunks n l) : c.length ≤ n := by
  obtain ⟨i, -, rfl⟩ := List.mem_map.mp h
  simp

/-- Only the last chunk can be empty. -/
theorem ne_nil_of_mem_dropLast_chunks {n : ℕ} (hn : 0 < n) (l : List α) :
    ∀ c ∈ (chunks n l).dropLast, c ≠ [] := by
  induction l using chunks_induction hn with
  | short l h => simp [chunks_of_lt h]
  | long l h ih =>
      have hne : chunks n (l.drop n) ≠ [] := by
        rw [← List.length_pos_iff, length_chunks]
        exact Nat.succ_pos _
      rw [chunks_of_le hn h, List.dropLast_cons_of_ne_nil hne]
      rintro c (_ | ⟨_, hc⟩)
      · rw [← List.length_pos_iff, List.length_take]
        omega
      · exact ih c hc

/-! ## Frames -/

/-- A package: a `w`-byte length, then the payload. -/
def frame (w : ℕ) (payload : Bytes) : Bytes := leBytes w payload.length ++ payload

@[simp] theorem length_frame (w : ℕ) (p : Bytes) : (frame w p).length = w + p.length := by
  simp [frame]

/-- The first `w` bytes of a stream that starts with a package. -/
theorem take_frame (w : ℕ) (p rest : Bytes) :
    (frame w p ++ rest).take w = leBytes w p.length := by
  rw [frame, List.append_assoc, List.take_left' (length_leBytes w _)]

/-- What follows the length field. -/
theorem drop_frame (w : ℕ) (p rest : Bytes) : (frame w p ++ rest).drop w = p ++ rest := by
  rw [frame, List.append_assoc, List.drop_left' (length_leBytes w _)]

/-- The payloads of the packages at the start of a stream, at most `k` of them. -/
def framesUpTo (w : ℕ) : ℕ → Bytes → List Bytes
  | 0, _ => []
  | k + 1, bs =>
    let n := leNat (bs.take w)
    if w + n ≤ bs.length then
      (bs.drop w).take n :: framesUpTo w k ((bs.drop w).drop n)
    else []

/-- The payloads of the packages at the start of a stream: every package has a byte at least. -/
def frames (w : ℕ) (bs : Bytes) : List Bytes := framesUpTo w bs.length bs

/-- The packages of a stream that was put together from them, when `k` is enough. -/
theorem framesUpTo_flatMap_frame {w k : ℕ} (hw : 0 < w) {ps : List Bytes} (hk : ps.length ≤ k)
    (hlen : ∀ p ∈ ps, p.length < 256 ^ w) : framesUpTo w k (ps.flatMap (frame w)) = ps := by
  induction ps generalizing k with
  | nil =>
      cases k with
      | zero => rfl
      | succ k => simp [framesUpTo, hw.ne']
  | cons p ps ih =>
      obtain ⟨k, rfl⟩ : ∃ k', k = k' + 1 := ⟨k - 1, by rw [List.length_cons] at hk; omega⟩
      have hnum : leNat ((frame w p ++ ps.flatMap (frame w)).take w) = p.length := by
        rw [take_frame]
        exact leNat_leBytes (hlen p List.mem_cons_self)
      have hrest := ih (Nat.le_of_succ_le_succ hk) fun q hq => hlen q (List.mem_cons_of_mem _ hq)
      rw [List.flatMap_cons, framesUpTo]
      simp only [hnum, drop_frame]
      rw [if_pos (by simp), List.take_left' rfl, List.drop_left' rfl, hrest]

/-- Every package takes a byte of the stream at least. -/
theorem length_le_flatMap_frame {w : ℕ} (hw : 0 < w) (ps : List Bytes) :
    ps.length ≤ (ps.flatMap (frame w)).length := by
  induction ps with
  | nil => exact le_rfl
  | cons p ps ih =>
      rw [List.flatMap_cons, List.length_append, length_frame, List.length_cons]
      omega

/-- **Packages are read back** from the stream that they make. -/
theorem frames_flatMap_frame {w : ℕ} (hw : 0 < w) {ps : List Bytes}
    (hlen : ∀ p ∈ ps, p.length < 256 ^ w) : frames w (ps.flatMap (frame w)) = ps :=
  framesUpTo_flatMap_frame hw (length_le_flatMap_frame hw ps) hlen

end AsprNet
