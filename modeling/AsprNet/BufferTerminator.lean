import AsprNet.BufferGrowth

/-! # The NUL behind a buffer's contents

Reference: `buffer.hpp`, `buffer.cpp`. The field `_buff` is documented with
`_buff[_write_idx] = '\0', always`, and `process_input_buffer` reads a buffer as a C string on the
strength of it.

Only `ending` and the two `write`s store the NUL. The constructor leaves what `new[]` found, and
`shrink`, `extend` and `reset` move `_write_idx` to a byte that they do not set. So the comment
holds throughout a run exactly when each of these happens to find a NUL there
(`terminated_iff`).
-/

namespace AsprNet

namespace BufferT

/-- What the comment on `_buff` promises, with the order of the indices it needs. -/
structure Terminated (b : BufferT) : Prop where
  read : b.readIdx ≤ b.writeIdx
  write : b.writeIdx < b.size
  nul : b.buff[b.writeIdx]? = some 0

/-- The C string at `_buff + _read_idx` ends no later than the readable part. -/
def Stops (b : BufferT) : Prop :=
  ∃ i, i ≤ b.writeIdx - b.readIdx ∧ (b.buff.drop b.readIdx)[i]? = some 0

namespace Terminated

variable {b : BufferT} (h : b.Terminated)

include h

/-- A terminated buffer has its indices in order. -/
theorem ordered : b.Ordered :=
  ⟨h.read, h.write.le⟩

/-- The NUL at `_write_idx` ends the C string of the readable part. -/
theorem stops : b.Stops := by
  refine ⟨b.writeIdx - b.readIdx, le_rfl, ?_⟩
  rw [List.getElem?_drop, Nat.add_sub_of_le h.read]
  exact h.nul

end Terminated

/-- The calls the comment can speak of: member functions, called with a `size_t` and with a string
whose package fits. -/
def BufferOp.Proper (b : BufferT) : BufferOp → Prop
  | .extend n => n < 2 ^ 64
  | .writeStr s => headSize + s.length < b.size
  | .assign .. => False
  | _ => True

/-- Whether a call leaves a NUL at `_write_idx`. `shrink` and `extend` leave the readable bytes in
front of the array, so that the byte behind them is the one that was at their number; the copy
that `extend` makes also has NULs there when one of the readable bytes is NUL. -/
def BufferOp.Keeps (b : BufferT) : BufferOp → Prop
  | .shrink => b.buff[b.writeIdx - b.readIdx]? = some 0
  | .extend n => n ≤ b.size - b.writeIdx ∨
      (b.size + n < 2 ^ 64 ∧ (0 ∈ b.readable ∨ b.buff[b.writeIdx - b.readIdx]? = some 0))
  | .reset => b.buff[0]? = some 0
  | _ => True

/-! ## One operation -/

/-- The copy of the old array fills the front of the new one. -/
theorem Ordered.length_copied {b : BufferT} (h : b.Ordered) :
    (truncated (0 : UInt8) (b.readable ++ b.buff.drop b.readable.length)).length = b.size := by
  rw [length_truncated, h.length_shrunk]

/-- The array that `extend` leaves when there is too little room. -/
theorem Ordered.extend_eq {b : BufferT} (h : b.Ordered) (junk : ℕ → UInt8) {n : ℕ}
    (hmore : b.size - b.writeIdx < n) (hfit : b.size + n < 2 ^ 63) :
    b.extend junk n = .ok
      { buff := splice ((List.range (b.size + n)).map junk) 0
          (truncated 0 (b.readable ++ b.buff.drop b.readable.length)),
        readIdx := 0, writeIdx := b.readable.length } := by
  have hstore : 0 + (truncated (0 : UInt8) (b.readable ++ b.buff.drop b.readable.length)).length ≤
      ((List.range (b.size + n)).map junk).length := by
    rw [h.length_copied, List.length_map, List.length_range]
    omega
  rw [h.extend_eq_store junk hmore, Nat.mod_eq_of_lt (by omega), newChars, if_pos hfit, ok_bind,
    store_of_le hstore, ok_bind]

/-- The array that `extend` fills has the size it asked for. -/
theorem Ordered.length_extended {b : BufferT} (h : b.Ordered) (junk : ℕ → UInt8) (n : ℕ) :
    (splice ((List.range (b.size + n)).map junk) 0
      (truncated 0 (b.readable ++ b.buff.drop b.readable.length))).length = b.size + n := by
  rw [length_splice, List.length_map, List.length_range]
  rw [h.length_copied, List.length_map, List.length_range]
  omega

/-- The byte behind the readable ones after `extend` is one of the copy. -/
theorem Ordered.nul_extended_iff {b : BufferT} (h : b.Ordered) (hroom : b.readable.length < b.size)
    (junk : ℕ → UInt8) (n : ℕ) :
    (splice ((List.range (b.size + n)).map junk) 0
        (truncated 0 (b.readable ++ b.buff.drop b.readable.length)))[b.readable.length]? =
      some 0 ↔ 0 ∈ b.readable ∨ b.buff[b.readable.length]? = some 0 := by
  have hrest : b.buff.drop b.readable.length ≠ [] := by
    rw [← List.length_pos_iff, List.length_drop, length_buff]
    omega
  rw [splice_zero, List.getElem?_append_left (hroom.trans_eq h.length_copied.symm),
    getElem?_truncated_append hrest, List.getElem?_drop, Nat.add_zero]

/-- The byte behind the readable ones after `shrink`. -/
theorem getElem?_shrunk (b : BufferT) :
    (b.readable ++ b.buff.drop b.readable.length)[b.readable.length]? =
      b.buff[b.readable.length]? := by
  rw [List.getElem?_append_right le_rfl, Nat.sub_self, List.getElem?_drop, Nat.add_zero]

/-- A package that fits. -/
theorem terminated_writePackage {b : BufferT} (hb : b.Allocated) (junk : ℕ → UInt8) {p : Bytes}
    (hfit : headSize + p.length < b.size) :
    ∃ b', b.writePackage junk p = .ok b' ∧ b'.Terminated := by
  obtain ⟨b', hwrite, henc⟩ := b.writePackage_encodes junk hfit (by have := hb.high; omega)
  refine ⟨b', hwrite, ?_, henc.room, henc.nul⟩
  rw [henc.read]
  exact Nat.zero_le _

namespace Terminated

variable {b : BufferT} (h : b.Terminated)

include h

/-- `shrink` leaves a NUL at the new `_write_idx` only when one is there already. -/
theorem shrink_iff :
    (∃ b', b.shrink = .ok b' ∧ b'.Terminated) ↔ b.buff[b.writeIdx - b.readIdx]? = some 0 := by
  have hlen := h.ordered.length_readable
  have hread := h.read
  have hwrite := h.write
  rw [h.ordered.shrink_eq, ← hlen]
  constructor
  · rintro ⟨b', heq, hterm⟩
    obtain rfl := Except.ok.inj heq
    rw [← getElem?_shrunk]
    exact hterm.nul
  · intro hnul
    refine ⟨_, rfl, Nat.zero_le _, ?_, ?_⟩
    · have hlt : b.readable.length < b.size := by omega
      exact hlt.trans_eq h.ordered.length_shrunk.symm
    · rw [← hnul]
      exact getElem?_shrunk b

/-- When `new[]` gives an array, or is not asked for one. -/
theorem extend_iff (junk : ℕ → UInt8) {n : ℕ} (hn : n < 2 ^ 64)
    (hnew : b.extend junk n ≠ .error .badAlloc) :
    (∃ b', b.extend junk n = .ok b' ∧ b'.Terminated) ↔ BufferOp.Keeps b (.extend n) := by
  have hlen := h.ordered.length_readable
  have hread := h.read
  have hwrite := h.write
  have heq (hmore : b.size - b.writeIdx < n) (hsum : b.size + n < 2 ^ 63) :=
    h.ordered.extend_eq junk hmore hsum
  have hcases := extend_cases h.ordered junk n
  generalize b.extend junk n = x at hcases hnew heq
  cases hcases with
  | enough henough => exact iff_of_true ⟨b, rfl, h⟩ (Or.inl henough)
  | throws hmore hbig => exact absurd rfl hnew
  | wraps hmore hover =>
      apply iff_of_false
      · rintro ⟨b', heq', -⟩
        cases heq'
      · rintro (henough | ⟨hsize, -⟩)
        · omega
        · omega
  | grows hmore hsmall hfit b₁ hgrown =>
      have hsum : b.size + n < 2 ^ 63 := by omega
      have hbyte := h.ordered.nul_extended_iff (by omega) junk n
      obtain rfl := Except.ok.inj (heq hmore hsum)
      rw [BufferOp.Keeps, ← hlen]
      constructor
      · rintro ⟨b', heq', hterm⟩
        obtain rfl := Except.ok.inj heq'
        exact Or.inr ⟨by omega, hbyte.mp hterm.nul⟩
      · rintro (henough | ⟨-, hnul⟩)
        · omega
        · have hlt : b.readable.length < b.size + n := by omega
          exact ⟨_, rfl, Nat.zero_le _, hlt.trans_eq (h.ordered.length_extended junk n).symm,
            hbyte.mpr hnul⟩

/-- `ending` stores the NUL, when there is room. -/
theorem ending : ∃ b', b.ending = .ok b' ∧ b'.Terminated := by
  have hroom : b.size - b.writeIdx ≠ 0 := Nat.sub_ne_zero_of_lt h.write
  have hstore : b.writeIdx + [(0 : UInt8)].length ≤ b.buff.length := h.write
  refine ⟨{ b with buff := splice b.buff b.writeIdx [0] }, ?_, h.read, ?_, ?_⟩
  · rw [BufferT.ending, h.ordered.writeableSize, ok_bind, if_pos hroom, store_of_le hstore, ok_bind]
    rfl
  · rw [size_mk, length_splice hstore]
    exact h.write
  · have hnul : (splice b.buff b.writeIdx ([] ++ [0]))[b.writeIdx + ([] : Bytes).length]? =
        some 0 := getElem?_splice_nul h.write.le
    exact hnul

end Terminated

/-! ## Runs -/

/-- A new array holds what was there before. -/
theorem terminated_create_iff (junk : ℕ → UInt8) : (create junk).Terminated ↔ junk 0 = 0 := by
  have hfirst : (create junk).buff[0]? = some (junk 0) := by
    simp [create, defaultBuffSize]
  constructor
  · intro h
    exact Option.some.inj (hfirst.symm.trans h.nul)
  · intro h
    rw [h] at hfirst
    refine ⟨le_rfl, ?_, hfirst⟩
    rw [size_create]
    exact (by decide : 0 < defaultBuffSize)

/-- One call, with what `new[]` leaves in the array it may allocate. Where `new[]` throws, `extend`
has moved the readable bytes and no more. -/
def call (b : BufferT) (op : BufferOp × (ℕ → UInt8)) : Except Halt BufferT :=
  match op.1, op.1.apply op.2 b with
  | .extend _, .error .badAlloc => b.shrink
  | _, result => result

/-- An `extend` whose `new[]` throws has moved the readable bytes. -/
theorem call_throws {b : BufferT} {junk : ℕ → UInt8} {n : ℕ}
    (h : b.extend junk n = .error .badAlloc) : call b (.extend n, junk) = b.shrink := by
  unfold call BufferOp.apply
  dsimp only
  rw [h]

/-- Any other `extend` is `extend`. -/
theorem call_extend {b : BufferT} {junk : ℕ → UInt8} {n : ℕ}
    (h : b.extend junk n ≠ .error .badAlloc) : call b (.extend n, junk) = b.extend junk n := by
  unfold call BufferOp.apply
  dsimp only
  split
  · rename_i herr
    exact absurd herr h
  · rfl

/-- Nothing is taken from the front of an allocated array. -/
structure AtFront (b : BufferT) : Prop extends b.Allocated where
  first : b.readIdx = 0

/-- The package of a number fits into an allocated array. -/
theorem AtFront.fits {b : BufferT} (h : b.AtFront) (n : ℕ) :
    headSize + (leBytes 8 n).length < b.size := by
  rw [length_leBytes]
  exact lt_of_lt_of_le (by decide) h.low

/-- `shrink` moves the readable bytes to the front. -/
theorem readIdx_shrink {b b' : BufferT} (h : b.shrink = .ok b') : b'.readIdx = 0 := by
  unfold shrink at h
  obtain ⟨len, -, h⟩ := bind_eq_ok.mp h
  obtain ⟨buff, -, hret⟩ := bind_eq_ok.mp h
  obtain rfl := Except.ok.inj hret
  rfl

/-- `extend` keeps `_read_idx` at the front. -/
theorem readIdx_extend {b b' : BufferT} {junk : ℕ → UInt8} {n : ℕ}
    (h : b.extend junk n = .ok b') (hb : b.readIdx = 0) : b'.readIdx = 0 := by
  unfold extend at h
  obtain ⟨room, -, h⟩ := bind_eq_ok.mp h
  split_ifs at h
  · obtain ⟨b₁, hshrink, h⟩ := bind_eq_ok.mp h
    obtain ⟨mem, -, h⟩ := bind_eq_ok.mp h
    obtain ⟨buff, -, hret⟩ := bind_eq_ok.mp h
    obtain rfl := Except.ok.inj hret
    show b₁.readIdx = 0
    exact readIdx_shrink hshrink
  · obtain rfl := Except.ok.inj h
    exact hb

/-- `ending` moves no index. -/
theorem readIdx_ending {b b' : BufferT} (h : b.ending = .ok b') : b'.readIdx = b.readIdx := by
  unfold ending at h
  obtain ⟨room, -, h⟩ := bind_eq_ok.mp h
  split_ifs at h
  · obtain ⟨buff, -, hret⟩ := bind_eq_ok.mp h
    obtain rfl := Except.ok.inj hret
    rfl
  · obtain rfl := Except.ok.inj h
    rfl

/-- A package that fits starts at the front. -/
theorem readIdx_writePackage {b b' : BufferT} {junk : ℕ → UInt8} {p : Bytes}
    (hfit : headSize + p.length < b.size) (h : b.writePackage junk p = .ok b') :
    b'.readIdx = 0 := by
  obtain rfl := Except.ok.inj ((b.writePackage_fits junk hfit).symm.trans h)
  rfl

/-- Proper calls take nothing from the front. -/
theorem AtFront.call {b b' : BufferT} {op : BufferOp × (ℕ → UInt8)} (h : b.AtFront)
    (hop : op.1.Proper b) (hcall : BufferT.call b op = .ok b') : b'.AtFront := by
  obtain ⟨op, junk⟩ := op
  cases op with
  | shrink => exact ⟨h.of_size (size_shrink hcall), readIdx_shrink hcall⟩
  | extend n =>
      by_cases hnew : b.extend junk n = .error .badAlloc
      · rw [call_throws hnew] at hcall
        exact ⟨h.of_size (size_shrink hcall), readIdx_shrink hcall⟩
      · rw [call_extend hnew] at hcall
        exact ⟨h.extend hcall, readIdx_extend hcall h.first⟩
  | ending => exact ⟨h.of_size (size_ending hcall), (readIdx_ending hcall).trans h.first⟩
  | reset =>
      obtain rfl : b.reset = b' := Except.ok.inj hcall
      exact ⟨h.of_size rfl, rfl⟩
  | writeStr s => exact ⟨h.writePackage hcall, readIdx_writePackage hop hcall⟩
  | writeInt n => exact ⟨h.writePackage hcall, readIdx_writePackage (h.fits n) hcall⟩
  | assign buff r w => exact absurd hop id

/-- **One call**: the NUL is there afterwards exactly when the call keeps it. -/
theorem Terminated.call_iff {b : BufferT} (h : b.Terminated) (hb : b.AtFront)
    {op : BufferOp × (ℕ → UInt8)} (hop : op.1.Proper b) :
    (∃ b', BufferT.call b op = .ok b' ∧ b'.Terminated) ↔ op.1.Keeps b := by
  obtain ⟨op, junk⟩ := op
  cases op with
  | shrink => exact h.shrink_iff
  | extend n =>
      by_cases hnew : b.extend junk n = .error .badAlloc
      · -- the buffer stays, and so does its NUL
        have hnul : b.buff[b.writeIdx - b.readIdx]? = some 0 := by
          rw [hb.first]
          exact h.nul
        rw [call_throws hnew]
        refine iff_of_true (h.shrink_iff.mpr hnul) ?_
        have hcases := extend_cases h.ordered junk n
        rw [hnew] at hcases
        cases hcases with
        | throws hmore hbig =>
            have hn : n < 2 ^ 64 := hop
            have hhigh := hb.high
            exact Or.inr ⟨by omega, Or.inr hnul⟩
      · rw [call_extend hnew]
        exact h.extend_iff junk hop hnew
  | ending => exact iff_of_true h.ending trivial
  | reset =>
      -- `_write_idx` is 0 now, and the byte there is what it was
      have hwrite := h.write
      constructor
      · rintro ⟨b', heq, hterm⟩
        obtain rfl : b.reset = b' := Except.ok.inj heq
        exact hterm.nul
      · intro hnul
        exact ⟨b.reset, rfl, le_rfl, Nat.zero_lt_of_lt hwrite, hnul⟩
  | writeStr s => exact iff_of_true (terminated_writePackage hb.toAllocated junk hop) trivial
  | writeInt n =>
      exact iff_of_true (terminated_writePackage hb.toAllocated junk (hb.fits n)) trivial
  | assign buff r w => exact absurd hop id

/-- **The comment on `_buff` holds after every operation of a run** exactly when `new[]` put a NUL
at the front of the array and every operation of the run keeps the NUL. -/
theorem terminated_iff (junk : ℕ → UInt8) (ops : List (BufferOp × (ℕ → UInt8)))
    (hops : StepsMeet call (fun b op => op.1.Proper b) (create junk) ops) :
    StatesMeet call (fun b => b.Terminated ∧ b.Stops) (create junk) ops ↔
      junk 0 = 0 ∧ StepsMeet call (fun b op => op.1.Keeps b) (create junk) ops := by
  have hrun (hnew : (create junk).Terminated) :
      StatesMeet call Terminated (create junk) ops ↔
        StepsMeet call (fun b op => op.1.Keeps b) (create junk) ops := by
    have hfront : (create junk).AtFront := ⟨allocated_create junk, rfl⟩
    refine statesMeet_iff (fun b op b' hb hop h => hb.call hop h) ?_ ops hfront hnew hops
    intro b op hb hterm hop
    exact hterm.call_iff hb hop
  constructor
  · intro h
    have hterm := h.imp fun _ hb => hb.1
    exact ⟨(terminated_create_iff junk).mp hterm.first, (hrun hterm.first).mp hterm⟩
  · rintro ⟨hnew, hkeeps⟩
    have hterm := (hrun ((terminated_create_iff junk).mpr hnew)).mpr hkeeps
    exact hterm.imp fun _ hb => ⟨hb, hb.stops⟩

/-- A buffer of zeros that is written, moved to the front, extended and ended. -/
theorem terminated_ping :
    StatesMeet call (fun b => b.Terminated ∧ b.Stops) (create fun _ => 0)
      [(.writeStr (text "ping"), fun _ => 7), (.shrink, fun _ => 7), (.ending, fun _ => 7)] := by
  have hfit : headSize + (text "ping").length < (create fun _ => 0).size := by
    rw [size_create]
    decide
  have hwrite := writePackage_fits (create fun _ => 0) (fun _ => 7) hfit
  apply (terminated_iff _ _ ?_).mpr
  · refine ⟨rfl, trivial, ?_⟩
    intro b hb
    obtain rfl := Except.ok.inj (hwrite.symm.trans hb)
    refine ⟨?_, fun _ _ => ⟨trivial, fun _ _ => trivial⟩⟩
    show (splice _ 0 _)[12]? = some 0
    rw [splice_zero]
    decide
  · exact ⟨hfit, fun _ _ => ⟨trivial, fun _ _ => ⟨trivial, fun _ _ => trivial⟩⟩⟩

/-- A buffer of zeros that is written and reset: `_write_idx` is back at the length field. -/
theorem reset_unterminated :
    StepsMeet call (fun b op => op.1.Proper b) (create fun _ => 0)
        [(.writeStr (text "ping"), fun _ => 0), (.reset, fun _ => 0)] ∧
      ¬StatesMeet call (fun b => b.Terminated ∧ b.Stops) (create fun _ => 0)
        [(.writeStr (text "ping"), fun _ => 0), (.reset, fun _ => 0)] := by
  have hfit : headSize + (text "ping").length < (create fun _ => 0).size := by
    rw [size_create]
    decide
  have hwrite := writePackage_fits (create fun _ => 0) (fun _ => 0) hfit
  constructor
  · exact ⟨hfit, fun _ _ => ⟨trivial, fun _ _ => trivial⟩⟩
  · rintro ⟨-, b, hb, -, b', hb', hterm, -⟩
    obtain rfl := Except.ok.inj (hwrite.symm.trans hb)
    obtain rfl := Except.ok.inj hb'
    have hnul := hterm.nul
    rw [splice_zero] at hnul
    exact absurd hnul (by decide)

end BufferT

end AsprNet
