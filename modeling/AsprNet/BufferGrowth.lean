import AsprNet.Buffer
import AsprNet.Lib.Terminated

/-! # Growing a buffer

`extend` moves the readable bytes to the front of the array and copies the array with `strncpy`,
which ends at the first NUL. So the readable bytes survive exactly when nothing but NULs follows
their first NUL (`extend_keeps_iff`). `write` asks it for the missing room, which it takes for a
request to be granted only when that exceeds the free room (`writeStr_encodes_iff`).
-/

namespace AsprNet

/-- The `strncpy` of a whole array. -/
theorem strncpyBytes_self (mem : Bytes) :
    BufferT.strncpyBytes mem mem.length = truncated 0 mem := by
  rw [BufferT.strncpyBytes, List.take_length, truncated_eq]

/-- A store keeps the length of its array. -/
theorem length_store {mem mem' bs : Bytes} {i : ℕ} (h : store mem i bs = .ok mem') :
    mem'.length = mem.length := by
  rw [store] at h
  split_ifs at h with hfit
  obtain rfl := Except.ok.inj h
  exact length_splice hfit

namespace BufferT

namespace Ordered

variable {b : BufferT} (h : b.Ordered)

include h

/-- **`shrink`** puts the readable bytes in front. -/
theorem shrink_eq :
    b.shrink = .ok { buff := b.readable ++ b.buff.drop b.readable.length, readIdx := 0,
                     writeIdx := b.readable.length } := by
  have hread := h.read
  have hwrite := h.write
  have hbytes : (b.buff.drop b.readIdx).take (b.writeIdx - b.readIdx) = b.readable := by
    rw [BufferT.readable, List.drop_take]
  have hfit : 0 + b.readable.length ≤ b.buff.length := by
    rw [h.length_readable, length_buff]
    omega
  rw [BufferT.shrink, h.readableSize, ok_bind, hbytes, store_of_le hfit, ok_bind, splice_zero,
    h.length_readable]
  rfl

/-- `memmove` of the readable bytes to the front keeps the length of the array. -/
theorem length_shrunk : (b.readable ++ b.buff.drop b.readable.length).length = b.size := by
  have hwrite := h.write
  rw [List.length_append, List.length_drop, length_buff, h.length_readable]
  omega

/-- The copy that `extend` makes when there is too little room. -/
theorem extend_eq_store (junk : ℕ → UInt8) {n : ℕ} (hmore : b.size - b.writeIdx < n) :
    b.extend junk n = (newChars junk ((b.size + n) % 2 ^ 64) >>= fun buff => store buff 0
      (truncated 0 (b.readable ++ b.buff.drop b.readable.length)) >>= fun buff =>
        .ok { buff, readIdx := 0, writeIdx := b.readable.length }) := by
  have hsize := h.length_shrunk
  have hcopy : strncpyBytes (b.readable ++ b.buff.drop b.readable.length) b.size =
      truncated 0 (b.readable ++ b.buff.drop b.readable.length) := by
    rw [← strncpyBytes_self, hsize]
  rw [BufferT.extend, h.writeableSize, ok_bind, if_pos hmore, h.shrink_eq, ok_bind]
  simp only [size_mk, hsize, hcopy]
  rfl

end Ordered

/-! ## `extend` -/

/-- `b'` is `b` after `extend` gave it an array of `size` bytes. -/
structure Grown (b b' : BufferT) (size : ℕ) : Prop where
  read : b'.readIdx = 0
  write : b'.writeIdx = b.readable.length
  size : b'.size = size
  readable : b'.readable = truncated 0 b.readable

/-- The four outcomes of `extend(n)`. -/
inductive Extended (b : BufferT) (n : ℕ) : Except Halt BufferT → Prop
  /-- There is room. -/
  | enough (h : n ≤ b.size - b.writeIdx) : Extended b n (.ok b)
  /-- `new[]` throws. -/
  | throws (hmore : b.size - b.writeIdx < n) (hnew : 2 ^ 63 ≤ (b.size + n) % 2 ^ 64) :
      Extended b n (.error .badAlloc)
  /-- The sum of the sizes has wrapped around, and the copy does not fit. -/
  | wraps (hmore : b.size - b.writeIdx < n) (hover : (b.size + n) % 2 ^ 64 < b.size) :
      Extended b n (.error .outOfBounds)
  | grows (hmore : b.size - b.writeIdx < n) (hnew : (b.size + n) % 2 ^ 64 < 2 ^ 63)
      (hfit : b.size ≤ (b.size + n) % 2 ^ 64) (b' : BufferT)
      (hgrown : Grown b b' ((b.size + n) % 2 ^ 64)) : Extended b n (.ok b')

/-- **What `extend` does**: nothing when there is room, else a copy into an array of the new
`size_t` size, if `new[]` gives one. -/
theorem extend_cases {b : BufferT} (h : b.Ordered) (junk : ℕ → UInt8) (n : ℕ) :
    Extended b n (b.extend junk n) := by
  rcases Nat.lt_or_ge (b.size - b.writeIdx) n with hmore | henough
  · have hlen := (length_truncated (z := (0 : UInt8)) _).trans h.length_shrunk
    have hnew : ((List.range ((b.size + n) % 2 ^ 64)).map junk).length =
        (b.size + n) % 2 ^ 64 := by
      rw [List.length_map, List.length_range]
    have hextend := h.extend_eq_store junk hmore
    unfold newChars at hextend
    rcases Nat.lt_or_ge ((b.size + n) % 2 ^ 64) (2 ^ 63) with hsmall | hbig
    swap
    · rw [hextend, if_neg (by omega), error_bind]
      exact .throws hmore hbig
    rw [if_pos hsmall, ok_bind] at hextend
    rcases Nat.lt_or_ge ((b.size + n) % 2 ^ 64) b.size with hover | hfit
    · rw [hextend, store_of_lt (by omega), error_bind]
      exact .wraps hmore hover
    · have hstore : 0 + (truncated (0 : UInt8)
            (b.readable ++ b.buff.drop b.readable.length)).length ≤
          ((List.range ((b.size + n) % 2 ^ 64)).map junk).length := by omega
      rw [hextend, store_of_le hstore, ok_bind]
      refine .grows hmore hsmall hfit _ ⟨rfl, rfl, by rw [size_mk, length_splice hstore, hnew], ?_⟩
      -- the readable bytes lie in front of the copy
      have hfront : b.readable.length ≤ (truncated (0 : UInt8)
          (b.readable ++ b.buff.drop b.readable.length)).length := by
        rw [length_truncated, List.length_append]
        omega
      rw [BufferT.readable, List.drop_zero, splice_zero, List.take_append_of_le_length hfront,
        take_truncated]
  · have hsame : b.extend junk n = .ok b := by
      rw [extend, h.writeableSize, ok_bind, if_neg (by omega)]
      rfl
    rw [hsame]
    exact .enough henough

/-- What a caller expects of `extend(n)`. -/
structure Extends (b b' : BufferT) (n : ℕ) : Prop where
  readable : b'.readable = b.readable
  ordered : b'.Ordered
  room : ∃ m, b'.writeableSize = .ok m ∧ n ≤ m

/-- A buffer that grew has its indices in order. -/
theorem Grown.ordered {b b' : BufferT} {size : ℕ} (h : Grown b b' size) (hb : b.Ordered)
    (hsize : b.size ≤ size) : b'.Ordered := by
  have hlen := hb.length_readable
  have hwrite := hb.write
  refine ⟨by rw [h.read]; exact Nat.zero_le _, ?_⟩
  rw [h.write, h.size]
  omega

/-- **`extend` keeps the data and makes room** exactly when there was room, or an array of the new
size can be had and nothing but NULs follows the first NUL of the data. -/
theorem extend_keeps_iff {b : BufferT} (h : b.Ordered) (junk : ℕ → UInt8) (n : ℕ) :
    (∃ b', b.extend junk n = .ok b' ∧ Extends b b' n) ↔
      n ≤ b.size - b.writeIdx ∨ (b.size + n < 2 ^ 63 ∧ Padded 0 b.readable) := by
  have hlen := h.length_readable
  have hwrite := h.write
  have hcases := extend_cases h junk n
  generalize b.extend junk n = x at hcases
  cases hcases with
  | enough henough =>
      exact iff_of_true ⟨b, rfl, rfl, h, _, h.writeableSize, henough⟩ (Or.inl henough)
  | throws hmore hnew =>
      apply iff_of_false
      · rintro ⟨b', heq, -⟩
        cases heq
      · rintro (henough | ⟨hsize, -⟩)
        · omega
        · omega
  | wraps hmore hover =>
      apply iff_of_false
      · rintro ⟨b', heq, -⟩
        cases heq
      · rintro (henough | ⟨hsize, -⟩)
        · omega
        · omega
  | grows hmore hnew hfit b₁ hgrown =>
      have hin := hgrown.ordered h hfit
      have hroom := hin.writeableSize
      rw [hgrown.size, hgrown.write, hlen] at hroom
      constructor
      · rintro ⟨b', heq, hext⟩
        obtain rfl := Except.ok.inj heq
        obtain ⟨m, hm, hnm⟩ := hext.room
        obtain rfl := Except.ok.inj (hroom.symm.trans hm)
        refine Or.inr ⟨?_, ?_⟩
        · omega
        · rw [← truncated_eq_self_iff, ← hgrown.readable, hext.readable]
      · rintro (henough | ⟨hsize, hpad⟩)
        · omega
        · rw [Nat.mod_eq_of_lt (by omega)] at hroom
          refine ⟨b₁, rfl, ?_, hin, _, hroom, by omega⟩
          rw [hgrown.readable, truncated_eq_self_iff.mpr hpad]

/-- Three bytes of a text and an array that is too small. -/
theorem extend_keeps_word :
    ∃ b', (BufferT.mk [97, 98, 99, 0] 1 3).extend (fun _ => 7) 2 = .ok b' ∧
      Extends (BufferT.mk [97, 98, 99, 0] 1 3) b' 2 :=
  (extend_keeps_iff ⟨by decide, by decide⟩ (fun _ => 7) 2).mpr (Or.inr ⟨by decide, by decide⟩)

/-- The answer to `ping` does not survive: its length field has NULs in front of the text. -/
theorem extend_loses_package :
    ∃ b, (BufferT.create fun _ => 0).writeStr (fun _ => 0) (text "pong.") = .ok b ∧ b.Ordered ∧
      ¬∃ b', b.extend (fun _ => 0) 2000 = .ok b' ∧ Extends b b' 2000 := by
  have hsize : (BufferT.create fun _ => 0).size = defaultBuffSize := size_create _
  obtain ⟨b, hb, hpacks, hbsize⟩ := (BufferT.create fun _ => 0).writePackage_packs (fun _ => 0)
    (show headSize + (text "pong.").length < _ by rw [hsize]; decide)
  have hin : b.Ordered := ⟨by rw [hpacks.read]; exact Nat.zero_le _, hpacks.room.le⟩
  have hwrite : b.writeIdx = 13 := hpacks.write
  have h1024 : b.size = 1024 := hbsize.trans hsize
  refine ⟨b, hb, hin, ?_⟩
  rintro ⟨b', heq, hext⟩
  have hcases := extend_cases hin (fun _ => 0) 2000
  rw [heq] at hcases
  cases hcases with
  | enough henough => omega
  | grows _ _ _ _ hgrown =>
      have hsame := hgrown.readable.symm.trans hext.readable
      rw [hpacks.readable] at hsame
      exact absurd hsame (by decide)

/-! ## `write` -/

/-- `b'` holds the package of `s`: the eight bytes of its length, then `s`, with a NUL behind it. A
reader of the length field and of as many bytes gets `s` back. -/
structure Encodes (b' : BufferT) (s : Bytes) : Prop extends b'.Packs s where
  nul : b'.buff[b'.writeIdx]? = some 0
  decoded : (b'.readable.drop headSize).take (leNat (b'.readable.take headSize)) = s

/-- A package with a NUL behind it can be read back, since its length fits into eight bytes. -/
theorem Packs.encodes {b' : BufferT} {s : Bytes} (h : b'.Packs s) (hs : s.length < 2 ^ 64)
    (hnul : b'.buff[b'.writeIdx]? = some 0) : b'.Encodes s := by
  have hhead : (leBytes headSize s.length).length = headSize := length_leBytes _ _
  refine ⟨h, hnul, ?_⟩
  rw [h.readable, frame, List.take_left' hhead, List.drop_left' hhead]
  rw [show leNat (leBytes headSize s.length) = s.length from leNat_leBytes_eight hs,
    List.take_length]

/-- The byte behind what was stored. -/
theorem getElem?_splice_nul {mem bs : Bytes} {i : ℕ} (h : i ≤ mem.length) :
    (splice mem i (bs ++ [0]))[i + bs.length]? = some 0 := by
  have hfront : (mem.take i ++ bs).length = i + bs.length := by
    rw [List.length_append, List.length_take_of_le h]
  rw [splice, ← List.append_assoc, List.append_assoc (mem.take i ++ bs), ← hfront]
  simp

/-- The package fits into the array as it is. -/
theorem writePackage_encodes (b : BufferT) (junk : ℕ → UInt8) {s : Bytes}
    (h : headSize + s.length < b.size) (hsize : b.size < 2 ^ 64) :
    ∃ b', b.writePackage junk s = .ok b' ∧ b'.Encodes s := by
  obtain ⟨b', hwrite, hpacks, -⟩ := b.writePackage_packs junk h
  refine ⟨b', hwrite, hpacks.encodes (by omega) ?_⟩
  obtain rfl := Except.ok.inj ((b.writePackage_fits junk h).symm.trans hwrite)
  have hframe : (frame headSize s).length = headSize + s.length := length_frame _ _
  have hnul : (splice b.buff 0 (frame headSize s ++ [0]))[0 + (frame headSize s).length]? =
      some 0 := getElem?_splice_nul (Nat.zero_le _)
  rwa [Nat.zero_add, hframe] at hnul

/-- What a `write` that extends the array leaves: the length field is truncated at its first
NUL. -/
structure Rewritten (b' : BufferT) (s : Bytes) : Prop where
  read : b'.readIdx = 0
  write : b'.writeIdx = headSize + s.length
  size : b'.size = headSize + s.length + 1
  nul : b'.buff[b'.writeIdx]? = some 0
  readable : b'.readable = truncated 0 (leBytes headSize s.length) ++ s

/-- The payload and its NUL fill the array that `extend` made behind a truncated length field. -/
theorem putBytes_rewritten {b : BufferT} {s : Bytes} (hread : b.readIdx = 0)
    (hwrite : b.writeIdx = headSize) (hsize : b.size = headSize + s.length + 1)
    (hfield : b.readable = truncated 0 (leBytes headSize s.length)) :
    ∃ b', b.putBytes s = .ok b' ∧ b'.Rewritten s := by
  have hbuff : b.buff.length = headSize + s.length + 1 := hsize
  have hfront : b.buff.take headSize = truncated 0 (leBytes headSize s.length) := by
    rw [← hfield, BufferT.readable, hread, List.drop_zero, hwrite]
  have hstore : headSize + (s ++ [0]).length ≤ b.buff.length := by
    rw [List.length_append, List.length_singleton]
    omega
  refine ⟨_, putBytes_fits (by omega), hread, ?_, ?_, ?_, ?_⟩
  · rw [← hwrite]
  · rw [size_mk, hwrite, length_splice hstore, hbuff]
  · exact getElem?_splice_nul (by omega)
  · -- the text and its NUL follow the truncated field
    have htake : (splice b.buff headSize (s ++ [0])).take (headSize + (s ++ [0]).length) =
        b.buff.take headSize ++ (s ++ [0]) := take_splice (by omega)
    have hprefix := congrArg (List.take (headSize + s.length)) htake
    have hpart : (b.buff.take headSize ++ s).length = headSize + s.length := by
      rw [List.length_append, List.length_take_of_le (by omega)]
    rw [List.take_take, min_eq_left (by rw [List.length_append]; omega), ← List.append_assoc,
      List.take_left' hpart] at hprefix
    rw [BufferT.readable, hread, List.drop_zero, hwrite, hprefix, hfront]

/-- **A package that extends the array**, when an array of its size can be had. -/
theorem writePackage_extends {b : BufferT} (junk : ℕ → UInt8) {s : Bytes}
    (hhead : headSize ≤ b.size) (hlong : 2 * (b.size - headSize) < s.length + 1) :
    (headSize + s.length + 1 < 2 ^ 63 ∧ ∃ b', b.writePackage junk s = .ok b' ∧ b'.Rewritten s) ∨
      (2 ^ 63 ≤ headSize + s.length + 1 ∧ ∃ e, b.writePackage junk s = .error e) := by
  have hlen : (leBytes headSize s.length).length = headSize := length_leBytes _ _
  obtain ⟨b₁, hput, hbuff, hread, hwrite, hsize⟩ := putHead_spec hhead s.length
  have hin : b₁.Ordered := ⟨by omega, by omega⟩
  have hfield : b₁.readable = leBytes headSize s.length := by
    rw [BufferT.readable, hread, hwrite, List.drop_zero, hbuff, splice_zero, List.take_left' hlen]
  have hroom : b₁.writeableSize = .ok (b.size - headSize) := by
    rw [hin.writeableSize, hsize, hwrite]
  have hnew : b₁.size + (s.length + 1 - (b.size - headSize)) = headSize + s.length + 1 := by omega
  have hcases := extend_cases hin junk (s.length + 1 - (b.size - headSize))
  have hrun : b.writePackage junk s =
      (b₁.extend junk (s.length + 1 - (b.size - headSize)) >>= fun b₂ => b₂.putBytes s) := by
    rw [writePackage, hput, ok_bind, hroom, ok_bind, if_pos (by omega)]
  rw [hrun]
  generalize b₁.extend junk (s.length + 1 - (b.size - headSize)) = x at hcases
  cases hcases with
  | enough henough => omega
  | throws hmore hbig =>
      rw [hnew] at hbig
      exact Or.inr ⟨by omega, _, rfl⟩
  | wraps hmore hover =>
      rw [hnew] at hover
      exact Or.inr ⟨by omega, _, rfl⟩
  | grows hmore hsmall hfit b₂ hgrown =>
      rw [hnew] at hsmall hfit hgrown
      have hwrite₂ : b₂.writeIdx = headSize := by rw [hgrown.write, hfield, hlen]
      rw [ok_bind]
      rcases Nat.lt_or_ge (headSize + s.length + 1) (2 ^ 63) with hlt | hge
      · refine Or.inl ⟨hlt, putBytes_rewritten hgrown.read hwrite₂ ?_ ?_⟩
        · rw [hgrown.size, Nat.mod_eq_of_lt (by omega)]
        · rw [hgrown.readable, hfield]
      · -- the sum has wrapped around
        refine Or.inr ⟨hge, _, putBytes_overflows ?_⟩
        rw [hgrown.size, hwrite₂]
        omega

/-! ## Reached buffers -/

/-- What happens to a buffer: its member functions, and the assignments of its owner to the
elements of `_buff` and to the indices (`recv`, the event handlers, the chunk loops). -/
inductive BufferOp
  | shrink
  | extend (n : ℕ)
  | ending
  | reset
  | writeStr (s : Bytes)
  | writeInt (n : ℕ)
  | assign (buff : Bytes) (readIdx writeIdx : ℕ)

/-- One operation; `junk` is what `new[]` leaves in an array that `extend` allocates. -/
def BufferOp.apply (junk : ℕ → UInt8) : BufferOp → BufferT → Except Halt BufferT
  | .shrink, b => b.shrink
  | .extend n, b => b.extend junk n
  | .ending, b => b.ending
  | .reset, b => .ok b.reset
  | .writeStr s, b => b.writeStr junk s
  | .writeInt n, b => b.writeInt junk n
  | .assign buff readIdx writeIdx, b =>
    if buff.length = b.size then .ok { buff, readIdx, writeIdx } else .error .outOfBounds

/-- The buffer is the result of some operations on a new one. -/
def Reached (b : BufferT) : Prop :=
  ∃ junk, ∃ ops : List (BufferOp × (ℕ → UInt8)),
    ops.foldlM (fun b op => op.1.apply op.2 b) (create junk) = .ok b

/-- The array never gets smaller, and its size is a `ptrdiff_t`. -/
structure Allocated (b : BufferT) : Prop where
  low : defaultBuffSize ≤ b.size
  high : b.size < 2 ^ 63

/-- An array that `new[]` gives is no larger than an object can be. -/
theorem length_newChars {junk : ℕ → UInt8} {n : ℕ} {mem : Bytes}
    (h : newChars junk n = .ok mem) : mem.length < 2 ^ 63 := by
  unfold newChars at h
  split_ifs at h with hn
  obtain rfl := Except.ok.inj h
  rwa [List.length_map, List.length_range]

/-- `shrink` keeps the array. -/
theorem size_shrink {b b' : BufferT} (h : b.shrink = .ok b') : b'.size = b.size := by
  unfold shrink at h
  obtain ⟨len, -, h⟩ := bind_eq_ok.mp h
  obtain ⟨buff, hstore, hret⟩ := bind_eq_ok.mp h
  obtain rfl := Except.ok.inj hret
  exact length_store hstore

/-- `ending` keeps the array. -/
theorem size_ending {b b' : BufferT} (h : b.ending = .ok b') : b'.size = b.size := by
  unfold ending at h
  obtain ⟨room, -, h⟩ := bind_eq_ok.mp h
  split_ifs at h
  · obtain ⟨buff, hstore, hret⟩ := bind_eq_ok.mp h
    obtain rfl := Except.ok.inj hret
    exact length_store hstore
  · exact congrArg size (Except.ok.inj h).symm

/-- Writing the header keeps the array. -/
theorem size_putHead {b b' : BufferT} {n : ℕ} (h : b.putHead n = .ok b') : b'.size = b.size := by
  unfold putHead at h
  obtain ⟨buff, hstore, hret⟩ := bind_eq_ok.mp h
  obtain rfl := Except.ok.inj hret
  exact length_store hstore

/-- Writing the payload keeps the array. -/
theorem size_putBytes {b b' : BufferT} {bs : Bytes} (h : b.putBytes bs = .ok b') :
    b'.size = b.size := by
  unfold putBytes at h
  obtain ⟨buff, hstore, h⟩ := bind_eq_ok.mp h
  obtain ⟨buff', hnul, hret⟩ := bind_eq_ok.mp h
  obtain rfl := Except.ok.inj hret
  exact (length_store hnul).trans (length_store hstore)

namespace Allocated

variable {b b' : BufferT} (h : b.Allocated)

include h

/-- It depends on the size alone. -/
theorem of_size (hsize : b'.size = b.size) : b'.Allocated :=
  ⟨hsize.symm ▸ h.low, hsize.symm ▸ h.high⟩

/-- `extend` allocates what `new[]` grants. -/
theorem extend {junk : ℕ → UInt8} {n : ℕ} (hext : b.extend junk n = .ok b') : b'.Allocated := by
  unfold BufferT.extend at hext
  obtain ⟨room, -, hext⟩ := bind_eq_ok.mp hext
  split_ifs at hext
  · obtain ⟨b₁, hshrink, hext⟩ := bind_eq_ok.mp hext
    obtain ⟨mem, hmem, hext⟩ := bind_eq_ok.mp hext
    obtain ⟨buff, hstore, hret⟩ := bind_eq_ok.mp hext
    obtain rfl := Except.ok.inj hret
    have hnew : buff.length < 2 ^ 63 := (length_store hstore).trans_lt (length_newChars hmem)
    -- the copy of the old array fits into the new one
    have hfit : b₁.size ≤ buff.length := by
      rw [store] at hstore
      split_ifs at hstore with hle
      obtain rfl := Except.ok.inj hstore
      rw [length_splice hle]
      rwa [← length_buff, strncpyBytes_self, length_truncated, Nat.zero_add] at hle
    have hlow := h.low
    have hsize := size_shrink hshrink
    exact ⟨by rw [size_mk]; omega, hnew⟩
  · obtain rfl := Except.ok.inj hext
    exact h

/-- `write` extends by what `new[]` grants. -/
theorem writePackage {junk : ℕ → UInt8} {p : Bytes} (hwrite : b.writePackage junk p = .ok b') :
    b'.Allocated := by
  unfold BufferT.writePackage at hwrite
  obtain ⟨b₁, hput, hwrite⟩ := bind_eq_ok.mp hwrite
  obtain ⟨room, -, hwrite⟩ := bind_eq_ok.mp hwrite
  have h₁ := h.of_size (size_putHead hput)
  dsimp only at hwrite
  split_ifs at hwrite
  · obtain ⟨b₂, hext, hbytes⟩ := bind_eq_ok.mp hwrite
    exact (h₁.extend hext).of_size (size_putBytes hbytes)
  · exact h₁.of_size (size_putBytes hwrite)

/-- **One operation.** -/
theorem apply {junk : ℕ → UInt8} {op : BufferOp} (hop : op.apply junk b = .ok b') :
    b'.Allocated := by
  cases op with
  | shrink => exact h.of_size (size_shrink hop)
  | extend n => exact h.extend hop
  | ending => exact h.of_size (size_ending hop)
  | reset =>
      obtain rfl : b.reset = b' := Except.ok.inj hop
      exact h.of_size rfl
  | writeStr s => exact h.writePackage hop
  | writeInt n => exact h.writePackage hop
  | assign buff readIdx writeIdx =>
      rw [BufferOp.apply] at hop
      split_ifs at hop with hlen
      obtain rfl := Except.ok.inj hop
      exact h.of_size hlen

end Allocated

/-- A new buffer is far below the limit. -/
theorem allocated_create (junk : ℕ → UInt8) : (create junk).Allocated :=
  ⟨(size_create junk).ge, by rw [size_create]; decide⟩

/-- **Every run of operations.** -/
theorem Reached.allocated {b : BufferT} (h : Reached b) : b.Allocated := by
  obtain ⟨junk, ops, hrun⟩ := h
  exact run_invariant (fun b op b' _ hb hop => hb.apply hop) ops _ _
    (fun _ _ => trivial) (allocated_create junk) hrun

/-- **Package encoding.** On every reached buffer `write` encodes `s` exactly when the package and
its NUL fit, or the array is extended (the package is more than twice the room), an array of its
size can be had and the length field has no NUL in front of another byte. -/
theorem writeStr_encodes_iff {b : BufferT} (hb : Reached b) (junk : ℕ → UInt8) (s : Bytes) :
    (∃ b', b.writeStr junk s = .ok b' ∧ b'.Encodes s) ↔
      headSize + s.length < b.size ∨
        (2 * (b.size - headSize) < s.length + 1 ∧ headSize + s.length + 1 < 2 ^ 63 ∧
          Padded 0 (leBytes headSize s.length)) := by
  obtain ⟨hlow, hhigh⟩ := hb.allocated
  have hhead : headSize ≤ b.size := le_trans (by decide) hlow
  have hroom : headSize < b.size := lt_of_lt_of_le (by decide) hlow
  show (∃ b', b.writePackage junk s = .ok b' ∧ b'.Encodes s) ↔ _
  rcases Nat.lt_or_ge (headSize + s.length) b.size with hfit | hover
  · exact iff_of_true (writePackage_encodes b junk hfit (by omega)) (Or.inl hfit)
  rcases Nat.lt_or_ge (2 * (b.size - headSize)) (s.length + 1) with hlong | hshort
  · rcases writePackage_extends junk hhead hlong with
      ⟨hlt, b', hwrite, hrew⟩ | ⟨hge, e, herr⟩
    · constructor
      · rintro ⟨b₁, hwrite', henc⟩
        obtain rfl := Except.ok.inj (hwrite.symm.trans hwrite')
        refine Or.inr ⟨hlong, hlt, ?_⟩
        have hsame : truncated 0 (leBytes headSize s.length) ++ s =
            leBytes headSize s.length ++ s :=
          hrew.readable.symm.trans henc.toPacks.readable
        exact truncated_eq_self_iff.mp (List.append_cancel_right hsame)
      · rintro (hfit | ⟨-, -, hpad⟩)
        · omega
        · refine ⟨b', hwrite, Packs.encodes ⟨hrew.read, hrew.write, ?_, ?_⟩ (by omega) hrew.nul⟩
          · rw [hrew.write, hrew.size]
            omega
          · have hread := hrew.readable
            rw [BufferT.readable, hrew.read, List.drop_zero] at hread
            rw [hread, truncated_eq_self_iff.mpr hpad, frame]
    · apply iff_of_false
      · rintro ⟨b', hwrite, -⟩
        cases herr.symm.trans hwrite
      · omega
  · apply iff_of_false
    · rintro ⟨b', hwrite, -⟩
      cases (writePackage_overflows b junk hhead hover hshort).symm.trans hwrite
    · omega

/-- A text that extends a new buffer, of a length without a zero byte. -/
theorem writeStr_encodes_long :
    ∃ b', (create fun _ => 0).writeStr (fun _ => 0) (List.replicate 2100 97) = .ok b' ∧
      b'.Encodes (List.replicate 2100 97) := by
  refine (writeStr_encodes_iff ⟨fun _ => 0, [], rfl⟩ _ _).mpr (Or.inr ⟨?_, ?_, ?_⟩)
  · rw [size_create, List.length_replicate]
    decide
  · rw [List.length_replicate]
    decide
  · rw [List.length_replicate]
    decide

/-- A text that fills a new buffer to the last byte: its NUL is stored behind the array. -/
theorem writeStr_overflow :
    Reached (create fun _ => 0) ∧ (0 : UInt8) ∉ List.replicate 1016 (97 : UInt8) ∧
      (create fun _ => 0).writeStr (fun _ => 0) (List.replicate 1016 97) = .error .outOfBounds ∧
      ¬∃ b', (create fun _ => 0).writeStr (fun _ => 0) (List.replicate 1016 97) = .ok b' ∧
        b'.Encodes (List.replicate 1016 97) := by
  have herr : (create fun _ => 0).writeStr (fun _ => 0) (List.replicate 1016 97) =
      .error .outOfBounds := by
    apply writePackage_overflows
    · rw [size_create]
      decide
    · rw [size_create, List.length_replicate]
      decide
    · rw [size_create, List.length_replicate]
      decide
  refine ⟨⟨fun _ => 0, [], rfl⟩, fun h0 => ?_, herr, ?_⟩
  · exact absurd (List.eq_of_mem_replicate h0) (by decide)
  rintro ⟨b', hwrite, -⟩
  cases herr.symm.trans hwrite

end BufferT

end AsprNet
