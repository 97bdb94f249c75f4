import AsprNet.Kernel
import AsprNet.Lib.Chunks

/-! # `buffer_t`

Reference: `buffer.hpp`, `buffer.cpp`, `package.hpp`.

A buffer is an array with a read and a write index. `BufferT.Packs b p` says that `b` holds the
package of payload `p` and nothing else to read: what `write` and the chunk loops build.
-/

namespace AsprNet

/-- `DEFAULT_BUFF_SIZE`. -/
def defaultBuffSize : ℕ := 1024

/-- `sizeof(package_head_t)`. -/
def headSize : ℕ := 8

/-- The array `_buff` with its two indices; `_size` is the length of the array. -/
structure BufferT where
  buff : Bytes
  readIdx : ℕ := 0
  writeIdx : ℕ := 0
deriving DecidableEq, Repr

namespace BufferT

/-- `_size`. -/
def size (b : BufferT) : ℕ := b.buff.length

@[simp] theorem size_mk (buff : Bytes) (r w : ℕ) : (BufferT.mk buff r w).size = buff.length := rfl

theorem length_buff (b : BufferT) : b.buff.length = b.size := rfl

/-- The constructor: `new[]` leaves `junk` in the array. -/
def create (junk : ℕ → UInt8) : BufferT := { buff := (List.range defaultBuffSize).map junk }

/-- `readable_size` and `writeable_size` share their two assertions. -/
def checked (b : BufferT) (n : ℕ) : Except Halt ℕ :=
  if b.writeIdx ≤ b.size ∧ b.readIdx ≤ b.writeIdx then .ok n else .error .assertion

/-- With the two indices in order the assertion holds. -/
theorem checked_of_le {b : BufferT} (hw : b.writeIdx ≤ b.size) (hr : b.readIdx ≤ b.writeIdx)
    (n : ℕ) : b.checked n = .ok n := if_pos ⟨hw, hr⟩

def readableSize (b : BufferT) : Except Halt ℕ := b.checked (b.writeIdx - b.readIdx)

def writeableSize (b : BufferT) : Except Halt ℕ := b.checked (b.size - b.writeIdx)

/-- Move the readable part to the front. -/
def shrink (b : BufferT) : Except Halt BufferT := do
  let len ← b.readableSize
  let buff ← store b.buff 0 ((b.buff.drop b.readIdx).take len)
  return { buff, readIdx := 0, writeIdx := len }

/-- The `n` bytes `strncpy(_, src, n)` stores: a copy up to the first NUL, then zeros. -/
def strncpyBytes (src : Bytes) (n : ℕ) : Bytes :=
  let str := (src.take n).takeWhile (· ≠ 0)
  str ++ List.replicate (n - str.length) 0

/-- `new char[n]`, which leaves `junk` in the array. It throws when `n` is not a `ptrdiff_t`. -/
def newChars (junk : ℕ → UInt8) (n : ℕ) : Except Halt Bytes :=
  if n < 2 ^ 63 then .ok ((List.range n).map junk) else .error .badAlloc

/-- Make room for `extSize` bytes. The sum of the sizes is a `size_t`. -/
def extend (b : BufferT) (junk : ℕ → UInt8) (extSize : ℕ) : Except Halt BufferT := do
  if (← b.writeableSize) < extSize then
    let b ← b.shrink
    let buff ← newChars junk ((b.size + extSize) % 2 ^ 64)
    let buff ← store buff 0 (strncpyBytes b.buff b.size)
    return { b with buff }
  else
    return b

def ending (b : BufferT) : Except Halt BufferT := do
  if (← b.writeableSize) ≠ 0 then
    let buff ← store b.buff b.writeIdx [0]
    return { b with buff }
  else
    return b

def reset (b : BufferT) : BufferT := { b with readIdx := 0, writeIdx := 0 }

/-- `reset()`, then the length field of a package and `_write_idx` behind it. -/
def putHead (b : BufferT) (length : ℕ) : Except Halt BufferT := do
  let b := b.reset
  let buff ← store b.buff 0 (leBytes headSize length)
  return { b with buff, writeIdx := b.writeIdx + headSize }

/-- Bytes stored at `_write_idx`, `_write_idx` moved behind them, and a NUL there. -/
def putBytes (b : BufferT) (bs : Bytes) : Except Halt BufferT := do
  let buff ← store b.buff b.writeIdx bs
  let b := { b with buff, writeIdx := b.writeIdx + bs.length }
  let buff ← store b.buff b.writeIdx [0]
  return { b with buff }

/-- The common body of the two `write`s. The payload is stored at `_write_idx`, which is
`sizeof(package_head_t)` then. -/
def writePackage (b : BufferT) (junk : ℕ → UInt8) (payload : Bytes) : Except Halt BufferT := do
  let b ← b.putHead payload.length
  let room ← b.writeableSize
  let b ← if payload.length + 1 > room then b.extend junk (payload.length + 1 - room) else pure b
  b.putBytes payload

/-- `write(const char*)` of a C string. -/
def writeStr (b : BufferT) (junk : ℕ → UInt8) (s : Bytes) : Except Halt BufferT :=
  b.writePackage junk s

/-- `write(size_t)`. -/
def writeInt (b : BufferT) (junk : ℕ → UInt8) (n : ℕ) : Except Halt BufferT :=
  b.writePackage junk (leBytes 8 n)

/-- `package_size`, converted back to the `size_t` that `fread` receives. -/
def packageSize (b : BufferT) : ℕ := b.size - headSize - 1

/-- The bytes between the two indices. -/
def readable (b : BufferT) : Bytes := (b.buff.take b.writeIdx).drop b.readIdx

/-! ## Buffers that can be sent -/

/-- `_read_idx <= _write_idx <= _size`. -/
structure Ordered (b : BufferT) : Prop where
  read : b.readIdx ≤ b.writeIdx
  write : b.writeIdx ≤ b.size

namespace Ordered

variable {b : BufferT} (h : b.Ordered)

include h

/-- `readable_size` returns the bytes between the two indices. -/
theorem readableSize : b.readableSize = .ok (b.writeIdx - b.readIdx) :=
  checked_of_le h.write h.read _

/-- `writeable_size` returns the bytes behind `_write_idx`. -/
theorem writeableSize : b.writeableSize = .ok (b.size - b.writeIdx) :=
  checked_of_le h.write h.read _

/-- As many bytes can be read as `readable_size` says. -/
theorem length_readable : b.readable.length = b.writeIdx - b.readIdx := by
  rw [BufferT.readable, List.length_drop, List.length_take, length_buff, min_eq_left h.write]

end Ordered

/-- The two indices are in order and in range, and the size is an `int`. -/
structure Sound (b : BufferT) : Prop where
  read : b.readIdx ≤ b.writeIdx
  write : b.writeIdx ≤ b.size
  int : b.size < 2 ^ 31

/-- A buffer of which nothing was taken yet. -/
structure Unsent (b : BufferT) : Prop extends b.Sound where
  first : b.readIdx = 0

namespace Sound

variable {b : BufferT} (h : b.Sound)

include h

/-- A sound buffer has its indices in order. -/
theorem ordered : b.Ordered :=
  ⟨h.read, h.write⟩

/-- `readable_size` of a sound buffer. -/
theorem readableSize : b.readableSize = .ok (b.writeIdx - b.readIdx) :=
  h.ordered.readableSize

/-- As many bytes can be read as `readable_size` says. -/
theorem length_readable : b.readable.length = b.writeIdx - b.readIdx :=
  h.ordered.length_readable

end Sound

/-- All bytes up to `_write_idx` are still to be sent. -/
theorem Unsent.readable {b : BufferT} (h : b.Unsent) : b.readable = b.buff.take b.writeIdx := by
  rw [BufferT.readable, h.first, List.drop_zero]

/-! ## Buffers that hold one package -/

/-- The buffer holds exactly the package of `payload`, and a NUL fits behind it. -/
structure Packs (b : BufferT) (payload : Bytes) : Prop where
  read : b.readIdx = 0
  write : b.writeIdx = headSize + payload.length
  room : b.writeIdx < b.size
  contents : b.buff.take b.writeIdx = frame headSize payload

namespace Packs

variable {b : BufferT} {p : Bytes}

/-- What is to be sent of a package is its frame. -/
theorem readable (h : b.Packs p) : b.readable = frame headSize p := by
  rw [BufferT.readable, h.read, h.contents, List.drop_zero]

/-- Of a package that was just written nothing is taken yet. -/
theorem unsent (h : b.Packs p) (hsize : b.size < 2 ^ 31) : b.Unsent :=
  ⟨⟨by rw [h.read]; exact Nat.zero_le _, h.room.le, hsize⟩, h.read⟩

end Packs

/-- The length field at the front of the array. -/
theorem putHead_spec {b : BufferT} (h : headSize ≤ b.size) (n : ℕ) :
    ∃ b₁, b.putHead n = .ok b₁ ∧ b₁.buff = splice b.buff 0 (leBytes headSize n) ∧
      b₁.readIdx = 0 ∧ b₁.writeIdx = headSize ∧ b₁.size = b.size := by
  have hlen : 0 + (leBytes headSize n).length ≤ b.buff.length := by
    rw [length_leBytes, length_buff]
    omega
  refine ⟨⟨splice b.buff 0 (leBytes headSize n), 0, headSize⟩, ?_, rfl, rfl, rfl,
    length_splice hlen⟩
  rw [putHead]
  simp only [reset, Nat.zero_add, store_of_le hlen, ok_bind]
  rfl

/-- Bytes and the NUL behind them are one store, when there is room for it. -/
theorem putBytes_fits {b : BufferT} {bs : Bytes} (h : b.writeIdx + bs.length < b.size) :
    b.putBytes bs =
      .ok { b with buff := splice b.buff b.writeIdx (bs ++ [0]),
                   writeIdx := b.writeIdx + bs.length } := by
  have hlen : b.writeIdx + bs.length + [(0 : UInt8)].length ≤ b.buff.length := h
  have hbs : b.writeIdx + bs.length ≤ b.buff.length := by omega
  have hnul : b.writeIdx + bs.length + [(0 : UInt8)].length ≤
      (splice b.buff b.writeIdx bs).length := by
    rw [length_splice hbs]
    exact hlen
  rw [putBytes, store_of_le hbs, ok_bind]
  dsimp only
  rw [store_of_le hnul, ok_bind, splice_splice hlen]
  rfl

/-- Otherwise one of the two stores leaves the array. -/
theorem putBytes_overflows {b : BufferT} {bs : Bytes} (h : b.size ≤ b.writeIdx + bs.length) :
    b.putBytes bs = .error .outOfBounds := by
  rw [putBytes]
  rcases Nat.lt_or_ge b.buff.length (b.writeIdx + bs.length) with hlt | hge
  · rw [store_of_lt hlt, error_bind]
  · have hnul : (splice b.buff b.writeIdx bs).length <
        b.writeIdx + bs.length + [(0 : UInt8)].length := by
      rw [length_splice hge]
      exact Nat.lt_succ_of_le h
    rw [store_of_le hge, ok_bind]
    dsimp only
    rw [store_of_lt hnul, error_bind]

/-- **What `write` produces when the package fits**: the package, at the front of the array. -/
theorem writePackage_fits (b : BufferT) (junk : ℕ → UInt8) {p : Bytes}
    (h : headSize + p.length < b.size) :
    b.writePackage junk p = .ok
      { buff := splice b.buff 0 (frame headSize p ++ [0]), readIdx := 0,
        writeIdx := headSize + p.length } := by
  have hhead : (leBytes headSize p.length).length = headSize := length_leBytes _ _
  obtain ⟨b₁, hput, hbuff, hread, hwrite, hsize⟩ :=
    putHead_spec (show headSize ≤ b.size by omega) p.length
  have hroom : b₁.writeableSize = .ok (b.size - headSize) := by
    rw [writeableSize, checked_of_le (by omega) (by omega), hsize, hwrite]
  -- the store of the payload starts where the length field ends
  have hjoin : splice b₁.buff headSize (p ++ [0]) = splice b.buff 0 (frame headSize p ++ [0]) := by
    have hfit : 0 + (leBytes headSize p.length).length + (p ++ [0]).length ≤ b.buff.length := by
      rw [hhead, length_buff, List.length_append, List.length_singleton]
      omega
    rw [frame, List.append_assoc, ← splice_splice hfit, hbuff, hhead, Nat.zero_add]
  rw [writePackage, hput, ok_bind, hroom, ok_bind, if_neg (by omega), pure_bind]
  show b₁.putBytes p = _
  rw [putBytes_fits (by omega), hwrite, hread, hjoin]

/-- A package built by `write` within the size of the array. -/
theorem writePackage_packs (b : BufferT) (junk : ℕ → UInt8) {p : Bytes}
    (h : headSize + p.length < b.size) :
    ∃ b', b.writePackage junk p = .ok b' ∧ b'.Packs p ∧ b'.size = b.size := by
  have hframe : (frame headSize p).length = headSize + p.length := length_frame _ _
  have hlen : (splice b.buff 0 (frame headSize p ++ [0])).length = b.size := by
    rw [length_splice, length_buff]
    rw [length_buff, List.length_append, List.length_singleton, hframe]
    omega
  refine ⟨_, writePackage_fits b junk h, ⟨rfl, rfl, ?_, ?_⟩, hlen⟩
  · rw [size_mk, hlen]
    exact h
  · rw [splice_zero, List.append_assoc, List.take_left' hframe]

/-- **The gap in `write`.** When the package does not fit but the missing room does not exceed the
free room, `extend` does nothing and the payload is stored over the end of the array. -/
theorem writePackage_overflows (b : BufferT) (junk : ℕ → UInt8) {p : Bytes}
    (hhead : headSize ≤ b.size) (hlong : b.size ≤ headSize + p.length)
    (hshort : p.length + 1 ≤ 2 * (b.size - headSize)) :
    b.writePackage junk p = .error .outOfBounds := by
  obtain ⟨b₁, hput, -, hread, hwrite, hsize⟩ := putHead_spec hhead p.length
  have hroom : b₁.writeableSize = .ok (b.size - headSize) := by
    rw [writeableSize, checked_of_le (by omega) (by omega), hsize, hwrite]
  have hext : b₁.extend junk (p.length + 1 - (b.size - headSize)) = .ok b₁ := by
    rw [extend, hroom, ok_bind, if_neg (by omega)]
    rfl
  rw [writePackage, hput, ok_bind, hroom, ok_bind, if_pos (by omega), hext, ok_bind]
  exact putBytes_overflows (by omega)

end BufferT

/-- A new buffer has the default size. -/
theorem size_create (junk : ℕ → UInt8) : (BufferT.create junk).size = defaultBuffSize := by
  simp [BufferT.create]

end AsprNet
