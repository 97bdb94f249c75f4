import AsprNet.Lib.Bytes
import AsprNet.Lib.Runs

/-! # What the program stands on

Memory, streams and files as the C library and the kernel present them. A call that leaves the
defined behaviour of the source, or that never returns, ends in a `Halt`. What the environment
decides (how much a `read(2)` returns, what uninitialised memory holds) is read from scripts in
the state, so that a theorem about every script is a theorem about every environment. A script
that is used up goes on with the plain outcome: full reads and writes, zeros in memory.

Memory does not run out: `new` gives every object whose size is a `ptrdiff_t`.
-/

namespace AsprNet

/-- Why a computation does not return: undefined behaviour, a failed assertion, an exception, or
waiting. -/
inductive Halt
  /-- An array is accessed outside its bounds. -/
  | outOfBounds
  /-- An `assert` fails. -/
  | assertion
  /-- A null `FILE*`, handler or object pointer is used. -/
  | nullPointer
  /-- `argv(i)` with `i ≥ argc()`. -/
  | noArgument
  /-- A pointer to a destroyed object, or to an object of another type, is used. -/
  | badPointer
  /-- A descriptor that is not open is used. -/
  | badDescriptor
  /-- `new[]` throws: the array is larger than any object can be. -/
  | badAlloc
  /-- A blocking `read(2)` has nothing left to return. -/
  | blocked
  /-- A loop does not end within the steps granted to it. -/
  | outOfFuel
deriving DecidableEq, Repr

/-- Store `bs` into an array from index `i` on. -/
def store (mem : Bytes) (i : ℕ) (bs : Bytes) : Except Halt Bytes :=
  if i + bs.length ≤ mem.length then .ok (splice mem i bs) else .error .outOfBounds

/-- A store inside the array. -/
theorem store_of_le {mem : Bytes} {i : ℕ} {bs : Bytes} (h : i + bs.length ≤ mem.length) :
    store mem i bs = .ok (splice mem i bs) := if_pos h

/-- A store that would run over the end. -/
theorem store_of_lt {mem : Bytes} {i : ℕ} {bs : Bytes} (h : mem.length < i + bs.length) :
    store mem i bs = .error .outOfBounds := if_neg (by omega)

/-- A text and its NUL fit when the text is shorter than the array. -/
theorem length_splice_nul {mem bs : Bytes} (h : bs.length < mem.length) :
    (splice mem 0 (bs ++ [0])).length = mem.length := by
  rw [length_splice]
  rw [List.length_append, List.length_singleton]
  omega

/-- Storing bytes at the front of an array and a NUL behind them is one store, when the NUL is
inside the array, and leaves the array otherwise. -/
theorem store_nul {β : Type} (mem bs : Bytes) (f : Bytes → Except Halt β) :
    (store mem 0 bs >>= fun mem => store mem bs.length [0] >>= f) =
      if bs.length < mem.length then f (splice mem 0 (bs ++ [0])) else .error .outOfBounds := by
  by_cases hlt : bs.length < mem.length
  · have hfit : 0 + bs.length ≤ mem.length := by omega
    have hnul : bs.length + [(0 : UInt8)].length ≤ (splice mem 0 bs).length := by
      rw [length_splice hfit]
      exact hlt
    have hjoin : splice (splice mem 0 bs) (0 + bs.length) [0] = splice mem 0 (bs ++ [0]) :=
      splice_splice (by rw [List.length_singleton]; omega)
    rw [Nat.zero_add] at hjoin
    rw [store_of_le hfit, ok_bind, store_of_le hnul, ok_bind, if_pos hlt, hjoin]
  · rw [if_neg hlt]
    rcases Nat.lt_or_ge mem.length bs.length with hover | hge
    · rw [store_of_lt (by omega), error_bind]
    · have hfit : 0 + bs.length ≤ mem.length := by omega
      rw [store_of_le hfit, ok_bind, store_of_lt, error_bind]
      rw [length_splice hfit, List.length_singleton]
      omega

/-- A `size_t` that receives a signed value. -/
def sizeT (n : ℤ) : ℕ := (n % 2 ^ 64).toNat

/-- An `int` that receives a wider value. -/
def int32 (n : ℤ) : ℤ := Int.bmod n (2 ^ 32)

/-- A number of 64 bits is its own `size_t`. -/
theorem sizeT_natCast {n : ℕ} (h : n < 2 ^ 64) : sizeT n = n := by
  simp only [sizeT]
  omega

/-- A number below `2 ^ 31` is its own `int`. -/
theorem int32_natCast {n : ℕ} (h : n < 2 ^ 31) : int32 n = n := by
  rw [int32, Int.bmod_eq_of_le_mul_two] <;> omega

/-- An `int` is in its range. -/
theorem int32_range (n : ℤ) : -2 ^ 31 ≤ int32 n ∧ int32 n < 2 ^ 31 := by
  have hlow : -((2 ^ 32 : ℕ) / 2 : ℤ) ≤ Int.bmod n (2 ^ 32) := Int.le_bmod (by decide)
  have hhigh : Int.bmod n (2 ^ 32) < ((2 ^ 32 : ℕ) + 1) / 2 := Int.bmod_lt (by decide)
  rw [int32]
  omega

/-! ## Streams -/

/-- The result of one `read(2)`: as much as was asked for (or all that is to come), at most `k`
bytes but at least one, end of stream, or `-1`. -/
inductive ReadOutcome
  | full
  | upTo (k : ℕ)
  | eof
  | err
deriving DecidableEq, Repr

/-- The result of one `write(2)`: everything is accepted, at most `k` bytes are (`k = 0` is the
result `0`), or `-1`. -/
inductive WriteOutcome
  | full
  | upTo (k : ℕ)
  | err
deriving DecidableEq, Repr

section Scripts

variable {α : Type*} {P : α → Prop} {os : List α} {n : ℕ}

/-- What holds of the next results of a script, and of those behind it, holds of the next one. -/
theorem headD_of_take {d : α} (hd : P d) (h : ∀ o ∈ os.take (n + 1), P o) : P (os.headD d) := by
  cases os with
  | nil => exact hd
  | cons o os => exact h o (by simp)

/-- When one result was used, the others are still to come. -/
theorem tail_of_take (h : ∀ o ∈ os.take (n + 1), P o) : ∀ o ∈ os.tail.take n, P o := by
  cases os with
  | nil => simp
  | cons o os => exact fun o' ho' => h o' (List.mem_cons_of_mem _ ho')

end Scripts

/-- The first of some whole reads is whole. -/
theorem full_headD {os : List ReadOutcome} {n : ℕ} (h : ∀ o ∈ os.take (n + 1), o = .full) :
    os.headD .full = .full :=
  headD_of_take (P := fun o => o = ReadOutcome.full) rfl h

/-- A connected stream socket as one process sees it. -/
structure Sock where
  /-- The bytes of the peer that have not been read, those still to come included. -/
  inbox : Bytes := []
  /-- The bytes accepted by `write(2)`. -/
  outbox : Bytes := []
  /-- What the coming direct calls of `read(2)` return. -/
  reads : List ReadOutcome := []
  /-- What the coming calls of `read(2)` inside `anetRead` return. -/
  anetReads : List ReadOutcome := []
  /-- What the coming calls of `write(2)` return. -/
  writes : List WriteOutcome := []
  /-- What the coming local variables `_head` hold before they are filled. -/
  heads : List ℕ := []

namespace Sock

/-- At most `m` bytes of the inbox; `read(2)` blocks while there are none. -/
def fetch (s : Sock) (m : ℕ) : Except Halt (Option Bytes × Sock) :=
  if m = 0 then .ok (some [], s)
  else if s.inbox = [] then .error .blocked
  else .ok (some (s.inbox.take m), { s with inbox := s.inbox.drop m })

/-- One `read(2)` of at most `n` bytes whose outcome is `o`; the result `none` is `-1`. -/
def deliver (s : Sock) (o : ReadOutcome) (n : ℕ) : Except Halt (Option Bytes × Sock) :=
  match o with
  | .full => s.fetch n
  | .upTo k => s.fetch (min n (max 1 k))
  | .eof => .ok (some [], s)
  | .err => .ok (none, s)

/-- `read(_fd, _, n)` called directly. -/
def read (s : Sock) (n : ℕ) : Except Halt (Option Bytes × Sock) :=
  { s with reads := s.reads.tail }.deliver (s.reads.headD .full) n

/-- `read(fd, _, n)` called from `anetRead`. -/
def anetReadCall (s : Sock) (n : ℕ) : Except Halt (Option Bytes × Sock) :=
  { s with anetReads := s.anetReads.tail }.deliver (s.anetReads.headD .full) n

/-- `write(fd, bs, |bs|)`: the number of bytes accepted, `none` for `-1`. -/
def write (s : Sock) (bs : Bytes) : Option ℕ × Sock :=
  let s' := { s with writes := s.writes.tail }
  match s.writes.headD .full with
  | .full => (some bs.length, { s' with outbox := s'.outbox ++ bs })
  | .upTo k => (some (min k bs.length), { s' with outbox := s'.outbox ++ bs.take k })
  | .err => (none, s')

/-- The eight bytes found in a fresh `package_head_t`. -/
def freshHead (s : Sock) : Bytes × Sock :=
  (leBytes 8 (s.heads.headD 0), { s with heads := s.heads.tail })

end Sock

/-- The outcome delivers data: neither end of stream nor an error. -/
def ReadOutcome.IsData (o : ReadOutcome) : Prop := o ≠ .eof ∧ o ≠ .err

/-- The number of bytes a `read(2)` of at most `n` bytes brings when `avail` bytes are to come, or
`none` for `-1`. -/
def ReadOutcome.incoming (o : ReadOutcome) (n avail : ℕ) : Option ℕ :=
  match o with
  | .full => some (min n avail)
  | .upTo k => some (min (min n (max 1 k)) avail)
  | .eof => some 0
  | .err => none

/-- A `read(2)` for data takes a non-empty piece off the front of the inbox. -/
theorem Sock.deliver_data (s : Sock) {o : ReadOutcome} (ho : o.IsData) {n : ℕ} (hn : 0 < n)
    (hin : s.inbox ≠ []) :
    ∃ m, 0 < m ∧ m ≤ n ∧ m ≤ s.inbox.length ∧ o.incoming n s.inbox.length = some m ∧
      s.deliver o n = .ok (some (s.inbox.take m), { s with inbox := s.inbox.drop m }) := by
  have hlen : 0 < s.inbox.length := List.length_pos_iff.mpr hin
  -- a fetch is cut at the end of the inbox
  have hfetch : ∀ k, 0 < k → s.fetch k = .ok (some (s.inbox.take (min k s.inbox.length)),
      { s with inbox := s.inbox.drop (min k s.inbox.length) }) := by
    intro k hk
    rw [Sock.fetch, if_neg hk.ne', if_neg hin, ← List.take_eq_take_min, ← List.drop_eq_drop_min]
  cases o with
  | full => exact ⟨_, by omega, by omega, by omega, rfl, hfetch n hn⟩
  | upTo k =>
      exact ⟨_, by omega, by omega, by omega, rfl, hfetch (min n (max 1 k)) (by omega)⟩
  | eof => exact absurd rfl ho.1
  | err => exact absurd rfl ho.2

/-- A `read(2)` for data waits while there are none. -/
theorem Sock.deliver_blocked {s : Sock} {o : ReadOutcome} (ho : o.IsData) {n : ℕ} (hn : 0 < n)
    (hin : s.inbox = []) : s.deliver o n = .error .blocked := by
  cases o with
  | full => simp [deliver, fetch, hin, hn.ne']
  | upTo k => simp [deliver, fetch, hin, show min n (max 1 k) ≠ 0 by omega]
  | eof => exact absurd rfl ho.1
  | err => exact absurd rfl ho.2

/-- A `read(2)` of no bytes returns at once. -/
theorem Sock.deliver_zero (s : Sock) {o : ReadOutcome} (ho : o.IsData) :
    s.deliver o 0 = .ok (some [], s) := by
  cases o with
  | full => rfl
  | upTo k => simp [deliver, fetch]
  | eof => rfl
  | err => exact absurd rfl ho.2

/-- What the next direct `read(2)` of at most `n` bytes brings. -/
def Sock.coming (s : Sock) (n : ℕ) : Option ℕ :=
  (s.reads.headD .full).incoming n s.inbox.length

/-- A direct `read(2)` waits, fails, or returns what comes. -/
theorem Sock.read_cases (s : Sock) (n : ℕ) :
    (s.read n = .error .blocked ∧ s.coming n = some 0) ∨
      (∃ s', s.read n = .ok (none, s') ∧ s.coming n = none) ∨
      ∃ bs s', s.read n = .ok (some bs, s') ∧ s.coming n = some bs.length := by
  rw [Sock.read, Sock.coming]
  by_cases heof : s.reads.headD .full = .eof
  · rw [heof]
    exact Or.inr (Or.inr ⟨[], _, rfl, rfl⟩)
  by_cases herr : s.reads.headD .full = .err
  · rw [herr]
    exact Or.inr (Or.inl ⟨_, rfl, rfl⟩)
  have ho : (s.reads.headD .full).IsData := ⟨heof, herr⟩
  rcases Nat.eq_zero_or_pos n with rfl | hn
  · refine Or.inr (Or.inr ⟨[], _, deliver_zero _ ho, ?_⟩)
    cases h : s.reads.headD .full <;> simp_all [ReadOutcome.incoming]
  by_cases hin : s.inbox = []
  · refine Or.inl ⟨deliver_blocked (s := { s with reads := s.reads.tail }) ho hn hin, ?_⟩
    cases h : s.reads.headD .full <;> simp_all [ReadOutcome.incoming]
  · obtain ⟨m, -, -, hm, hinc, hread⟩ :=
      deliver_data { s with reads := s.reads.tail } ho hn hin
    refine Or.inr (Or.inr ⟨_, _, hread, ?_⟩)
    have hm : m ≤ s.inbox.length := hm
    rw [hinc, List.length_take, min_eq_left hm]

/-- What `read(2)` returned: a number of bytes, or `-1`. -/
def readResult : Option Bytes → ℤ
  | none => -1
  | some bs => bs.length

/-- A variable after `read(2)` stored into it from its first byte on. -/
def filled (var : Bytes) (got : Option Bytes) : Bytes := splice var 0 (got.getD [])

/-! ## Files -/

/-- How reading a file ends: at its end, or in an error that persists. -/
inductive FileEnd
  | eof
  | error
deriving DecidableEq, Repr

/-- What reading a file from its start delivers. -/
structure FileData where
  bytes : Bytes
  ending : FileEnd := .eof
deriving DecidableEq, Repr

/-- A `FILE*` opened for reading: the data ahead and the two indicators. -/
structure InFile where
  rest : Bytes
  ending : FileEnd
  eof : Bool := false
  error : Bool := false
deriving DecidableEq, Repr

/-- `fread(_, 1, n, f)`: the bytes read. A short count sets the indicator of the file's ending. -/
def InFile.fread (f : InFile) (n : ℕ) : Bytes × InFile :=
  if f.rest.length < n then
    (f.rest, { f with rest := [], eof := f.eof || f.ending == .eof,
                      error := f.error || f.ending == .error })
  else (f.rest.take n, { f with rest := f.rest.drop n })

/-- A file system, as far as the program asks. -/
structure Files where
  /-- What a name opens for reading; `none` where `fopen(_, "r")` fails. -/
  data : Bytes → Option FileData
  /-- Whether `fopen(_, "w+")` of a name succeeds. -/
  canWrite : Bytes → Bool

namespace Files

/-- A file system without files, where every file can be created. -/
def empty : Files := { data := fun _ => none, canWrite := fun _ => true }

/-- `fopen(name, "r")`. -/
def fopenRead (fs : Files) (name : Bytes) : Option InFile :=
  (fs.data name).map fun d => { rest := d.bytes, ending := d.ending }

/-- Make `bytes` the contents of the file `name`. -/
def put (fs : Files) (name bytes : Bytes) : Files :=
  { fs with data := Function.update fs.data name (some { bytes }) }

/-- `fopen(name, "w+")`: the file is created or emptied. The handle is the name. -/
def fopenWrite (fs : Files) (name : Bytes) : Option Bytes × Files :=
  if fs.canWrite name then (some name, fs.put name []) else (none, fs)

/-- The bytes of the file `name`. -/
def bytes (fs : Files) (name : Bytes) : Bytes := ((fs.data name).map FileData.bytes).getD []

/-- `fwrite(bs, |bs|, 1, f)` on a file opened for writing. -/
def fwrite (fs : Files) (f : Option Bytes) (bs : Bytes) : Except Halt Files :=
  match f with
  | none => .error .nullPointer
  | some name => .ok (fs.put name (fs.bytes name ++ bs))

/-- `fclose`, `feof` and `fread` need a handle. -/
def handle {α : Type} : Option α → Except Halt α
  | none => .error .nullPointer
  | some f => .ok f

@[simp] theorem bytes_put_self (fs : Files) (name bs : Bytes) :
    (fs.put name bs).bytes name = bs := by
  simp [bytes, put]

@[simp] theorem data_put_self (fs : Files) (name bs : Bytes) :
    (fs.put name bs).data name = some { bytes := bs } := by
  simp [put]

@[simp] theorem put_put (fs : Files) (name bs cs : Bytes) :
    (fs.put name bs).put name cs = fs.put name cs := by
  simp [put]

end Files

/-- What a function that talks to one peer can reach: the connection, the files, fresh memory. -/
structure Io where
  sock : Sock
  files : Files
  /-- What the coming arrays from `new[]` hold. -/
  junk : ℕ → ℕ → UInt8 := fun _ _ => 0

/-- The state after `n` arrays were allocated. -/
def Io.allocated (io : Io) (n : ℕ) : Io := { io with junk := fun i => io.junk (i + n) }

end AsprNet
