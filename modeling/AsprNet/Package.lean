import AsprNet.Anet
import AsprNet.Buffer

/-! # Files as packages

Both ends turn a file into packages with the same loop (`client_t::file_send`,
`command::file_recv_command`), send a `_buffer_list` with the same loop
(`client_t::flush_2_server`, `write_event_handler`), read a number with the same function
(`recv_integer`) and write the chunks they receive with the same loop (`client_t::file_recv`,
`command::file_send_command`), each with its own `recv`.
-/

namespace AsprNet

/-- The data bytes of a full chunk: what `package_size()` of a fresh buffer is. -/
def chunkSize : ℕ := 1015

/-- `fwrite`-free part of the loop body: a fresh buffer with the next chunk of the file. -/
def readChunk (junk : ℕ → UInt8) (f : InFile) : Except Halt (BufferT × InFile) := do
  let b := BufferT.create junk
  let (bs, f) := f.fread b.packageSize
  let buff ← store b.buff headSize bs
  let buff ← store buff 0 (leBytes headSize bs.length)
  let buff ← store buff (bs.length + headSize) [0]
  return ({ b with buff, writeIdx := bs.length + headSize }, f)

/-- The loop `while (!feof(_input_file))` that pushes chunks on `_buffer_list`; chunk `i` finds
`junk i` in its fresh array. -/
def readChunks (junk : ℕ → ℕ → UInt8) :
    ℕ → ℕ → Option InFile → Except Halt (List BufferT × Option InFile)
  | 0, _, _ => .error .outOfFuel
  | fuel + 1, i, file => do
    let f ← Files.handle file
    if f.eof then return ([], file)
    else
      let (b, f) ← readChunk (junk i) f
      let (bs, file) ← readChunks junk fuel (i + 1) (some f)
      return (b :: bs, file)

/-- The rounds that suffice for a file whose reading ends at its end; a file whose reading ends in
an error needs more than any number of rounds. -/
def chunkRounds (file : Option InFile) : ℕ :=
  (file.map fun f => f.rest.length / chunkSize + 2).getD 1

/-- A file as packages: the number of chunks, then the chunks. -/
def filePackages (content : Bytes) : List Bytes :=
  leBytes 8 (content.length / chunkSize + 1) :: chunks chunkSize content

/-- The loop over `_buffer_list` that sends each buffer, with the sum of the results. -/
def sendBuffers : Sock → List BufferT → Except Halt (ℤ × Sock)
  | s, [] => .ok (0, s)
  | s, b :: bs => do
    let n ← b.readableSize
    let (r, s) ← anetWrite s b.buff (int32 n)
    let (rs, s) ← sendBuffers s bs
    return (r + rs, s)

/-- `package_head_t _head; read(_fd, &_head, sizeof(package_head_t))`: what the call returned, and
`_head._length` behind it. -/
def Sock.readHead (s : Sock) : Except Halt (Option Bytes × ℕ × Sock) := do
  let (head, s) := s.freshHead
  let (got, s) ← s.read headSize
  return (got, leNat (filled head got), s)

/-- The same with `anetRead`, whose result is dropped. -/
def Sock.anetReadHead (s : Sock) : Except Halt (ℕ × Sock) := do
  let (head, s) := s.freshHead
  let (_, head, s) ← anetRead s head headSize
  return (leNat head, s)

/-- The common body of the two `recv_integer`s. -/
def recvInteger (s : Sock) : Except Halt (ℕ × Sock) := do
  let (length, s) ← s.anetReadHead
  let (_, ret, s) ← anetRead s (leBytes 8 0) (int32 length)
  return (leNat ret, s)

/-- The loop `while (_num--)` over the chunks to come; `γ` is the state of `recv`, and `rBuffer`
the buffer it fills. -/
def recvChunks {γ : Type} (recv : Sock → γ → Except Halt (ℤ × Sock × γ)) (rBuffer : γ → BufferT)
    (file : Option Bytes) : ℕ → Sock → Files → γ → Except Halt (Sock × Files × γ)
  | 0, s, fs, c => .ok (s, fs, c)
  | num + 1, s, fs, c => do
    let (r, s, c) ← recv s c
    if r = 0 then return (s, fs, c)
    else
      let n ← (rBuffer c).readableSize
      let fs ← fs.fwrite file ((rBuffer c).buff.take n)
      recvChunks recv rBuffer file num s fs c

/-! ## Reading a length field -/

/-- A direct `read(2)` that is not cut short. -/
theorem read_full {s : Sock} (hs : s.reads.headD .full = .full) {n : ℕ} (hn : 0 < n)
    (hin : n ≤ s.inbox.length) :
    s.read n = .ok (some (s.inbox.take n),
      { s with inbox := s.inbox.drop n, reads := s.reads.tail }) := by
  have hne : s.inbox ≠ [] := by
    rw [← List.length_pos_iff]
    omega
  simp only [Sock.read, hs, Sock.deliver, Sock.fetch, hn.ne', hne, if_false]

/-- A variable that is filled to its end holds what was read. -/
theorem filled_of_length (var bs : Bytes) (h : bs.length = var.length) :
    filled var (some bs) = bs := by
  rw [filled, Option.getD_some, splice_zero, List.drop_of_length_le h.ge, List.append_nil]

/-- **The length field of a package**, read whole with `read(2)`. -/
theorem readHead_frame {s : Sock} (hs : s.reads.headD .full = .full) {p rest : Bytes}
    (hin : s.inbox = frame headSize p ++ rest) (hp : p.length < 2 ^ 64) :
    s.readHead = .ok (some (leBytes headSize p.length), p.length,
      { s with inbox := p ++ rest, reads := s.reads.tail, heads := s.heads.tail }) := by
  have hread : Sock.read s.freshHead.2 headSize = .ok (some (leBytes headSize p.length),
      { s.freshHead.2 with inbox := p ++ rest, reads := s.reads.tail }) := by
    have h := read_full (s := s.freshHead.2) hs (n := headSize) (by decide) (by
      show headSize ≤ s.inbox.length
      rw [hin, List.length_append, length_frame]
      omega)
    rw [h]
    simp only [Sock.freshHead, hin, take_frame, drop_frame]
  have hnum : leNat (filled s.freshHead.1 (some (leBytes headSize p.length))) = p.length := by
    rw [filled_of_length _ _ (by simp [Sock.freshHead, headSize])]
    exact leNat_leBytes_eight hp
  simp only [Sock.readHead, hread, ok_bind, hnum]
  rfl

/-- **The length field of a package**, read with `anetRead` from a steady stream. -/
theorem anetReadHead_frame {s : Sock} (hs : s.Steady) {p rest : Bytes}
    (hin : s.inbox = frame headSize p ++ rest) (hp : p.length < 2 ^ 64) :
    ∃ os, (∀ o ∈ os, o.IsData) ∧ s.anetReadHead = .ok (p.length,
      { s with inbox := p ++ rest, anetReads := os, heads := s.heads.tail }) := by
  have hlen : s.freshHead.1.length = headSize := length_leBytes _ _
  obtain ⟨os, hos, hread⟩ := anetRead_steady (s := s.freshHead.2) hs s.freshHead.1 headSize
    (by
      show headSize ≤ s.inbox.length
      rw [hin, List.length_append, length_frame]
      omega) hlen.ge (by rw [hlen]; decide)
  have hhead : splice s.freshHead.1 0 (s.freshHead.2.inbox.take headSize) =
      leBytes headSize p.length := by
    have hfill := filled_of_length s.freshHead.1 (leBytes headSize p.length)
      (by rw [hlen, length_leBytes])
    simpa [filled, Sock.freshHead, hin, take_frame] using hfill
  refine ⟨os, hos, ?_⟩
  rw [hhead] at hread
  have hnum : leNat (leBytes headSize p.length) = p.length := leNat_leBytes_eight hp
  simp only [Sock.anetReadHead, hread, ok_bind, hnum]
  simp only [Sock.freshHead, hin, drop_frame]
  rfl

/-! ## Receiving a number and chunks -/

/-- **`recv_integer`** on a steady stream reads back what `write(size_t)` sent. -/
theorem recvInteger_frame {s : Sock} (hs : s.Steady) {n : ℕ} (hn : n < 2 ^ 64) {rest : Bytes}
    (hin : s.inbox = frame headSize (leBytes 8 n) ++ rest) :
    ∃ os, (∀ o ∈ os, o.IsData) ∧ recvInteger s = .ok (n,
      { s with inbox := rest, anetReads := os, heads := s.heads.tail }) := by
  have hlen : (leBytes 8 n).length = 8 := length_leBytes _ _
  obtain ⟨os₁, hos₁, hhead⟩ := anetReadHead_frame hs hin (by rw [hlen]; decide)
  set s₁ : Sock :=
    { s with inbox := leBytes 8 n ++ rest, anetReads := os₁, heads := s.heads.tail } with hs₁
  obtain ⟨os₂, hos₂, hread⟩ := anetRead_steady (s := s₁) hos₁ (leBytes 8 0) 8
    (by simp [hs₁]) (by simp) (by simp)
  have htake : splice (leBytes 8 0) 0 (s₁.inbox.take 8) = leBytes 8 n := by
    rw [hs₁]
    dsimp only
    rw [List.take_left' hlen, splice_zero, List.drop_of_length_le (by simp), List.append_nil]
  have hdrop : s₁.inbox.drop 8 = rest := by
    rw [hs₁]
    exact List.drop_left' hlen
  have hcount : int32 ((leBytes 8 n).length : ℕ) = ((8 : ℕ) : ℤ) := by
    rw [hlen]
    exact int32_natCast (by decide)
  refine ⟨os₂, hos₂, ?_⟩
  rw [recvInteger, hhead, ok_bind]
  dsimp only
  rw [hcount, hread, ok_bind, htake, hdrop, leNat_leBytes_eight hn]
  rfl

section RecvChunks

variable {γ : Type} {recv : Sock → γ → Except Halt (ℤ × Sock × γ)} {rBuffer : γ → BufferT}
  {Good : ℕ → Sock → γ → Prop}

/-- `recv` takes a package of at most `chunkSize` bytes off the stream into its buffer. A state that
is good for one package more is then good for the others. -/
def Receives (recv : Sock → γ → Except Halt (ℤ × Sock × γ)) (rBuffer : γ → BufferT)
    (Good : ℕ → Sock → γ → Prop) : Prop :=
  ∀ k s c p rest, Good (k + 1) s c → s.inbox = frame headSize p ++ rest → p.length ≤ chunkSize →
    ∃ s' c', recv s c = .ok ((p.length : ℤ), s', c') ∧ s'.inbox = rest ∧ Good k s' c' ∧
      (rBuffer c').readableSize = .ok p.length ∧ (rBuffer c').buff.take p.length = p

/-- **The receiving loop** writes the chunks that were sent and stops behind the last one. An
empty chunk ends it early, but only the last chunk can be empty. -/
theorem recvChunks_spec (hrecv : Receives recv rBuffer Good) (ps : List Bytes) {s : Sock} {c : γ}
    {k : ℕ} (fs : Files) (name acc : Bytes) {rest : Bytes} (hgood : Good (k + ps.length) s c)
    (hin : s.inbox = ps.flatMap (frame headSize) ++ rest) (hlen : ∀ p ∈ ps, p.length ≤ chunkSize)
    (hne : ∀ p ∈ ps.dropLast, p ≠ []) :
    ∃ s' c', recvChunks recv rBuffer (some name) ps.length s (fs.put name acc) c =
        .ok (s', fs.put name (acc ++ ps.flatten), c') ∧ s'.inbox = rest ∧ Good k s' c' := by
  induction ps generalizing s c acc with
  | nil => exact ⟨s, c, by simp [recvChunks], by simpa using hin, hgood⟩
  | cons p ps ih =>
      obtain ⟨s₁, c₁, hp, hin₁, hgood₁, hsize, hbuf⟩ := hrecv (k + ps.length) s c p
        (ps.flatMap (frame headSize) ++ rest) hgood (by rw [hin]; simp) (hlen p (by simp))
      rw [List.length_cons, recvChunks, hp, ok_bind]
      by_cases hzero : p = []
      · -- the last chunk
        obtain rfl : ps = [] := by
          by_contra hps
          refine hne p ?_ hzero
          rw [List.dropLast_cons_of_ne_nil hps]
          exact List.mem_cons_self
        refine ⟨s₁, c₁, by simp [hzero]; rfl, by simpa using hin₁, hgood₁⟩
      · have hpos : ¬(p.length : ℤ) = 0 := by simpa using hzero
        obtain ⟨s', c', hloop, hin', hgood'⟩ := @ih s₁ c₁ (acc ++ p) hgood₁ hin₁
          (fun q hq => hlen q (List.mem_cons_of_mem _ hq)) (fun q hq => hne q (by
            rw [List.dropLast_cons_of_ne_nil (List.ne_nil_of_mem (List.dropLast_subset ps hq))]
            exact List.mem_cons_of_mem _ hq))
        refine ⟨s', c', ?_, hin', hgood'⟩
        dsimp only
        rw [if_neg hpos, hsize, ok_bind, hbuf]
        simp only [Files.fwrite, Files.bytes_put_self, Files.put_put, ok_bind]
        rw [hloop, List.flatten_cons, List.append_assoc]

end RecvChunks

/-! ## Reading a file -/

/-- **One chunk**: a buffer that packs what `fread` returned. -/
theorem readChunk_spec (junk : ℕ → UInt8) (f : InFile) :
    ∃ b, readChunk junk f = .ok (b, (f.fread chunkSize).2) ∧ b.Packs (f.fread chunkSize).1 ∧
      b.size = defaultBuffSize := by
  have hsize : (BufferT.create junk).buff.length = defaultBuffSize := size_create junk
  have hpack : (BufferT.create junk).packageSize = chunkSize := by
    rw [BufferT.packageSize, size_create]
    rfl
  have hread : (f.fread chunkSize).1.length ≤ chunkSize := by
    simp only [InFile.fread]
    split
    · exact Nat.le_of_lt ‹_›
    · simp
  simp only [readChunk, hpack]
  set bs := (f.fread chunkSize).1
  have hfit : headSize + bs.length < defaultBuffSize := by
    simp only [headSize, defaultBuffSize, chunkSize] at hread ⊢
    omega
  have h1 : headSize + bs.length ≤ (BufferT.create junk).buff.length := by omega
  set m₁ := splice (BufferT.create junk).buff headSize bs
  have hm₁ : m₁.length = defaultBuffSize := (length_splice h1).trans hsize
  have h2 : 0 + (leBytes headSize bs.length).length ≤ m₁.length := by
    rw [length_leBytes]
    omega
  set m₂ := splice m₁ 0 (leBytes headSize bs.length)
  have hm₂ : m₂.length = defaultBuffSize := (length_splice h2).trans hm₁
  have h3 : bs.length + headSize + [(0 : UInt8)].length ≤ m₂.length := by
    rw [List.length_singleton]
    omega
  rw [store_of_le h1, ok_bind, store_of_le h2, ok_bind, store_of_le h3]
  refine ⟨_, rfl, ⟨rfl, Nat.add_comm _ _, ?_, ?_⟩, (length_splice h3).trans hm₂⟩
  · rw [BufferT.size_mk, length_splice h3, hm₂, Nat.add_comm]
    exact hfit
  · -- the length field covers the first eight bytes, the data follow it
    have hdrop : (m₁.drop headSize).take bs.length = bs := by
      have hskip : ((BufferT.create junk).buff.take headSize).length = headSize := by
        rw [List.length_take]
        omega
      simp only [m₁, splice, List.append_assoc]
      rw [List.drop_left' hskip, List.take_left' rfl]
    dsimp only
    rw [take_splice_of_le (by omega) le_rfl]
    simp only [m₂, splice_zero, length_leBytes]
    rw [Nat.add_comm, List.take_append, length_leBytes, Nat.add_sub_cancel_left, hdrop,
      List.take_of_length_le (by rw [length_leBytes]; omega), frame]

/-- **The chunk loop** turns a file that can be read to its end into the packages of its
chunks. -/
theorem readChunks_spec (junk : ℕ → ℕ → UInt8) (fuel i : ℕ) (f : InFile) (hend : f.ending = .eof)
    (heof : f.eof = false) (hfuel : f.rest.length / chunkSize + 1 < fuel) :
    ∃ bs f', readChunks junk fuel i (some f) = .ok (bs, some f') ∧
      List.Forall₂ BufferT.Packs bs (chunks chunkSize f.rest) ∧
      ∀ b ∈ bs, b.size = defaultBuffSize := by
  have hdivs : ∀ n, n / chunkSize = n / 1015 := fun _ => rfl
  induction fuel generalizing i f with
  | zero => exact absurd hfuel (Nat.not_lt_zero _)
  | succ fuel ih =>
      obtain ⟨b, hb, hpacks, hsize⟩ := readChunk_spec (junk i) f
      rw [hdivs] at hfuel
      simp only [readChunks, Files.handle, ok_bind, heof, hb]
      rcases Nat.lt_or_ge f.rest.length chunkSize with hlt | hge
      · -- the short read sets the end-of-file indicator, which ends the loop
        obtain ⟨g, rfl⟩ : ∃ g, fuel = g + 1 := ⟨fuel - 1, by omega⟩
        have hread : f.fread chunkSize = (f.rest, { f with rest := [], eof := true }) := by
          simp [InFile.fread, hlt, hend]
        rw [hread] at hpacks ⊢
        refine ⟨[b], _, by simp [readChunks, Files.handle]; rfl, ?_, by simpa using hsize⟩
        rw [chunks_of_lt hlt]
        exact .cons hpacks .nil
      · have hread : f.fread chunkSize =
            (f.rest.take chunkSize, { f with rest := f.rest.drop chunkSize }) := by
          simp [InFile.fread, hge]
        rw [hread] at hpacks ⊢
        have hge' : 1015 ≤ f.rest.length := hge
        obtain ⟨bs, f', hloop, hall, hsizes⟩ := ih (i + 1)
          { f with rest := f.rest.drop chunkSize } hend heof
          (by simp only [List.length_drop, chunkSize]; omega)
        refine ⟨b :: bs, f', by simp [hloop], ?_, by simpa [hsize] using hsizes⟩
        rw [chunks_of_le (by decide) hge]
        exact .cons hpacks hall

/-- A file that cannot be read to its end keeps the chunk loop going. -/
theorem readChunks_error (junk : ℕ → ℕ → UInt8) (fuel i : ℕ) (f : InFile)
    (hend : f.ending = .error) (heof : f.eof = false) :
    readChunks junk fuel i (some f) = .error .outOfFuel := by
  induction fuel generalizing i f with
  | zero => rfl
  | succ fuel ih =>
      obtain ⟨b, hb, -⟩ := readChunk_spec (junk i) f
      have hnext := ih (i + 1) (f.fread chunkSize).2
        (by simp only [InFile.fread]; split <;> exact hend)
        (by simp only [InFile.fread]; split <;> simp [heof, hend])
      simp only [readChunks, Files.handle, ok_bind, heof, hb, hnext]
      rfl

/-! ## Sending buffers -/

/-- **`anetWrite` of the readable part of a buffer**, as the program calls it: the bytes are those
at the start of the array, as many as there are to read. -/
theorem anetWrite_sound (s : Sock) {b : BufferT} (hb : b.Sound) :
    ∃ a os r, a ≤ b.writeIdx - b.readIdx ∧ os <:+ s.writes ∧
      anetWrite s b.buff (int32 (b.writeIdx - b.readIdx : ℕ)) =
        .ok (r, { s with outbox := s.outbox ++ b.buff.take a, writes := os }) ∧
      (r = (a : ℤ) ∨ (r = -1 ∧ a < b.writeIdx - b.readIdx)) ∧
      (s.Willing → a = b.writeIdx - b.readIdx ∧ r = (a : ℤ)) := by
  have hlen : b.writeIdx - b.readIdx ≤ b.buff.length := (Nat.sub_le _ _).trans hb.write
  have hint : b.writeIdx - b.readIdx < 2 ^ 31 := by
    have := hb.int
    rw [BufferT.length_buff] at hlen
    omega
  rw [int32_natCast hint]
  obtain ⟨a, os, r, ha, hos, hw, hr, hall⟩ := anetWrite_prefix s hlen hint
  refine ⟨a, os, r, ha, hos, hw, hr, fun hs => ?_⟩
  obtain ⟨rfl, rfl⟩ := hall hs
  exact ⟨rfl, rfl⟩

/-- The loop over the list returns, whatever the writes do. -/
theorem sendBuffers_sound (s : Sock) {bs : List BufferT} (hbs : ∀ b ∈ bs, b.Sound) :
    ∃ r out os, os <:+ s.writes ∧
      sendBuffers s bs = .ok (r, { s with outbox := s.outbox ++ out, writes := os }) := by
  induction bs generalizing s with
  | nil => exact ⟨0, [], s.writes, List.suffix_refl _, by simp [sendBuffers]⟩
  | cons b bs ih =>
      have hb := hbs b List.mem_cons_self
      obtain ⟨a, os₁, r₁, -, hos₁, hw, -⟩ := anetWrite_sound s hb
      obtain ⟨r, out, os, hos, hloop⟩ := ih
        { s with outbox := s.outbox ++ b.buff.take a, writes := os₁ }
        fun b hb => hbs b (List.mem_cons_of_mem _ hb)
      refine ⟨r₁ + r, b.buff.take a ++ out, os, hos.trans hos₁, ?_⟩
      rw [sendBuffers, hb.readableSize, ok_bind, hw, ok_bind]
      dsimp only
      rw [hloop, ok_bind, List.append_assoc]
      rfl

/-- **A willing socket takes every buffer of the list**, and the result is the number of bytes. -/
theorem sendBuffers_willing {s : Sock} (hs : s.Willing) {bs : List BufferT}
    (hbs : ∀ b ∈ bs, b.Unsent) :
    ∃ os, (∀ o ∈ os, o.Accepts) ∧ sendBuffers s bs =
      .ok (((bs.flatMap BufferT.readable).length : ℤ),
        { s with outbox := s.outbox ++ bs.flatMap BufferT.readable, writes := os }) := by
  induction bs generalizing s with
  | nil => exact ⟨s.writes, hs, by simp [sendBuffers]⟩
  | cons b bs ih =>
      have hb := hbs b List.mem_cons_self
      obtain ⟨a, os₁, r, -, hos₁, hw, -, hall⟩ := anetWrite_sound s hb.toSound
      obtain ⟨ha, hr⟩ := hall hs
      have hread : b.buff.take a = b.readable := by
        rw [ha, hb.first, Nat.sub_zero, hb.readable]
      have hlen : a = b.readable.length := by rw [hb.length_readable, ha]
      rw [hread, hr] at hw
      have hs₁ : Sock.Willing { s with outbox := s.outbox ++ b.readable, writes := os₁ } :=
        fun o ho => hs o (hos₁.subset ho)
      obtain ⟨os, hos, hloop⟩ := ih hs₁ fun b hb => hbs b (List.mem_cons_of_mem _ hb)
      refine ⟨os, hos, ?_⟩
      rw [sendBuffers, hb.readableSize, ok_bind, hw, ok_bind]
      dsimp only
      rw [hloop, ok_bind, List.flatMap_cons, List.append_assoc, List.length_append, hlen]
      push_cast
      rfl

/-- The output that a `_w_buffer` and a `_buffer_list` hold. -/
def queued (w : BufferT) (bs : List BufferT) : Bytes := w.readable ++ bs.flatMap BufferT.readable

/-- The bytes of buffers that pack packages. -/
theorem flatMap_readable {bs : List BufferT} {ps : List Bytes}
    (hall : List.Forall₂ BufferT.Packs bs ps) :
    bs.flatMap BufferT.readable = ps.flatMap (frame headSize) := by
  induction hall with
  | nil => rfl
  | cons hpack _ ih => rw [List.flatMap_cons, List.flatMap_cons, hpack.readable, ih]

/-- What is queued are the frames of the packages, in order. -/
theorem queued_packs {w : BufferT} {bs : List BufferT} {p : Bytes} {ps : List Bytes}
    (hw : w.Packs p) (hall : List.Forall₂ BufferT.Packs bs ps) :
    queued w bs = (p :: ps).flatMap (frame headSize) := by
  rw [queued, hw.readable, flatMap_readable hall, List.flatMap_cons]

/-- Of buffers that were just written nothing is taken yet. -/
theorem unsent_of_packs {bs : List BufferT} {ps : List Bytes}
    (hall : List.Forall₂ BufferT.Packs bs ps) (hsize : ∀ b ∈ bs, b.size = defaultBuffSize) :
    ∀ b ∈ bs, b.Unsent := by
  intro b hb
  obtain ⟨i, hi, rfl⟩ := List.getElem_of_mem hb
  refine (hall.get hi (by rwa [← hall.length_eq])).unsent ?_
  have := hsize _ hb
  rw [List.get_eq_getElem, this]
  decide

end AsprNet
