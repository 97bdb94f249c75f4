import AsprNet.Ae.Table
import AsprNet.Server.Connection

/-! # A connection in service

A connection that `accept_tcp_handler` set up is registered for reading and, while a reply is
queued, for writing (`Registered`, `InStep`). In this state `write_event_handler` always returns
(`Serving.write`), and a willing socket takes all that is queued (`InStep.write_willing`). A
request that is answered leaves the packages of its reply in the queue (`Serving.answer`).
-/

namespace AsprNet.Server

/-! ## Registration -/

/-- The table entry of the connection `fd` of the client at `p`: it is registered for reading, and
for writing if `w`. -/
structure Registered (l : AeEventLoop EventProc ClientData) (fd : ℤ) (p : ℕ) (w : Bool) :
    Prop where
  fits : l.Fits
  lo : 0 ≤ fd
  hi : fd < l.fdsetSize
  api : ∃ s, l.apiData = some s
  mask : (l.entry fd).mask = if w then aeReadable ||| aeWritable else aeReadable
  rProc : (l.entry fd).rProc = some .readEvent
  wProc : w = true → (l.entry fd).wProc = some .writeEvent
  data : (l.entry fd).clientData = some (.client p)

namespace Registered

variable {l : AeEventLoop EventProc ClientData} {fd : ℤ} {p : ℕ} {w : Bool}

/-- The mask of a registered connection is not empty. -/
theorem mask_ne (h : Registered l fd p w) : (l.entry fd).mask ≠ aeNone := by
  rw [h.mask]
  cases w <;> decide

/-- A connection asks for writing as its flag says. -/
theorem has_writable (h : Registered l fd p w) : (l.entry fd).mask.has aeWritable = w := by
  rw [h.mask]
  cases w <;> decide

/-- The entry of `fd` after it was written. -/
theorem entry_set (h : Registered l fd p w) (fe : AeFileEvent EventProc ClientData) :
    (l.setEvent fd fe).entry fd = fe := by
  rw [AeEventLoop.entry_setEvent h.fits.sized h.lo h.hi, if_pos rfl]

/-- `process_command` registers the connection for writing. -/
theorem addWritable (h : Registered l fd p w) :
    ∃ r l', l.addFileEvent fd aeWritable .writeEvent (.client p) = .ok (r, l') ∧
      Registered l' fd p true := by
  obtain ⟨s, hs⟩ := h.api
  have hadd := AeEventLoop.addFileEvent_of_lt h.fits.sized h.lo h.hi hs aeWritable
    EventProc.writeEvent (ClientData.client p)
  rw [if_neg (fun hand => h.mask_ne hand.1)] at hadd
  have hentry := h.entry_set
    { mask := (l.entry fd).mask ||| aeWritable, rProc := (l.entry fd).rProc
      wProc := some .writeEvent, clientData := some (.client p) }
  have hmask : (l.entry fd).mask ||| aeWritable = aeReadable ||| aeWritable := by
    rw [h.mask]
    cases w <;> decide
  refine ⟨_, _, hadd, ⟨(h.fits.add h.lo hs hadd).fits, h.lo, h.hi, ⟨_, rfl⟩, ?_, ?_, fun _ => ?_,
    ?_⟩⟩
  · exact (congrArg AeFileEvent.mask hentry).trans hmask
  · exact (congrArg AeFileEvent.rProc hentry).trans h.rProc
  · exact congrArg AeFileEvent.wProc hentry
  · exact congrArg AeFileEvent.clientData hentry

/-- `write_event_handler` removes the registration for writing. -/
theorem delWritable (h : Registered l fd p w) :
    ∃ l', l.delFileEvent fd aeWritable = .ok l' ∧ Registered l' fd p false := by
  obtain ⟨s, hs⟩ := h.api
  have hdel := AeEventLoop.delFileEvent_of_lt h.fits.sized h.lo h.hi hs aeWritable
  have hentry := h.entry_set { l.entry fd with mask := (l.entry fd).mask &&& ~~~aeWritable }
  have hmask : (l.entry fd).mask &&& ~~~aeWritable = aeReadable := by
    rw [h.mask]
    cases w <;> decide
  refine ⟨_, hdel, ⟨(h.fits.del h.lo hs hdel).1.fits, h.lo, h.hi, ⟨_, rfl⟩, ?_, ?_, by simp, ?_⟩⟩
  · exact (congrArg AeFileEvent.mask hentry).trans hmask
  · exact (congrArg AeFileEvent.rProc hentry).trans h.rProc
  · exact (congrArg AeFileEvent.clientData hentry).trans h.data

end Registered

/-- The registration of the connection of the client `c` at `p` is in step with its queue: it is
registered for writing exactly while bytes of `_w_buffer` are queued, and only then a list can
be. -/
structure InStep (sys : Sys) (p : ℕ) (c : ClientT) (w : Bool) : Prop where
  registered : Registered sys.loop c.fd p w
  attached : c.attached = true
  wSound : c.wBuffer.Sound
  list : ∀ b ∈ c.bufferList, b.Unsent
  pending : w = true ↔ c.wBuffer.readIdx < c.wBuffer.writeIdx
  idle : w = false → c.bufferList = []

/-- The connection is in step, and its two buffers have their first size. -/
structure Serving (sys : Sys) (p : ℕ) (c : ClientT) (w : Bool) : Prop extends InStep sys p c w where
  rSize : c.rBuffer.size = defaultBuffSize
  wSize : c.wBuffer.size = defaultBuffSize

/-- The output queued for a client. -/
def ClientT.queued (c : ClientT) : Bytes := AsprNet.queued c.wBuffer c.bufferList

/-- The client behind a writable event at which `k` bytes of `_w_buffer` counted as sent. -/
def ClientT.sent (c : ClientT) (k : ℕ) : ClientT :=
  { c with wBuffer := { c.wBuffer with readIdx := c.wBuffer.readIdx + k }, bufferList := [] }

/-! ## Writable events -/

/-- `write_event_handler` sends something, however little, and counts what it can. -/
theorem sendPending_sound (s : Sock) {c : ClientT} (hw : c.wBuffer.Sound)
    (hlist : ∀ b ∈ c.bufferList, b.Sound) :
    ∃ k s', k ≤ c.wBuffer.writeIdx - c.wBuffer.readIdx ∧
      sendPending s c (int32 (c.wBuffer.writeIdx - c.wBuffer.readIdx : ℕ)) =
        .ok (s', c.sent k) := by
  obtain ⟨a, os, r, ha, -, hwrite, hr, -⟩ := anetWrite_sound s hw
  obtain ⟨r', out, os', -, hloop⟩ := sendBuffers_sound
    { s with outbox := s.outbox ++ c.wBuffer.buff.take a, writes := os } hlist
  have hcount : (if 0 < r then { c.wBuffer with readIdx := c.wBuffer.readIdx + r.toNat }
      else c.wBuffer) = { c.wBuffer with readIdx := c.wBuffer.readIdx + r.toNat } := by
    split_ifs with hpos
    · rfl
    · rw [show r.toNat = 0 by omega, Nat.add_zero]
  refine ⟨r.toNat, { s with outbox := s.outbox ++ c.wBuffer.buff.take a ++ out, writes := os' },
    by omega, ?_⟩
  rw [sendPending, hwrite, ok_bind]
  simp only [hloop, ok_bind, hcount]
  rfl

/-- A willing socket takes all that is queued. -/
theorem sendPending_willing {s : Sock} (hs : s.Willing) {c : ClientT} (hw : c.wBuffer.Unsent)
    (hlist : ∀ b ∈ c.bufferList, b.Unsent) :
    ∃ os, (∀ o ∈ os, o.Accepts) ∧
      sendPending s c (int32 (c.wBuffer.writeIdx - c.wBuffer.readIdx : ℕ)) =
        .ok ({ s with outbox := s.outbox ++ c.queued, writes := os },
          c.sent (c.wBuffer.writeIdx - c.wBuffer.readIdx)) := by
  obtain ⟨a, os₁, r, -, hos₁, hwrite, -, hall⟩ := anetWrite_sound s hw.toSound
  obtain ⟨rfl, rfl⟩ := hall hs
  have hread : c.wBuffer.buff.take (c.wBuffer.writeIdx - c.wBuffer.readIdx) =
      c.wBuffer.readable := by
    rw [hw.first, Nat.sub_zero, hw.readable]
  rw [hread] at hwrite
  have hs₁ : Sock.Willing { s with outbox := s.outbox ++ c.wBuffer.readable, writes := os₁ } :=
    fun o ho => hs o (hos₁.subset ho)
  obtain ⟨os, hos, hloop⟩ := sendBuffers_willing hs₁ hlist
  refine ⟨os, hos, ?_⟩
  rw [sendPending, hwrite, ok_bind]
  simp only [hloop, ok_bind, ClientT.queued, queued, List.append_assoc]
  split_ifs with hpos
  · rfl
  · rw [ClientT.sent, show c.wBuffer.writeIdx - c.wBuffer.readIdx = 0 by omega]
    rfl

namespace InStep

variable {sys : Sys} {p : ℕ} {c : ClientT} {w : Bool} {s : Sock}

/-- **`write_event_handler`** on a registered connection sends, and removes the registration when
all of `_w_buffer` counts as sent. -/
theorem write_of_send (h : InStep sys p c true) (hs : sys.socks c.fd = some s) {s' : Sock} {k : ℕ}
    (hk : k ≤ c.wBuffer.writeIdx - c.wBuffer.readIdx)
    (hsend : sendPending s c (int32 (c.wBuffer.writeIdx - c.wBuffer.readIdx : ℕ)) =
      .ok (s', c.sent k)) :
    ∃ l', writeEventHandler sys c =
        .ok ({ sys.setSock c.fd s' with loop := l' }, some (c.sent k)) ∧
      InStep { sys.setSock c.fd s' with loop := l' } p (c.sent k)
        (decide (k < c.wBuffer.writeIdx - c.wBuffer.readIdx)) := by
  have hpos := h.pending.mp rfl
  have hsound : (c.sent k).wBuffer.Sound :=
    ⟨by show c.wBuffer.readIdx + k ≤ c.wBuffer.writeIdx; omega, h.wSound.write, h.wSound.int⟩
  have hint : int32 (c.wBuffer.writeIdx - c.wBuffer.readIdx : ℕ) =
      ((c.wBuffer.writeIdx - c.wBuffer.readIdx : ℕ) : ℤ) := by
    have hw := h.wSound.write
    have hsize := h.wSound.int
    exact int32_natCast (by omega)
  have hsize : (c.sent k).wBuffer.readableSize =
      .ok (c.wBuffer.writeIdx - (c.wBuffer.readIdx + k)) := hsound.readableSize
  have hrun : writeEventHandler sys c =
      if c.wBuffer.writeIdx - (c.wBuffer.readIdx + k) = 0 then do
        let sys ← (sys.setSock c.fd s').delFileEvent c.fd aeWritable
        return (sys, some (c.sent k))
      else .ok (sys.setSock c.fd s', some (c.sent k)) := by
    rw [writeEventHandler, h.wSound.readableSize, ok_bind]
    dsimp only
    rw [if_neg (by rw [hint]; omega), sock_eq_ok.mpr hs, ok_bind, hsend, ok_bind]
    simp only [hsize, ok_bind, show (c.sent k).attached = true from h.attached, if_true]
    rfl
  have hstep : ∀ l' w', Registered l' c.fd p w' →
      (w' = true ↔ c.wBuffer.readIdx + k < c.wBuffer.writeIdx) →
      InStep { sys.setSock c.fd s' with loop := l' } p (c.sent k) w' :=
    fun l' w' hreg hpend =>
      ⟨hreg, h.attached, hsound, fun _ hb => absurd hb List.not_mem_nil, hpend, fun _ => rfl⟩
  by_cases hall : k = c.wBuffer.writeIdx - c.wBuffer.readIdx
  · obtain ⟨l', hdel, hreg⟩ := h.registered.delWritable
    refine ⟨l', ?_, ?_⟩
    · rw [hrun, if_pos (by omega)]
      simp only [Sys.delFileEvent, Sys.setSock, hdel, ok_bind]
      rfl
    · rw [decide_eq_false (by omega)]
      exact hstep l' false hreg (by simp; omega)
  · refine ⟨sys.loop, ?_, ?_⟩
    · rw [hrun, if_neg (by omega)]
      rfl
    · rw [decide_eq_true (by omega)]
      exact hstep sys.loop true h.registered (by simp; omega)

/-- **A willing socket takes all that is queued**, and the connection is no longer registered for
writing. -/
theorem write_willing (h : InStep sys p c true) (hs : sys.socks c.fd = some s)
    (hwilling : s.Willing) (hfirst : c.wBuffer.readIdx = 0) :
    ∃ sys' c' s', writeEventHandler sys c = .ok (sys', some c') ∧ InStep sys' p c' false ∧
      c'.fd = c.fd ∧ c'.rBuffer = c.rBuffer ∧ c'.wBuffer.size = c.wBuffer.size ∧
      sys'.socks c.fd = some s' ∧ SameInput s s' ∧ s'.Willing ∧
      s'.outbox = s.outbox ++ c.queued ∧ sys'.files = sys.files := by
  obtain ⟨os, hos, hsend⟩ := sendPending_willing hwilling ⟨h.wSound, hfirst⟩ h.list
  obtain ⟨l', hrun, hstep⟩ := h.write_of_send hs le_rfl hsend
  rw [decide_eq_false (Nat.lt_irrefl _)] at hstep
  exact ⟨_, _, _, hrun, hstep, rfl, rfl, rfl, Function.update_self _ _ _,
    (sendPending_frame hsend).1, hos, rfl, rfl⟩

/-- A drained connection has nothing queued. -/
theorem queued_nil (h : InStep sys p c false) : c.queued = [] := by
  have hidx : ¬c.wBuffer.readIdx < c.wBuffer.writeIdx := fun hlt =>
    absurd (h.pending.mpr hlt) (by simp)
  have hread : c.wBuffer.readable = [] := by
    rw [← List.length_eq_zero_iff, h.wSound.length_readable]
    omega
  rw [ClientT.queued, queued, hread, h.idle rfl]
  rfl

/-- What a handler reads or writes on the sockets does not matter. -/
theorem withSocks (h : InStep sys p c w) (sys' : Sys) (hloop : sys'.loop = sys.loop) :
    InStep sys' p c w :=
  ⟨by rw [hloop]; exact h.registered, h.attached, h.wSound, h.list, h.pending, h.idle⟩

end InStep

namespace Serving

variable {sys : Sys} {p : ℕ} {c : ClientT} {w : Bool} {s : Sock}

/-- Whatever the writes do, `write_event_handler` returns and the connection stays in service. -/
theorem write (h : Serving sys p c true) (hs : sys.socks c.fd = some s) :
    ∃ sys' c' s' w', writeEventHandler sys c = .ok (sys', some c') ∧ Serving sys' p c' w' ∧
      c'.fd = c.fd ∧ c'.rBuffer = c.rBuffer ∧ sys'.socks c.fd = some s' ∧ SameInput s s' ∧
      sys'.files = sys.files := by
  obtain ⟨k, s', hk, hsend⟩ := sendPending_sound s h.wSound fun b hb => (h.list b hb).toSound
  obtain ⟨l', hrun, hstep⟩ := h.write_of_send hs hk hsend
  exact ⟨_, _, s', _, hrun, ⟨hstep, h.rSize, h.wSize⟩, rfl, rfl, Function.update_self _ _ _,
    (sendPending_frame hsend).1, rfl⟩

/-- What leaves the loop alone leaves the connection in service. -/
theorem withSocks (h : Serving sys p c w) (sys' : Sys) (hloop : sys'.loop = sys.loop) :
    Serving sys' p c w := ⟨h.toInStep.withSocks sys' hloop, h.rSize, h.wSize⟩

end Serving

/-! ## Requests that are answered -/

/-- The request with these arguments asks for the packages of the reply: `pong.`, or a file that
can be read to its end. -/
inductive Asks (files : Files) : List Bytes → List Bytes → Prop
  | ping : Asks files [text "ping"] [text "pong."]
  | fileRecv {name content : Bytes}
      (hfile : files.data (fileName name) = some { bytes := content }) :
      Asks files [text "file_recv", name] (filePackages content)

/-- `file_recv_command` queues the file. -/
theorem fileRecvCommand_queues (io : Io) {c : ClientT} {name content : Bytes}
    (hsize : c.wBuffer.size = defaultBuffSize) (harg : c.arg = [text "file_recv", name])
    (hfile : io.files.data (fileName name) = some { bytes := content }) :
    ∃ io' w bs, fileRecvCommand io c = .ok (io', { c with wBuffer := w, bufferList := bs }) ∧
      io'.sock = io.sock ∧ io'.files = io.files ∧
      w.Packs (leBytes 8 (content.length / chunkSize + 1)) ∧ w.size = defaultBuffSize ∧
      List.Forall₂ BufferT.Packs bs (chunks chunkSize content) ∧
      ∀ b ∈ bs, b.size = defaultBuffSize := by
  have hopen : io.files.fopenRead (fileName name) = some ⟨content, .eof, false, false⟩ := by
    simp [Files.fopenRead, hfile]
  obtain ⟨bs, f', hchunks, hall, hsizes⟩ := readChunks_spec io.junk
    (chunkRounds (some ⟨content, .eof, false, false⟩)) 0 ⟨content, .eof, false, false⟩ rfl rfl
    (by simp [chunkRounds])
  have hcount : bs.length = content.length / chunkSize + 1 := by
    rw [hall.length_eq, length_chunks]
  obtain ⟨w, hw, hpacks, hwsize⟩ := c.wBuffer.writePackage_packs ((io.allocated bs.length).junk 0)
    (p := leBytes 8 bs.length) (by rw [hsize, length_leBytes]; decide)
  have hargv : ArgT.argv c.arg 1 = .ok name := by rw [harg]; rfl
  refine ⟨(io.allocated bs.length).allocated 1, w, bs, ?_, rfl, rfl, ?_, hwsize.trans hsize, hall,
    hsizes⟩
  · rw [fileRecvCommand, hargv, ok_bind]
    dsimp only
    rw [hopen, hchunks, ok_bind]
    dsimp only
    rw [BufferT.writeInt, hw, ok_bind]
    rfl
  · rwa [hcount] at hpacks

namespace Serving

variable {sys : Sys} {p : ℕ} {c : ClientT} {w : Bool} {s : Sock}

/-- The call of a command that replies, once its name and arity are known to be right. -/
theorem processCommand_reply (h : Serving sys p c w) (hs : sys.socks c.fd = some s)
    {name : Bytes} {cmd : CommandT} (hname : ArgT.argv c.arg 0 = .ok name)
    (hlook : sCommandTable.lookup name = some cmd)
    (harity : cmd.arityErr c.arg.length = false) (hreply : cmd.reply = true) :
    ∃ l', Registered l' c.fd p true ∧ processCommand sCommandTable sys p c = do
      let (io, c') ← cmd.proc ⟨s, sys.files, sys.junk⟩ c
      return ({ sys with loop := l' }.putIo c.fd io, c') := by
  obtain ⟨r, l', hadd, hreg⟩ := h.registered.addWritable
  refine ⟨l', hreg, ?_⟩
  have hio : Sys.io { sys with loop := l' } c.fd = .ok ⟨s, sys.files, sys.junk⟩ :=
    io_eq_ok.mpr ⟨hs, rfl, rfl⟩
  rw [processCommand, hname, ok_bind, hlook]
  simp only [harity, hreply, Sys.addFileEvent, hadd, ok_bind, if_true]
  show (Sys.io { sys with loop := l' } c.fd >>= _) = _
  rw [hio, ok_bind]

/-- **A request that is answered** leaves its reply at the front of the queue, and the connection
registered for writing. What was queued before is lost, except that `ping` keeps the list. -/
theorem answer (h : Serving sys p c w) (hs : sys.socks c.fd = some s) {ps : List Bytes}
    (hasks : Asks sys.files c.arg ps) :
    ∃ sys' c' keep, processCommand sCommandTable sys p c = .ok (sys', c') ∧
      Serving sys' p c' true ∧ c'.fd = c.fd ∧ sys'.socks c.fd = some s ∧
      sys'.files = sys.files ∧ c'.rBuffer = c.rBuffer ∧ c'.wBuffer.readIdx = 0 ∧
      (keep = [] ∨ keep = c.bufferList) ∧
      c'.queued = ps.flatMap (frame headSize) ++ keep.flatMap BufferT.readable := by
  have harg : ∀ args, c.arg = args → ∀ a as, args = a :: as → ArgT.argv c.arg 0 = .ok a := by
    rintro _ rfl a as h0
    rw [h0]
    rfl
  generalize hargs : c.arg = args at hasks
  cases hasks with
  | ping =>
      obtain ⟨l', hreg, hrun⟩ := h.processCommand_reply hs (harg _ hargs _ _ rfl) rfl
        (by rw [hargs]; rfl) rfl
      obtain ⟨b, hb, hpacks, hsize⟩ := c.wBuffer.writePackage_packs (sys.junk 0)
        (p := text "pong.") (by rw [h.wSize]; decide)
      rw [h.wSize] at hsize
      have hunsent := hpacks.unsent (by rw [hsize]; decide)
      refine ⟨{ sys with loop := l' }.putIo c.fd (Io.allocated ⟨s, sys.files, sys.junk⟩ 1),
        { c with wBuffer := b }, c.bufferList, ?_,
        ⟨⟨hreg, h.attached, hunsent.toSound, h.list, ?_, by simp⟩, h.rSize, hsize⟩, rfl,
        Function.update_self _ _ _, rfl, rfl, hpacks.read, Or.inr rfl, ?_⟩
      · rw [hrun]
        dsimp only [pingCommand, replyText, BufferT.writeStr]
        rw [hb]
        rfl
      · simp [hpacks.read, hpacks.write, headSize]
      · rw [ClientT.queued, queued, hpacks.readable]
        simp
  | @fileRecv name content hfile =>
      obtain ⟨l', hreg, hrun⟩ := h.processCommand_reply hs (harg _ hargs _ _ rfl) rfl
        (by rw [hargs]; rfl) rfl
      obtain ⟨io', b, bs, hcmd, hsock, hfiles, hpacks, hsize, hall, hsizes⟩ :=
        fileRecvCommand_queues ⟨s, sys.files, sys.junk⟩ h.wSize hargs hfile
      have hunsent := hpacks.unsent (by rw [hsize]; decide)
      have hsock' : (Sys.putIo { sys with loop := l' } c.fd io').socks c.fd = some s := by
        rw [show s = io'.sock from hsock.symm]
        exact Function.update_self _ _ _
      refine ⟨{ sys with loop := l' }.putIo c.fd io',
        { c with wBuffer := b, bufferList := bs }, [], ?_,
        ⟨⟨hreg, h.attached, hunsent.toSound, unsent_of_packs hall hsizes, ?_, by simp⟩, h.rSize,
          hsize⟩, rfl, hsock', hfiles, rfl, hpacks.read, Or.inl rfl, ?_⟩
      · rw [hrun]
        dsimp only
        rw [hcmd]
        rfl
      · simp [hpacks.read, hpacks.write, headSize]
      · rw [ClientT.queued, queued_packs hpacks hall, filePackages]
        simp

end Serving

end AsprNet.Server
