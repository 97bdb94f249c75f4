import AsprNet.Server.Handlers

/-! # One connection of the server

What the handlers do to one connection, said once: `processCommand_cases` for the dispatch,
`procFrame` for the commands, `readPackage_frame` for a package that is read whole. A run of the
connection is a list of `ConnEvent`s, and `dispatched` the argument vectors its handler calls give
to `process_command`.
-/

namespace AsprNet.Server

/-! ## Frames -/

/-- `s'` has the same to read as `s`, and will read it in the same way. -/
structure SameInput (s s' : Sock) : Prop where
  inbox : s'.inbox = s.inbox
  reads : s'.reads = s.reads
  anetReads : s'.anetReads = s.anetReads
  heads : s'.heads = s.heads

namespace SameInput

theorem refl (s : Sock) : SameInput s s := ⟨rfl, rfl, rfl, rfl⟩

theorem trans {s t u : Sock} (h : SameInput s t) (h' : SameInput t u) : SameInput s u :=
  ⟨h'.inbox.trans h.inbox, h'.reads.trans h.reads, h'.anetReads.trans h.anetReads,
    h'.heads.trans h.heads⟩

end SameInput

/-- Writing does not touch what is to be read. -/
theorem anetWriteLoop_sameInput (fuel : ℕ) (s : Sock) (buf : Bytes) (count : ℤ) (totlen : ℕ)
    {r : ℤ} {s' : Sock} (h : anetWriteLoop fuel s buf count totlen = .ok (r, s')) :
    SameInput s s' := by
  induction fuel generalizing s buf totlen with
  | zero => exact absurd h (by simp [anetWriteLoop])
  | succ fuel ih =>
      rw [anetWriteLoop] at h
      split_ifs at h with hdone hbuf
      · obtain ⟨-, rfl⟩ := Prod.mk.inj (Except.ok.inj h)
        exact .refl s
      · rcases write_cases s (buf.take (sizeT (count - totlen))) with hw | ⟨n, -, hw⟩
        · simp only [hw] at h
          obtain ⟨-, rfl⟩ := Prod.mk.inj (Except.ok.inj h)
          exact ⟨rfl, rfl, rfl, rfl⟩
        · simp only [hw] at h
          split_ifs at h
          · obtain ⟨-, rfl⟩ := Prod.mk.inj (Except.ok.inj h)
            exact ⟨rfl, rfl, rfl, rfl⟩
          · have hrest := ih _ _ _ h
            exact ⟨hrest.inbox, hrest.reads, hrest.anetReads, hrest.heads⟩

/-- Sending takes nothing from the inbox. -/
theorem sendBuffers_sameInput {s : Sock} {bs : List BufferT} {r : ℤ} {s' : Sock}
    (h : sendBuffers s bs = .ok (r, s')) : SameInput s s' := by
  induction bs generalizing s r with
  | nil =>
      obtain ⟨-, rfl⟩ := Prod.mk.inj (Except.ok.inj h)
      exact .refl s
  | cons b bs ih =>
      simp only [sendBuffers, bind_eq_ok] at h
      obtain ⟨n, -, ⟨r₁, s₁⟩, h₁, ⟨r₂, s₂⟩, h₂, hret⟩ := h
      obtain ⟨-, rfl⟩ := Prod.mk.inj (Except.ok.inj hret)
      exact (anetWriteLoop_sameInput _ _ _ _ _ h₁).trans (ih h₂)

/-- What `sendPending` leaves alone. -/
theorem sendPending_frame {s : Sock} {c : ClientT} {n : ℤ} {s' : Sock} {c' : ClientT}
    (h : sendPending s c n = .ok (s', c')) :
    SameInput s s' ∧ c'.fd = c.fd ∧ c'.attached = c.attached ∧ c'.rBuffer = c.rBuffer ∧
      c'.arg = c.arg := by
  simp only [sendPending, bind_eq_ok] at h
  obtain ⟨⟨r₁, s₁⟩, h₁, ⟨r₂, s₂⟩, h₂, hret⟩ := h
  obtain ⟨rfl, rfl⟩ := Prod.mk.inj (Except.ok.inj hret)
  exact ⟨(anetWriteLoop_sameInput _ _ _ _ _ h₁).trans (sendBuffers_sameInput h₂), rfl, rfl, rfl,
    rfl⟩

/-! ## Commands -/

/-- **What `process_command` can do**: nothing, or call the procedure of `argv(0)`, after the
registration of `write_event_handler` if the command replies. -/
theorem processCommand_cases {table : List (Bytes × CommandT)} {sys sys' : Sys} {self : ℕ}
    {c c' : ClientT} (h : processCommand table sys self c = .ok (sys', c')) :
    (sys' = sys ∧ c' = c) ∨
      ∃ name cmd sys₁ io io', ArgT.argv c.arg 0 = .ok name ∧ table.lookup name = some cmd ∧
        cmd.arityErr c.arg.length = false ∧
        ((cmd.reply = false ∧ sys₁ = sys) ∨ (cmd.reply = true ∧ ∃ r,
          sys.addFileEvent c.fd aeWritable .writeEvent (.client self) = .ok (r, sys₁))) ∧
        sys₁.io c.fd = .ok io ∧ cmd.proc io c = .ok (io', c') ∧ sys' = sys₁.putIo c.fd io' := by
  rw [processCommand, bind_eq_ok] at h
  obtain ⟨name, hname, h⟩ := h
  cases hlook : table.lookup name with
  | none =>
      simp only [hlook] at h
      obtain ⟨rfl, rfl⟩ := Prod.mk.inj (Except.ok.inj h)
      exact Or.inl ⟨rfl, rfl⟩
  | some cmd =>
      simp only [hlook] at h
      split_ifs at h with harity hreply
      · obtain ⟨rfl, rfl⟩ := Prod.mk.inj (Except.ok.inj h)
        exact Or.inl ⟨rfl, rfl⟩
      · simp only [bind_eq_ok] at h
        obtain ⟨⟨r, sys₁⟩, hadd, io, hio, ⟨io', c₁⟩, hproc, hret⟩ := h
        obtain ⟨rfl, rfl⟩ := Prod.mk.inj (Except.ok.inj hret)
        exact Or.inr ⟨name, cmd, sys₁, io, io', hname, hlook, by simpa using harity,
          Or.inr ⟨hreply, r, hadd⟩, hio, hproc, rfl⟩
      · simp only [pure_bind, bind_eq_ok] at h
        obtain ⟨io, hio, ⟨io', c₁⟩, hproc, hret⟩ := h
        obtain ⟨rfl, rfl⟩ := Prod.mk.inj (Except.ok.inj hret)
        exact Or.inr ⟨name, cmd, sys, io, io', hname, hlook, by simpa using harity,
          Or.inl ⟨by simpa using hreply, rfl⟩, hio, hproc, rfl⟩

/-- What every command leaves alone. -/
structure ProcFrame (c c' : ClientT) : Prop where
  fd : c'.fd = c.fd
  attached : c'.attached = c.attached
  arg : c'.arg = c.arg

/-- `recv` changes nothing of the client but its receive buffer. -/
theorem recv_frame {s s' : Sock} {c c' : ClientT} {r : ℤ} (h : recv s c = .ok (r, s', c')) :
    ∃ b, c' = { c with rBuffer := b } := by
  simp only [recv, recvPayload, bind_eq_ok] at h
  obtain ⟨_, _, _, _, _, _, _, _, hret⟩ := h
  obtain ⟨-, hret⟩ := Prod.mk.inj (Except.ok.inj hret)
  obtain ⟨-, rfl⟩ := Prod.mk.inj hret
  exact ⟨_, rfl⟩

/-- Receiving the packages of a file changes the read buffer alone. -/
theorem recvChunks_frame {file : Option Bytes} (num : ℕ) {s s' : Sock} {fs fs' : Files}
    {c c' : ClientT}
    (h : recvChunks recv ClientT.rBuffer file num s fs c = .ok (s', fs', c')) :
    ∃ b, c' = { c with rBuffer := b } := by
  induction num generalizing s fs c with
  | zero =>
      obtain ⟨-, hret⟩ := Prod.mk.inj (Except.ok.inj h)
      obtain ⟨-, rfl⟩ := Prod.mk.inj hret
      exact ⟨_, rfl⟩
  | succ num ih =>
      rw [recvChunks, bind_eq_ok] at h
      obtain ⟨⟨r, s₁, c₁⟩, hrecv, h⟩ := h
      obtain ⟨b, rfl⟩ := recv_frame hrecv
      dsimp only at h
      split_ifs at h
      · obtain ⟨-, hret⟩ := Prod.mk.inj (Except.ok.inj h)
        obtain ⟨-, rfl⟩ := Prod.mk.inj hret
        exact ⟨b, rfl⟩
      · simp only [bind_eq_ok] at h
        obtain ⟨_, _, fs₁, _, h⟩ := h
        obtain ⟨b', rfl⟩ := ih h
        exact ⟨b', rfl⟩

/-- A reply touches the write buffer alone. -/
theorem replyText_frame {reply : String} {io io' : Io} {c c' : ClientT}
    (h : replyText reply io c = .ok (io', c')) :
    ProcFrame c c' ∧ io'.sock = io.sock ∧ io'.files = io.files ∧ c'.rBuffer = c.rBuffer := by
  simp only [replyText, bind_eq_ok] at h
  obtain ⟨w, -, hret⟩ := h
  obtain ⟨rfl, rfl⟩ := Prod.mk.inj (Except.ok.inj hret)
  exact ⟨⟨rfl, rfl, rfl⟩, rfl, rfl, rfl⟩

/-- Sending a file touches the write buffer and the queue. -/
theorem fileRecvCommand_frame {io io' : Io} {c c' : ClientT}
    (h : fileRecvCommand io c = .ok (io', c')) :
    ProcFrame c c' ∧ io'.sock = io.sock ∧ io'.files = io.files ∧ c'.rBuffer = c.rBuffer := by
  simp only [fileRecvCommand, bind_eq_ok] at h
  obtain ⟨_, _, _, _, _, _, _, _, hret⟩ := h
  obtain ⟨rfl, rfl⟩ := Prod.mk.inj (Except.ok.inj hret)
  exact ⟨⟨rfl, rfl, rfl⟩, rfl, rfl, rfl⟩

/-- Receiving a file touches the read buffer alone. -/
theorem fileSendCommand_frame {io io' : Io} {c c' : ClientT}
    (h : fileSendCommand io c = .ok (io', c')) : ∃ b, c' = { c with rBuffer := b } := by
  simp only [fileSendCommand, bind_eq_ok] at h
  obtain ⟨_, _, _, _, ⟨s₁, fs₁, c₁⟩, hchunks, _, _, hret⟩ := h
  obtain ⟨rfl, rfl⟩ := Prod.mk.inj (Except.ok.inj hret)
  exact recvChunks_frame _ hchunks

/-- **The commands of the table.** All keep the identity of the client; only `file_send` reads
from the connection. -/
theorem sCommandTable_frame {name : Bytes} {cmd : CommandT}
    (hcmd : sCommandTable.lookup name = some cmd) {io io' : Io} {c c' : ClientT}
    (h : cmd.proc io c = .ok (io', c')) :
    ProcFrame c c' ∧ (name ≠ text "file_send" →
      io'.sock = io.sock ∧ io'.files = io.files ∧ c'.rBuffer = c.rBuffer) := by
  have hkeep : ∀ {io io' : Io} {c c' : ClientT}, getCommand io c = .ok (io', c') →
      ProcFrame c c' ∧ io'.sock = io.sock ∧ io'.files = io.files ∧ c'.rBuffer = c.rBuffer := by
    rintro io io' c c' h
    obtain ⟨rfl, rfl⟩ := Prod.mk.inj (Except.ok.inj h)
    exact ⟨⟨rfl, rfl, rfl⟩, rfl, rfl, rfl⟩
  simp only [sCommandTable, List.lookup_cons, List.lookup_nil] at hcmd
  split at hcmd
  · cases hcmd
    exact ⟨(replyText_frame h).1, fun _ => (replyText_frame h).2⟩
  split at hcmd
  · cases hcmd
    exact ⟨(hkeep h).1, fun _ => (hkeep h).2⟩
  split at hcmd
  · cases hcmd
    exact ⟨(hkeep h).1, fun _ => (hkeep h).2⟩
  split at hcmd
  · rename_i hname
    cases hcmd
    obtain ⟨b, rfl⟩ := fileSendCommand_frame h
    exact ⟨⟨rfl, rfl, rfl⟩, fun hne => absurd (by simpa using hname) hne⟩
  split at hcmd
  · cases hcmd
    exact ⟨(fileRecvCommand_frame h).1, fun _ => (fileRecvCommand_frame h).2⟩
  · cases hcmd

/-! ## Handlers -/

/-- `add_file_event` changes the loop alone. -/
theorem addFileEvent_eq {sys sys' : Sys} {fd : ℤ} {mask : Mask} {proc : EventProc}
    {data : ClientData} {r : ℤ} (h : sys.addFileEvent fd mask proc data = .ok (r, sys')) :
    ∃ loop, sys.loop.addFileEvent fd mask proc data = .ok (r, loop) ∧
      sys' = { sys with loop } := by
  rw [Sys.addFileEvent, bind_eq_ok] at h
  obtain ⟨⟨r', loop⟩, hadd, hret⟩ := h
  obtain ⟨rfl, rfl⟩ := Prod.mk.inj (Except.ok.inj hret)
  exact ⟨loop, hadd, rfl⟩

/-- `del_file_event` changes the loop alone. -/
theorem delFileEvent_eq {sys sys' : Sys} {fd : ℤ} {mask : Mask}
    (h : sys.delFileEvent fd mask = .ok sys') :
    ∃ loop, sys.loop.delFileEvent fd mask = .ok loop ∧ sys' = { sys with loop } := by
  rw [Sys.delFileEvent, bind_eq_ok] at h
  obtain ⟨loop, hdel, hret⟩ := h
  exact ⟨loop, hdel, (Except.ok.inj hret).symm⟩

/-- The stream of a descriptor is the one it has. -/
theorem sock_eq_ok {sys : Sys} {fd : ℤ} {s : Sock} :
    sys.sock fd = .ok s ↔ sys.socks fd = some s := by
  rw [Sys.sock]
  cases sys.socks fd <;> simp

/-- What a procedure is given: the stream of its descriptor, and the files. -/
theorem io_eq_ok {sys : Sys} {fd : ℤ} {io : Io} :
    sys.io fd = .ok io ↔
      sys.socks fd = some io.sock ∧ io.files = sys.files ∧ io.junk = sys.junk := by
  obtain ⟨sock, files, junk⟩ := io
  rw [Sys.io, bind_eq_ok]
  simp only [sock_eq_ok]
  constructor
  · rintro ⟨s, hs, hret⟩
    cases hret
    exact ⟨hs, rfl, rfl⟩
  · rintro ⟨hs, rfl, rfl⟩
    exact ⟨sock, hs, rfl⟩

/-- A command other than `file_send` leaves the stream and the receive buffer alone. -/
theorem processCommand_sameInput {sys sys' : Sys} {self : ℕ} {c c' : ClientT} {s : Sock}
    (h : processCommand sCommandTable sys self c = .ok (sys', c'))
    (hs : sys.socks c.fd = some s) (hcmd : ArgT.argv c.arg 0 ≠ .ok (text "file_send")) :
    sys'.socks c.fd = some s ∧ ProcFrame c c' ∧ c'.rBuffer = c.rBuffer := by
  rcases processCommand_cases h with
    ⟨rfl, rfl⟩ | ⟨name, cmd, sys₁, io, io', hname, hlook, -, hreg, hio, hproc, rfl⟩
  · exact ⟨hs, ⟨rfl, rfl, rfl⟩, rfl⟩
  · have hne : name ≠ text "file_send" := by
      rintro rfl
      exact hcmd hname
    obtain ⟨hframe, hkeep⟩ := sCommandTable_frame hlook hproc
    obtain ⟨hsock, -, hbuf⟩ := hkeep hne
    have hs₁ : sys₁.socks c.fd = some s := by
      rcases hreg with ⟨-, rfl⟩ | ⟨-, r, hadd⟩
      · exact hs
      · obtain ⟨loop, -, rfl⟩ := addFileEvent_eq hadd
        exact hs
    have hio' : io.sock = s := Option.some.inj ((io_eq_ok.mp hio).1.symm.trans hs₁)
    refine ⟨?_, hframe, hbuf⟩
    show Function.update sys₁.socks c.fd (some io'.sock) c.fd = some s
    rw [Function.update_self, hsock, hio']

/-- `write_event_handler` leaves what is to be read and the receive buffer alone. -/
theorem writeEventHandler_sameInput {sys sys' : Sys} {c c' : ClientT} {s : Sock}
    (h : writeEventHandler sys c = .ok (sys', some c')) (hs : sys.socks c.fd = some s) :
    ∃ s', sys'.socks c.fd = some s' ∧ SameInput s s' ∧ ProcFrame c c' ∧
      c'.rBuffer = c.rBuffer := by
  rw [writeEventHandler, bind_eq_ok] at h
  obtain ⟨size, -, h⟩ := h
  dsimp only at h
  split_ifs at h
  · simp only [bind_eq_ok] at h
    obtain ⟨_, _, hret⟩ := h
    cases hret
  · simp only [bind_eq_ok] at h
    obtain ⟨s₀, hs₀, ⟨s₁, c₁⟩, hsend, size', -, h⟩ := h
    obtain rfl : s₀ = s := Option.some.inj ((sock_eq_ok.mp hs₀).symm.trans hs)
    obtain ⟨hsame, hfd, hatt, hbuf, harg⟩ := sendPending_frame hsend
    have hset : (sys.setSock c₁.fd s₁).socks c.fd = some s₁ := by
      rw [hfd]
      exact Function.update_self _ _ _
    dsimp only at h
    split_ifs at h
    · rw [bind_eq_ok] at h
      obtain ⟨sys₂, hdel, hret⟩ := h
      cases hret
      obtain ⟨loop, -, rfl⟩ := delFileEvent_eq hdel
      exact ⟨s₁, hset, hsame, ⟨hfd, hatt, harg⟩, hbuf⟩
    · cases h
      exact ⟨s₁, hset, hsame, ⟨hfd, hatt, harg⟩, hbuf⟩

/-! ## A package that is read whole -/

/-- The text a package is parsed as: its payload up to the first NUL. -/
def packageText (p : Bytes) : Bytes := p.takeWhile (· ≠ 0)

/-- The client behind a package that was read whole. -/
def ClientT.withPackage (c : ClientT) (p : Bytes) : ClientT :=
  { c with rBuffer := ⟨splice c.rBuffer.buff 0 (p ++ [0]), 0, p.length⟩
           arg := ArgT.process (packageText p) }

@[simp] theorem withPackage_fd (c : ClientT) (p : Bytes) : (c.withPackage p).fd = c.fd := rfl

@[simp] theorem withPackage_arg (c : ClientT) (p : Bytes) :
    (c.withPackage p).arg = ArgT.process (packageText p) := rfl

/-- A package that fits leaves the size of the read buffer. -/
theorem size_withPackage {c : ClientT} {p : Bytes} (h : p.length < c.rBuffer.size) :
    (c.withPackage p).rBuffer.size = c.rBuffer.size :=
  length_splice_nul h

/-- Bytes behind a NUL do not matter for what stands before the first one. -/
theorem takeWhile_nul (p rest : Bytes) :
    (p ++ 0 :: rest).takeWhile (· ≠ 0) = p.takeWhile (· ≠ 0) := by
  induction p with
  | nil => simp
  | cons b p ih =>
      by_cases hb : b = 0
      · simp [hb]
      · simpa [hb] using ih

/-- The C string of a package that was read ends at the NUL stored behind it, or before. -/
theorem cString_package {mem p : Bytes} :
    cString (splice mem 0 (p ++ [0])) = .ok (packageText p) := by
  have hmem : (0 : UInt8) ∈ splice mem 0 (p ++ [0]) := by simp [splice_zero]
  rw [cString, if_pos hmem, splice_zero, packageText]
  rw [List.append_assoc, List.singleton_append, takeWhile_nul]

/-- **`receive` of a package that is read whole.** -/
theorem receive_frame {s : Sock} {c : ClientT} {p rest : Bytes}
    (hin : s.inbox = frame headSize p ++ rest) (hp : p ≠ []) (hlen : p.length < c.rBuffer.size)
    (hsize : c.rBuffer.size ≤ 2 ^ 64) (h₁ : s.reads.headD .full = .full)
    (h₂ : s.reads.tail.headD .full = .full) :
    receive s c = .ok
      ({ s with inbox := rest, reads := s.reads.tail.tail, heads := s.heads.tail },
        some { c with rBuffer := ⟨splice c.rBuffer.buff 0 (p ++ [0]), 0, p.length⟩ }) := by
  have hpos : 0 < p.length := List.length_pos_iff.mpr hp
  set s₁ : Sock :=
    { s with inbox := p ++ rest, reads := s.reads.tail, heads := s.heads.tail } with hs₁
  have hread : s₁.read p.length =
      .ok (some p, { s₁ with inbox := rest, reads := s.reads.tail.tail }) := by
    rw [read_full (s := s₁) h₂ hpos (by simp [hs₁])]
    simp [hs₁]
  rw [receive, readHead_frame h₁ hin (by omega), ok_bind, ← hs₁]
  dsimp only
  rw [if_neg (by simp [leBytes, headSize]), receivePayload, hread, ok_bind]
  cases p with
  | nil => exact absurd rfl hp
  | cons b p =>
      simp only [BufferT.reset, Nat.zero_add]
      rw [store_nul, BufferT.length_buff, if_pos hlen]
      rfl

/-- **`read_event_handler` on a package that is read whole**: the client gets its arguments. -/
theorem readPackage_frame {sys : Sys} {s : Sock} {c : ClientT} {p rest : Bytes}
    (hs : sys.socks c.fd = some s) (hin : s.inbox = frame headSize p ++ rest) (hp : p ≠ [])
    (hlen : p.length < c.rBuffer.size) (hsize : c.rBuffer.size ≤ 2 ^ 64)
    (h₁ : s.reads.headD .full = .full) (h₂ : s.reads.tail.headD .full = .full) :
    readPackage sys c.fd c = .ok
      (sys.setSock c.fd
          { s with inbox := rest, reads := s.reads.tail.tail, heads := s.heads.tail },
        some (c.withPackage p)) := by
  rw [readPackage, sock_eq_ok.mpr hs, ok_bind, receive_frame hin hp hlen hsize h₁ h₂, ok_bind]
  simp only [processInputBuffer, cString_package, ok_bind]
  rfl

/-- Nothing is left to read: the header read waits. -/
theorem readPackage_empty {sys : Sys} {s : Sock} {c : ClientT} (hs : sys.socks c.fd = some s)
    (hin : s.inbox = []) (h₁ : s.reads.headD .full = .full) :
    readPackage sys c.fd c = .error .blocked := by
  have hread : s.freshHead.2.read headSize = .error .blocked := by
    simp only [Sock.read, Sock.freshHead, h₁, Sock.deliver, Sock.fetch, hin]
    rfl
  rw [readPackage, sock_eq_ok.mpr hs, ok_bind, receive, Sock.readHead]
  simp only [hread, error_bind]

/-- The header read returns 0. -/
theorem readPackage_closed {sys : Sys} {s : Sock} {c : ClientT} (hs : sys.socks c.fd = some s)
    (h₁ : s.reads.headD .full = .eof) : ∃ sys', readPackage sys c.fd c = .ok (sys', none) := by
  have hread : s.freshHead.2.read headSize = .ok (some [], { s.freshHead.2 with reads :=
      s.reads.tail }) := by
    simp only [Sock.read, Sock.freshHead, h₁, Sock.deliver]
  rw [readPackage, sock_eq_ok.mpr hs, ok_bind, receive, Sock.readHead]
  simp only [hread, ok_bind]
  exact ⟨_, rfl⟩

/-- The payload read returns 0. -/
theorem readPackage_cut {sys : Sys} {s : Sock} {c : ClientT} {p rest : Bytes}
    (hs : sys.socks c.fd = some s) (hin : s.inbox = frame headSize p ++ rest)
    (hlen : p.length < 2 ^ 64) (h₁ : s.reads.headD .full = .full)
    (h₂ : s.reads.tail.headD .full = .eof) :
    ∃ sys', readPackage sys c.fd c = .ok (sys', none) := by
  obtain ⟨s₂, hread⟩ : ∃ s₂, Sock.read
      { s with inbox := p ++ rest, reads := s.reads.tail, heads := s.heads.tail } p.length =
        .ok (some [], s₂) := by
    simp only [Sock.read, h₂, Sock.deliver]
    exact ⟨_, rfl⟩
  rw [readPackage, sock_eq_ok.mpr hs, ok_bind, receive, readHead_frame h₁ hin hlen, ok_bind]
  dsimp only
  rw [if_neg (by simp [leBytes, headSize]), receivePayload, hread]
  exact ⟨_, rfl⟩

/-! ## Runs -/

/-- What the event loop reports for the connection. -/
inductive ConnEvent
  | readable
  | writable
deriving DecidableEq, Repr

/-- The server's state with one connection, which is registered for reading. -/
def Sys.connected (fd self : ℕ) (s : Sock) (files : Files) : Sys where
  loop :=
    { maxFd := fd, fdsetSize := fd + 1
      events := List.replicate fd {} ++
        [{ mask := aeReadable, rProc := some .readEvent, clientData := some (.client self) }]
      fired := List.replicate (fd + 1) { fd := 0, mask := aeNone }
      apiData := some
        { eventsSize := fd + 1, interest := fun i => if i = fd then some epollIn else none } }
  socks i := if i = fd then some s else none
  files := files

/-- The client of a connection that was just accepted. -/
def ClientT.accepted (fd : ℕ) : ClientT :=
  { ClientT.create (fun _ => 0) (fun _ => 0) with fd, attached := true }

/-- The read buffer of a new client has the default size. -/
theorem size_rBuffer_accepted (fd : ℕ) : (ClientT.accepted fd).rBuffer.size = defaultBuffSize :=
  size_rBuffer_create (fun _ => 0) (fun _ => 0)

/-- The write buffer of a new client has the default size. -/
theorem size_wBuffer_accepted (fd : ℕ) : (ClientT.accepted fd).wBuffer.size = defaultBuffSize :=
  size_wBuffer_create (fun _ => 0) (fun _ => 0)

/-- The handler call for an event. The loop calls `write_event_handler` only while it is
registered. -/
def ConnEvent.handle (self : ℕ) (sys : Sys) (c : ClientT) :
    ConnEvent → Except Halt (Sys × Option ClientT)
  | .readable => readEventHandler sys self c.fd c
  | .writable =>
    if (sys.loop.entry c.fd).mask.has aeWritable then writeEventHandler sys c
    else .ok (sys, some c)

/-- The argument vector that the handler call gives to `process_command`, if it gets there. -/
def ConnEvent.handed (sys : Sys) (c : ClientT) : ConnEvent → List (List Bytes)
  | .readable =>
    match readPackage sys c.fd c with
    | .ok (_, some c') => [c'.arg]
    | _ => []
  | .writable => []

/-- The argument vectors that the handler calls of a run give to `process_command`. The run ends
early when the client is deleted or a handler does not return. -/
def dispatched (self : ℕ) : List ConnEvent → Sys → ClientT → List (List Bytes)
  | [], _, _ => []
  | e :: es, sys, c =>
    e.handed sys c ++
      match e.handle self sys c with
      | .ok (sys', some c') => dispatched self es sys' c'
      | _ => []

end AsprNet.Server
