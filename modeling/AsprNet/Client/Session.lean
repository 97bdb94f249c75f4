import AsprNet.Client.Wire

/-! # What a session of the client puts on the wire

Whatever the server answers, a line that `process` completes sends nothing, one command package,
or one upload (`process_wire`); a session sends these in the order of its lines (`session_wire`).
-/

namespace AsprNet

/-! ## Reading does not write -/

/-- `s'` has sent the same as `s`, and will write in the same way. -/
structure SameOutput (s s' : Sock) : Prop where
  outbox : s'.outbox = s.outbox
  writes : s'.writes = s.writes

namespace SameOutput

theorem refl (s : Sock) : SameOutput s s := ⟨rfl, rfl⟩

theorem trans {s t u : Sock} (h : SameOutput s t) (h' : SameOutput t u) : SameOutput s u :=
  ⟨h'.outbox.trans h.outbox, h'.writes.trans h.writes⟩

/-- One read writes nothing. -/
theorem deliver {s s' : Sock} {o : ReadOutcome} {n : ℕ} {got : Option Bytes}
    (h : s.deliver o n = .ok (got, s')) : SameOutput s s' := by
  have hfetch : ∀ m, s.fetch m = .ok (got, s') → SameOutput s s' := by
    intro m hm
    rw [Sock.fetch] at hm
    split_ifs at hm
    · obtain ⟨-, rfl⟩ := Prod.mk.inj (Except.ok.inj hm)
      exact .refl s
    · obtain ⟨-, rfl⟩ := Prod.mk.inj (Except.ok.inj hm)
      exact ⟨rfl, rfl⟩
  cases o with
  | full => exact hfetch n h
  | upTo k => exact hfetch _ h
  | eof =>
      obtain ⟨-, rfl⟩ := Prod.mk.inj (Except.ok.inj h)
      exact .refl s
  | err =>
      obtain ⟨-, rfl⟩ := Prod.mk.inj (Except.ok.inj h)
      exact .refl s

/-- By induction on the fuel: the reading loop writes nothing. -/
theorem anetReadLoop (fuel : ℕ) {s s' : Sock} {buf buf' : Bytes} {count r : ℤ} {totlen : ℕ}
    (h : AsprNet.anetReadLoop fuel s buf count totlen = .ok (r, buf', s')) : SameOutput s s' := by
  induction fuel generalizing s buf totlen with
  | zero => exact absurd h (by simp [AsprNet.anetReadLoop])
  | succ fuel ih =>
      rw [AsprNet.anetReadLoop] at h
      split_ifs at h
      · cases h
        exact .refl _
      · rw [bind_eq_ok] at h
        obtain ⟨⟨got, s₁⟩, hread, h⟩ := h
        have h₁ : SameOutput s s₁ :=
          (⟨rfl, rfl⟩ : SameOutput s { s with anetReads := s.anetReads.tail }).trans (deliver hread)
        cases got with
        | none =>
            cases h
            exact h₁
        | some bs =>
            dsimp only at h
            split_ifs at h
            · cases h
              exact h₁
            · rw [bind_eq_ok] at h
              obtain ⟨_, -, h⟩ := h
              exact h₁.trans (ih h)

/-- `anetRead` writes nothing. -/
theorem anetRead {s s' : Sock} {buf buf' : Bytes} {count r : ℤ}
    (h : AsprNet.anetRead s buf count = .ok (r, buf', s')) : SameOutput s s' := anetReadLoop _ h

/-- Reading a header writes nothing. -/
theorem anetReadHead {s s' : Sock} {n : ℕ} (h : s.anetReadHead = .ok (n, s')) :
    SameOutput s s' := by
  simp only [Sock.anetReadHead, Sock.freshHead, bind_eq_ok] at h
  obtain ⟨⟨_, _, s₁⟩, hread, hret⟩ := h
  cases hret
  exact (⟨rfl, rfl⟩ : SameOutput s { s with heads := s.heads.tail }).trans (anetRead hread)

/-- `recv_integer` writes nothing. -/
theorem recvInteger {s s' : Sock} {n : ℕ} (h : AsprNet.recvInteger s = .ok (n, s')) :
    SameOutput s s' := by
  simp only [AsprNet.recvInteger, bind_eq_ok] at h
  obtain ⟨⟨_, s₁⟩, hhead, ⟨_, _, s₂⟩, hread, hret⟩ := h
  cases hret
  exact (anetReadHead hhead).trans (anetRead hread)

end SameOutput

namespace Client

/-- `recv` writes nothing and changes nothing of the client but its receive buffer. -/
theorem recv_frame {s s' : Sock} {c c' : ClientT} {r : ℤ} (h : recv s c = .ok (r, s', c')) :
    SameOutput s s' ∧ ∃ b, c' = { c with rBuffer := b } := by
  simp only [recv, bind_eq_ok] at h
  obtain ⟨⟨_, s₁⟩, hhead, ⟨_, _, s₂⟩, hread, hret⟩ := h
  cases hret
  exact ⟨(SameOutput.anetReadHead hhead).trans (SameOutput.anetRead hread), _, rfl⟩

/-- Receiving the packages of a file writes nothing and changes the read buffer alone. -/
theorem recvChunks_frame {file : Option Bytes} (num : ℕ) {s s' : Sock} {fs fs' : Files}
    {c c' : ClientT}
    (h : recvChunks recv ClientT.rBuffer file num s fs c = .ok (s', fs', c')) :
    SameOutput s s' ∧ ∃ b, c' = { c with rBuffer := b } := by
  induction num generalizing s fs c with
  | zero =>
      cases h
      exact ⟨.refl _, _, rfl⟩
  | succ num ih =>
      rw [recvChunks, bind_eq_ok] at h
      obtain ⟨⟨r, s₁, c₁⟩, hrecv, h⟩ := h
      obtain ⟨hsame, b, rfl⟩ := recv_frame hrecv
      dsimp only at h
      split_ifs at h
      · cases h
        exact ⟨hsame, b, rfl⟩
      · simp only [bind_eq_ok] at h
        obtain ⟨_, _, fs₁, _, h⟩ := h
        obtain ⟨hsame', b', rfl⟩ := ih h
        exact ⟨hsame.trans hsame', b', rfl⟩

/-! ## What a line sends -/

/-- What the client sends for one line. -/
inductive Sending
  | ping
  | fileSend (name content : Bytes)
  | fileRecv (name : Bytes)
deriving DecidableEq

namespace Sending

/-- The payload of the command package. -/
def command : Sending → Bytes
  | .ping => text "ping"
  | .fileSend name _ => commandText (text "file_send") name
  | .fileRecv name => commandText (text "file_recv") name

/-- All packages, the command first. -/
def packages : Sending → List Bytes
  | .ping => [text "ping"]
  | .fileSend name content => uploadPackages name content
  | .fileRecv name => [commandText (text "file_recv") name]

/-- The line it is sent for. -/
def For (line : Bytes) : Sending → Prop
  | .ping => ArgT.process line = [text "ping"]
  | .fileSend name _ => ArgT.process line = [text "file_send", name] ∧ name.length ≤ maxArgLength
  | .fileRecv name => ArgT.process line = [text "file_recv", name] ∧ name.length ≤ maxArgLength

end Sending

/-- From one state to the other the client sent `ss`. -/
structure Sends (io io' : Io) (c c' : ClientT) (ss : List Sending) : Prop where
  outbox : io'.sock.outbox =
    io.sock.outbox ++ (ss.flatMap Sending.packages).flatMap (frame headSize)
  commands : c'.commands = c.commands ++ ss.map Sending.command
  willing : io'.sock.Willing
  size : c'.wBuffer.size = defaultBuffSize

namespace Sends

/-- Nothing was sent. -/
theorem none {io io' : Io} {c c' : ClientT} (hs : io.sock.Willing)
    (hc : c.wBuffer.size = defaultBuffSize) (hsock : SameOutput io.sock io'.sock)
    (hw : c'.wBuffer = c.wBuffer) (hcmd : c'.commands = c.commands) : Sends io io' c c' [] :=
  ⟨by simp [hsock.outbox], by simp [hcmd], by rw [Sock.Willing, hsock.writes]; exact hs,
    by rw [hw, hc]⟩

theorem trans {io io₁ io' : Io} {c c₁ c' : ClientT} {ss ss' : List Sending}
    (h : Sends io io₁ c c₁ ss) (h' : Sends io₁ io' c₁ c' ss') : Sends io io' c c' (ss ++ ss') :=
  ⟨by rw [h'.outbox, h.outbox]; simp, by rw [h'.commands, h.commands]; simp, h'.willing, h'.size⟩

end Sends

/-- **`send`** of a text that fits. -/
theorem send_wire {io : Io} {c : ClientT} (str : Bytes) (hs : io.sock.Willing)
    (hc : c.wBuffer.size = defaultBuffSize) (hlist : c.bufferList = [])
    (hlen : headSize + str.length < defaultBuffSize) :
    ∃ r os w, (∀ o ∈ os, o.Accepts) ∧ w.size = defaultBuffSize ∧
      send io c str = .ok (r,
        { io.allocated 1 with
          sock := { io.sock with outbox := io.sock.outbox ++ frame headSize str, writes := os } },
        { c with wBuffer := w, commands := c.commands ++ [str] }) := by
  obtain ⟨w, hwrite, hpacks, hsize⟩ := c.wBuffer.writePackage_packs (io.junk 0) (p := str)
    (by rw [hc]; exact hlen)
  obtain ⟨os, hos, hflush⟩ := flush2Server_willing (c := { c with wBuffer := w }) hs
    (hpacks.unsent (by rw [hsize, hc]; decide))
    (by rw [hlist]; exact fun _ hb => absurd hb List.not_mem_nil)
  have hqueued : queued w c.bufferList = frame headSize str := by
    rw [hlist, queued_packs hpacks .nil]
    simp
  rw [hqueued, drop_readable hpacks] at hflush
  refine ⟨int32 (sizeT (frame headSize str).length), os, w.reset, hos, hsize.trans hc, ?_⟩
  rw [send, BufferT.writeStr, hwrite, ok_bind, hflush, ok_bind, hlist]
  rfl

/-- A command package that was built has a short argument. -/
theorem length_le_of_commandPackage {w w' : BufferT} (hw : w.size = defaultBuffSize)
    (junk : ℕ → UInt8) {name arg : Bytes} (hname : IsFileCommand name)
    (h : commandPackage w junk name arg = .ok w') : arg.length ≤ maxArgLength := by
  by_contra hlong
  rw [commandPackage_overflows hw junk hname (by omega)] at h
  cases h

section Commands

variable {io io' : Io} {c c' : ClientT} {r : ℤ}

/-- A `ping_command` that returns has sent one ping. -/
theorem pingCommand_wire (hs : io.sock.Willing) (hc : c.wBuffer.size = defaultBuffSize)
    (hlist : c.bufferList = []) (h : pingCommand io c = .ok (r, io', c')) :
    Sends io io' c c' [.ping] := by
  obtain ⟨r₁, os, w, hos, hw, hsend⟩ := send_wire (text "ping") hs hc hlist (by decide)
  rw [pingCommand, hsend, ok_bind, bind_eq_ok] at h
  obtain ⟨⟨_, s₂, c₂⟩, hrecv, h⟩ := h
  obtain ⟨hsame, b, rfl⟩ := recv_frame hrecv
  simp only [flush2Client, bind_eq_ok] at h
  obtain ⟨⟨_, c₃⟩, ⟨_, _, hprint⟩, hret⟩ := h
  obtain ⟨-, rfl⟩ := Prod.mk.inj (Except.ok.inj hprint)
  obtain ⟨-, hret⟩ := Prod.mk.inj (Except.ok.inj hret)
  obtain ⟨rfl, rfl⟩ := Prod.mk.inj hret
  refine ⟨?_, ?_, ?_, ?_⟩
  · simp [hsame.outbox, Sending.packages]
  · simp [Sending.command]
  · rw [Sock.Willing, hsame.writes]
    exact hos
  · exact hw

/-- A file that `file_send` has sent could be read to its end. -/
theorem fileSend_reads {name : Bytes} (hc : c.wBuffer.size = defaultBuffSize)
    (h : fileSend io c name = .ok (r, io', c')) :
    name.length ≤ maxArgLength ∧ ∃ content, io.files.data name = some { bytes := content } := by
  rw [fileSend_eq] at h
  simp only [bind_eq_ok] at h
  obtain ⟨w, hpack, ⟨bs, file⟩, hchunks, -⟩ := h
  refine ⟨length_le_of_commandPackage hc (io.junk 0) (Or.inl rfl) hpack, ?_⟩
  have hopen : (io.allocated 1).files.fopenRead name =
      (io.files.data name).map fun d => { rest := d.bytes, ending := d.ending } := rfl
  rw [hopen] at hchunks
  cases hdata : io.files.data name with
  | none => simp [hdata, chunkRounds, readChunks, Files.handle] at hchunks
  | some d =>
      obtain ⟨content, ending⟩ := d
      cases ending with
      | eof => exact ⟨content, rfl⟩
      | error =>
          rw [hdata, Option.map_some, readChunks_error _ _ _ _ rfl rfl] at hchunks
          cases hchunks

/-- A `file_send_command` that returns has sent the name, which then fits, and some content. -/
theorem fileSendCommand_wire {name : Bytes} (hs : io.sock.Willing)
    (hc : c.wBuffer.size = defaultBuffSize) (harg : c.arg = [text "file_send", name])
    (h : fileSendCommand io c = .ok (r, io', c')) :
    name.length ≤ maxArgLength ∧ ∃ content, Sends io io' c c' [.fileSend name content] := by
  have hargv : ArgT.argv c.arg 1 = .ok name := by rw [harg]; rfl
  rw [fileSendCommand, fileCommand, hargv, ok_bind, bind_eq_ok] at h
  obtain ⟨⟨r₁, io₁, c₁⟩, hsend, hret⟩ := h
  cases hret
  obtain ⟨hlen, content, hfile⟩ := fileSend_reads hc hsend
  obtain ⟨os, r₂, io₂, w, hos, hw, hsend', -, hsock⟩ := fileSend_wire hs hc hlen hfile
  obtain ⟨rfl, hret⟩ := Prod.mk.inj (Except.ok.inj (hsend.symm.trans hsend'))
  obtain ⟨rfl, rfl⟩ := Prod.mk.inj hret
  exact ⟨hlen, content, by simp [hsock, Sending.packages], by simp [Sending.command],
    by rw [Sock.Willing, hsock]; exact hos, hw⟩

/-- A `file_recv_command` that returns has sent the name, which then fits. -/
theorem fileRecvCommand_wire {name : Bytes} (hs : io.sock.Willing)
    (hc : c.wBuffer.size = defaultBuffSize) (hlist : c.bufferList = [])
    (harg : c.arg = [text "file_recv", name]) (h : fileRecvCommand io c = .ok (r, io', c')) :
    name.length ≤ maxArgLength ∧ Sends io io' c c' [.fileRecv name] := by
  have hargv : ArgT.argv c.arg 1 = .ok name := by rw [harg]; rfl
  rw [fileRecvCommand, fileCommand, hargv, ok_bind, bind_eq_ok] at h
  obtain ⟨⟨r₁, io₁, c₁⟩, hrun, hret⟩ := h
  cases hret
  have hname : IsFileCommand (text "file_recv") := Or.inr rfl
  have hlen : name.length ≤ maxArgLength := by
    have hpack := hrun
    rw [fileRecv_eq, bind_eq_ok] at hpack
    obtain ⟨w, hpack, -⟩ := hpack
    exact length_le_of_commandPackage hc (io.junk 0) hname hpack
  have hmax : name.length ≤ 1005 := hlen
  rw [fileRecv, commandText_fileRecv, (commandText_packs hc (io.junk 0) hname hlen).1,
    ok_bind] at hrun
  obtain ⟨r₂, os, w, hos, hw, hsend⟩ := send_wire (commandText (text "file_recv") name) hs hc
    hlist (by rw [length_commandText hname name, headSize, defaultBuffSize]; omega)
  rw [hsend, ok_bind] at hrun
  simp only [bind_eq_ok] at hrun
  obtain ⟨⟨num, s₁⟩, hnum, ⟨s₂, fs, c₂⟩, hloop, _, -, hret⟩ := hrun
  have hsame := (SameOutput.recvInteger hnum).trans (recvChunks_frame _ hloop).1
  obtain ⟨b, rfl⟩ := (recvChunks_frame _ hloop).2
  cases hret
  exact ⟨hlen, by simp [hsame.outbox, Sending.packages], by simp [Sending.command],
    by rw [Sock.Willing, hsame.writes]; exact hos, hw⟩

end Commands

/-! ## Sessions -/

/-- The client after `process` has parsed a line. -/
def ClientT.parsed (c : ClientT) (line : Bytes) : ClientT :=
  { c with rBuffer := c.rBuffer.reset, bufferList := [], arg := ArgT.process line }

/-- **What `process` can do**: nothing but parse the line, or call the procedure of `argv(0)`. -/
theorem process_cases {table : List (Bytes × CommandT)} {io io' : Io} {c c' : ClientT}
    {line : Bytes} {r : ℤ} (h : process table io c line = .ok (r, io', c')) :
    (io' = io ∧ c' = c.parsed line) ∨
      ∃ name cmd, ArgT.argv (ArgT.process line) 0 = .ok name ∧ table.lookup name = some cmd ∧
        cmd.arityErr (ArgT.process line).length = false ∧
        cmd.proc io (c.parsed line) = .ok (r, io', c') := by
  rw [process, bind_eq_ok] at h
  obtain ⟨name, hname, h⟩ := h
  cases hlook : table.lookup name with
  | none =>
      simp only [hlook] at h
      cases h
      exact Or.inl ⟨rfl, rfl⟩
  | some cmd =>
      simp only [hlook] at h
      split_ifs at h with harity
      · cases h
        exact Or.inl ⟨rfl, rfl⟩
      · exact Or.inr ⟨name, cmd, hname, hlook, by simpa using harity, h⟩

/-- An argument list of one argument. -/
theorem argv_one {as : List Bytes} {name : Bytes} (h : ArgT.argv as 0 = .ok name)
    (hlen : as.length = 1) : as = [name] := by
  obtain ⟨a, rfl⟩ := List.length_eq_one_iff.mp hlen
  exact congrArg (fun a => [a]) (Except.ok.inj h)

/-- An argument list of two arguments. -/
theorem argv_two {as : List Bytes} {name : Bytes} (h : ArgT.argv as 0 = .ok name)
    (hlen : as.length = 2) : ∃ a, as = [name, a] := by
  obtain ⟨a, b, rfl⟩ := List.length_eq_two.mp hlen
  exact ⟨b, congrArg (fun a => [a, b]) (Except.ok.inj h)⟩

/-- **One line.** -/
theorem process_wire {io io' : Io} {c c' : ClientT} {line : Bytes} {r : ℤ}
    (hs : io.sock.Willing) (hc : c.wBuffer.size = defaultBuffSize)
    (h : process sCommandTable io c line = .ok (r, io', c')) :
    ∃ ss, (∀ s ∈ ss, Sending.For line s) ∧ Sends io io' c c' ss := by
  have hnone : Sends io io c (c.parsed line) [] := .none hs hc (.refl _) rfl rfl
  rcases process_cases h with ⟨rfl, rfl⟩ | ⟨name, cmd, hname, hlook, harity, hproc⟩
  · exact ⟨[], by simp, hnone⟩
  have harity : ∀ proc n, cmd = ⟨proc, n⟩ → 0 < n → ((ArgT.process line).length : ℤ) = n := by
    rintro proc n rfl hn
    simpa [CommandT.arityErr, hn] using harity
  simp only [sCommandTable, List.lookup_cons, List.lookup_nil] at hlook
  split at hlook
  · rename_i hping
    obtain rfl : name = text "ping" := by simpa using hping
    cases hlook
    have hlen := harity _ _ rfl (by decide)
    have hline := argv_one hname (by omega)
    exact ⟨[.ping], by simpa [Sending.For] using hline,
      hnone.trans (pingCommand_wire (c := c.parsed line) hs hc rfl hproc)⟩
  split at hlook
  · cases hlook
    cases hproc
    exact ⟨[], by simp, hnone⟩
  split at hlook
  · cases hlook
    cases hproc
    exact ⟨[], by simp, hnone⟩
  split at hlook
  · rename_i hsend
    obtain rfl : name = text "file_send" := by simpa using hsend
    cases hlook
    have hlen := harity _ _ rfl (by decide)
    obtain ⟨a, hline⟩ := argv_two hname (by omega)
    obtain ⟨hmax, content, hsends⟩ := fileSendCommand_wire (c := c.parsed line) hs hc hline hproc
    exact ⟨[.fileSend a content], by simpa [Sending.For] using ⟨hline, hmax⟩, hnone.trans hsends⟩
  split at hlook
  · rename_i hrecv
    obtain rfl : name = text "file_recv" := by simpa using hrecv
    cases hlook
    have hlen := harity _ _ rfl (by decide)
    obtain ⟨a, hline⟩ := argv_two hname (by omega)
    obtain ⟨hmax, hsends⟩ := fileRecvCommand_wire (c := c.parsed line) hs hc rfl hline hproc
    exact ⟨[.fileRecv a], by simpa [Sending.For] using ⟨hline, hmax⟩, hnone.trans hsends⟩
  · cases hlook

/-- **A session**: what was sent, line by line. -/
theorem session_wire {lines : List Bytes} {io io' : Io} {c c' : ClientT} (hs : io.sock.Willing)
    (hc : c.wBuffer.size = defaultBuffSize) (h : session lines io c = .ok (io', c')) :
    ∃ ss, (∀ s ∈ ss, ∃ line ∈ lines, Sending.For line s) ∧ Sends io io' c c' ss := by
  induction lines generalizing io c with
  | nil =>
      cases h
      exact ⟨[], by simp, .none hs hc (.refl _) rfl rfl⟩
  | cons line lines ih =>
      rw [session, List.foldlM_cons, bind_eq_ok] at h
      obtain ⟨⟨io₁, c₁⟩, hline, hrest⟩ := h
      simp only [bind_eq_ok] at hline
      obtain ⟨⟨r, io₂, c₂⟩, hprocess, hret⟩ := hline
      cases hret
      obtain ⟨ss, hfor, hsends⟩ := process_wire hs hc hprocess
      obtain ⟨ss', hfor', hsends'⟩ := ih hsends.willing hsends.size hrest
      refine ⟨ss ++ ss', fun s hmem => ?_, hsends.trans hsends'⟩
      rcases List.mem_append.mp hmem with hmem | hmem
      · exact ⟨line, List.mem_cons_self, hfor s hmem⟩
      · obtain ⟨line', hline', hs'⟩ := hfor' s hmem
        exact ⟨line', List.mem_cons_of_mem _ hline', hs'⟩

end Client

end AsprNet
