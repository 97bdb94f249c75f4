import AsprNet.Client.Halves
import AsprNet.Server.Channels
import AsprNet.Upload

/-! # A channel in service

What a connection in good order does with the requests of a client: it takes one request off its
stream at each readable event, carries it out on the files, and holds the reply until it is
writable. `Channel.Serves` is the good order; the theorems of `AsprNet.Server.Service` and
`AsprNet.Upload` are taken over to channels, where no table has to be mentioned.
-/

namespace AsprNet

open Client (commandText maxArgLength IsFileCommand Sending Awaited uploadPackages)

/-! ## Requests do not write -/

namespace SameOutput

/-- One read writes nothing. -/
theorem read {s s' : Sock} {n : ℕ} {got : Option Bytes} (h : s.read n = .ok (got, s')) :
    SameOutput s s' :=
  (⟨rfl, rfl⟩ : SameOutput s { s with reads := s.reads.tail }).trans (deliver h)

/-- Reading a header writes nothing. -/
theorem readHead {s s' : Sock} {got : Option Bytes} {n : ℕ} (h : s.readHead = .ok (got, n, s')) :
    SameOutput s s' := by
  simp only [Sock.readHead, Sock.freshHead, bind_eq_ok] at h
  obtain ⟨⟨_, s₁⟩, hread, hret⟩ := h
  cases hret
  exact (⟨rfl, rfl⟩ : SameOutput s { s with heads := s.heads.tail }).trans (read hread)

end SameOutput

namespace Server

/-- Receiving a package writes nothing. -/
theorem recv_sameOutput {s s' : Sock} {c c' : ClientT} {r : ℤ} (h : recv s c = .ok (r, s', c')) :
    SameOutput s s' := by
  simp only [recv, recvPayload, bind_eq_ok] at h
  obtain ⟨⟨_, _, s₁⟩, hhead, ⟨_, s₂⟩, hread, _, -, _, -, hret⟩ := h
  obtain ⟨-, hret⟩ := Prod.mk.inj (Except.ok.inj hret)
  obtain ⟨rfl, -⟩ := Prod.mk.inj hret
  exact (SameOutput.readHead hhead).trans (SameOutput.read hread)

/-- By induction on the number of packages: receiving a file writes nothing. -/
theorem recvChunks_sameOutput {file : Option Bytes} (num : ℕ) {s s' : Sock} {fs fs' : Files}
    {c c' : ClientT}
    (h : recvChunks recv ClientT.rBuffer file num s fs c = .ok (s', fs', c')) :
    SameOutput s s' := by
  induction num generalizing s fs c with
  | zero =>
      cases h
      exact .refl _
  | succ num ih =>
      rw [recvChunks, bind_eq_ok] at h
      obtain ⟨⟨r, s₁, c₁⟩, hrecv, h⟩ := h
      have hsame := recv_sameOutput hrecv
      dsimp only at h
      split_ifs at h
      · cases h
        exact hsame
      · simp only [bind_eq_ok] at h
        obtain ⟨_, -, fs₁, -, h⟩ := h
        exact hsame.trans (ih h)

/-- Receiving a request writes nothing. -/
theorem receive_sameOutput {s s' : Sock} {c : ClientT} {r : Option ClientT}
    (h : receive s c = .ok (s', r)) : SameOutput s s' := by
  rw [receive, bind_eq_ok] at h
  obtain ⟨⟨got, n, s₁⟩, hhead, h⟩ := h
  have hsame := SameOutput.readHead hhead
  dsimp only at h
  split_ifs at h
  · cases h
    exact hsame
  · rw [receivePayload, bind_eq_ok] at h
    obtain ⟨⟨got', s₂⟩, hread, h⟩ := h
    have hsame' := hsame.trans (SameOutput.read hread)
    rcases got' with _ | _ | ⟨x, xs⟩
    · cases h
      exact hsame'
    · cases h
      exact hsame'
    · simp only [bind_eq_ok] at h
      obtain ⟨_, -, _, -, hret⟩ := h
      cases hret
      exact hsame'

/-- No command of the table writes to the connection. -/
theorem sCommandTable_sameOutput {name : Bytes} {cmd : CommandT}
    (hcmd : sCommandTable.lookup name = some cmd) {io io' : Io} {c c' : ClientT}
    (h : cmd.proc io c = .ok (io', c')) : SameOutput io.sock io'.sock := by
  by_cases hname : name = text "file_send"
  · subst hname
    obtain rfl : cmd = ⟨fileSendCommand, 2, false⟩ := (Option.some.inj hcmd).symm
    simp only [fileSendCommand, bind_eq_ok] at h
    obtain ⟨_, -, ⟨num, s₁⟩, hnum, ⟨s₂, fs, c₁⟩, hloop, _, -, hret⟩ := h
    cases hret
    exact (SameOutput.recvInteger hnum).trans (recvChunks_sameOutput _ hloop)
  · obtain ⟨hsock, -⟩ := (sCommandTable_frame hcmd h).2 hname
    rw [hsock]
    exact .refl _

/-- **Reading a request writes nothing.** -/
theorem Channel.read_sameOutput {F F' : Store} {ch ch' : Channel}
    (h : ch.read F = .ok (F', some ch')) : SameOutput ch.sock ch'.sock := by
  rw [Channel.read, bind_eq_ok] at h
  obtain ⟨⟨s, r⟩, hrecv, h⟩ := h
  have hsame := receive_sameOutput hrecv
  cases r with
  | none => cases h
  | some c =>
      simp only [bind_eq_ok] at h
      obtain ⟨c', -, ⟨F₁, ch₁⟩, hcmd, hret⟩ := h
      cases hret
      refine hsame.trans ?_
      rw [Channel.command, bind_eq_ok] at hcmd
      obtain ⟨name, -, hcmd⟩ := hcmd
      cases hlook : sCommandTable.lookup name with
      | none =>
          rw [hlook] at hcmd
          cases hcmd
          exact .refl _
      | some cmd =>
          rw [hlook] at hcmd
          dsimp only at hcmd
          split_ifs at hcmd
          · cases hcmd
            exact .refl _
          · rw [bind_eq_ok] at hcmd
            obtain ⟨⟨io, c₁⟩, hproc, hret⟩ := hcmd
            cases hret
            exact sCommandTable_sameOutput hlook hproc

/-! ## A channel in good order -/

/-- The connection is registered for writing exactly while a reply is queued, of which nothing was
sent, and its socket does what it is asked for. -/
structure Channel.Serves (ch : Channel) : Prop where
  lo : 0 ≤ ch.client.fd
  attached : ch.client.attached = true
  wSound : ch.client.wBuffer.Sound
  list : ∀ b ∈ ch.client.bufferList, b.Unsent
  pending : ch.writing = true ↔ ch.client.wBuffer.readIdx < ch.client.wBuffer.writeIdx
  idle : ch.writing = false → ch.client.bufferList = []
  first : ch.writing = true → ch.client.wBuffer.readIdx = 0
  wSize : ch.client.wBuffer.size = defaultBuffSize
  whole : ReadsWhole ch.sock ch.client
  willing : ch.sock.Willing

/-- A stream of which nothing was read or written, and whose calls do what they are asked for. -/
structure Plain (s : Sock) : Prop where
  inbox : s.inbox = []
  outbox : s.outbox = []
  reads : ∀ o ∈ s.reads, o = .full
  steady : s.Steady
  willing : s.Willing

/-- A connection that was just accepted is in good order. -/
theorem Channel.accepted_serves {F : Store} {fd : ℕ} {s : Sock} (h : Plain s) :
    (Channel.accepted F fd s).Serves := by
  have hrSize : (Channel.accepted F fd s).client.rBuffer.size = defaultBuffSize :=
    size_rBuffer_create (F.junk 0) (F.junk 1)
  have hwSize : (Channel.accepted F fd s).client.wBuffer.size = defaultBuffSize :=
    size_wBuffer_create (F.junk 0) (F.junk 1)
  have hread : (Channel.accepted F fd s).client.wBuffer.readIdx = 0 := rfl
  have hwrite : (Channel.accepted F fd s).client.wBuffer.writeIdx = 0 := rfl
  refine ⟨Int.natCast_nonneg _, rfl, ⟨?_, ?_, ?_⟩, fun _ hb => absurd hb List.not_mem_nil, ?_,
    fun _ => rfl, fun _ => hread, hwSize, ⟨h.reads, h.steady, hrSize⟩, h.willing⟩
  · rw [hread, hwrite]
  · rw [hwrite]
    exact Nat.zero_le _
  · rw [hwSize]
    decide
  · rw [hread, hwrite]
    exact ⟨fun hw => Bool.noConfusion hw, fun hlt => absurd hlt (lt_irrefl _)⟩

/-- A system that shows the channel. -/
theorem Channel.exists_shows (F : Store) (ch : Channel) (h0 : 0 ≤ ch.client.fd) :
    ∃ sys, Shows sys ch.client.fd 0 ch ∧ sys.store = F := by
  obtain ⟨fd, hfd⟩ := Int.eq_ofNat_of_zero_le h0
  have hreg := (conn_connected fd 0 ch.sock F.files).serving.registered
  set sys : Sys := { Sys.connected fd 0 ch.sock F.files with junk := F.junk } with hsys
  have hreg : Registered sys.loop fd 0 false := hreg
  have hsock : sys.socks fd = some ch.sock := if_pos rfl
  rw [hfd]
  cases hw : ch.writing with
  | false => exact ⟨sys, ⟨hw ▸ hreg, hsock⟩, rfl⟩
  | true =>
      obtain ⟨r, l, -, hreg'⟩ := hreg.addWritable
      exact ⟨{ sys with loop := l }, ⟨hw ▸ hreg', hsock⟩, rfl⟩

namespace Channel.Serves

variable {ch : Channel} {F : Store}

/-- What is known of connections in service holds of the channel. -/
theorem serving (h : ch.Serves) {sys : Sys} {p : ℕ} (hshows : Shows sys ch.client.fd p ch) :
    Serving sys p ch.client ch.writing :=
  ⟨⟨hshows.registered, h.attached, h.wSound, h.list, h.pending, h.idle⟩, h.whole.size, h.wSize⟩

/-- More may come in. -/
theorem appendInbox (h : ch.Serves) (bs : Bytes) :
    Channel.Serves { ch with sock := { ch.sock with inbox := ch.sock.inbox ++ bs } } :=
  { h with whole := ⟨h.whole.reads, h.whole.steady, h.whole.size⟩, willing := h.willing }

/-- What was written may be taken away. -/
theorem takeOutbox (h : ch.Serves) :
    Channel.Serves { ch with sock := { ch.sock with outbox := [] } } :=
  { h with whole := ⟨h.whole.reads, h.whole.steady, h.whole.size⟩, willing := h.willing }

/-- Nothing is queued on a connection that is not registered for writing. -/
theorem queued_nil (h : ch.Serves) (hidle : ch.writing = false) : ch.client.queued = [] := by
  obtain ⟨sys, hshows, -⟩ := ch.exists_shows ⟨.empty, fun _ _ => 0⟩ h.lo
  have hserving := h.serving hshows
  rw [hidle] at hserving
  exact hserving.queued_nil

end Channel.Serves

/-! ## Handler calls -/

section Handlers

variable {sys sys' : Sys} {p : ℕ} {ch : Channel} {c' : ClientT}

/-- What is known of `read_event_handler` holds of the channel. -/
theorem Channel.read_of_handler (h : Shows sys ch.client.fd p ch)
    (hatt : ch.client.attached = true)
    (hrun : readEventHandler sys p ch.client.fd ch.client = .ok (sys', some c')) :
    ∃ ch', ch.read sys.store = .ok (sys'.store, some ch') ∧ ch'.client = c' ∧
      Shows sys' ch.client.fd p ch' := by
  obtain ⟨⟨F, r⟩, hread, hleaves⟩ := (readEventHandler_lockstep h hatt).of_ok hrun
  obtain ⟨ch', rfl, hc'⟩ := Option.map_eq_some_iff.mp hleaves.client.symm
  obtain rfl : sys'.store = F := hleaves.store
  exact ⟨ch', hread, hc', hleaves.shows ch' rfl⟩

/-- What is known of `write_event_handler` holds of the channel. -/
theorem Channel.write_of_handler (h : Shows sys ch.client.fd p ch)
    (hatt : ch.client.attached = true)
    (hrun : writeEventHandler sys ch.client = .ok (sys', some c')) :
    ∃ ch', ch.write sys.store = .ok (sys'.store, some ch') ∧ ch'.client = c' ∧
      Shows sys' ch.client.fd p ch' := by
  obtain ⟨⟨F, r⟩, hwrite, hleaves⟩ := (writeEventHandler_lockstep h hatt).of_ok hrun
  obtain ⟨ch', rfl, hc'⟩ := Option.map_eq_some_iff.mp hleaves.client.symm
  obtain rfl : sys'.store = F := hleaves.store
  exact ⟨ch', hwrite, hc', hleaves.shows ch' rfl⟩

/-- `write_event_handler` needs no memory and no files. -/
theorem Channel.write_store {F F' : Store} {r : Option Channel}
    (h : ch.write F = .ok (F', r)) : F' = F := by
  rw [Channel.write, bind_eq_ok] at h
  obtain ⟨size, -, h⟩ := h
  generalize int32 size = n at h
  by_cases hempty : n = 0
  · rw [if_pos hempty] at h
    obtain ⟨rfl, -⟩ := Prod.mk.inj (Except.ok.inj h)
    rfl
  · rw [if_neg hempty] at h
    simp only [bind_eq_ok] at h
    obtain ⟨x, -, size', -, hret⟩ := h
    obtain ⟨rfl, -⟩ := Prod.mk.inj (Except.ok.inj hret)
    rfl

/-- Two registrations of one entry agree. -/
theorem Shows.writing_eq {l : AeEventLoop EventProc ClientData} {fd : ℤ} {q : ℕ} {b : Bool}
    (h : Shows sys fd p ch) (hreg : Registered l fd q b) (hl : sys.loop = l) :
    ch.writing = b := by
  subst hl
  exact h.registered.has_writable.symm.trans hreg.has_writable

end Handlers

/-! ## One request -/

/-- A request was taken off the stream. -/
structure Channel.Took (ch ch' : Channel) (rest : Bytes) : Prop where
  serves : ch'.Serves
  inbox : ch'.sock.inbox = rest
  output : SameOutput ch.sock ch'.sock
  fd : ch'.client.fd = ch.client.fd

namespace Channel.Serves

variable {ch : Channel} {F : Store} {rest : Bytes}

/-- **An upload** is written to the file, and nothing is queued for it. -/
theorem read_upload (h : ch.Serves) {name content : Bytes} (hname : IsArg name)
    (hblank : blank ∉ name) (hlen : name.length ≤ maxArgLength) (hsize : content.length < 2 ^ 63)
    (hopen : F.files.canWrite (fileName name) = true)
    (hin : ch.sock.inbox = (uploadPackages name content).flatMap (frame headSize) ++ rest) :
    ∃ F' ch', ch.read F = .ok (F', some ch') ∧ F'.files = F.files.put (fileName name) content ∧
      ch.Took ch' rest ∧ ch'.writing = ch.writing ∧ ch'.client.queued = ch.client.queued := by
  obtain ⟨sys, hshows, rfl⟩ := ch.exists_shows F h.lo
  have hcmd : IsFileCommand (text "file_send") := Or.inl rfl
  have hplen := Client.length_commandText hcmd name
  have hmax : name.length ≤ 1005 := hlen
  have harg : ArgT.process (packageText (commandText (text "file_send") name)) =
      [text "file_send", name] := by
    rw [Client.packageText_commandText hcmd hname, Client.process_commandText hcmd hname hblank]
  obtain ⟨sys', b, s', hrun, hloop, hfiles, hs', hrest, hwhole⟩ :=
    @readEventHandler_upload_whole sys 0 ch.client ch.sock (commandText (text "file_send") name)
      name content rest (by rw [← List.length_pos_iff]; omega)
      (by rw [hplen, defaultBuffSize]; omega) harg hsize hshows.sock h.whole hopen hin
  obtain ⟨ch', hread, hc', hshows'⟩ := Channel.read_of_handler hshows h.attached hrun
  obtain rfl : ch'.sock = s' := Option.some.inj (hshows'.sock.symm.trans hs')
  have hwriting : ch'.writing = ch.writing := hshows'.writing_eq hshows.registered hloop
  have hsame := Channel.read_sameOutput hread
  refine ⟨_, ch', hread, hfiles, ⟨⟨?_, ?_, ?_, ?_, ?_, ?_, ?_, ?_, ?_, ?_⟩, hrest, hsame, ?_⟩,
    hwriting, ?_⟩
  · rw [hc']
    exact h.lo
  · rw [hc']
    exact h.attached
  · rw [hc']
    exact h.wSound
  · rw [hc']
    exact h.list
  · rw [hwriting, hc']
    exact h.pending
  · rw [hwriting, hc']
    exact h.idle
  · rw [hwriting, hc']
    exact h.first
  · rw [hc']
    exact h.wSize
  · rw [hc']
    exact hwhole
  · rw [Sock.Willing, hsame.writes]
    exact h.willing
  · rw [hc']
    rfl
  · rw [hc']
    rfl

/-- **A request that is answered** leaves its reply queued. -/
theorem read_request (h : ch.Serves) (hidle : ch.writing = false) {q : Bytes} {ps : List Bytes}
    (hq : Request F.files q ps) (hin : ch.sock.inbox = frame headSize q ++ rest) :
    ∃ F' ch', ch.read F = .ok (F', some ch') ∧ F'.files = F.files ∧ ch.Took ch' rest ∧
      ch'.writing = true ∧ ch'.client.queued = ps.flatMap (frame headSize) := by
  obtain ⟨sys, hshows, rfl⟩ := ch.exists_shows F h.lo
  obtain ⟨sys', c', keep, hrun, hserving, hfd, hs', hfiles, hidx, hkeep, hqueued⟩ :=
    (h.serving hshows).read_request hshows.sock rest hin hq h.whole.headD h.whole.headD_tail
  obtain ⟨ch', hread, rfl, hshows'⟩ := Channel.read_of_handler hshows h.attached hrun
  have hsock : ch'.sock = { ch.sock with
      inbox := rest, reads := ch.sock.reads.tail.tail, heads := ch.sock.heads.tail } :=
    Option.some.inj (hshows'.sock.symm.trans hs')
  have hwriting : ch'.writing = true := by
    have hreg := hserving.registered
    rw [hfd] at hreg
    exact hshows'.writing_eq hreg rfl
  -- an idle connection had no list to keep
  have hnil : keep = [] := by
    rcases hkeep with hkeep | hkeep
    · exact hkeep
    · rw [hkeep, h.idle hidle]
  rw [hnil, List.flatMap_nil, List.append_nil] at hqueued
  refine ⟨_, ch', hread, hfiles, ⟨⟨?_, hserving.attached, hserving.wSound, hserving.list, ?_, ?_,
    fun _ => hidx, hserving.wSize, ?_, ?_⟩, by rw [hsock], Channel.read_sameOutput hread, hfd⟩,
    hwriting, hqueued⟩
  · rw [hfd]
    exact h.lo
  · rw [hwriting]
    exact hserving.pending
  · rw [hwriting]
    exact hserving.idle
  · rw [hsock]
    exact ⟨h.whole.tail_tail, h.whole.steady, hserving.rSize⟩
  · rw [hsock]
    exact h.willing

/-- **A writable event** sends all that is queued. -/
theorem write_queued (h : ch.Serves) (hwriting : ch.writing = true) :
    ∃ ch', ch.write F = .ok (F, some ch') ∧ ch'.Serves ∧ ch'.writing = false ∧
      ch'.sock.inbox = ch.sock.inbox ∧ ch'.sock.outbox = ch.sock.outbox ++ ch.client.queued ∧
      ch'.client.fd = ch.client.fd := by
  obtain ⟨sys, hshows, rfl⟩ := ch.exists_shows F h.lo
  have hserving := h.serving hshows
  rw [hwriting] at hserving
  obtain ⟨sys', c', s', hrun, hstep, hfd, hr, hw, hs', hsame, hwilling, hout, hfiles⟩ :=
    hserving.write_willing hshows.sock h.willing (h.first hwriting)
  obtain ⟨ch', hwrite, rfl, hshows'⟩ := Channel.write_of_handler hshows h.attached hrun
  obtain rfl : ch'.sock = s' := Option.some.inj (hshows'.sock.symm.trans hs')
  have hidle : ch'.writing = false := by
    have hreg := hstep.registered
    rw [hfd] at hreg
    exact hshows'.writing_eq hreg rfl
  rw [Channel.write_store hwrite] at hwrite
  refine ⟨ch', hwrite, ⟨?_, hstep.attached, hstep.wSound, hstep.list, ?_, ?_, ?_, ?_, ?_, ?_⟩,
    hidle,
    hsame.inbox, hout, hfd⟩
  · rw [hfd]
    exact h.lo
  · rw [hidle]
    exact hstep.pending
  · rw [hidle]
    exact hstep.idle
  · simp [hidle]
  · rw [hw, h.wSize]
  · refine ⟨?_, ?_, by rw [hr]; exact h.whole.size⟩
    · rw [hsame.reads]
      exact h.whole.reads
    · rw [Sock.Steady, hsame.anetReads]
      exact h.whole.steady
  · exact hwilling

end Channel.Serves

/-! ## Requests of a client -/

end Server

namespace Client.Sending

/-- The request is one for the server too, of a file with an `off_t` size. -/
def Sent : Sending → Prop
  | .ping => True
  | .fileSend name content =>
    IsArg name ∧ blank ∉ name ∧ name.length ≤ maxArgLength ∧ content.length < 2 ^ 63
  | .fileRecv name => IsArg name ∧ blank ∉ name ∧ name.length ≤ maxArgLength

/-- What the request does to the server's files. -/
def effect (files : Files) : Sending → Files
  | .fileSend name content => files.put (Server.fileName name) content
  | .ping => files
  | .fileRecv _ => files

/-- The request can be carried out, and `b` is the reply, if there is one. -/
def Answers (files : Files) : Sending → Option Bytes → Prop
  | .ping, b => b = some (text "pong.")
  | .fileSend name _, b => files.canWrite (Server.fileName name) = true ∧ b = none
  | .fileRecv name, b =>
    ∃ content, files.data (Server.fileName name) = some { bytes := content } ∧ b = some content

/-- There is a reply exactly when one is awaited. -/
theorem Answers.isSome {files : Files} {q : Sending} {b : Option Bytes} (h : q.Answers files b) :
    b.isSome = q.awaits.isSome := by
  cases q with
  | ping =>
      obtain rfl : b = _ := h
      rfl
  | fileSend name content =>
      obtain ⟨-, rfl⟩ := h
      rfl
  | fileRecv name =>
      obtain ⟨content, -, rfl⟩ := h
      rfl

end Client.Sending

namespace Server

/-- What is queued for the reply `b` to `q`. -/
def replied (q : Sending) : Option Bytes → Bytes
  | none => []
  | some b => (q.awaits.toList.flatMap fun a => a.packages b).flatMap (frame headSize)

namespace Channel.Serves

variable {ch : Channel} {F F' : Store} {rest : Bytes} {q : Sending} {b : Option Bytes}

/-- **A request** that can be carried out is carried out, and its reply is queued. -/
theorem read_answers (h : ch.Serves) (hidle : ch.writing = false) (hq : q.Sent)
    (hans : q.Answers F.files b)
    (hin : ch.sock.inbox = q.packages.flatMap (frame headSize) ++ rest) :
    ∃ F' ch', ch.read F = .ok (F', some ch') ∧ F'.files = q.effect F.files ∧ ch.Took ch' rest ∧
      ch'.writing = b.isSome ∧ ch'.client.queued = replied q b := by
  cases q with
  | ping =>
      obtain rfl : b = _ := hans
      have harg : ArgT.process (packageText (text "ping")) = [text "ping"] := by decide +kernel
      rw [Sending.packages, List.flatMap_singleton] at hin
      exact h.read_request hidle
        (⟨by decide, by decide, by rw [harg]; exact .ping⟩ :
          Request F.files (text "ping") [text "pong."]) hin
  | fileSend name content =>
      obtain ⟨hopen, rfl⟩ := hans
      obtain ⟨hname, hblank, hlen, hsize⟩ := hq
      obtain ⟨F', ch', hread, hfiles, htook, hwriting, hqueued⟩ :=
        h.read_upload hname hblank hlen hsize hopen hin
      exact ⟨F', ch', hread, hfiles, htook, hwriting.trans hidle,
        hqueued.trans (h.queued_nil hidle)⟩
  | fileRecv name =>
      obtain ⟨content, hfile, rfl⟩ := hans
      obtain ⟨hname, hblank, hlen⟩ := hq
      rw [Sending.packages, List.flatMap_singleton] at hin
      obtain ⟨F', ch', hread, hfiles, htook, hwriting, hqueued⟩ :=
        h.read_request hidle (request_fileRecv hname hblank hlen hfile) hin
      refine ⟨F', ch', hread, hfiles, htook, hwriting, hqueued.trans ?_⟩
      simp [replied, Sending.awaits, Awaited.packages]

/-- Reading a package and calling its command. -/
theorem read_frame (h : ch.Serves) {p : Bytes} (hp : p ≠ []) (hlen : p.length < defaultBuffSize)
    (hin : ch.sock.inbox = frame headSize p ++ rest) :
    ch.read F = (Channel.command F ⟨ch.client.withPackage p, { ch.sock with
        inbox := rest, reads := ch.sock.reads.tail.tail, heads := ch.sock.heads.tail },
      ch.writing⟩ >>= fun r => Except.ok (r.1, some r.2)) := by
  rw [Channel.read, receive_frame hin hp (by rw [h.whole.size]; exact hlen)
    (by rw [h.whole.size]; decide) h.whole.headD h.whole.headD_tail, ok_bind]
  simp only [processInputBuffer, cString_package, ok_bind]
  rfl

/-- A request that was read could be carried out. -/
theorem answers_of_read (h : ch.Serves) (hq : q.Sent)
    (hin : ch.sock.inbox = q.packages.flatMap (frame headSize) ++ rest)
    {r : Store × Option Channel} (hread : ch.read F = .ok r) : ∃ b, q.Answers F.files b := by
  -- the file commands are called with the name
  have hcall : ∀ {cmd name : Bytes} {proc : CommandT} {rest : Bytes}, IsFileCommand cmd →
      IsArg name → blank ∉ name → name.length ≤ maxArgLength →
      sCommandTable.lookup cmd = some proc → proc.arity = 2 →
      ch.sock.inbox = frame headSize (commandText cmd name) ++ rest →
      ∃ io c r, c.arg = [cmd, name] ∧ io.files = F.files ∧ proc.proc io c = .ok r := by
    intro cmd name proc rest hcmd hname hblank hlen hlook harity hin
    have hplen := Client.length_commandText hcmd name
    have hmax : name.length ≤ 1005 := hlen
    rw [h.read_frame (by rw [← List.length_pos_iff]; omega)
      (by rw [hplen, defaultBuffSize]; omega) hin, bind_eq_ok] at hread
    obtain ⟨r', hcommand, -⟩ := hread
    have harg : (ch.client.withPackage (commandText cmd name)).arg = [cmd, name] := by
      rw [withPackage_arg, Client.packageText_commandText hcmd hname,
        Client.process_commandText hcmd hname hblank]
    have hargv : ArgT.argv [cmd, name] 0 = .ok cmd := rfl
    rw [Channel.command, harg, hargv, ok_bind, hlook] at hcommand
    simp only [CommandT.arityErr, harity] at hcommand
    rw [if_neg (by simp), bind_eq_ok] at hcommand
    obtain ⟨⟨io', c'⟩, hproc, -⟩ := hcommand
    exact ⟨_, _, _, harg, rfl, hproc⟩
  cases q with
  | ping => exact ⟨_, rfl⟩
  | fileSend name content =>
      obtain ⟨hname, hblank, hlen, -⟩ := hq
      rw [Sending.packages, uploadPackages, List.flatMap_cons, List.append_assoc] at hin
      obtain ⟨io, c, r', harg, hfiles, hproc⟩ := hcall (Or.inl rfl) hname hblank hlen rfl rfl hin
      refine ⟨none, ?_, rfl⟩
      have hargv : ArgT.argv c.arg 1 = .ok name := by rw [harg]; rfl
      simp only [fileSendCommand, hargv, ok_bind, bind_eq_ok] at hproc
      obtain ⟨_, -, _, -, _, hhandle, -⟩ := hproc
      rw [Files.fopenWrite, hfiles] at hhandle
      by_contra hclosed
      rw [if_neg hclosed] at hhandle
      cases hhandle
  | fileRecv name =>
      obtain ⟨hname, hblank, hlen⟩ := hq
      rw [Sending.packages, List.flatMap_singleton] at hin
      obtain ⟨io, c, r', harg, hfiles, hproc⟩ := hcall (Or.inr rfl) hname hblank hlen rfl rfl hin
      have hargv : ArgT.argv c.arg 1 = .ok name := by rw [harg]; rfl
      simp only [fileRecvCommand, hargv, ok_bind, bind_eq_ok] at hproc
      obtain ⟨⟨bs, file⟩, hchunks, -⟩ := hproc
      rw [Files.fopenRead, hfiles] at hchunks
      cases hdata : F.files.data (fileName name) with
      | none => simp [hdata, chunkRounds, readChunks, Files.handle] at hchunks
      | some d =>
          obtain ⟨content, ending⟩ := d
          cases ending with
          | eof => exact ⟨some content, content, hdata, rfl⟩
          | error =>
              rw [hdata, Option.map_some, readChunks_error _ _ _ _ rfl rfl] at hchunks
              cases hchunks

end Channel.Serves

end Server

end AsprNet
