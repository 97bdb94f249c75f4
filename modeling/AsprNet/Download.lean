import AsprNet.Client.Session
import AsprNet.Server.Replies

/-! # Downloading a file

`file_recv_command` queues the number of chunks and the chunks, `write_event_handler` sends them,
and `client_t::file_recv` reads them back with `anetRead`, which puts the segments together again.
Each end reads exactly what the other one writes (`download_correct`).
-/

namespace AsprNet

namespace Client

/-- The state in which `recv` takes packages off the stream. -/
structure ReadsSteadily (s : Sock) (c : ClientT) : Prop where
  steady : s.Steady
  size : c.rBuffer.size = defaultBuffSize

/-- **`recv`** takes one package off a steady stream. -/
theorem recv_receives : Receives recv ClientT.rBuffer fun _ => ReadsSteadily := by
  intro k s c p rest h hin hlen
  have hmax : p.length ≤ 1015 := hlen
  have hfits : p.length ≤ c.rBuffer.buff.length := by
    rw [BufferT.length_buff, h.size, defaultBuffSize]
    omega
  have hbuf : c.rBuffer.buff.length < 2 ^ 31 := by
    rw [BufferT.length_buff, h.size]
    decide
  obtain ⟨os₁, hos₁, hhead⟩ := anetReadHead_frame h.steady hin (by omega)
  set s₁ : Sock := { s with inbox := p ++ rest, anetReads := os₁, heads := s.heads.tail } with hs₁
  obtain ⟨os₂, hos₂, hread⟩ := anetRead_steady (s := s₁) hos₁ c.rBuffer.buff p.length
    (by simp [hs₁]) hfits hbuf
  have htake : s₁.inbox.take p.length = p := List.take_left' rfl
  have hdrop : s₁.inbox.drop p.length = rest := List.drop_left' rfl
  rw [htake, hdrop] at hread
  have hlen' : (splice c.rBuffer.buff 0 p).length = defaultBuffSize := by
    rw [length_splice (by omega), BufferT.length_buff, h.size]
  refine ⟨{ s₁ with inbox := rest, anetReads := os₂ },
    { c with rBuffer := ⟨splice c.rBuffer.buff 0 p, 0, p.length⟩ }, ?_, rfl, ⟨hos₂, hlen'⟩, ?_, ?_⟩
  · rw [recv, hhead, ok_bind]
    dsimp only
    rw [int32_natCast (by omega), hread, ok_bind, sizeT_natCast (by omega)]
    rfl
  · rw [BufferT.readableSize, BufferT.checked_of_le _ (Nat.zero_le _)]
    · rfl
    · show p.length ≤ (splice c.rBuffer.buff 0 p).length
      rw [hlen', defaultBuffSize]
      omega
  · simp [splice_zero]

/-- **`file_recv`** writes the file that the stream brings. -/
theorem fileRecv_file {io : Io} {c : ClientT} {name content : Bytes} (rest : Bytes)
    (hs : io.sock.Willing) (hsteady : io.sock.Steady) (hc : c.wBuffer.size = defaultBuffSize)
    (hr : c.rBuffer.size = defaultBuffSize) (hlist : c.bufferList = [])
    (hlen : name.length ≤ maxArgLength) (hopen : io.files.canWrite name = true)
    (hsize : content.length < 2 ^ 63)
    (hin : io.sock.inbox = (filePackages content).flatMap (frame headSize) ++ rest) :
    ∃ io' c', fileRecv io c name = .ok (0, io', c') ∧
      io'.sock.outbox = io.sock.outbox ++ frame headSize (commandText (text "file_recv") name) ∧
      io'.sock.inbox = rest ∧ io'.files = io.files.put name content := by
  have hname : IsFileCommand (text "file_recv") := Or.inr rfl
  have hmax : name.length ≤ 1005 := hlen
  have hcount : content.length / chunkSize + 1 < 2 ^ 64 := by
    have := Nat.div_le_self content.length chunkSize
    omega
  obtain ⟨r, os, w, -, -, hsend⟩ := send_wire (commandText (text "file_recv") name) hs hc
    hlist (by rw [length_commandText hname name, headSize, defaultBuffSize]; omega)
  set s₁ : Sock := { io.sock with
    outbox := io.sock.outbox ++ frame headSize (commandText (text "file_recv") name)
    writes := os } with hs₁
  have hin₁ : s₁.inbox = frame headSize (leBytes 8 (content.length / chunkSize + 1)) ++
      ((chunks chunkSize content).flatMap (frame headSize) ++ rest) := by
    rw [hs₁]
    dsimp only
    rw [hin, filePackages, List.flatMap_cons, List.append_assoc]
  obtain ⟨os₁, hos₁, hnum⟩ := recvInteger_frame (s := s₁) hsteady hcount hin₁
  set s₂ : Sock := { s₁ with
    inbox := (chunks chunkSize content).flatMap (frame headSize) ++ rest
    anetReads := os₁
    heads := s₁.heads.tail } with hs₂
  obtain ⟨s₃, c₃, hloop, hin₃, -⟩ := recvChunks_spec recv_receives (chunks chunkSize content)
    (k := 0) (s := s₂) (c := { c with wBuffer := w, commands :=
      c.commands ++ [commandText (text "file_recv") name] }) io.files name [] ⟨hos₁, hr⟩ rfl
    (fun p hp => length_le_of_mem_chunks hp) (ne_nil_of_mem_dropLast_chunks (by decide) content)
  rw [length_chunks, List.nil_append, flatten_chunks (by decide)] at hloop
  have hout : s₃.outbox = s₁.outbox := (recvChunks_frame _ hloop).1.outbox
  refine ⟨{ io.allocated 1 with sock := s₃, files := io.files.put name content }, c₃, ?_, hout,
    hin₃, rfl⟩
  rw [fileRecv, commandText_fileRecv, (commandText_packs hc (io.junk 0) hname hlen).1, ok_bind,
    hsend, ok_bind]
  simp only [Io.allocated, Files.fopenWrite, hopen, if_true, hnum, ok_bind, hloop, Files.handle]
  rfl

end Client

open Client (commandText maxArgLength)

/-- The request of a download. -/
theorem request_fileRecv {files : Files} {name content : Bytes} (hname : IsArg name)
    (hblank : blank ∉ name) (hlen : name.length ≤ maxArgLength)
    (hfile : files.data (Server.fileName name) = some { bytes := content }) :
    Server.Request files (commandText (text "file_recv") name) (filePackages content) := by
  have hcmd : Client.IsFileCommand (text "file_recv") := Or.inr rfl
  have hmax : name.length ≤ 1005 := hlen
  refine ⟨by simp [commandText, text], ?_, ?_⟩
  · rw [Client.length_commandText hcmd name, defaultBuffSize]
    omega
  · rw [Client.packageText_commandText hcmd hname, Client.process_commandText hcmd hname hblank]
    exact .fileRecv hfile

open Server in
/-- **Downloads are correct**, for every content and every segmentation of the two streams. On an
idle connection, when the client's request is to be read and is read whole, the server sends what
the client then reads, and nothing stays queued. The client sends what the server has read, and
ends with the file of the server. -/
theorem download_correct {name content : Bytes} (hname : IsArg name) (hblank : blank ∉ name)
    (hlen : name.length ≤ maxArgLength) (hsize : content.length < 2 ^ 63)
    {w : World} {p : ℕ} {c : ClientT} {s : Sock} (hconn : Conn w p c false)
    (hs : w.sys.socks c.fd = some s) (hreads : ∀ o ∈ s.reads.take 2, o = .full)
    (hwilling : s.Willing)
    (hfile : w.sys.files.data (fileName name) = some { bytes := content })
    (hrequest : s.inbox = frame headSize (commandText (text "file_recv") name))
    {reports : List Mask} (honce : requestsRead (reports.flatMap reportedEvents) = 1)
    (hlast : (reports.flatMap reportedEvents).getLast? = some .writable)
    {io : Io} {d : Client.ClientT} (hwilling' : io.sock.Willing) (hsteady : io.sock.Steady)
    (hd : d.wBuffer.size = defaultBuffSize) (hr : d.rBuffer.size = defaultBuffSize)
    (hlist : d.bufferList = []) (hopen : io.files.canWrite name = true)
    (hreply : io.sock.inbox = (filePackages content).flatMap (frame headSize)) :
    (∃ w' c' s', runReports c.fd reports w = .ok w' ∧ w'.heap p = some c' ∧
      w'.sys.socks c.fd = some s' ∧ s'.outbox = s.outbox ++ io.sock.inbox ∧ s'.inbox = [] ∧
      c'.wBuffer.readable = [] ∧ c'.bufferList = [] ∧
      (w'.sys.loop.entry c.fd).mask.has aeWritable = false) ∧
    ∃ io' d', Client.fileRecv io d name = .ok (0, io', d') ∧
      io'.sock.outbox = io.sock.outbox ++ s.inbox ∧ io'.sock.inbox = [] ∧
      io'.files.data name = some { bytes := content } := by
  constructor
  · have hstart : Answering w p c.fd w.sys.files s.outbox
        [(commandText (text "file_recv") name, filePackages content)] false false c s :=
      { conn := hconn
        descriptor := rfl
        sock := hs
        files := rfl
        inbox := by rw [hrequest]; simp
        willing := hwilling
        first := by simp
        kept := fun _ => by rw [hconn.serving.queued_nil, List.append_nil]
        missing := by simp }
    obtain ⟨w', b, c', s', hrun, hans, hend⟩ := answering_run hstart
      (by simpa using request_fileRecv hname hblank hlen hfile) reports (by rwa [honce]) honce.le
    obtain rfl := hend hlast
    -- a schedule with one readable report does not overlap
    have hover : overlaps false (reports.flatMap reportedEvents) = false :=
      overlaps_of_count_le honce.le
    rw [honce, hover] at hans
    have hnil := hans.conn.serving.queued_nil
    have hkept := hans.kept rfl
    rw [hnil, List.append_nil] at hkept
    have hreg := hans.conn.serving.registered.has_writable
    rw [hans.descriptor] at hreg
    rw [ClientT.queued, queued, List.append_eq_nil_iff] at hnil
    refine ⟨w', c', s', hrun, hans.conn.heap, hans.sock, ?_, hans.inbox, hnil.1,
      hans.conn.serving.idle rfl, hreg⟩
    rw [hkept, hreply]
    simp [replyBytes]
  · obtain ⟨io', d', hrun, hout, hin, hfiles⟩ := Client.fileRecv_file [] hwilling' hsteady
      hd hr hlist hlen hopen hsize (by rw [hreply, List.append_nil])
    exact ⟨io', d', hrun, by rw [hout, hrequest], hin, by rw [hfiles, Files.data_put_self]⟩

open Server in
/-- The download of a file of two bytes, with both streams cut into pieces. -/
theorem download_correct_note :
    (∃ w' c' s', runReports 5 [epollIn, epollOut] (World.connected 5 0
          { inbox := frame headSize (commandText (text "file_recv") (text "client-a"))
            writes := [.upTo 3, .upTo 1] } (Files.empty.put (text "a") (text "hi"))) = .ok w' ∧
      w'.heap 0 = some c' ∧ w'.sys.socks 5 = some s' ∧
      s'.outbox = [] ++ (filePackages (text "hi")).flatMap (frame headSize) ∧ s'.inbox = [] ∧
      c'.wBuffer.readable = [] ∧ c'.bufferList = [] ∧
      (w'.sys.loop.entry 5).mask.has aeWritable = false) ∧
    ∃ io' d', Client.fileRecv
        { sock := { inbox := (filePackages (text "hi")).flatMap (frame headSize)
                    anetReads := [.upTo 3, .upTo 1] }
          files := Files.empty } (Client.ClientT.create (fun _ => 0) (fun _ => 0))
        (text "client-a") = .ok (0, io', d') ∧
      io'.sock.outbox = [] ++ frame headSize (commandText (text "file_recv") (text "client-a")) ∧
      io'.sock.inbox = [] ∧ io'.files.data (text "client-a") = some { bytes := text "hi" } := by
  have hname : IsArg (text "client-a") :=
    ⟨by decide +kernel, 99, text "lient-a", by decide +kernel, Or.inr rfl⟩
  have hfile : (Files.empty.put (text "a") (text "hi")).data (fileName (text "client-a")) =
      some { bytes := text "hi" } := by
    rw [show fileName (text "client-a") = text "a" by decide]
    exact Files.data_put_self _ _ _
  exact @download_correct (text "client-a") (text "hi") hname (by decide +kernel) (by decide)
    (by decide) _ 0 (ClientT.accepted 5) _ (conn_connected 5 0
      { inbox := frame headSize (commandText (text "file_recv") (text "client-a"))
        writes := [.upTo 3, .upTo 1] } (Files.empty.put (text "a") (text "hi"))) rfl (by simp)
    (by simp [Sock.Willing, WriteOutcome.Accepts]) hfile rfl [epollIn, epollOut] (by decide)
    (by decide)
    { sock := { inbox := (filePackages (text "hi")).flatMap (frame headSize)
                anetReads := [.upTo 3, .upTo 1] }
      files := Files.empty } (Client.ClientT.create (fun _ => 0) (fun _ => 0))
    (by simp [Sock.Willing]) (by simp [Sock.Steady, ReadOutcome.IsData])
    (Client.size_wBuffer_create _ _) (Client.size_rBuffer_create _ _) rfl rfl rfl

end AsprNet
