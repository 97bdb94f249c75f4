import AsprNet.Client.Wire

/-! # Uploading a file

When every direct `read(2)` of the server returns all it was asked for, the packages of
`client_t::file_send` make `read_event_handler` and `command::file_send_command` write the file
that was sent, however the reads inside `anetRead` and the writes of the client are cut
(`upload_correct`). `recv` makes a single `read(2)` for a chunk, so that one short read already
loses bytes (`upload_short_read`).
-/

namespace AsprNet

open Client (uploadPackages maxArgLength commandText)

namespace Server

/-- The direct reads of the next `n` packages are not cut short, the reads inside `anetRead` bring
data, and the receive buffer has its first size. There are two direct reads for a package. -/
structure NextWhole (n : ℕ) (s : Sock) (c : ClientT) : Prop where
  reads : ∀ o ∈ s.reads.take (2 * n), o = .full
  steady : s.Steady
  size : c.rBuffer.size = defaultBuffSize

/-- The direct reads of all coming packages are not cut short. -/
structure ReadsWhole (s : Sock) (c : ClientT) : Prop where
  reads : ∀ o ∈ s.reads, o = .full
  steady : s.Steady
  size : c.rBuffer.size = defaultBuffSize

namespace NextWhole

variable {n : ℕ} {s : Sock} {c : ClientT}

/-- The header of the next package arrives in one read. -/
theorem headD (h : NextWhole (n + 1) s c) : s.reads.headD .full = .full :=
  full_headD h.reads

/-- So does its payload. -/
theorem headD_tail (h : NextWhole (n + 1) s c) : s.reads.tail.headD .full = .full :=
  full_headD (tail_of_take h.reads)

/-- One package was read. -/
theorem tail_tail (h : NextWhole (n + 1) s c) : ∀ o ∈ s.reads.tail.tail.take (2 * n), o = .full :=
  tail_of_take (tail_of_take h.reads)

end NextWhole

namespace ReadsWhole

variable {s : Sock} {c : ClientT}

/-- What holds of all reads holds of the next ones. -/
theorem next (h : ReadsWhole s c) (n : ℕ) : NextWhole n s c :=
  ⟨fun o ho => h.reads o (List.mem_of_mem_take ho), h.steady, h.size⟩

/-- And conversely. -/
theorem of_next (h : ∀ n, NextWhole n s c) : ReadsWhole s c := by
  refine ⟨fun o ho => (h s.reads.length).reads o ?_, (h 0).steady, (h 0).size⟩
  rwa [List.take_of_length_le (by omega)]

/-- The header of the next package arrives in one read. -/
theorem headD (h : ReadsWhole s c) : s.reads.headD .full = .full := (h.next 1).headD

/-- So does its payload. -/
theorem headD_tail (h : ReadsWhole s c) : s.reads.tail.headD .full = .full := (h.next 1).headD_tail

/-- The reads behind the next package are whole as well. -/
theorem tail_tail (h : ReadsWhole s c) : ∀ o ∈ s.reads.tail.tail, o = .full :=
  fun o ho => h.reads o (List.mem_of_mem_tail (List.mem_of_mem_tail ho))

end ReadsWhole

/-- **`recv`** takes one package off the stream when its reads are whole. -/
theorem recv_receives : Receives recv ClientT.rBuffer NextWhole := by
  intro k s c p rest h hin hlen
  have hmax : p.length ≤ 1015 := hlen
  have hfits : p.length < c.rBuffer.buff.length := by
    rw [BufferT.length_buff, h.size, defaultBuffSize]
    omega
  have hread : Sock.read { s with inbox := p ++ rest, reads := s.reads.tail, heads := s.heads.tail }
      p.length = .ok (some p, { s with inbox := rest, reads := s.reads.tail.tail,
                                       heads := s.heads.tail }) := by
    rcases Nat.eq_zero_or_pos p.length with hzero | hpos
    · obtain rfl := List.length_eq_zero_iff.mp hzero
      simp only [Sock.read, h.headD_tail]
      rfl
    · rw [read_full h.headD_tail hpos (by simp)]
      simp
  have hn : sizeT (readResult (some p)) = p.length := sizeT_natCast (by omega)
  have hlen' : (splice c.rBuffer.buff 0 (p ++ [0])).length = defaultBuffSize := by
    rw [length_splice_nul hfits, BufferT.length_buff, h.size]
  refine ⟨{ s with inbox := rest, reads := s.reads.tail.tail, heads := s.heads.tail },
    { c with rBuffer := ⟨splice c.rBuffer.buff 0 (p ++ [0]), 0, p.length⟩ }, ?_, rfl,
    ⟨h.tail_tail, h.steady, hlen'⟩, ?_, ?_⟩
  · rw [recv, readHead_frame h.headD hin (by omega), ok_bind]
    dsimp only
    rw [recvPayload, hread, ok_bind]
    simp only [hn, Option.getD_some, BufferT.reset]
    rw [store_nul, if_pos hfits, int32_natCast (by omega)]
    rfl
  · rw [BufferT.readableSize, BufferT.checked_of_le _ (Nat.zero_le _)]
    · rfl
    · show p.length ≤ (splice c.rBuffer.buff 0 (p ++ [0])).length
      rw [hlen', defaultBuffSize]
      omega
  · simp [splice_zero]

/-- **`file_send_command`** writes the chunks of the stream to the file and stops behind them. -/
theorem fileSendCommand_frame_chunks (io : Io) {c : ClientT} {name content rest : Bytes} {k : ℕ}
    (h : NextWhole (k + (content.length / chunkSize + 1)) io.sock c)
    (harg : c.arg = [text "file_send", name])
    (hopen : io.files.canWrite (fileName name) = true) (hsize : content.length < 2 ^ 63)
    (hin : io.sock.inbox = frame headSize (leBytes 8 (content.length / chunkSize + 1)) ++
      ((chunks chunkSize content).flatMap (frame headSize) ++ rest)) :
    ∃ io' c', fileSendCommand io c = .ok (io', c') ∧
      io'.files = io.files.put (fileName name) content ∧ io'.sock.inbox = rest ∧
      NextWhole k io'.sock c' := by
  have hcount : content.length / chunkSize + 1 < 2 ^ 64 := by
    have := Nat.div_le_self content.length chunkSize
    omega
  obtain ⟨os, hos, hnum⟩ := recvInteger_frame h.steady hcount hin
  obtain ⟨s', c', hloop, hin', hgood⟩ := recvChunks_spec recv_receives (chunks chunkSize content)
    (s := { io.sock with
      inbox := (chunks chunkSize content).flatMap (frame headSize) ++ rest
      anetReads := os
      heads := io.sock.heads.tail })
    (c := c) io.files (fileName name) []
    ⟨by rw [length_chunks]; exact h.reads, hos, h.size⟩ rfl
    (fun p hp => length_le_of_mem_chunks hp)
    (ne_nil_of_mem_dropLast_chunks (by decide) content)
  rw [length_chunks, List.nil_append, flatten_chunks (by decide)] at hloop
  have hargv : ArgT.argv c.arg 1 = .ok name := by rw [harg]; rfl
  refine ⟨{ io with sock := s', files := io.files.put (fileName name) content }, c', ?_, rfl, hin',
    hgood⟩
  rw [fileSendCommand, hargv, ok_bind]
  simp only [Files.fopenWrite, hopen, if_true, hnum, ok_bind, hloop, Files.handle]
  rfl

/-- The table entry of `file_send`. -/
theorem processCommand_fileSend {sys : Sys} {self : ℕ} {c : ClientT} {name : Bytes}
    (harg : c.arg = [text "file_send", name]) :
    processCommand sCommandTable sys self c = do
      let io ← sys.io c.fd
      let (io, c') ← fileSendCommand io c
      return (sys.putIo c.fd io, c') := by
  have hname : ArgT.argv c.arg 0 = .ok (text "file_send") := by rw [harg]; rfl
  have hlook : sCommandTable.lookup (text "file_send") = some ⟨fileSendCommand, 2, false⟩ := rfl
  rw [processCommand, hname, ok_bind, hlook]
  simp [CommandT.arityErr, harg]

end Server

open Server

/-- The number of packages of an upload that are read with direct reads: the command and the
chunks. -/
def directPackages (content : Bytes) : ℕ := content.length / chunkSize + 2

/-- **`read_event_handler` on an upload**, a package `q` that is read as `file_send` of one
argument: it writes the file and stops behind the last chunk. -/
theorem readEventHandler_upload {sys : Sys} {self : ℕ} {c : ClientT} {s : Sock}
    {q name content rest : Bytes} {k : ℕ} (hq : q ≠ []) (hlen : q.length < defaultBuffSize)
    (harg : ArgT.process (packageText q) = [text "file_send", name])
    (hsize : content.length < 2 ^ 63) (hs : sys.socks c.fd = some s)
    (h : NextWhole (k + directPackages content) s c)
    (hopen : sys.files.canWrite (fileName name) = true)
    (hin : s.inbox = (q :: filePackages content).flatMap (frame headSize) ++ rest) :
    ∃ sys' b s', readEventHandler sys self c.fd c =
        .ok (sys', some { c.withPackage q with rBuffer := b }) ∧
      sys'.loop = sys.loop ∧ sys'.files = sys.files.put (fileName name) content ∧
      sys'.socks c.fd = some s' ∧ s'.inbox = rest ∧
      NextWhole k s' { c.withPackage q with rBuffer := b } := by
  have hfits : q.length < c.rBuffer.size := by
    rw [h.size]
    exact hlen
  have hin : s.inbox = frame headSize q ++
      (frame headSize (leBytes 8 (content.length / chunkSize + 1)) ++
        ((chunks chunkSize content).flatMap (frame headSize) ++ rest)) := by
    rw [hin, filePackages, List.flatMap_cons, List.flatMap_cons, List.append_assoc,
      List.append_assoc]
  have hread := readPackage_frame hs hin hq hfits (by rw [h.size]; decide) h.headD h.headD_tail
  set s₁ : Sock := { s with
    inbox := frame headSize (leBytes 8 (content.length / chunkSize + 1)) ++
      ((chunks chunkSize content).flatMap (frame headSize) ++ rest)
    reads := s.reads.tail.tail
    heads := s.heads.tail } with hs₁
  have harg : (c.withPackage q).arg = [text "file_send", name] := harg
  have hgood : NextWhole (k + (content.length / chunkSize + 1)) s₁ (c.withPackage q) :=
    ⟨h.tail_tail, h.steady, (size_withPackage hfits).trans h.size⟩
  have hio : (sys.setSock c.fd s₁).io c.fd = .ok ⟨s₁, sys.files, sys.junk⟩ :=
    io_eq_ok.mpr ⟨Function.update_self _ _ _, rfl, rfl⟩
  obtain ⟨io', c', hrun, hfiles, hrest, hgood'⟩ := fileSendCommand_frame_chunks
    ⟨s₁, sys.files, sys.junk⟩ hgood harg hopen hsize rfl
  obtain ⟨b, rfl⟩ := fileSendCommand_frame hrun
  refine ⟨(sys.setSock c.fd s₁).putIo c.fd io', b, io'.sock, ?_, rfl, hfiles,
    Function.update_self _ _ _, hrest, hgood'⟩
  rw [readEventHandler, hread, ok_bind]
  dsimp only
  rw [processCommand_fileSend harg]
  rw [withPackage_fd, hio, ok_bind, hrun, ok_bind]
  rfl

/-- An upload in front of packages that are all read whole leaves such packages. -/
theorem readEventHandler_upload_whole {sys : Sys} {self : ℕ} {c : ClientT} {s : Sock}
    {q name content rest : Bytes} (hq : q ≠ []) (hlen : q.length < defaultBuffSize)
    (harg : ArgT.process (packageText q) = [text "file_send", name])
    (hsize : content.length < 2 ^ 63) (hs : sys.socks c.fd = some s) (h : ReadsWhole s c)
    (hopen : sys.files.canWrite (fileName name) = true)
    (hin : s.inbox = (q :: filePackages content).flatMap (frame headSize) ++ rest) :
    ∃ sys' b s', readEventHandler sys self c.fd c =
        .ok (sys', some { c.withPackage q with rBuffer := b }) ∧
      sys'.loop = sys.loop ∧ sys'.files = sys.files.put (fileName name) content ∧
      sys'.socks c.fd = some s' ∧ s'.inbox = rest ∧
      ReadsWhole s' { c.withPackage q with rBuffer := b } := by
  have hrun k := @readEventHandler_upload sys self c s q name content rest k hq hlen harg hsize hs
    (h.next _) hopen hin
  obtain ⟨sys', b, s', hread, hloop, hfiles, hs', hrest, -⟩ := hrun 0
  refine ⟨sys', b, s', hread, hloop, hfiles, hs', hrest, .of_next fun k => ?_⟩
  -- it is the same run, however many packages are counted
  obtain ⟨sys₁, b₁, s₁, hread₁, -, -, hs₁, -, hnext⟩ := hrun k
  obtain ⟨rfl, hc⟩ := Prod.mk.inj (Except.ok.inj (hread.symm.trans hread₁))
  obtain rfl := Option.some.inj (hs'.symm.trans hs₁)
  rw [Option.some.inj hc]
  exact hnext

/-- **Uploads are correct when the server's direct reads are whole.** What `file_send` of a client
puts on the wire makes `read_event_handler` write the same bytes to the server's file and stop
right behind the last chunk. The segments of the client's writes and of the reads inside
`anetRead` do not matter. -/
theorem upload_correct {io : Io} {d : Client.ClientT} {name content : Bytes}
    (hname : IsArg name) (hblank : blank ∉ name) (hlen : name.length ≤ maxArgLength)
    (hsize : content.length < 2 ^ 63) (hfile : io.files.data name = some { bytes := content })
    (hwilling : io.sock.Willing) (hd : d.wBuffer.size = defaultBuffSize) :
    ∃ wire r io' d', Client.fileSend io d name = .ok (r, io', d') ∧
      io'.sock.outbox = io.sock.outbox ++ wire ∧
      ∀ sys self c s rest, sys.socks c.fd = some s → s.inbox = wire ++ rest →
        sys.files.canWrite (fileName name) = true → NextWhole (directPackages content) s c →
        ∃ sys' c' s', readEventHandler sys self c.fd c = .ok (sys', some c') ∧
          sys'.files.data (fileName name) = some { bytes := content } ∧
          sys'.socks c.fd = some s' ∧ s'.inbox = rest := by
  obtain ⟨os, r, io', w, -, -, hsend, -, hsock⟩ := Client.fileSend_wire hwilling hd hlen hfile
  refine ⟨_, r, io', _, hsend, by rw [hsock], ?_⟩
  intro sys self c s rest hs hin hopen hwhole
  have hcmd : Client.IsFileCommand (text "file_send") := Or.inl rfl
  have hplen := Client.length_commandText hcmd name
  have hmax : name.length ≤ 1005 := hlen
  have harg : ArgT.process (packageText (commandText (text "file_send") name)) =
      [text "file_send", name] := by
    rw [Client.packageText_commandText hcmd hname, Client.process_commandText hcmd hname hblank]
  obtain ⟨sys', b, s', hrun, -, hfiles, hs', hrest, -⟩ := @readEventHandler_upload sys self c s
    (commandText (text "file_send") name) name content rest 0
    (by rw [← List.length_pos_iff]; omega) (by rw [hplen, defaultBuffSize]; omega) harg hsize hs
    (by rwa [Nat.zero_add]) hopen hin
  exact ⟨sys', _, s', hrun, by rw [hfiles, Files.data_put_self], hs', hrest⟩

/-- The upload of a file of two bytes, written in pieces; the number of chunks arrives in pieces,
too. A read behind the upload may fail. -/
theorem upload_correct_note :
    ∃ wire r io' d', Client.fileSend
        { sock := { writes := [.upTo 3, .upTo 9] }
          files := Files.empty.put (text "client-a") (text "hi") }
        (Client.ClientT.create (fun _ => 0) (fun _ => 0)) (text "client-a") = .ok (r, io', d') ∧
      io'.sock.outbox = [] ++ wire ∧
      ∃ sys' c' s', readEventHandler
          (Sys.connected 5 0
            { inbox := wire ++ [7], reads := [.full, .full, .full, .full, .err]
              anetReads := [.upTo 5, .full, .upTo 1] } Files.empty)
          0 5 (ClientT.accepted 5) = .ok (sys', some c') ∧
        sys'.files.data (text "a") = some { bytes := text "hi" } ∧
        sys'.socks 5 = some s' ∧ s'.inbox = [7] := by
  obtain ⟨wire, r, io', d', hsend, hout, hupload⟩ := @upload_correct
    { sock := { writes := [.upTo 3, .upTo 9] }
      files := Files.empty.put (text "client-a") (text "hi") }
    (Client.ClientT.create (fun _ => 0) (fun _ => 0)) (text "client-a") (text "hi")
    ⟨by decide +kernel, 99, text "lient-a", by decide +kernel, Or.inr rfl⟩ (by decide +kernel)
    (by decide) (by decide) (Files.data_put_self _ _ _)
    (by simp [Sock.Willing, WriteOutcome.Accepts]) (Client.size_wBuffer_create _ _)
  have hname : fileName (text "client-a") = text "a" := by decide
  have hreads : ∀ o ∈ [.full, .full, .full, .full, .err].take (2 * directPackages (text "hi")),
      o = ReadOutcome.full := by decide
  rw [hname] at hupload
  exact ⟨wire, r, io', d', hsend, hout, hupload _ 0 (ClientT.accepted 5) _ _ rfl rfl rfl ⟨hreads,
    by simp [Sock.Steady, ReadOutcome.IsData], size_rBuffer_create (fun _ => 0) fun _ => 0⟩⟩

/-- The payload of the only chunk arrives in two segments: the second byte is neither written nor
taken off the stream. -/
theorem upload_short_read :
    ¬∃ sys' c' s', readEventHandler
        (Sys.connected 5 0
          { inbox := (uploadPackages (text "client-a") (text "hi")).flatMap (frame headSize)
            reads := [.full, .full, .full, .upTo 1] } Files.empty)
        0 5 (ClientT.accepted 5) = .ok (sys', some c') ∧
      sys'.files.data (fileName (text "client-a")) = some { bytes := text "hi" } ∧
      sys'.socks 5 = some s' ∧ s'.inbox = [] := by
  have hfile : ((readEventHandler
      (Sys.connected 5 0
        { inbox := (uploadPackages (text "client-a") (text "hi")).flatMap (frame headSize)
          reads := [.full, .full, .full, .upTo 1] } Files.empty)
      0 5 (ClientT.accepted 5)).toOption.bind fun r =>
        r.1.files.data (fileName (text "client-a"))) = some { bytes := text "h" } := by
    decide +kernel
  rintro ⟨sys', c', s', hrun, hdata, -, -⟩
  rw [hrun] at hfile
  simp only [Except.toOption, Option.bind_some, hdata] at hfile
  exact absurd hfile (by decide)

-- A short read may also do no harm: here the six bytes that are left of the first chunk and the two
-- that follow are a length field, which asks for all that is still to come.
example :
    ((readEventHandler
        (Sys.connected 5 0
          { inbox := (uploadPackages (text "client-a")
              (List.replicate 1015 0 ++ text "hi")).flatMap (frame headSize)
            reads := [.full, .full, .full, .upTo 1009] } Files.empty)
        0 5 (ClientT.accepted 5)).toOption.bind fun r =>
      (r.1.files.data (fileName (text "client-a"))).map (·.bytes)) =
    some (List.replicate 1015 0 ++ text "hi") := by decide +kernel

end AsprNet
