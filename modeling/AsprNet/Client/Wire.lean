import AsprNet.Client.CommandLine

/-! # What the client puts on the wire

On a socket that accepts bytes at every `write(2)`, however few, `flush_2_server` sends the
command package and then the buffers of the list. `file_send` makes that the command, the number
of chunks and the chunks (`fileSend_wire`).
-/

namespace AsprNet.Client

/-- **`flush_2_server` on a willing socket** sends the queued output and returns its length. -/
theorem flush2Server_willing {s : Sock} (hs : s.Willing) {c : ClientT} (hw : c.wBuffer.Unsent)
    (hlist : ∀ b ∈ c.bufferList, b.Unsent) :
    ∃ os, (∀ o ∈ os, o.Accepts) ∧ flush2Server s c = .ok
      (sizeT (queued c.wBuffer c.bufferList).length,
        { s with outbox := s.outbox ++ queued c.wBuffer c.bufferList, writes := os },
        { c with wBuffer := c.wBuffer.reset, bufferList := [],
                 commands := c.commands ++ [c.wBuffer.readable.drop headSize] }) := by
  -- `_w_buffer` goes first, as a list of one buffer
  obtain ⟨a, os₁, r, -, hos₁, hwrite, -, hall⟩ := anetWrite_sound s hw.toSound
  obtain ⟨ha, hr⟩ := hall hs
  have hread : c.wBuffer.buff.take a = c.wBuffer.readable := by
    rw [ha, hw.first, Nat.sub_zero, hw.readable]
  have hlen : a = c.wBuffer.readable.length := by rw [hw.length_readable, ha]
  rw [hread, hr] at hwrite
  have hs₁ : Sock.Willing { s with outbox := s.outbox ++ c.wBuffer.readable, writes := os₁ } :=
    fun o ho => hs o (hos₁.subset ho)
  obtain ⟨os, hos, hsend⟩ := sendBuffers_willing hs₁ hlist
  refine ⟨os, hos, ?_⟩
  rw [flush2Server, hw.readableSize, ok_bind, hwrite, ok_bind]
  dsimp only
  rw [hsend, ok_bind, queued, List.append_assoc, List.length_append, hlen]
  push_cast
  rfl

/-- The payload that the trace of commands gets. -/
theorem drop_readable {b : BufferT} {p : Bytes} (h : b.Packs p) :
    b.readable.drop headSize = p := by
  rw [h.readable, frame, List.drop_left' (length_leBytes _ _)]

/-- The packages of an upload: the command, then the file. -/
def uploadPackages (name content : Bytes) : List Bytes :=
  commandText (text "file_send") name :: filePackages content

theorem commandText_fileRecv (name : Bytes) :
    text "file_recv " ++ name = commandText (text "file_recv") name := rfl

/-- **`file_send`** of a file that can be read to its end. -/
theorem fileSend_wire {io : Io} {c : ClientT} {name content : Bytes} (hs : io.sock.Willing)
    (hc : c.wBuffer.size = defaultBuffSize) (hlen : name.length ≤ maxArgLength)
    (hfile : io.files.data name = some { bytes := content }) :
    ∃ os r io' w, (∀ o ∈ os, o.Accepts) ∧ w.size = defaultBuffSize ∧
      fileSend io c name = .ok (r, io',
        { c with wBuffer := w, bufferList := [],
                 commands := c.commands ++ [commandText (text "file_send") name] }) ∧
      io'.files = io.files ∧
      io'.sock =
        { io.sock with
          outbox := io.sock.outbox ++ (uploadPackages name content).flatMap (frame headSize)
          writes := os } := by
  obtain ⟨w, hwrite, hpacks, hsize⟩ := commandPackage_packs (w := c.wBuffer) hc (io.junk 0) name
    (Or.inl rfl) hlen
  have hopen : (io.allocated 1).files.fopenRead name = some ⟨content, .eof, false, false⟩ := by
    simp [Io.allocated, Files.fopenRead, hfile]
  obtain ⟨bs, f', hchunks, hall, hsizes⟩ := readChunks_spec (io.allocated 1).junk
    (chunkRounds (some ⟨content, .eof, false, false⟩)) 0 ⟨content, .eof, false, false⟩ rfl rfl
    (by simp [chunkRounds])
  have hcount : bs.length = content.length / chunkSize + 1 := by
    rw [hall.length_eq, length_chunks]
  obtain ⟨bn, hbn, hbnp, hbns⟩ := (BufferT.create (((io.allocated 1).allocated bs.length).junk 0))
    |>.writePackage_packs (((io.allocated 1).allocated bs.length).junk 1)
      (p := leBytes 8 bs.length) (by rw [size_create, length_leBytes]; decide)
  have hlist : List.Forall₂ BufferT.Packs (bn :: bs) (filePackages content) := by
    rw [filePackages, ← hcount]
    exact .cons hbnp hall
  have hunsent := unsent_of_packs hlist (by simpa [hbns, size_create] using hsizes)
  obtain ⟨os, hos, hflush⟩ := flush2Server_willing (s := io.sock) hs
    (c := { c with wBuffer := w, bufferList := bn :: bs })
    (hpacks.unsent (by rw [hsize]; decide)) hunsent
  dsimp only at hflush
  rw [queued_packs hpacks hlist, drop_readable hpacks] at hflush
  refine ⟨os, int32 (sizeT ((uploadPackages name content).flatMap (frame headSize)).length),
    { ((io.allocated 1).allocated bs.length).allocated 2 with
      sock := { io.sock with
        outbox := io.sock.outbox ++ (uploadPackages name content).flatMap (frame headSize)
        writes := os } }, w.reset, hos, hsize, ?_, rfl, rfl⟩
  rw [fileSend_eq, hwrite, ok_bind]
  dsimp only
  rw [hopen, hchunks, ok_bind]
  dsimp only
  rw [BufferT.writeInt, hbn, ok_bind]
  simp only [Files.handle, ok_bind]
  rw [show ((io.allocated 1).allocated bs.length).sock = io.sock from rfl, hflush, ok_bind]
  rfl

end AsprNet.Client
