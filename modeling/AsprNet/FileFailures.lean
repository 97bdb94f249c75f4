import AsprNet.Failures
import AsprNet.ReceiveBounds

/-! # File commands and files that do not open or cannot be read

None of the four functions that open a file looks at what `fopen` returned. With a file they never
use a null `FILE*`; without one they never return (`survives_iff_opened`).

The loop that cuts a file into chunks asks `feof` only. An error while reading does not set that
indicator, so the loop ends exactly for files that can be read to their end
(`chunking_terminates_iff`).
-/

namespace AsprNet

/-- A run of a function that opens a file: no null `FILE*` is used, and when the file did not open
the function still returns, in a good state. -/
structure Survives {α : Type} (opened : Prop) (good : α → Prop) (x : Except Halt α) : Prop where
  notNull : x ≠ .error .nullPointer
  returns : ¬opened → ∃ r, x = .ok r ∧ good r

/-- **The rule for all four.** A function that needs its file survives exactly when it has it. -/
theorem survives_iff {α β : Type} {file : Option β} {good : α → Prop} {x : Except Halt α}
    (hfails : FailsOnly (handleHalts file) x) (hneeds : ∀ r, x = .ok r → file.isSome) :
    Survives file.isSome good x ↔ file.isSome := by
  constructor
  · intro h
    by_contra hclosed
    obtain ⟨r, hr, -⟩ := h.returns hclosed
    exact hclosed (hneeds r hr)
  · intro hopen
    obtain ⟨f, rfl⟩ := Option.isSome_iff_exists.mp hopen
    exact ⟨hfails.ne (nullPointer_notMem f), fun hclosed => absurd hopen hclosed⟩

/-! ## The server -/

namespace Server

/-- For the server: a package is received by two direct reads. -/
theorem recv_fails (s : Sock) (c : ClientT) : FailsOnly ioHalts (recv s c) := by
  unfold recv recvPayload
  refine (Sock.readHead_fails s).bind fun x _ => (Sock.read_fails _ _).bind fun y _ => ?_
  refine (store_fails _ _ _).bind fun buff _ => ?_
  exact (store_fails _ _ _).bind fun buff' _ => .ok _

variable {io : Io} {c : ClientT} {arg : Bytes}

/-- `file_send_command` has a null pointer only when `fopen` to write failed. -/
theorem fileSendCommand_fails (harg : ArgT.argv c.arg 1 = .ok arg) :
    FailsOnly (handleHalts (io.files.fopenWrite (fileName arg)).1) (fileSendCommand io c) := by
  unfold fileSendCommand
  rw [harg, ok_bind]
  refine ((recvInteger_fails _).mono (ioHalts_subset _)).bind fun x _ => ?_
  refine (recvChunks_fails recv_fails _ _ _ _ _ _).bind fun y _ => ?_
  exact (handle_fails _).bind fun _ _ => .ok _

/-- It returns only with an open file. -/
theorem isSome_of_fileSendCommand (harg : ArgT.argv c.arg 1 = .ok arg) {r : Io × ClientT}
    (h : fileSendCommand io c = .ok r) : (io.files.fopenWrite (fileName arg)).1.isSome := by
  unfold fileSendCommand at h
  rw [harg, ok_bind] at h
  obtain ⟨x, -, h⟩ := bind_eq_ok.mp h
  obtain ⟨y, -, h⟩ := bind_eq_ok.mp h
  obtain ⟨f, hfile, -⟩ := bind_eq_ok.mp h
  exact isSome_of_handle hfile

/-- `file_recv_command` has a null pointer only when `fopen` to read failed. -/
theorem fileRecvCommand_fails (harg : ArgT.argv c.arg 1 = .ok arg) :
    FailsOnly (handleHalts (io.files.fopenRead (fileName arg))) (fileRecvCommand io c) := by
  unfold fileRecvCommand
  rw [harg, ok_bind]
  refine (readChunks_fails _ _ _ _).bind fun x hchunks => ?_
  obtain ⟨f, hfile⟩ := Option.isSome_iff_exists.mp (isSome_of_readChunks hchunks).2
  refine ((BufferT.writePackage_fails _ _ _).mono (ioHalts_subset _)).bind fun w _ => ?_
  rw [hfile]
  exact .ok _

/-- It returns only with an open file. -/
theorem isSome_of_fileRecvCommand (harg : ArgT.argv c.arg 1 = .ok arg) {r : Io × ClientT}
    (h : fileRecvCommand io c = .ok r) : (io.files.fopenRead (fileName arg)).isSome := by
  unfold fileRecvCommand at h
  rw [harg, ok_bind] at h
  obtain ⟨x, hchunks, -⟩ := bind_eq_ok.mp h
  exact (isSome_of_readChunks hchunks).1

end Server

/-! ## The client -/

namespace Client

/-- For the client: a package is received by two `anetRead`s. -/
theorem recv_fails (s : Sock) (c : ClientT) : FailsOnly ioHalts (recv s c) := by
  unfold recv
  exact s.anetReadHead_fails.bind fun x _ => (anetRead_fails _ _ _).bind fun _ _ => .ok _

/-- `flush_2_server` fails where sending its buffers does. -/
theorem flush2Server_fails (s : Sock) (c : ClientT) : FailsOnly ioHalts (flush2Server s c) := by
  unfold flush2Server
  refine c.wBuffer.readableSize_fails.bind fun n _ => (anetWrite_fails _ _ _).bind fun x _ => ?_
  exact (sendBuffers_fails _ _).bind fun _ _ => .ok _

/-- `send` fails where writing or flushing does. -/
theorem send_fails (io : Io) (c : ClientT) (str : Bytes) : FailsOnly ioHalts (send io c str) := by
  unfold send
  refine (BufferT.writePackage_fails _ _ _).bind fun w _ => ?_
  exact (flush2Server_fails _ _).bind fun _ _ => .ok _

/-- Sending leaves the files alone. -/
theorem send_files {io : Io} {c : ClientT} {str : Bytes} {r : ℤ × Io × ClientT}
    (h : send io c str = .ok r) : r.2.1.files = io.files := by
  unfold send at h
  obtain ⟨w, -, h⟩ := bind_eq_ok.mp h
  obtain ⟨x, -, hret⟩ := bind_eq_ok.mp h
  obtain rfl := Except.ok.inj hret
  rfl

/-- `sprintf` fails only behind the end of its array. -/
theorem sprintf_fails (cap : ℕ) (str : Bytes) : FailsOnly ioHalts (sprintf cap str) :=
  .ite (fun _ => .ok _) fun _ => .error (by decide)

variable (io : Io) (c : ClientT) (name : Bytes)

/-- `file_send` has a null pointer only when `fopen` to read failed. -/
theorem fileSend_fails :
    FailsOnly (handleHalts (io.files.fopenRead name)) (fileSend io c name) := by
  unfold fileSend
  refine ((sprintf_fails _ _).mono (ioHalts_subset _)).bind fun str _ => ?_
  refine ((BufferT.writePackage_fails _ _ _).mono (ioHalts_subset _)).bind fun w _ => ?_
  refine (readChunks_fails _ _ _ _).bind fun x hchunks => ?_
  obtain ⟨f, hfile⟩ := Option.isSome_iff_exists.mp (isSome_of_readChunks hchunks).2
  refine ((BufferT.writePackage_fails _ _ _).mono (ioHalts_subset _)).bind fun bn _ => ?_
  dsimp only
  rw [hfile]
  exact ((flush2Server_fails _ _).mono (ioHalts_subset _)).bind fun _ _ => .ok _

/-- It returns only with an open file. -/
theorem isSome_of_fileSend {r : ℤ × Io × ClientT} (h : fileSend io c name = .ok r) :
    (io.files.fopenRead name).isSome := by
  unfold fileSend at h
  obtain ⟨str, -, h⟩ := bind_eq_ok.mp h
  obtain ⟨w, -, h⟩ := bind_eq_ok.mp h
  obtain ⟨x, hchunks, -⟩ := bind_eq_ok.mp h
  exact (isSome_of_readChunks hchunks).1

/-- `file_recv` has a null pointer only when `fopen` to write failed. -/
theorem fileRecv_fails :
    FailsOnly (handleHalts (io.files.fopenWrite name).1) (fileRecv io c name) := by
  unfold fileRecv
  refine ((sprintf_fails _ _).mono (ioHalts_subset _)).bind fun str _ => ?_
  refine ((send_fails _ _ _).mono (ioHalts_subset _)).bind fun x hsend => ?_
  rw [← send_files hsend]
  refine ((recvInteger_fails _).mono (ioHalts_subset _)).bind fun y _ => ?_
  refine (recvChunks_fails recv_fails _ _ _ _ _ _).bind fun z _ => ?_
  exact (handle_fails _).bind fun _ _ => .ok _

/-- It returns only with an open file. -/
theorem isSome_of_fileRecv {r : ℤ × Io × ClientT} (h : fileRecv io c name = .ok r) :
    (io.files.fopenWrite name).1.isSome := by
  unfold fileRecv at h
  obtain ⟨str, -, h⟩ := bind_eq_ok.mp h
  obtain ⟨x, hsend, h⟩ := bind_eq_ok.mp h
  obtain ⟨y, -, h⟩ := bind_eq_ok.mp h
  obtain ⟨z, -, h⟩ := bind_eq_ok.mp h
  obtain ⟨f, hfile, -⟩ := bind_eq_ok.mp h
  rw [← send_files hsend]
  exact isSome_of_handle hfile

end Client

/-! ## Every run -/

/-- The buffers of a server's client. -/
def Server.ClientT.BuffersInRange (c : Server.ClientT) : Prop :=
  c.rBuffer.InRange ∧ c.wBuffer.InRange ∧ ∀ b ∈ c.bufferList, b.InRange

/-- The buffers of the client. -/
def Client.ClientT.BuffersInRange (c : Client.ClientT) : Prop :=
  c.rBuffer.InRange ∧ c.wBuffer.InRange ∧ ∀ b ∈ c.bufferList, b.InRange

/-- **The four functions survive exactly when their file opens**, for every argument vector with a
file name, every name, file system, stream and state of the buffers. -/
theorem survives_iff_opened (io : Io) (sc : Server.ClientT) (cc : Client.ClientT) (cmd name : Bytes)
    (rest : List Bytes) :
    (Survives (io.files.fopenWrite (Server.fileName name)).1.isSome
        (fun r => sc.BuffersInRange → r.2.BuffersInRange)
        (Server.fileSendCommand io { sc with arg := cmd :: name :: rest }) ↔
      (io.files.fopenWrite (Server.fileName name)).1.isSome) ∧
    (Survives (io.files.fopenRead (Server.fileName name)).isSome
        (fun r => sc.BuffersInRange → r.2.BuffersInRange)
        (Server.fileRecvCommand io { sc with arg := cmd :: name :: rest }) ↔
      (io.files.fopenRead (Server.fileName name)).isSome) ∧
    (Survives (io.files.fopenRead name).isSome
        (fun r => cc.BuffersInRange → r.2.2.BuffersInRange) (Client.fileSend io cc name) ↔
      (io.files.fopenRead name).isSome) ∧
    (Survives (io.files.fopenWrite name).1.isSome
        (fun r => cc.BuffersInRange → r.2.2.BuffersInRange) (Client.fileRecv io cc name) ↔
      (io.files.fopenWrite name).1.isSome) := by
  have harg : ArgT.argv (cmd :: name :: rest) 1 = .ok name := rfl
  refine ⟨?_, ?_, ?_, ?_⟩
  · exact survives_iff (Server.fileSendCommand_fails harg)
      fun _ => Server.isSome_of_fileSendCommand harg
  · exact survives_iff (Server.fileRecvCommand_fails harg)
      fun _ => Server.isSome_of_fileRecvCommand harg
  · exact survives_iff (Client.fileSend_fails io cc name)
      fun _ => Client.isSome_of_fileSend io cc name
  · exact survives_iff (Client.fileRecv_fails io cc name)
      fun _ => Client.isSome_of_fileRecv io cc name

/-- `file_recv server-note.txt` when the server has no such file: `feof` gets a null pointer. -/
theorem missing_file_halts :
    ∃ (io : Io) (sc : Server.ClientT), Server.fileRecvCommand io
        { sc with arg := [text "file_recv", text "server-note.txt"] } = .error .nullPointer ∧
      ¬Survives (io.files.fopenRead (Server.fileName (text "server-note.txt"))).isSome
        (fun r => sc.BuffersInRange → r.2.BuffersInRange)
        (Server.fileRecvCommand io
          { sc with arg := [text "file_recv", text "server-note.txt"] }) :=
  ⟨{ sock := {}, files := .empty }, .create (fun _ => 0) (fun _ => 0), rfl,
    fun h => h.notNull rfl⟩

/-! ## Files that cannot be read to their end -/

/-- The `FILE*` of a file just opened for reading. -/
def FileData.opened (d : FileData) : InFile := { rest := d.bytes, ending := d.ending }

/-- **The chunk loop of `client_t::file_send` and `command::file_recv_command`** returns after
finitely many chunks exactly when the end of the file comes before any read error. -/
theorem chunking_terminates_iff (junk : ℕ → ℕ → UInt8) (d : FileData) :
    (∃ fuel bs file, readChunks junk fuel 0 (some d.opened) = .ok (bs, file)) ↔
      d.ending = .eof := by
  constructor
  · rintro ⟨fuel, bs, file, hloop⟩
    cases hend : d.ending with
    | eof => rfl
    | error =>
        rw [readChunks_error junk fuel 0 d.opened hend rfl] at hloop
        cases hloop
  · intro hend
    obtain ⟨bs, file, hloop, -⟩ := readChunks_spec junk (d.bytes.length / chunkSize + 2) 0 d.opened
      hend rfl (Nat.lt_succ_self _)
    exact ⟨_, bs, some file, hloop⟩

/-- A directory opens, and reading it fails. -/
theorem directory_not_chunked :
    ¬∃ fuel bs file, readChunks (fun _ _ => 0) fuel 0
      (some (FileData.mk [] .error).opened) = .ok (bs, file) := by
  rintro ⟨fuel, bs, file, hloop⟩
  rw [readChunks_error _ fuel 0 _ rfl rfl] at hloop
  cases hloop

section ReadError

variable {io : Io} {d : FileData}

/-- The server stays in the loop of `file_recv_command`, whatever rounds it is granted. -/
theorem Server.fileRecvCommand_never_returns {c : ClientT} {arg : Bytes}
    (harg : ArgT.argv c.arg 1 = .ok arg) (hfile : io.files.data (fileName arg) = some d)
    (hend : d.ending = .error) : fileRecvCommand io c = .error .outOfFuel := by
  have hopen : io.files.fopenRead (fileName arg) = some d.opened := by
    rw [Files.fopenRead, hfile]
    rfl
  rw [fileRecvCommand, harg, ok_bind, hopen]
  dsimp only
  rw [readChunks_error _ _ _ _ hend rfl, error_bind]

/-- The client does not get past the loop of `file_send`. -/
theorem Client.fileSend_never_returns {c : ClientT} {name : Bytes}
    (hfile : io.files.data name = some d) (hend : d.ending = .error) (r : ℤ × Io × ClientT) :
    fileSend io c name ≠ .ok r := by
  intro h
  have hopen : (io.allocated 1).files.fopenRead name = some d.opened := by
    show (io.files.data name).map _ = _
    rw [hfile]
    rfl
  rw [fileSend] at h
  obtain ⟨str, -, h⟩ := bind_eq_ok.mp h
  obtain ⟨w, -, h⟩ := bind_eq_ok.mp h
  obtain ⟨x, hloop, -⟩ := bind_eq_ok.mp h
  rw [hopen, readChunks_error _ _ _ _ hend rfl] at hloop
  cases hloop

end ReadError

end AsprNet
