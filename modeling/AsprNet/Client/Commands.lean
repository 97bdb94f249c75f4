import AsprNet.Arguments
import AsprNet.Package

/-! # The client

Reference: `client.hpp`, `client.cpp`.

A C string is the list of the bytes in front of its NUL. Error messages go to the log and are left
out.
-/

namespace AsprNet.Client

/-- `client_t`, and what has left it: the text it printed and the payloads of the packages it
flushed from `_w_buffer`. -/
structure ClientT where
  rBuffer : BufferT
  wBuffer : BufferT
  bufferList : List BufferT := []
  /-- `_arg`: the argument vector. -/
  arg : List Bytes := []
  stdout : Bytes := []
  commands : List Bytes := []

/-- A new client, with what its two arrays hold. -/
def ClientT.create (rJunk wJunk : ℕ → UInt8) : ClientT :=
  { rBuffer := BufferT.create rJunk, wBuffer := BufferT.create wJunk }

/-- The read buffer has the default size. -/
theorem size_rBuffer_create (rJunk wJunk : ℕ → UInt8) :
    (ClientT.create rJunk wJunk).rBuffer.size = defaultBuffSize := size_create rJunk

/-- The write buffer has the default size. -/
theorem size_wBuffer_create (rJunk wJunk : ℕ → UInt8) :
    (ClientT.create rJunk wJunk).wBuffer.size = defaultBuffSize := size_create wJunk

/-! ## Sending and receiving packages -/

/-- `flush_2_server`. The results of `anetWrite` are summed up in a `size_t`. -/
def flush2Server (s : Sock) (c : ClientT) : Except Halt (ℕ × Sock × ClientT) := do
  let n ← c.wBuffer.readableSize
  let (r, s) ← anetWrite s c.wBuffer.buff (int32 n)
  let (rs, s) ← sendBuffers s c.bufferList
  return (sizeT (r + rs), s,
    { c with wBuffer := c.wBuffer.reset, bufferList := [],
             commands := c.commands ++ [c.wBuffer.readable.drop headSize] })

/-- `flush_2_client`: `printf("%.*s\n", _max_len, _r_buffer._buff)`. -/
def flush2Client (c : ClientT) : Except Halt (ℕ × ClientT) := do
  let maxLen ← c.rBuffer.readableSize
  let out := ((c.rBuffer.buff.take maxLen).takeWhile (· ≠ 0)) ++ [10]
  return (out.length, { c with stdout := c.stdout ++ out })

/-- `send`. -/
def send (io : Io) (c : ClientT) (str : Bytes) : Except Halt (ℤ × Io × ClientT) := do
  let w ← c.wBuffer.writeStr (io.junk 0) str
  let (n, sock, c) ← flush2Server io.sock { c with wBuffer := w }
  return (int32 n, { io.allocated 1 with sock }, c)

/-- `recv`. A result `-1` becomes a `size_t` in `_write_idx`. -/
def recv (s : Sock) (c : ClientT) : Except Halt (ℤ × Sock × ClientT) := do
  let (length, s) ← s.anetReadHead
  let (ret, buff, s) ← anetRead s c.rBuffer.buff (int32 length)
  return (ret, s, { c with rBuffer := { buff, readIdx := 0, writeIdx := sizeT ret } })

/-- `recv_integer`. -/
abbrev recvInteger : Sock → Except Halt (ℕ × Sock) := AsprNet.recvInteger

/-! ## Files -/

/-- `sprintf` into a local array of `cap` bytes. -/
def sprintf (cap : ℕ) (str : Bytes) : Except Halt Bytes :=
  if str.length < cap then .ok str else .error .outOfBounds

/-- The size of `_command_str`. -/
def commandStrSize : ℕ := 1024

def fileSend (io : Io) (c : ClientT) (fileName : Bytes) : Except Halt (ℤ × Io × ClientT) := do
  let commandStr ← sprintf commandStrSize (text "file_send " ++ fileName)
  let w ← c.wBuffer.writeStr (io.junk 0) commandStr
  let io := io.allocated 1
  let file := io.files.fopenRead fileName
  let (bs, file) ← readChunks io.junk (chunkRounds file) 0 file
  let io := io.allocated bs.length
  let bn ← (BufferT.create (io.junk 0)).writeInt (io.junk 1) bs.length
  let _ ← Files.handle file
  let (n, sock, c) ← flush2Server io.sock { c with wBuffer := w, bufferList := bn :: bs }
  return (int32 n, { io.allocated 2 with sock }, c)

def fileRecv (io : Io) (c : ClientT) (fileName : Bytes) : Except Halt (ℤ × Io × ClientT) := do
  let commandStr ← sprintf commandStrSize (text "file_recv " ++ fileName)
  let (_, io, c) ← send io c commandStr
  let (file, files) := io.files.fopenWrite fileName
  let (num, sock) ← recvInteger io.sock
  let (sock, files, c) ← recvChunks recv ClientT.rBuffer file num sock files c
  let _ ← Files.handle file
  return (0, { io with sock, files }, c)

/-! ## Commands -/

/-- `command_proc_t`. -/
abbrev CommandProc := Io → ClientT → Except Halt (ℤ × Io × ClientT)

def pingCommand : CommandProc := fun io c => do
  let (_, io, c) ← send io c (text "ping")
  let (_, sock, c) ← recv io.sock c
  let (n, c) ← flush2Client c
  return (int32 n, { io with sock }, c)

def getCommand : CommandProc := fun io c => .ok (0, io, c)

def setCommand : CommandProc := fun io c => .ok (0, io, c)

/-- The common body of the two file commands. -/
def fileCommand (f : Io → ClientT → Bytes → Except Halt (ℤ × Io × ClientT)) : CommandProc :=
  fun io c => do
    let arg ← ArgT.argv c.arg 1
    let (_, io, c) ← f io c arg
    return (0, io, c)

def fileSendCommand : CommandProc := fileCommand fileSend

def fileRecvCommand : CommandProc := fileCommand fileRecv

/-- `command_t`. -/
structure CommandT where
  proc : CommandProc
  /-- `_arity`: number of arguments; `+n`: `argc = n`, `-n`: `argc >= n`. -/
  arity : ℤ

/-- `_s_command_table`. -/
def sCommandTable : List (Bytes × CommandT) :=
  [(text "ping", ⟨pingCommand, 1⟩),
   (text "get", ⟨getCommand, 2⟩),
   (text "set", ⟨setCommand, 3⟩),
   (text "file_send", ⟨fileSendCommand, 2⟩),
   (text "file_recv", ⟨fileRecvCommand, 2⟩)]

/-- The arity check of `process`, as it is written. -/
def CommandT.arityErr (cmd : CommandT) (argc : ℤ) : Bool :=
  if 0 < cmd.arity then argc != cmd.arity else argc < cmd.arity

/-- `process`, for any command table. -/
def process (table : List (Bytes × CommandT)) (io : Io) (c : ClientT) (commandStr : Bytes) :
    Except Halt (ℤ × Io × ClientT) := do
  let c := { c with rBuffer := c.rBuffer.reset, bufferList := [], arg := ArgT.process commandStr }
  let name ← ArgT.argv c.arg 0
  match table.lookup name with
  | none => return (-1, io, c)
  | some cmd =>
    if cmd.arityErr c.arg.length then return (-1, io, c)
    else cmd.proc io c

/-- The lines of one session, as `main` passes them to `process`. -/
def session (lines : List Bytes) (io : Io) (c : ClientT) : Except Halt (Io × ClientT) :=
  lines.foldlM (fun (st : Io × ClientT) line => do
    let (_, io, c) ← process sCommandTable st.1 st.2 line
    return (io, c)) (io, c)

end AsprNet.Client
