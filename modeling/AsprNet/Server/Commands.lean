import AsprNet.Arguments
import AsprNet.Package

/-! # The server's client record and its commands

Reference: `server.hpp`, `server.cpp` (`server_t::client_t`, `namespace command`).

What the functions print to the log is left out: nothing depends on it.
-/

namespace AsprNet.Server

/-- `server_t::client_t`. -/
structure ClientT where
  fd : ℤ := -1
  rBuffer : BufferT
  wBuffer : BufferT
  bufferList : List BufferT := []
  /-- `_loop` is set. There is one loop, so its address is not modelled. -/
  attached : Bool := false
  /-- `_arg`: the argument vector. -/
  arg : List Bytes := []

/-- A new client, with what its two arrays hold. -/
def ClientT.create (rJunk wJunk : ℕ → UInt8) : ClientT :=
  { rBuffer := BufferT.create rJunk, wBuffer := BufferT.create wJunk }

/-- The read buffer has the default size. -/
theorem size_rBuffer_create (rJunk wJunk : ℕ → UInt8) :
    (ClientT.create rJunk wJunk).rBuffer.size = defaultBuffSize := size_create rJunk

/-- The write buffer has the default size. -/
theorem size_wBuffer_create (rJunk wJunk : ℕ → UInt8) :
    (ClientT.create rJunk wJunk).wBuffer.size = defaultBuffSize := size_create wJunk

/-! ## Receiving -/

/-- `recv` behind the length field. A result `-1` of `read` becomes a `size_t`. -/
def recvPayload (s : Sock) (c : ClientT) (length : ℕ) : Except Halt (ℤ × Sock × ClientT) := do
  let b := c.rBuffer.reset
  let (got, s) ← s.read length
  let buff ← store b.buff 0 (got.getD [])
  let readN := sizeT (readResult got)
  let buff ← store buff readN [0]
  return (int32 readN, s, { c with rBuffer := { b with buff, writeIdx := readN } })

/-- `recv`. The result of reading the length field is dropped. -/
def recv (s : Sock) (c : ClientT) : Except Halt (ℤ × Sock × ClientT) := do
  let (_, length, s) ← s.readHead
  recvPayload s c length

/-- `read_event_handler` from the second `read` to `process_input_buffer`. The result `none` is
`goto err`. -/
def receivePayload (s : Sock) (c : ClientT) (length : ℕ) :
    Except Halt (Sock × Option ClientT) := do
  let b := c.rBuffer.reset
  let (got, s) ← s.read length
  match got with
  | some [] => return (s, none)
  -- `-1` is neither of the two cases: the buffer stays as `reset` left it
  | none => return (s, some { c with rBuffer := b })
  | some bs =>
    let buff ← store b.buff b.writeIdx bs
    let writeIdx := b.writeIdx + bs.length
    let buff ← store buff writeIdx [0]
    return (s, some { c with rBuffer := { b with buff, writeIdx } })

/-- `read_event_handler` up to `process_input_buffer`: reading a package. -/
def receive (s : Sock) (c : ClientT) : Except Halt (Sock × Option ClientT) := do
  let (got, length, s) ← s.readHead
  if got = some [] then return (s, none)
  else receivePayload s c length

/-- `recv_integer`. -/
abbrev recvInteger : Sock → Except Halt (ℕ × Sock) := AsprNet.recvInteger

/-- The C string at the front of an array. -/
def cString (mem : Bytes) : Except Halt Bytes :=
  if (0 : UInt8) ∈ mem then .ok (mem.takeWhile (· ≠ 0)) else .error .outOfBounds

/-- `process_input_buffer`. -/
def processInputBuffer (c : ClientT) : Except Halt ClientT := do
  let s ← cString c.rBuffer.buff
  return { c with arg := ArgT.process s }

/-! ## Sending -/

/-- The part of `write_event_handler` that writes: `_w_buffer` from the start of its array, then
every buffer of the list, which is cleared. -/
def sendPending (s : Sock) (c : ClientT) (dataSize : ℤ) : Except Halt (Sock × ClientT) := do
  let (n, s) ← anetWrite s c.wBuffer.buff dataSize
  let w := if 0 < n then { c.wBuffer with readIdx := c.wBuffer.readIdx + n.toNat } else c.wBuffer
  let (_, s) ← sendBuffers s c.bufferList
  return (s, { c with wBuffer := w, bufferList := [] })

/-! ## Commands -/

/-- `command_proc_t`. -/
abbrev CommandProc := Io → ClientT → Except Halt (Io × ClientT)

/-- The common body of the commands that answer with a text. -/
def replyText (reply : String) : CommandProc := fun io c => do
  let w ← c.wBuffer.writeStr (io.junk 0) (text reply)
  return (io.allocated 1, { c with wBuffer := w })

def pingCommand : CommandProc := replyText "pong."

def getCommand : CommandProc := fun io c => .ok (io, c)

def setCommand : CommandProc := fun io c => .ok (io, c)

/-- The file a command names on the server's side: `_file_name.erase(0, 7)`. -/
def fileName (arg : Bytes) : Bytes := arg.drop 7

def fileSendCommand : CommandProc := fun io c => do
  let arg ← ArgT.argv c.arg 1
  let (file, files) := io.files.fopenWrite (fileName arg)
  let (num, sock) ← recvInteger io.sock
  let (sock, files, c) ← recvChunks recv ClientT.rBuffer file num sock files c
  let _ ← Files.handle file
  return ({ io with sock, files }, c)

def fileRecvCommand : CommandProc := fun io c => do
  let arg ← ArgT.argv c.arg 1
  let file := io.files.fopenRead (fileName arg)
  let (bs, file) ← readChunks io.junk (chunkRounds file) 0 file
  let io := io.allocated bs.length
  let w ← c.wBuffer.writeInt (io.junk 0) bs.length
  let _ ← Files.handle file
  return (io.allocated 1, { c with wBuffer := w, bufferList := bs })

/-- Not in the command table. -/
def doneCommand : CommandProc := replyText "done."

/-- `command_t`. -/
structure CommandT where
  proc : CommandProc
  /-- `_arity`: number of arguments; `+n`: `argc = n`, `-n`: `argc >= n`. -/
  arity : ℤ
  reply : Bool

/-- `_s_command_table`. -/
def sCommandTable : List (Bytes × CommandT) :=
  [(text "ping", ⟨pingCommand, 1, true⟩),
   (text "get", ⟨getCommand, 2, true⟩),
   (text "set", ⟨setCommand, 3, true⟩),
   (text "file_send", ⟨fileSendCommand, 2, false⟩),
   (text "file_recv", ⟨fileRecvCommand, 2, true⟩)]

/-- The arity check of `process_command`, as it is written. -/
def CommandT.arityErr (cmd : CommandT) (argc : ℤ) : Bool :=
  if 0 < cmd.arity then argc != cmd.arity else argc < cmd.arity

end AsprNet.Server
