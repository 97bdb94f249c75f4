import AsprNet.Ae.Loop
import AsprNet.Server.Commands

/-! # The server's event handlers

Reference: `server.cpp`.

`Sys` is what the handlers share: the loop, the open descriptors, the files. A `World` adds the
memory the clients live in, so that a pointer to a deleted client can be told from a live one;
`World.host` puts it under `processEvents`. The kernel chooses the numbers of accepted
descriptors and the allocator the addresses of clients, from scripts in `Sys.accepts`: any free
number, any free address.
-/

namespace AsprNet.Server

/-! ## The state -/

/-- The handlers the server registers. -/
inductive EventProc
  | acceptTcp
  | readEvent
  | writeEvent
deriving DecidableEq, Repr

/-- The `void*` registered with a handler. -/
inductive ClientData
  | server
  | client (p : ℕ)
deriving DecidableEq, Repr

/-- A connection the kernel will accept: its descriptor, its stream, and where the new client will
be allocated. -/
structure Accepted where
  fd : ℕ
  addr : ℕ
  sock : Sock := {}

/-- What can be observed of the life of connections. -/
inductive LifeEvent
  /-- A descriptor is accepted, and a client allocated for it. -/
  | accepted (fd : ℤ) (p : ℕ)
  /-- A handler is called. -/
  | called (proc : EventProc) (fd : ℤ) (data : Option ClientData)
  /-- A descriptor is closed, when the table holds `mask` for it. -/
  | closed (fd : ℤ) (mask : Mask)
deriving DecidableEq

structure Sys where
  loop : AeEventLoop EventProc ClientData
  /-- The open descriptors. -/
  socks : ℤ → Option Sock := fun _ => none
  files : Files
  /-- What the coming arrays from `new[]` hold. -/
  junk : ℕ → ℕ → UInt8 := fun _ _ => 0
  /-- What the coming calls of `anetTcpAccept` return. -/
  accepts : List Accepted := []
  /-- What has happened so far. -/
  trace : List LifeEvent := []

namespace Sys

/-- The stream behind a descriptor. -/
def sock (sys : Sys) (fd : ℤ) : Except Halt Sock :=
  match sys.socks fd with
  | none => .error .badDescriptor
  | some s => .ok s

def setSock (sys : Sys) (fd : ℤ) (s : Sock) : Sys :=
  { sys with socks := Function.update sys.socks fd (some s) }

/-- Append to the trace. -/
def note (sys : Sys) (ev : LifeEvent) : Sys := { sys with trace := sys.trace ++ [ev] }

/-- `close(fd)`. -/
def close (sys : Sys) (fd : ℤ) : Sys :=
  { sys.note (.closed fd (sys.loop.entry fd).mask) with
    socks := Function.update sys.socks fd none }

/-- What a command called for the connection `fd` can reach. -/
def io (sys : Sys) (fd : ℤ) : Except Halt Io := do
  let sock ← sys.sock fd
  return { sock, files := sys.files, junk := sys.junk }

def putIo (sys : Sys) (fd : ℤ) (io : Io) : Sys :=
  { sys.setSock fd io.sock with files := io.files, junk := io.junk }

/-- `_loop->add_file_event`. -/
def addFileEvent (sys : Sys) (fd : ℤ) (mask : Mask) (proc : EventProc) (data : ClientData) :
    Except Halt (ℤ × Sys) := do
  let (r, loop) ← sys.loop.addFileEvent fd mask proc data
  return (r, { sys with loop })

/-- `_loop->del_file_event`. -/
def delFileEvent (sys : Sys) (fd : ℤ) (mask : Mask) : Except Halt Sys := do
  let loop ← sys.loop.delFileEvent fd mask
  return { sys with loop }

end Sys

/-! ## Handlers -/

/-- `process_command`, for any command table; `self` is the address of the client. -/
def processCommand (table : List (Bytes × CommandT)) (sys : Sys) (self : ℕ) (c : ClientT) :
    Except Halt (Sys × ClientT) := do
  let name ← ArgT.argv c.arg 0
  match table.lookup name with
  | none => return (sys, c)
  | some cmd =>
    if cmd.arityErr c.arg.length then return (sys, c)
    else
      let (_, sys) ← if cmd.reply then
          sys.addFileEvent c.fd aeWritable .writeEvent (.client self)
        else pure (aeOk, sys)
      let io ← sys.io c.fd
      let (io, c') ← cmd.proc io c
      return (sys.putIo c.fd io, c')

/-- `~client_t`. -/
def ClientT.delete (c : ClientT) (sys : Sys) : Except Halt Sys := do
  if c.attached then
    let sys ← sys.delFileEvent c.fd aeReadable
    let sys ← sys.delFileEvent c.fd aeWritable
    return sys.close c.fd
  else
    return sys

/-- `write_event_handler`. The result `none` means that the client was deleted. -/
def writeEventHandler (sys : Sys) (c : ClientT) : Except Halt (Sys × Option ClientT) := do
  let size ← c.wBuffer.readableSize
  let dataSize := int32 size
  if dataSize = 0 then
    let sys ← c.delete sys
    return (sys, none)
  else
    let s ← sys.sock c.fd
    let (s, c) ← sendPending s c dataSize
    let sys := sys.setSock c.fd s
    let size ← c.wBuffer.readableSize
    if size = 0 then
      if c.attached then
        let sys ← sys.delFileEvent c.fd aeWritable
        return (sys, some c)
      else .error .nullPointer
    else
      return (sys, some c)

/-- `read_event_handler` up to `process_command`: the package is read and cut into arguments. -/
def readPackage (sys : Sys) (fd : ℤ) (c : ClientT) : Except Halt (Sys × Option ClientT) := do
  let s ← sys.sock fd
  let (s, r) ← receive s c
  let sys := sys.setSock fd s
  match r with
  | none => return (sys, none)
  | some c =>
    let c ← processInputBuffer c
    return (sys, some c)

/-- `read_event_handler`. The result `none` means that the client was deleted. -/
def readEventHandler (sys : Sys) (self : ℕ) (fd : ℤ) (c : ClientT) :
    Except Halt (Sys × Option ClientT) := do
  let (sys, r) ← readPackage sys fd c
  match r with
  | none =>
    let sys ← c.delete sys
    return (sys, none)
  | some c =>
    let (sys, c) ← processCommand sCommandTable sys self c
    return (sys, some c)

/-! ## The world -/

structure World where
  sys : Sys
  /-- The live clients, by their addresses. -/
  heap : ℕ → Option ClientT := fun _ => none

namespace World

/-- `accept_tcp_handler`. An answer of the kernel that is not possible now counts as `-1`. -/
def acceptTcpHandler (w : World) : Except Halt World :=
  match w.sys.accepts with
  | [] => .ok w
  | a :: rest =>
    let sys := { w.sys with accepts := rest }
    if (sys.socks a.fd).isSome ∨ (w.heap a.addr).isSome then .ok { w with sys }
    else do
      let sys := { (sys.setSock a.fd a.sock).note (.accepted a.fd a.addr) with
        junk := fun i => sys.junk (i + 2) }
      let c := { ClientT.create (w.sys.junk 0) (w.sys.junk 1) with fd := a.fd, attached := true }
      let (r, sys) ← sys.addFileEvent a.fd aeReadable .readEvent (.client a.addr)
      if r = -1 then
        let sys ← c.delete sys
        return { w with sys }
      else
        return { sys, heap := Function.update w.heap a.addr (some c) }

/-- Run a handler on the client at `p` and put back what it leaves. -/
def onClient (w : World) (p : ℕ) (h : ClientT → Except Halt (Sys × Option ClientT)) :
    Except Halt World :=
  match w.heap p with
  | none => .error .badPointer
  | some c => do
    let (sys, r) ← h c
    return { sys, heap := Function.update w.heap p r }

/-- A call through a handler pointer. -/
def call (proc : EventProc) (fd : ℤ) (data : Option ClientData) (_mask : Mask) (w : World) :
    Except Halt World :=
  let sys := w.sys.note (.called proc fd data)
  match proc, data with
  | .acceptTcp, some .server => acceptTcpHandler { w with sys }
  | .readEvent, some (.client p) => w.onClient p (readEventHandler sys p fd)
  | .writeEvent, some (.client p) => w.onClient p (writeEventHandler sys)
  | _, _ => .error .badPointer

/-- The server as a program around the event loop. -/
def host : AeEventLoop.Host EventProc ClientData World where
  loop w := w.sys.loop
  withLoop w loop := { w with sys := { w.sys with loop } }
  call := call

/-- What the server starts from: the environment, no client, no descriptor but the listening one. -/
structure Env where
  files : Files
  junk : ℕ → ℕ → UInt8 := fun _ _ => 0
  accepts : List Accepted := []

/-- `init`, given what `epoll_create` and `anetTcpServer` return; it returns the result of
`add_file_event`. -/
def init (env : Env) (maxClientCount : ℕ) (api : Option AeEpollState) (listenFd : ℤ) :
    Except Halt (ℤ × World) := do
  let sys : Sys :=
    { loop := AeEventLoop.create maxClientCount api, files := env.files, junk := env.junk,
      accepts := env.accepts,
      socks := if listenFd = -1 then fun _ => none
        else Function.update (fun _ => none) listenFd (some {}) }
  let (r, sys) ← sys.addFileEvent listenFd aeReadable .acceptTcp .server
  return (r, { sys })

end World

end AsprNet.Server
