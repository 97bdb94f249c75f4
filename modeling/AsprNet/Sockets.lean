import AsprNet.Kernel
import AsprNet.Lib.Descriptors

/-! # Sockets

Reference: `anet.cpp`, the functions that create, configure and close sockets. `Sockets` is the
process as they see it: its table of descriptors, in which an epoll instance has a number as well,
`errno`, the text in the caller's buffer for errors, and what the coming system calls return. Every
call may fail.

A function gives `-1` or what the source gives, and the process after it. What each of them does to
the descriptors is said beside it: those that configure a socket change this socket and no other
(`Holding`), and those that open one open the lowest free descriptor or nothing (`Opened`).
-/

namespace AsprNet

def anetOk : ℤ := 0
def anetErr : ℤ := -1
def anetErrLen : ℕ := 256

def defaultListenPort : ℤ := 12345

/-! ## Addresses and sockets -/

def afUnix : ℤ := 1
def afInet : ℤ := 2
def afInet6 : ℤ := 10
def afUnspec : ℤ := 0
def sockStream : ℤ := 1

/-- A socket address: the text of an internet address as `inet_ntop` writes it with its port, or the
path of a local socket. -/
structure SockAddr where
  family : ℤ
  text : Bytes
  port : ℕ := 0
deriving DecidableEq

def inet6Addrstrlen : ℕ := 46

/-- The address is one of the internet. -/
def SockAddr.IsInet (addr : SockAddr) : Prop := addr.family = afInet ∨ addr.family = afInet6

instance (addr : SockAddr) : Decidable addr.IsInet := inferInstanceAs (Decidable (_ ∨ _))

/-- A text and a port as `inet_ntop` and `ntohs` give them. -/
def IsPrinted (t : Bytes) (port : ℕ) : Prop :=
  t.length < inet6Addrstrlen ∧ 0 ∉ t ∧ port < 2 ^ 16

instance (t : Bytes) (port : ℕ) : Decidable (IsPrinted t port) :=
  inferInstanceAs (Decidable (_ ∧ _ ∧ _))

/-- What `inet_ntop` and `ntohs` give for an address of the internet. -/
def SockAddr.Printable (addr : SockAddr) : Prop := IsPrinted addr.text addr.port

instance (addr : SockAddr) : Decidable addr.Printable := inferInstanceAs (Decidable (IsPrinted _ _))

/-- A text and a port that were printed. -/
structure Printed where
  text : Bytes
  port : ℕ
  printed : IsPrinted text port

/-- The address that `getsockname` gives for a socket without one. -/
def anyAddr (family : ℤ) : SockAddr where
  family
  text := if family = afInet then text "0.0.0.0" else if family = afInet6 then text "::" else []

/-- An entry of the list that `getaddrinfo` returns. -/
structure AddrInfo where
  family : ℤ
  socktype : ℤ
  protocol : ℤ
  addr : SockAddr
  printable : addr.IsInet → addr.Printable

/-- What `getaddrinfo` is asked for. -/
structure Query where
  node : Option Bytes
  service : Option Bytes
  family : ℤ := afUnspec
  socktype : ℤ := sockStream
  passive : Bool := false
deriving DecidableEq

inductive SockOpt
  | soReuseaddr
  | soKeepalive
  | soSndbuf
  | soSndtimeo
  | tcpKeepidle
  | tcpKeepintvl
  | tcpKeepcnt
  | tcpNodelay
  | ipv6V6only
deriving DecidableEq, Repr

def oRdwr : BitVec 32 := 2#32
def oNonblock : BitVec 32 := 2048#32

/-- An open socket. -/
structure Socket where
  family : ℤ
  socktype : ℤ
  protocol : ℤ
  /-- The file status flags. -/
  flags : BitVec 32 := oRdwr
  /-- The values that `setsockopt` has set. -/
  options : SockOpt → Option (List ℤ) := fun _ => none
  /-- What it is bound to. -/
  name : Option SockAddr := none
  /-- The backlog, once it listens. -/
  backlog : Option ℤ := none
  /-- What it is connected to. -/
  peer : Option SockAddr := none
  /-- The connection is not established yet. -/
  pending : Bool := false

namespace Socket

/-- The socket does not wait. -/
def nonBlock (k : Socket) : Bool := k.flags &&& oNonblock != 0#32

def setOption (k : Socket) (opt : SockOpt) (val : List ℤ) : Socket :=
  { k with options := Function.update k.options opt (some val) }

def setBlock (k : Socket) (nonBlock : Bool) : Socket :=
  { k with flags := if nonBlock then k.flags ||| oNonblock else k.flags &&& ~~~oNonblock }

/-- The socket that `accept(2)` makes of the listening one. -/
def accepted (k : Socket) (peer : SockAddr) : Socket :=
  { k with flags := oRdwr, backlog := none, peer := some peer }

/-- A new socket waits. -/
theorem nonBlock_new (family socktype protocol : ℤ) :
    nonBlock { family, socktype, protocol } = false := by
  show (oRdwr &&& oNonblock != 0#32) = false
  decide

@[simp] theorem options_setOption (k : Socket) (opt : SockOpt) (val : List ℤ) :
    (k.setOption opt val).options opt = some val := Function.update_self _ _ _

@[simp] theorem nonBlock_setBlock (k : Socket) (b : Bool) : (k.setBlock b).nonBlock = b := by
  cases b with
  | true =>
      have hbit : ∀ flags : BitVec 32, (flags ||| oNonblock) &&& oNonblock = oNonblock := by
        intro flags
        rw [oNonblock]
        ext i hi
        simp only [BitVec.getElem_and, BitVec.getElem_or]
        cases flags[i] <;> simp
      simp only [nonBlock, setBlock, if_true, hbit]
      decide
  | false =>
      have hbit : ∀ flags : BitVec 32, (flags &&& ~~~oNonblock) &&& oNonblock = 0#32 := by
        intro flags
        rw [BitVec.and_assoc, BitVec.not_and_self]
        exact BitVec.and_zero
      simp only [nonBlock, setBlock, Bool.false_eq_true, if_false, hbit]
      decide

end Socket

/-- What a descriptor stands for. -/
inductive OpenFile
  | socket (k : Socket)
  /-- An epoll instance, with its file status flags. -/
  | epoll (flags : BitVec 32)

namespace OpenFile

/-- The file status flags. -/
def flags : OpenFile → BitVec 32
  | socket k => k.flags
  | epoll flags => flags

def setFlags (flags : BitVec 32) : OpenFile → OpenFile
  | socket k => socket { k with flags }
  | epoll _ => epoll flags

def socket? : OpenFile → Option Socket
  | socket k => some k
  | epoll _ => none

/-- Do `f` to a socket. -/
def onSocket (f : Socket → Socket) : OpenFile → OpenFile
  | socket k => socket (f k)
  | epoll flags => epoll flags

end OpenFile

/-! ## System calls -/

def eintr : ℤ := 4
def ebadf : ℤ := 9
def enotsock : ℤ := 88
def einprogress : ℤ := 115

structure Sockets where
  table : Descriptors OpenFile := {}
  errno : ℤ := 0
  /-- What the coming system calls return: a result, or the error number. -/
  calls : List (Option ℤ) := []
  /-- What the `n`-th call of `getaddrinfo` returns. -/
  resolve : ℕ → Query → Except ℤ (List AddrInfo) := fun _ _ => .ok []
  /-- What was asked for so far. -/
  asked : List Query := []
  /-- The peers of the connections that `accept` takes. -/
  peers : List SockAddr := []
  /-- What the bytes of an address of another family show, read as a `sockaddr_in6`. -/
  asInet6 : SockAddr → Printed := fun _ => ⟨text "::", 0, by decide⟩
  strerror : ℤ → Bytes := fun _ => []
  gaiStrerror : ℤ → Bytes := fun _ => []
  /-- The text in the caller's buffer for errors, once there is one. -/
  errInfo : Option Bytes := none
  /-- The descriptors that were used and not open. -/
  stray : List ℤ := []

namespace Sockets

/-- What is open. -/
def descriptors (s : Sockets) : ℤ → Option OpenFile := s.table.get

/-- The open sockets. -/
def sockets (s : Sockets) (fd : ℤ) : Option Socket := (s.descriptors fd).bind OpenFile.socket?

/-- The outcome of the next system call. -/
def call (s : Sockets) : Bool × Sockets :=
  match s.calls with
  | some e :: calls => (false, { s with calls, errno := e })
  | calls => (true, { s with calls := calls.tail })

/-- A system call on the descriptor `fd`, which does `f` to what it stands for. -/
def callOnFile (s : Sockets) (fd : ℤ) (f : OpenFile → OpenFile) : ℤ × Sockets :=
  match s.descriptors fd with
  | none => (-1, { s with errno := ebadf, stray := s.stray ++ [fd] })
  | some file =>
    let (ok, s) := s.call
    if ok then (0, { s with table := s.table.set fd (f file) }) else (-1, s)

/-- A system call on the descriptor `fd`, which does `f` to its socket. -/
def callOn (s : Sockets) (fd : ℤ) (f : Socket → Socket) : ℤ × Sockets :=
  match s.descriptors fd with
  | some (.epoll _) => (-1, { s with errno := enotsock })
  | _ => s.callOnFile fd (OpenFile.onSocket f)

/-- `epoll_create(2)`. -/
def epollCreate (s : Sockets) : ℤ × Sockets :=
  let (ok, s) := s.call
  if ok then (s.table.lowest, { s with table := s.table.alloc (.epoll oRdwr) }) else (-1, s)

/-- `socket(2)`. -/
def socket (s : Sockets) (family socktype protocol : ℤ) : ℤ × Sockets :=
  let (ok, s) := s.call
  if ok then
    (s.table.lowest, { s with table := s.table.alloc (.socket { family, socktype, protocol }) })
  else (-1, s)

/-- `close(2)`; the descriptor is closed whatever it returns. -/
def close (s : Sockets) (fd : ℤ) : Sockets :=
  match s.descriptors fd with
  | none => { s with errno := ebadf, stray := s.stray ++ [fd] }
  | some _ =>
    let (_, s) := s.call
    { s with table := s.table.free fd }

/-- `fcntl(fd, F_GETFL)`; `none` is `-1`. -/
def getFlags (s : Sockets) (fd : ℤ) : Option (BitVec 32) × Sockets :=
  let (r, s) := s.callOnFile fd id
  if r = -1 then (none, s) else ((s.descriptors fd).map OpenFile.flags, s)

/-- `fcntl(fd, F_SETFL, flags)`. -/
def setFlags (s : Sockets) (fd : ℤ) (flags : BitVec 32) : ℤ × Sockets :=
  s.callOnFile fd (OpenFile.setFlags flags)

/-- `setsockopt(2)`. -/
def setsockopt (s : Sockets) (fd : ℤ) (opt : SockOpt) (val : List ℤ) : ℤ × Sockets :=
  s.callOn fd fun k => k.setOption opt val

/-- `bind(2)`. -/
def bind (s : Sockets) (fd : ℤ) (addr : SockAddr) : ℤ × Sockets :=
  s.callOn fd fun k => { k with name := some addr }

/-- `listen(2)`. -/
def listen (s : Sockets) (fd : ℤ) (backlog : ℤ) : ℤ × Sockets :=
  s.callOn fd fun k => { k with backlog := some backlog }

/-- `connect(2)`. When it fails with `EINPROGRESS`, the connection is on its way. -/
def connect (s : Sockets) (fd : ℤ) (addr : SockAddr) : ℤ × Sockets :=
  let (r, s) := s.callOn fd fun k => { k with peer := some addr, pending := false }
  if r = -1 ∧ s.errno = einprogress then
    match s.descriptors fd with
    | some (.socket k) =>
      let k := { k with peer := some addr, pending := true }
      (r, { s with table := s.table.set fd (.socket k) })
    | _ => (r, s)
  else (r, s)

/-- `getsockname(2)`; `none` is `-1`. -/
def getsockname (s : Sockets) (fd : ℤ) : Option SockAddr × Sockets :=
  let (r, s) := s.callOn fd id
  if r = -1 then (none, s)
  else ((s.sockets fd).map fun k => k.name.getD (anyAddr k.family), s)

/-- `accept(2)`: the peer of the new connection and its descriptor. -/
def accept (s : Sockets) (fd : ℤ) : SockAddr × ℤ × Sockets :=
  let peer := s.peers.headD ⟨afUnspec, [], 0⟩
  match s.descriptors fd with
  | none => (peer, -1, { s with errno := ebadf, stray := s.stray ++ [fd] })
  | some (.epoll _) => (peer, -1, { s with errno := enotsock })
  | some (.socket k) =>
    let (ok, s) := s.call
    if ok then
      (peer, s.table.lowest, { s with
        peers := s.peers.tail
        table := s.table.alloc (.socket (k.accepted peer)) })
    else (peer, -1, s)

/-- `getaddrinfo(3)`. -/
def getaddrinfo (s : Sockets) (q : Query) : Except ℤ (List AddrInfo) × Sockets :=
  (s.resolve s.asked.length q, { s with asked := s.asked ++ [q] })

/-- The text and the port of an address that is taken for one of the internet. -/
def readInet (s : Sockets) (addr : SockAddr) : Bytes × ℕ :=
  if addr.IsInet then (addr.text, addr.port)
  else ((s.asInet6 addr).text, (s.asInet6 addr).port)

/-- What is read can be printed, whatever the family is. -/
theorem readInet_printed (s : Sockets) {addr : SockAddr} (h : addr.IsInet → addr.Printable) :
    IsPrinted (s.readInet addr).1 (s.readInet addr).2 := by
  rw [readInet]
  split_ifs with hinet
  · exact h hinet
  · exact (s.asInet6 addr).printed

/-! ## Errors -/

/-- `anetSetError`: the text is cut to the size of the buffer. -/
def anetSetError (s : Sockets) (err : Bool) (msg : Bytes) : Sockets :=
  if err then { s with errInfo := some (msg.take (anetErrLen - 1)) } else s

/-- `anetSetError` with a text that ends in that of `errno`. -/
def anetSetErrno (s : Sockets) (err : Bool) (msg : Bytes) : Sockets :=
  s.anetSetError err (msg ++ s.strerror s.errno)

/-! ## Configuring a socket -/

/-- `sizeof(sa.sun_path)`. -/
def sunPathSize : ℕ := 108

/-- `sun_path` after `strncpy`; the last byte is left as it was. -/
def sunPath (path : Bytes) (last : UInt8) : Bytes :=
  let path := (path.takeWhile (· ≠ 0)).take (sunPathSize - 1)
  path ++ List.replicate (sunPathSize - 1 - path.length) 0 ++ [last]

/-- `anetSetBlock`. -/
def anetSetBlock (s : Sockets) (err : Bool) (fd : ℤ) (nonBlock : Bool) : ℤ × Sockets :=
  let (flags, s) := s.getFlags fd
  match flags with
  | none => (anetErr, s.anetSetErrno err (text "fcntl(F_GETFL): "))
  | some flags =>
    let flags := if nonBlock then flags ||| oNonblock else flags &&& ~~~oNonblock
    let (r, s) := s.setFlags fd flags
    if r = -1 then (anetErr, s.anetSetErrno err (text "fcntl(F_SETFL, O_NONBLOCK): "))
    else (anetOk, s)

def anetNonBlock (s : Sockets) (err : Bool) (fd : ℤ) : ℤ × Sockets := s.anetSetBlock err fd true

def anetBlock (s : Sockets) (err : Bool) (fd : ℤ) : ℤ × Sockets := s.anetSetBlock err fd false

/-- What the functions have in common that set one option; the error text ends in `eol`. -/
def anetSetOption (s : Sockets) (err : Bool) (fd : ℤ) (opt : SockOpt) (val : List ℤ) (msg : Bytes)
    (eol : Bytes := []) : ℤ × Sockets :=
  let (r, s) := s.setsockopt fd opt val
  if r = -1 then (anetErr, s.anetSetError err (msg ++ s.strerror s.errno ++ eol)) else (anetOk, s)

/-- `anetKeepAlive` after `SO_KEEPALIVE`. -/
def anetKeepAliveProbes (s : Sockets) (err : Bool) (fd : ℤ) (interval : ℤ) : ℤ × Sockets :=
  let (r, s) := s.anetSetOption err fd .tcpKeepidle [interval] (text "setsockopt TCP_KEEPIDLE: ")
    [10]
  if r = anetErr then (anetErr, s)
  else
    let val := interval.tdiv 3
    let (r, s) := s.anetSetOption err fd .tcpKeepintvl [if val = 0 then 1 else val]
      (text "setsockopt TCP_KEEPINTVL: ") [10]
    if r = anetErr then (anetErr, s)
    else s.anetSetOption err fd .tcpKeepcnt [3] (text "setsockopt TCP_KEEPCNT: ") [10]

def anetTcpKeepAlive (s : Sockets) (err : Bool) (fd : ℤ) : ℤ × Sockets :=
  s.anetSetOption err fd .soKeepalive [1] (text "setsockopt SO_KEEPALIVE: ")

def anetKeepAlive (s : Sockets) (err : Bool) (fd : ℤ) (interval : ℤ) : ℤ × Sockets :=
  let (r, s) := s.anetSetOption err fd .soKeepalive [1] (text "setsockopt SO_KEEPALIVE: ")
  if r = anetErr then (anetErr, s) else s.anetKeepAliveProbes err fd interval

/-- What `anetKeepAlive` sets, in its order. -/
def keepAliveOptions (interval : ℤ) : List (SockOpt × List ℤ) :=
  [(.soKeepalive, [1]), (.tcpKeepidle, [interval]),
    (.tcpKeepintvl, [if interval.tdiv 3 = 0 then 1 else interval.tdiv 3]), (.tcpKeepcnt, [3])]

def anetSetTcpNoDelay (s : Sockets) (err : Bool) (fd : ℤ) (val : ℤ) : ℤ × Sockets :=
  s.anetSetOption err fd .tcpNodelay [val] (text "setsockopt TCP_NODELAY: ")

def anetEnableTcpNoDelay (s : Sockets) (err : Bool) (fd : ℤ) : ℤ × Sockets :=
  s.anetSetTcpNoDelay err fd 1

def anetDisableTcpNoDelay (s : Sockets) (err : Bool) (fd : ℤ) : ℤ × Sockets :=
  s.anetSetTcpNoDelay err fd 0

def anetSetSendBuffer (s : Sockets) (err : Bool) (fd : ℤ) (buffsize : ℤ) : ℤ × Sockets :=
  s.anetSetOption err fd .soSndbuf [buffsize] (text "setsockopt SO_SNDBUF: ")

/-- `anetSendTimeout`; the value is a `struct timeval`. -/
def anetSendTimeout (s : Sockets) (err : Bool) (fd : ℤ) (ms : ℤ) : ℤ × Sockets :=
  s.anetSetOption err fd .soSndtimeo [ms.tdiv 1000, ms.tmod 1000 * 1000]
    (text "setsockopt SO_SNDTIMEO: ")

def anetSetReuseAddr (s : Sockets) (err : Bool) (fd : ℤ) : ℤ × Sockets :=
  s.anetSetOption err fd .soReuseaddr [1] (text "setsockopt SO_REUSEADDR: ")

/-- `anetV6Only` closes the socket when it fails. -/
def anetV6Only (s : Sockets) (err : Bool) (fd : ℤ) : ℤ × Sockets :=
  let (r, s) := s.anetSetOption err fd .ipv6V6only [1] (text "setsockopt: ")
  if r = anetErr then (anetErr, s.close fd) else (anetOk, s)

/-- `anetCreateSocket`. -/
def anetCreateSocket (s : Sockets) (err : Bool) (domain : ℤ) : ℤ × Sockets :=
  let (fd, s) := s.socket domain sockStream 0
  if fd = -1 then (anetErr, s.anetSetErrno err (text "creating socket: "))
  else
    let (r, s) := s.anetSetReuseAddr err fd
    if r = anetErr then (anetErr, s.close fd) else (fd, s)

/-- `anetListen` closes the socket when it fails. -/
def anetListen (s : Sockets) (err : Bool) (fd : ℤ) (addr : SockAddr) (backlog : ℤ) :
    ℤ × Sockets :=
  let (r, s) := s.bind fd addr
  if r = -1 then (anetErr, (s.anetSetErrno err (text "bind: ")).close fd)
  else
    let (r, s) := s.listen fd backlog
    if r = -1 then (anetErr, (s.anetSetErrno err (text "listen: ")).close fd) else (anetOk, s)

end Sockets

/-! ## Which calls fail -/

/-- One of the next `n` system calls fails. -/
def refused (n : ℕ) (calls : List (Option ℤ)) : Bool := (calls.take n).any Option.isSome

@[simp] theorem refused_zero (calls : List (Option ℤ)) : refused 0 calls = false := rfl

/-- The next calls, and those behind them. -/
theorem refused_add (m n : ℕ) (calls : List (Option ℤ)) :
    refused (m + n) calls = (refused m calls || refused n (calls.drop m)) := by
  rw [refused, List.take_add, List.any_append]
  rfl

/-- What fails first is among more calls. -/
theorem refused_mono {m n : ℕ} (hmn : m ≤ n) {calls : List (Option ℤ)}
    (h : refused m calls = true) : refused n calls = true := by
  obtain ⟨d, rfl⟩ := Nat.exists_eq_add_of_le hmn
  rw [refused_add, h, Bool.true_or]

/-- Fewer calls do not fail more. -/
theorem refused_anti {m n : ℕ} (hmn : m ≤ n) {calls : List (Option ℤ)}
    (h : refused n calls = false) : refused m calls = false := by
  cases hm : refused m calls with
  | false => rfl
  | true => rw [refused_mono hmn hm] at h; cases h

/-- No descriptor was used that is not open, and names mean what they meant. -/
structure Unstrayed (s₀ s : Sockets) : Prop where
  stray : s.stray = s₀.stray
  resolve : s.resolve = s₀.resolve

theorem Unstrayed.trans {s₀ s₁ s₂ : Sockets} (h : Unstrayed s₀ s₁) (h' : Unstrayed s₁ s₂) :
    Unstrayed s₀ s₂ := ⟨h'.stray.trans h.stray, h'.resolve.trans h.resolve⟩

namespace Sockets

variable (s : Sockets)

/-- What a call is, by its outcome. -/
theorem call_cases : s.call.1 = !refused 1 s.calls ∧ s.call.2.calls = s.calls.drop 1 ∧
    s.call.2.table = s.table ∧ Unstrayed s s.call.2 ∧ s.call.2.errInfo = s.errInfo := by
  rw [call]
  rcases hcalls : s.calls with _ | ⟨_ | e, calls⟩
  · exact ⟨rfl, rfl, rfl, ⟨rfl, rfl⟩, rfl⟩
  · exact ⟨rfl, rfl, rfl, ⟨rfl, rfl⟩, rfl⟩
  · exact ⟨rfl, rfl, rfl, ⟨rfl, rfl⟩, rfl⟩

/-- A descriptor that is a socket. -/
theorem sockets_eq_some_iff {fd : ℤ} {k : Socket} :
    s.sockets fd = some k ↔ s.descriptors fd = some (.socket k) := by
  rw [sockets, Option.bind_eq_some_iff]
  constructor
  · rintro ⟨file, hfile, hk⟩
    cases file with
    | socket k' =>
        obtain rfl := Option.some.inj hk
        exact hfile
    | epoll flags => cases hk
  · intro h
    exact ⟨_, h, rfl⟩

/-- `close`, of an open descriptor. -/
theorem close_cases {fd : ℤ} {file : OpenFile} (h : s.descriptors fd = some file) :
    (s.close fd).descriptors = Function.update s.descriptors fd none ∧ Unstrayed s (s.close fd) ∧
      (s.close fd).calls = s.calls.drop 1 ∧ (s.close fd).errInfo = s.errInfo := by
  obtain ⟨-, hcalls, htable, hstray, herr⟩ := s.call_cases
  rw [close, h]
  refine ⟨?_, ⟨hstray.stray, hstray.resolve⟩, hcalls, herr⟩
  show (s.call.2.table.free fd).get = _
  rw [htable]
  exact s.table.get_free h

/-- `getaddrinfo` leaves all else alone. -/
theorem getaddrinfo_cases (q : Query) :
    ∃ s', s.getaddrinfo q = (s.resolve s.asked.length q, s') ∧ s'.table = s.table ∧
      Unstrayed s s' ∧ s'.calls = s.calls :=
  ⟨_, rfl, rfl, ⟨rfl, rfl⟩, rfl⟩

/-- The descriptors are those of the table. -/
theorem descriptors_of_table {s s' : Sockets} (h : s'.table = s.table) :
    s'.descriptors = s.descriptors :=
  congrArg Descriptors.get h

end Sockets

/-! ## What is open -/

/-- The process has, beside what it had in `s₀`, the socket `x` at `fd`, if this is one. -/
structure Holding (s₀ : Sockets) (fd : ℤ) (x : Option Socket) (s : Sockets) : Prop extends
    Unstrayed s₀ s where
  beside : Beside s₀.descriptors fd (x.map .socket) s.descriptors

/-- The process has what it had in `s₀`. -/
structure Settled (s₀ s : Sockets) : Prop extends Unstrayed s₀ s where
  descriptors : s.descriptors = s₀.descriptors

/-- The caller's buffer, if there is one, has a text that fits. -/
def Sockets.Told (s : Sockets) (err : Bool) : Prop :=
  err = true → ∃ msg, s.errInfo = some msg ∧ msg.length < anetErrLen

/-- A message of `anetSetError` is cut to fit the caller's buffer. -/
theorem Sockets.told_setError (s : Sockets) (err : Bool) (msg : Bytes) :
    (s.anetSetError err msg).Told err := by
  rintro rfl
  refine ⟨_, rfl, ?_⟩
  rw [List.length_take]
  exact (Nat.min_le_left _ _).trans_lt (by decide)

namespace Holding

variable {s₀ s : Sockets} {fd : ℤ} {k : Socket} {x : Option Socket}

/-- Only `errno`, the error text and what is to come may differ. -/
theorem same (h : Holding s₀ fd x s) {s' : Sockets} (htable : s'.table = s.table)
    (hstray : Unstrayed s s') : Holding s₀ fd x s' :=
  ⟨h.toUnstrayed.trans hstray, by rw [Sockets.descriptors_of_table htable]; exact h.beside⟩

/-- What the descriptor stands for. -/
theorem file (h : Holding s₀ fd (some k) s) : s.descriptors fd = some (.socket k) := h.beside.get

/-- The held socket is at its descriptor. -/
theorem get (h : Holding s₀ fd (some k) s) : s.sockets fd = some k :=
  s.sockets_eq_some_iff.mpr h.file

/-- The socket changes. -/
theorem set (h : Holding s₀ fd (some k) s) (k' : Socket) {s' : Sockets}
    (htable : s'.table = s.table.set fd (.socket k')) (hstray : Unstrayed s s') :
    Holding s₀ fd (some k') s' :=
  ⟨h.toUnstrayed.trans hstray,
    h.beside.update (by rw [Sockets.descriptors, htable]; exact s.table.get_set h.file _)⟩

/-- A system call that opens and closes nothing. -/
theorem call (h : Holding s₀ fd x s) : Holding s₀ fd x s.call.2 :=
  h.same s.call_cases.2.2.1 s.call_cases.2.2.2.1

/-- A message opens and closes nothing. -/
theorem setError (h : Holding s₀ fd x s) (err : Bool) (msg : Bytes) :
    Holding s₀ fd x (s.anetSetError err msg) := by
  rw [Sockets.anetSetError]
  split
  · exact h.same rfl ⟨rfl, rfl⟩
  · exact h

/-- A call on the descriptor changes the socket, or fails. -/
theorem callOnFile (h : Holding s₀ fd (some k) s) {f : OpenFile → OpenFile} {k' : Socket}
    (hf : f (.socket k) = .socket k') :
    ∃ s', s.callOnFile fd f = (if refused 1 s.calls then -1 else 0, s') ∧
      s'.calls = s.calls.drop 1 ∧
      Holding s₀ fd (some (if refused 1 s.calls then k else k')) s' := by
  obtain ⟨hok, hcalls, htable, hstray, -⟩ := s.call_cases
  rw [Sockets.callOnFile, h.file]
  dsimp only
  rw [hok, hf]
  cases refused 1 s.calls with
  | true => exact ⟨_, rfl, hcalls, h.call⟩
  | false => exact ⟨_, rfl, hcalls, h.call.set k' rfl ⟨rfl, rfl⟩⟩

/-- **A call on the socket** changes it, or fails. -/
theorem callOn (h : Holding s₀ fd (some k) s) (f : Socket → Socket) :
    ∃ s', s.callOn fd f = (if refused 1 s.calls then -1 else 0, s') ∧
      s'.calls = s.calls.drop 1 ∧
      Holding s₀ fd (some (if refused 1 s.calls then k else f k)) s' := by
  rw [Sockets.callOn, h.file]
  exact h.callOnFile rfl

/-- **`close`** gives the socket back. -/
theorem close (h : Holding s₀ fd (some k) s) :
    Settled s₀ (s.close fd) ∧ (s.close fd).calls = s.calls.drop 1 ∧
      (s.close fd).errInfo = s.errInfo := by
  obtain ⟨hopen, hstray, hcalls, herr⟩ := s.close_cases h.file
  exact ⟨⟨h.toUnstrayed.trans hstray,
    (Beside.none_iff h.beside.fresh).mp (h.beside.update hopen)⟩, hcalls, herr⟩

end Holding

/-- What is said before `close` is still said after it. -/
theorem Sockets.Told.close {s₀ s : Sockets} {fd : ℤ} {k : Socket} {err : Bool} (ht : s.Told err)
    (h : Holding s₀ fd (some k) s) : (s.close fd).Told err := by
  intro herr
  rw [h.close.2.2]
  exact ht herr

namespace Settled

variable {s₀ s : Sockets}

theorem refl (s : Sockets) : Settled s s := ⟨⟨rfl, rfl⟩, rfl⟩

/-- What leaves the table alone. -/
theorem same (h : Settled s₀ s) {s' : Sockets} (htable : s'.table = s.table)
    (hstray : Unstrayed s s') : Settled s₀ s' :=
  ⟨h.toUnstrayed.trans hstray, (Sockets.descriptors_of_table htable).trans h.descriptors⟩

/-- A message opens and closes nothing. -/
theorem setError (h : Settled s₀ s) (err : Bool) (msg : Bytes) :
    Settled s₀ (s.anetSetError err msg) := by
  rw [Sockets.anetSetError]
  split
  · exact h.same rfl ⟨rfl, rfl⟩
  · exact h

/-- **`socket`** opens the lowest free descriptor, or fails. -/
theorem socket (h : Settled s₀ s) (family socktype protocol : ℤ) :
    (refused 1 s.calls = true ∧ ∃ s', s.socket family socktype protocol = (-1, s') ∧
      s'.calls = s.calls.drop 1 ∧ Settled s₀ s') ∨
    (refused 1 s.calls = false ∧ ∃ (n : ℕ) (s' : Sockets),
      s.socket family socktype protocol = ((n : ℤ), s') ∧ s'.calls = s.calls.drop 1 ∧
      (∀ i < n, (s₀.descriptors i).isSome = true) ∧
      Holding s₀ n (some { family, socktype, protocol }) s') := by
  obtain ⟨hok, hcalls, htable, hstray, -⟩ := s.call_cases
  rw [Sockets.socket]
  dsimp only
  rw [hok]
  cases refused 1 s.calls with
  | true => exact Or.inl ⟨rfl, _, rfl, hcalls, h.same htable hstray⟩
  | false =>
      refine Or.inr ⟨rfl, _, _, rfl, hcalls, fun i hi => ?_,
        h.toUnstrayed.trans ⟨hstray.stray, hstray.resolve⟩, ?_⟩
      · rw [htable] at hi
        rw [← h.descriptors]
        exact s.table.isSome_of_lt_lowest hi
      · rw [← h.descriptors, htable]
        exact ⟨s.table.get_lowest, s.table.get_alloc _⟩

end Settled

/-- What the process is after `epoll_create`: it has an epoll instance at the lowest free
descriptor, or what it had. -/
inductive EpollCreated (s : Sockets) : ℤ × Sockets → Prop
  | failed {s' : Sockets} (settled : Settled s s') : EpollCreated s (-1, s')
  | created {n : ℕ} {s' : Sockets} (lowest : ∀ i < n, (s.descriptors i).isSome = true)
      (stray : Unstrayed s s')
      (beside : Beside s.descriptors n (some (.epoll oRdwr)) s'.descriptors) :
      EpollCreated s ((n : ℤ), s')

/-- **`epoll_create`** opens the lowest free descriptor, or fails. -/
theorem Sockets.epollCreate_created (s : Sockets) : EpollCreated s s.epollCreate := by
  obtain ⟨hok, -, htable, hstray, -⟩ := s.call_cases
  rw [Sockets.epollCreate]
  dsimp only
  rw [hok]
  cases refused 1 s.calls with
  | true => exact .failed ((Settled.refl s).same htable hstray)
  | false =>
      refine .created (fun i hi => ?_) ⟨hstray.stray, hstray.resolve⟩ ?_
      · rw [htable] at hi
        exact s.table.isSome_of_lt_lowest hi
      · rw [htable]
        exact ⟨s.table.get_lowest, s.table.get_alloc _⟩

/-! ## Configuring -/

namespace Holding

variable {s₀ s : Sockets} {fd : ℤ} {k : Socket}

/-- **Setting an option** changes the socket, or fails with a text. -/
theorem setOption (h : Holding s₀ fd (some k) s) (err : Bool) (opt : SockOpt) (val : List ℤ)
    (msg eol : Bytes) :
    ∃ s', s.anetSetOption err fd opt val msg eol =
        (if refused 1 s.calls then anetErr else anetOk, s') ∧ s'.calls = s.calls.drop 1 ∧
      (refused 1 s.calls = true → s'.Told err) ∧
      Holding s₀ fd (some (if refused 1 s.calls then k else k.setOption opt val)) s' := by
  obtain ⟨s', hcall, hcalls, h'⟩ := h.callOn fun k => k.setOption opt val
  rw [Sockets.anetSetOption, Sockets.setsockopt, hcall]
  dsimp only
  cases hr : refused 1 s.calls with
  | true =>
      rw [hr] at h'
      refine ⟨_, rfl, ?_, fun _ => s'.told_setError err _, h'.setError err _⟩
      rw [← hcalls, Sockets.anetSetError]
      split <;> rfl
  | false =>
      rw [hr] at h'
      exact ⟨_, rfl, hcalls, fun h => (nomatch h), h'⟩

/-- **`anetKeepAlive`** sets its options one after the other, up to the first that is refused. -/
theorem keepAlive (h : Holding s₀ fd (some k) s) (err : Bool) (interval : ℤ) :
    ∃ n s', s.anetKeepAlive err fd interval = (if n = 4 then anetOk else anetErr, s') ∧
      (n = 4 ∨ n < 4 ∧ refused 1 (s.calls.drop n) = true ∧ s'.Told err) ∧
      refused n s.calls = false ∧
      Holding s₀ fd (some (((Sockets.keepAliveOptions interval).take n).foldl
        (fun k o => k.setOption o.1 o.2) k)) s' := by
  obtain ⟨s₁, hset₁, hcalls₁, htold₁, h₁⟩ := h.setOption err .soKeepalive [1]
    (text "setsockopt SO_KEEPALIVE: ") []
  rw [Sockets.anetKeepAlive, hset₁]
  cases hr₁ : refused 1 s.calls with
  | true =>
      rw [hr₁] at h₁
      exact ⟨0, s₁, rfl, Or.inr ⟨by decide, hr₁, htold₁ hr₁⟩, refused_zero _, h₁⟩
  | false =>
  rw [hr₁] at h₁
  obtain ⟨s₂, hset₂, hcalls₂, htold₂, h₂⟩ := h₁.setOption err .tcpKeepidle [interval]
    (text "setsockopt TCP_KEEPIDLE: ") [10]
  dsimp only
  rw [if_neg Bool.false_ne_true, if_neg (by decide), Sockets.anetKeepAliveProbes, hset₂]
  cases hr₂ : refused 1 s₁.calls with
  | true =>
      rw [hr₂] at h₂
      refine ⟨1, s₂, rfl, Or.inr ⟨by decide, ?_, htold₂ hr₂⟩, hr₁, h₂⟩
      rw [← hcalls₁, hr₂]
  | false =>
  rw [hr₂] at h₂
  have hr₁₂ : refused 2 s.calls = false := by
    rw [refused_add 1 1, hr₁, ← hcalls₁, hr₂]
    rfl
  obtain ⟨s₃, hset₃, hcalls₃, htold₃, h₃⟩ := h₂.setOption err .tcpKeepintvl
    [if interval.tdiv 3 = 0 then 1 else interval.tdiv 3] (text "setsockopt TCP_KEEPINTVL: ") [10]
  have hdrop₂ : s₂.calls = s.calls.drop 2 := by rw [hcalls₂, hcalls₁, List.drop_drop]
  dsimp only
  rw [if_neg Bool.false_ne_true, if_neg (by decide), hset₃]
  cases hr₃ : refused 1 s₂.calls with
  | true =>
      rw [hr₃] at h₃
      refine ⟨2, s₃, rfl, Or.inr ⟨by decide, ?_, htold₃ hr₃⟩, hr₁₂, h₃⟩
      rw [← hdrop₂, hr₃]
  | false =>
  rw [hr₃] at h₃
  have hr₁₃ : refused 3 s.calls = false := by
    rw [refused_add 2 1, hr₁₂, ← hdrop₂, hr₃]
    rfl
  obtain ⟨s₄, hset₄, -, htold₄, h₄⟩ := h₃.setOption err .tcpKeepcnt [3]
    (text "setsockopt TCP_KEEPCNT: ") [10]
  have hdrop₃ : s₃.calls = s.calls.drop 3 := by rw [hcalls₃, hdrop₂, List.drop_drop]
  dsimp only
  rw [if_neg Bool.false_ne_true, if_neg (by decide), hset₄]
  cases hr₄ : refused 1 s₃.calls with
  | true =>
      rw [hr₄] at h₄
      refine ⟨3, s₄, rfl, Or.inr ⟨by decide, ?_, htold₄ hr₄⟩, hr₁₃, h₄⟩
      rw [← hdrop₃, hr₄]
  | false =>
      rw [hr₄] at h₄
      refine ⟨4, s₄, rfl, Or.inl rfl, ?_, h₄⟩
      rw [refused_add 3 1, hr₁₃, ← hdrop₃, hr₄]
      rfl

/-- `F_GETFL` returns the flags of the held socket, or fails as its call does. -/
theorem getFlags (h : Holding s₀ fd (some k) s) :
    ∃ s', s.getFlags fd = (if refused 1 s.calls then none else some k.flags, s') ∧
      s'.calls = s.calls.drop 1 ∧ Holding s₀ fd (some k) s' := by
  obtain ⟨s', hcall, hcalls, h'⟩ := h.callOnFile (f := id) rfl
  rw [Sockets.getFlags, hcall]
  dsimp only
  cases hr : refused 1 s.calls with
  | true =>
      rw [hr] at h'
      exact ⟨s', rfl, hcalls, h'⟩
  | false =>
      rw [hr] at h'
      have h' : Holding s₀ fd (some k) s' := h'
      refine ⟨s', ?_, hcalls, h'⟩
      rw [if_neg Bool.false_ne_true, if_neg (by decide), if_neg Bool.false_ne_true, h'.file]
      rfl

/-- `getsockname` gives the name of the socket, or fails. -/
theorem getsockname (h : Holding s₀ fd (some k) s) :
    ∃ name s', s.getsockname fd = (name, s') ∧ Holding s₀ fd (some k) s' ∧
      ∀ addr, name = some addr → addr = k.name.getD (anyAddr k.family) := by
  obtain ⟨s', hcall, -, h'⟩ := h.callOn id
  rw [Sockets.getsockname, hcall]
  cases hr : refused 1 s.calls with
  | true =>
      rw [hr] at h'
      exact ⟨none, s', rfl, h', fun addr haddr => (nomatch haddr)⟩
  | false =>
      rw [hr] at h'
      have h' : Holding s₀ fd (some k) s' := h'
      refine ⟨some (k.name.getD (anyAddr k.family)), s', ?_, h', fun addr haddr => ?_⟩
      · dsimp only
        rw [if_neg Bool.false_ne_true, if_neg (by decide), h'.get]
        rfl
      · exact (Option.some.inj haddr).symm

/-- **`anetSetBlock`** changes the flags, unless one of its two calls fails. -/
theorem setBlock (h : Holding s₀ fd (some k) s) (err nonBlock : Bool) :
    ∃ s', s.anetSetBlock err fd nonBlock =
        (if refused 2 s.calls then anetErr else anetOk, s') ∧
      (refused 2 s.calls = false → s'.calls = s.calls.drop 2) ∧
      (refused 2 s.calls = true → s'.Told err) ∧
      Holding s₀ fd (some (if refused 2 s.calls then k else k.setBlock nonBlock)) s' := by
  obtain ⟨s₁, hget, hcalls₁, h₁⟩ := h.getFlags
  rw [Sockets.anetSetBlock, hget, refused_add 1 1]
  cases refused 1 s.calls with
  | true => exact ⟨_, rfl, fun h => (nomatch h), fun _ => s₁.told_setError err _, h₁.setError err _⟩
  | false =>
      obtain ⟨s₂, hset, hcalls₂, h₂⟩ := h₁.callOnFile (f := OpenFile.setFlags
        (if nonBlock then k.flags ||| oNonblock else k.flags &&& ~~~oNonblock)) rfl
      rw [Bool.false_or, ← hcalls₁]
      dsimp only
      rw [if_neg Bool.false_ne_true]
      dsimp only
      rw [Sockets.setFlags, hset]
      dsimp only
      cases hr : refused 1 s₁.calls with
      | true =>
          rw [hr] at h₂
          exact ⟨_, rfl, fun h => (nomatch h), fun _ => s₂.told_setError err _, h₂.setError err _⟩
      | false =>
          rw [hr] at h₂
          refine ⟨s₂, rfl, fun _ => ?_, fun h => (nomatch h), h₂⟩
          rw [hcalls₂, hcalls₁, List.drop_drop]

/-- **`connect`** connects the socket, or fails, possibly on the way. -/
theorem connect (h : Holding s₀ fd (some k) s) (addr : SockAddr) :
    ∃ s', s'.calls = s.calls.drop 1 ∧
      ((refused 1 s.calls = false ∧ s.connect fd addr = (0, s') ∧
        Holding s₀ fd (some { k with peer := some addr, pending := false }) s') ∨
      (refused 1 s.calls = true ∧ s.connect fd addr = (-1, s') ∧ s'.errno = einprogress ∧
        Holding s₀ fd (some { k with peer := some addr, pending := true }) s') ∨
      (refused 1 s.calls = true ∧ s.connect fd addr = (-1, s') ∧ s'.errno ≠ einprogress ∧
        Holding s₀ fd (some k) s')) := by
  obtain ⟨s₁, hcall, hcalls, h₁⟩ := h.callOn fun k => { k with peer := some addr, pending := false }
  rw [Sockets.connect, hcall]
  dsimp only
  cases hr : refused 1 s.calls with
  | true =>
      rw [hr] at h₁
      have h₁ : Holding s₀ fd (some k) s₁ := h₁
      rw [if_pos rfl, h₁.file]
      by_cases herrno : s₁.errno = einprogress
      · rw [if_pos ⟨rfl, herrno⟩]
        let k' : Socket := { k with peer := some addr, pending := true }
        exact ⟨{ s₁ with table := s₁.table.set fd (.socket k') }, hcalls,
          Or.inr (Or.inl ⟨rfl, rfl, herrno, h₁.set k' rfl ⟨rfl, rfl⟩⟩)⟩
      · rw [if_neg (fun hand => herrno hand.2)]
        exact ⟨s₁, hcalls, Or.inr (Or.inr ⟨rfl, rfl, herrno, h₁⟩)⟩
  | false =>
      rw [hr] at h₁
      rw [if_neg Bool.false_ne_true, if_neg (fun hand => absurd hand.1 (by decide))]
      exact ⟨s₁, hcalls, Or.inl ⟨rfl, rfl, h₁⟩⟩

/-- **`anetV6Only`** sets the option or closes. -/
theorem v6Only (h : Holding s₀ fd (some k) s) (err : Bool) :
    (refused 1 s.calls = true ∧ ∃ s', s.anetV6Only err fd = (anetErr, s') ∧ s'.Told err ∧
      Settled s₀ s') ∨
    (refused 1 s.calls = false ∧ ∃ s', s.anetV6Only err fd = (anetOk, s') ∧
      s'.calls = s.calls.drop 1 ∧ Holding s₀ fd (some (k.setOption .ipv6V6only [1])) s') := by
  obtain ⟨s₁, hset, hcalls, htold, h₁⟩ := h.setOption err .ipv6V6only [1] (text "setsockopt: ") []
  rw [Sockets.anetV6Only, hset]
  dsimp only
  cases hr : refused 1 s.calls with
  | true =>
      rw [hr] at h₁
      exact Or.inl ⟨rfl, _, rfl, (htold hr).close h₁, h₁.close.1⟩
  | false =>
      rw [hr] at h₁
      exact Or.inr ⟨rfl, _, rfl, hcalls, h₁⟩

/-- **`anetListen`** makes the socket listen or closes it. -/
theorem anetListen (h : Holding s₀ fd (some k) s) (err : Bool) (addr : SockAddr) (backlog : ℤ) :
    (refused 2 s.calls = true ∧ ∃ s', s.anetListen err fd addr backlog = (anetErr, s') ∧
      s'.Told err ∧ Settled s₀ s') ∨
    (refused 2 s.calls = false ∧ ∃ s', s.anetListen err fd addr backlog = (anetOk, s') ∧
      Holding s₀ fd (some { k with name := some addr, backlog := some backlog }) s') := by
  obtain ⟨s₁, hbind, hcalls, h₁⟩ := h.callOn fun k => { k with name := some addr }
  rw [Sockets.anetListen, Sockets.bind, hbind, refused_add 1 1, ← hcalls]
  dsimp only
  cases hr : refused 1 s.calls with
  | true =>
      rw [hr] at h₁
      exact Or.inl ⟨rfl, _, rfl, (s₁.told_setError err _).close (h₁.setError err _),
        (h₁.setError err _).close.1⟩
  | false =>
      rw [hr] at h₁
      obtain ⟨s₂, hlisten, -, h₂⟩ := h₁.callOn fun k => { k with backlog := some backlog }
      rw [if_neg Bool.false_ne_true, if_neg (by decide), Sockets.listen, hlisten, Bool.false_or]
      dsimp only
      cases hr₂ : refused 1 s₁.calls with
      | true =>
          rw [hr₂] at h₂
          exact Or.inl ⟨rfl, _, rfl, (s₂.told_setError err _).close (h₂.setError err _),
            (h₂.setError err _).close.1⟩
      | false =>
          rw [hr₂] at h₂
          exact Or.inr ⟨rfl, _, rfl, h₂⟩

end Holding

/-- **`anetCreateSocket`** opens a socket or nothing. -/
theorem Settled.createSocket {s₀ s : Sockets} (h : Settled s₀ s) (err : Bool) (domain : ℤ) :
    (refused 2 s.calls = true ∧ ∃ s', s.anetCreateSocket err domain = (anetErr, s') ∧
      s'.Told err ∧ Settled s₀ s') ∨
    (refused 2 s.calls = false ∧ ∃ (n : ℕ) (s' : Sockets),
      s.anetCreateSocket err domain = ((n : ℤ), s') ∧ s'.calls = s.calls.drop 2 ∧
      (∀ i < n, (s₀.descriptors i).isSome = true) ∧
      Holding s₀ n (some (Socket.setOption
        { family := domain, socktype := sockStream, protocol := 0 } .soReuseaddr [1])) s') := by
  rw [Sockets.anetCreateSocket, refused_add 1 1]
  rcases h.socket domain sockStream 0 with
    ⟨hr, s₁, hsocket, -, h₁⟩ | ⟨hr, n, s₁, hsocket, hcalls, hlow, h₁⟩
  · rw [hsocket, hr]
    exact Or.inl ⟨rfl, _, rfl, s₁.told_setError err _, h₁.setError err _⟩
  · obtain ⟨s₂, hset, hcalls₂, htold, h₂⟩ := h₁.setOption err .soReuseaddr [1]
      (text "setsockopt SO_REUSEADDR: ") []
    have hn : ¬(n : ℤ) = -1 := by omega
    rw [hsocket, hr, ← hcalls, Bool.false_or]
    dsimp only
    rw [if_neg hn, Sockets.anetSetReuseAddr, hset]
    dsimp only
    cases hr₂ : refused 1 s₁.calls with
    | true =>
        rw [hr₂] at h₂
        exact Or.inl ⟨rfl, _, rfl, (htold hr₂).close h₂, h₂.close.1⟩
    | false =>
        rw [hr₂] at h₂
        refine Or.inr ⟨rfl, n, s₂, rfl, ?_, hlow, h₂⟩
        rw [hcalls₂, hcalls, List.drop_drop]

/-! ## Functions that open a socket -/

/-- **What a function gives that opens a socket**: the lowest free descriptor, for a socket as `P`
says, or `-1` with a text, and nothing is open that was not open before. -/
inductive Opened (s₀ : Sockets) (err : Bool) (P : Socket → Prop) : ℤ × Sockets → Prop
  | failed {s : Sockets} (settled : Settled s₀ s) (told : s.Told err) :
      Opened s₀ err P (anetErr, s)
  | opened {n : ℕ} {k : Socket} {s : Sockets} (lowest : ∀ i < n, (s₀.descriptors i).isSome = true)
      (holding : Holding s₀ n (some k) s) (hk : P k) : Opened s₀ err P ((n : ℤ), s)

/-- The function gives `-1`, and a socket is still open that was not open before. -/
inductive Leaked (s₀ : Sockets) (err : Bool) : ℤ × Sockets → Prop
  | mk {n : ℕ} {k : Socket} {s : Sockets} (holding : Holding s₀ n (some k) s) (told : s.Told err) :
      Leaked s₀ err (anetErr, s)

/-- What the opened socket is may be weakened. -/
theorem Opened.mono {s₀ : Sockets} {err : Bool} {P Q : Socket → Prop} {rs : ℤ × Sockets}
    (h : Opened s₀ err P rs) (hPQ : ∀ k, P k → Q k) : Opened s₀ err Q rs := by
  cases h with
  | failed settled told => exact .failed settled told
  | opened lowest holding hk => exact .opened lowest holding (hPQ _ hk)

/-- A function that leaks did not do what it is for. -/
theorem Leaked.not_opened {s₀ : Sockets} {err : Bool} {P : Socket → Prop} {rs : ℤ × Sockets}
    (h : Leaked s₀ err rs) : ¬Opened s₀ err P rs := by
  intro ho
  obtain @⟨n, k, s, holding, -⟩ := h
  generalize hrs : (anetErr, s) = rs at ho
  cases ho with
  | failed settled =>
      obtain ⟨-, rfl⟩ := Prod.mk.inj hrs
      have hsome := holding.file
      rw [settled.descriptors, holding.beside.fresh] at hsome
      cases hsome
  | @opened m =>
      obtain ⟨hm, -⟩ := Prod.mk.inj hrs
      have hneg : anetErr < 0 := by decide
      omega

/-- A function that leaks under the condition `C`, and does what it is for without it. -/
theorem leaked_iff_opened_iff {s₀ : Sockets} {err : Bool} {P : Socket → Prop} {rs : ℤ × Sockets}
    {C : Prop} (h : (C ∧ Leaked s₀ err rs) ∨ (¬C ∧ Opened s₀ err P rs)) :
    (Leaked s₀ err rs ↔ C) ∧ (Opened s₀ err P rs ↔ ¬C) := by
  rcases h with ⟨hC, hleak⟩ | ⟨hC, hopen⟩
  · exact ⟨iff_of_true hleak hC, iff_of_false hleak.not_opened (not_not.mpr hC)⟩
  · exact ⟨iff_of_false (fun hleak => hleak.not_opened hopen) hC, iff_of_true hopen hC⟩

end AsprNet
