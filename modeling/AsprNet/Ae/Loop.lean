import AsprNet.Kernel

/-! # The event loop

Reference: `ae.hpp`, `ae.cpp`, `ae_epoll.hpp`.

The loop keeps a table `_events` indexed by descriptor, the arrays that `epoll_wait` and `poll`
fill, and the highest registered descriptor. The kernel keeps the interest set of the epoll
instance, which is part of `AeEpollState` here. Handlers are names `π` and client data values `δ`;
what a handler does is a parameter of `processEvents` (`Host`).

The arrays are values here: who owns their memory, and with it `resize`, is the subject of
`Ae.Arrays`.
-/

namespace AsprNet

/-! ## Masks and epoll events -/

/-- An `int` used as a set of flags. -/
abbrev Mask := BitVec 32

def aeNone : Mask := 0#32
def aeReadable : Mask := 1#32
def aeWritable : Mask := 2#32

def epollIn : Mask := 1#32
def epollOut : Mask := 4#32
def epollErr : Mask := 8#32
def epollHup : Mask := 16#32

def aeOk : ℤ := 0
def aeErr : ℤ := -1

/-- `_mask & flag` as a condition. -/
def Mask.has (m flag : Mask) : Bool := m &&& flag != 0#32

/-- The directions `add_event`, `mod_event` and `del_event` ask the kernel to watch. -/
def epollEvents (mask : Mask) : Mask :=
  (if mask.has aeReadable then epollIn else 0#32) |||
    (if mask.has aeWritable then epollOut else 0#32)

/-! ## The epoll state -/

/-- `ae_epoll_state` and the kernel's side of its epoll instance. -/
structure AeEpollState where
  /-- `_events_size`, the capacity of the array given to `epoll_wait`. -/
  eventsSize : ℤ
  /-- The interest set: the events watched for a descriptor that is in it. -/
  interest : ℤ → Option Mask
  /-- Which of the coming `epoll_ctl` calls fail for a reason of their own. -/
  ctl : List Bool := []

inductive CtlOp
  | add
  | mod
  | del
deriving DecidableEq, Repr

namespace AeEpollState

/-- `epoll_ctl`: ADD of a descriptor that is absent, MOD and DEL of one that is present. -/
def epollCtl (s : AeEpollState) (op : CtlOp) (fd : ℤ) (events : Mask) : ℤ × AeEpollState :=
  let s' := { s with ctl := s.ctl.tail }
  if s.ctl.headD false then (-1, s')
  else match op, s.interest fd with
    | .add, none => (0, { s' with interest := Function.update s.interest fd (some events) })
    | .mod, some _ => (0, { s' with interest := Function.update s.interest fd (some events) })
    | .del, some _ => (0, { s' with interest := Function.update s.interest fd none })
    | _, _ => (-1, s')

def addEvent (s : AeEpollState) (fd : ℤ) (mask : Mask) : ℤ × AeEpollState :=
  let (r, s) := s.epollCtl .add fd (epollEvents mask)
  if r = -1 then (-1, s) else (0, s)

def modEvent (s : AeEpollState) (fd : ℤ) (mask : Mask) : AeEpollState :=
  (s.epollCtl .mod fd (epollEvents mask)).2

def delEvent (s : AeEpollState) (fd : ℤ) (mask : Mask) : AeEpollState :=
  (s.epollCtl .del fd (epollEvents mask)).2

def resize (s : AeEpollState) (newSize : ℤ) : AeEpollState := { s with eventsSize := newSize }

/-- `_S_epoll_create` of an epoll instance that watches nothing. -/
def create (size : ℤ) (ctl : List Bool) : AeEpollState :=
  { eventsSize := size, interest := fun _ => none, ctl }

end AeEpollState

/-! ## The loop -/

structure AeFileEvent (π δ : Type) where
  mask : Mask := aeNone
  rProc : Option π := none
  wProc : Option π := none
  clientData : Option δ := none
deriving DecidableEq

structure AeFiredEvent where
  fd : ℤ
  mask : Mask
deriving DecidableEq, Repr

/-- `struct epoll_event` with `data.fd`. -/
structure EpollEvent where
  events : Mask
  fd : ℤ
deriving DecidableEq, Repr

structure AeEventLoop (π δ : Type) where
  /-- `_max_fd`: highest file descriptor currently registered. -/
  maxFd : ℤ
  /-- `_fdset_size`: max number of file descriptors tracked. -/
  fdsetSize : ℤ
  /-- `_events`: registered events. -/
  events : List (AeFileEvent π δ)
  /-- `_fired`: fired events. -/
  fired : List AeFiredEvent
  /-- `_api_data`; `none` after a failed `epoll_create`. -/
  apiData : Option AeEpollState

namespace AeEventLoop

variable {π δ : Type}

/-- The constructor, given the outcome of `epoll_create`. -/
def create (size : ℕ) (api : Option AeEpollState) : AeEventLoop π δ :=
  { maxFd := -1, fdsetSize := size, events := List.replicate size {},
    fired := List.replicate size { fd := 0, mask := aeNone }, apiData := api }

/-- The table entry of a descriptor; an unregistered one outside the table. -/
def entry (l : AeEventLoop π δ) (fd : ℤ) : AeFileEvent π δ :=
  if 0 ≤ fd then l.events.getD fd.toNat {} else {}

/-- `&_events[_fd]`. -/
def event (l : AeEventLoop π δ) (fd : ℤ) : Except Halt (AeFileEvent π δ) :=
  if 0 ≤ fd ∧ fd < l.events.length then .ok (l.entry fd) else .error .outOfBounds

/-- Write back the entry of a descriptor in range. -/
def setEvent (l : AeEventLoop π δ) (fd : ℤ) (fe : AeFileEvent π δ) : AeEventLoop π δ :=
  { l with events := l.events.set fd.toNat fe }

/-- The updates of `add_file_event` behind the kernel call. -/
def register (l : AeEventLoop π δ) (fd : ℤ) (fe : AeFileEvent π δ) (mask : Mask) (proc : π)
    (data : δ) : AeEventLoop π δ :=
  let fe' : AeFileEvent π δ :=
    { mask := fe.mask ||| mask
      rProc := if mask.has aeReadable then some proc else fe.rProc
      wProc := if mask.has aeWritable then some proc else fe.wProc
      clientData := some data }
  { l.setEvent fd fe' with maxFd := max l.maxFd fd }

def addFileEvent (l : AeEventLoop π δ) (fd : ℤ) (mask : Mask) (proc : π) (data : δ) :
    Except Halt (ℤ × AeEventLoop π δ) :=
  if l.fdsetSize ≤ fd then .ok (aeErr, l) else do
    let fe ← l.event fd
    match l.apiData with
    | none => return (aeErr, l)
    | some s =>
      if fe.mask = aeNone then
        let (r, s) := s.addEvent fd (mask ||| fe.mask)
        let l := { l with apiData := some s }
        if r = -1 then return (aeErr, l)
        else return (aeOk, l.register fd fe mask proc data)
      else
        let l := { l with apiData := some (s.modEvent fd (mask ||| fe.mask)) }
        return (aeOk, l.register fd fe mask proc data)

/-- The downward scan for the highest registered descriptor below `i`. -/
def scanMaxFd (events : List (AeFileEvent π δ)) : ℕ → ℤ
  | 0 => -1
  | i + 1 => if (events.getD i {}).mask ≠ aeNone then i else scanMaxFd events i

def delFileEvent (l : AeEventLoop π δ) (fd : ℤ) (mask : Mask) :
    Except Halt (AeEventLoop π δ) :=
  if l.fdsetSize ≤ fd then .ok l else do
    let fe ← l.event fd
    match l.apiData with
    | none => return l
    | some s =>
      let mask := fe.mask &&& ~~~mask
      let s := if mask = aeNone then s.delEvent fd mask else s.modEvent fd mask
      let l := { l.setEvent fd { fe with mask } with apiData := some s }
      if fd = l.maxFd ∧ mask = aeNone then
        return { l with maxFd := scanMaxFd l.events l.maxFd.toNat }
      else
        return l

def getFileEvent (l : AeEventLoop π δ) (fd : ℤ) : Except Halt Mask :=
  if l.fdsetSize ≤ fd then .ok 0#32 else do
    let fe ← l.event fd
    return fe.mask

/-- An array of `n` elements that starts with the first elements of `old`. -/
def regrow {α : Type} (dflt : α) (old : List α) (n : ℕ) : List α :=
  old.take n ++ List.replicate (n - old.length) dflt

/-- What the moves of `resize` leave: three arrays of the new size, in which the entries above
`_max_fd` are marked unregistered. What `new[]` leaves in the added entries of `_fired` is never
read: `poll` fills them before. The call itself releases arrays as well (`AeArrays.resize`). -/
def resized (l : AeEventLoop π δ) (s : AeEpollState) (newSize : ℤ) : AeEventLoop π δ :=
  let events := regrow {} l.events newSize.toNat
  let fired := regrow { fd := 0, mask := aeNone } l.fired newSize.toNat
  let events := events.mapIdx fun i fe => if l.maxFd < i then { fe with mask := aeNone } else fe
  { l with fdsetSize := newSize, events, fired, apiData := some (s.resize newSize) }

/-! ## Polling and dispatch -/

/-- The mask `poll` derives from the events the kernel reports. -/
def firedOf (e : EpollEvent) : AeFiredEvent where
  fd := e.fd
  mask :=
    (if e.events.has epollIn then aeReadable else 0#32) |||
    (if e.events.has epollOut then aeWritable else 0#32) |||
    (if e.events.has epollErr then aeWritable else 0#32) |||
    (if e.events.has epollHup then aeWritable else 0#32)

/-- `poll`, when the kernel has the events `batch` to report: `epoll_wait` returns at most
`_events_size` of them (none stands for the results `0` and `-1`), and they are stored in
`_fired`. -/
def poll (l : AeEventLoop π δ) (batch : List EpollEvent) :
    Except Halt (ℕ × AeEventLoop π δ) :=
  match l.apiData with
  | none => .error .nullPointer
  | some s =>
    let es := (batch.take s.eventsSize.toNat).map firedOf
    if es.length ≤ l.fired.length then
      .ok (es.length, { l with fired := es ++ l.fired.drop es.length })
    else .error .outOfBounds

/-- A program around an event loop: where the loop is, and what its handlers do. -/
structure Host (π δ W : Type) where
  loop : W → AeEventLoop π δ
  withLoop : W → AeEventLoop π δ → W
  call : π → ℤ → Option δ → Mask → W → Except Halt W

variable {W : Type} (H : Host π δ W)

/-- A call through a handler pointer of the table. -/
def Host.invoke (proc : Option π) (fd : ℤ) (data : Option δ) (mask : Mask) (w : W) :
    Except Halt W :=
  match proc with
  | none => .error .nullPointer
  | some p => H.call p fd data mask w

/-- The read half of a fired event; it also returns `_rfired`. -/
def readHalf (e : AeFiredEvent) (w : W) : Except Halt (Bool × W) := do
  let fe ← (H.loop w).event e.fd
  if (fe.mask &&& e.mask).has aeReadable then
    let w ← H.invoke fe.rProc e.fd fe.clientData e.mask w
    return (true, w)
  else
    return (false, w)

/-- The write half of a fired event. It reads the table entry again, which the read half may have
changed. -/
def writeHalf [DecidableEq π] (e : AeFiredEvent) (rfired : Bool) (w : W) : Except Halt W := do
  let fe ← (H.loop w).event e.fd
  if (fe.mask &&& e.mask).has aeWritable ∧ (rfired = false ∨ fe.rProc ≠ fe.wProc) then
    H.invoke fe.wProc e.fd fe.clientData e.mask w
  else
    return w

/-- One round of the loop over the fired events. -/
def dispatchEntry [DecidableEq π] (w : W) (e : AeFiredEvent) : Except Halt W := do
  let (rfired, w) ← readHalf H e w
  writeHalf H e rfired w

/-- `process_events(AE_ALL_EVENTS)` when the kernel has the events `batch` to report. With these
flags it always polls; `process_time_events` is a stub that does nothing. -/
def processEvents [DecidableEq π] (w : W) (batch : List EpollEvent) : Except Halt W := do
  let (n, l) ← (H.loop w).poll batch
  (l.fired.take n).foldlM (dispatchEntry H) (H.withLoop w l)

end AeEventLoop

end AsprNet
