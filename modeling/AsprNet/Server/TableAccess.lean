import AsprNet.Lib.Failures
import AsprNet.Server.Lifetime

/-! # Accesses to the event table

The table functions compare a descriptor with the size of the table, and leave the lower bound to
their callers. `Checked` is the server with a check in front of every access to `_events` on behalf
of `init` and the handlers. Its runs are those of the server exactly when `anetTcpServer` returned
a descriptor (`table_inRange_iff`).
-/

namespace AsprNet

/-! ## The indexes -/

namespace AeEventLoop

variable {π δ : Type}

/-- The indexes into `_events` of `add_file_event`. -/
def addIndexes (l : AeEventLoop π δ) (fd : ℤ) : List ℤ := if l.fdsetSize ≤ fd then [] else [fd]

/-- The indexes of the scan for the highest registered descriptor below `i`. -/
def scanIndexes (events : List (AeFileEvent π δ)) : ℕ → List ℤ
  | 0 => []
  | i + 1 => i :: if (events.getD i {}).mask ≠ aeNone then [] else scanIndexes events i

/-- The indexes into `_events` of `del_file_event`. -/
def delIndexes (l : AeEventLoop π δ) (fd : ℤ) (mask : Mask) : List ℤ :=
  if l.fdsetSize ≤ fd then []
  else
    let fe := l.entry fd
    let mask := fe.mask &&& ~~~mask
    if l.apiData.isSome ∧ fd = l.maxFd ∧ mask = aeNone then
      fd :: scanIndexes (l.setEvent fd { fe with mask }).events l.maxFd.toNat
    else [fd]

/-- Every index is one of the table. -/
def InTable (l : AeEventLoop π δ) (is : List ℤ) : Prop := ∀ i ∈ is, 0 ≤ i ∧ i < l.fdsetSize

instance (l : AeEventLoop π δ) (is : List ℤ) : Decidable (l.InTable is) :=
  inferInstanceAs (Decidable (∀ i ∈ is, _))

variable {l : AeEventLoop π δ} {fd : ℤ}

/-- By induction on the number of entries: the scan for the new `_max_fd` reads entries from 0 up to
it. -/
theorem scanIndexes_bounds (events : List (AeFileEvent π δ)) (n : ℕ) :
    ∀ i ∈ scanIndexes events n, 0 ≤ i ∧ i < n := by
  induction n with
  | zero => exact fun i hi => (nomatch hi)
  | succ n ih =>
      intro i hi
      rw [scanIndexes, List.mem_cons] at hi
      rcases hi with rfl | hi
      · omega
      · split at hi
        · cases hi
        · have hbounds := ih i hi
          omega

/-- `add_file_event` indexes only its own descriptor, and behind the table nothing. -/
theorem addIndexes_inTable (h : 0 ≤ fd) : l.InTable (l.addIndexes fd) := by
  intro i hi
  unfold addIndexes at hi
  split_ifs at hi with hge
  · cases hi
  · obtain rfl := List.mem_singleton.mp hi
    omega

/-- The scan starts below the descriptor. -/
theorem delIndexes_inTable (h : 0 ≤ fd) (mask : Mask) : l.InTable (l.delIndexes fd mask) := by
  intro i hi
  unfold delIndexes at hi
  dsimp only at hi
  split_ifs at hi with hge hscan
  · cases hi
  · rcases List.mem_cons.mp hi with rfl | hi
    · omega
    · have hbounds := scanIndexes_bounds _ _ i hi
      have hmax := hscan.2.1
      omega
  · obtain rfl := List.mem_singleton.mp hi
    omega

end AeEventLoop

namespace Server

/-! ## The checked server -/

/-- How a checked run ends early. -/
inductive Fault
  /-- An index into `_events` is out of range. -/
  | index
  | halt (h : Halt)
deriving DecidableEq, Repr

/-- A computation without accesses to the table. -/
def unchecked {α : Type} (x : Except Halt α) : Except Fault α := x.mapError .halt

/-- A computation without accesses returns as it is. -/
theorem unchecked_eq_ok {α : Type} {x : Except Halt α} {a : α} :
    unchecked x = .ok a ↔ x = .ok a := by
  cases x <;> simp [unchecked, Except.mapError]

/-- A computation without accesses does not fail at an index. -/
theorem unchecked_ne {α : Type} (x : Except Halt α) : unchecked x ≠ .error .index := by
  cases x with
  | error e => exact fun h => nomatch h
  | ok a => exact fun h => nomatch h

/-- A table function that uses the indexes `is`. -/
def Sys.access {α : Type} (sys : Sys) (is : List ℤ) (x : Except Halt α) : Except Fault α :=
  if sys.loop.InTable is then unchecked x else .error .index

namespace Checked

def addFileEvent (sys : Sys) (fd : ℤ) (mask : Mask) (proc : EventProc) (data : ClientData) :
    Except Fault (ℤ × Sys) :=
  sys.access (sys.loop.addIndexes fd) (sys.addFileEvent fd mask proc data)

def delFileEvent (sys : Sys) (fd : ℤ) (mask : Mask) : Except Fault Sys :=
  sys.access (sys.loop.delIndexes fd mask) (sys.delFileEvent fd mask)

/-- `process_command`. -/
def processCommand (table : List (Bytes × CommandT)) (sys : Sys) (self : ℕ) (c : ClientT) :
    Except Fault (Sys × ClientT) := do
  let name ← unchecked (ArgT.argv c.arg 0)
  match table.lookup name with
  | none => return (sys, c)
  | some cmd =>
    if cmd.arityErr c.arg.length then return (sys, c)
    else
      let (_, sys) ← if cmd.reply then
          addFileEvent sys c.fd aeWritable .writeEvent (.client self)
        else pure (aeOk, sys)
      let io ← unchecked (sys.io c.fd)
      let (io, c') ← unchecked (cmd.proc io c)
      return (sys.putIo c.fd io, c')

/-- `~client_t`. -/
def delete (c : ClientT) (sys : Sys) : Except Fault Sys := do
  if c.attached then
    let sys ← delFileEvent sys c.fd aeReadable
    let sys ← delFileEvent sys c.fd aeWritable
    return sys.close c.fd
  else
    return sys

/-- `write_event_handler`. -/
def writeEventHandler (sys : Sys) (c : ClientT) : Except Fault (Sys × Option ClientT) := do
  let size ← unchecked c.wBuffer.readableSize
  let dataSize := int32 size
  if dataSize = 0 then
    let sys ← delete c sys
    return (sys, none)
  else
    let s ← unchecked (sys.sock c.fd)
    let (s, c) ← unchecked (sendPending s c dataSize)
    let sys := sys.setSock c.fd s
    let size ← unchecked c.wBuffer.readableSize
    if size = 0 then
      if c.attached then
        let sys ← delFileEvent sys c.fd aeWritable
        return (sys, some c)
      else unchecked (.error .nullPointer)
    else
      return (sys, some c)

/-- `read_event_handler`. -/
def readEventHandler (sys : Sys) (self : ℕ) (fd : ℤ) (c : ClientT) :
    Except Fault (Sys × Option ClientT) := do
  let (sys, r) ← unchecked (readPackage sys fd c)
  match r with
  | none =>
    let sys ← delete c sys
    return (sys, none)
  | some c =>
    let (sys, c) ← processCommand sCommandTable sys self c
    return (sys, some c)

/-- `accept_tcp_handler`. -/
def acceptTcpHandler (w : World) : Except Fault World :=
  match w.sys.accepts with
  | [] => .ok w
  | a :: rest =>
    let sys := { w.sys with accepts := rest }
    if (sys.socks a.fd).isSome ∨ (w.heap a.addr).isSome then .ok { w with sys }
    else do
      let sys := { (sys.setSock a.fd a.sock).note (.accepted a.fd a.addr) with
        junk := fun i => sys.junk (i + 2) }
      let c := { ClientT.create (w.sys.junk 0) (w.sys.junk 1) with fd := a.fd, attached := true }
      let (r, sys) ← addFileEvent sys a.fd aeReadable .readEvent (.client a.addr)
      if r = -1 then
        let sys ← delete c sys
        return { w with sys }
      else
        return { sys, heap := Function.update w.heap a.addr (some c) }

def onClient (w : World) (p : ℕ) (h : ClientT → Except Fault (Sys × Option ClientT)) :
    Except Fault World :=
  match w.heap p with
  | none => unchecked (.error .badPointer)
  | some c => do
    let (sys, r) ← h c
    return { sys, heap := Function.update w.heap p r }

/-- A call through a handler pointer. -/
def call (proc : EventProc) (fd : ℤ) (data : Option ClientData) (_mask : Mask) (w : World) :
    Except Fault World :=
  let sys := w.sys.note (.called proc fd data)
  match proc, data with
  | .acceptTcp, some .server => acceptTcpHandler { w with sys }
  | .readEvent, some (.client p) => onClient w p (readEventHandler sys p fd)
  | .writeEvent, some (.client p) => onClient w p (writeEventHandler sys)
  | _, _ => unchecked (.error .badPointer)

/-- `init`. -/
def init (env : World.Env) (maxClientCount : ℕ) (api : Option AeEpollState) (listenFd : ℤ) :
    Except Fault (ℤ × World) := do
  let sys : Sys :=
    { loop := AeEventLoop.create maxClientCount api, files := env.files, junk := env.junk,
      accepts := env.accepts,
      socks := if listenFd = -1 then fun _ => none
        else Function.update (fun _ => none) listenFd (some {}) }
  let (r, sys) ← addFileEvent sys listenFd aeReadable .acceptTcp .server
  return (r, { sys })

/-! ## The checks change nothing else -/

/-- `x` is the computation `y` of the server with checks. -/
abbrev Mirrors {α : Type} (x : Except Fault α) (y : Except Halt α) : Prop := Checks .index .halt x y

/-- The check of the indexes is the one thing an access adds. -/
theorem access_mirrors {α : Type} (sys : Sys) (is : List ℤ) (x : Except Halt α) :
    Mirrors (sys.access is x) x := by
  unfold Sys.access
  split
  · exact .refl x
  · exact Or.inl rfl

/-- The destructor of the client, with its two deletions checked. -/
theorem delete_mirrors (c : ClientT) (sys : Sys) : Mirrors (delete c sys) (c.delete sys) := by
  unfold delete ClientT.delete
  refine .ite ?_ (.ok _)
  exact (access_mirrors _ _ _).bind fun sys₁ => (access_mirrors _ _ _).bind fun sys₂ => .ok _

/-- `process_command`, with the registration for the reply checked. -/
theorem processCommand_mirrors (table : List (Bytes × CommandT)) (sys : Sys) (self : ℕ)
    (c : ClientT) :
    Mirrors (processCommand table sys self c) (Server.processCommand table sys self c) := by
  unfold processCommand Server.processCommand
  refine .bind (.refl _) fun name => ?_
  cases table.lookup name with
  | none => exact .ok _
  | some cmd =>
      refine .ite (.ok _) (.ite ?_ ?_)
      · refine (access_mirrors _ _ _).bind fun x => .bind (.refl _) fun io => ?_
        exact .bind (.refl _) fun y => .ok _
      · refine .bind (.ok _) fun x => .bind (.refl _) fun io => ?_
        exact .bind (.refl _) fun y => .ok _

/-- `write_event_handler`, whose table access is the deletion at its end. -/
theorem writeEventHandler_mirrors (sys : Sys) (c : ClientT) :
    Mirrors (writeEventHandler sys c) (Server.writeEventHandler sys c) := by
  unfold writeEventHandler Server.writeEventHandler
  refine .bind (.refl _) fun size => .ite ?_ ?_
  · exact (delete_mirrors _ _).bind fun sys₁ => .ok _
  · refine .bind (.refl _) fun s => .bind (.refl _) fun x => .bind (.refl _) fun size' => ?_
    refine .ite (.ite ?_ (.refl _)) (.ok _)
    exact (access_mirrors _ _ _).bind fun sys₁ => .ok _

/-- `read_event_handler`, whose accesses are those of the command and of the destructor. -/
theorem readEventHandler_mirrors (sys : Sys) (self : ℕ) (fd : ℤ) (c : ClientT) :
    Mirrors (readEventHandler sys self fd c) (Server.readEventHandler sys self fd c) := by
  unfold readEventHandler Server.readEventHandler
  refine .bind (.refl _) fun x => ?_
  rcases x with ⟨sys₁, _ | c₁⟩
  · exact (delete_mirrors _ _).bind fun sys₂ => .ok _
  · exact (processCommand_mirrors _ _ _ _).bind fun y => .ok _

/-- `accept_tcp_handler`, with the registration of the new connection checked. -/
theorem acceptTcpHandler_mirrors (w : World) : Mirrors (acceptTcpHandler w) w.acceptTcpHandler := by
  unfold acceptTcpHandler World.acceptTcpHandler
  cases w.sys.accepts with
  | nil => exact .ok _
  | cons a rest =>
      refine .ite (.ok _) ((access_mirrors _ _ _).bind fun x => .ite ?_ (.ok _))
      exact (delete_mirrors _ _).bind fun sys₁ => .ok _

/-- A handler given to the client at `p`; without a client neither version runs it. -/
theorem onClient_mirrors (w : World) (p : ℕ) {h : ClientT → Except Fault (Sys × Option ClientT)}
    {h' : ClientT → Except Halt (Sys × Option ClientT)} (hh : ∀ c, Mirrors (h c) (h' c)) :
    Mirrors (onClient w p h) (w.onClient p h') := by
  unfold onClient World.onClient
  cases w.heap p with
  | none => exact .refl _
  | some c => exact (hh c).bind fun x => .ok _

/-- **A checked call** is the call, or ends at an index out of range. -/
theorem call_mirrors (proc : EventProc) (fd : ℤ) (data : Option ClientData) (mask : Mask)
    (w : World) :
    Mirrors (call proc fd data mask w) (World.call proc fd data mask w) := by
  have hbad : Mirrors (unchecked (.error .badPointer) : Except Fault World) (.error .badPointer) :=
    .refl _
  cases proc with
  | acceptTcp =>
      rcases data with _ | _ | p
      · exact hbad
      · exact acceptTcpHandler_mirrors _
      · exact hbad
  | readEvent =>
      rcases data with _ | _ | p
      · exact hbad
      · exact hbad
      · exact onClient_mirrors w p (readEventHandler_mirrors _ p fd)
  | writeEvent =>
      rcases data with _ | _ | p
      · exact hbad
      · exact hbad
      · exact onClient_mirrors w p (writeEventHandler_mirrors _)

/-- `init`, with the registration of the listening socket checked. -/
theorem init_mirrors (env : World.Env) (n : ℕ) (api : Option AeEpollState) (listenFd : ℤ) :
    Mirrors (init env n api listenFd) (World.init env n api listenFd) := by
  unfold init World.init
  exact (access_mirrors _ _ _).bind fun x => .ok _

/-! ## Accesses in range -/

/-- Every fault but an index out of range. -/
def otherFaults : Set Fault := {f | f ≠ .index}

/-- A computation without accesses has no index to be out of range. -/
theorem unchecked_inTable {α : Type} (x : Except Halt α) : FailsOnly otherFaults (unchecked x) := by
  rintro f h rfl
  exact unchecked_ne x h

/-- From descriptor 0 on every index of `add_file_event` is in the table. -/
theorem addFileEvent_inTable (sys : Sys) {fd : ℤ} (h : 0 ≤ fd) (mask : Mask) (proc : EventProc)
    (data : ClientData) : FailsOnly otherFaults (addFileEvent sys fd mask proc data) := by
  unfold addFileEvent Sys.access
  rw [if_pos (AeEventLoop.addIndexes_inTable h)]
  exact unchecked_inTable _

/-- A negative descriptor passes the test for the size, and indexes below the table. -/
theorem addFileEvent_outside {sys : Sys} {fd : ℤ} (h : fd < 0) (hsize : 0 ≤ sys.loop.fdsetSize)
    (mask : Mask) (proc : EventProc) (data : ClientData) :
    addFileEvent sys fd mask proc data = .error .index := by
  unfold addFileEvent Sys.access
  rw [if_neg]
  intro hin
  have hmem : fd ∈ sys.loop.addIndexes fd := by
    rw [AeEventLoop.addIndexes, if_neg (by omega)]
    exact List.mem_singleton_self fd
  have hlow := hin fd hmem
  omega

/-- From descriptor 0 on every index of `del_file_event` is in the table, those of its scan as well.
-/
theorem delFileEvent_inTable (sys : Sys) {fd : ℤ} (h : 0 ≤ fd) (mask : Mask) :
    FailsOnly otherFaults (delFileEvent sys fd mask) := by
  unfold delFileEvent Sys.access
  rw [if_pos (AeEventLoop.delIndexes_inTable h mask)]
  exact unchecked_inTable _

section Client

variable (sys : Sys) {c : ClientT} (h : 0 ≤ c.fd)

include h

/-- The destructor on a client with a descriptor. -/
theorem delete_inTable : FailsOnly otherFaults (delete c sys) := by
  unfold delete
  refine .ite (fun _ => ?_) fun _ => .ok _
  exact (delFileEvent_inTable _ h _).bind fun _ _ => (delFileEvent_inTable _ h _).bind fun _ _ =>
    .ok _

/-- `process_command` on a client with a descriptor, whatever the table of commands. -/
theorem processCommand_inTable (table : List (Bytes × CommandT)) (p : ℕ) :
    FailsOnly otherFaults (processCommand table sys p c) := by
  unfold processCommand
  refine (unchecked_inTable _).bind fun name _ => ?_
  cases table.lookup name with
  | none => exact .ok _
  | some cmd =>
      refine .ite (fun _ => .ok _) fun _ => .ite (fun _ => ?_) fun _ => ?_
      · refine (addFileEvent_inTable _ h _ _ _).bind fun x _ => ?_
        refine (unchecked_inTable _).bind fun io _ => ?_
        exact (unchecked_inTable _).bind fun _ _ => .ok _
      · refine .bind (.ok _) fun x _ => (unchecked_inTable _).bind fun io _ => ?_
        exact (unchecked_inTable _).bind fun _ _ => .ok _

/-- `write_event_handler` on a client with a descriptor. -/
theorem writeEventHandler_inTable : FailsOnly otherFaults (writeEventHandler sys c) := by
  unfold writeEventHandler
  refine (unchecked_inTable _).bind fun size _ => .ite (fun _ => ?_) fun _ => ?_
  · exact (delete_inTable _ h).bind fun _ _ => .ok _
  · refine (unchecked_inTable _).bind fun s _ => (unchecked_inTable _).bind fun x hsend => ?_
    refine (unchecked_inTable _).bind fun size' _ => .ite (fun _ => ?_) fun _ => .ok _
    refine .ite (fun _ => ?_) fun _ => unchecked_inTable _
    -- sending leaves the descriptor, and that is the index of the deletion
    have hfd : x.2.fd = c.fd := (sendPending_frame (unchecked_eq_ok.mp hsend)).2.1
    exact (delFileEvent_inTable _ (hfd ▸ h) _).bind fun _ _ => .ok _

/-- `read_event_handler` on a client with a descriptor. -/
theorem readEventHandler_inTable (p : ℕ) (fd : ℤ) :
    FailsOnly otherFaults (readEventHandler sys p fd c) := by
  unfold readEventHandler
  refine (unchecked_inTable _).bind fun x hread => ?_
  rcases x with ⟨sys₁, _ | c₁⟩
  · exact (delete_inTable _ h).bind fun _ _ => .ok _
  · obtain ⟨s, -, hclient⟩ := readPackage_eq (unchecked_eq_ok.mp hread)
    have hfd : c₁.fd = c.fd := by
      obtain ⟨b, arg, rfl⟩ := hclient c₁ rfl
      rfl
    exact (processCommand_inTable _ (hfd ▸ h) _ _).bind fun _ _ => .ok _

end Client

/-- `accept_tcp_handler` registers the number `accept` returned, which is none below 0. -/
theorem acceptTcpHandler_inTable (w : World) : FailsOnly otherFaults (acceptTcpHandler w) := by
  unfold acceptTcpHandler
  cases w.sys.accepts with
  | nil => exact .ok _
  | cons a rest =>
      have h0 : (0 : ℤ) ≤ a.fd := Int.natCast_nonneg _
      refine .ite (fun _ => .ok _) fun _ => (addFileEvent_inTable _ h0 _ _ _).bind fun x _ => ?_
      exact .ite (fun _ => (delete_inTable _ h0).bind fun _ _ => .ok _) fun _ => .ok _

/-- A handler given to the client at `p` when every client has a descriptor. -/
theorem onClient_inTable {w : World} (h : ∀ p c, w.heap p = some c → 0 ≤ c.fd) (p : ℕ)
    {f : ClientT → Except Fault (Sys × Option ClientT)}
    (hf : ∀ c, 0 ≤ c.fd → FailsOnly otherFaults (f c)) :
    FailsOnly otherFaults (onClient w p f) := by
  unfold onClient
  cases hc : w.heap p with
  | none => exact unchecked_inTable _
  | some c => exact (hf c (h p c hc)).bind fun _ _ => .ok _

/-- **A call** in a world whose clients have descriptors. -/
theorem call_inTable {w : World} (h : ∀ p c, w.heap p = some c → 0 ≤ c.fd) (proc : EventProc)
    (fd : ℤ) (data : Option ClientData) (mask : Mask) :
    FailsOnly otherFaults (call proc fd data mask w) := by
  cases proc with
  | acceptTcp =>
      rcases data with _ | _ | p
      · exact unchecked_inTable _
      · exact acceptTcpHandler_inTable _
      · exact unchecked_inTable _
  | readEvent =>
      rcases data with _ | _ | p
      · exact unchecked_inTable _
      · exact unchecked_inTable _
      · exact onClient_inTable h p fun c hc => readEventHandler_inTable _ hc p fd
  | writeEvent =>
      rcases data with _ | _ | p
      · exact unchecked_inTable _
      · exact unchecked_inTable _
      · exact onClient_inTable h p fun c hc => writeEventHandler_inTable _ hc

end Checked

/-! ## Runs -/

/-- The states of the runs of a server whose `anetTcpServer` returned `listenFd`. -/
inductive Started (env : World.Env) (n : ℕ) (api : Option AeEpollState) (listenFd : ℤ) :
    World → Prop
  | init {r : ℤ} {w : World} (h : World.init env n api listenFd = .ok (r, w)) :
      Started env n api listenFd w
  | poll {w : World} {batch : List EpollEvent} {m : ℕ} {l : AeEventLoop EventProc ClientData}
      (hw : Started env n api listenFd w) (h : w.sys.loop.poll batch = .ok (m, l)) :
      Started env n api listenFd (World.host.withLoop w l)
  | readHalf {w w' : World} {e : AeFiredEvent} {rfired : Bool} (hw : Started env n api listenFd w)
      (h : AeEventLoop.readHalf World.host e w = .ok (rfired, w')) :
      Started env n api listenFd w'
  | writeHalf {w w' : World} {e : AeFiredEvent} {rfired : Bool}
      (hw : Started env n api listenFd w)
      (h : AeEventLoop.writeHalf World.host e rfired w = .ok w') : Started env n api listenFd w'

/-- A client keeps its descriptor for life, and a new one has a descriptor. -/
def World.Numbered (w : World) : Prop := ∀ p c, w.heap p = some c → 0 ≤ c.fd

section Numbered

variable {w w' : World}

/-- The reading handler keeps the descriptor of its client. -/
theorem readEventHandler_fd {sys sys' : Sys} {p : ℕ} {fd : ℤ} {c c' : ClientT}
    (h : readEventHandler sys p fd c = .ok (sys', some c')) : c'.fd = c.fd := by
  unfold readEventHandler at h
  obtain ⟨⟨sys₁, r⟩, hread, h⟩ := bind_eq_ok.mp h
  obtain ⟨s, -, hclient⟩ := readPackage_eq hread
  cases r with
  | none =>
      obtain ⟨sys₂, -, hret⟩ := bind_eq_ok.mp h
      cases hret
  | some c₁ =>
      obtain ⟨b, arg, rfl⟩ := hclient c₁ rfl
      obtain ⟨⟨sys₂, c₂⟩, hcmd, hret⟩ := bind_eq_ok.mp h
      obtain ⟨-, hc⟩ := Prod.mk.inj (Except.ok.inj hret)
      obtain rfl := Option.some.inj hc
      rcases processCommand_cases hcmd with
        ⟨-, rfl⟩ | ⟨name, cmd, sys₃, io, io', -, hlook, -, -, -, hproc, -⟩
      · rfl
      · exact (sCommandTable_frame hlook hproc).1.fd

/-- The writing handler keeps the descriptor of its client. -/
theorem writeEventHandler_fd {sys sys' : Sys} {c c' : ClientT}
    (h : writeEventHandler sys c = .ok (sys', some c')) : c'.fd = c.fd := by
  unfold writeEventHandler at h
  obtain ⟨size, -, h⟩ := bind_eq_ok.mp h
  dsimp only at h
  split at h
  · obtain ⟨sys₁, -, hret⟩ := bind_eq_ok.mp h
    cases hret
  · obtain ⟨s, -, h⟩ := bind_eq_ok.mp h
    obtain ⟨⟨s₁, c₁⟩, hsend, h⟩ := bind_eq_ok.mp h
    obtain ⟨size', -, h⟩ := bind_eq_ok.mp h
    have hfd := (sendPending_frame hsend).2.1
    dsimp only at h
    split at h
    · split at h
      · obtain ⟨sys₂, -, hret⟩ := bind_eq_ok.mp h
        obtain ⟨-, hc⟩ := Prod.mk.inj (Except.ok.inj hret)
        exact Option.some.inj hc ▸ hfd
      · cases h
    · obtain ⟨-, hc⟩ := Prod.mk.inj (Except.ok.inj h)
      exact Option.some.inj hc ▸ hfd

/-- A handler that keeps the descriptor of its client leaves every client with one. -/
theorem World.Numbered.onClient (hw : w.Numbered) {p : ℕ}
    {f : ClientT → Except Halt (Sys × Option ClientT)}
    (hf : ∀ c sys' c', f c = .ok (sys', some c') → c'.fd = c.fd)
    (h : w.onClient p f = .ok w') : w'.Numbered := by
  obtain ⟨c, sys', r, hc, hrun, rfl⟩ := World.onClient_cases h
  intro q d hd
  have hd : Function.update w.heap p r q = some d := hd
  rw [Function.update_apply] at hd
  split at hd
  · rw [hd] at hrun
    rw [hf c sys' d hrun]
    exact hw p c hc
  · exact hw q d hd

/-- A new client has the descriptor that `accept` returned. -/
theorem World.Numbered.accept (hw : w.Numbered) (h : w.acceptTcpHandler = .ok w') :
    w'.Numbered := by
  unfold World.acceptTcpHandler at h
  cases hacc : w.sys.accepts with
  | nil =>
      rw [hacc] at h
      obtain rfl := Except.ok.inj h
      exact hw
  | cons a rest =>
      rw [hacc] at h
      dsimp only at h
      split at h
      · obtain rfl := Except.ok.inj h
        exact hw
      · obtain ⟨⟨r, sys₁⟩, -, h⟩ := bind_eq_ok.mp h
        dsimp only at h
        split at h
        · obtain ⟨sys₂, -, hret⟩ := bind_eq_ok.mp h
          obtain rfl := Except.ok.inj hret
          exact hw
        · obtain rfl := Except.ok.inj h
          intro q d hd
          have hd : Function.update w.heap a.addr (some _) q = some d := hd
          rw [Function.update_apply] at hd
          split at hd
          · obtain rfl := Option.some.inj hd
            exact Int.natCast_nonneg _
          · exact hw q d hd

/-- **One call.** -/
theorem World.Numbered.call (hw : w.Numbered) {proc : EventProc} {fd : ℤ}
    {data : Option ClientData} (mask : Mask) (h : World.call proc fd data mask w = .ok w') :
    w'.Numbered := by
  cases proc with
  | acceptTcp =>
      rcases data with _ | _ | p
      · cases h
      · have hnote : World.Numbered ⟨w.sys.note (.called .acceptTcp fd (some .server)), w.heap⟩ :=
          hw
        exact hnote.accept h
      · cases h
  | readEvent =>
      rcases data with _ | _ | p
      · cases h
      · cases h
      · exact hw.onClient (fun _ _ _ => readEventHandler_fd) h
  | writeEvent =>
      rcases data with _ | _ | p
      · cases h
      · cases h
      · exact hw.onClient (fun _ _ _ => writeEventHandler_fd) h

/-- Whichever procedure the loop calls, every client keeps a descriptor. -/
theorem World.Numbered.invoke (hw : w.Numbered) {proc : Option EventProc} {fd : ℤ}
    {data : Option ClientData} {mask : Mask}
    (h : AeEventLoop.Host.invoke World.host proc fd data mask w = .ok w') : w'.Numbered := by
  cases proc with
  | none => cases h
  | some proc => exact hw.call mask h

end Numbered

/-- **Every run.** -/
theorem Started.numbered {env : World.Env} {n : ℕ} {api : Option AeEpollState} {listenFd : ℤ}
    {w : World} (h : Started env n api listenFd w) : w.Numbered := by
  induction h with
  | init hinit =>
      unfold World.init at hinit
      obtain ⟨x, -, hret⟩ := bind_eq_ok.mp hinit
      obtain ⟨-, rfl⟩ := Prod.mk.inj (Except.ok.inj hret)
      exact fun p c hc => (nomatch hc)
  | poll hw hpoll ih => exact ih
  | readHalf hw hread ih =>
      unfold AeEventLoop.readHalf at hread
      obtain ⟨fe, -, hread⟩ := bind_eq_ok.mp hread
      split at hread
      · obtain ⟨w₁, hcall, hret⟩ := bind_eq_ok.mp hread
        obtain ⟨-, rfl⟩ := Prod.mk.inj (Except.ok.inj hret)
        exact ih.invoke hcall
      · obtain ⟨-, rfl⟩ := Prod.mk.inj (Except.ok.inj hread)
        exact ih
  | writeHalf hw hwrite ih =>
      unfold AeEventLoop.writeHalf at hwrite
      obtain ⟨fe, -, hwrite⟩ := bind_eq_ok.mp hwrite
      split at hwrite
      · exact ih.invoke hwrite
      · obtain rfl := Except.ok.inj hwrite
        exact ih

/-- **The accesses to the event table are in range exactly when `anetTcpServer` succeeds.** For
every result of the socket calls: the checked `init`, and every checked call in every later state,
are the unchecked ones. -/
theorem table_inRange_iff (env : World.Env) (n : ℕ) (api : Option AeEpollState) (listenFd : ℤ) :
    (Checked.init env n api listenFd = unchecked (World.init env n api listenFd) ∧
      ∀ w, Started env n api listenFd w → ∀ proc fd data mask,
        Checked.call proc fd data mask w = unchecked (World.call proc fd data mask w)) ↔
      0 ≤ listenFd := by
  constructor
  · rintro ⟨hinit, -⟩
    by_contra hneg
    have hbad : Checked.init env n api listenFd = .error .index := by
      unfold Checked.init
      dsimp only
      rw [Checked.addFileEvent_outside (show listenFd < 0 by omega), error_bind]
      exact Int.natCast_nonneg n
    exact unchecked_ne _ (hinit.symm.trans hbad)
  · intro h0
    refine ⟨(Checked.init_mirrors env n api listenFd).eq_of_ne ?_, fun w hw proc fd data mask => ?_⟩
    · refine FailsOnly.ne (S := Checked.otherFaults) ?_ fun h => h rfl
      unfold Checked.init
      exact (Checked.addFileEvent_inTable _ h0 _ _ _).bind fun _ _ => .ok _
    · exact (Checked.call_mirrors proc fd data mask w).eq_of_ne
        ((Checked.call_inTable hw.numbered proc fd data mask).ne fun h => h rfl)

/-- The port is in use: `init` passes `-1` on to `add_file_event`, which takes `_events[-1]`. -/
theorem port_in_use_faults :
    Checked.init { files := .empty } 100000 (some (.create 100000 [])) (-1) = .error .index ∧
      ¬(Checked.init { files := .empty } 100000 (some (.create 100000 [])) (-1) =
        unchecked (World.init { files := .empty } 100000 (some (.create 100000 [])) (-1))) := by
  have hfault : Checked.init { files := .empty } 100000 (some (.create 100000 [])) (-1) =
      .error .index := rfl
  exact ⟨hfault, fun h => unchecked_ne _ (h.symm.trans hfault)⟩

end Server

end AsprNet
