import AsprNet.Server.Service

/-! # The life of connections

Clients are deleted inside both handlers and when `accept_tcp_handler` fails to register one, while
the loop goes on with the table entry it holds; `accept` may give the number of a closed descriptor
to the next connection. `Reachable` takes all of this in any order, one half of a fired event at a
time, and `Alive` is what every step keeps.
-/

namespace AsprNet.Server

/-! ## What a handler does to its connection -/

/-- Nothing but the connection `fd` is touched. -/
structure Touches (sys sys' : Sys) (fd : ℤ) : Prop where
  loop : sys.loop.Alters sys'.loop fd
  socks : ∀ fd', fd' ≠ fd → sys'.socks fd' = sys.socks fd'

theorem Touches.trans {sys sys₁ sys₂ : Sys} {fd : ℤ} (h : Touches sys sys₁ fd)
    (h' : Touches sys₁ sys₂ fd) : Touches sys sys₂ fd :=
  ⟨h.loop.trans h'.loop, fun fd' hne => (h'.socks fd' hne).trans (h.socks fd' hne)⟩

/-- The connection `fd` of the client at `p` is registered and open. -/
structure Linked (sys : Sys) (fd : ℤ) (p : ℕ) : Prop where
  registered : ∃ b, Registered sys.loop fd p b
  isOpen : (sys.socks fd).isSome

/-- The connection is still linked, and nothing was closed. -/
structure Kept (sys sys' : Sys) (fd : ℤ) (p : ℕ) : Prop extends
    Touches sys sys' fd, Linked sys' fd p where
  trace : sys'.trace = sys.trace

/-- The connection was closed after it was removed from the table. -/
structure Gone (sys sys' : Sys) (fd : ℤ) : Prop extends Touches sys sys' fd where
  mask : (sys'.loop.entry fd).mask = aeNone
  trace : sys'.trace = sys.trace ++ [.closed fd aeNone]

/-- What is left of the client `c` at `p` after a handler call: the client, still linked, or
nothing. -/
def Outcome (sys sys' : Sys) (p : ℕ) (c : ClientT) : Option ClientT → Prop
  | some c' => Kept sys sys' c.fd p ∧ c'.fd = c.fd ∧ c'.attached = c.attached
  | none => Gone sys sys' c.fd

/-- Either outcome touches the connection alone. -/
theorem Outcome.touches {sys sys' : Sys} {p : ℕ} {c : ClientT} {r : Option ClientT}
    (h : Outcome sys sys' p c r) : Touches sys sys' c.fd := by
  cases r with
  | none => exact Gone.toTouches h
  | some c' => exact h.1.toTouches

theorem Kept.trans {sys sys₁ sys₂ : Sys} {fd : ℤ} {p : ℕ} (h : Kept sys sys₁ fd p)
    (h' : Kept sys₁ sys₂ fd p) : Kept sys sys₂ fd p :=
  ⟨h.toTouches.trans h'.toTouches, h'.toLinked, h'.trace.trans h.trace⟩

/-- A step that keeps the connection, then one that closes it. -/
theorem Gone.of_kept {sys sys₁ sys₂ : Sys} {fd : ℤ} {p : ℕ} (h : Kept sys sys₁ fd p)
    (h' : Gone sys₁ sys₂ fd) : Gone sys sys₂ fd :=
  ⟨h.toTouches.trans h'.toTouches, h'.mask, by rw [h'.trace, h.trace]⟩

/-- A loop with a registered connection alters nothing by standing still. -/
theorem Registered.alters {l : AeEventLoop EventProc ClientData} {fd : ℤ} {p : ℕ} {b : Bool}
    (h : Registered l fd p b) : l.Alters l fd :=
  ⟨h.fits, h.api, rfl, fun _ _ => rfl⟩

namespace Linked

variable {sys sys' : Sys} {fd : ℤ} {p : ℕ}

/-- A note in the trace leaves the connection. -/
theorem note (h : Linked sys fd p) (ev : LifeEvent) : Linked (sys.note ev) fd p :=
  ⟨h.registered, h.isOpen⟩

/-- Writing to the socket of the connection, to files and to memory keeps it. -/
theorem io (h : Linked sys fd p) (s : Sock) (files : Files) (junk : ℕ → ℕ → UInt8) :
    Kept sys { sys.setSock fd s with files, junk } fd p := by
  obtain ⟨b, hreg⟩ := h.registered
  refine ⟨⟨hreg.alters, fun fd' hne => Function.update_of_ne hne _ _⟩, ⟨⟨b, hreg⟩, ?_⟩, rfl⟩
  show (Function.update sys.socks fd (some s) fd).isSome
  rw [Function.update_self]
  rfl

/-- Registering the connection for writing keeps it. -/
theorem add (h : Linked sys fd p) {r : ℤ}
    (hadd : sys.addFileEvent fd aeWritable .writeEvent (.client p) = .ok (r, sys')) :
    Kept sys sys' fd p := by
  obtain ⟨b, hreg⟩ := h.registered
  obtain ⟨s, hs⟩ := hreg.api
  obtain ⟨l, hl, rfl⟩ := addFileEvent_eq hadd
  obtain ⟨r', l', hl', hreg'⟩ := hreg.addWritable
  obtain ⟨-, rfl⟩ := Prod.mk.inj (Except.ok.inj (hl.symm.trans hl'))
  exact ⟨⟨hreg.fits.add hreg.lo hs hl, fun _ _ => rfl⟩, ⟨⟨true, hreg'⟩, h.isOpen⟩, rfl⟩

/-- Removing the writing half keeps the connection, which is still registered for reading. -/
theorem del (h : Linked sys fd p) (hdel : sys.delFileEvent fd aeWritable = .ok sys') :
    Kept sys sys' fd p := by
  obtain ⟨b, hreg⟩ := h.registered
  obtain ⟨s, hs⟩ := hreg.api
  obtain ⟨l, hl, rfl⟩ := delFileEvent_eq hdel
  obtain ⟨l', hl', hreg'⟩ := hreg.delWritable
  obtain rfl := Except.ok.inj (hl.symm.trans hl')
  exact ⟨⟨(hreg.fits.del hreg.lo hs hl).1, fun _ _ => rfl⟩, ⟨⟨false, hreg'⟩, h.isOpen⟩, rfl⟩

end Linked

/-- **`~client_t`** takes both flags out of the table before it closes, whether or not the
descriptor is in the table. -/
theorem delete_gone {sys sys' : Sys} {c : ClientT} (hatt : c.attached = true) (h0 : 0 ≤ c.fd)
    (hfits : sys.loop.Fits) (hapi : ∃ s, sys.loop.apiData = some s)
    (hmask : (sys.loop.entry c.fd).mask.Within aeBoth) (h : c.delete sys = .ok sys') :
    Gone sys sys' c.fd := by
  simp only [ClientT.delete, hatt, if_true, bind_eq_ok] at h
  obtain ⟨sys₁, h₁, sys₂, h₂, hret⟩ := h
  obtain rfl := Except.ok.inj hret
  obtain ⟨l₁, hl₁, rfl⟩ := delFileEvent_eq h₁
  obtain ⟨l₂, hl₂, rfl⟩ := delFileEvent_eq h₂
  obtain ⟨s, hs⟩ := hapi
  obtain ⟨halt₁, hmask₁⟩ := hfits.del h0 hs hl₁
  obtain ⟨s₁, hs₁⟩ := halt₁.api
  obtain ⟨halt₂, hmask₂⟩ := halt₁.fits.del h0 hs₁ hl₂
  have hnone : (l₂.entry c.fd).mask = aeNone := by
    have hand : ∀ m : Mask, m.Within aeBoth → m &&& ~~~aeReadable &&& ~~~aeWritable = aeNone := by
      intro m hm
      rw [BitVec.and_assoc]
      exact hm
    rw [hmask₂, hmask₁, hand _ hmask]
  refine ⟨⟨halt₁.trans halt₂, fun fd' hne => Function.update_of_ne hne _ _⟩, hnone, ?_⟩
  show sys.trace ++ [LifeEvent.closed c.fd (l₂.entry c.fd).mask] = _
  rw [hnone]

/-- The destructor removes the connection from the table, and then closes it. -/
theorem Linked.delete {sys sys' : Sys} {c : ClientT} {p : ℕ} (h : Linked sys c.fd p)
    (hatt : c.attached = true) (hdel : c.delete sys = .ok sys') : Gone sys sys' c.fd := by
  obtain ⟨b, hreg⟩ := h.registered
  refine delete_gone hatt hreg.lo hreg.fits hreg.api ?_ hdel
  rw [hreg.mask]
  cases b <;> decide

/-! ## The handlers -/

/-- Reading a package changes the stream, the receive buffer and the arguments. -/
theorem readPackage_eq {sys sys' : Sys} {fd : ℤ} {c : ClientT} {r : Option ClientT}
    (h : readPackage sys fd c = .ok (sys', r)) :
    ∃ s, sys' = sys.setSock fd s ∧
      ∀ c', r = some c' → ∃ b arg, c' = { c with rBuffer := b, arg } := by
  simp only [readPackage, bind_eq_ok] at h
  obtain ⟨s, -, ⟨s₁, r₁⟩, hrecv, h⟩ := h
  cases r₁ with
  | none =>
      obtain ⟨rfl, rfl⟩ := Prod.mk.inj (Except.ok.inj h)
      exact ⟨s₁, rfl, fun c' hc' => by cases hc'⟩
  | some c₁ =>
      have hc₁ : ∃ b, c₁ = { c with rBuffer := b } := by
        simp only [receive, bind_eq_ok] at hrecv
        obtain ⟨⟨got, length, s₂⟩, -, hrecv⟩ := hrecv
        split at hrecv
        · obtain ⟨-, hnone⟩ := Prod.mk.inj (Except.ok.inj hrecv)
          cases hnone
        · simp only [receivePayload, bind_eq_ok] at hrecv
          obtain ⟨⟨got', s₃⟩, -, hrecv⟩ := hrecv
          rcases got' with _ | _ | ⟨x, xs⟩
          · obtain ⟨-, hsome⟩ := Prod.mk.inj (Except.ok.inj hrecv)
            exact ⟨_, (Option.some.inj hsome).symm⟩
          · obtain ⟨-, hnone⟩ := Prod.mk.inj (Except.ok.inj hrecv)
            cases hnone
          · simp only [bind_eq_ok] at hrecv
            obtain ⟨_, _, _, _, hret⟩ := hrecv
            obtain ⟨-, hsome⟩ := Prod.mk.inj (Except.ok.inj hret)
            exact ⟨_, (Option.some.inj hsome).symm⟩
      obtain ⟨b, rfl⟩ := hc₁
      simp only [processInputBuffer, bind_eq_ok] at h
      obtain ⟨c₂, ⟨str, -, hc₂⟩, hret⟩ := h
      obtain rfl := Except.ok.inj hc₂
      obtain ⟨rfl, rfl⟩ := Prod.mk.inj (Except.ok.inj hret)
      exact ⟨s₁, rfl, fun c' hc' => ⟨b, _, (Option.some.inj hc').symm⟩⟩

/-- Reading a package keeps the connection, whatever arrives. -/
theorem readPackage_linked {sys sys' : Sys} {c : ClientT} {p : ℕ} {r : Option ClientT}
    (hlink : Linked sys c.fd p) (h : readPackage sys c.fd c = .ok (sys', r)) :
    Kept sys sys' c.fd p ∧ ∀ c', r = some c' → c'.fd = c.fd ∧ c'.attached = c.attached := by
  obtain ⟨s, rfl, hclient⟩ := readPackage_eq h
  refine ⟨hlink.io s sys.files sys.junk, fun c' hc' => ?_⟩
  obtain ⟨b, arg, rfl⟩ := hclient c' hc'
  exact ⟨rfl, rfl⟩

/-- `process_command` keeps the connection. -/
theorem processCommand_linked {sys sys' : Sys} {c c' : ClientT} {p : ℕ}
    (hlink : Linked sys c.fd p) (h : processCommand sCommandTable sys p c = .ok (sys', c')) :
    Kept sys sys' c.fd p ∧ c'.fd = c.fd ∧ c'.attached = c.attached := by
  have hsame : Kept sys sys c.fd p := by
    obtain ⟨b, hreg⟩ := hlink.registered
    exact ⟨⟨hreg.alters, fun _ _ => rfl⟩, hlink, rfl⟩
  rcases processCommand_cases h with
    ⟨rfl, rfl⟩ | ⟨name, cmd, sys₁, io, io', -, hlook, -, hreg, -, hproc, rfl⟩
  · exact ⟨hsame, rfl, rfl⟩
  · obtain ⟨hframe, -⟩ := sCommandTable_frame hlook hproc
    have hadd : Kept sys sys₁ c.fd p := by
      rcases hreg with ⟨-, rfl⟩ | ⟨-, r, hadd⟩
      · exact hsame
      · exact hlink.add hadd
    exact ⟨hadd.trans (hadd.toLinked.io io'.sock io'.files io'.junk), hframe.fd, hframe.attached⟩

/-- **`read_event_handler`** keeps its connection or deletes the client. -/
theorem readEventHandler_outcome {sys sys' : Sys} {c : ClientT} {p : ℕ} {r : Option ClientT}
    (hlink : Linked sys c.fd p) (hatt : c.attached = true)
    (h : readEventHandler sys p c.fd c = .ok (sys', r)) : Outcome sys sys' p c r := by
  simp only [readEventHandler, bind_eq_ok] at h
  obtain ⟨⟨sys₁, r₁⟩, hread, h⟩ := h
  obtain ⟨hkept, hclient⟩ := readPackage_linked hlink hread
  cases r₁ with
  | none =>
      simp only [bind_eq_ok] at h
      obtain ⟨sys₂, hdel, hret⟩ := h
      obtain ⟨rfl, rfl⟩ := Prod.mk.inj (Except.ok.inj hret)
      exact (hkept.toLinked.delete hatt hdel).of_kept hkept
  | some c₁ =>
      obtain ⟨hfd, hatt₁⟩ := hclient c₁ rfl
      simp only [bind_eq_ok] at h
      obtain ⟨⟨sys₂, c₂⟩, hcmd, hret⟩ := h
      obtain ⟨rfl, rfl⟩ := Prod.mk.inj (Except.ok.inj hret)
      have hlink₁ := hkept.toLinked
      rw [← hfd] at hlink₁
      obtain ⟨hkept₂, hfd₂, hatt₂⟩ := processCommand_linked hlink₁ hcmd
      rw [hfd] at hkept₂ hfd₂
      exact ⟨hkept.trans hkept₂, hfd₂, hatt₂.trans hatt₁⟩

/-- **`write_event_handler`** keeps its connection or deletes the client. -/
theorem writeEventHandler_outcome {sys sys' : Sys} {c : ClientT} {p : ℕ} {r : Option ClientT}
    (hlink : Linked sys c.fd p) (hatt : c.attached = true)
    (h : writeEventHandler sys c = .ok (sys', r)) : Outcome sys sys' p c r := by
  rw [writeEventHandler, bind_eq_ok] at h
  obtain ⟨size, -, h⟩ := h
  dsimp only at h
  split at h
  · simp only [bind_eq_ok] at h
    obtain ⟨sys₁, hdel, hret⟩ := h
    obtain ⟨rfl, rfl⟩ := Prod.mk.inj (Except.ok.inj hret)
    exact hlink.delete hatt hdel
  · simp only [bind_eq_ok] at h
    obtain ⟨s, -, ⟨s₁, c₁⟩, hsend, size', -, h⟩ := h
    obtain ⟨-, hfd, hatt₁, -, -⟩ := sendPending_frame hsend
    dsimp only at h
    rw [hfd] at h
    have hkept : Kept sys (sys.setSock c.fd s₁) c.fd p := hlink.io s₁ sys.files sys.junk
    split at h
    · rw [if_pos (hatt₁.trans hatt), bind_eq_ok] at h
      obtain ⟨sys₂, hdel, hret⟩ := h
      obtain ⟨rfl, rfl⟩ := Prod.mk.inj (Except.ok.inj hret)
      exact ⟨hkept.trans (hkept.toLinked.del hdel), hfd, hatt₁⟩
    · obtain ⟨rfl, rfl⟩ := Prod.mk.inj (Except.ok.inj h)
      exact ⟨hkept, hfd, hatt₁⟩

/-! ## Open connections -/

/-- The event may happen while the clients `conn` own the open connections; what they own after it.
A handler is only called with the owner of its descriptor, and only what is open and out of the
table is closed. -/
def LifeEvent.next (conn : ℤ → Option ℕ) : LifeEvent → Option (ℤ → Option ℕ)
  | .accepted fd p => if conn fd = none then some (Function.update conn fd (some p)) else none
  | .called .acceptTcp _ data => if data = some .server then some conn else none
  | .called _ fd (some (.client p)) => if conn fd = some p then some conn else none
  | .called _ _ _ => none
  | .closed fd mask =>
    if (conn fd).isSome ∧ mask = aeNone then some (Function.update conn fd none) else none

/-- The owners of the open connections after all the events of a trace, if all of them may
happen. -/
def openAfter (trace : List LifeEvent) : Option (ℤ → Option ℕ) :=
  trace.foldlM LifeEvent.next fun _ => none

/-- The owners after one event more. -/
theorem openAfter_snoc {trace : List LifeEvent} {ev : LifeEvent} {conn conn' : ℤ → Option ℕ}
    (h : openAfter trace = some conn) (hev : ev.next conn = some conn') :
    openAfter (trace ++ [ev]) = some conn' := by
  rw [openAfter] at h ⊢
  rw [List.foldlM_append, h]
  simp [hev]

/-- The table, the open descriptors, the live clients and the trace agree on the owners `conn` of
the open connections. -/
structure Alive (w : World) (listenFd : ℤ) (conn : ℤ → Option ℕ) : Prop where
  fits : w.sys.loop.Fits
  api : ∃ s, w.sys.loop.apiData = some s
  listening : w.sys.loop.entry listenFd =
    { mask := aeReadable, rProc := some .acceptTcp, clientData := some .server }
  isOpen : (w.sys.socks listenFd).isSome
  listed : ∀ fd, fd ≠ listenFd → (w.sys.loop.entry fd).mask ≠ aeNone → ∃ p, conn fd = some p
  linked : ∀ fd p, conn fd = some p → fd ≠ listenFd ∧ Linked w.sys fd p ∧
    ∃ c, w.heap p = some c ∧ c.fd = fd ∧ c.attached = true
  owned : ∀ p c, w.heap p = some c → conn c.fd = some p
  trace : openAfter w.sys.trace = some conn

/-- A connection does not notice what is done to another. -/
theorem Linked.elsewhere {sys sys' : Sys} {fd fd' : ℤ} {p : ℕ} (h : Linked sys fd' p)
    (ht : Touches sys sys' fd) (hne : fd' ≠ fd) : Linked sys' fd' p := by
  obtain ⟨b, hreg⟩ := h.registered
  have hentry := ht.loop.others fd' hne
  refine ⟨⟨b, ⟨ht.loop.fits, hreg.lo, ?_, ht.loop.api, ?_, ?_, ?_, ?_⟩⟩, ?_⟩
  · rw [ht.loop.size]
    exact hreg.hi
  · rw [hentry]
    exact hreg.mask
  · rw [hentry]
    exact hreg.rProc
  · rw [hentry]
    exact hreg.wProc
  · rw [hentry]
    exact hreg.data
  · rw [ht.socks fd' hne]
    exact h.isOpen

namespace Alive

variable {w : World} {listenFd fd : ℤ} {conn : ℤ → Option ℕ} {p : ℕ} {sys' : Sys}

/-- What touches no connection keeps the agreement. -/
theorem keep (h : Alive w listenFd conn) (ht : ∀ fd, Touches w.sys sys' fd)
    (htrace : openAfter sys'.trace = some conn) : Alive ⟨sys', w.heap⟩ listenFd conn := by
  have hentry : ∀ fd, sys'.loop.entry fd = w.sys.loop.entry fd := fun fd =>
    (ht (fd + 1)).loop.others fd (by omega)
  refine ⟨(ht 0).loop.fits, (ht 0).loop.api, (hentry _).trans h.listening, ?_, fun fd hne hm => ?_,
    fun fd p hp => ?_, h.owned, htrace⟩
  · rw [(ht (listenFd + 1)).socks listenFd (by omega)]
    exact h.isOpen
  · rw [hentry] at hm
    exact h.listed fd hne hm
  · obtain ⟨hne, hlink, hc⟩ := h.linked fd p hp
    exact ⟨hne, hlink.elsewhere (ht (fd + 1)) (by omega), hc⟩

/-- **One connection changes**: it is linked to the client at `p`, or out of the table without
one. -/
theorem change (h : Alive w listenFd conn) (hne : fd ≠ listenFd)
    (hpair : ∀ fd' q, conn fd' = some q → (fd' = fd ↔ q = p)) (ht : Touches w.sys sys' fd)
    {r : Option ClientT}
    (hsome : ∀ c, r = some c → Linked sys' fd p ∧ c.fd = fd ∧ c.attached = true)
    (hnone : r = none → (sys'.loop.entry fd).mask = aeNone)
    (htrace : openAfter sys'.trace = some (Function.update conn fd (r.map fun _ => p))) :
    Alive ⟨sys', Function.update w.heap p r⟩ listenFd
      (Function.update conn fd (r.map fun _ => p)) := by
  refine ⟨ht.loop.fits, ht.loop.api, (ht.loop.others _ hne.symm).trans h.listening, ?_,
    fun fd' hne' hm => ?_, fun fd' q hq => ?_, fun q c hq => ?_, htrace⟩
  · rw [ht.socks _ hne.symm]
    exact h.isOpen
  · rcases eq_or_ne fd' fd with rfl | hfd
    · cases r with
      | none => exact absurd (hnone rfl) hm
      | some c => exact ⟨p, Function.update_self _ _ _⟩
    · rw [Function.update_of_ne hfd]
      rw [ht.loop.others fd' hfd] at hm
      exact h.listed fd' hne' hm
  · rcases eq_or_ne fd' fd with rfl | hfd
    · rw [Function.update_self] at hq
      obtain ⟨c, rfl, rfl⟩ := Option.map_eq_some_iff.mp hq
      obtain ⟨hlink, hcfd, hatt⟩ := hsome c rfl
      exact ⟨hne, hlink, c, Function.update_self _ _ _, hcfd, hatt⟩
    · rw [Function.update_of_ne hfd] at hq
      obtain ⟨hlisten, hlink, c, hc, hcfd, hatt⟩ := h.linked fd' q hq
      have hqp : q ≠ p := fun heq => hfd ((hpair fd' q hq).mpr heq)
      exact ⟨hlisten, hlink.elsewhere ht hfd, c, (Function.update_of_ne hqp _ _).trans hc, hcfd,
        hatt⟩
  · have hq : Function.update w.heap p r q = some c := hq
    rcases eq_or_ne q p with rfl | hqp
    · rw [Function.update_self] at hq
      obtain ⟨-, hcfd, -⟩ := hsome c hq
      rw [hcfd, Function.update_self, hq]
      rfl
    · rw [Function.update_of_ne hqp] at hq
      have hconn := h.owned q c hq
      have hfd : c.fd ≠ fd := fun heq => hqp ((hpair c.fd q hconn).mp heq)
      rw [Function.update_of_ne hfd]
      exact hconn

/-- The owner of a connection owns no other. -/
theorem pair (h : Alive w listenFd conn) (hp : conn fd = some p) (fd' : ℤ) (q : ℕ)
    (hq : conn fd' = some q) : fd' = fd ↔ q = p := by
  constructor
  · rintro rfl
    exact Option.some.inj (hq.symm.trans hp)
  · rintro rfl
    obtain ⟨-, -, c, hc, hcfd, -⟩ := h.linked fd q hp
    obtain ⟨-, -, c', hc', hcfd', -⟩ := h.linked fd' q hq
    obtain rfl := Option.some.inj (hc.symm.trans hc')
    exact hcfd'.symm.trans hcfd

/-- What a handler leaves of its connection keeps the agreement. -/
theorem outcome (h : Alive w listenFd conn) {c : ClientT} (hc : w.heap p = some c)
    {r : Option ClientT} (hout : Outcome w.sys sys' p c r) :
    ∃ conn', Alive ⟨sys', Function.update w.heap p r⟩ listenFd conn' := by
  have hp := h.owned p c hc
  obtain ⟨hne, -, c', hc', -, hatt⟩ := h.linked _ _ hp
  obtain rfl := Option.some.inj (hc.symm.trans hc')
  cases r with
  | some c₁ =>
      obtain ⟨hkept, hfd, hatt₁⟩ := hout
      refine ⟨_, h.change hne (h.pair hp) hkept.toTouches (fun c₂ hc₂ => ?_) (by simp) ?_⟩
      · obtain rfl := Option.some.inj hc₂
        exact ⟨hkept.toLinked, hfd, hatt₁.trans hatt⟩
      · rw [hkept.trace, h.trace, Option.map_some, ← hp, Function.update_eq_self]
  | none =>
      have hgone : Gone w.sys sys' c.fd := hout
      refine ⟨_, h.change hne (h.pair hp) hgone.toTouches (by simp) (fun _ => hgone.mask) ?_⟩
      rw [hgone.trace]
      exact openAfter_snoc h.trace (by simp [LifeEvent.next, hp])

/-! ## Calls -/

/-- The listening descriptor is registered for reading only. -/
theorem not_writable (h : Alive w listenFd conn) :
    (w.sys.loop.entry listenFd).mask.has aeWritable = false := by
  rw [h.listening]
  decide

/-- A connection in the table is registered with its handlers and its owner. -/
theorem registered (h : Alive w listenFd conn) (hne : fd ≠ listenFd)
    (hm : (w.sys.loop.entry fd).mask ≠ aeNone) :
    ∃ p c b, w.heap p = some c ∧ c.fd = fd ∧ Registered w.sys.loop fd p b := by
  obtain ⟨p, hp⟩ := h.listed fd hne hm
  obtain ⟨-, hlink, c, hc, hcfd, -⟩ := h.linked fd p hp
  obtain ⟨b, hreg⟩ := hlink.registered
  exact ⟨p, c, b, hc, hcfd, hreg⟩

/-- Noting a call that may happen keeps the agreement. -/
theorem note (h : Alive w listenFd conn) {ev : LifeEvent} (hev : ev.next conn = some conn) :
    Alive ⟨w.sys.note ev, w.heap⟩ listenFd conn :=
  h.keep (fun _ => ⟨⟨h.fits, h.api, rfl, fun _ _ => rfl⟩, fun _ _ => rfl⟩)
    (openAfter_snoc h.trace hev)

end Alive

/-- **The kernel reuses what nobody owns**: a closed descriptor is neither open nor in the table. -/
theorem Alive.unused {w : World} {listenFd fd : ℤ} {conn : ℤ → Option ℕ} {p : ℕ}
    (h : Alive w listenFd conn) (hsock : ¬(w.sys.socks fd).isSome) (hheap : w.heap p = none) :
    fd ≠ listenFd ∧ conn fd = none ∧ (∀ fd' q, conn fd' = some q → (fd' = fd ↔ q = p)) ∧
      (w.sys.loop.entry fd).mask = aeNone := by
  have hne : fd ≠ listenFd := by
    intro heq
    exact hsock (heq ▸ h.isOpen)
  have hconn : conn fd = none := by
    by_contra hsome
    obtain ⟨q, hq⟩ := Option.ne_none_iff_exists'.mp hsome
    exact hsock (h.linked fd q hq).2.1.isOpen
  refine ⟨hne, hconn, fun fd' q hq => ?_, ?_⟩
  · obtain ⟨-, -, c, hc, -⟩ := h.linked fd' q hq
    constructor
    · rintro rfl
      exact absurd hq (by simp [hconn])
    · rintro rfl
      exact absurd hc (by simp [hheap])
  · by_contra hreg
    obtain ⟨q, hq⟩ := h.listed fd hne hreg
    exact absurd hq (by simp [hconn])

/-- `accept_tcp_handler` registers the new connection, unless there is no room for it. -/
theorem register_readable {l l' : AeEventLoop EventProc ClientData} {fd : ℤ} {p : ℕ} {r : ℤ}
    (hfits : l.Fits) (hapi : ∃ s, l.apiData = some s) (h0 : 0 ≤ fd)
    (hm : (l.entry fd).mask = aeNone)
    (h : l.addFileEvent fd aeReadable .readEvent (.client p) = .ok (r, l')) :
    (r = -1 ∧ (l'.entry fd).mask = aeNone) ∨ (r ≠ -1 ∧ Registered l' fd p false) := by
  obtain ⟨s, hs⟩ := hapi
  have hfits' := (hfits.add h0 hs h).fits
  rcases lt_or_ge fd l.fdsetSize with hlt | hge
  · rw [AeEventLoop.addFileEvent_of_lt hfits.sized h0 hlt hs] at h
    split_ifs at h
    · obtain ⟨rfl, rfl⟩ := Prod.mk.inj (Except.ok.inj h)
      exact Or.inl ⟨rfl, hm⟩
    · obtain ⟨rfl, rfl⟩ := Prod.mk.inj (Except.ok.inj h)
      have hentry := AeEventLoop.entry_setEvent hfits.sized h0 hlt
        (⟨(l.entry fd).mask ||| aeReadable, some .readEvent, (l.entry fd).wProc,
          some (.client p)⟩ : AeFileEvent EventProc ClientData) fd
      rw [if_pos rfl] at hentry
      refine Or.inr ⟨by decide, ⟨hfits', h0, hlt, ⟨_, rfl⟩, ?_, ?_, by simp, ?_⟩⟩
      · refine (congrArg AeFileEvent.mask hentry).trans ?_
        rw [hm]
        rfl
      · exact congrArg AeFileEvent.rProc hentry
      · exact congrArg AeFileEvent.clientData hentry
  · rw [AeEventLoop.addFileEvent_of_le hge] at h
    obtain ⟨rfl, rfl⟩ := Prod.mk.inj (Except.ok.inj h)
    exact Or.inl ⟨rfl, hm⟩

/-- **What `accept_tcp_handler` can do**: nothing to the connections; or open a connection that
nobody owns and give it to a new client; or close it again, when it cannot be registered. -/
theorem Alive.accept_cases {w w' : World} {listenFd : ℤ} {conn : ℤ → Option ℕ}
    (h : Alive w listenFd conn) (hrun : w.acceptTcpHandler = .ok w') :
    (w'.heap = w.heap ∧ (∀ fd, Touches w.sys w'.sys fd) ∧ w'.sys.trace = w.sys.trace) ∨
      ∃ fd p, fd ≠ listenFd ∧ conn fd = none ∧ w.heap p = none ∧
        (∀ fd' q, conn fd' = some q → (fd' = fd ↔ q = p)) ∧ Touches w.sys w'.sys fd ∧
        ((w'.heap = w.heap ∧ (w'.sys.loop.entry fd).mask = aeNone ∧
            w'.sys.trace = w.sys.trace ++ [.accepted fd p] ++ [.closed fd aeNone]) ∨
          ∃ rJunk wJunk,
            w'.heap = Function.update w.heap p
              (some { ClientT.create rJunk wJunk with fd, attached := true }) ∧
            Registered w'.sys.loop fd p false ∧ (w'.sys.socks fd).isSome ∧
            w'.sys.trace = w.sys.trace ++ [.accepted fd p]) := by
  rw [World.acceptTcpHandler] at hrun
  split at hrun
  · obtain rfl := Except.ok.inj hrun
    exact Or.inl ⟨rfl, fun _ => ⟨⟨h.fits, h.api, rfl, fun _ _ => rfl⟩, fun _ _ => rfl⟩, rfl⟩
  · rename_i a rest _
    dsimp only at hrun
    split_ifs at hrun with hfree
    · obtain rfl := Except.ok.inj hrun
      exact Or.inl ⟨rfl, fun _ => ⟨⟨h.fits, h.api, rfl, fun _ _ => rfl⟩, fun _ _ => rfl⟩, rfl⟩
    · obtain ⟨hsock, hheap⟩ := not_or.mp hfree
      have hheap : w.heap a.addr = none := by simpa using hheap
      obtain ⟨hne, hconn, hpair, hmask⟩ := h.unused hsock hheap
      rw [bind_eq_ok] at hrun
      obtain ⟨⟨r, sys₁⟩, hadd, hrun⟩ := hrun
      obtain ⟨l, hl, rfl⟩ := addFileEvent_eq hadd
      have h0 : (0 : ℤ) ≤ a.fd := Int.natCast_nonneg _
      obtain ⟨s, hs⟩ := h.api
      have halt := h.fits.add h0 hs hl
      have hsocks : ∀ fd' : ℤ, fd' ≠ a.fd →
          Function.update w.sys.socks a.fd (some a.sock) fd' = w.sys.socks fd' :=
        fun fd' hne' => Function.update_of_ne hne' _ _
      refine Or.inr ⟨a.fd, a.addr, hne, hconn, hheap, hpair, ?_⟩
      dsimp only at hrun
      rcases register_readable h.fits ⟨s, hs⟩ h0 hmask hl with ⟨hr, hnone⟩ | ⟨hr, hreg⟩
      · -- no room in the table, or the kernel refused: the new client is deleted
        rw [if_pos hr, bind_eq_ok] at hrun
        obtain ⟨sys₂, hdel, hret⟩ := hrun
        obtain rfl := Except.ok.inj hret
        have hgone := delete_gone rfl h0 halt.fits halt.api
          (show Mask.Within (l.entry a.fd).mask aeBoth by rw [hnone]; decide) hdel
        exact ⟨Touches.trans ⟨halt, hsocks⟩ hgone.toTouches,
          Or.inl ⟨rfl, hgone.mask, hgone.trace⟩⟩
      · rw [if_neg hr] at hrun
        obtain rfl := Except.ok.inj hrun
        refine ⟨⟨halt, hsocks⟩, Or.inr ⟨_, _, rfl, hreg, ?_, rfl⟩⟩
        show (Function.update w.sys.socks a.fd (some a.sock) a.fd).isSome
        rw [Function.update_self]
        rfl

/-- **`accept_tcp_handler`** gives the new descriptor to a new client, or closes it again. -/
theorem Alive.accept {w w' : World} {listenFd : ℤ} {conn : ℤ → Option ℕ}
    (h : Alive w listenFd conn) (hrun : w.acceptTcpHandler = .ok w') :
    ∃ conn', Alive w' listenFd conn' := by
  obtain ⟨sys', heap'⟩ := w'
  rcases h.accept_cases hrun with
    ⟨rfl, ht, htr⟩ | ⟨fd, p, hne, hconn, hheap, hpair, ht, hcase⟩
  · exact ⟨conn, h.keep ht (htr.symm ▸ h.trace)⟩
  · have hnext : LifeEvent.next conn (.accepted fd p) =
        some (Function.update conn fd (some p)) := if_pos hconn
    have htrace := openAfter_snoc h.trace hnext
    rcases hcase with ⟨rfl, hmask, htr⟩ | ⟨rJunk, wJunk, rfl, hreg, hsock, htr⟩
    · have hchange := h.change (r := none) hne hpair ht (by simp) (fun _ => hmask) (by
        rw [htr]
        refine openAfter_snoc htrace ?_
        simp [LifeEvent.next])
      rw [← hheap, Function.update_eq_self] at hchange
      exact ⟨_, hchange⟩
    · refine ⟨_, h.change hne hpair ht (fun c hc => ?_) (by simp) (htr.symm ▸ htrace)⟩
      obtain rfl := Option.some.inj hc
      exact ⟨⟨⟨false, hreg⟩, hsock⟩, rfl, rfl⟩

/-! ## Runs -/

/-- A call of a handler finds the client at `p`, and leaves there what the handler leaves. -/
theorem World.onClient_cases {w w' : World} {p : ℕ}
    {handler : ClientT → Except Halt (Sys × Option ClientT)}
    (h : w.onClient p handler = .ok w') :
    ∃ c sys' r, w.heap p = some c ∧ handler c = .ok (sys', r) ∧
      w' = ⟨sys', Function.update w.heap p r⟩ := by
  unfold World.onClient at h
  cases hc : w.heap p with
  | none =>
      rw [hc] at h
      cases h
  | some c =>
      rw [hc] at h
      obtain ⟨⟨sys', r⟩, hhandler, hret⟩ := bind_eq_ok.mp h
      exact ⟨c, sys', r, rfl, hhandler, (Except.ok.inj hret).symm⟩

section Halves

variable {w w' : World} {listenFd fd : ℤ} {conn : ℤ → Option ℕ}

/-- A descriptor in the table, other than the listening one, is the connection of a live client. -/
theorem Alive.owner (h : Alive w listenFd conn) (hne : fd ≠ listenFd)
    (hm : (w.sys.loop.entry fd).mask ≠ aeNone) :
    ∃ p c b, w.heap p = some c ∧ c.fd = fd ∧ conn fd = some p ∧ Registered w.sys.loop fd p b ∧
      Linked w.sys c.fd p ∧ c.attached = true := by
  obtain ⟨p, c, b, hc, rfl, hreg⟩ := h.registered hne hm
  have hp := h.owned p c hc
  obtain ⟨-, hlink, c', hc', -, hatt⟩ := h.linked _ p hp
  obtain rfl := Option.some.inj (hc.symm.trans hc')
  exact ⟨p, c, b, hc, rfl, hp, hreg, hlink, hatt⟩

/-- **What the read half of an entry can do**: nothing, or call `accept_tcp_handler`, or call
`read_event_handler` for the live client the entry belongs to. -/
theorem Alive.readHalf_cases (halive : Alive w listenFd conn) {e : AeFiredEvent} {rfired : Bool}
    (hread : AeEventLoop.readHalf World.host e w = .ok (rfired, w')) :
    (rfired = false ∧ w' = w) ∨
      (rfired = true ∧ e.fd = listenFd ∧
        World.acceptTcpHandler ⟨w.sys.note (.called .acceptTcp e.fd (some .server)), w.heap⟩ =
          .ok w') ∨
      (rfired = true ∧ ∃ p c b sys' r, w.heap p = some c ∧ c.fd = e.fd ∧
        Registered w.sys.loop c.fd p b ∧ Linked w.sys c.fd p ∧ c.attached = true ∧
        readEventHandler (w.sys.note (.called .readEvent c.fd (some (.client p)))) p c.fd c =
          .ok (sys', r) ∧
        w' = ⟨sys', Function.update w.heap p r⟩) := by
  rw [AeEventLoop.readHalf, bind_eq_ok] at hread
  obtain ⟨fe, hfe, hread⟩ := hread
  obtain rfl := AeEventLoop.event_eq_ok hfe
  split at hread
  · rename_i hm
    obtain ⟨w₁, hcall, hret⟩ := bind_eq_ok.mp hread
    obtain ⟨rfl, rfl⟩ := Prod.mk.inj (Except.ok.inj hret)
    rw [show World.host.loop w = w.sys.loop from rfl] at hcall
    rcases eq_or_ne e.fd listenFd with heq | hne
    · have hentry := halive.listening
      rw [← heq] at hentry
      rw [hentry] at hcall
      exact Or.inr (Or.inl ⟨rfl, heq, hcall⟩)
    · obtain ⟨p, c, b, hc, hfd, -, hreg, hlink, hatt⟩ :=
        halive.owner hne (Mask.ne_none_of_has (Mask.has_of_has_and hm))
      rw [hreg.rProc, hreg.data, ← hfd] at hcall
      obtain ⟨c', sys', r, hc', hhandler, rfl⟩ := World.onClient_cases hcall
      obtain rfl := Option.some.inj (hc.symm.trans hc')
      exact Or.inr (Or.inr ⟨rfl, p, c, b, sys', r, hc, hfd, hfd ▸ hreg, hlink, hatt, hhandler, rfl⟩)
  · obtain ⟨rfl, rfl⟩ := Prod.mk.inj (Except.ok.inj hread)
    exact Or.inl ⟨rfl, rfl⟩

/-- **What the write half of an entry can do**: nothing, or call `write_event_handler` for a live
client that is registered for writing. -/
theorem Alive.writeHalf_cases (halive : Alive w listenFd conn) {e : AeFiredEvent} {rfired : Bool}
    (hwrite : AeEventLoop.writeHalf World.host e rfired w = .ok w') :
    w' = w ∨ ∃ p c sys' r, w.heap p = some c ∧ Registered w.sys.loop c.fd p true ∧
      Linked w.sys c.fd p ∧ c.attached = true ∧
      writeEventHandler (w.sys.note (.called .writeEvent c.fd (some (.client p)))) c =
        .ok (sys', r) ∧
      w' = ⟨sys', Function.update w.heap p r⟩ := by
  rw [AeEventLoop.writeHalf, bind_eq_ok] at hwrite
  obtain ⟨fe, hfe, hwrite⟩ := hwrite
  obtain rfl := AeEventLoop.event_eq_ok hfe
  split at hwrite
  · rename_i hm
    have hw := Mask.has_of_has_and hm.1
    rw [show World.host.loop w = w.sys.loop from rfl] at hw hwrite
    -- the listening descriptor is never registered for writing
    have hne : e.fd ≠ listenFd := by
      intro heq
      rw [heq, halive.not_writable] at hw
      exact Bool.false_ne_true hw
    obtain ⟨p, c, b, hc, hfd, -, hreg, hlink, hatt⟩ := halive.owner hne (Mask.ne_none_of_has hw)
    obtain rfl : b = true := hreg.has_writable.symm.trans hw
    rw [hreg.wProc rfl, hreg.data, ← hfd] at hwrite
    obtain ⟨c', sys', r, hc', hhandler, rfl⟩ := World.onClient_cases hwrite
    obtain rfl := Option.some.inj (hc.symm.trans hc')
    exact Or.inr ⟨p, c, sys', r, hc, hfd ▸ hreg, hlink, hatt, hhandler, rfl⟩
  · exact Or.inl (Except.ok.inj hwrite).symm

/-- **The read half of an entry** keeps the agreement. -/
theorem Alive.readHalf (h : Alive w listenFd conn) {e : AeFiredEvent} {rfired : Bool}
    (hread : AeEventLoop.readHalf World.host e w = .ok (rfired, w')) :
    ∃ conn', Alive w' listenFd conn' := by
  rcases h.readHalf_cases hread with
    ⟨-, rfl⟩ | ⟨-, -, haccept⟩ | ⟨-, p, c, b, sys', r, hc, -, -, hlink, hatt, hhandler, rfl⟩
  · exact ⟨conn, h⟩
  · have hev : LifeEvent.next conn (.called .acceptTcp e.fd (some .server)) = some conn := rfl
    exact (h.note hev).accept haccept
  · have hev : LifeEvent.next conn (.called .readEvent c.fd (some (.client p))) = some conn :=
      if_pos (h.owned p c hc)
    exact (h.note hev).outcome hc (readEventHandler_outcome (hlink.note _) hatt hhandler)

/-- So does the write half. -/
theorem Alive.writeHalf (h : Alive w listenFd conn) {e : AeFiredEvent} {rfired : Bool}
    (hwrite : AeEventLoop.writeHalf World.host e rfired w = .ok w') :
    ∃ conn', Alive w' listenFd conn' := by
  rcases h.writeHalf_cases hwrite with rfl | ⟨p, c, sys', r, hc, -, hlink, hatt, hhandler, rfl⟩
  · exact ⟨conn, h⟩
  · have hev : LifeEvent.next conn (.called .writeEvent c.fd (some (.client p))) = some conn :=
      if_pos (h.owned p c hc)
    exact (h.note hev).outcome hc (writeEventHandler_outcome (hlink.note _) hatt hhandler)

end Halves

/-- The states of the server after a successful `init`: between polls, and between the halves of
the fired events, in whatever order these come. -/
inductive Reachable (listenFd : ℤ) : World → Prop
  | init {env : World.Env} {maxClientCount : ℕ} {ctl : List Bool} {r : ℤ} {w : World}
      (hinit : World.init env maxClientCount (some (.create maxClientCount ctl)) listenFd =
        .ok (r, w)) (hr : r ≠ aeErr) : Reachable listenFd w
  | poll {w : World} {batch : List EpollEvent} {n : ℕ} {l : AeEventLoop EventProc ClientData}
      (hw : Reachable listenFd w) (hpoll : w.sys.loop.poll batch = .ok (n, l)) :
      Reachable listenFd (World.host.withLoop w l)
  | readHalf {w w' : World} {e : AeFiredEvent} {rfired : Bool} (hw : Reachable listenFd w)
      (hread : AeEventLoop.readHalf World.host e w = .ok (rfired, w')) : Reachable listenFd w'
  | writeHalf {w w' : World} {e : AeFiredEvent} {rfired : Bool} (hw : Reachable listenFd w)
      (hwrite : AeEventLoop.writeHalf World.host e rfired w = .ok w') : Reachable listenFd w'

/-- `process_events` leads from reachable states to reachable states. -/
theorem Reachable.processEvents {listenFd : ℤ} {w w' : World} {batch : List EpollEvent}
    (hw : Reachable listenFd w)
    (hrun : AeEventLoop.processEvents World.host w batch = .ok w') : Reachable listenFd w' := by
  rw [AeEventLoop.processEvents, bind_eq_ok] at hrun
  obtain ⟨⟨n, l⟩, hpoll, hrun⟩ := hrun
  refine run_invariant (P := fun _ => True) (fun w e w' _ hw hstep => ?_) _ _ _
    (fun _ _ => trivial) (hw.poll hpoll) hrun
  rw [AeEventLoop.dispatchEntry, bind_eq_ok] at hstep
  obtain ⟨⟨rfired, w₁⟩, hread, hwrite⟩ := hstep
  exact (hw.readHalf hread).writeHalf hwrite

/-- So does the loop, batch after batch. -/
theorem Reachable.run {listenFd : ℤ} {w w' : World} {batches : List (List EpollEvent)}
    (hw : Reachable listenFd w)
    (hrun : batches.foldlM (AeEventLoop.processEvents World.host) w = .ok w') :
    Reachable listenFd w' :=
  run_invariant (P := fun _ => True) (fun _ _ _ _ hw hstep => hw.processEvents hstep) _ _ _
    (fun _ _ => trivial) hw hrun

/-- `init` leaves the listening descriptor alone in the table. -/
theorem Alive.init {env : World.Env} {maxClientCount : ℕ} {ctl : List Bool} {listenFd r : ℤ}
    {w : World}
    (h : World.init env maxClientCount (some (.create maxClientCount ctl)) listenFd = .ok (r, w))
    (hr : r ≠ aeErr) : Alive w listenFd fun _ => none := by
  rw [World.init, bind_eq_ok] at h
  obtain ⟨⟨r', sys⟩, hadd, hret⟩ := h
  obtain ⟨rfl, rfl⟩ := Prod.mk.inj (Except.ok.inj hret)
  obtain ⟨l, hl, rfl⟩ := addFileEvent_eq hadd
  dsimp only at hl
  set l₀ : AeEventLoop EventProc ClientData :=
    AeEventLoop.create maxClientCount (some (.create maxClientCount ctl)) with hl₀
  have hentry₀ : ∀ fd, l₀.entry fd = {} := AeEventLoop.entry_create _ _
  have hfits₀ : l₀.Fits := AeEventLoop.Fits.create _ _
  have hlt : listenFd < l₀.fdsetSize := by
    by_contra hge
    rw [AeEventLoop.addFileEvent_of_le (by omega)] at hl
    exact hr (Prod.mk.inj (Except.ok.inj hl)).1.symm
  have h0 : 0 ≤ listenFd := by
    by_contra hneg
    rw [AeEventLoop.addFileEvent, if_neg (by omega), AeEventLoop.event, if_neg (by omega)] at hl
    cases hl
  have halt := hfits₀.add h0 rfl hl
  have hlisten : l.entry listenFd =
      { mask := aeReadable, rProc := some .acceptTcp, clientData := some .server } := by
    rw [AeEventLoop.addFileEvent_of_lt hfits₀.sized h0 hlt rfl] at hl
    split_ifs at hl
    · exact absurd (Prod.mk.inj (Except.ok.inj hl)).1.symm hr
    · obtain ⟨-, rfl⟩ := Prod.mk.inj (Except.ok.inj hl)
      refine (AeEventLoop.entry_setEvent hfits₀.sized h0 hlt _ _).trans ?_
      rw [if_pos rfl, hentry₀]
      rfl
  refine ⟨halt.fits, halt.api, hlisten, ?_, fun fd hne hm => ?_, fun fd p hp => ?_,
    fun p c hc => ?_, rfl⟩
  · dsimp only
    rw [if_neg (by omega), Function.update_self]
    rfl
  · rw [show _ = _ from halt.others fd hne, hentry₀] at hm
    exact absurd rfl hm
  · cases hp
  · cases hc

/-- **Run lemma.** The invariant holds in every reachable state, for some owners. -/
theorem Reachable.alive {listenFd : ℤ} {w : World} (hw : Reachable listenFd w) :
    ∃ conn, Alive w listenFd conn := by
  induction hw with
  | init hinit hr => exact ⟨_, Alive.init hinit hr⟩
  | @poll w batch n l hw hpoll ih =>
      obtain ⟨conn, h⟩ := ih
      obtain ⟨s, hs⟩ := h.api
      rw [h.fits.poll hs] at hpoll
      obtain ⟨-, rfl⟩ := Prod.mk.inj (Except.ok.inj hpoll)
      have hfits := h.fits.fired
      refine ⟨conn, h.keep (fun _ => ⟨⟨⟨h.fits.sized, ?_, h.fits.capacity⟩, h.api, rfl,
        fun _ _ => rfl⟩, fun _ _ => rfl⟩) h.trace⟩
      show ((_ ++ _ : List AeFiredEvent).length : ℤ) = w.sys.loop.fdsetSize
      rw [List.length_append, List.length_map, List.length_drop, List.length_take]
      omega
  | readHalf hw hread ih =>
      obtain ⟨conn, h⟩ := ih
      exact h.readHalf hread
  | writeHalf hw hwrite ih =>
      obtain ⟨conn, h⟩ := ih
      exact h.writeHalf hwrite

/-- A call on `fd` is one of `accept_tcp_handler` on the listening descriptor, or one of the two
other handlers on the live client whose descriptor is `fd`. -/
def Callable (w : World) (listenFd fd : ℤ) (proc : Option EventProc)
    (data : Option ClientData) : Prop :=
  (fd = listenFd ∧ proc = some .acceptTcp ∧ data = some .server) ∨
    ∃ p c, (proc = some .readEvent ∨ proc = some .writeEvent) ∧ data = some (.client p) ∧
      w.heap p = some c ∧ c.fd = fd

/-- What is true of the connections in a state of the server. -/
structure Lifetimes (w : World) (listenFd : ℤ) : Prop where
  /-- Handlers were only called for the owners of open connections, and only open connections were
  closed, out of the table. The owners that are left are the live clients. -/
  history : ∃ conn, openAfter w.sys.trace = some conn ∧
    ∀ fd p, conn fd = some p ↔ ∃ c, w.heap p = some c ∧ c.fd = fd
  /-- A descriptor in the table carries the live client it belongs to. -/
  carried : ∀ fd, fd ≠ listenFd → (w.sys.loop.entry fd).mask ≠ aeNone → ∃ p c,
    (w.sys.loop.entry fd).clientData = some (.client p) ∧ w.heap p = some c ∧ c.fd = fd
  /-- A live client is registered for reading. -/
  readable : ∀ p c, w.heap p = some c → c.fd ≠ listenFd ∧
    (w.sys.loop.entry c.fd).mask.has aeReadable = true ∧
    (w.sys.loop.entry c.fd).clientData = some (.client p)
  /-- No two live clients have the same descriptor. -/
  distinct : ∀ p q c d, w.heap p = some c → w.heap q = some d → c.fd = d.fd → p = q
  /-- Whatever the loop could call next is one of the calls it should make. -/
  calls : ∀ fd, ((w.sys.loop.entry fd).mask.has aeReadable = true →
      Callable w listenFd fd (w.sys.loop.entry fd).rProc (w.sys.loop.entry fd).clientData) ∧
    ((w.sys.loop.entry fd).mask.has aeWritable = true →
      Callable w listenFd fd (w.sys.loop.entry fd).wProc (w.sys.loop.entry fd).clientData)

/-- **The life of connections**, in every reachable state. -/
theorem connections_alive {listenFd : ℤ} {w : World} (hw : Reachable listenFd w) :
    Lifetimes w listenFd := by
  obtain ⟨conn, h⟩ := hw.alive
  refine ⟨⟨conn, h.trace, fun fd p => ⟨fun hp => ?_, ?_⟩⟩, fun fd hne hm => ?_, fun p c hc => ?_,
    fun p q c d hc hd hfd => ?_, fun fd => ?_⟩
  · obtain ⟨-, -, c, hc, hcfd, -⟩ := h.linked fd p hp
    exact ⟨c, hc, hcfd⟩
  · rintro ⟨c, hc, rfl⟩
    exact h.owned p c hc
  · obtain ⟨p, c, b, hc, hcfd, hreg⟩ := h.registered hne hm
    exact ⟨p, c, hreg.data, hc, hcfd⟩
  · obtain ⟨hne, hlink, -⟩ := h.linked _ p (h.owned p c hc)
    obtain ⟨b, hreg⟩ := hlink.registered
    refine ⟨hne, ?_, hreg.data⟩
    rw [hreg.mask]
    cases b <;> decide
  · have hp := h.owned p c hc
    have hq := h.owned q d hd
    rw [← hfd] at hq
    exact Option.some.inj (hp.symm.trans hq)
  · rcases eq_or_ne fd listenFd with rfl | hne
    · refine ⟨fun _ => Or.inl ⟨rfl, ?_⟩, fun hm => absurd hm (by simp [h.not_writable])⟩
      rw [h.listening]
      exact ⟨rfl, rfl⟩
    · refine ⟨fun hm => ?_, fun hm => ?_⟩
      · obtain ⟨p, c, b, hc, hcfd, hreg⟩ := h.registered hne (Mask.ne_none_of_has hm)
        exact Or.inr ⟨p, c, Or.inl hreg.rProc, hreg.data, hc, hcfd⟩
      · obtain ⟨p, c, b, hc, hcfd, hreg⟩ := h.registered hne (Mask.ne_none_of_has hm)
        rw [hreg.has_writable] at hm
        exact Or.inr ⟨p, c, Or.inr (hreg.wProc hm), hreg.data, hc, hcfd⟩

/-- Descriptor 4 is used by one connection and then by the next; descriptor 9 does not fit into
the table. -/
def reusingEnv : World.Env where
  files := .empty
  accepts :=
    [⟨4, 0, { inbox := frame headSize (text "ping"), reads := [.full, .full, .eof] }⟩, ⟨4, 1, {}⟩,
      ⟨9, 0, {}⟩]

def reusingBatches : List (List EpollEvent) :=
  [[⟨epollIn, 3⟩], [⟨epollIn, 4⟩], [⟨epollIn ||| epollOut, 4⟩, ⟨epollIn, 3⟩], [⟨epollIn, 3⟩]]

/-- The client of descriptor 4 is deleted while an event for writing is pending and the number is
given out again in the same batch; descriptor 9 is closed at once. -/
theorem connections_alive_reusing :
    ∃ r w w', World.init reusingEnv 8 (some (.create 8 [])) 3 = .ok (r, w) ∧
      reusingBatches.foldlM (AeEventLoop.processEvents World.host) w = .ok w' ∧
      w'.sys.trace =
        [.called .acceptTcp 3 (some .server), .accepted 4 0,
          .called .readEvent 4 (some (.client 0)), .called .readEvent 4 (some (.client 0)),
          .closed 4 aeNone, .called .acceptTcp 3 (some .server), .accepted 4 1,
          .called .acceptTcp 3 (some .server), .accepted 9 0, .closed 9 aeNone] ∧
      Lifetimes w' 3 := by
  have htrace : (World.init reusingEnv 8 (some (.create 8 [])) 3 >>= fun (r, w) =>
      reusingBatches.foldlM (AeEventLoop.processEvents World.host) w >>= fun w' =>
        Except.ok (r, w'.sys.trace)) = .ok (0,
        [.called .acceptTcp 3 (some .server), .accepted 4 0,
          .called .readEvent 4 (some (.client 0)), .called .readEvent 4 (some (.client 0)),
          .closed 4 aeNone, .called .acceptTcp 3 (some .server), .accepted 4 1,
          .called .acceptTcp 3 (some .server), .accepted 9 0, .closed 9 aeNone]) := by
    decide +kernel
  simp only [bind_eq_ok] at htrace
  obtain ⟨⟨r, w⟩, hinit, w', hrun, hret⟩ := htrace
  obtain ⟨rfl, htrace⟩ := Prod.mk.inj (Except.ok.inj hret)
  exact ⟨_, w, w', hinit, hrun, htrace,
    connections_alive ((Reachable.init hinit (by decide)).run hrun)⟩

end AsprNet.Server
