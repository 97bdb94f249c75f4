import AsprNet.Lib.Family
import AsprNet.Lib.Lockstep
import AsprNet.Server.Lifetime

/-! # The server as a family of connections

A `Channel` is one connection without the event loop: the client, its socket, and whether replies
wait to be written. It knows no table, no kernel set, no descriptor and no heap; all it has in
common with the other channels is the `Store`, the files and the fresh memory.

The server is a family of channels: every event that the kernel reports is one step of one channel,
failures included (`Alive.dispatchEntry_lockstep`).
-/

namespace AsprNet.Server

/-! ## Channels -/

/-- What all connections share. -/
structure Store where
  files : Files
  /-- What the coming arrays from `new[]` hold. -/
  junk : ℕ → ℕ → UInt8 := fun _ _ => 0

/-- The state after `n` arrays were allocated. -/
def Store.allocated (F : Store) (n : ℕ) : Store := { F with junk := fun i => F.junk (i + n) }

/-- A connection by itself. -/
structure Channel where
  client : ClientT
  sock : Sock
  /-- It is registered for writing. -/
  writing : Bool := false

namespace Channel

/-- A connection that was just accepted. -/
def accepted (F : Store) (fd : ℕ) (s : Sock) : Channel where
  client := { ClientT.create (F.junk 0) (F.junk 1) with fd, attached := true }
  sock := s

/-- What a command called for the connection can reach. -/
def io (ch : Channel) (F : Store) : Io := { sock := ch.sock, files := F.files, junk := F.junk }

/-- `process_command` for this connection. -/
def command (F : Store) (ch : Channel) : Except Halt (Store × Channel) := do
  let name ← ArgT.argv ch.client.arg 0
  match sCommandTable.lookup name with
  | none => return (F, ch)
  | some cmd =>
    if cmd.arityErr ch.client.arg.length then return (F, ch)
    else
      let (io, c) ← cmd.proc (ch.io F) ch.client
      return (⟨io.files, io.junk⟩, ⟨c, io.sock, ch.writing || cmd.reply⟩)

/-- `read_event_handler` for this connection. The result `none` means that it was closed. -/
def read (F : Store) (ch : Channel) : Except Halt (Store × Option Channel) := do
  let (s, r) ← receive ch.sock ch.client
  match r with
  | none => return (F, none)
  | some c =>
    let c ← processInputBuffer c
    let (F, ch) ← command F ⟨c, s, ch.writing⟩
    return (F, some ch)

/-- `write_event_handler` for this connection. The result `none` means that it was closed. -/
def write (F : Store) (ch : Channel) : Except Halt (Store × Option Channel) := do
  let size ← ch.client.wBuffer.readableSize
  if int32 size = 0 then return (F, none)
  else
    let (s, c) ← sendPending ch.sock ch.client (int32 size)
    let size ← c.wBuffer.readableSize
    return (F, some ⟨c, s, ch.writing && size != 0⟩)

/-- The read half of a report. -/
def reportRead (F : Store) (mask : Mask) : Option Channel → Except Halt (Store × Option Channel)
  | some ch => if mask.has aeReadable then ch.read F else .ok (F, some ch)
  | none => .ok (F, none)

/-- The write half of a report. -/
def reportWrite (F : Store) (mask : Mask) : Option Channel → Except Halt (Store × Option Channel)
  | some ch => if mask.has aeWritable ∧ ch.writing then ch.write F else .ok (F, some ch)
  | none => .ok (F, none)

/-- What a connection, if there is one, does when the loop reports `mask` for its descriptor. -/
def report (F : Store) (mask : Mask) (r : Option Channel) :
    Except Halt (Store × Option Channel) := do
  let (F, r) ← reportRead F mask r
  reportWrite F mask r

end Channel

/-- What happens at a descriptor. -/
inductive ChannelEvent
  /-- A connection with this stream is accepted. -/
  | accepted (fd : ℕ) (sock : Sock)
  /-- A connection is accepted and closed at once: there is no room for it. -/
  | refused
  /-- The loop reports the descriptor. -/
  | reported (mask : Mask)

/-- What can become of a descriptor at an event. -/
inductive Channel.Does : Conduct Store (Option Channel) ChannelEvent
  | accepted (F : Store) (fd : ℕ) (s : Sock) :
      Does F none (.accepted fd s) (F.allocated 2) (some (Channel.accepted F fd s))
  | refused (F : Store) : Does F none .refused (F.allocated 2) none
  | reported {F F' : Store} {r r' : Option Channel} {mask : Mask}
      (h : Channel.report F mask r = .ok (F', r')) : Does F r (.reported mask) F' r'

/-! ## A handler call -/

/-- What the system has of the store. -/
def Sys.store (sys : Sys) : Store := ⟨sys.files, sys.junk⟩

/-- The connection `fd` of the client at `p` is what the channel says. -/
structure Shows (sys : Sys) (fd : ℤ) (p : ℕ) (ch : Channel) : Prop where
  registered : Registered sys.loop fd p ch.writing
  sock : sys.socks fd = some ch.sock

/-- A channel is a linked connection. -/
theorem Shows.linked {sys : Sys} {fd : ℤ} {p : ℕ} {ch : Channel} (h : Shows sys fd p ch) :
    Linked sys fd p := ⟨⟨_, h.registered⟩, by rw [h.sock]; rfl⟩

/-- A handler call on the connection `fd` left what the channel left. -/
structure Leaves (fd : ℤ) (p : ℕ) (x : Sys × Option ClientT) (y : Store × Option Channel) :
    Prop where
  store : x.1.store = y.1
  client : x.2 = y.2.map Channel.client
  shows : ∀ ch, y.2 = some ch → Shows x.1 fd p ch

/-- **`process_command`** does to the system what it does to the channel. -/
theorem processCommand_lockstep {sys : Sys} {p : ℕ} {ch : Channel}
    (h : Shows sys ch.client.fd p ch) :
    Lockstep (fun x y => Leaves ch.client.fd p (x.1, some x.2) (y.1, some y.2))
      (processCommand sCommandTable sys p ch.client) (ch.command sys.store) := by
  have hkeep : Leaves ch.client.fd p (sys, some ch.client) (sys.store, some ch) :=
    ⟨rfl, rfl, fun ch' hch' => by cases hch'; exact h⟩
  rw [processCommand, Channel.command]
  refine (Lockstep.same _).bind fun name _ _ _ heq => ?_
  subst heq
  cases sCommandTable.lookup name with
  | none => exact hkeep
  | some cmd =>
      dsimp only
      split
      · exact hkeep
      · -- the registration for writing, then the procedure
        have hproc : ∀ sys₁ : Sys, sys₁.store = sys.store → sys₁.socks = sys.socks →
            Registered sys₁.loop ch.client.fd p (ch.writing || cmd.reply) →
            Lockstep (fun x y => Leaves ch.client.fd p (x.1, some x.2) (y.1, some y.2))
              (sys₁.io ch.client.fd >>= fun io => cmd.proc io ch.client >>= fun r =>
                return (sys₁.putIo ch.client.fd r.1, r.2))
              (cmd.proc (ch.io sys.store) ch.client >>= fun r =>
                return (⟨r.1.files, r.1.junk⟩, ⟨r.2, r.1.sock, ch.writing || cmd.reply⟩)) := by
          intro sys₁ hstore hsocks hreg
          have hio : sys₁.io ch.client.fd = .ok (ch.io sys.store) := by
            rw [io_eq_ok, hsocks, ← hstore]
            exact ⟨h.sock, rfl, rfl⟩
          rw [hio, ok_bind]
          refine (Lockstep.same _).bind fun r _ _ _ heq => ?_
          subst heq
          refine ⟨rfl, rfl, fun ch' hch' => ?_⟩
          cases hch'
          exact ⟨hreg, Function.update_self _ _ _⟩
        by_cases hreply : cmd.reply = true
        · obtain ⟨r, l, hadd, hreg⟩ := h.registered.addWritable
          have hreg' : Registered l ch.client.fd p (ch.writing || cmd.reply) := by
            rw [hreply, Bool.or_true]
            exact hreg
          rw [if_pos hreply, Sys.addFileEvent, hadd]
          exact hproc { sys with loop := l } rfl rfl hreg'
        · rw [if_neg hreply]
          refine hproc sys rfl rfl ?_
          rw [Bool.not_eq_true] at hreply
          rw [hreply, Bool.or_false]
          exact h.registered

/-- `del_file_event` returns. -/
theorem delFileEvent_returns {l : AeEventLoop EventProc ClientData} (h : l.Fits) {fd : ℤ}
    (h0 : 0 ≤ fd)
    (hapi : ∃ s, l.apiData = some s) (mask : Mask) :
    ∃ l', l.delFileEvent fd mask = .ok l' ∧ l.Alters l' fd := by
  obtain ⟨s, hs⟩ := hapi
  rcases lt_or_ge fd l.fdsetSize with hlt | hge
  · have hdel := AeEventLoop.delFileEvent_of_lt h.sized h0 hlt hs mask
    exact ⟨_, hdel, (h.del h0 hs hdel).1⟩
  · have hdel := AeEventLoop.delFileEvent_of_le hge mask
    exact ⟨_, hdel, (h.del h0 hs hdel).1⟩

/-- `~client_t` returns, and leaves files and fresh memory alone. -/
theorem ClientT.delete_store {sys : Sys} {c : ClientT} (hatt : c.attached = true) (h0 : 0 ≤ c.fd)
    (hfits : sys.loop.Fits) (hapi : ∃ s, sys.loop.apiData = some s) :
    ∃ sys', c.delete sys = .ok sys' ∧ sys'.store = sys.store := by
  obtain ⟨l₁, hdel₁, halt⟩ := delFileEvent_returns hfits h0 hapi aeReadable
  obtain ⟨l₂, hdel₂, -⟩ := delFileEvent_returns halt.fits h0 halt.api aeWritable
  rw [ClientT.delete, if_pos hatt]
  simp only [Sys.delFileEvent, hdel₁, ok_bind, pure_bind, hdel₂]
  exact ⟨_, rfl, rfl⟩

/-- A channel that goes, goes by `~client_t`. -/
theorem Linked.delete_lockstep {sys : Sys} {c : ClientT} {p : ℕ} (h : Linked sys c.fd p)
    (hatt : c.attached = true) :
    Lockstep (Leaves c.fd p) (c.delete sys >>= fun sys' => return (sys', none))
      (.ok (sys.store, none)) := by
  obtain ⟨b, hreg⟩ := h.registered
  obtain ⟨sys', hdel, hstore⟩ := ClientT.delete_store hatt hreg.lo hreg.fits hreg.api
  rw [hdel, ok_bind]
  exact ⟨hstore, rfl, fun ch hch => by cases hch⟩

/-- **`read_event_handler`** does to the system what it does to the channel. -/
theorem readEventHandler_lockstep {sys : Sys} {p : ℕ} {ch : Channel}
    (h : Shows sys ch.client.fd p ch) (hatt : ch.client.attached = true) :
    Lockstep (Leaves ch.client.fd p) (readEventHandler sys p ch.client.fd ch.client)
      (ch.read sys.store) := by
  rw [readEventHandler, readPackage, sock_eq_ok.mpr h.sock, ok_bind, Channel.read, bind_assoc]
  refine (Lockstep.same _).bind fun r _ hr _ heq => ?_
  subst heq
  obtain ⟨s, r⟩ := r
  cases r with
  | none => exact (h.linked.io s sys.files sys.junk).toLinked.delete_lockstep hatt
  | some c =>
      dsimp only
      rw [bind_assoc]
      refine (Lockstep.same _).bind fun c' _ hc' _ heq => ?_
      subst heq
      have hread : readPackage sys ch.client.fd ch.client =
          .ok (sys.setSock ch.client.fd s, some c') := by
        rw [readPackage, sock_eq_ok.mpr h.sock, ok_bind, hr, ok_bind]
        dsimp only
        rw [hc', ok_bind]
        rfl
      obtain ⟨hfd, -⟩ := (readPackage_linked h.linked hread).2 c' rfl
      have hshows : Shows (sys.setSock ch.client.fd s) c'.fd p ⟨c', s, ch.writing⟩ := by
        rw [hfd]
        exact ⟨h.registered, Function.update_self _ _ _⟩
      refine (@processCommand_lockstep _ _ ⟨c', s, ch.writing⟩ hshows).bind
        fun x y _ _ hxy => ?_
      rw [← hfd]
      exact hxy

/-- **`write_event_handler`** does to the system what it does to the channel. -/
theorem writeEventHandler_lockstep {sys : Sys} {p : ℕ} {ch : Channel}
    (h : Shows sys ch.client.fd p ch) (hatt : ch.client.attached = true) :
    Lockstep (Leaves ch.client.fd p) (writeEventHandler sys ch.client) (ch.write sys.store) := by
  rw [writeEventHandler, Channel.write]
  refine (Lockstep.same _).bind fun size _ _ _ heq => ?_
  subst heq
  dsimp only
  generalize int32 size = n
  by_cases hempty : n = 0
  · rw [if_pos hempty, if_pos hempty]
    exact h.linked.delete_lockstep hatt
  · rw [if_neg hempty, if_neg hempty, sock_eq_ok.mpr h.sock, ok_bind]
    refine (Lockstep.same _).bind fun x _ hx _ heq => ?_
    subst heq
    obtain ⟨s, c⟩ := x
    obtain ⟨-, hfd, hatt', -, -⟩ := sendPending_frame hx
    dsimp only
    refine (Lockstep.same _).bind fun size' _ _ _ heq => ?_
    subst heq
    rw [hfd]
    by_cases hzero : size' = 0
    · rw [if_pos hzero, if_pos (hatt'.trans hatt)]
      obtain ⟨l, hdel, hreg⟩ := h.registered.delWritable
      simp only [Sys.delFileEvent, Sys.setSock, hdel, ok_bind]
      refine ⟨rfl, rfl, fun ch' hch' => ?_⟩
      cases hch'
      subst hzero
      exact ⟨by simpa using hreg, Function.update_self _ _ _⟩
    · rw [if_neg hzero]
      refine ⟨rfl, rfl, fun ch' hch' => ?_⟩
      cases hch'
      have hwriting' : (ch.writing && size' != 0) = ch.writing := by simp [hzero]
      exact ⟨by dsimp only; rw [hwriting']; exact h.registered, Function.update_self _ _ _⟩

/-! ## The family in the server -/

namespace World

/-- The connection behind a descriptor of the table. -/
def channel (w : World) (fd : ℤ) : Option Channel :=
  if (w.sys.loop.entry fd).mask = aeNone then none
  else match (w.sys.loop.entry fd).clientData with
    | some (.client p) =>
      match w.heap p, w.sys.socks fd with
      | some client, some sock =>
        some { client, sock, writing := (w.sys.loop.entry fd).mask.has aeWritable }
      | _, _ => none
    | _ => none

/-- The connections of the server, and what they share. -/
def channels (w : World) : Family ℤ (Option Channel) Store := ⟨w.channel, w.sys.store⟩

end World

section Channels

variable {w w' : World} {listenFd fd : ℤ} {conn : ℤ → Option ℕ} {p : ℕ} {ch : Channel}

/-- Without a mask there is no channel. -/
theorem World.channel_of_mask (h : (w.sys.loop.entry fd).mask = aeNone) : w.channel fd = none :=
  if_pos h

/-- What a registered connection is. -/
theorem World.channel_of_shows (hshows : Shows w.sys fd p ch) (hc : w.heap p = some ch.client) :
    w.channel fd = some ch := by
  rw [World.channel, if_neg hshows.registered.mask_ne, hshows.registered.data]
  dsimp only
  rw [hc, hshows.sock]
  dsimp only
  rw [hshows.registered.has_writable]

/-- There is no connection behind the listening descriptor. -/
theorem Alive.channel_listening (h : Alive w listenFd conn) : w.channel listenFd = none := by
  rw [World.channel, h.listening]
  rfl

/-- A connection of the family is one of the server. -/
theorem Alive.shows (h : Alive w listenFd conn) (hch : w.channel fd = some ch) :
    fd ≠ listenFd ∧ ∃ p, conn fd = some p ∧ w.heap p = some ch.client ∧ ch.client.fd = fd ∧
      ch.client.attached = true ∧ Shows w.sys fd p ch := by
  have hne : fd ≠ listenFd := by
    rintro rfl
    rw [h.channel_listening] at hch
    cases hch
  have hmask : (w.sys.loop.entry fd).mask ≠ aeNone := fun hnone => by
    rw [World.channel_of_mask hnone] at hch
    cases hch
  obtain ⟨p, c, b, hc, rfl, hp, hreg, hlink, hatt⟩ := h.owner hne hmask
  obtain ⟨s, hs⟩ := Option.isSome_iff_exists.mp hlink.isOpen
  have hshows : Shows w.sys c.fd p ⟨c, s, b⟩ := ⟨hreg, hs⟩
  obtain rfl := Option.some.inj ((World.channel_of_shows hshows hc).symm.trans hch)
  exact ⟨hne, p, hp, hc, rfl, hatt, hreg, hs⟩

/-- The descriptor of a connection is in the table. -/
theorem Alive.inRange (h : Alive w listenFd conn) (hch : w.channel fd = some ch) :
    0 ≤ fd ∧ fd < w.sys.loop.fdsetSize := by
  obtain ⟨-, p, -, -, rfl, -, hshows⟩ := h.shows hch
  exact ⟨hshows.registered.lo, hshows.registered.hi⟩

/-- Without a connection there is no registration. -/
theorem Alive.mask_of_channel (h : Alive w listenFd conn) (hne : fd ≠ listenFd)
    (hch : w.channel fd = none) : (w.sys.loop.entry fd).mask = aeNone := by
  by_contra hmask
  obtain ⟨p, c, b, hc, rfl, -, hreg, hlink, -⟩ := h.owner hne hmask
  obtain ⟨s, hs⟩ := Option.isSome_iff_exists.mp hlink.isOpen
  have hshows : Shows w.sys c.fd p ⟨c, s, b⟩ := ⟨hreg, hs⟩
  rw [World.channel_of_shows hshows hc] at hch
  cases hch

/-- **One connection changes, the others stay.** -/
theorem Alive.channel_elsewhere (h : Alive w listenFd conn)
    (hpair : ∀ fd' q, conn fd' = some q → (fd' = fd ↔ q = p)) {sys' : Sys}
    (ht : Touches w.sys sys' fd) (r : Option ClientT) {fd' : ℤ} (hne : fd' ≠ fd) :
    World.channel ⟨sys', Function.update w.heap p r⟩ fd' = w.channel fd' := by
  rw [World.channel, World.channel]
  dsimp only
  rw [ht.loop.others fd' hne, ht.socks fd' hne]
  by_cases hmask : (w.sys.loop.entry fd').mask = aeNone
  · rw [if_pos hmask, if_pos hmask]
  · rw [if_neg hmask, if_neg hmask]
    rcases eq_or_ne fd' listenFd with rfl | hlisten
    · rw [h.listening]
    · obtain ⟨q, c, b, hc, -, hq, hreg, -⟩ := h.owner hlisten hmask
      have hqp : q ≠ p := fun heq => hne ((hpair fd' q hq).mpr heq)
      rw [hreg.data]
      dsimp only
      rw [Function.update_of_ne hqp]

/-- What a handler call left of its connection is what the family has of it afterwards. -/
theorem Alive.channels_put (h : Alive w listenFd conn)
    (hpair : ∀ fd' q, conn fd' = some q → (fd' = fd ↔ q = p)) {x : Sys × Option ClientT}
    {y : Store × Option Channel} (hleaves : Leaves fd p x y)
    (ht : Touches w.sys x.1 fd) (hnone : x.2 = none → (x.1.loop.entry fd).mask = aeNone) :
    World.channels ⟨x.1, Function.update w.heap p x.2⟩ = w.channels.put fd y.2 y.1 := by
  obtain ⟨F, r⟩ := y
  ext1
  · funext fd'
    rw [Family.part_put]
    rcases eq_or_ne fd' fd with rfl | hne
    · rw [Function.update_self]
      cases r with
      | none => exact World.channel_of_mask (hnone hleaves.client)
      | some ch =>
          refine World.channel_of_shows (hleaves.shows ch rfl) ?_
          dsimp only
          rw [Function.update_self, hleaves.client]
          rfl
    · rw [Function.update_of_ne hne]
      exact h.channel_elsewhere hpair ht _ hne
  · exact hleaves.store

/-- **The stream of a connection changes**, and nothing else does. -/
theorem Alive.setSock (h : Alive w listenFd conn) (hch : w.channel fd = some ch) (s : Sock) :
    (∃ conn', Alive { w with sys := w.sys.setSock fd s } listenFd conn') ∧
      World.channels { w with sys := w.sys.setSock fd s } =
        w.channels.put fd (some { ch with sock := s }) w.sys.store := by
  obtain ⟨-, p, hp, hc, rfl, -, hshows⟩ := h.shows hch
  have hkept : Kept w.sys (w.sys.setSock ch.client.fd s) ch.client.fd p :=
    hshows.linked.io s w.sys.files w.sys.junk
  have houtcome : Outcome w.sys (w.sys.setSock ch.client.fd s) p ch.client (some ch.client) :=
    ⟨hkept, rfl, rfl⟩
  have halive := h.outcome hc houtcome
  have hchannels := h.channels_put (h.pair hp)
    (x := (w.sys.setSock ch.client.fd s, some ch.client))
    (y := (w.sys.store, some { ch with sock := s }))
    ⟨rfl, rfl, fun ch' hch' => by
      cases hch'
      exact ⟨hshows.registered, Function.update_self _ _ _⟩⟩ hkept.toTouches (by simp)
  rw [← hc, Function.update_eq_self] at halive hchannels
  exact ⟨halive, hchannels⟩

/-! ## One fired event -/

/-- What the family has of the server after it went over from `w` to `w'` by a step of the
connection `fd`. -/
structure Follows (w : World) (fd : ℤ) (w' : World) (y : Store × Option Channel) : Prop where
  channels : w'.channels = w.channels.put fd y.2 y.1
  size : w'.sys.loop.fdsetSize = w.sys.loop.fdsetSize

/-- Nothing happened to this descriptor. -/
theorem Follows.same (w : World) (fd : ℤ) : Follows w fd w (w.sys.store, w.channel fd) :=
  ⟨(Family.put_same w.channels fd).symm, rfl⟩

/-- A note in the trace changes no channel. -/
theorem Shows.note (h : Shows w.sys fd p ch) (ev : LifeEvent) : Shows (w.sys.note ev) fd p ch :=
  ⟨h.registered, h.sock⟩

/-- A handler call on the client of a connection, in the family. -/
theorem Alive.onClient_lockstep (h : Alive w listenFd conn) {ev : LifeEvent}
    (hev : ev.next conn = some conn) {c : ClientT} (hp : conn c.fd = some p)
    (hc : w.heap p = some c) {handler : ClientT → Except Halt (Sys × Option ClientT)}
    {y : Except Halt (Store × Option Channel)} (hl : Lockstep (Leaves c.fd p) (handler c) y)
    (hout : ∀ sys' r, handler c = .ok (sys', r) → Outcome (w.sys.note ev) sys' p c r) :
    Lockstep (Follows w c.fd) (World.onClient ⟨w.sys.note ev, w.heap⟩ p handler) y := by
  rw [World.onClient]
  dsimp only
  rw [hc]
  dsimp only
  rw [← bind_pure y]
  refine hl.bind fun x z hx _ hleaves => ?_
  have ho := hout x.1 x.2 hx
  have ht := ho.touches
  refine ⟨(h.note hev).channels_put (h.pair hp) hleaves ht fun hnone => ?_, ht.loop.size⟩
  rw [hnone] at ho
  exact Gone.mask ho

/-- **The read half of a fired event** is that of the channel. -/
theorem Alive.readHalf_lockstep (h : Alive w listenFd conn) {e : AeFiredEvent}
    (hne : e.fd ≠ listenFd) (hlo : 0 ≤ e.fd) (hhi : e.fd < w.sys.loop.fdsetSize) :
    Lockstep (fun x y => Follows w e.fd x.2 y) (AeEventLoop.readHalf World.host e w)
      (Channel.reportRead w.sys.store e.mask (w.channel e.fd)) := by
  have hsame := Follows.same w e.fd
  rw [AeEventLoop.readHalf]
  show Lockstep _ (w.sys.loop.event e.fd >>= _) _
  rw [h.fits.sized.event hlo hhi, ok_bind]
  cases hch : w.channel e.fd with
  | none =>
      rw [h.mask_of_channel hne hch, if_neg (by simp [Mask.has, aeNone])]
      rw [hch] at hsame
      exact hsame
  | some ch =>
      obtain ⟨-, p, hp, hc, hfd, hatt, hshows⟩ := h.shows hch
      have hreg := hshows.registered
      have hflag : (w.sys.loop.entry e.fd).mask &&& aeReadable = aeReadable := by
        rw [hreg.mask]
        cases ch.writing <;> decide
      rw [Mask.has_and hflag, Channel.reportRead]
      by_cases hm : e.mask.has aeReadable = true
      · rw [if_pos hm, if_pos hm]
        show Lockstep _ (World.host.invoke (w.sys.loop.entry e.fd).rProc e.fd
          (w.sys.loop.entry e.fd).clientData e.mask w >>= _) _
        rw [hreg.rProc, hreg.data, ← hfd, ← bind_pure (ch.read w.sys.store)]
        rw [← hfd] at hp hshows
        have hev : LifeEvent.next conn (.called .readEvent ch.client.fd (some (.client p))) =
            some conn := if_pos hp
        refine (h.onClient_lockstep hev hp hc
          (readEventHandler_lockstep (hshows.note _) hatt) fun sys' r hrun => ?_).bind
            fun _ _ _ _ hfollows => hfollows
        exact readEventHandler_outcome (hshows.note _).linked hatt hrun
      · rw [if_neg hm, if_neg hm]
        rw [hch] at hsame
        exact hsame

/-- **The write half of a fired event** is that of the channel. -/
theorem Alive.writeHalf_lockstep (h : Alive w listenFd conn) {e : AeFiredEvent} (rfired : Bool)
    (hne : e.fd ≠ listenFd) (hlo : 0 ≤ e.fd) (hhi : e.fd < w.sys.loop.fdsetSize) :
    Lockstep (Follows w e.fd) (AeEventLoop.writeHalf World.host e rfired w)
      (Channel.reportWrite w.sys.store e.mask (w.channel e.fd)) := by
  have hsame := Follows.same w e.fd
  rw [AeEventLoop.writeHalf]
  show Lockstep _ (w.sys.loop.event e.fd >>= _) _
  rw [h.fits.sized.event hlo hhi, ok_bind]
  cases hch : w.channel e.fd with
  | none =>
      rw [h.mask_of_channel hne hch, if_neg (by simp [Mask.has, aeNone])]
      rw [hch] at hsame
      exact hsame
  | some ch =>
      obtain ⟨-, p, hp, hc, hfd, hatt, hshows⟩ := h.shows hch
      have hreg := hshows.registered
      rw [Channel.reportWrite]
      by_cases hm : e.mask.has aeWritable ∧ ch.writing = true
      · obtain ⟨hmask, hwriting⟩ := hm
        rw [hwriting] at hreg
        have hflag : (w.sys.loop.entry e.fd).mask &&& aeWritable = aeWritable := by
          rw [hreg.mask]
          decide
        have hcond : ((w.sys.loop.entry e.fd).mask &&& e.mask).has aeWritable = true ∧
            (rfired = false ∨
              (w.sys.loop.entry e.fd).rProc ≠ (w.sys.loop.entry e.fd).wProc) := by
          rw [Mask.has_and hflag, hreg.rProc, hreg.wProc rfl]
          exact ⟨hmask, Or.inr (by decide)⟩
        rw [if_pos hcond, if_pos ⟨hmask, hwriting⟩]
        show Lockstep _ (World.host.invoke (w.sys.loop.entry e.fd).wProc e.fd
          (w.sys.loop.entry e.fd).clientData e.mask w) _
        rw [hreg.wProc rfl, hreg.data, ← hfd]
        rw [← hfd] at hp hshows
        have hev : LifeEvent.next conn (.called .writeEvent ch.client.fd (some (.client p))) =
            some conn := if_pos hp
        exact h.onClient_lockstep hev hp hc (writeEventHandler_lockstep (hshows.note _) hatt)
          fun sys' r hrun => writeEventHandler_outcome (hshows.note _).linked hatt hrun
      · have hcond : ¬(((w.sys.loop.entry e.fd).mask &&& e.mask).has aeWritable = true ∧
            (rfired = false ∨
              (w.sys.loop.entry e.fd).rProc ≠ (w.sys.loop.entry e.fd).wProc)) := by
          rintro ⟨hmask, -⟩
          refine hm ⟨?_, ?_⟩
          · rw [BitVec.and_comm] at hmask
            exact Mask.has_of_has_and hmask
          · rw [← hreg.has_writable]
            exact Mask.has_of_has_and hmask
        rw [if_neg hcond, if_neg hm]
        rw [hch] at hsame
        exact hsame

/-- **A fired event is one step of one channel**, failures included. -/
theorem Alive.dispatchEntry_lockstep (h : Alive w listenFd conn) {e : AeFiredEvent}
    (hne : e.fd ≠ listenFd) (hlo : 0 ≤ e.fd) (hhi : e.fd < w.sys.loop.fdsetSize) :
    Lockstep (Follows w e.fd) (AeEventLoop.dispatchEntry World.host w e)
      (Channel.report w.sys.store e.mask (w.channel e.fd)) := by
  rw [AeEventLoop.dispatchEntry, Channel.report]
  refine (h.readHalf_lockstep hne hlo hhi).bind fun x y hx _ hfollows => ?_
  obtain ⟨rfired, w₁⟩ := x
  obtain ⟨F, r⟩ := y
  obtain ⟨conn₁, h₁⟩ := h.readHalf hx
  have hstore : w₁.sys.store = F := congrArg Family.store hfollows.channels
  have hpart : w₁.channel e.fd = r := by
    have hpart := congrArg (fun x => Family.part x e.fd) hfollows.channels
    exact hpart.trans (Function.update_self _ _ _)
  have hwrite := h₁.writeHalf_lockstep rfired hne hlo (by
    rw [show w₁.sys.loop.fdsetSize = _ from hfollows.size]
    exact hhi)
  rw [hstore, hpart] at hwrite
  refine hwrite.mono fun w₂ y _ _ hfollows₂ => ⟨?_, hfollows₂.size.trans hfollows.size⟩
  rw [hfollows₂.channels, hfollows.channels, Family.put_put]

end Channels

end AsprNet.Server
