import AsprNet.Server.Isolation
import AsprNet.System.Sessions

/-! # The whole net

The server as it is, with its event loop, its table of descriptors and the kernel's set
(`Server.World`), and the clients behind its descriptors. The loop polls, handles the fired events
one after the other, and between any two of them the clients go on as they like.

A run of the net is one of the sessions (`Net.Does.sessions`), hence one of the file service
(`net_refines`).
-/

namespace AsprNet.System

open Client (Sending beginLine)
open Server (World Store Channel Plain Alive EventProc ClientData)

structure Net where
  world : World
  /-- The fired events that the loop has still to handle. -/
  todo : List AeFiredEvent := []
  /-- The client that is or will be connected by a descriptor of the server. -/
  users : ℤ → User

/-! ## Steps -/

/-- Put back the stream of a connection that there is. -/
def putChannel (w : World) (fd : ℤ) : Option Channel → World
  | none => w
  | some ch => { w with sys := w.sys.setSock fd ch.sock }

namespace Net

/-- The client at `fd` and the server's end of its connection. -/
def session (n : Net) (fd : ℤ) : Session := { n.users fd with channel := n.world.channel fd }

/-- The requests of the client at `fd` that are on their way to the server. -/
def pending (n : Net) (fd : ℤ) : List Sending := (n.session fd).pending

/-- The sessions, and what they have in common. -/
def sessions (n : Net) : Family ℤ Session Store := ⟨n.session, n.world.sys.store⟩

/-- The net after the client at `fd` or one of the two streams of its connection has changed. -/
def put (n : Net) (fd : ℤ) (x : Session) : Net :=
  { n with users := Function.update n.users fd x.toUser, world := putChannel n.world fd x.channel }

/-- What the server's end of `fd` has written is carried to the client. -/
def carryDown (n : Net) (fd : ℤ) : Net := n.put fd (n.session fd).carryDown

/-- What the client at `fd` has written is carried to the server. -/
def carryUp (n : Net) (fd : ℤ) : Net := n.put fd (n.session fd).carryUp

end Net

inductive NetEvent
  /-- The client at `fd` does something. -/
  | user (fd : ℤ) (i : SessionEvent)
  /-- The loop polls. -/
  | polled (batch : List EpollEvent)
  /-- The loop handles the next fired event, of a connection. -/
  | reported
  /-- The loop handles the next fired event, of the listening descriptor, and accepts `fd`. -/
  | accepted (fd : ℤ)
  /-- The loop handles the next fired event, of the listening descriptor, and accepts nothing. -/
  | idle

/-- What the clients do without the server. -/
def SessionEvent.OfUser : SessionEvent → Prop
  | .line _ => True
  | .reply => True
  | _ => False

/-- What is seen by the clients. -/
def NetEvent.observed : NetEvent → List (ℤ × Observation)
  | .user fd i => i.observed.map fun b => (fd, b)
  | _ => []

/-- **What the net does.** The streams of the connections that the kernel accepts are plain ones. -/
inductive Net.Does (listenFd : ℤ) : Net → NetEvent → Net → Prop
  | user {n : Net} {fd : ℤ} {i : SessionEvent} {x : Session} (hi : i.OfUser)
      (hdoes : Session.Does n.world.sys.store (n.session fd) i n.world.sys.store x) :
      Does listenFd n (.user fd i) (n.put fd x)
  | polled {n : Net} {batch : List EpollEvent} {k : ℕ} {l : AeEventLoop EventProc ClientData}
      (htodo : n.todo = []) (hpoll : n.world.sys.loop.poll batch = .ok (k, l)) :
      Does listenFd n (.polled batch)
        { n with world := World.host.withLoop n.world l, todo := l.fired.take k }
  | reported {n : Net} {e : AeFiredEvent} {es : List AeFiredEvent} {w : World}
      (htodo : n.todo = e :: es) (he : e.fd ≠ listenFd)
      (hrun : AeEventLoop.dispatchEntry World.host n.world e = .ok w) :
      Does listenFd n .reported (carryDown { n with world := w, todo := es } e.fd)
  | accepted {n : Net} {e : AeFiredEvent} {es : List AeFiredEvent} {w : World} {fd : ℤ}
      {ch : Channel} (htodo : n.todo = e :: es) (he : e.fd = listenFd)
      (hrun : AeEventLoop.dispatchEntry World.host n.world e = .ok w)
      (hnew : n.world.channel fd = none) (hch : w.channel fd = some ch) (hplain : Plain ch.sock) :
      Does listenFd n (.accepted fd) (carryUp { n with world := w, todo := es } fd)
  | idle {n : Net} {e : AeFiredEvent} {es : List AeFiredEvent} {w : World}
      (htodo : n.todo = e :: es) (he : e.fd = listenFd)
      (hrun : AeEventLoop.dispatchEntry World.host n.world e = .ok w)
      (hsame : w.channel = n.world.channel) :
      Does listenFd n .idle { n with world := w, todo := es }

/-! ## The net and its sessions -/

/-- What a connection that is or is not there has become, when at most its stream has changed. -/
def Restreamed (r r' : Option Channel) : Prop :=
  ∃ f : Channel → Sock, r' = r.map fun ch => { ch with sock := f ch }

/-- Carrying bytes up changes the streams alone. -/
theorem restreamed_carriedUp (up : Bytes) (r : Option Channel) :
    Restreamed r (carriedUp up r).2 :=
  ⟨fun ch => { ch.sock with inbox := ch.sock.inbox ++ up }, by cases r <;> rfl⟩

/-- Carrying bytes down changes the streams alone. -/
theorem restreamed_carriedDown (down : Bytes) (r : Option Channel) :
    Restreamed r (carriedDown down r).2 :=
  ⟨fun ch => { ch.sock with outbox := [] }, by cases r <;> rfl⟩

/-- What a client does changes the stream at most. -/
theorem SessionEvent.OfUser.restreamed {i : SessionEvent} (hi : i.OfUser) {F F' : Store}
    {x x' : Session} (h : Session.Does F x i F' x') : Restreamed x.channel x'.channel := by
  cases h with
  | accepted => exact hi.elim
  | refused => exact hi.elim
  | line => exact restreamed_carriedUp _ _
  | reported => exact hi.elim
  | reply => exact ⟨Channel.sock, by cases x.channel <;> rfl⟩

section Sessions

variable {n n' : Net} {listenFd fd : ℤ} {conn : ℤ → Option ℕ}

/-- The connections of a world in which one of them is put. -/
theorem channel_of_put {w w' : World} {r : Option Channel} {F : Store}
    (h : w'.channels = w.channels.put fd r F) (fd' : ℤ) :
    w'.channel fd' = Function.update w.channel fd r fd' :=
  congrArg (fun y => Family.part y fd') h

/-- A world in which the stream of one connection was put back. -/
theorem putChannel_channels {w : World} (h : Alive w listenFd conn) {r : Option Channel}
    (hr : Restreamed (w.channel fd) r) :
    (∃ conn', Alive (putChannel w fd r) listenFd conn') ∧
      (putChannel w fd r).channels = w.channels.put fd r w.sys.store := by
  obtain ⟨f, rfl⟩ := hr
  cases hch : w.channel fd with
  | none =>
      refine ⟨⟨conn, h⟩, ?_⟩
      have hsame := Family.put_same w.channels fd
      rw [show w.channels.part fd = none from hch] at hsame
      exact hsame.symm
  | some ch => exact h.setSock hch _

/-- **Putting a session back** puts it into the family. -/
theorem Net.sessions_put (n : Net) (fd : ℤ) (h : Alive n.world listenFd conn) {x : Session}
    (hx : Restreamed (n.world.channel fd) x.channel) :
    (∃ conn', Alive (n.put fd x).world listenFd conn') ∧
      (n.put fd x).sessions = n.sessions.put fd x n.world.sys.store := by
  obtain ⟨halive, hchannels⟩ := putChannel_channels h hx
  refine ⟨halive, ?_⟩
  ext1
  · funext fd'
    rw [Family.part_put]
    show ({ Function.update n.users fd x.toUser fd' with
      channel := (putChannel n.world fd x.channel).channel fd' } : Session) = _
    rw [channel_of_put hchannels]
    rcases eq_or_ne fd' fd with rfl | hne
    · rw [Function.update_self, Function.update_self, Function.update_self]
    · rw [Function.update_of_ne hne, Function.update_of_ne hne, Function.update_of_ne hne]
      rfl
  · have hstore := congrArg Family.store hchannels
    exact hstore

/-- The sessions of a net whose world has other connections. -/
theorem Net.sessions_world {w : World} {todo : List AeFiredEvent} {r : Option Channel}
    {F : Store} (h : w.channels = n.world.channels.put fd r F) :
    Net.sessions { n with world := w, todo } =
      n.sessions.put fd { n.session fd with channel := r } F := by
  ext1
  · funext fd'
    rw [Family.part_put]
    show ({ n.users fd' with channel := w.channel fd' } : Session) = _
    rw [channel_of_put h]
    rcases eq_or_ne fd' fd with rfl | hne
    · rw [Function.update_self, Function.update_self]
      rfl
    · rw [Function.update_of_ne hne, Function.update_of_ne hne]
      rfl
  · have hstore := congrArg Family.store h
    exact hstore

/-- The sessions see the world through its channels. -/
theorem Net.sessions_same {w : World} {todo : List AeFiredEvent}
    (h : w.channels = n.world.channels) :
    Net.sessions { n with world := w, todo } = n.sessions := by
  have hpart : w.channel = n.world.channel := congrArg Family.part h
  have hstore : w.sys.store = n.world.sys.store := congrArg Family.store h
  show (⟨fun fd => { n.users fd with channel := w.channel fd }, w.sys.store⟩ :
    Family ℤ Session Store) = _
  rw [hpart, hstore]
  rfl

/-- The connection `fd` became `r` and the store `F`, and its streams were carried on. -/
theorem Net.sessions_carried {w : World} (hw : Alive w listenFd conn) (todo : List AeFiredEvent)
    {r : Option Channel} {F : Store} (h : w.channels = n.world.channels.put fd r F)
    (carry : Session → Session) (hcarry : ∀ x, Restreamed x.channel (carry x).channel) :
    let n₁ : Net := { n with world := w, todo }
    (∃ conn', Alive (n₁.put fd (carry (n₁.session fd))).world listenFd conn') ∧
      (n₁.put fd (carry (n₁.session fd))).sessions =
        n.sessions.put fd (carry { n.session fd with channel := r }) F := by
  intro n₁
  have hsessions : n₁.sessions = n.sessions.put fd { n.session fd with channel := r } F :=
    Net.sessions_world h
  have hsession : n₁.session fd = { n.session fd with channel := r } :=
    (congrArg (fun y => Family.part y fd) hsessions).trans (Function.update_self _ _ _)
  have hstore : n₁.world.sys.store = F := congrArg Family.store hsessions
  obtain ⟨halive, hput⟩ := Net.sessions_put n₁ fd hw (hcarry (n₁.session fd))
  refine ⟨halive, ?_⟩
  rw [hput, hsessions, Family.put_put, hsession, hstore]

/-- **Every step of the net** is a run of the sessions, and the clients see the same. -/
theorem Net.Does.sessions (h : Alive n.world listenFd conn) {i : NetEvent}
    (hstep : Net.Does listenFd n i n') :
    (∃ conn', Alive n'.world listenFd conn') ∧
      ∃ os, Steps (Family.Step Session.Does) n.sessions os n'.sessions ∧
        os.flatMap (Occurrence.seen SessionEvent.observed) = i.observed := by
  cases hstep with
  | @user fd i x hi hdoes =>
      obtain ⟨halive, hput⟩ := Net.sessions_put n fd h (hi.restreamed hdoes)
      refine ⟨halive, [⟨fd, i, n.world.sys.store⟩], ?_, List.append_nil _⟩
      rw [hput]
      exact .single (.mk hdoes)
  | @polled batch k l htodo hpoll =>
      obtain ⟨-, halive, hchannels, -⟩ := h.poll hpoll
      refine ⟨⟨conn, halive⟩, [], ?_, rfl⟩
      rw [Net.sessions_same hchannels]
      exact .nil _
  | @reported e es w htodo he hrun =>
      obtain ⟨conn₁, h₁⟩ := h.dispatchEntry hrun
      obtain ⟨hlo, hhi⟩ := Server.inRange_of_dispatched h.fits.sized hrun
      obtain ⟨⟨F, r⟩, hreport, hfollows⟩ := (h.dispatchEntry_lockstep he hlo hhi).of_ok hrun
      obtain ⟨halive, hput⟩ := Net.sessions_carried h₁ es hfollows.channels
        Session.carryDown fun x => restreamed_carriedDown _ _
      refine ⟨halive, [⟨e.fd, .reported e.mask, n.world.sys.store⟩], ?_, rfl⟩
      exact (congrArg (Steps _ n.sessions _) hput).mpr (.single (.mk (.reported hreport)))
  | @accepted e es w fd ch htodo he hrun hnew hch hplain =>
      obtain ⟨conn₁, h₁⟩ := h.dispatchEntry hrun
      -- only the accepted connection can be new
      obtain ⟨k, s, rfl, hchannels⟩ : ∃ k s, ch = Channel.accepted n.world.sys.store k s ∧
          w.channels = n.world.channels.put fd (some ch) (n.world.sys.store.allocated 2) := by
        rcases h.listening_cases he hrun with hchannels | ⟨fd', -, hchannels | ⟨k, s, hchannels⟩⟩
        · have hsame : w.channel fd = n.world.channel fd :=
            congrArg (fun y => Family.part y fd) hchannels
          rw [hsame, hnew] at hch
          cases hch
        · rw [channel_of_put hchannels, Function.update_apply] at hch
          split_ifs at hch
          rw [hnew] at hch
          cases hch
        · rw [channel_of_put hchannels, Function.update_apply] at hch
          split_ifs at hch with hfd
          · obtain rfl := Option.some.inj hch
            exact ⟨k, s, rfl, hfd ▸ hchannels⟩
          · rw [hnew] at hch
            cases hch
      obtain ⟨halive, hput⟩ := Net.sessions_carried h₁ es hchannels
        Session.carryUp fun x => restreamed_carriedUp _ _
      refine ⟨halive, [⟨fd, .accepted, n.world.sys.store⟩], ?_, rfl⟩
      exact (congrArg (Steps _ n.sessions _) hput).mpr (.single (.mk (.accepted hnew hplain)))
  | @idle e es w htodo he hrun hsame =>
      obtain ⟨conn₁, h₁⟩ := h.dispatchEntry hrun
      refine ⟨⟨conn₁, h₁⟩, ?_⟩
      rcases h.listening_cases he hrun with
        hchannels | ⟨fd, hnone, hchannels | ⟨k, s, hchannels⟩⟩
      · rw [Net.sessions_same hchannels]
        exact ⟨[], .nil _, rfl⟩
      · refine ⟨[⟨fd, .refused, n.world.sys.store⟩], ?_, rfl⟩
        have hsession : ({ n.session fd with channel := none } : Session) = n.session fd := by
          rw [Net.session, hnone]
        rw [Net.sessions_world hchannels, hsession]
        exact .single (.mk (.refused hnone))
      · have hch := channel_of_put hchannels fd
        rw [hsame, hnone, Function.update_self] at hch
        cases hch

end Sessions

/-! ## Playing -/

/-- The choices that a run of the net leaves open. -/
inductive Move
  | line (fd : ℤ)
  | reply (fd : ℤ)
  | polled (batch : List EpollEvent)
  | reported
  | accepted (fd : ℤ)

/-- The next state after a move, when it is possible. Connections are accepted with a stream whose
scripts are empty. -/
def Net.next (listenFd : ℤ) (n : Net) : Move → Option Net
  | .line fd =>
    match (n.users fd).lines, (n.users fd).awaited with
    | line :: lines, none =>
      match beginLine (n.users fd).io (n.users fd).client line with
      | .ok (io, client, awaited) =>
        some (n.put fd (Session.carryUp { n.session fd with lines, awaited, io, client }))
      | .error _ => none
    | _, _ => none
  | .reply fd =>
    match (n.users fd).awaited with
    | some a =>
      match a.finish (n.users fd).io (n.users fd).client with
      | .ok (io, client) => some (n.put fd { n.session fd with awaited := none, io, client })
      | .error _ => none
    | none => none
  | .polled batch =>
    if n.todo.isEmpty then
      match n.world.sys.loop.poll batch with
      | .ok (k, l) =>
        some { n with world := World.host.withLoop n.world l, todo := l.fired.take k }
      | .error _ => none
    else none
  | .reported =>
    match n.todo with
    | e :: es =>
      if e.fd = listenFd then none
      else match AeEventLoop.dispatchEntry World.host n.world e with
        | .ok w => some (carryDown { n with world := w, todo := es } e.fd)
        | .error _ => none
    | [] => none
  | .accepted fd =>
    match n.todo with
    | e :: es =>
      if e.fd = listenFd ∧ n.world.channel fd = none then
        match AeEventLoop.dispatchEntry World.host n.world e with
        | .ok w =>
          match w.channel fd with
          | some ⟨_, ⟨[], [], [], [], [], _⟩, _⟩ =>
            some (carryUp { n with world := w, todo := es } fd)
          | _ => none
        | .error _ => none
      else none
    | [] => none

/-- A move is a step of the net. -/
theorem Net.does_of_next {n n' : Net} {listenFd : ℤ} {m : Move}
    (h : n.next listenFd m = some n') : ∃ i, Net.Does listenFd n i n' := by
  cases m with
  | line fd =>
      rw [Net.next] at h
      split at h
      · rename_i line lines hlines hidle
        split at h
        · rename_i io client awaited hrun
          obtain rfl := Option.some.inj h
          exact ⟨_, .user (i := .line _) trivial (.line hlines hidle hrun)⟩
        · cases h
      · cases h
  | reply fd =>
      rw [Net.next] at h
      split at h
      · rename_i a hawaited
        split at h
        · rename_i io client hrun
          obtain rfl := Option.some.inj h
          exact ⟨_, .user (i := .reply) trivial (.reply hawaited hrun)⟩
        · cases h
      · cases h
  | polled batch =>
      rw [Net.next] at h
      split_ifs at h with htodo
      split at h
      · rename_i k l hpoll
        obtain rfl := Option.some.inj h
        exact ⟨_, .polled (List.isEmpty_iff.mp htodo) hpoll⟩
      · cases h
  | reported =>
      rw [Net.next] at h
      split at h
      · rename_i e es htodo
        split_ifs at h with he
        split at h
        · rename_i w hrun
          obtain rfl := Option.some.inj h
          exact ⟨_, .reported htodo he hrun⟩
        · cases h
      · cases h
  | accepted fd =>
      rw [Net.next] at h
      split at h
      · rename_i e es htodo
        split_ifs at h with he
        split at h
        · rename_i w hrun
          split at h
          · rename_i client heads writing hch
            obtain rfl := Option.some.inj h
            exact ⟨_, .accepted htodo he.1 hrun he.2 hch
              ⟨rfl, rfl, by simp, by simp [Sock.Steady], by simp [Sock.Willing]⟩⟩
          · cases h
        · cases h
      · cases h

/-- Moves make a run. -/
theorem Net.steps_of_moves {n n' : Net} {listenFd : ℤ} {ms : List Move}
    (h : ms.foldlM (Net.next listenFd) n = some n') : ∃ es, Steps (Net.Does listenFd) n es n' := by
  induction ms generalizing n with
  | nil =>
      cases h
      exact ⟨[], .nil _⟩
  | cons m ms ih =>
      rw [List.foldlM_cons, Option.bind_eq_bind, Option.bind_eq_some_iff] at h
      obtain ⟨n₁, hnext, hrest⟩ := h
      obtain ⟨i, hstep⟩ := Net.does_of_next hnext
      obtain ⟨es, hsteps⟩ := ih hrest
      exact ⟨i :: es, .cons hstep hsteps⟩

/-! ## Runs -/

/-- The server has just been started, and so have the clients. -/
structure Net.Starts (listenFd : ℤ) (n : Net) : Prop where
  init : ∃ env maxClientCount ctl r, World.init env maxClientCount
    (some (.create maxClientCount ctl)) listenFd = .ok (r, n.world) ∧ r ≠ aeErr
  small : Holds Small n.world.sys.files
  users : ∀ fd, (n.users fd).Starts

/-- What the net is for: its clients are the customers, on the server's files. -/
def Net.service (n : Net) : Family ℤ Customer Files :=
  ⟨fun fd => (n.users fd).customer, n.world.sys.files⟩

section Runs

variable {n n' : Net} {listenFd : ℤ} {es : List NetEvent}

/-- A net that was just started stands where its service starts. -/
theorem Net.Starts.follows (h : n.Starts listenFd) :
    (∃ conn, Alive n.world listenFd conn) ∧
      ∀ fd, Follows (n.session fd) (n.service.part fd) := by
  obtain ⟨env, maxClientCount, ctl, r, hinit, hr⟩ := h.init
  have halive := Alive.init hinit hr
  refine ⟨⟨_, halive⟩, fun fd => ?_⟩
  have hnone : n.world.channel fd = none := by
    by_contra hsome
    obtain ⟨ch, hch⟩ := Option.ne_none_iff_exists'.mp hsome
    obtain ⟨-, p, hp, -⟩ := halive.shows hch
    cases hp
  have hfollows := (h.users fd).follows
  rwa [← hnone] at hfollows

/-- In runs of the net the server agrees with the life of its connections. -/
theorem Net.alive_of_steps (h : ∃ conn, Alive n.world listenFd conn)
    (hrun : Steps (Net.Does listenFd) n es n') : ∃ conn, Alive n'.world listenFd conn :=
  hrun.invariant (I := fun n => ∃ conn, Alive n.world listenFd conn)
    (fun _ _ _ hinv hstep => by
      obtain ⟨conn, hconn⟩ := hinv
      exact (Net.Does.sessions hconn hstep).1) h

/-- The run `fs` of the service to `z` is what the run `es` of the net from `n` to `n'` comes to:
the clients see the same, one after the other, and in the end the files are the same everywhere and
the requests on their way are those that were not carried out. -/
structure ServiceRun (n : Net) (es : List NetEvent) (n' : Net)
    (fs : List (Occurrence ℤ ServiceEvent Files)) (z : Family ℤ Customer Files) : Prop where
  steps : Steps (Family.Step Customer.Does) n.service fs z
  observed : fs.flatMap (Occurrence.seen ServiceEvent.observed) = es.flatMap NetEvent.observed
  store : z.store = n'.world.sys.files
  lines : ∀ fd, (z.part fd).lines = (n'.users fd).lines
  pending : ∀ fd, (z.part fd).pending = n'.pending fd
  awaited : ∀ fd, (z.part fd).awaited = (n'.users fd).awaited
  files : ∀ fd, (z.part fd).files = (n'.users fd).io.files
  printed : ∀ fd, (z.part fd).printed = (n'.users fd).client.stdout

/-- A run of the net comes to one of the service, and stands where it stands. -/
theorem Net.Starts.serviceRun (h : n.Starts listenFd)
    (hrun : Steps (Net.Does listenFd) n es n') :
    ∃ fs z, ServiceRun n es n' fs z ∧ Holds Small n'.world.sys.files ∧
      ∀ fd, Follows (n'.session fd) (z.part fd) := by
  obtain ⟨halive, hfollows⟩ := h.follows
  obtain ⟨-, os, hos, hobs⟩ := hrun.refines Net.sessions NetEvent.observed
    (Occurrence.seen SessionEvent.observed) (I := fun n => ∃ conn, Alive n.world listenFd conn)
    (fun _ _ _ hinv hstep => by
      obtain ⟨conn, hconn⟩ := hinv
      exact Net.Does.sessions hconn hstep) halive
  obtain ⟨fs, z, hfs, hobs', hstore, hsmall, hparts⟩ := sessions_refine hos (z := n.service) rfl
    h.small hfollows
  exact ⟨fs, z, ⟨hfs, hobs'.trans hobs, hstore, fun fd => (hparts fd).lines.symm,
    fun fd => (hparts fd).pending.symm, fun fd => (hparts fd).awaited.symm,
    fun fd => (hparts fd).files.symm, fun fd => (hparts fd).printed.symm⟩, hsmall, hparts⟩

/-- A client process that was just started, with the files `files` and the lines `lines`. -/
def User.fresh (files : Files) (lines : List Bytes) : User where
  lines
  io := { sock := {}, files }
  client := Client.ClientT.create (fun _ => 0) (fun _ => 0)

/-- A fresh client starts when its lines name no files with blanks, and its files are small. -/
theorem User.fresh_starts {files : Files} {lines : List Bytes}
    (hclear : ∀ line ∈ lines, ∀ name ∈ ArgT.process line, blank ∉ name)
    (hsmall : Holds Small files) : (User.fresh files lines).Starts where
  awaited := rfl
  inbox := rfl
  outbox := rfl
  willing := by simp [User.fresh, Sock.Willing]
  steady := by simp [User.fresh, Sock.Steady]
  wSize := Client.size_wBuffer_create _ _
  rSize := Client.size_rBuffer_create _ _
  clear line hline _ name hargs _ := hclear line hline name (by rw [hargs]; simp)
  small := hsmall

/-- Without files every content is allowed. -/
theorem holds_empty (C : Set Bytes) : Holds C Files.empty := fun _ _ h => by cases h

/-- The client at 5 has a file to send, and the one at 4 wants to have it. -/
def uploadingUsers : ℤ → User := fun fd =>
  if fd = 5 then
    .fresh (Files.empty.put (text "client-a") (text "hello")) [text "file_send client-a"]
  else .fresh .empty [text "ping", text "file_recv client-a"]

def uploadingEnv : World.Env where
  files := .empty
  accepts := [⟨4, 0, {}⟩, ⟨5, 1, {}⟩]

/-- The client at 5 types before it is accepted. In one batch the other one gets its `pong.` and the
upload is read; then the other one asks for the file. -/
def uploadingMoves : List Move :=
  [.line 5, .polled [⟨epollIn, 3⟩], .accepted 4, .line 4, .polled [⟨epollIn, 3⟩, ⟨epollIn, 4⟩],
    .accepted 5, .reported, .polled [⟨epollOut, 4⟩, ⟨epollIn, 5⟩], .reported, .reported, .reply 4,
    .line 4]

/-- The one file of the example. -/
theorem uploading_holds (fd : ℤ) : Holds {text "hello"} (uploadingUsers fd).io.files := by
  rw [uploadingUsers]
  split_ifs
  · exact (holds_empty _).put _ rfl
  · exact holds_empty _

/-- The clients of the example are fresh ones. -/
theorem uploading_starts (fd : ℤ) : (uploadingUsers fd).Starts := by
  have hsmall : Holds Small (uploadingUsers fd).io.files := fun name content hdata => by
    obtain rfl : content = text "hello" := uploading_holds fd name content hdata
    show (text "hello").length < 2 ^ 63
    decide
  rw [uploadingUsers] at hsmall ⊢
  split_ifs at hsmall ⊢
  · exact User.fresh_starts (by decide +kernel) hsmall
  · exact User.fresh_starts (by decide +kernel) hsmall

/-- The file is stored at the server, and the client at 4 waits for it. -/
structure Uploaded (n : Net) : Prop where
  todo : n.todo = []
  stored : n.world.sys.files.data (text "a") = some { bytes := text "hello" }
  printed : (n.users 4).client.stdout = text "pong." ++ [10]
  awaited : (n.users 4).awaited = some (.file (text "client-a"))
  opens : (n.users 4).io.files.canWrite (text "client-a") = true
  pending : n.pending 4 = [.fileRecv (text "client-a")]
  served : n.pending 5 = []
  connected : ∀ fd ∈ [4, 5], (n.world.channel fd).isSome = true

set_option synthInstance.maxSize 512 in
/-- The run in which the client at 5 uploads the file and the one at 4 asks for it. -/
theorem uploading_runs : ∃ n n' es, n.Starts 3 ∧ Steps (Net.Does 3) n es n' ∧
    n.users = uploadingUsers ∧ n.world.sys.files = .empty ∧ Uploaded n' := by
  have hplay : ((World.init uploadingEnv 8 (some (.create 8 [])) 3).toOption.bind fun r =>
      (uploadingMoves.foldlM (Net.next 3) ⟨r.2, [], uploadingUsers⟩).map fun n =>
        ((r.1, n.todo, n.world.sys.files.data (text "a")),
          ((n.users 4).client.stdout, (n.users 4).awaited,
            (n.users 4).io.files.canWrite (text "client-a")),
          (n.pending 4, n.pending 5),
          ((n.world.channel 4).isSome, (n.world.channel 5).isSome))) =
      some ((0, [], some { bytes := text "hello" }),
        (text "pong." ++ [10], some (.file (text "client-a")), true),
        ([.fileRecv (text "client-a")], []), (true, true)) := by decide +kernel
  rw [Option.bind_eq_some_iff] at hplay
  obtain ⟨⟨r, w⟩, hinit, hmap⟩ := hplay
  rw [Option.map_eq_some_iff] at hmap
  obtain ⟨n', hmoves, hend⟩ := hmap
  simp only [Prod.mk.injEq] at hend
  obtain ⟨⟨rfl, htodo, hstored⟩, ⟨hprinted, hwait, hopens⟩, ⟨hpending, hserved⟩, h4, h5⟩ := hend
  have hinit : World.init uploadingEnv 8 (some (.create 8 [])) 3 = .ok (0, w) := by
    cases h : World.init uploadingEnv 8 (some (.create 8 [])) 3 with
    | error e =>
        rw [h] at hinit
        cases hinit
    | ok x =>
        rw [h] at hinit
        exact congrArg _ (Option.some.inj hinit)
  have hfiles : w.sys.files = .empty := Server.World.init_files hinit
  obtain ⟨es, hsteps⟩ := Net.steps_of_moves hmoves
  refine ⟨⟨w, [], uploadingUsers⟩, n', es,
    ⟨⟨_, _, _, _, hinit, by decide⟩, ?_, uploading_starts⟩, hsteps, rfl, hfiles,
    ⟨htodo, hstored, hprinted, hwait, hopens, hpending, hserved, ?_⟩⟩
  · rw [hfiles]
    exact holds_empty _
  · intro fd hfd
    simp only [List.mem_cons, List.not_mem_nil, or_false] at hfd
    rcases hfd with rfl | rfl
    · exact h4
    · exact h5

end Runs

end AsprNet.System
