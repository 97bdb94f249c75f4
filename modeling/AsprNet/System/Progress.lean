import AsprNet.System.Net

/-! # What stops the net, and what does not

A report stops the server exactly when the connection is readable and its next request cannot be
carried out (`report_returns_iff`). Nothing else stands between a client that waits and its reply:
when its requests can be carried out one after the other, the loop comes to them, and the reply
comes to the client (`replies_arrive`).
-/

namespace AsprNet.System

open Client (Sending Awaited)
open Server (World Store Channel Alive taken)

variable {n n' : Net} {listenFd fd : ℤ} {es : List NetEvent} {conn : ℤ → Option ℕ}

/-! ## Reports -/

/-- A report of a connection in the net is one of its channel. -/
theorem report_iff_channel (h : Alive n.world listenFd conn) {e : AeFiredEvent} {ch : Channel}
    (hch : n.world.channel e.fd = some ch) :
    (∃ w, AeEventLoop.dispatchEntry World.host n.world e = .ok w) ↔
      ∃ r, Channel.report n.world.sys.store e.mask (some ch) = .ok r := by
  obtain ⟨hne, -⟩ := h.shows hch
  obtain ⟨hlo, hhi⟩ := h.inRange hch
  have hlock := h.dispatchEntry_lockstep hne hlo hhi
  rw [hch] at hlock
  constructor
  · rintro ⟨w, hrun⟩
    obtain ⟨r, hr, -⟩ := hlock.of_ok hrun
    exact ⟨r, hr⟩
  · rintro ⟨r, hr⟩
    obtain ⟨w, hw, -⟩ := hlock.symm.of_ok hr
    exact ⟨w, hw⟩

/-- **What stops the server.** The handlers return from a report of a connection exactly when it is
not readable, or a request of its client is on the way, and the first of these can be carried out
on the files: a file to be sent exists, a file to be stored can be opened. -/
theorem report_returns_iff (h : n.Starts listenFd) (hrun : Steps (Net.Does listenFd) n es n')
    (e : AeFiredEvent) (hconnected : (n'.world.channel e.fd).isSome = true) :
    (∃ w, AeEventLoop.dispatchEntry World.host n'.world e = .ok w) ↔
      (e.mask.has aeReadable = true → ∃ q qs b, n'.pending e.fd = q :: qs ∧
        q.Answers n'.world.sys.files b) := by
  obtain ⟨fs, z, hz, -, hfollows⟩ := h.serviceRun hrun
  obtain ⟨conn, halive⟩ := Net.alive_of_steps h.follows.1 hrun
  obtain ⟨ch, hch⟩ := Option.isSome_iff_exists.mp hconnected
  have hbetween := (hfollows e.fd).between
  rw [show (n'.session e.fd).channel = some ch from hch] at hbetween
  cases hbetween with
  | served hup hstands =>
      rw [report_iff_channel halive hch, ← hz.pending]
      exact hstands.report_ok_iff (hfollows e.fd).formed (hfollows e.fd).sent e.mask

/-- The client at 4 has asked for a file that there is, and the one at 5 was served: a report of the
first is handled, and one of the second is not. -/
theorem report_returns_iff_uploading : ∃ n' : Net, Uploaded n' ∧
    (∃ w, AeEventLoop.dispatchEntry World.host n'.world ⟨4, aeReadable⟩ = .ok w) ∧
    ¬∃ w, AeEventLoop.dispatchEntry World.host n'.world ⟨5, aeReadable⟩ = .ok w := by
  obtain ⟨n, n', es, hstarts, hrun, -, -, hend⟩ := uploading_runs
  refine ⟨n', hend, ?_, fun hreturns => ?_⟩
  · refine (report_returns_iff hstarts hrun ⟨4, aeReadable⟩ (hend.connected 4 (by decide))).mpr
      fun _ => ⟨_, [], some (text "hello"), hend.pending, text "hello", ?_, rfl⟩
    have hname : Server.fileName (text "client-a") = text "a" := by decide
    rw [hname]
    exact hend.stored
  · obtain ⟨q, qs, -, hpending, -⟩ := (report_returns_iff hstarts hrun ⟨5, aeReadable⟩
      (hend.connected 5 (by decide))).mp hreturns (by decide)
    rw [hend.served] at hpending
    cases hpending

/-! ## Replies arrive -/

/-- The net between two batches, when `c` stands for the client at `fd`. -/
structure Net.Rests (listenFd fd : ℤ) (n : Net) (c : Customer) : Prop where
  alive : ∃ conn, Alive n.world listenFd conn
  todo : n.todo = []
  small : Holds Small n.world.sys.files
  connected : (n.world.channel fd).isSome = true
  follows : Follows (n.session fd) c

/-- The kernel reports one event. -/
theorem Net.poll_one (h : Alive n.world listenFd conn) (htodo : n.todo = []) (hlo : 0 ≤ fd)
    (hhi : fd < n.world.sys.loop.fdsetSize) (events : Mask) :
    ∃ n₁, Net.Does listenFd n (.polled [⟨events, fd⟩]) n₁ ∧
      n₁.todo = [AeEventLoop.firedOf ⟨events, fd⟩] ∧ Alive n₁.world listenFd conn ∧
      n₁.sessions = n.sessions := by
  obtain ⟨k, l, hpoll⟩ := h.poll_returns [⟨events, fd⟩]
  obtain ⟨htaken, halive, hchannels, -⟩ := h.poll hpoll
  refine ⟨_, .polled htodo hpoll, ?_, halive, Net.sessions_same hchannels⟩
  obtain ⟨size, hsize⟩ := Int.eq_ofNat_of_zero_le (hlo.trans hhi.le)
  show l.fired.take k = _
  rw [htaken, taken, hsize, Int.toNat_natCast, List.take_of_length_le]
  · rfl
  · rw [List.length_singleton]
    omega

/-- The loop handles one event of a connection. -/
theorem Net.report_one (h : Alive n.world listenFd conn) {e : AeFiredEvent} (htodo : n.todo = [e])
    {ch : Channel} (hch : n.world.channel e.fd = some ch) {F : Store} {r : Option Channel}
    (hrep : Channel.report n.world.sys.store e.mask (some ch) = .ok (F, r)) :
    ∃ n₁, Net.Does listenFd n .reported n₁ ∧ n₁.todo = [] ∧
      (∃ conn', Alive n₁.world listenFd conn') ∧
      n₁.sessions =
        n.sessions.put e.fd (Session.carryDown { n.session e.fd with channel := r }) F := by
  obtain ⟨hne, -⟩ := h.shows hch
  obtain ⟨hlo, hhi⟩ := h.inRange hch
  have hlock := h.dispatchEntry_lockstep hne hlo hhi
  rw [hch] at hlock
  obtain ⟨w, hrun, hfollows⟩ := hlock.symm.of_ok hrep
  obtain ⟨conn₁, h₁⟩ := h.dispatchEntry hrun
  obtain ⟨halive, hput⟩ := Net.sessions_carried h₁ [] hfollows.channels
    Session.carryDown fun x => restreamed_carriedDown _ _
  exact ⟨_, .reported htodo hne hrun, rfl, halive, hput⟩

/-- **A batch of one event.** The kernel reports `events` for a connection, and the loop handles
them. -/
theorem Net.Rests.report {c : Customer} (h : n.Rests listenFd fd c) {events : Mask} {mask : Mask}
    (hmask : AeEventLoop.firedOf ⟨events, fd⟩ = ⟨fd, mask⟩)
    (hcan : mask.has aeReadable = true →
      ∃ q qs b, c.pending = q :: qs ∧ q.Answers n.world.sys.files b) :
    ∃ n₂ c₂, Steps (Net.Does listenFd) n [.polled [⟨events, fd⟩], .reported] n₂ ∧
      n₂.Rests listenFd fd c₂ ∧ c.Served n.world.sys.files n₂.world.sys.files c₂ ∧
      (mask.has aeReadable = true →
        ∃ q, Customer.Does n.world.sys.files c (.serve q) n₂.world.sys.files c₂) ∧
      (mask.has aeWritable = true → ∀ ch, n₂.world.channel fd = some ch → ch.writing = false) := by
  obtain ⟨conn, halive⟩ := h.alive
  obtain ⟨ch, hch⟩ := Option.isSome_iff_exists.mp h.connected
  have hsession : (n.session fd).channel = some ch := hch
  obtain ⟨hlo, hhi⟩ := halive.inRange hch
  obtain ⟨n₁, hpolled, htodo₁, halive₁, hsessions₁⟩ := Net.poll_one halive h.todo hlo hhi events
  have hch₁ : n₁.session fd = n.session fd := congrArg (fun y => Family.part y fd) hsessions₁
  have hstore₁ : n₁.world.sys.store = n.world.sys.store := congrArg Family.store hsessions₁
  -- what the report does to the channel
  obtain ⟨⟨F, r⟩, hrep⟩ : ∃ r, Channel.report n.world.sys.store mask (some ch) = .ok r := by
    have hbetween := h.follows.between
    rw [hsession] at hbetween
    cases hbetween with
    | served hup hstands =>
        exact (hstands.report_ok_iff h.follows.formed h.follows.sent mask).mpr hcan
  obtain ⟨c₂, hserved, hreported, hfollows⟩ := h.follows.reported h.small
    (show Channel.report n.world.sys.store mask (n.session fd).channel = _ by
      rw [hsession]
      exact hrep)
  obtain ⟨hreadable, ch₂, rfl, hwritable⟩ := hreported h.connected
  -- and to the net
  rw [hmask] at htodo₁
  obtain ⟨n₂, hstep, htodo₂, halive₂, hsessions₂⟩ := Net.report_one halive₁ htodo₁
    (congrArg Session.channel hch₁ |>.trans hsession) (hstore₁ ▸ hrep)
  rw [hsessions₁, hch₁] at hsessions₂
  have hsession₂ : n₂.session fd = Session.carryDown { n.session fd with channel := some ch₂ } :=
    (congrArg (fun y => Family.part y fd) hsessions₂).trans (Function.update_self _ _ _)
  have hstore₂ : n₂.world.sys.store = F := congrArg Family.store hsessions₂
  have hch₂ : n₂.world.channel fd = some { ch₂ with sock := { ch₂.sock with outbox := [] } } :=
    congrArg Session.channel hsession₂
  have hfiles₂ : n₂.world.sys.files = F.files := congrArg Store.files hstore₂
  rw [← hfiles₂] at hserved hreadable
  refine ⟨n₂, c₂, .cons hpolled (.single hstep), ⟨halive₂, htodo₂, ?_, ?_, ?_⟩, hserved, hreadable,
    ?_⟩
  · exact (hserved.holding h.small h.follows.formed h.follows.small).1
  · rw [hch₂]
    rfl
  · rw [hsession₂]
    exact hfollows
  · intro hm ch' hch'
    obtain rfl := Option.some.inj (hch₂.symm.trans hch')
    exact hwritable hm

/-- Room for output is reported as writable. -/
theorem firedOf_epollOut (fd : ℤ) : AeEventLoop.firedOf ⟨epollOut, fd⟩ = ⟨fd, aeWritable⟩ :=
  congrArg (AeFiredEvent.mk fd)
    (show (AeEventLoop.firedOf ⟨epollOut, 0⟩).mask = aeWritable by decide)

/-- **The reply comes to the client**, and the client takes it. -/
theorem Net.Rests.replied {c : Customer} (h : n.Rests listenFd fd c) (hnil : c.pending = [])
    {a : Awaited} (hwait : c.awaited = some a) (hopen : a.Opens c.files) :
    ∃ n₂ es, Steps (Net.Does listenFd) n es n₂ ∧ (n₂.users fd).awaited = none := by
  obtain ⟨n₁, c₁, hsteps, hrests, hserved, -, hidle⟩ := h.report (firedOf_epollOut fd)
    fun hm => absurd hm (by decide)
  -- there was nothing to carry out
  obtain rfl : c₁ = c := by
    rcases hserved with ⟨-, hc⟩ | ⟨q, hstep⟩
    · exact hc
    · obtain ⟨qs, b, hpending, -⟩ := hstep.of_serve
      rw [hnil] at hpending
      cases hpending
  obtain ⟨ch, hch⟩ := Option.isSome_iff_exists.mp hrests.connected
  have hfollows := hrests.follows
  have hbetween := hfollows.between
  rw [show (n₁.session fd).channel = some ch from hch] at hbetween
  have hin : ∃ b, c₁.answer = some b ∧
      (n₁.session fd).io.sock.inbox = (a.packages b).flatMap (frame headSize) := by
    cases hbetween with
    | served hup hstands =>
        have hheld := hstands.held
        rcases hfollows.formed.waiting a hwait with ⟨-, us, q, hsplit, -⟩ | ⟨-, b, hans, -⟩
        · rw [hnil] at hsplit
          simp at hsplit
        · rw [hidle (by decide) ch hch, hwait, hans] at hheld
          generalize hb : (n₁.session fd).io.sock.inbox = inbox at hheld
          generalize ch.client.queued = queued at hheld
          cases hheld
          exact ⟨b, hans, rfl⟩
  obtain ⟨b, hans, hin⟩ := hin
  rw [← hfollows.files] at hopen
  rw [← List.append_nil (List.flatMap _ _)] at hin
  obtain ⟨io, client, hfinish, -⟩ := Client.finish_finished hfollows.ready.steady
    hfollows.ready.rSize (hfollows.formed.takes hfollows.small hwait hans) hopen hin
  have hreply : Net.Does listenFd n₁ (.user fd .reply) _ :=
    .user trivial (.reply (hfollows.awaited.trans hwait) hfinish)
  refine ⟨_, _, hsteps.append (.single hreply), ?_⟩
  show (Function.update n₁.users fd _ fd).awaited = none
  rw [Function.update_self]

end AsprNet.System
