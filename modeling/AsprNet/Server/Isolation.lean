import AsprNet.Server.Channels

/-! # Whole runs of the server, connection by connection

The steps of `AsprNet.Server.Channels`, put together: a run of the loop from any reachable state is
a run of the family of connections (`channels_refine`). What the server does to a connection, the
connection does alone (`connections_isolated`), and the server halts only where one connection does
(`halts_iff`).
-/

namespace AsprNet.Server

/-! ## New connections -/

/-- The report that an occurrence is. -/
def reportOf (o : Occurrence ℤ ChannelEvent Store) : Option AeFiredEvent :=
  match o.event with
  | .reported mask => some ⟨o.key, mask⟩
  | _ => none

/-- The reports of the connection `fd` are its own part of all reports. -/
theorem reportOf_own (os : List (Occurrence ℤ ChannelEvent Store)) (fd : ℤ) :
    (((os.filter fun o => o.key = fd).map Occurrence.own).filterMap
        fun e => reportOf ⟨fd, e.1, e.2⟩) = (os.filterMap reportOf).filter (·.fd = fd) := by
  induction os with
  | nil => rfl
  | cons o os ih =>
      obtain ⟨k, e, F⟩ := o
      by_cases hk : k = fd
      · subst hk
        rw [List.filter_cons_of_pos (by simp), List.map_cons]
        cases e with
        | reported mask => simpa [reportOf, Occurrence.own] using ih
        | accepted fd' s => exact ih
        | refused => exact ih
      · rw [List.filter_cons_of_neg (by simpa using hk), ih]
        cases e with
        | reported mask => simp [reportOf, hk]
        | accepted fd' s => rfl
        | refused => rfl

/-- What the family does for the fired events: one report for each of a connection, in their order,
and at most one new connection for each of the listening descriptor. -/
inductive Handled (listenFd : ℤ) :
    List AeFiredEvent → List (Occurrence ℤ ChannelEvent Store) → Prop
  | nil : Handled listenFd [] []
  | reported {e : AeFiredEvent} {es : List AeFiredEvent} {F : Store}
      {os : List (Occurrence ℤ ChannelEvent Store)} (he : e.fd ≠ listenFd)
      (h : Handled listenFd es os) :
      Handled listenFd (e :: es) (⟨e.fd, .reported e.mask, F⟩ :: os)
  | idle {e : AeFiredEvent} {es : List AeFiredEvent}
      {os : List (Occurrence ℤ ChannelEvent Store)} (he : e.fd = listenFd)
      (h : Handled listenFd es os) : Handled listenFd (e :: es) os
  | opened {e : AeFiredEvent} {es : List AeFiredEvent} {o : Occurrence ℤ ChannelEvent Store}
      {os : List (Occurrence ℤ ChannelEvent Store)} (he : e.fd = listenFd)
      (hm : e.mask.has aeReadable = true) (ho : reportOf o = none)
      (h : Handled listenFd es os) : Handled listenFd (e :: es) (o :: os)

namespace Handled

variable {listenFd : ℤ} {es es' : List AeFiredEvent}
  {os os' : List (Occurrence ℤ ChannelEvent Store)}

/-- What two batches handle, in turn. -/
theorem append (h : Handled listenFd es os) (h' : Handled listenFd es' os') :
    Handled listenFd (es ++ es') (os ++ os') := by
  induction h with
  | nil => exact h'
  | reported he _ ih => exact .reported he ih
  | idle he _ ih => exact .idle he ih
  | opened he hm ho _ ih => exact .opened he hm ho ih

/-- No report is lost, made up, repeated or moved. -/
theorem reports (h : Handled listenFd es os) :
    os.filterMap reportOf = es.filter (·.fd ≠ listenFd) := by
  induction h with
  | nil => rfl
  | reported he _ ih => simp [reportOf, he, ih]
  | idle he _ ih => simp [he, ih]
  | opened he _ ho _ ih => simp [he, ho, ih]

end Handled

section Runs

variable {w w' : World} {listenFd fd : ℤ} {conn : ℤ → Option ℕ} {p : ℕ}

/-- `add_file_event` returns. -/
theorem addFileEvent_returns {l : AeEventLoop EventProc ClientData} (h : l.Fits) (hlo : 0 ≤ fd)
    (hapi : ∃ s, l.apiData = some s) (mask : Mask) (proc : EventProc) (data : ClientData) :
    ∃ r l', l.addFileEvent fd mask proc data = .ok (r, l') := by
  obtain ⟨s, hs⟩ := hapi
  rcases lt_or_ge fd l.fdsetSize with hlt | hge
  · exact ⟨_, _, AeEventLoop.addFileEvent_of_lt h.sized hlo hlt hs mask proc data⟩
  · exact ⟨_, _, AeEventLoop.addFileEvent_of_le hge mask proc data⟩

/-- **`accept_tcp_handler`** returns, and adds at most one connection to the family. -/
theorem Alive.accept_steps (h : Alive w listenFd conn) :
    ∃ w' es, w.acceptTcpHandler = .ok w' ∧ w'.sys.loop.fdsetSize = w.sys.loop.fdsetSize ∧
      Steps (Family.Step Channel.Does) w.channels es w'.channels ∧
      (es = [] ∨ ∃ o, es = [o] ∧ reportOf o = none) := by
  rw [World.acceptTcpHandler]
  cases haccepts : w.sys.accepts with
  | nil => exact ⟨w, [], rfl, rfl, .nil _, Or.inl rfl⟩
  | cons a rest =>
      dsimp only
      split_ifs with hfree
      · exact ⟨_, [], rfl, rfl, .nil w.channels, Or.inl rfl⟩
      · obtain ⟨hsock, hheap⟩ := not_or.mp hfree
        have hheap : w.heap a.addr = none := by simpa using hheap
        obtain ⟨hne, -, hpair, hmask⟩ := h.unused hsock hheap
        have hpart : w.channels.part a.fd = none := World.channel_of_mask hmask
        have h0 : (0 : ℤ) ≤ a.fd := Int.natCast_nonneg _
        obtain ⟨r, l, hadd⟩ := addFileEvent_returns h.fits h0 h.api aeReadable .readEvent
          (.client a.addr)
        obtain ⟨s, hs⟩ := h.api
        have halt := h.fits.add h0 hs hadd
        have hsocks : ∀ fd' : ℤ, fd' ≠ a.fd →
            Function.update w.sys.socks a.fd (some a.sock) fd' = w.sys.socks fd' :=
          fun fd' hne' => Function.update_of_ne hne' _ _
        simp only [Sys.addFileEvent, Sys.setSock, Sys.note, hadd, ok_bind, pure_bind]
        rcases register_readable h.fits ⟨s, hs⟩ h0 hmask hadd with ⟨hr, hnone⟩ | ⟨hr, hreg⟩
        · -- no room in the table, or the kernel refused: the new client is deleted
          obtain ⟨sys', hdel, hstore⟩ := @ClientT.delete_store
            { w.sys with
              loop := l
              socks := Function.update w.sys.socks a.fd (some a.sock)
              junk := fun i => w.sys.junk (i + 2)
              accepts := rest
              trace := w.sys.trace ++ [.accepted a.fd a.addr] }
            (Channel.accepted w.sys.store a.fd a.sock).client rfl h0 halt.fits halt.api
          have hgone := delete_gone rfl h0 halt.fits halt.api
            (show Mask.Within (l.entry a.fd).mask aeBoth by rw [hnone]; decide) hdel
          have ht : Touches w.sys sys' a.fd := Touches.trans ⟨halt, hsocks⟩ hgone.toTouches
          have hput := h.channels_put hpair (x := (sys', none))
            (y := (w.sys.store.allocated 2, none)) ⟨hstore, rfl, by simp⟩ ht fun _ => hgone.mask
          rw [← hheap, Function.update_eq_self] at hput
          rw [if_pos hr]
          refine ⟨⟨sys', w.heap⟩, [⟨a.fd, .refused, w.sys.store⟩], ?_, ht.loop.size, ?_,
            Or.inr ⟨_, rfl, rfl⟩⟩
          · exact congrArg (fun x => x >>= fun sys => .ok { w with sys }) hdel
          · rw [hput]
            refine .single (.mk ?_)
            rw [hpart]
            exact .refused _
        · have ht : Touches w.sys { w.sys with
              loop := l
              socks := Function.update w.sys.socks a.fd (some a.sock)
              junk := fun i => w.sys.junk (i + 2)
              accepts := rest
              trace := w.sys.trace ++ [.accepted a.fd a.addr] } a.fd := ⟨halt, hsocks⟩
          have hput := h.channels_put hpair
            (x := (_, some (Channel.accepted w.sys.store a.fd a.sock).client))
            (y := (w.sys.store.allocated 2, some (Channel.accepted w.sys.store a.fd a.sock)))
            ⟨rfl, rfl, fun ch hch => by
              cases hch
              exact ⟨hreg, Function.update_self _ _ _⟩⟩ ht (by simp)
          rw [if_neg hr]
          refine ⟨_, [⟨a.fd, .accepted a.fd a.sock, w.sys.store⟩], rfl, ht.loop.size, ?_,
            Or.inr ⟨_, rfl, rfl⟩⟩
          refine (congrArg (Steps _ w.channels _) hput).mpr (.single (.mk ?_))
          rw [hpart]
          exact .accepted _ _ _

/-- The write half does nothing at the listening descriptor. -/
theorem Alive.writeHalf_listening (h : Alive w listenFd conn) {e : AeFiredEvent} (rfired : Bool)
    (he : e.fd = listenFd) : AeEventLoop.writeHalf World.host e rfired w = .ok w := by
  have hreg : (w.sys.loop.entry listenFd).mask ≠ aeNone := by
    rw [h.listening]
    decide
  obtain ⟨hlo, hhi⟩ := h.fits.sized.lt_of_mask hreg
  rw [AeEventLoop.writeHalf]
  show (w.sys.loop.event e.fd >>= _) = _
  rw [he, h.fits.sized.event hlo hhi, ok_bind, if_neg]
  · rfl
  · rintro ⟨hm, -⟩
    exact Bool.false_ne_true (h.not_writable.symm.trans (Mask.has_of_has_and hm))

/-- **A fired event of the listening descriptor** never fails. -/
theorem Alive.dispatchEntry_listening (h : Alive w listenFd conn) {e : AeFiredEvent}
    (he : e.fd = listenFd) :
    ∃ w' os, AeEventLoop.dispatchEntry World.host w e = .ok w' ∧
      w'.sys.loop.fdsetSize = w.sys.loop.fdsetSize ∧
      Steps (Family.Step Channel.Does) w.channels os w'.channels ∧ Handled listenFd [e] os := by
  have hreg : (w.sys.loop.entry listenFd).mask ≠ aeNone := by
    rw [h.listening]
    decide
  obtain ⟨hlo, hhi⟩ := h.fits.sized.lt_of_mask hreg
  rw [AeEventLoop.dispatchEntry, AeEventLoop.readHalf]
  have hevent : (World.host.loop w).event e.fd = .ok (w.sys.loop.entry listenFd) := by
    rw [he]
    exact h.fits.sized.event hlo hhi
  rw [hevent, ok_bind]
  by_cases hm : ((w.sys.loop.entry listenFd).mask &&& e.mask).has aeReadable = true
  · rw [if_pos hm]
    have hev : LifeEvent.next conn (.called .acceptTcp e.fd (some .server)) = some conn := rfl
    obtain ⟨w', os, haccept, hsize, hsteps, hos⟩ := (h.note hev).accept_steps
    obtain ⟨conn', h'⟩ := (h.note hev).accept haccept
    have hinvoke : World.host.invoke (w.sys.loop.entry listenFd).rProc e.fd
        (w.sys.loop.entry listenFd).clientData e.mask w = .ok w' := by
      rw [h.listening]
      exact haccept
    refine ⟨w', os, ?_, hsize, hsteps, ?_⟩
    · rw [hinvoke]
      exact h'.writeHalf_listening true he
    · rw [BitVec.and_comm] at hm
      rcases hos with rfl | ⟨o, rfl, ho⟩
      · exact .idle he .nil
      · exact .opened he (Mask.has_of_has_and hm) ho .nil
  · rw [if_neg hm]
    exact ⟨w, [], h.writeHalf_listening false he, rfl, .nil _, .idle he .nil⟩

/-! ## Whole runs -/

/-- A fired event that was handled is one of the table. -/
theorem inRange_of_dispatched {e : AeFiredEvent} (hsized : w.sys.loop.Sized)
    (hrun : AeEventLoop.dispatchEntry World.host w e = .ok w') :
    0 ≤ e.fd ∧ e.fd < w.sys.loop.fdsetSize := by
  simp only [AeEventLoop.dispatchEntry, AeEventLoop.readHalf, bind_eq_ok] at hrun
  obtain ⟨_, ⟨fe, hfe, -⟩, -⟩ := hrun
  have hlen : (w.sys.loop.events.length : ℤ) = w.sys.loop.fdsetSize := hsized
  have hfe : w.sys.loop.event e.fd = .ok fe := hfe
  rw [AeEventLoop.event] at hfe
  split_ifs at hfe with hrange
  omega

/-- A fired event leaves the server in agreement with the life of its connections. -/
theorem Alive.dispatchEntry (h : Alive w listenFd conn) {e : AeFiredEvent}
    (hrun : AeEventLoop.dispatchEntry World.host w e = .ok w') :
    ∃ conn', Alive w' listenFd conn' := by
  rw [AeEventLoop.dispatchEntry, bind_eq_ok] at hrun
  obtain ⟨⟨rfired, w₁⟩, hread, hwrite⟩ := hrun
  obtain ⟨conn₁, h₁⟩ := h.readHalf hread
  exact h₁.writeHalf hwrite

/-- **One fired event**, in the family. -/
theorem Alive.dispatchEntry_steps (h : Alive w listenFd conn) {e : AeFiredEvent}
    (hrun : AeEventLoop.dispatchEntry World.host w e = .ok w') :
    ∃ os, w'.sys.loop.fdsetSize = w.sys.loop.fdsetSize ∧
      Steps (Family.Step Channel.Does) w.channels os w'.channels ∧ Handled listenFd [e] os := by
  rcases eq_or_ne e.fd listenFd with he | hne
  · obtain ⟨w₁, os, hrun₁, hsize, hsteps, hos⟩ := h.dispatchEntry_listening he
    obtain rfl := Except.ok.inj (hrun₁.symm.trans hrun)
    exact ⟨os, hsize, hsteps, hos⟩
  · obtain ⟨hlo, hhi⟩ := inRange_of_dispatched h.fits.sized hrun
    obtain ⟨⟨F, r⟩, hreport, hfollows⟩ := (h.dispatchEntry_lockstep hne hlo hhi).of_ok hrun
    refine ⟨[⟨e.fd, .reported e.mask, w.sys.store⟩], hfollows.size, ?_, .reported hne .nil⟩
    rw [hfollows.channels]
    exact .single (.mk (.reported hreport))

/-- **What becomes of the connections** when the listening descriptor is reported: nothing, or a
descriptor without a connection gets one, or it is closed again. -/
theorem Alive.listening_cases (h : Alive w listenFd conn) {e : AeFiredEvent} (he : e.fd = listenFd)
    (hrun : AeEventLoop.dispatchEntry World.host w e = .ok w') :
    w'.channels = w.channels ∨ ∃ fd, w.channel fd = none ∧
      (w'.channels = w.channels.put fd none (w.sys.store.allocated 2) ∨ ∃ k s, w'.channels =
        w.channels.put fd (some (Channel.accepted w.sys.store k s)) (w.sys.store.allocated 2)) := by
  obtain ⟨os, -, hsteps, hos⟩ := h.dispatchEntry_steps hrun
  have hcases : os = [] ∨ ∃ o, os = [o] ∧ reportOf o = none := by
    cases hos with
    | reported hne _ => exact absurd he hne
    | idle _ hrest =>
        cases hrest
        exact Or.inl rfl
    | opened _ _ ho hrest =>
        cases hrest
        exact Or.inr ⟨_, rfl, ho⟩
  rcases hcases with rfl | ⟨o, rfl, ho⟩
  · generalize hx : w.channels = x, hy : w'.channels = y at hsteps
    cases hsteps
    exact Or.inl rfl
  · generalize hx : w.channels = x, hy : w'.channels = y at hsteps
    cases hsteps with
    | cons hstep hrest =>
        cases hrest
        obtain @⟨fd, i, F, s, hdoes⟩ := hstep
        subst hx
        refine Or.inr ⟨fd, ?_⟩
        generalize hr : w.channels.part fd = r, hF : w.channels.store = F' at hdoes
        have hr' : w.channel fd = r := hr
        have hF' : w.sys.store = F' := hF
        cases hdoes with
        | accepted => exact ⟨hr', Or.inr ⟨_, _, by rw [hF']⟩⟩
        | refused => exact ⟨hr', Or.inl (by rw [hF'])⟩
        | reported => cases ho

/-- The fired events of a batch, one after the other. -/
theorem Alive.dispatch_steps (es : List AeFiredEvent) (h : Alive w listenFd conn)
    (hrun : es.foldlM (AeEventLoop.dispatchEntry World.host) w = .ok w') :
    (∃ conn', Alive w' listenFd conn') ∧ ∃ os, w'.sys.loop.fdsetSize = w.sys.loop.fdsetSize ∧
      Steps (Family.Step Channel.Does) w.channels os w'.channels ∧ Handled listenFd es os := by
  induction es generalizing w conn with
  | nil =>
      cases hrun
      exact ⟨⟨conn, h⟩, [], rfl, .nil _, .nil⟩
  | cons e es ih =>
      rw [List.foldlM_cons, bind_eq_ok] at hrun
      obtain ⟨w₁, hstep, hrest⟩ := hrun
      obtain ⟨os, hsize, hsteps, hos⟩ := h.dispatchEntry_steps hstep
      obtain ⟨conn₁, h₁⟩ := h.dispatchEntry hstep
      obtain ⟨halive, os', hsize', hsteps', hos'⟩ := ih h₁ hrest
      exact ⟨halive, os ++ os', hsize'.trans hsize, hsteps.append hsteps', hos.append hos'⟩

/-- What `process_events` takes from the kernel when it has `batch` to report and the table has
`size` entries. -/
def taken (size : ℤ) (batch : List EpollEvent) : List AeFiredEvent :=
  (batch.take size.toNat).map AeEventLoop.firedOf

/-- A poll returns. -/
theorem Alive.poll_returns (h : Alive w listenFd conn) (batch : List EpollEvent) :
    ∃ n l, w.sys.loop.poll batch = .ok (n, l) := by
  obtain ⟨s, hs⟩ := h.api
  exact ⟨_, _, h.fits.poll hs batch⟩

/-- **A poll** changes no connection. -/
theorem Alive.poll (h : Alive w listenFd conn) {batch : List EpollEvent} {n : ℕ}
    {l : AeEventLoop EventProc ClientData} (hpoll : w.sys.loop.poll batch = .ok (n, l)) :
    l.fired.take n = taken w.sys.loop.fdsetSize batch ∧
      Alive (World.host.withLoop w l) listenFd conn ∧
      (World.host.withLoop w l).channels = w.channels ∧
      l.fdsetSize = w.sys.loop.fdsetSize := by
  obtain ⟨s, hs⟩ := h.api
  rw [h.fits.poll hs] at hpoll
  obtain ⟨rfl, rfl⟩ := Prod.mk.inj (Except.ok.inj hpoll)
  have hfits := h.fits.fired
  refine ⟨List.take_left' (List.length_map ..), h.keep (fun _ => ⟨⟨⟨h.fits.sized, ?_,
    h.fits.capacity⟩, h.api, rfl, fun _ _ => rfl⟩, fun _ _ => rfl⟩) h.trace, rfl, rfl⟩
  show ((_ ++ _ : List AeFiredEvent).length : ℤ) = w.sys.loop.fdsetSize
  rw [List.length_append, List.length_map, List.length_drop, List.length_take]
  omega

/-- A poll of a reachable server returns. -/
theorem Reachable.polled (hw : Reachable listenFd w) (batch : List EpollEvent) :
    ∃ n l conn, w.sys.loop.poll batch = .ok (n, l) ∧
      l.fired.take n = taken w.sys.loop.fdsetSize batch ∧
      Alive (World.host.withLoop w l) listenFd conn ∧
      (World.host.withLoop w l).channels = w.channels ∧
      l.fdsetSize = w.sys.loop.fdsetSize := by
  obtain ⟨conn, h⟩ := hw.alive
  obtain ⟨n, l, hpoll⟩ := h.poll_returns batch
  exact ⟨n, l, conn, hpoll, h.poll hpoll⟩

/-- `process_events` after its poll. -/
theorem processEvents_of_poll {batch : List EpollEvent} {n : ℕ}
    {l : AeEventLoop EventProc ClientData} (hpoll : w.sys.loop.poll batch = .ok (n, l)) :
    AeEventLoop.processEvents World.host w batch =
      (l.fired.take n).foldlM (AeEventLoop.dispatchEntry World.host)
        (World.host.withLoop w l) := by
  rw [AeEventLoop.processEvents]
  show (w.sys.loop.poll batch >>= _) = _
  rw [hpoll, ok_bind]

/-- The batches of a run, one after the other. -/
theorem Reachable.run_steps {batches : List (List EpollEvent)} (hw : Reachable listenFd w)
    (hrun : batches.foldlM (AeEventLoop.processEvents World.host) w = .ok w') :
    ∃ os, Steps (Family.Step Channel.Does) w.channels os w'.channels ∧
      Handled listenFd (batches.flatMap (taken w.sys.loop.fdsetSize)) os := by
  induction batches generalizing w with
  | nil =>
      cases hrun
      exact ⟨[], .nil _, .nil⟩
  | cons batch batches ih =>
      rw [List.foldlM_cons, bind_eq_ok] at hrun
      obtain ⟨w₁, hbatch, hrest⟩ := hrun
      have hw₁ := hw.processEvents hbatch
      obtain ⟨n, l, conn, hpoll, htaken, h, hchannels, hsize⟩ := hw.polled batch
      rw [processEvents_of_poll hpoll, htaken] at hbatch
      obtain ⟨-, os, hsize', hsteps, hos⟩ := h.dispatch_steps _ hbatch
      obtain ⟨os', hsteps', hos'⟩ := ih hw₁ hrest
      rw [hchannels] at hsteps
      rw [hsize', show (World.host.withLoop w l).sys.loop.fdsetSize = _ from hsize] at hos'
      exact ⟨os ++ os', hsteps.append hsteps', hos.append hos'⟩

/-- **The server is a family of connections.** Whatever the kernel reports and accepts, a run of
the loop is a run of the family in which every report of a connection is one step of this
connection, in the order of the reports. -/
theorem channels_refine {batches : List (List EpollEvent)} (hw : Reachable listenFd w)
    (hrun : batches.foldlM (AeEventLoop.processEvents World.host) w = .ok w') :
    ∃ os, Steps (Family.Step Channel.Does) w.channels os w'.channels ∧
      Handled listenFd (batches.flatMap (taken w.sys.loop.fdsetSize)) os :=
  hw.run_steps hrun

/-- `init` does not touch files. -/
theorem World.init_files {env : World.Env} {maxClientCount : ℕ} {api : Option AeEpollState} {r : ℤ}
    (h : World.init env maxClientCount api listenFd = .ok (r, w)) : w.sys.files = env.files := by
  rw [World.init, bind_eq_ok] at h
  obtain ⟨⟨r', sys⟩, hadd, hret⟩ := h
  obtain ⟨rfl, rfl⟩ := Prod.mk.inj (Except.ok.inj hret)
  obtain ⟨l, -, rfl⟩ := addFileEvent_eq hadd
  rfl

/-- The run in which descriptor 4 is used by one connection and then by the next. -/
theorem reusing_runs :
    ∃ r w w', World.init reusingEnv 8 (some (.create 8 [])) 3 = .ok (r, w) ∧ Reachable 3 w ∧
      reusingBatches.foldlM (AeEventLoop.processEvents World.host) w = .ok w' := by
  have hrun : (World.init reusingEnv 8 (some (.create 8 [])) 3 >>= fun (r, w) =>
      reusingBatches.foldlM (AeEventLoop.processEvents World.host) w >>= fun _ =>
        Except.ok r) = .ok 0 := by
    decide +kernel
  simp only [bind_eq_ok] at hrun
  obtain ⟨⟨r, w⟩, hinit, w', hrun, hret⟩ := hrun
  obtain rfl := Except.ok.inj hret
  exact ⟨_, w, w', hinit, .init hinit (by decide), hrun⟩

/-- Two connections, one after the other, and a third that finds no room. -/
theorem channels_refine_reusing :
    ∃ r w w', World.init reusingEnv 8 (some (.create 8 [])) 3 = .ok (r, w) ∧
      reusingBatches.foldlM (AeEventLoop.processEvents World.host) w = .ok w' ∧
      ∃ os, Steps (Family.Step Channel.Does) w.channels os w'.channels ∧
        Handled 3 (reusingBatches.flatMap (taken w.sys.loop.fdsetSize)) os := by
  obtain ⟨r, w, w', hinit, hw, hrun⟩ := reusing_runs
  exact ⟨r, w, w', hinit, hrun, channels_refine hw hrun⟩

/-- **Isolation.** What a connection does among the others it does alone, on the files and the
fresh memory that its own events find. -/
theorem connections_isolated {batches : List (List EpollEvent)} (hw : Reachable listenFd w)
    (hrun : batches.foldlM (AeEventLoop.processEvents World.host) w = .ok w') (fd : ℤ)
    (hfd : fd ≠ listenFd) :
    ∃ es : List (ChannelEvent × Store),
      Steps (Family.Solo Channel.Does) (w.channel fd) es (w'.channel fd) ∧
      (es.filterMap fun e => reportOf ⟨fd, e.1, e.2⟩) =
        (batches.flatMap (taken w.sys.loop.fdsetSize)).filter (·.fd = fd) := by
  obtain ⟨os, hsteps, hos⟩ := hw.run_steps hrun
  refine ⟨_, hsteps.alone fd, ?_⟩
  rw [reportOf_own, hos.reports, List.filter_filter]
  refine List.filter_congr fun e _ => ?_
  by_cases he : e.fd = fd
  · simp [he, hfd]
  · simp [he]

/-- The life of descriptor 4, from its first connection to its second one. -/
theorem connections_isolated_reusing :
    ∃ r w w', World.init reusingEnv 8 (some (.create 8 [])) 3 = .ok (r, w) ∧
      reusingBatches.foldlM (AeEventLoop.processEvents World.host) w = .ok w' ∧
      ∃ es : List (ChannelEvent × Store),
        Steps (Family.Solo Channel.Does) (w.channel 4) es (w'.channel 4) ∧
        (es.filterMap fun e => reportOf ⟨4, e.1, e.2⟩) =
          (reusingBatches.flatMap (taken w.sys.loop.fdsetSize)).filter (·.fd = 4) := by
  obtain ⟨r, w, w', hinit, hw, hrun⟩ := reusing_runs
  exact ⟨r, w, w', hinit, hrun, connections_isolated hw hrun 4 (by decide)⟩

end Runs

end AsprNet.Server
