import AsprNet.Server.Service

/-! # One connection under the event loop

`processEvents` on batches that report one connection calls its handlers in the order of the
flags: first for reading, then for writing (`Conn.processEvents`). A run of such batches is
therefore a run of `ConnEvent`s (`reports_run`).
-/

namespace AsprNet

namespace Server

/-- The world in which the client `c` at `p` is served. -/
structure Conn (w : World) (p : ℕ) (c : ClientT) (b : Bool) : Prop where
  heap : w.heap p = some c
  serving : Serving w.sys p c b

/-- The handler call for an event of the connection `fd` of the client at `p`. -/
def ConnEvent.report (p : ℕ) (fd : ℤ) (w : World) : ConnEvent → Except Halt World
  | .readable => World.call .readEvent fd (some (.client p)) aeReadable w
  | .writable =>
    if (w.sys.loop.entry fd).mask.has aeWritable then
      World.call .writeEvent fd (some (.client p)) aeWritable w
    else .ok w

/-- The events that a fired mask stands for, in the order of the loop. -/
def connEvents (mask : Mask) : List ConnEvent :=
  (if mask.has aeReadable then [.readable] else []) ++
    (if mask.has aeWritable then [.writable] else [])

/-- The world with another `_fired` array. -/
def World.withFired (w : World) (fired : List AeFiredEvent) : World :=
  { w with sys := { w.sys with loop := { w.sys.loop with fired } } }

namespace Conn

variable {w : World} {p : ℕ} {c : ClientT} {b : Bool}

/-- Whatever `poll` writes into `_fired`, the connection stays as it is. -/
theorem withFired (h : Conn w p c b) {fired : List AeFiredEvent}
    (hlen : fired.length = w.sys.loop.fired.length) : Conn (w.withFired fired) p c b := by
  have hreg := h.serving.registered
  have hfired : (fired.length : ℤ) = w.sys.loop.fdsetSize := by rw [hlen, hreg.fits.fired]
  exact ⟨h.heap, ⟨⟨⟨⟨hreg.fits.sized, hfired, hreg.fits.capacity⟩, hreg.lo, hreg.hi, hreg.api,
    hreg.mask, hreg.rProc, hreg.wProc, hreg.data⟩, h.serving.attached, h.serving.wSound,
    h.serving.list, h.serving.pending, h.serving.idle⟩, h.serving.rSize, h.serving.wSize⟩⟩

/-- The handler call for a readable connection. -/
theorem report_readable (h : Conn w p c b) :
    ConnEvent.readable.report p c.fd w = do
      let (sys, r) ← readEventHandler
        (w.sys.note (.called .readEvent c.fd (some (.client p)))) p c.fd c
      return { sys, heap := Function.update w.heap p r } := by
  simp only [ConnEvent.report, World.call, World.onClient, h.heap]

/-- The handler call for a writable connection with a reply queued. -/
theorem report_writable (h : Conn w p c true) :
    ConnEvent.writable.report p c.fd w = do
      let (sys, r) ← writeEventHandler
        (w.sys.note (.called .writeEvent c.fd (some (.client p)))) c
      return { sys, heap := Function.update w.heap p r } := by
  simp only [ConnEvent.report, h.serving.registered.has_writable, if_true, World.call,
    World.onClient, h.heap]

/-- A writable connection without a reply is left alone. -/
theorem report_idle (h : Conn w p c false) : ConnEvent.writable.report p c.fd w = .ok w := by
  simp [ConnEvent.report, h.serving.registered.has_writable]

/-- A note in the log changes nothing a connection has. -/
theorem note (h : Conn w p c b) (ev : LifeEvent) : Serving (w.sys.note ev) p c b :=
  h.serving.withSocks _ rfl

/-- The entry of the client's descriptor is inside the table. -/
theorem event (h : Conn w p c b) :
    w.sys.loop.event c.fd = .ok (w.sys.loop.entry c.fd) :=
  h.serving.registered.fits.sized.event h.serving.registered.lo h.serving.registered.hi

/-- The read half of a fired event. -/
theorem readHalf (h : Conn w p c b) (mask : Mask) :
    AeEventLoop.readHalf World.host ⟨c.fd, mask⟩ w =
      if mask.has aeReadable then (ConnEvent.readable.report p c.fd w).map (true, ·)
      else .ok (false, w) := by
  have hreg := h.serving.registered
  have hmask : (w.sys.loop.entry c.fd).mask &&& aeReadable = aeReadable := by
    rw [hreg.mask]
    cases b <;> decide
  rw [AeEventLoop.readHalf]
  show (w.sys.loop.event c.fd >>= _) = _
  rw [h.event, ok_bind, Mask.has_and hmask, hreg.rProc, hreg.data]
  split
  · show (World.call .readEvent c.fd (some (.client p)) mask w >>= _) = _
    rw [ConnEvent.report, show World.call .readEvent c.fd (some (.client p)) mask w =
      World.call .readEvent c.fd (some (.client p)) aeReadable w from rfl]
    cases World.call .readEvent c.fd (some (.client p)) aeReadable w <;> rfl
  · rfl

/-- The write half of a fired event. -/
theorem writeHalf (h : Conn w p c b) (mask : Mask) (rfired : Bool) :
    AeEventLoop.writeHalf World.host ⟨c.fd, mask⟩ rfired w =
      if mask.has aeWritable then ConnEvent.writable.report p c.fd w else .ok w := by
  have hreg := h.serving.registered
  rw [AeEventLoop.writeHalf]
  show (w.sys.loop.event c.fd >>= _) = _
  rw [h.event, ok_bind, ConnEvent.report, hreg.has_writable]
  cases b with
  | false =>
      have hmask : (w.sys.loop.entry c.fd).mask &&& aeWritable = 0#32 := by
        rw [hreg.mask]
        decide
      rw [Mask.not_has_and hmask]
      simp
      rfl
  | true =>
      have hmask : (w.sys.loop.entry c.fd).mask &&& aeWritable = aeWritable := by
        rw [hreg.mask]
        decide
      rw [Mask.has_and hmask, hreg.rProc, hreg.wProc rfl, hreg.data]
      simp only [ne_eq, Option.some.injEq, reduceCtorEq, not_false_eq_true, or_true, and_true]
      rfl

/-- **A fired event** does what its mask stands for, when the client survives the read half. -/
theorem dispatch (h : Conn w p c b) (mask : Mask)
    (hread : ∀ w₁, ConnEvent.readable.report p c.fd w = .ok w₁ → mask.has aeReadable = true →
      ∃ c₁ b₁, Conn w₁ p c₁ b₁ ∧ c₁.fd = c.fd) :
    AeEventLoop.dispatchEntry World.host w ⟨c.fd, mask⟩ =
      (connEvents mask).foldlM (fun w e => e.report p c.fd w) w := by
  rw [AeEventLoop.dispatchEntry, h.readHalf, connEvents]
  by_cases hr : mask.has aeReadable = true
  · rw [if_pos hr, if_pos hr]
    cases hcall : ConnEvent.readable.report p c.fd w with
    | error e => simp [Except.map, hcall]
    | ok w₁ =>
        obtain ⟨c₁, b₁, h₁, hfd⟩ := hread w₁ hcall hr
        have hwrite := h₁.writeHalf mask true
        rw [hfd] at hwrite
        simp only [Except.map, ok_bind, hwrite, List.foldlM_cons, List.cons_append, hcall,
          List.nil_append]
        split
        · simp
        · rfl
  · rw [if_neg hr, if_neg hr, ok_bind]
    dsimp only
    rw [h.writeHalf mask false]
    split
    · simp
    · rfl

/-- **A batch that reports the connection** is one fired event. -/
theorem processEvents (h : Conn w p c b) (ev : Mask) :
    ∃ fired, fired.length = w.sys.loop.fired.length ∧
      AeEventLoop.processEvents World.host w [⟨ev, c.fd⟩] =
        AeEventLoop.dispatchEntry World.host (w.withFired fired)
          ⟨c.fd, (AeEventLoop.firedOf ⟨ev, c.fd⟩).mask⟩ := by
  have hreg := h.serving.registered
  obtain ⟨s, hs⟩ := hreg.api
  have hlo := hreg.lo
  have hhi := hreg.hi
  have hfired := hreg.fits.fired
  have htake : [(⟨ev, c.fd⟩ : EpollEvent)].take w.sys.loop.fdsetSize.toNat = [⟨ev, c.fd⟩] :=
    List.take_of_length_le (by rw [List.length_singleton]; omega)
  have hpoll := hreg.fits.poll hs [⟨ev, c.fd⟩]
  rw [htake] at hpoll
  refine ⟨AeEventLoop.firedOf ⟨ev, c.fd⟩ :: w.sys.loop.fired.drop 1, ?_, ?_⟩
  · rw [List.length_cons, List.length_drop]
    omega
  · rw [AeEventLoop.processEvents]
    show (w.sys.loop.poll _ >>= _) = _
    rw [hpoll, ok_bind]
    simp only [List.map_cons, List.map_nil, List.singleton_append, List.length_singleton,
      List.take_succ_cons, List.take_zero, List.foldlM_cons, List.foldlM_nil, bind_pure]
    rfl

end Conn

/-- The world with one connection that was just accepted. -/
def World.connected (fd p : ℕ) (s : Sock) (files : Files) : World where
  sys := Sys.connected fd p s files
  heap q := if q = p then some (ClientT.accepted fd) else none

/-- A new connection as `accept_tcp_handler` leaves it. -/
theorem conn_connected (fd p : ℕ) (s : Sock) (files : Files) :
    Conn (World.connected fd p s files) p (ClientT.accepted fd) false := by
  have hentry : (Sys.connected fd p s files).loop.entry fd =
      { mask := aeReadable, rProc := some .readEvent, clientData := some (.client p) } := by
    simp [AeEventLoop.entry, Sys.connected]
  refine ⟨if_pos rfl, ⟨⟨⟨⟨?_, ?_, ?_⟩, Int.natCast_nonneg fd, ?_, ⟨_, rfl⟩, ?_, ?_, by simp, ?_⟩,
    rfl, ⟨?_, ?_, ?_⟩, ?_, ?_, fun _ => rfl⟩, size_rBuffer_accepted fd, size_wBuffer_accepted fd⟩⟩
  · simp [AeEventLoop.Sized, World.connected, Sys.connected]
  · simp [World.connected, Sys.connected]
  · simp [World.connected, Sys.connected]
  · exact Int.lt_succ fd
  · exact congrArg AeFileEvent.mask hentry
  · exact congrArg AeFileEvent.rProc hentry
  · exact congrArg AeFileEvent.clientData hentry
  · exact le_rfl
  · exact Nat.zero_le _
  · rw [size_wBuffer_accepted]
    decide
  · exact fun _ hb => absurd hb List.not_mem_nil
  · simp [ClientT.accepted, ClientT.create, BufferT.create]

/-! ## Runs -/

/-- The events that the kernel's report `ev` about a connection stands for. -/
def reportedEvents (ev : Mask) : List ConnEvent :=
  connEvents (AeEventLoop.firedOf ⟨ev, 0⟩).mask

/-- The loop on one report after the other about the connection `fd`. -/
def runReports (fd : ℤ) (reports : List Mask) (w : World) : Except Halt World :=
  reports.foldlM (fun w ev => AeEventLoop.processEvents World.host w [⟨ev, fd⟩]) w

/-- **The rule for runs of one connection.** `Inv w es` says that the world `w` is good when the
events `es` are still to come; each event has to keep it. -/
theorem reports_run {p : ℕ} {fd : ℤ} (Inv : World → List ConnEvent → Prop)
    (hconn : ∀ w es, Inv w es → ∃ c b, Conn w p c b ∧ c.fd = fd)
    (hfired : ∀ w es fired, Inv w es → fired.length = w.sys.loop.fired.length →
      Inv (w.withFired fired) es)
    (hstep : ∀ w e es, Inv w (e :: es) → ∃ w', e.report p fd w = .ok w' ∧ Inv w' es)
    (reports : List Mask) (w : World) (hinv : Inv w (reports.flatMap reportedEvents)) :
    ∃ w', runReports fd reports w = .ok w' ∧ Inv w' [] := by
  -- the events of one report
  have hevents : ∀ es rest w, Inv w (es ++ rest) →
      ∃ w', es.foldlM (fun w e => e.report p fd w) w = .ok w' ∧ Inv w' rest := by
    intro es
    induction es with
    | nil => exact fun rest w h => ⟨w, rfl, h⟩
    | cons e es ih =>
        intro rest w h
        obtain ⟨w₁, hrun, h₁⟩ := hstep w e (es ++ rest) h
        obtain ⟨w', hrest, h'⟩ := ih rest w₁ h₁
        exact ⟨w', by rw [List.foldlM_cons, hrun, ok_bind, hrest], h'⟩
  induction reports generalizing w with
  | nil => exact ⟨w, rfl, hinv⟩
  | cons ev reports ih =>
      rw [List.flatMap_cons] at hinv
      obtain ⟨c, b, hc, rfl⟩ := hconn _ _ hinv
      obtain ⟨fired, hlen, hprocess⟩ := hc.processEvents ev
      have hinv₀ := hfired _ _ _ hinv hlen
      obtain ⟨w₁, hrun, hinv₁⟩ := hevents _ _ _ hinv₀
      have hdispatch := (hc.withFired hlen).dispatch (AeEventLoop.firedOf ⟨ev, c.fd⟩).mask (by
        -- the client survives the read half: the invariant holds behind it
        intro w₂ hw₂ hr
        have hr' : (AeEventLoop.firedOf ⟨ev, 0⟩).mask.has aeReadable = true := hr
        rw [reportedEvents, connEvents, if_pos hr', List.cons_append, List.cons_append] at hinv₀
        obtain ⟨w₃, hw₃, hinv₃⟩ := hstep _ _ _ hinv₀
        obtain rfl : w₂ = w₃ := Except.ok.inj (hw₂.symm.trans hw₃)
        exact hconn _ _ hinv₃)
      obtain ⟨w', hrest, hinv'⟩ := ih w₁ hinv₁
      refine ⟨w', ?_, hinv'⟩
      rw [runReports, List.foldlM_cons, hprocess, hdispatch]
      show ((reportedEvents ev).foldlM _ _ >>= _) = _
      rw [hrun, ok_bind]
      exact hrest

end Server

end AsprNet
