import AsprNet.Server.Dispatch

/-! # One reply for each request

A request overwrites what is queued, so a reply survives exactly when the connection is reported
writable before the next request is read. `overlaps` says when a schedule misses this, and
`replies_in_order_iff` that the replies then, and only then, are not what was asked for.
-/

namespace AsprNet.Server

/-- Some readable report of the schedule comes while a reply is queued. Initially one is queued if
`b`. -/
def overlaps : Bool → List ConnEvent → Bool
  | _, [] => false
  | b, .readable :: es => b || overlaps true es
  | _, .writable :: es => overlaps false es

/-- A request package that fits into the receive buffer, with the packages it asks for. -/
structure Request (files : Files) (q : Bytes) (ps : List Bytes) : Prop where
  nonempty : q ≠ []
  fits : q.length < defaultBuffSize
  asks : Asks files (ArgT.process (packageText q)) ps

/-- The wire image of the replies. -/
def replyBytes (reqs : List (Bytes × List Bytes)) : Bytes :=
  (reqs.flatMap Prod.snd).flatMap (frame headSize)

/-- **`read_event_handler` on a request**, whether or not a reply is queued. -/
theorem Serving.read_request {sys : Sys} {p : ℕ} {c : ClientT} {b : Bool} {s : Sock}
    (h : Serving sys p c b) (hs : sys.socks c.fd = some s) {q : Bytes} (rest : Bytes)
    {ps : List Bytes} (hin : s.inbox = frame headSize q ++ rest) (hq : Request sys.files q ps)
    (h₁ : s.reads.headD .full = .full) (h₂ : s.reads.tail.headD .full = .full) :
    ∃ sys' c' keep, readEventHandler sys p c.fd c = .ok (sys', some c') ∧
      Serving sys' p c' true ∧ c'.fd = c.fd ∧
      sys'.socks c.fd =
        some { s with inbox := rest, reads := s.reads.tail.tail, heads := s.heads.tail } ∧
      sys'.files = sys.files ∧ c'.wBuffer.readIdx = 0 ∧ (keep = [] ∨ keep = c.bufferList) ∧
      c'.queued = ps.flatMap (frame headSize) ++ keep.flatMap BufferT.readable := by
  have hlen : q.length < c.rBuffer.size := by
    rw [h.rSize]
    exact hq.fits
  have hread := readPackage_frame hs hin hq.nonempty hlen (by rw [h.rSize]; decide) h₁ h₂
  have h' : Serving (sys.setSock c.fd
      { s with inbox := rest, reads := s.reads.tail.tail, heads := s.heads.tail }) p
      (c.withPackage q) b :=
    ⟨⟨h.registered, h.attached, h.wSound, h.list, h.pending, h.idle⟩,
      (size_withPackage hlen).trans h.rSize, h.wSize⟩
  obtain ⟨sys', c', keep, hrun, hserving, hfd, hs', hfiles, -, hidx, hkeep, hqueued⟩ :=
    h'.answer (Function.update_self _ _ _) hq.asks
  refine ⟨sys', c', keep, ?_, hserving, hfd, hs', hfiles, hidx, hkeep, hqueued⟩
  rw [readEventHandler, hread, ok_bind]
  dsimp only
  rw [hrun]
  rfl

/-! ## The state between two reports -/

/-- The requests `rest` are still to be read, and `owed` is what the socket should have accepted
once the queue is sent: it will, unless a reply was `lost`. -/
structure Answering (w : World) (p : ℕ) (fd : ℤ) (files : Files) (owed : Bytes)
    (rest : List (Bytes × List Bytes)) (b lost : Bool) (c : ClientT) (s : Sock) : Prop where
  conn : Conn w p c b
  descriptor : c.fd = fd
  sock : w.sys.socks fd = some s
  files : w.sys.files = files
  inbox : s.inbox = (rest.map Prod.fst).flatMap (frame headSize)
  willing : s.Willing
  first : b = true → c.wBuffer.readIdx = 0
  kept : lost = false → s.outbox ++ c.queued = owed
  missing : lost = true → (s.outbox ++ c.queued).length < owed.length

namespace Answering

variable {w : World} {p : ℕ} {fd : ℤ} {files : Files} {owed : Bytes}
  {rest : List (Bytes × List Bytes)} {b lost : Bool} {c : ClientT} {s : Sock}

/-- Nothing was queued or lost: with the reply `q` the output is what is owed. -/
theorem kept_reply (h : Answering w p fd files owed rest b lost c s) {keep : List BufferT}
    (hkeep : keep = [] ∨ keep = c.bufferList) (hnone : (lost || b) = false) (q : Bytes) :
    s.outbox ++ (q ++ keep.flatMap BufferT.readable) = owed ++ q := by
  obtain ⟨hlost, rfl⟩ := Bool.or_eq_false_iff.mp hnone
  have hnil := h.conn.serving.queued_nil
  have hlist := h.conn.serving.idle rfl
  have hkeep' : keep = [] := by
    rcases hkeep with hkeep | hkeep
    · exact hkeep
    · rw [hkeep, hlist]
  have hkept := h.kept hlost
  rw [hnil, List.append_nil] at hkept
  rw [hkeep', hkept, List.flatMap_nil, List.append_nil]

/-- What is left of the old queue is shorter than it was, so the output is shorter than what is
owed. -/
theorem missing_reply (h : Answering w p fd files owed rest b lost c s) {keep : List BufferT}
    (hkeep : keep = [] ∨ keep = c.bufferList) (hsome : (lost || b) = true) (q : Bytes) :
    (s.outbox ++ (q ++ keep.flatMap BufferT.readable)).length < (owed ++ q).length := by
  have hle : (keep.flatMap BufferT.readable).length ≤
      (c.bufferList.flatMap BufferT.readable).length := by
    rcases hkeep with rfl | rfl
    · exact Nat.zero_le _
    · exact le_rfl
  have hold : c.queued.length =
      c.wBuffer.writeIdx - c.wBuffer.readIdx +
        (c.bufferList.flatMap BufferT.readable).length := by
    rw [ClientT.queued, queued, List.length_append, h.conn.serving.wSound.length_readable]
  simp only [List.length_append]
  cases hl : lost with
  | true =>
      have hmissing := h.missing hl
      rw [List.length_append] at hmissing
      omega
  | false =>
      obtain rfl : b = true := by simpa [hl] using hsome
      have hpending := h.conn.serving.pending.mp rfl
      have hkept := congrArg List.length (h.kept hl)
      rw [List.length_append] at hkept
      omega

/-- **A readable report** adds a reply to the queue, and drops the one that is there. -/
theorem readable {r : Bytes × List Bytes} (h : Answering w p fd files owed (r :: rest) b lost c s)
    (hq : Request files r.1 r.2) (hreads : ∀ o ∈ s.reads.take 2, o = .full) :
    ∃ w' c' s', ConnEvent.readable.report p fd w = .ok w' ∧
      Answering w' p fd files (owed ++ r.2.flatMap (frame headSize)) rest true (lost || b) c' s' ∧
      s'.reads = s.reads.tail.tail := by
  obtain ⟨q, ps⟩ := r
  obtain rfl := h.descriptor
  obtain ⟨sys', c', keep, hrun, hserving, hfd, hs', hfiles, hidx, hkeep, hqueued⟩ :=
    (h.conn.note (.called .readEvent c.fd (some (.client p)))).read_request h.sock
      ((rest.map Prod.fst).flatMap (frame headSize)) h.inbox
      (by rw [Sys.note, h.files]; exact hq) (full_headD hreads)
      (full_headD (tail_of_take hreads))
  refine ⟨{ sys := sys', heap := Function.update w.heap p (some c') }, c', _, ?_,
    { conn := ⟨Function.update_self _ _ _, hserving⟩
      descriptor := hfd
      sock := hs'
      files := hfiles.trans h.files
      inbox := rfl
      willing := h.willing
      first := fun _ => hidx
      kept := ?_
      missing := ?_ }, rfl⟩
  · rw [h.conn.report_readable, hrun]
    rfl
  · intro hnone
    show s.outbox ++ c'.queued = _
    rw [hqueued]
    exact h.kept_reply hkeep hnone _
  · intro hsome
    show (s.outbox ++ c'.queued).length < _
    rw [hqueued]
    exact h.missing_reply hkeep hsome _

/-- **A writable report** sends the queue, if there is one. -/
theorem writable (h : Answering w p fd files owed rest b lost c s) :
    ∃ w' c' s', ConnEvent.writable.report p fd w = .ok w' ∧
      Answering w' p fd files owed rest false lost c' s' ∧ s'.reads = s.reads := by
  obtain rfl := h.descriptor
  cases b with
  | false => exact ⟨w, c, s, h.conn.report_idle, h, rfl⟩
  | true =>
      obtain ⟨sys', c', s', hrun, hstep, hfd, hr, hw, hs', hsame, hwilling, hout, hfiles⟩ :=
        (h.conn.note (.called .writeEvent c.fd (some (.client p)))).write_willing h.sock h.willing
          (h.first rfl)
      have hserving : Serving sys' p c' false :=
        ⟨hstep, by rw [hr, h.conn.serving.rSize], by rw [hw, h.conn.serving.wSize]⟩
      have htotal : s'.outbox ++ c'.queued = s.outbox ++ c.queued := by
        rw [hserving.queued_nil, hout, List.append_nil]
      refine ⟨{ sys := sys', heap := Function.update w.heap p (some c') }, c', s', ?_,
        { conn := ⟨Function.update_self _ _ _, hserving⟩
          descriptor := hfd
          sock := hs'
          files := hfiles.trans h.files
          inbox := hsame.inbox.trans h.inbox
          willing := hwilling
          first := by simp
          kept := by rw [htotal]; exact h.kept
          missing := by rw [htotal]; exact h.missing }, hsame.reads⟩
      rw [h.conn.report_writable, hrun]
      rfl

/-- What `poll` stores in `_fired` changes no answer. -/
theorem withFired (h : Answering w p fd files owed rest b lost c s) {fired : List AeFiredEvent}
    (hlen : fired.length = w.sys.loop.fired.length) :
    Answering (w.withFired fired) p fd files owed rest b lost c s :=
  { h with conn := h.conn.withFired hlen }

end Answering

/-! ## Runs -/

/-- The number of requests that a schedule reads. -/
def requestsRead (es : List ConnEvent) : ℕ := es.count .readable

/-- A schedule that reads one request cannot overlap. -/
theorem overlaps_of_count_le {es : List ConnEvent} (h : requestsRead es ≤ 1) :
    overlaps false es = false := by
  have hquiet : ∀ es b, requestsRead es = 0 → overlaps b es = false := by
    intro es
    induction es with
    | nil => exact fun _ _ => rfl
    | cons e es ih =>
        intro b hzero
        cases e with
        | readable => simp [requestsRead] at hzero
        | writable => exact ih false (by simpa [requestsRead] using hzero)
  induction es with
  | nil => rfl
  | cons e es ih =>
      cases e with
      | readable =>
          rw [overlaps, Bool.false_or]
          exact hquiet es true (by simpa [requestsRead] using h)
      | writable => exact ih (by simpa [requestsRead] using h)

/-- The run over the schedule `all` of the requests `reqs`, with the reports `es` still to come:
`n` requests are read, the reads of the others are whole, and what is owed and lost in the end does
not change along the run. -/
structure Underway (files : Files) (owed : Bytes) (reqs : List (Bytes × List Bytes))
    (all : List ConnEvent) (p : ℕ) (fd : ℤ) (w : World) (es : List ConnEvent) (n : ℕ)
    (b lost : Bool) (c : ClientT) (s : Sock) : Prop where
  count : n + requestsRead es = requestsRead all
  state : Answering w p fd files (owed ++ replyBytes (reqs.take n)) (reqs.drop n) b lost c s
  reads : ∀ o ∈ s.reads.take (2 * requestsRead es), o = .full
  loses : (lost || overlaps b es) = overlaps false all
  idle : es = [] → all.getLast? = some .writable → b = false
  suffix : es <:+ all

namespace Underway

variable {files : Files} {owed : Bytes} {reqs : List (Bytes × List Bytes)} {all : List ConnEvent}
  {p : ℕ} {fd : ℤ} {w : World} {e : ConnEvent} {es : List ConnEvent} {n : ℕ} {b lost : Bool}
  {c : ClientT} {s : Sock}

/-- The last report of the schedule is `e`, if none comes after it. -/
theorem last_eq (h : Underway files owed reqs all p fd w (e :: es) n b lost c s) (hes : es = [])
    (hw : all.getLast? = some .writable) : e = .writable := by
  subst hes
  obtain ⟨pre, hpre⟩ := h.suffix
  rw [← hpre, List.getLast?_concat] at hw
  exact Option.some.inj hw

/-- **A writable report** of the run. -/
theorem writable (h : Underway files owed reqs all p fd w (.writable :: es) n b lost c s) :
    ∃ w' c' s', ConnEvent.writable.report p fd w = .ok w' ∧
      Underway files owed reqs all p fd w' es n false lost c' s' := by
  obtain ⟨w', c', s', hrun, hstate, hreads⟩ := h.state.writable
  exact ⟨w', c', s', hrun,
    { count := by simpa [requestsRead] using h.count
      state := hstate
      reads := by rw [hreads]; simpa [requestsRead] using h.reads
      loses := h.loses
      idle := fun _ _ => rfl
      suffix := (List.suffix_cons _ es).trans h.suffix }⟩

/-- **A readable report** of the run reads the next request. -/
theorem readable (h : Underway files owed reqs all p fd w (.readable :: es) n b lost c s)
    (hreqs : ∀ r ∈ reqs, Request files r.1 r.2) (hcount : requestsRead all ≤ reqs.length) :
    ∃ w' c' s', ConnEvent.readable.report p fd w = .ok w' ∧
      Underway files owed reqs all p fd w' es (n + 1) true (lost || b) c' s' := by
  have hread : requestsRead (.readable :: es) = requestsRead es + 1 := List.count_cons_self
  have hn := h.count
  have hlt : n < reqs.length := by omega
  have hnext := h.state
  rw [List.drop_eq_getElem_cons hlt] at hnext
  have hreads := h.reads
  rw [hread, Nat.mul_add] at hreads
  obtain ⟨w', c', s', hrun, hstate, hrest⟩ := hnext.readable (hreqs _ (List.getElem_mem hlt))
    fun o ho => hreads o (List.take_subset_take_left _ (Nat.le_add_left _ _) ho)
  have howed : owed ++ replyBytes (reqs.take n) ++ reqs[n].2.flatMap (frame headSize) =
      owed ++ replyBytes (reqs.take (n + 1)) := by
    rw [List.take_succ_eq_append_getElem hlt]
    simp only [replyBytes, List.flatMap_append, List.flatMap_cons, List.flatMap_nil,
      List.append_nil, List.append_assoc]
  rw [howed] at hstate
  exact ⟨w', c', s', hrun,
    { count := by omega
      state := hstate
      reads := by rw [hrest]; exact tail_of_take (tail_of_take hreads)
      loses := by rw [← h.loses, overlaps, Bool.or_assoc]
      idle := fun hes hw => nomatch h.last_eq hes hw
      suffix := (List.suffix_cons _ es).trans h.suffix }⟩

end Underway

/-- **Every run**: the requests are read, and a reply is lost exactly when the schedule
overlaps. -/
theorem answering_run {w : World} {p : ℕ} {fd : ℤ} {files : Files} {owed : Bytes}
    {reqs : List (Bytes × List Bytes)} {c : ClientT} {s : Sock}
    (h : Answering w p fd files owed reqs false false c s)
    (hreqs : ∀ r ∈ reqs, Request files r.1 r.2) (reports : List Mask)
    (hreads : ∀ o ∈ s.reads.take (2 * requestsRead (reports.flatMap reportedEvents)), o = .full)
    (hcount : requestsRead (reports.flatMap reportedEvents) ≤ reqs.length) :
    ∃ w' b c' s', runReports fd reports w = .ok w' ∧
      Answering w' p fd files
        (owed ++ replyBytes (reqs.take (requestsRead (reports.flatMap reportedEvents))))
        (reqs.drop (requestsRead (reports.flatMap reportedEvents))) b
        (overlaps false (reports.flatMap reportedEvents)) c' s' ∧
      ((reports.flatMap reportedEvents).getLast? = some .writable → b = false) := by
  set all := reports.flatMap reportedEvents
  have hstep : ∀ w e es,
      (∃ n b lost c s, Underway files owed reqs all p fd w (e :: es) n b lost c s) →
      ∃ w', e.report p fd w = .ok w' ∧
        ∃ n b lost c s, Underway files owed reqs all p fd w' es n b lost c s := by
    rintro w e es ⟨n, b, lost, c, s, hrun⟩
    cases e with
    | writable =>
        obtain ⟨w', c', s', hreport, hrun'⟩ := hrun.writable
        exact ⟨w', hreport, n, false, lost, c', s', hrun'⟩
    | readable =>
        obtain ⟨w', c', s', hreport, hrun'⟩ := hrun.readable hreqs hcount
        exact ⟨w', hreport, n + 1, true, lost || b, c', s', hrun'⟩
  obtain ⟨w', hrun, n, b, lost, c', s', hend⟩ :=
    reports_run (fun w es => ∃ n b lost c s, Underway files owed reqs all p fd w es n b lost c s)
      (fun w es ⟨_, _, _, c, _, hrun⟩ => ⟨c, _, hrun.state.conn, hrun.state.descriptor⟩)
      (fun w es fired ⟨n, b, lost, c, s, hrun⟩ hlen =>
        ⟨n, b, lost, c, s, { hrun with state := hrun.state.withFired hlen }⟩)
      hstep reports w
      ⟨0, false, false, c, s,
        { count := Nat.zero_add _
          state := by simpa [replyBytes] using h
          reads := hreads
          loses := rfl
          idle := fun _ _ => rfl
          suffix := List.suffix_refl _ }⟩
  obtain rfl : n = requestsRead all := by simpa [requestsRead] using hend.count
  obtain rfl : lost = overlaps false all := by simpa [overlaps] using hend.loses
  exact ⟨w', b, c', s', hrun, hend.state, hend.idle rfl⟩

/-- **The replies are complete and in order exactly when no request is read while a reply is
queued.** What the socket accepted and what is queued are then one full reply for each request
read so far; after a writable report nothing is queued. -/
theorem replies_in_order_iff {w : World} {p : ℕ} {c : ClientT} {s : Sock}
    {reqs : List (Bytes × List Bytes)} (h : Conn w p c false) (hs : w.sys.socks c.fd = some s)
    (hin : s.inbox = (reqs.map Prod.fst).flatMap (frame headSize)) (hwilling : s.Willing)
    (hreqs : ∀ r ∈ reqs, Request w.sys.files r.1 r.2) (reports : List Mask)
    (hreads : ∀ o ∈ s.reads.take (2 * requestsRead (reports.flatMap reportedEvents)), o = .full)
    (hcount : requestsRead (reports.flatMap reportedEvents) ≤ reqs.length) :
    ∃ w' c' s', runReports c.fd reports w = .ok w' ∧ w'.heap p = some c' ∧
      w'.sys.socks c.fd = some s' ∧
      (s'.outbox ++ c'.queued = s.outbox ++
          replyBytes (reqs.take (requestsRead (reports.flatMap reportedEvents))) ↔
        overlaps false (reports.flatMap reportedEvents) = false) ∧
      ((reports.flatMap reportedEvents).getLast? = some .writable → c'.queued = []) := by
  have hstart : Answering w p c.fd w.sys.files s.outbox reqs false false c s :=
    { conn := h
      descriptor := rfl
      sock := hs
      files := rfl
      inbox := hin
      willing := hwilling
      first := by simp
      kept := fun _ => by rw [h.serving.queued_nil, List.append_nil]
      missing := by simp }
  obtain ⟨w', b, c', s', hrun, hans, hlast⟩ := answering_run hstart hreqs reports hreads hcount
  refine ⟨w', c', s', hrun, hans.conn.heap, hans.sock, ⟨fun heq => ?_, hans.kept⟩, fun hw => ?_⟩
  · by_contra hlost
    have hmissing := hans.missing (by simpa using hlost)
    rw [heq] at hmissing
    exact absurd hmissing (Nat.lt_irrefl _)
  · have hconn := hans.conn
    rw [hlast hw] at hconn
    exact hconn.serving.queued_nil

/-- Two requests, the second in one batch with its reply. -/
theorem replies_in_order_ping_ping :
    ∃ w' c' s', runReports 5 [epollIn, epollOut, epollIn ||| epollOut]
          (World.connected 5 0 { inbox := [text "ping", text "ping"].flatMap (frame headSize) }
            Files.empty) = .ok w' ∧ w'.heap 0 = some c' ∧ w'.sys.socks 5 = some s' ∧
      (s'.outbox ++ c'.queued = [] ++
          replyBytes ([(text "ping", [text "pong."]), (text "ping", [text "pong."])].take
            (requestsRead ([epollIn, epollOut, epollIn ||| epollOut].flatMap reportedEvents))) ↔
        overlaps false ([epollIn, epollOut, epollIn ||| epollOut].flatMap reportedEvents) =
          false) ∧
      (([epollIn, epollOut, epollIn ||| epollOut].flatMap reportedEvents).getLast? =
        some .writable → c'.queued = []) := by
  have harg : ArgT.process (packageText (text "ping")) = [text "ping"] := by decide +kernel
  have hping : Request Files.empty (text "ping") [text "pong."] :=
    ⟨by decide, by decide, by rw [harg]; exact .ping⟩
  have hreqs : ∀ r ∈ [(text "ping", [text "pong."]), (text "ping", [text "pong."])],
      Request Files.empty r.1 r.2 := by simpa using hping
  exact replies_in_order_iff (conn_connected 5 0 _ _) rfl rfl (by simp [Sock.Willing]) hreqs _
    (by simp) (by decide)

/-- Two requests are read before the connection is writable: there is one reply. -/
theorem replies_in_order_lost :
    ¬∃ w' s', runReports 5 [epollIn, epollIn, epollOut]
          (World.connected 5 0 { inbox := [text "ping", text "ping"].flatMap (frame headSize) }
            Files.empty) = .ok w' ∧ w'.sys.socks 5 = some s' ∧
      s'.outbox = replyBytes [(text "ping", [text "pong."]), (text "ping", [text "pong."])] := by
  have hout : ((runReports 5 [epollIn, epollIn, epollOut]
      (World.connected 5 0 { inbox := [text "ping", text "ping"].flatMap (frame headSize) }
        Files.empty)).toOption.bind fun w' => (w'.sys.socks 5).map Sock.outbox) =
      some (frame headSize (text "pong.")) := by decide +kernel
  rintro ⟨w', s', hrun, hs', hall⟩
  rw [hrun] at hout
  simp only [Except.toOption, Option.bind_some, hs', Option.map_some, Option.some.injEq] at hout
  rw [hout] at hall
  exact absurd hall (by decide)

end AsprNet.Server
