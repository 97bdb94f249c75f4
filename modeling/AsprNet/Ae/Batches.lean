import AsprNet.Ae.Dispatch
import AsprNet.Ae.Registration

/-! # What a batch of events leads to

`calls_registered`: over every run, a handler is called only for a reported direction that is
registered at that moment. `reported_heard_iff`: which batches leave no entry without a call.
-/

namespace AsprNet

variable {π δ σ : Type} {T : EventTable π δ} {e : AeFiredEvent} {hs : List (Happening π δ)}

/-! ## Tables that operations reach -/

namespace AeEventLoop

variable {l : AeEventLoop π δ}

/-- A new loop over a new epoll instance is ready, and its table empty. -/
theorem Ready.create (size : ℕ) (ctl : List Bool) :
    (AeEventLoop.create size (some (AeEpollState.create size ctl)) : AeEventLoop π δ).Ready := by
  refine ⟨Fits.create size ctl, ⟨_, rfl⟩, fun fd flag _ hreg => ?_⟩
  rw [entry_create] at hreg
  exact absurd rfl (Mask.ne_none_of_has hreg)

/-- Registrations keep a table ready. -/
theorem Ready.kept : AeArrays.Kept TableOp.InRange fun l : AeEventLoop π δ => l.Ready where
  api := fun _ h => h.api
  add := by
    intro l fd mask proc data hop h
    obtain ⟨n, rfl⟩ := Int.eq_ofNat_of_zero_le hop.1
    obtain ⟨r, l', hr, hbec⟩ := h.add n mask proc data
    exact ⟨r, l', hr, hbec.ready⟩
  del := by
    intro l fd mask hop h
    obtain ⟨n, rfl⟩ := Int.eq_ofNat_of_zero_le hop
    obtain ⟨l', hr, hbec⟩ := h.del n mask
    exact ⟨l', hr, hbec.ready⟩

/-- Every table that operations reach is ready. -/
theorem ready_of_run {heap : Blocks} {size : ℕ} {ctl : List Bool} {ops : List (TableOp π δ)}
    {a b : AeArrays π δ} (hops : ∀ op ∈ ops, op.InRange)
    (ha : AeArrays.create heap size (some (AeEpollState.create size ctl)) = .ok a)
    (hrun : ops.foldlM AeArrays.call a = .ok b) : b.loop.Ready := by
  obtain ⟨a', hcreate, hloop, -⟩ := AeArrays.create_live (π := π) (δ := δ) heap size
    (some (AeEpollState.create size ctl))
  obtain rfl := Except.ok.inj (hcreate.symm.trans ha)
  refine Ready.kept.run hops ?_ hrun
  rw [hloop]
  exact Ready.create size ctl

/-- A loop in which descriptor 5 is registered for reading. -/
def listening : AeEventLoop Unit Unit :=
  { (AeEventLoop.create 8 none).register 5 {} aeReadable () () with
    apiData := some
      { eventsSize := 8, interest := Function.update (fun _ => none) 5 (some epollIn) } }

/-- It is what a registration makes of a new loop. -/
theorem listening_ready : listening.Ready := by
  obtain ⟨a, hcreate, -⟩ := AeArrays.create_live (π := Unit) (δ := Unit) .empty 8
    (some (AeEpollState.create 8 []))
  have hops : ∀ op ∈ [TableOp.add 5 aeReadable () ()], op.InRange := by decide
  have hrun : [TableOp.add 5 aeReadable () ()].foldlM AeArrays.call a =
      .ok { a with loop := listening } := by
    obtain rfl := Except.ok.inj hcreate
    rfl
  exact ready_of_run hops hcreate hrun

end AeEventLoop

/-- Procedures that leave the table and their state alone. -/
def idle : Procs π δ σ := fun _ _ _ _ state => .done state

/-! ## Segments -/

/-- A handler call for the direction `flag`. -/
def Happening.isCall (flag : Mask) : Happening π δ → Bool
  | .called flag' _ _ _ _ => flag' == flag
  | _ => false

/-- The calls of a segment are for its entry and for what is reported there, at most one for each
direction; the segment ends before the next mark. -/
structure Serves (e : AeFiredEvent) (seg : List (Happening π δ)) : Prop where
  unmarked : ∀ e', .entered e' ∉ seg
  reported : ∀ flag fd proc data entry, .called flag fd proc data entry ∈ seg →
    fd = e.fd ∧ e.mask.has flag = true
  reads : seg.countP (Happening.isCall aeReadable) ≤ 1
  writes : seg.countP (Happening.isCall aeWritable) ≤ 1

/-- Changes are not calls. -/
theorem countP_changes {flag : Mask} (h : ∀ x ∈ hs, x.IsChange) :
    hs.countP (Happening.isCall flag) = 0 := by
  apply List.countP_eq_zero.mpr
  intro x hx
  have hchg := h x hx
  cases x with
  | called flag' fd proc data entry => exact absurd hchg not_false
  | _ => exact Bool.false_ne_true

/-- A half calls once at most, and only for its direction. -/
theorem HalfOf.countP {flag : Mask} (h : HalfOf T e flag hs) (flag' : Mask) :
    hs.countP (Happening.isCall flag') ≤ if flag = flag' then 1 else 0 := by
  rcases h with rfl | ⟨p, changes, rfl, hchg, -⟩
  · exact Nat.zero_le _
  · rw [List.countP_cons, countP_changes hchg, Nat.zero_add]
    simp only [Happening.isCall, beq_iff_eq]
    exact le_refl _

/-- A half enters no entry. -/
theorem HalfOf.unmarked {flag : Mask} (h : HalfOf T e flag hs) (e' : AeFiredEvent) :
    .entered e' ∉ hs := by
  rcases h with rfl | ⟨p, changes, rfl, hchg, -⟩
  · exact List.not_mem_nil
  · intro hmem
    rcases List.mem_cons.mp hmem with heq | hmem
    · cases heq
    · exact hchg _ hmem

/-- A half calls for its own descriptor, and for a direction that was reported. -/
theorem HalfOf.reported {flag : Mask} (h : HalfOf T e flag hs) {flag' : Mask} {fd : ℤ} {proc : π}
    {data : Option δ} {entry : AeFileEvent π δ}
    (hmem : .called flag' fd proc data entry ∈ hs) : fd = e.fd ∧ e.mask.has flag' = true := by
  rcases h with rfl | ⟨p, changes, rfl, hchg, -, -, he⟩
  · exact absurd hmem List.not_mem_nil
  · rcases List.mem_cons.mp hmem with heq | hmem
    · obtain ⟨rfl, rfl, -⟩ := Happening.called.inj heq
      exact ⟨rfl, he⟩
    · exact absurd (hchg _ hmem) not_false

/-- The call of a half is in order, since its procedure comes from the table. -/
theorem HalfOf.lawful {flag : Mask} (hflag : flag = aeReadable ∨ flag = aeWritable)
    (h : HalfOf T e flag hs) : Lawful T hs := by
  rcases h with rfl | ⟨p, changes, rfl, hchg, hp, hreg, -⟩
  · exact trivial
  · exact ⟨⟨rfl, hflag, hreg, hp, rfl⟩, Lawful.of_changes hchg _⟩

/-- The segment of an entry serves it. -/
theorem SegmentOf.serves (h : SegmentOf T e hs) : Serves e hs := by
  obtain ⟨⟨read, write, rfl, hread, hwrite⟩, -⟩ := h
  have hne : aeWritable ≠ aeReadable := by decide
  refine ⟨fun e' hmem => ?_, fun flag fd proc data entry hmem => ?_, ?_, ?_⟩
  · exact (List.mem_append.mp hmem).elim (hread.unmarked e') (hwrite.unmarked e')
  · exact (List.mem_append.mp hmem).elim hread.reported hwrite.reported
  · have h₁ := hread.countP aeReadable
    have h₂ := hwrite.countP aeReadable
    rw [if_pos rfl] at h₁
    rw [if_neg hne] at h₂
    rw [List.countP_append]
    omega
  · have h₁ := hread.countP aeWritable
    have h₂ := hwrite.countP aeWritable
    rw [if_neg hne.symm] at h₁
    rw [if_pos rfl] at h₂
    rw [List.countP_append]
    omega

/-- The calls of a segment are in order, the second from the table the first leaves. -/
theorem SegmentOf.lawful (h : SegmentOf T e hs) : Lawful T hs := by
  obtain ⟨⟨read, write, rfl, hread, hwrite⟩, -⟩ := h
  exact (lawful_append T read write).mpr
    ⟨hread.lawful (Or.inl rfl), hwrite.lawful (Or.inr rfl)⟩

variable {es : List AeFiredEvent} {segs : List (List (Happening π δ))}

/-- By induction on the batch: every segment serves its entry. -/
theorem SegmentsOf.serves (h : SegmentsOf T es segs) : List.Forall₂ Serves es segs := by
  induction h with
  | nil T => exact .nil
  | cons head tail ih => exact .cons head.serves ih

/-- By induction on the batch: the whole trace is in order. -/
theorem SegmentsOf.lawful (h : SegmentsOf T es segs) : Lawful T (traceOf es segs) := by
  induction h with
  | nil T => exact trivial
  | @cons T e es hs segs head tail ih =>
      rw [traceOf_cons]
      exact (lawful_append T _ _).mpr ⟨⟨trivial, head.lawful⟩, ih⟩

/-! ## Deregistration takes effect at once -/

/-- Each call of a lawful trace is in order for the table that the trace before it describes. -/
theorem Lawful.at {pre post : List (Happening π δ)} {x : Happening π δ}
    (h : Lawful T (pre ++ x :: post)) : x.Lawful (tableAfter T pre) :=
  ((lawful_append T pre (x :: post)).mp h).2.1

/-- **Handlers are called for what is registered.** Over every run of batches, with any handlers:
the trace has one segment for each reported event, whose calls are for that descriptor and for
reported directions, at most one for each; at each call the direction is registered, with the
procedure and the data that are passed; and between a deregistration of the direction and the call
it was registered again. -/
theorem calls_registered [DecidableEq π] (procs : Procs π δ σ) {l : AeEventLoop π δ} (hl : l.Ready)
    (state : σ) (batches : List (List EpollEvent)) (hb : ∀ b ∈ batches, l.Reports b) :
    ∃ w' segs, batches.foldlM (Traced.processEvents procs) ⟨l, state, []⟩ = .ok w' ∧
      batches.foldlM (AeEventLoop.processEvents (programHost procs)) (l, state) =
        .ok (w'.loop, w'.state) ∧
      w'.trace = traceOf (batches.flatten.map AeEventLoop.firedOf) segs ∧
      w'.loop.entry = tableAfter l.entry w'.trace ∧
      List.Forall₂ Serves (batches.flatten.map AeEventLoop.firedOf) segs ∧
      (∀ pre flag fd proc data entry post,
        w'.trace = pre ++ .called flag fd proc data entry :: post →
        entry = tableAfter l.entry pre fd ∧ (flag = aeReadable ∨ flag = aeWritable) ∧
          entry.mask.has flag = true ∧ entry.proc flag = some proc ∧ entry.clientData = data) ∧
      ∀ pre fd m mid flag proc data entry post,
        w'.trace = pre ++ .deleted fd m :: (mid ++ .called flag fd proc data entry :: post) →
        m.has flag = true →
        ∃ mask proc data, .added fd mask proc data aeOk ∈ mid ∧ mask.has flag = true := by
  obtain ⟨w', segs, hrun, htrace, hsegs, hbec⟩ :=
    Traced.run_becomes procs batches (w := ⟨l, state, []⟩) hl hb
  have htrace : w'.trace = traceOf (batches.flatten.map AeEventLoop.firedOf) segs := htrace
  have hlawful : Lawful l.entry w'.trace := htrace ▸ hsegs.lawful
  refine ⟨w', segs, hrun, ?_, htrace, htrace ▸ hbec.table, hsegs.serves, ?_, ?_⟩
  · -- without the notes this is the run of the code
    have hforget := run_map (processEvents_programHost procs) batches ⟨l, state, []⟩
    rw [hrun] at hforget
    exact hforget
  · intro pre flag fd proc data entry post hsplit
    rw [hsplit] at hlawful
    exact hlawful.at
  · intro pre fd m mid flag proc data entry post hsplit hm
    rw [hsplit, List.append_cons, ← List.append_assoc] at hlawful
    obtain ⟨hentry, hflag, hreg, -⟩ := hlawful.at
    have hf : flag.IsFlag := by
      rcases hflag with rfl | rfl
      · exact aeReadable_isFlag
      · exact aeWritable_isFlag
    rw [hentry, tableAfter_append] at hreg
    refine exists_added hf ?_ hreg
    rw [tableAfter_append]
    show (Happening.apply _ (.deleted fd m) fd).mask.has flag = false
    rw [mask_deleted, if_pos rfl, hf.has_and_not, hm, Bool.not_true, Bool.and_false]

/-- A handler that stops reading from its descriptor and begins again. -/
def rereading : Procs Unit Unit Unit := fun _ fd _ _ state =>
  .del fd.toNat aeReadable (.add fd.toNat aeReadable () () fun _ => .done state)

/-- What it leaves of one report of input for descriptor 5. -/
def rereadings : List (Happening Unit Unit) :=
  [.entered ⟨5, aeReadable⟩,
    .called aeReadable 5 () (some ()) (AeEventLoop.listening.entry 5),
    .deleted 5 aeReadable, .added 5 aeReadable () () aeOk]

/-- Input for descriptor 5 in two batches: behind the deregistration in the first, and before the
call in the second, it is registered again. -/
theorem calls_registered_rereading :
    ∃ w', [[⟨epollIn, 5⟩], [⟨epollIn, 5⟩]].foldlM
        (Traced.processEvents rereading) ⟨AeEventLoop.listening, (), []⟩ = .ok w' ∧
      [[⟨epollIn, 5⟩], [⟨epollIn, 5⟩]].foldlM
        (AeEventLoop.processEvents (programHost rereading)) (AeEventLoop.listening, ()) =
        .ok (w'.loop, w'.state) ∧
      w'.trace = rereadings ++ rereadings ∧
      ∃ mask proc data, .added 5 mask proc data aeOk ∈ [Happening.added 5 aeReadable () () aeOk,
        .entered ⟨5, aeReadable⟩] ∧ mask.has aeReadable = true := by
  obtain ⟨w', segs, hrun, hcode, -, -, -, -, hagain⟩ :=
    calls_registered rereading AeEventLoop.listening_ready () [[⟨epollIn, 5⟩], [⟨epollIn, 5⟩]]
      (by
        have hlen : AeEventLoop.listening.fdsetSize = 8 := rfl
        unfold AeEventLoop.Reports
        rw [hlen]
        decide)
  have hnotes : ([[⟨epollIn, 5⟩], [⟨epollIn, 5⟩]].foldlM
      (Traced.processEvents rereading) ⟨AeEventLoop.listening, (), []⟩).map Traced.trace =
        .ok (rereadings ++ rereadings) := by decide +kernel
  rw [hrun] at hnotes
  have htrace : w'.trace = rereadings ++ rereadings := Except.ok.inj hnotes
  exact ⟨w', hrun, hcode, htrace,
    hagain (rereadings.take 2) 5 aeReadable _ aeReadable () (some ()) _ (rereadings.drop 2) htrace
      (by decide)⟩

/-! ## Reported events that nobody hears -/

/-- A direction that is no longer registered was deleted in between. -/
theorem exists_deleted {flag : Mask} (hf : flag.IsFlag) {fd : ℤ}
    (h0 : (T fd).mask.has flag = true) (h1 : (tableAfter T hs fd).mask.has flag = false) :
    ∃ m, Happening.deleted fd m ∈ hs ∧ m.has flag = true := by
  have hlost : ∃ h ∈ hs, ∃ T' : EventTable π δ, (T' fd).mask.has flag = true ∧
      ¬(Happening.apply T' h fd).mask.has flag = true :=
    exists_lost h0 (Bool.not_eq_true _ ▸ h1)
  obtain ⟨h, hmem, T', h0, hstep⟩ := hlost
  cases h with
  | added fd' mask proc data r =>
      rw [mask_added] at hstep
      split at hstep
      · rw [hf.has_or, h0, Bool.true_or] at hstep
        exact absurd rfl hstep
      · exact absurd h0 hstep
  | deleted fd' mask =>
      rw [mask_deleted] at hstep
      split at hstep
      · rename_i hfd
        rw [hf.has_and_not, h0, Bool.true_and, Bool.not_eq_true', Bool.not_eq_false] at hstep
        exact ⟨mask, hfd ▸ hmem, hstep⟩
      · exact absurd h0 hstep
  | entered e => exact absurd h0 hstep
  | called flag' fd' proc data entry => exact absurd h0 hstep

/-- Each entry of the batch leads to a handler call for its descriptor, or a handler of an earlier
entry deleted a direction that is reported for it. -/
def Heard [DecidableEq π] (procs : Procs π δ σ) (l : AeEventLoop π δ) (state : σ)
    (batch : List EpollEvent) : Prop :=
  ∃ l', l.poll batch = .ok (batch.length, l') ∧ l'.fired.take batch.length =
      batch.map AeEventLoop.firedOf ∧
    ∀ before ev after, batch = before ++ ev :: after → ∃ w₁ w₂ seg,
      (before.map AeEventLoop.firedOf).foldlM (Traced.dispatchEntry procs) ⟨l', state, []⟩ =
        .ok w₁ ∧
      w₁.dispatchEntry procs (AeEventLoop.firedOf ev) = .ok w₂ ∧
      w₂.trace = w₁.trace ++ .entered (AeEventLoop.firedOf ev) :: seg ∧
      ((∃ flag proc data entry, .called flag ev.fd proc data entry ∈ seg) ∨
        ∃ m flag, .deleted ev.fd m ∈ w₁.trace ∧ m.has flag = true ∧
          (AeEventLoop.firedOf ev).mask.has flag = true)

/-- The events are of a kind that the kernel reports for the mask: directions of the mask, errors
and hang-ups. -/
def EpollEvent.Possible (ev : EpollEvent) (mask : Mask) : Prop :=
  ev.events ≠ 0#32 ∧ ev.events.Within (epollEvents mask ||| (epollErr ||| epollHup))

/-- `poll` maps input to reading, and everything else to writing. -/
theorem firedOf_has (ev : EpollEvent) :
    (AeEventLoop.firedOf ev).mask.has aeReadable = ev.events.has epollIn ∧
      (AeEventLoop.firedOf ev).mask.has aeWritable =
        (ev.events.has epollOut || ev.events.has epollErr || ev.events.has epollHup) := by
  unfold AeEventLoop.firedOf
  dsimp only
  cases ev.events.has epollIn <;> cases ev.events.has epollOut <;>
    cases ev.events.has epollErr <;> cases ev.events.has epollHup <;> decide

/-- A segment that is not empty holds a call. -/
theorem SegmentOf.exists_call (h : SegmentOf T e hs) (hne : hs ≠ []) :
    ∃ flag proc data entry, .called flag e.fd proc data entry ∈ hs := by
  obtain ⟨⟨read, write, rfl, hread, hwrite⟩, -⟩ := h
  rcases hread with rfl | ⟨p, changes, rfl, -⟩
  · rcases hwrite with rfl | ⟨p, changes, rfl, -⟩
    · exact absurd rfl hne
    · exact ⟨_, _, _, _, List.mem_append_right _ List.mem_cons_self⟩
  · exact ⟨_, _, _, _, List.mem_append_left _ List.mem_cons_self⟩

/-- A half is silent when its direction is not both registered and reported. -/
theorem HalfOf.eq_nil {flag : Mask} (h : HalfOf T e flag hs)
    (hno : ¬((T e.fd).mask.has flag = true ∧ e.mask.has flag = true)) : hs = [] := by
  rcases h with rfl | ⟨p, changes, -, -, -, hreg, he⟩
  · rfl
  · exact absurd ⟨hreg, he⟩ hno

/-- Nobody is called when reading is not reported and writing is not registered. -/
theorem SegmentOf.eq_nil (h : SegmentOf T e hs) (hr : ¬e.mask.has aeReadable = true)
    (hw : ¬(T e.fd).mask.has aeWritable = true) : hs = [] := by
  obtain ⟨⟨read, write, rfl, hread, hwrite⟩, -⟩ := h
  obtain rfl := hread.eq_nil (not_and_of_not_right _ hr)
  exact hwrite.eq_nil (not_and_of_not_left _ hw)

/-- An entry without a call finds no reported direction registered. -/
theorem SegmentOf.silent (h : SegmentOf T e []) {flag : Mask} (hf : flag.IsFlag)
    (hflag : flag = aeReadable ∨ flag = aeWritable) (he : e.mask.has flag = true) :
    (T e.fd).mask.has flag = false := by
  have hshared : ((T e.fd).mask &&& e.mask).has flag = false := by
    rcases hflag with rfl | rfl
    · exact (h.2 rfl).1
    · exact (h.2 rfl).2
  rw [hf.has_and, he, Bool.and_true] at hshared
  exact hshared

/-- A flag of a mask is one of every mask around it. -/
theorem Mask.IsFlag.has_of_within {flag m n : Mask} (hf : flag.IsFlag) (h : m.Within n)
    (hm : m.has flag = true) : n.has flag = true := by
  obtain ⟨i, hi, rfl⟩ := hf
  rw [Mask.has_twoPow hi] at hm ⊢
  exact Mask.within_iff.mp h i hm

/-- `EPOLLIN` is bit 0. -/
theorem epollIn_isFlag : epollIn.IsFlag := ⟨0, by decide, rfl⟩

/-- `EPOLLOUT` is bit 2. -/
theorem epollOut_isFlag : epollOut.IsFlag := ⟨2, by decide, rfl⟩

/-- Events that are possible and neither input nor output are an error or a hang-up. -/
theorem EpollEvent.Possible.has_err_or_hup {ev : EpollEvent} {mask : Mask} (h : ev.Possible mask)
    (hin : ev.events.has epollIn = false) (hout : ev.events.has epollOut = false) :
    ev.events.has epollErr = true ∨ ev.events.has epollHup = true := by
  by_contra hnone
  obtain ⟨herr, hhup⟩ := not_or.mp hnone
  apply h.1
  apply BitVec.eq_of_getLsbD_eq
  intro i hi
  rw [BitVec.getLsbD_zero]
  by_contra hbit
  have hbit : ev.events.getLsbD i = true := Bool.eq_true_of_not_eq_false hbit
  -- the bit is one of the four events
  have hall : (epollEvents mask ||| (epollErr ||| epollHup)).Within
      (epollIn ||| epollOut ||| (epollErr ||| epollHup)) := by
    unfold epollEvents
    cases mask.has aeReadable <;> cases mask.has aeWritable <;> decide
  have hfour := Mask.within_iff.mp hall i (Mask.within_iff.mp h.2 i hbit)
  have hcases : ∀ i < 32, (epollIn ||| epollOut ||| (epollErr ||| epollHup)).getLsbD i = true →
      i = 0 ∨ i = 2 ∨ i = 3 ∨ i = 4 := by decide
  have hhas : ∀ j, j < 32 → i = j → ev.events.has (BitVec.twoPow 32 j) = true := by
    intro j hj hij
    rw [Mask.has_twoPow hj, ← hij]
    exact hbit
  rcases hcases i hi hfour with h0 | h2 | h3 | h4
  · exact absurd hin (Bool.not_eq_false _ ▸ hhas 0 (by decide) h0)
  · exact absurd hout (Bool.not_eq_false _ ▸ hhas 2 (by decide) h2)
  · exact herr (hhas 3 (by decide) h3)
  · exact hhup (hhas 4 (by decide) h4)

/-- Input and output are reported for registered directions; errors and hang-ups find a handler
when the descriptor is registered for writing. -/
theorem EpollEvent.Possible.shared {ev : EpollEvent} {mask : Mask} (h : ev.Possible mask)
    (hc : ev.events.has epollIn = true ∨ ev.events.has epollOut = true ∨
      mask.has aeWritable = true) :
    ∃ flag, flag.IsFlag ∧ (flag = aeReadable ∨ flag = aeWritable) ∧ mask.has flag = true ∧
      (AeEventLoop.firedOf ev).mask.has flag = true := by
  obtain ⟨hread, hwrite⟩ := firedOf_has ev
  obtain ⟨hin, hout, -⟩ := epollEvents_has mask
  by_cases hi : ev.events.has epollIn = true
  · have hmask := epollIn_isFlag.has_of_within h.2 hi
    rw [epollIn_isFlag.has_or, hin, show (epollErr ||| epollHup).has epollIn = false by decide,
      Bool.or_false] at hmask
    exact ⟨aeReadable, aeReadable_isFlag, Or.inl rfl, hmask, hread.trans hi⟩
  by_cases ho : ev.events.has epollOut = true
  · have hmask := epollOut_isFlag.has_of_within h.2 ho
    rw [epollOut_isFlag.has_or, hout, show (epollErr ||| epollHup).has epollOut = false by decide,
      Bool.or_false] at hmask
    exact ⟨aeWritable, aeWritable_isFlag, Or.inr rfl, hmask, by rw [hwrite, ho]; rfl⟩
  · have hi := Bool.eq_false_iff.mpr hi
    have ho := Bool.eq_false_iff.mpr ho
    have hmask : mask.has aeWritable = true := by simpa [hi, ho] using hc
    refine ⟨aeWritable, aeWritable_isFlag, Or.inr rfl, hmask, ?_⟩
    rw [hwrite, ho, Bool.false_or, Bool.or_eq_true]
    exact h.has_err_or_hup hi ho

/-! ### Handlers that do nothing -/

namespace Traced

variable {w w' : Traced π δ σ}

/-- A run in which the loop stays and nothing is deleted. -/
def Quiet (w w' : Traced π δ σ) : Prop :=
  w'.loop = w.loop ∧ ∀ fd m, .deleted fd m ∈ w'.trace → .deleted fd m ∈ w.trace

/-- A handler that does nothing leaves the table and deregisters nobody. -/
theorem quiet_invoke {flag mask : Mask} {proc : Option π} {fd : ℤ} {data : Option δ}
    (h : (host idle flag).invoke proc fd data mask w = .ok w') : Quiet w w' := by
  cases proc with
  | none => cases h
  | some p =>
      cases h
      refine ⟨rfl, fun fd m hmem => ?_⟩
      rcases List.mem_append.mp hmem with hmem | hmem
      · exact hmem
      · cases List.mem_singleton.mp hmem

variable [DecidableEq π] {e : AeFiredEvent}

/-- An entry served by such handlers. -/
theorem quiet_dispatchEntry (h : w.dispatchEntry idle e = .ok w') : Quiet w w' := by
  unfold Traced.dispatchEntry at h
  obtain ⟨⟨rfired, w₁⟩, hread, hwrite⟩ := bind_eq_ok.mp h
  have hquiet₁ : Quiet { w with trace := w.trace ++ [.entered e] } w₁ := by
    unfold AeEventLoop.readHalf at hread
    obtain ⟨fe, -, hread⟩ := bind_eq_ok.mp hread
    split at hread
    · obtain ⟨w₂, hinv, hret⟩ := bind_eq_ok.mp hread
      cases hret
      exact quiet_invoke hinv
    · cases hread
      exact ⟨rfl, fun fd m hmem => hmem⟩
  have hquiet₂ : Quiet w₁ w' := by
    unfold AeEventLoop.writeHalf at hwrite
    obtain ⟨fe, -, hwrite⟩ := bind_eq_ok.mp hwrite
    split at hwrite
    · exact quiet_invoke hwrite
    · cases hwrite
      exact ⟨rfl, fun fd m hmem => hmem⟩
  refine ⟨hquiet₂.1.trans hquiet₁.1, fun fd m hmem => ?_⟩
  rcases List.mem_append.mp (hquiet₁.2 fd m (hquiet₂.2 fd m hmem)) with hmem | hmem
  · exact hmem
  · cases List.mem_singleton.mp hmem

/-- A batch served by such handlers. -/
theorem quiet_fold {es : List AeFiredEvent} (h : es.foldlM (dispatchEntry idle) w = .ok w') :
    Quiet w w' := by
  have hstep : ∀ (s : Traced π δ σ) (e : AeFiredEvent) (s' : Traced π δ σ), True → Quiet w s →
      s.dispatchEntry idle e = .ok s' → Quiet w s' := by
    intro s e s' _ hs hrun
    have hquiet := quiet_dispatchEntry hrun
    exact ⟨hquiet.1.trans hs.1, fun fd m hmem => hs.2 fd m (hquiet.2 fd m hmem)⟩
  exact run_invariant hstep es w w' (fun _ _ => trivial) ⟨rfl, fun _ _ hmem => hmem⟩ h

end Traced

/-- Handlers that do nothing are called only for input, for output or on a descriptor that is
registered for writing. -/
theorem reported_of_heard [DecidableEq π] {l : AeEventLoop π δ} (hl : l.Ready) {state : σ}
    {batch : List EpollEvent} (hb : l.Reports batch) (hheard : Heard idle l state batch)
    {ev : EpollEvent} (hmem : ev ∈ batch) :
    ev.events.has epollIn = true ∨ ev.events.has epollOut = true ∨
      (l.entry ev.fd).mask.has aeWritable = true := by
  obtain ⟨l', hpoll, -, hbec⟩ := hl.poll hb
  have hentry : l'.entry = l.entry := hbec.table
  by_contra hcond
  obtain ⟨hin, hcond⟩ := not_or.mp hcond
  obtain ⟨-, hnw⟩ := not_or.mp hcond
  obtain ⟨before, after, hsplit⟩ := List.append_of_mem hmem
  obtain ⟨l'', hpoll', -, hheard⟩ := hheard
  obtain ⟨-, rfl⟩ := Prod.mk.inj (Except.ok.inj (hpoll'.symm.trans hpoll))
  obtain ⟨w₁, w₂, seg, hrun, hstep, htrace, hcall⟩ := hheard before ev after hsplit
  have hquiet := Traced.quiet_fold hrun
  have hloop : w₁.loop = l'' := hquiet.1
  have hlt : ev.fd < w₁.loop.fdsetSize := by
    rw [hloop, hbec.size]
    exact (hb.2 ev hmem).2
  obtain ⟨w₂', seg', hstep', htrace', hseg, -⟩ :=
    Traced.dispatchEntry_becomes (w := w₁) (e := AeEventLoop.firedOf ev)
      (hloop ▸ hbec.ready) idle (hb.2 ev hmem).1 hlt
  obtain rfl := Except.ok.inj (hstep.symm.trans hstep')
  obtain rfl : seg = seg' := (List.cons.inj (List.append_cancel_left
    (htrace.symm.trans htrace'))).2
  have hnil : seg = [] := by
    apply hseg.eq_nil
    · rw [(firedOf_has ev).1]
      exact hin
    · rw [hloop, hentry]
      exact hnw
  rcases hcall with ⟨flag, proc, data, entry, hcall⟩ | ⟨m, flag, hdel, -⟩
  · rw [hnil] at hcall
    exact List.not_mem_nil hcall
  · exact absurd (hquiet.2 _ _ hdel) List.not_mem_nil

/-- Where table and report share a direction, its handler is called or was taken away before. -/
theorem heard_of_reported [DecidableEq π] {l : AeEventLoop π δ} (hl : l.Ready) (state : σ)
    {batch : List EpollEvent} (hb : l.Reports batch)
    (hev : ∀ ev ∈ batch, ev.Possible (l.entry ev.fd).mask)
    (hcond : ∀ ev ∈ batch, ev.events.has epollIn = true ∨ ev.events.has epollOut = true ∨
      (l.entry ev.fd).mask.has aeWritable = true) (procs : Procs π δ σ) :
    Heard procs l state batch := by
  obtain ⟨l', hpoll, hfired, hbec⟩ := hl.poll hb
  have hentry : l'.entry = l.entry := hbec.table
  refine ⟨l', hpoll, hfired, fun before ev after hsplit => ?_⟩
  have hmem : ev ∈ batch := by simp [hsplit]
  have hrange : ∀ e ∈ before.map AeEventLoop.firedOf, 0 ≤ e.fd ∧ e.fd < l'.fdsetSize := by
    intro e he
    obtain ⟨ev', hev', rfl⟩ := List.mem_map.mp he
    rw [hbec.size]
    exact hb.2 ev' (by simp [hsplit, hev'])
  obtain ⟨w₁, segs, hrun, htrace, hsegs, hbec₁⟩ :=
    Traced.fold_becomes procs (before.map AeEventLoop.firedOf) (w := ⟨l', state, []⟩)
      hbec.ready hrange
  have hsize : w₁.loop.fdsetSize = l.fdsetSize := hbec₁.size.trans hbec.size
  obtain ⟨w₂, seg, hstep, htrace₂, hseg, -⟩ :=
    Traced.dispatchEntry_becomes (e := AeEventLoop.firedOf ev) hbec₁.ready procs
      (hb.2 ev hmem).1 (by rw [hsize]; exact (hb.2 ev hmem).2)
  refine ⟨w₁, w₂, seg, hrun, hstep, htrace₂, ?_⟩
  by_cases hnil : seg = []
  · -- the direction that table and report share is gone
    right
    obtain ⟨flag, hf, hflag, hreg, hfire⟩ := (hev ev hmem).shared (hcond ev hmem)
    have hsilent : (w₁.loop.entry ev.fd).mask.has flag = false :=
      (hnil ▸ hseg).silent hf hflag hfire
    rw [hbec₁.table] at hsilent
    have hstart : ((⟨l', state, []⟩ : Traced π δ σ).loop.entry ev.fd).mask.has flag = true := by
      show (l'.entry ev.fd).mask.has flag = true
      rw [hentry]
      exact hreg
    obtain ⟨m, hdel, hm⟩ := exists_deleted hf hstart hsilent
    refine ⟨m, flag, ?_, hm, hfire⟩
    rw [htrace]
    exact List.mem_append_right _ hdel
  · exact Or.inl (hseg.exists_call hnil)

/-- **An entry goes unheard exactly when an error or a hang-up is all that is reported of a
descriptor that is not registered for writing**: `poll` maps both to writing only. -/
theorem reported_heard_iff [DecidableEq π] {l : AeEventLoop π δ} (hl : l.Ready) (state : σ)
    {batch : List EpollEvent} (hb : l.Reports batch)
    (hev : ∀ ev ∈ batch, ev.Possible (l.entry ev.fd).mask) :
    (∀ procs : Procs π δ σ, Heard procs l state batch) ↔
      ∀ ev ∈ batch, ev.events.has epollIn = true ∨ ev.events.has epollOut = true ∨
        (l.entry ev.fd).mask.has aeWritable = true := by
  constructor
  · intro hheard ev hmem
    exact reported_of_heard hl hb (hheard idle) hmem
  · intro hcond procs
    exact heard_of_reported hl state hb hev hcond procs

/-- A hang-up of the descriptor that `listening` only reads from. -/
def hangup : EpollEvent := { events := epollHup, fd := 5 }

/-- `process_events` calls nobody for it. The interest set stays as it is, so the next `epoll_wait`
reports it again. -/
theorem hangup_unheard :
    AeEventLoop.listening.Ready ∧ AeEventLoop.listening.Reports [hangup] ∧
      hangup.Possible (AeEventLoop.listening.entry 5).mask ∧
      ¬Heard (idle : Procs Unit Unit Unit) AeEventLoop.listening () [hangup] := by
  refine ⟨AeEventLoop.listening_ready, ⟨by decide, by decide⟩, ⟨by decide, by decide⟩, ?_⟩
  rintro ⟨l', hpoll, -, hheard⟩
  obtain ⟨w₁, w₂, seg, hrun, hstep, htrace, hcall⟩ := hheard [] hangup [] rfl
  cases hpoll
  cases hrun
  cases hstep
  obtain rfl : seg = [] := (List.cons.inj htrace).2.symm
  rcases hcall with ⟨flag, proc, data, entry, hmem⟩ | ⟨m, flag, hmem, -⟩
  · exact List.not_mem_nil hmem
  · exact List.not_mem_nil hmem

/-- Input is heard. -/
theorem input_heard :
    (∀ procs : Procs Unit Unit Unit, Heard procs AeEventLoop.listening () [⟨epollIn, 5⟩]) ↔
      ∀ ev ∈ [(⟨epollIn, 5⟩ : EpollEvent)], ev.events.has epollIn = true ∨
        ev.events.has epollOut = true ∨
        (AeEventLoop.listening.entry ev.fd).mask.has aeWritable = true :=
  reported_heard_iff AeEventLoop.listening_ready () ⟨by decide, by decide⟩
    (by
      intro ev hev
      obtain rfl := List.mem_singleton.mp hev
      exact ⟨by decide, by decide⟩)

end AsprNet
