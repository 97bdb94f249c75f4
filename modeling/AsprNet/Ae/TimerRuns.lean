import AsprNet.Ae.Timers

/-! # Runs of timer calls

A deletion writes `AE_DELETED_EVENT_ID` over the id of a record and leaves the record where the
next deletion searches. So over a whole run `del_time_event` answers by what was added and deleted
before, unless it is asked for that mark (`timer_ids_iff`).
-/

namespace AsprNet

/-- A call on the timers of a loop. `process` is `process_events(flags)` while `_max_fd` is `maxFd`;
the calls that its handlers make follow it in a run, for it polls first. -/
inductive TimerOp (π τ δ : Type)
  | add (r : TimerRequest π τ δ)
  | del (id : ℤ)
  | process (maxFd : ℤ) (flags : Mask) (now : ClockReading)

/-- What is seen of a call: its result, and for `process` the timeout it polls with. -/
inductive TimerEvent
  | added (id : ℤ)
  | deleted (id result : ℤ)
  | polled (timeout : Option ℤ)
deriving DecidableEq, Repr

namespace AeTimers

variable {π τ δ : Type}

def call (t : AeTimers π τ δ) : TimerOp π τ δ → TimerEvent × AeTimers π τ δ
  | .add r =>
    let (id, t) := t.addTimeEvent r
    (.added id, t)
  | .del id =>
    let (result, t) := t.delTimeEvent id
    (.deleted id result, t)
  | .process maxFd flags now =>
    (.polled (t.pollTimeout maxFd flags now), t.processTimeEvents.2)

/-- The timers after a run. -/
def after (t : AeTimers π τ δ) : List (TimerOp π τ δ) → AeTimers π τ δ
  | [] => t
  | op :: ops => (t.call op).2.after ops

/-- What is seen of a run. -/
def trace (t : AeTimers π τ δ) : List (TimerOp π τ δ) → List TimerEvent
  | [] => []
  | op :: ops => (t.call op).1 :: (t.call op).2.trace ops

/-- Operations in turn. -/
theorem after_append (t : AeTimers π τ δ) (a b : List (TimerOp π τ δ)) :
    t.after (a ++ b) = (t.after a).after b := by
  induction a generalizing t with
  | nil => rfl
  | cons op a ih => exact ih _

/-! ## What a deletion does -/

/-- The search ends at the first record with the id, and the mark is put on that record. -/
theorem markDeleted_eq_some {id : ℤ} {l l' : List (AeTimeEvent π τ δ)}
    (h : markDeleted id l = some l') :
    ∃ a te b, l = a ++ te :: b ∧ te.id = id ∧
      l' = a ++ { te with id := aeDeletedEventId } :: b := by
  induction l generalizing l' with
  | nil => cases h
  | cons te l ih =>
      rw [markDeleted] at h
      split_ifs at h with hid
      · obtain rfl := Option.some.inj h
        exact ⟨[], te, l, rfl, hid, rfl⟩
      · obtain ⟨l₁, hl₁, rfl⟩ := Option.map_eq_some_iff.mp h
        obtain ⟨a, te', b, rfl, hte, rfl⟩ := ih hl₁
        exact ⟨te :: a, te', b, rfl, hte, rfl⟩

/-- No record is marked when none has the id. -/
theorem markDeleted_eq_none {id : ℤ} {l : List (AeTimeEvent π τ δ)} :
    markDeleted id l = none ↔ ∀ te ∈ l, te.id ≠ id := by
  induction l with
  | nil => simp [markDeleted]
  | cons te l ih =>
      rw [markDeleted]
      by_cases hid : te.id = id
      · simp [hid]
      · simp [hid, ih]

/-- **`del_time_event`**: no record has the id and nothing happens, or the first one that has it is
marked. -/
theorem delTimeEvent_cases (t : AeTimers π τ δ) (id : ℤ) :
    ((∀ te ∈ t.list, te.id ≠ id) ∧ t.delTimeEvent id = (aeErr, t)) ∨
      ∃ a te b, t.list = a ++ te :: b ∧ te.id = id ∧
        t.delTimeEvent id =
          (aeOk, { t with list := a ++ { te with id := aeDeletedEventId } :: b }) := by
  unfold delTimeEvent
  cases hmark : markDeleted id t.list with
  | none => exact Or.inl ⟨markDeleted_eq_none.mp hmark, rfl⟩
  | some l =>
      obtain ⟨a, te, b, hl, hid, rfl⟩ := markDeleted_eq_some hmark
      exact Or.inr ⟨a, te, b, hl, hid, rfl⟩

/-- The answer tells whether a record has the id, a marked one included. -/
theorem delTimeEvent_ok_iff (t : AeTimers π τ δ) (id : ℤ) :
    (t.delTimeEvent id).1 = aeOk ↔ ∃ te ∈ t.list, te.id = id := by
  rcases t.delTimeEvent_cases id with ⟨hnone, heq⟩ | ⟨a, te, b, hl, hid, heq⟩
  · rw [heq]
    refine iff_of_false (show aeErr ≠ aeOk by decide) ?_
    rintro ⟨te, hte, hid⟩
    exact hnone te hte hid
  · rw [heq]
    exact iff_of_true rfl ⟨te, by rw [hl]; simp, hid⟩

end AeTimers

/-! ## Identifiers -/

/-- The ids that `add_time_event` returned. -/
def addedIds (hist : List TimerEvent) : List ℤ :=
  hist.filterMap fun
    | .added id => some id
    | _ => none

/-- An event that is no addition. -/
theorem addedIds_concat {hist : List TimerEvent} {e : TimerEvent} (he : ∀ id, e ≠ .added id) :
    addedIds (hist ++ [e]) = addedIds hist := by
  rw [addedIds, List.filterMap_append]
  cases e with
  | added id => exact absurd rfl (he id)
  | deleted id result => exact List.append_nil _
  | polled timeout => exact List.append_nil _

/-- The id was returned by `add_time_event` and has not been deleted with success since. -/
def Live (hist : List TimerEvent) (id : ℤ) : Prop :=
  ∃ a b, hist = a ++ .added id :: b ∧ .deleted id aeOk ∉ b

/-- Before the first operation no id is live. -/
theorem not_live_nil (id : ℤ) : ¬Live [] id := by
  rintro ⟨a, b, h, -⟩
  exact absurd h (by simp)

/-- One more event decides, unless it is about something else. -/
theorem live_concat {hist : List TimerEvent} {e : TimerEvent} {id : ℤ} :
    Live (hist ++ [e]) id ↔ e = .added id ∨ (Live hist id ∧ e ≠ .deleted id aeOk) := by
  constructor
  · rintro ⟨a, b, h, hb⟩
    cases b using List.reverseRecOn with
    | nil =>
        obtain ⟨-, he⟩ := List.append_inj' h rfl
        exact Or.inl (List.singleton_inj.mp he)
    | append_singleton b e' =>
        rw [List.mem_append, not_or, List.mem_singleton] at hb
        rw [← List.cons_append, ← List.append_assoc] at h
        obtain ⟨hhist, he⟩ := List.append_inj' h rfl
        obtain rfl := List.singleton_inj.mp he
        exact Or.inr ⟨⟨a, b, hhist, hb.1⟩, Ne.symm hb.2⟩
  · rintro (rfl | ⟨⟨a, b, rfl, hb⟩, he⟩)
    · exact ⟨hist, [], rfl, List.not_mem_nil⟩
    · refine ⟨a, b ++ [e], by simp, ?_⟩
      rw [List.mem_append, not_or, List.mem_singleton]
      exact ⟨hb, Ne.symm he⟩

/-- No two records have one id, marked ones apart. -/
def DistinctIds {π τ δ : Type} (l : List (AeTimeEvent π τ δ)) : Prop :=
  l.Pairwise fun te te' => te.id = te'.id → te.id = aeDeletedEventId

/-- After a record was marked, its id is that of no record, unless it was marked before. -/
theorem exists_id_marked {π τ δ : Type} {l a b : List (AeTimeEvent π τ δ)} {te : AeTimeEvent π τ δ}
    (hdist : DistinctIds l) (hl : l = a ++ te :: b) (id : ℤ) :
    (∃ x ∈ a ++ { te with id := aeDeletedEventId } :: b, x.id = id) ↔
      id = aeDeletedEventId ∨ ((∃ x ∈ l, x.id = id) ∧ id ≠ te.id) := by
  subst hl
  rw [DistinctIds, List.pairwise_append, List.pairwise_cons] at hdist
  obtain ⟨-, ⟨hte, -⟩, hab⟩ := hdist
  constructor
  · rintro ⟨x, hx, rfl⟩
    rcases List.mem_append.mp hx with hx | hx
    · by_cases heq : x.id = te.id
      · exact Or.inl (hab x hx te List.mem_cons_self heq)
      · exact Or.inr ⟨⟨x, List.mem_append_left _ hx, rfl⟩, heq⟩
    · rcases List.mem_cons.mp hx with rfl | hx
      · exact Or.inl rfl
      · by_cases heq : te.id = x.id
        · exact Or.inl (heq ▸ hte x hx heq)
        · exact Or.inr ⟨⟨x, List.mem_append_right _ (List.mem_cons_of_mem _ hx), rfl⟩,
            Ne.symm heq⟩
  · rintro (rfl | ⟨⟨x, hx, rfl⟩, hne⟩)
    · exact ⟨_, List.mem_append_right _ List.mem_cons_self, rfl⟩
    · refine ⟨x, ?_, rfl⟩
      rcases List.mem_append.mp hx with hx | hx
      · exact List.mem_append_left _ hx
      · rcases List.mem_cons.mp hx with rfl | hx
        · exact absurd rfl hne
        · exact List.mem_append_right _ (List.mem_cons_of_mem _ hx)

/-- The records that carry an id are the timers in use. -/
structure Ledger {π τ δ : Type} (hist : List TimerEvent) (t : AeTimers π τ δ) : Prop where
  next : 0 ≤ t.nextId
  added : ∀ id ∈ addedIds hist, 0 ≤ id ∧ id < t.nextId
  nodup : (addedIds hist).Nodup
  distinct : DistinctIds t.list
  live : ∀ id, Live hist id ↔ id ≠ aeDeletedEventId ∧ ∃ te ∈ t.list, te.id = id

namespace Ledger

variable {π τ δ : Type} {hist : List TimerEvent} {t : AeTimers π τ δ}

/-- The ledger of no operations. -/
theorem start : Ledger [] ({} : AeTimers π τ δ) where
  next := le_rfl
  added := fun _ h => absurd h List.not_mem_nil
  nodup := List.nodup_nil
  distinct := List.Pairwise.nil
  live := fun id => iff_of_false (not_live_nil id) fun h => by
    obtain ⟨-, te, hte, -⟩ := h
    exact absurd hte List.not_mem_nil

/-- An id in use was returned. -/
theorem mem_addedIds_of_live {id : ℤ} (h : Live hist id) : id ∈ addedIds hist := by
  obtain ⟨a, b, rfl, -⟩ := h
  rw [addedIds, List.mem_filterMap]
  exact ⟨.added id, by simp, rfl⟩

/-- An event that neither adds nor deletes. -/
theorem idle (h : Ledger hist t) {e : TimerEvent} (hadd : ∀ id, e ≠ .added id)
    (hdel : ∀ id, e ≠ .deleted id aeOk) : Ledger (hist ++ [e]) t := by
  refine ⟨h.next, ?_, ?_, h.distinct, ?_⟩
  · rw [addedIds_concat hadd]
    exact h.added
  · rw [addedIds_concat hadd]
    exact h.nodup
  · intro id
    rw [live_concat, or_iff_right (hadd id), and_iff_left (hdel id)]
    exact h.live id

/-- The next id is no mark, and the id of no record. -/
theorem fresh (h : Ledger hist t) :
    t.nextId ≠ aeDeletedEventId ∧ ∀ te ∈ t.list, t.nextId ≠ te.id := by
  have hnext := h.next
  have hmark : t.nextId ≠ aeDeletedEventId := by
    intro hdel
    rw [hdel] at hnext
    exact absurd hnext (by decide)
  refine ⟨hmark, ?_⟩
  intro te hte heq
  have hlive : Live hist te.id := (h.live _).mpr ⟨heq ▸ hmark, te, hte, rfl⟩
  have hlt := (h.added _ (mem_addedIds_of_live hlive)).2
  omega

/-- Adding a timer enters the next id. -/
theorem addTimeEvent (h : Ledger hist t) (r : TimerRequest π τ δ) :
    Ledger (hist ++ [.added t.nextId]) (t.addTimeEvent r).2 := by
  have hnext := h.next
  have hids : addedIds (hist ++ [.added t.nextId]) = addedIds hist ++ [t.nextId] := by
    rw [addedIds, List.filterMap_append]
    rfl
  refine ⟨?_, ?_, ?_, ?_, ?_⟩
  · exact hnext.trans (Int.le_add_one le_rfl)
  · intro id hid
    show 0 ≤ id ∧ id < t.nextId + 1
    rw [hids, List.mem_append, List.mem_singleton] at hid
    rcases hid with hid | rfl
    · have := h.added id hid
      omega
    · omega
  · rw [hids]
    refine List.nodup_append.mpr ⟨h.nodup, by simp, ?_⟩
    intro id hid id' hid' heq
    rw [List.mem_singleton.mp hid'] at heq
    exact absurd (h.added id hid).2 heq.ge.not_gt
  · refine List.pairwise_cons.mpr ⟨?_, h.distinct⟩
    intro te hte heq
    exact absurd heq (h.fresh.2 te hte)
  · intro id
    have hrecord : (∃ te ∈ (t.addTimeEvent r).2.list, te.id = id) ↔
        t.nextId = id ∨ ∃ te ∈ t.list, te.id = id := by
      show (∃ te ∈ AeTimeEvent.create t.nextId r :: t.list, te.id = id) ↔ _
      rw [List.exists_mem_cons_iff]
      rfl
    rw [live_concat, h.live, hrecord]
    constructor
    · rintro (heq | ⟨⟨hid, hmem⟩, -⟩)
      · obtain rfl : t.nextId = id := TimerEvent.added.inj heq
        exact ⟨h.fresh.1, Or.inl rfl⟩
      · exact ⟨hid, Or.inr hmem⟩
    · rintro ⟨hid, rfl | hmem⟩
      · exact Or.inl rfl
      · exact Or.inr ⟨⟨hid, hmem⟩, TimerEvent.noConfusion⟩

/-- A deletion without success, or one that marks a record. -/
theorem delTimeEvent (h : Ledger hist t) (id : ℤ) :
    Ledger (hist ++ [.deleted id (t.delTimeEvent id).1]) (t.delTimeEvent id).2 := by
  have hadd (result : ℤ) : ∀ id', TimerEvent.deleted id result ≠ .added id' := by
    intro id' hid'
    cases hid'
  rcases t.delTimeEvent_cases id with ⟨-, heq⟩ | ⟨a, te, b, hl, hid, heq⟩
  · rw [heq]
    refine h.idle (hadd aeErr) ?_
    intro id' hid'
    exact absurd (TimerEvent.deleted.inj hid').2 (show aeErr ≠ aeOk by decide)
  · rw [heq]
    have hdist := h.distinct
    rw [DistinctIds, hl, List.pairwise_append, List.pairwise_cons] at hdist
    obtain ⟨ha, ⟨hte, hb⟩, hab⟩ := hdist
    have hids : addedIds (hist ++ [.deleted id aeOk]) = addedIds hist :=
      addedIds_concat (hadd aeOk)
    refine ⟨h.next, hids ▸ h.added, hids ▸ h.nodup, ?_, ?_⟩
    · refine List.pairwise_append.mpr ⟨ha, List.pairwise_cons.mpr ⟨fun _ _ _ => rfl, hb⟩, ?_⟩
      intro x hx y hy hxy
      rcases List.mem_cons.mp hy with rfl | hy
      · exact hxy
      · exact hab x hx y (List.mem_cons_of_mem _ hy) hxy
    · -- one id is in use no longer, and the mark is no id
      intro id'
      rw [live_concat, h.live, and_assoc, exists_id_marked h.distinct hl, ← hid]
      constructor
      · rintro (hadd | ⟨hid', hmem, hne⟩)
        · cases hadd
        · exact ⟨hid', Or.inr ⟨hmem, fun heq => hne (by rw [heq])⟩⟩
      · rintro ⟨hid', hmark | ⟨hmem, hne⟩⟩
        · exact absurd hmark hid'
        · exact Or.inr ⟨hid', hmem, fun heq => hne (TimerEvent.deleted.inj heq).1.symm⟩

/-- **One call.** -/
theorem call (h : Ledger hist t) (op : TimerOp π τ δ) :
    Ledger (hist ++ [(t.call op).1]) (t.call op).2 := by
  cases op with
  | add r => exact h.addTimeEvent r
  | del id => exact h.delTimeEvent id
  | process maxFd flags now =>
      exact h.idle (fun _ => TimerEvent.noConfusion) (fun _ => TimerEvent.noConfusion)

/-- **Every run.** -/
theorem run (h : Ledger hist t) (ops : List (TimerOp π τ δ)) :
    Ledger (hist ++ t.trace ops) (t.after ops) := by
  induction ops generalizing hist t with
  | nil =>
      rw [AeTimers.trace, List.append_nil]
      exact h
  | cons op ops ih =>
      have hrest := ih (h.call op)
      rwa [List.append_assoc] at hrest

end Ledger

/-- What a call of `del_time_event` should do after a history. -/
structure DeletesTimer {π τ δ : Type} (hist : List TimerEvent) (t : AeTimers π τ δ) (id : ℤ) :
    Prop where
  answer : (t.delTimeEvent id).1 = aeOk ↔ Live hist id
  refused : (t.delTimeEvent id).1 ≠ aeOk → t.delTimeEvent id = (aeErr, t)
  marked : (t.delTimeEvent id).1 = aeOk → ∃ a te b, t.list = a ++ te :: b ∧ te.id = id ∧
    (t.delTimeEvent id).2.list = a ++ { te with id := aeDeletedEventId } :: b

/-- Deletion does what it says unless the id is the mark of deleted records and one of them is in
the list. -/
theorem deletesTimer_iff {π τ δ : Type} {hist : List TimerEvent} {t : AeTimers π τ δ}
    (h : Ledger hist t) (id : ℤ) :
    DeletesTimer hist t id ↔ (id = aeDeletedEventId → ∀ te ∈ t.list, te.id ≠ aeDeletedEventId) := by
  have hanswer := t.delTimeEvent_ok_iff id
  constructor
  · -- a marked record would be found, and no timer has that id
    rintro hdel rfl te hte hid
    have hlive := hdel.answer.mp (hanswer.mpr ⟨te, hte, hid⟩)
    exact ((h.live _).mp hlive).1 rfl
  · intro hid
    refine ⟨?_, ?_, ?_⟩
    · rw [hanswer, h.live]
      constructor
      · rintro ⟨te, hte, rfl⟩
        exact ⟨fun heq => hid heq te hte heq, te, hte, rfl⟩
      · exact fun hmem => hmem.2
    · intro herr
      rcases t.delTimeEvent_cases id with ⟨-, heq⟩ | ⟨a, te, b, -, -, heq⟩
      · exact heq
      · rw [heq] at herr
        exact absurd rfl herr
    · intro hok
      rcases t.delTimeEvent_cases id with ⟨-, heq⟩ | ⟨a, te, b, hl, hte, heq⟩
      · rw [heq] at hok
        exact absurd hok (show aeErr ≠ aeOk by decide)
      · exact ⟨a, te, b, hl, hte, by rw [heq]⟩

/-- **Timer identifiers.** In every run the ids that `add_time_event` returns are distinct, and
`del_time_event` answers by the history and touches only the record it deletes, exactly when it is
never called with `AE_DELETED_EVENT_ID` while a deleted record is in the list. -/
theorem timer_ids_iff {π τ δ : Type} (ops : List (TimerOp π τ δ)) :
    ((addedIds (AeTimers.trace {} ops)).Nodup ∧
        ∀ pre id post, ops = pre ++ .del id :: post →
          DeletesTimer (AeTimers.trace {} pre) (AeTimers.after {} pre) id) ↔
      ∀ pre post, ops = pre ++ .del aeDeletedEventId :: post →
        ∀ te ∈ (AeTimers.after {} pre).list, te.id ≠ aeDeletedEventId := by
  have hrun (pre : List (TimerOp π τ δ)) :
      Ledger (AeTimers.trace {} pre) (AeTimers.after {} pre) := Ledger.start.run pre
  constructor
  · rintro ⟨-, hdel⟩ pre post hops
    exact (deletesTimer_iff (hrun pre) _).mp (hdel pre _ post hops) rfl
  · intro hmark
    refine ⟨(hrun ops).nodup, ?_⟩
    intro pre id post hops
    refine (deletesTimer_iff (hrun pre) id).mpr ?_
    rintro rfl
    exact hmark pre post hops

/-- A timer is created and deleted, and then `AE_DELETED_EVENT_ID` is deleted as well. -/
theorem deleted_again :
    ((AeTimers.after {} [.add (requestAtEpoch 5), .del 0]).delTimeEvent aeDeletedEventId).1 = aeOk ∧
      ¬((addedIds (AeTimers.trace {}
            [.add (requestAtEpoch 5), .del 0, .del aeDeletedEventId])).Nodup ∧
          ∀ pre id post, [.add (requestAtEpoch 5), .del 0, .del aeDeletedEventId] =
              pre ++ .del id :: post →
            DeletesTimer (AeTimers.trace {} pre) (AeTimers.after {} pre) id) := by
  have hok : ((AeTimers.after {}
      [.add (requestAtEpoch 5), .del 0]).delTimeEvent aeDeletedEventId).1 = aeOk := by
    rw [AeTimers.delTimeEvent_ok_iff]
    exact ⟨_, List.mem_cons_self, rfl⟩
  refine ⟨hok, ?_⟩
  rintro ⟨-, hdel⟩
  have hlive := (hdel [.add (requestAtEpoch 5), .del 0] aeDeletedEventId [] rfl).answer.mp hok
  have hledger := Ledger.start.run [.add (requestAtEpoch 5), .del 0]
  exact ((hledger.live _).mp hlive).1 rfl

end AsprNet
