import AsprNet.Ae.TimerRuns

/-! # What is left of a deleted timer

The record of a deleted timer stays in the list, and `nearest_time_event` does not look at ids. So
the loop sleeps as if the timer were there: it has no influence on a poll only where the poll does
not look for timers, another record comes first, or both are overdue (`deleted_timer_polls`).
-/

namespace AsprNet

/-- The fields of the record that a request makes. They do not depend on its id. -/
def TimerRequest.when {π τ δ : Type} (r : TimerRequest π τ δ) : ℤ ×ₗ ℤ :=
  (AeTimeEvent.create 0 r).when

/-- The call with another id to delete. -/
def TimerOp.rename {π τ δ : Type} (ρ : ℤ → ℤ) : TimerOp π τ δ → TimerOp π τ δ
  | .add r => .add r
  | .del id => .del (ρ id)
  | .process maxFd flags now => .process maxFd flags now

/-- The timeouts that a run polls with. -/
def timeouts (hist : List TimerEvent) : List (Option ℤ) :=
  hist.filterMap fun
    | .polled timeout => some timeout
    | _ => none

/-- The time that two fields stand for, in milliseconds. -/
def dueMs (w : ℤ ×ₗ ℤ) : ℤ := (ofLex w).1 * 1000 + (ofLex w).2

/-- The milliseconds from a clock reading to that time. -/
def waitMs (now : ClockReading) (w : ℤ ×ₗ ℤ) : ℤ := max 0 (dueMs w - now.inMs)

/-- Two times leave as long to wait when they are the same or have both come. -/
theorem waitMs_eq_iff (now : ClockReading) (w d : ℤ ×ₗ ℤ) :
    waitMs now w = waitMs now d ↔
      dueMs w = dueMs d ∨ (dueMs w ≤ now.inMs ∧ dueMs d ≤ now.inMs) := by
  unfold waitMs
  omega

namespace AeTimers

variable {π τ δ : Type} {t t' : AeTimers π τ δ} {d : ℤ ×ₗ ℤ}

/-- What `nearest_time_event` sees of the list. -/
def whens (t : AeTimers π τ δ) : List (ℤ ×ₗ ℤ) := t.list.map AeTimeEvent.when

/-- The fields of the nearest record. -/
def earliest (t : AeTimers π τ δ) : WithTop (ℤ ×ₗ ℤ) := t.whens.minimum

/-- The earliest due time is that of a record that is due first. -/
theorem earliest_eq_argmin (t : AeTimers π τ δ) :
    t.earliest = ((t.list.argmin AeTimeEvent.when).map AeTimeEvent.when : Option _) := by
  cases hnear : t.list.argmin AeTimeEvent.when with
  | none =>
      rw [List.argmin_eq_none] at hnear
      rw [earliest, whens, hnear]
      rfl
  | some te =>
      refine List.minimum_eq_coe_iff.mpr ⟨List.mem_map_of_mem (List.argmin_mem hnear), ?_⟩
      intro w hw
      obtain ⟨te', hte', rfl⟩ := List.mem_map.mp hw
      exact List.le_of_mem_argmin hte' hnear

/-- The timeout by the nearest record. -/
theorem pollTimeout_earliest (t : AeTimers π τ δ) (maxFd : ℤ) {flags : Mask} (now : ClockReading)
    (h : flags.consultsTimers = true) :
    t.pollTimeout maxFd flags now =
      some (WithTop.recTopCoe (-1) (fun w => int32 (waitMs now w)) t.earliest) := by
  rw [pollTimeout_of_consults _ _ _ h, earliest_eq_argmin]
  cases t.list.argmin AeTimeEvent.when <;> rfl

/-- Deletion marks a record and keeps its due time. -/
theorem whens_delTimeEvent (t : AeTimers π τ δ) (id : ℤ) :
    (t.delTimeEvent id).2.whens = t.whens := by
  rcases t.delTimeEvent_cases id with ⟨-, heq⟩ | ⟨a, te, b, hl, -, heq⟩
  · rw [heq]
  · rw [heq, whens, whens, hl, List.map_append, List.map_append]
    rfl

theorem whens_addTimeEvent (t : AeTimers π τ δ) (r : TimerRequest π τ δ) :
    (t.addTimeEvent r).2.whens = r.when :: t.whens := rfl

/-- `t` has one record more than `t'`, with the fields `d`. -/
def Extra (d : ℤ ×ₗ ℤ) (t t' : AeTimers π τ δ) : Prop := t.whens.Perm (d :: t'.whens)

namespace Extra

variable (h : Extra d t t')

include h

/-- With the record more, the earliest time is the earlier of the two. -/
theorem earliest_eq : t.earliest = min ↑d t'.earliest := by
  rw [earliest, List.Perm.minimum_eq h, List.minimum_cons]
  rfl

/-- **The same call on both sides**, up to the id of a deletion. -/
theorem call (ρ : ℤ → ℤ) (op : TimerOp π τ δ) :
    Extra d (t.call op).2 (t'.call (op.rename ρ)).2 := by
  cases op with
  | add r =>
      show List.Perm (r.when :: t.whens) (d :: r.when :: t'.whens)
      exact (List.Perm.cons r.when h).trans (List.Perm.swap d r.when t'.whens)
  | del id =>
      show List.Perm (t.delTimeEvent id).2.whens (d :: (t'.delTimeEvent (ρ id)).2.whens)
      rw [whens_delTimeEvent, whens_delTimeEvent]
      exact h
  | process maxFd flags now => exact h

/-- By induction on the operations: the lists differ by the record whatever is done to both. -/
theorem after (ρ : ℤ → ℤ) (ops : List (TimerOp π τ δ)) :
    Extra d (t.after ops) (t'.after (ops.map (TimerOp.rename ρ))) := by
  induction ops generalizing t t' with
  | nil => exact h
  | cons op ops ih => exact ih (h.call ρ op)

end Extra

/-- A call of `process_events` cannot tell whether there is one more record with the fields `d`: it
does not look, another record is as near, or the nearest one stands for the same time or has come
as well. -/
def Unnoticed (d : ℤ ×ₗ ℤ) (t' : AeTimers π τ δ) (flags : Mask) (now : ClockReading) : Prop :=
  flags.consultsTimers = false ∨ t'.earliest ≤ ↑d ∨
    ∃ w : ℤ ×ₗ ℤ, t'.earliest = ↑w ∧
      (dueMs w = dueMs d ∨ (dueMs w ≤ now.inMs ∧ dueMs d ≤ now.inMs))

/-- The waits in question are numbers of an `int`. -/
def Short (d : ℤ ×ₗ ℤ) (t' : AeTimers π τ δ) (now : ClockReading) : Prop :=
  waitMs now d < 2 ^ 31 ∧ ∀ w : ℤ ×ₗ ℤ, t'.earliest = ↑w → waitMs now w < 2 ^ 31

namespace Extra

variable (h : Extra d t t')

include h

/-- **One poll.** An unnoticed record does not change the timeout. -/
theorem pollTimeout_eq (maxFd : ℤ) {flags : Mask} {now : ClockReading}
    (hun : Unnoticed d t' flags now) :
    t.pollTimeout maxFd flags now = t'.pollTimeout maxFd flags now := by
  cases hflags : flags.consultsTimers with
  | false => exact t.pollTimeout_of_not_consults maxFd now t' hflags
  | true =>
      rw [pollTimeout_earliest t maxFd now hflags, pollTimeout_earliest t' maxFd now hflags,
        h.earliest_eq]
      rcases hun with hno | hle | ⟨w, hw, hdue⟩
      · rw [hflags] at hno
        cases hno
      · rw [min_eq_right hle]
      · have hwait := (waitMs_eq_iff now w d).mpr hdue
        rcases le_total (↑d : WithTop (ℤ ×ₗ ℤ)) t'.earliest with hle | hle
        · rw [min_eq_left hle, hw, WithTop.recTopCoe_coe, WithTop.recTopCoe_coe, hwait]
        · rw [min_eq_right hle]

/-- A record that does not change a short timeout is unnoticed. -/
theorem unnoticed (maxFd : ℤ) {flags : Mask} {now : ClockReading}
    (hshort : flags.consultsTimers = true → Short d t' now)
    (heq : t.pollTimeout maxFd flags now = t'.pollTimeout maxFd flags now) :
    Unnoticed d t' flags now := by
  cases hflags : flags.consultsTimers with
  | false => exact Or.inl hflags
  | true =>
      rcases le_total t'.earliest (↑d : WithTop (ℤ ×ₗ ℤ)) with hle | hle
      · exact Or.inr (Or.inl hle)
      · -- the record would come first, so its wait must be that of the next one
        obtain ⟨hd, hw⟩ := hshort hflags
        have hint {n : ℤ} (h0 : 0 ≤ n) (hn : n < 2 ^ 31) : int32 n = n := by
          obtain ⟨k, rfl⟩ := Int.eq_ofNat_of_zero_le h0
          exact int32_natCast (by omega)
        have hpos (w : ℤ ×ₗ ℤ) : 0 ≤ waitMs now w := le_max_left _ _
        rw [pollTimeout_earliest t maxFd now hflags, pollTimeout_earliest t' maxFd now hflags,
          h.earliest_eq, min_eq_left hle, Option.some_inj, WithTop.recTopCoe_coe,
          hint (hpos d) hd] at heq
        cases hmin : t'.earliest with
        | top =>
            rw [hmin, WithTop.recTopCoe_top] at heq
            have := hpos d
            omega
        | coe w =>
            rw [hmin, WithTop.recTopCoe_coe, hint (hpos w) (hw w hmin)] at heq
            exact Or.inr (Or.inr ⟨w, hmin, (waitMs_eq_iff now w d).mp heq.symm⟩)

end Extra

/-- `P` holds at every call of `process_events` in the run, of the timers at that moment. -/
def AtPolls (P : AeTimers π τ δ → Mask → ClockReading → Prop) :
    AeTimers π τ δ → List (TimerOp π τ δ) → Prop
  | _, [] => True
  | t, op :: ops =>
    (match op with
      | .process _ flags now => P t flags now
      | _ => True) ∧ AtPolls P (t.call op).2 ops

/-- **Every later poll.** -/
theorem Extra.timeouts_eq (h : Extra d t t') (ρ : ℤ → ℤ) {ops : List (TimerOp π τ δ)}
    (hun : AtPolls (Unnoticed d) t' (ops.map (TimerOp.rename ρ))) :
    timeouts (t.trace ops) = timeouts (t'.trace (ops.map (TimerOp.rename ρ))) := by
  induction ops generalizing t t' with
  | nil => rfl
  | cons op ops ih =>
      have hrest := ih (h.call ρ op) hun.2
      cases op with
      | add r => exact hrest
      | del id => exact hrest
      | process maxFd flags now => exact congrArg₂ List.cons (h.pollTimeout_eq maxFd hun.1) hrest

/-- Equal timeouts mean that no poll notices the record, when its waits are short. -/
theorem Extra.atPolls_unnoticed (h : Extra d t t') (ρ : ℤ → ℤ) {ops : List (TimerOp π τ δ)}
    (hshort : AtPolls (fun t flags now => flags.consultsTimers = true → Short d t now) t'
      (ops.map (TimerOp.rename ρ)))
    (heq : timeouts (t.trace ops) = timeouts (t'.trace (ops.map (TimerOp.rename ρ)))) :
    AtPolls (Unnoticed d) t' (ops.map (TimerOp.rename ρ)) := by
  induction ops generalizing t t' with
  | nil => trivial
  | cons op ops ih =>
      cases op with
      | add r => exact ⟨trivial, ih (h.call ρ _) hshort.2 heq⟩
      | del id => exact ⟨trivial, ih (h.call ρ _) hshort.2 heq⟩
      | process maxFd flags now =>
          obtain ⟨hpoll, hrest⟩ := List.cons.inj heq
          exact ⟨h.unnoticed maxFd hshort.1 hpoll, ih (h.call ρ _) hshort.2 hrest⟩

/-- After a run in which `r` creates a timer between `pre` and `mid`, and `del_time_event` is called
with its id behind them. -/
def withTimer (pre mid : List (TimerOp π τ δ)) (r : TimerRequest π τ δ) : AeTimers π τ δ :=
  let id := ((after {} pre).addTimeEvent r).1
  after {} (pre ++ .add r :: mid ++ [.del id])

/-- After that run without these two calls. Timers created in `mid` have other ids then, and other
ids are deleted. -/
def withoutTimer (pre mid : List (TimerOp π τ δ)) (ρ : ℤ → ℤ) : AeTimers π τ δ :=
  after {} (pre ++ mid.map (.rename ρ))

/-- The deletion leaves the record. -/
theorem extra_withTimer (pre mid : List (TimerOp π τ δ)) (r : TimerRequest π τ δ) (ρ : ℤ → ℤ) :
    Extra r.when (withTimer pre mid r) (withoutTimer pre mid ρ) := by
  have hadd : Extra r.when ((after {} pre).addTimeEvent r).2 (after {} pre) := by
    show List.Perm _ _
    rw [whens_addTimeEvent]
  have hmid := hadd.after ρ mid
  have hdel : (withTimer pre mid r).whens =
      (((after {} pre).addTimeEvent r).2.after mid).whens := by
    rw [withTimer, after_append, after_append]
    exact whens_delTimeEvent _ _
  show List.Perm _ _
  rw [hdel, withoutTimer, after_append]
  exact hmid

/-- **Deleted timers and polls.** The timeouts that a run polls with after a timer was deleted are
those of the run without that timer when no poll notices the record that is left, and, where the
waits are short, only then. -/
theorem deleted_timer_polls (pre mid post : List (TimerOp π τ δ)) (r : TimerRequest π τ δ)
    (ρ : ℤ → ℤ) :
    (AtPolls (Unnoticed r.when) (withoutTimer pre mid ρ) (post.map (.rename ρ)) →
        timeouts ((withTimer pre mid r).trace post) =
          timeouts ((withoutTimer pre mid ρ).trace (post.map (.rename ρ)))) ∧
      (AtPolls (fun t' flags now => flags.consultsTimers = true → Short r.when t' now)
          (withoutTimer pre mid ρ) (post.map (.rename ρ)) →
        timeouts ((withTimer pre mid r).trace post) =
          timeouts ((withoutTimer pre mid ρ).trace (post.map (.rename ρ))) →
        AtPolls (Unnoticed r.when) (withoutTimer pre mid ρ) (post.map (.rename ρ))) :=
  ⟨(extra_withTimer pre mid r ρ).timeouts_eq ρ, (extra_withTimer pre mid r ρ).atPolls_unnoticed ρ⟩

/-- A deleted timer behind one that is still there. -/
theorem deleted_timer_behind :
    timeouts ((withTimer [.add (requestAtEpoch 1000)] [] (requestAtEpoch 2500)).trace
        [.process (-1) aeTimeEvents epoch]) =
      timeouts ((withoutTimer [.add (requestAtEpoch 1000)] [] id).trace
        [.process (-1) aeTimeEvents epoch]) := by
  have hfirst : (requestAtEpoch 1000).when = toLex (1, 0) := by
    show (AeTimeEvent.create 0 _).when = _
    unfold AeTimeEvent.create
    rw [carryMs]
    rfl
  have hsecond : (requestAtEpoch 2500).when = toLex (2, 500) := by
    show (AeTimeEvent.create 0 _).when = _
    unfold AeTimeEvent.create
    rw [carryMs]
    rfl
  have hle : (withoutTimer [.add (requestAtEpoch 1000)] [] id).earliest ≤
      ((requestAtEpoch 2500).when : WithTop (ℤ ×ₗ ℤ)) := by
    rw [hsecond]
    refine (List.minimum_le_of_mem' (a := (requestAtEpoch 1000).when) List.mem_cons_self).trans ?_
    rw [hfirst]
    exact WithTop.coe_le_coe.mpr (by decide)
  exact (deleted_timer_polls [.add (requestAtEpoch 1000)] [] [.process (-1) aeTimeEvents epoch]
    (requestAtEpoch 2500) id).1 ⟨Or.inr (Or.inl hle), trivial⟩

/-- A timer that is created and deleted at once: without it the loop waits for descriptors, with
it the loop never waits again. -/
theorem deleted_timer_busy :
    ((after {} [.add (requestAtEpoch 0)]).delTimeEvent 0).1 = aeOk ∧
      timeouts ((withTimer [] [] (requestAtEpoch 0)).trace [.process (-1) aeTimeEvents epoch]) ≠
        timeouts ((withoutTimer (π := Unit) (τ := Unit) (δ := Unit) [] [] id).trace
          [.process (-1) aeTimeEvents epoch]) := by
  constructor
  · rw [delTimeEvent_ok_iff]
    exact ⟨_, List.mem_cons_self, rfl⟩
  · have hextra : Extra (requestAtEpoch 0).when (withTimer [] [] (requestAtEpoch 0))
        (withoutTimer [] [] id) := extra_withTimer _ _ _ _
    have hnone : (withoutTimer (π := Unit) (τ := Unit) (δ := Unit) [] [] id).earliest = ⊤ := rfl
    have hwait : waitMs epoch (requestAtEpoch 0).when = 0 := by
      have hdue := AeTimeEvent.due_create 0 (requestAtEpoch 0)
      show max 0 ((AeTimeEvent.create 0 (requestAtEpoch 0)).due - epoch.inMs) = 0
      rw [hdue]
      decide
    show [AeTimers.pollTimeout _ _ _ _] ≠ [AeTimers.pollTimeout _ _ _ _]
    rw [pollTimeout_earliest _ _ _ rfl, pollTimeout_earliest _ _ _ rfl, hextra.earliest_eq, hnone,
      min_eq_left le_top, WithTop.recTopCoe_coe, WithTop.recTopCoe_top, hwait]
    decide

end AeTimers

end AsprNet
