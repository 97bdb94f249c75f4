import AsprNet.Ae.Loop
import Mathlib.Data.List.MinMax
import Mathlib.Data.Prod.Lex
import Mathlib.Order.Bounds.Basic

/-! # Timers

Reference: `ae.hpp`, `ae.cpp`, `ae_epoll.hpp`.

The loop keeps its timers in a list, the youngest first. Deleting a timer marks its record, and
nothing takes a record out of the list: `process_time_events` is a stub. `long` and `long long`
are integers here. The narrowing to the `int` that `epoll_wait` receives is kept, and it is where
the time to sleep goes wrong (`sleeps_to_deadline_iff`).
-/

namespace AsprNet

def aeFileEvents : Mask := 1#32
def aeTimeEvents : Mask := 2#32
def aeDontWait : Mask := 4#32

/-- `AE_DELETED_EVENT_ID`. -/
def aeDeletedEventId : ℤ := -1

/-- What `_S_current_time` stores; `_ms` is `tv_usec / 1000`. -/
structure ClockReading where
  s : ℤ
  ms : ℤ
  ms_nonneg : 0 ≤ ms
  ms_lt : ms < 1000

/-- The time in milliseconds. -/
def ClockReading.inMs (now : ClockReading) : ℤ := now.s * 1000 + now.ms

/-! ## Time events -/

/-- A record of `_time_event_list`. Handlers are names `π` and `τ`, client data values `δ`. -/
structure AeTimeEvent (π τ δ : Type) where
  id : ℤ
  whenSec : ℤ
  whenMs : ℤ
  proc : π
  timeupProc : τ
  clientData : δ
deriving DecidableEq

/-- The arguments of `add_time_event`, and the clock while it runs. -/
structure TimerRequest (π τ δ : Type) where
  ms : ℤ
  proc : π
  data : δ
  tProc : τ
  now : ClockReading

/-- The time a request asks for, in milliseconds. -/
def TimerRequest.due {π τ δ : Type} (r : TimerRequest π τ δ) : ℤ := r.now.inMs + r.ms

/-- The loop `while (_when_ms >= 1000)` of the constructor. -/
def carryMs (whenSec whenMs : ℤ) : ℤ × ℤ :=
  if 1000 ≤ whenMs then carryMs (whenSec + 1) (whenMs - 1000) else (whenSec, whenMs)
termination_by whenMs.toNat

/-- Seconds and milliseconds in the order of a search: the seconds decide first. -/
instance whenPreorder : Preorder (ℤ ×ₗ ℤ) := (Prod.Lex.instLinearOrder ℤ ℤ).toPreorder

namespace AeTimeEvent

variable {π τ δ : Type}

/-- The constructor. -/
def create (id : ℤ) (r : TimerRequest π τ δ) : AeTimeEvent π τ δ :=
  let (whenSec, whenMs) := carryMs (r.now.s + r.ms.tdiv 1000) (r.now.ms + r.ms.tmod 1000)
  { id, whenSec, whenMs, proc := r.proc, timeupProc := r.tProc, clientData := r.data }

/-- The time a record stands for, in milliseconds. -/
def due (te : AeTimeEvent π τ δ) : ℤ := te.whenSec * 1000 + te.whenMs

/-- The condition of `nearest_time_event` for replacing `_ret`. -/
def nearer (te ret : AeTimeEvent π τ δ) : Bool :=
  te.whenSec < ret.whenSec || (te.whenSec == ret.whenSec && te.whenMs < ret.whenMs)

/-- The two fields that `nearest_time_event` compares, in its order. -/
def when (te : AeTimeEvent π τ δ) : ℤ ×ₗ ℤ := toLex (te.whenSec, te.whenMs)

end AeTimeEvent

/-! ## The timers of a loop -/

/-- `_time_event_list` and `_time_event_next_id`. -/
structure AeTimers (π τ δ : Type) where
  list : List (AeTimeEvent π τ δ) := []
  nextId : ℤ := 0

/-- `struct timeval`. -/
structure Timeval where
  sec : ℤ
  usec : ℤ
deriving DecidableEq, Repr

/-- The `timeval` that `process_events` fills from `_ms`. -/
def timevalOf (ms : ℤ) : Timeval :=
  if 0 < ms then { sec := ms.tdiv 1000, usec := ms.tmod 1000 * 1000 } else { sec := 0, usec := 0 }

/-- The `_timeout` that `wait` gives to `epoll_wait`. -/
def waitTimeout : Option Timeval → ℤ
  | none => -1
  -- a `long` goes into an `int`
  | some tv => int32 (tv.sec * 1000 + tv.usec.tdiv 1000)

/-- Whether `process_events` looks for the nearest timer. -/
def Mask.consultsTimers (flags : Mask) : Bool := flags.has aeTimeEvents && !flags.has aeDontWait

namespace AeTimers

variable {π τ δ : Type}

def addTimeEvent (t : AeTimers π τ δ) (r : TimerRequest π τ δ) : ℤ × AeTimers π τ δ :=
  let te := AeTimeEvent.create t.nextId r
  (te.id, { list := te :: t.list, nextId := t.nextId + 1 })

/-- The loop of `del_time_event`: mark the first record with the id. -/
def markDeleted (id : ℤ) : List (AeTimeEvent π τ δ) → Option (List (AeTimeEvent π τ δ))
  | [] => none
  | te :: tes =>
    if te.id = id then some ({ te with id := aeDeletedEventId } :: tes)
    else (markDeleted id tes).map (te :: ·)

def delTimeEvent (t : AeTimers π τ δ) (id : ℤ) : ℤ × AeTimers π τ δ :=
  match markDeleted id t.list with
  | some list => (aeOk, { t with list })
  | none => (aeErr, t)

def nearestTimeEvent (t : AeTimers π τ δ) : Option (AeTimeEvent π τ δ) :=
  t.list.foldl (fun ret te =>
    match ret with
    | none => some te
    | some r => if te.nearer r then some te else some r) none

/-- The pointer `_tvp` of `process_events`. -/
def tvp (t : AeTimers π τ δ) (flags : Mask) (now : ClockReading) : Option Timeval :=
  let shortest := if flags.consultsTimers then t.nearestTimeEvent else none
  match shortest with
  | some te => some (timevalOf ((te.whenSec - now.s) * 1000 + (te.whenMs - now.ms)))
  | none => if flags.has aeDontWait then some { sec := 0, usec := 0 } else none

/-- The `_timeout` with which a call of `process_events(flags)` polls, if it does, while `_max_fd`
is `maxFd`. -/
def pollTimeout (t : AeTimers π τ δ) (maxFd : ℤ) (flags : Mask) (now : ClockReading) : Option ℤ :=
  if !flags.has aeTimeEvents && !flags.has aeFileEvents then none
  -- without a descriptor it polls only to wait for a timer
  else if maxFd ≠ -1 ∨ flags.consultsTimers then some (waitTimeout (t.tvp flags now))
  else none

/-- `process_time_events`: to do. -/
def processTimeEvents (t : AeTimers π τ δ) : ℤ × AeTimers π τ δ := (0, t)

end AeTimers

/-! ## When a timer is due -/

/-- The carry moves whole seconds. -/
theorem carryMs_spec (whenSec whenMs : ℤ) :
    (carryMs whenSec whenMs).1 * 1000 + (carryMs whenSec whenMs).2 = whenSec * 1000 + whenMs ∧
      (carryMs whenSec whenMs).2 < 1000 ∧ (0 ≤ whenMs → 0 ≤ (carryMs whenSec whenMs).2) := by
  fun_induction carryMs whenSec whenMs with
  | case1 whenSec whenMs hge ih =>
      obtain ⟨hsum, hlt, hnonneg⟩ := ih
      exact ⟨by omega, hlt, fun _ => hnonneg (by omega)⟩
  | case2 whenSec whenMs hlt => exact ⟨rfl, by omega, fun h => h⟩

namespace AeTimeEvent

variable {π τ δ : Type} (id : ℤ) (r : TimerRequest π τ δ)

/-- **A new record stands for the requested time.** -/
theorem due_create : (create id r).due = r.due := by
  have hcarry := (carryMs_spec (r.now.s + r.ms.tdiv 1000) (r.now.ms + r.ms.tmod 1000)).1
  have hsplit := Int.mul_tdiv_add_tmod r.ms 1000
  show (carryMs _ _).1 * 1000 + (carryMs _ _).2 = r.now.s * 1000 + r.now.ms + r.ms
  omega

/-- The milliseconds of a new timer are less than a second. -/
theorem whenMs_create_lt : (create id r).whenMs < 1000 :=
  (carryMs_spec _ _).2.1

/-- For a delay that is not negative the milliseconds are those of a second. -/
theorem whenMs_create_nonneg (hr : 0 ≤ r.ms) : 0 ≤ (create id r).whenMs := by
  have hms := r.now.ms_nonneg
  have hmod := Int.tmod_nonneg 1000 hr
  exact (carryMs_spec _ _).2.2 (by omega)

variable {te te' : AeTimeEvent π τ δ}

/-- Nearer means due earlier. -/
theorem nearer_iff : te.nearer te' = true ↔ te.when < te'.when := by
  simp only [nearer, when, Prod.Lex.toLex_lt_toLex, Bool.or_eq_true, Bool.and_eq_true,
    decide_eq_true_eq, beq_iff_eq]

/-- With milliseconds below a second the order of the fields is the order of the times. -/
theorem due_le_of_when_le (h : te.when ≤ te'.when) (hms : te.whenMs < 1000)
    (hms' : 0 ≤ te'.whenMs) : te.due ≤ te'.due := by
  simp only [when, Prod.Lex.toLex_le_toLex] at h
  unfold due
  rcases h with hsec | ⟨hsec, hle⟩
  · omega
  · omega

end AeTimeEvent

namespace AeTimers

variable {π τ δ : Type} (t : AeTimers π τ δ)

/-- **The search is the first minimum** in the order of the two fields. -/
theorem nearestTimeEvent_eq : t.nearestTimeEvent = t.list.argmin AeTimeEvent.when := by
  unfold nearestTimeEvent List.argmin
  congr 1
  funext ret te
  cases ret with
  | none => rfl
  | some r =>
      show (if te.nearer r = true then some te else some r) =
        if te.when < r.when then some te else some r
      simp only [AeTimeEvent.nearer_iff]

end AeTimers

/-! ## The time to sleep -/

/-- Splitting a number of milliseconds and putting it together again changes nothing but the
type. -/
theorem waitTimeout_timevalOf (ms : ℤ) : waitTimeout (some (timevalOf ms)) = int32 (max 0 ms) := by
  unfold waitTimeout timevalOf
  split_ifs with hpos
  · have hsplit := Int.mul_tdiv_add_tmod ms 1000
    have husec : (ms.tmod 1000 * 1000).tdiv 1000 = ms.tmod 1000 :=
      Int.mul_tdiv_cancel _ (by decide)
    dsimp only
    rw [husec, max_eq_right hpos.le]
    congr 1
    omega
  · rw [max_eq_left (by omega)]
    rfl

/-- Where the narrowing of a number that is not negative stays so. -/
theorem int32_nonneg_iff {n : ℤ} (hn : 0 ≤ n) :
    (0 ≤ int32 n ∧ int32 n ≤ n) ↔ n % 2 ^ 32 < 2 ^ 31 := by
  unfold int32 Int.bmod
  dsimp only
  constructor
  · intro h
    split_ifs at h with hlt <;> omega
  · intro h
    split_ifs with hlt <;> omega

namespace AeTimers

variable {π τ δ : Type} (t : AeTimers π τ δ) (maxFd : ℤ) {flags : Mask} (now : ClockReading)

/-- What `process_events` polls with when it looks for the nearest timer. -/
theorem pollTimeout_of_consults (h : flags.consultsTimers = true) :
    t.pollTimeout maxFd flags now = some (match t.list.argmin AeTimeEvent.when with
      | none => -1
      | some te => int32 (max 0 (te.due - now.inMs))) := by
  have htime : flags.has aeTimeEvents = true := (Bool.and_eq_true_iff.mp h).1
  have hwait : flags.has aeDontWait = false := by
    have hnot := (Bool.and_eq_true_iff.mp h).2
    rwa [Bool.not_eq_true'] at hnot
  rw [pollTimeout, if_neg (by rw [htime]; exact Bool.false_ne_true), if_pos (Or.inr h), tvp,
    if_pos h, nearestTimeEvent_eq]
  cases t.list.argmin AeTimeEvent.when with
  | none => simp [hwait, waitTimeout]
  | some te =>
      have hms : (te.whenSec - now.s) * 1000 + (te.whenMs - now.ms) = te.due - now.inMs := by
        unfold AeTimeEvent.due ClockReading.inMs
        ring
      simp only [hms, waitTimeout_timevalOf]

/-- Otherwise the timers do not matter. -/
theorem pollTimeout_of_not_consults (t' : AeTimers π τ δ) (h : flags.consultsTimers = false) :
    t.pollTimeout maxFd flags now = t'.pollTimeout maxFd flags now := by
  simp only [pollTimeout, tvp, h]
  rfl

/-- The timers that calls of `add_time_event` create, the first call first. -/
def created (rs : List (TimerRequest π τ δ)) : AeTimers π τ δ :=
  rs.foldl (fun t r => (t.addTimeEvent r).2) {}

/-- The last timer created is the first of the list. -/
theorem list_created_concat (rs : List (TimerRequest π τ δ)) (r : TimerRequest π τ δ) :
    (created (rs ++ [r])).list =
      AeTimeEvent.create (created rs).nextId r :: (created rs).list := by
  rw [created, List.foldl_append]
  rfl

/-- Every record belongs to a call. -/
theorem request_of_mem {rs : List (TimerRequest π τ δ)} {te : AeTimeEvent π τ δ}
    (hte : te ∈ (created rs).list) : ∃ r ∈ rs, ∃ id, te = AeTimeEvent.create id r := by
  induction rs using List.reverseRecOn with
  | nil => cases hte
  | append_singleton rs r ih =>
      rw [list_created_concat, List.mem_cons] at hte
      rcases hte with rfl | hte
      · exact ⟨r, by simp, _, rfl⟩
      · obtain ⟨r', hr', h⟩ := ih hte
        exact ⟨r', List.mem_append_left _ hr', h⟩

/-- Every call left a record. -/
theorem exists_mem_created {rs : List (TimerRequest π τ δ)} {r : TimerRequest π τ δ}
    (hr : r ∈ rs) : ∃ id, AeTimeEvent.create id r ∈ (created rs).list := by
  induction rs using List.reverseRecOn with
  | nil => cases hr
  | append_singleton rs r' ih =>
      rw [list_created_concat]
      rcases List.mem_append.mp hr with hr | hr
      · obtain ⟨id, h⟩ := ih hr
        exact ⟨id, List.mem_cons_of_mem _ h⟩
      · obtain rfl := List.mem_singleton.mp hr
        exact ⟨_, List.mem_cons_self⟩

/-- **The time to sleep**: up to the earliest deadline, when no delay is negative, as far as it is
an `int`. -/
theorem pollTimeout_created {rs : List (TimerRequest π τ δ)} (hrs : ∀ r ∈ rs, 0 ≤ r.ms) {E : ℤ}
    (hE : IsLeast {d | ∃ r ∈ rs, r.due = d} E) (hflags : flags.consultsTimers = true) :
    (created rs).pollTimeout maxFd flags now = some (int32 (max 0 (E - now.inMs))) := by
  obtain ⟨r₀, hr₀, hdue₀⟩ := hE.1
  obtain ⟨id₀, hmem₀⟩ := exists_mem_created hr₀
  rw [pollTimeout_of_consults _ _ _ hflags]
  cases hnear : (created rs).list.argmin AeTimeEvent.when with
  | none =>
      rw [List.argmin_eq_none] at hnear
      rw [hnear] at hmem₀
      cases hmem₀
  | some te =>
      obtain ⟨r, hr, id, rfl⟩ := request_of_mem (List.argmin_mem hnear)
      -- the order of the fields is that of the deadlines, as no delay is negative
      have hfirst : (AeTimeEvent.create id r).due ≤ (AeTimeEvent.create id₀ r₀).due :=
        AeTimeEvent.due_le_of_when_le (List.le_of_mem_argmin hmem₀ hnear)
          (AeTimeEvent.whenMs_create_lt id r) (AeTimeEvent.whenMs_create_nonneg id₀ r₀ (hrs r₀ hr₀))
      have hleast : E ≤ r.due := hE.2 ⟨r, hr, rfl⟩
      rw [AeTimeEvent.due_create, AeTimeEvent.due_create, hdue₀] at hfirst
      simp only [AeTimeEvent.due_create, le_antisymm hfirst hleast]

/-- **`process_events` does not sleep past the earliest deadline** exactly when the time up to it
leaves a remainder below `2 ^ 31` in an `int` of 32 bits. -/
theorem sleeps_to_deadline_iff {rs : List (TimerRequest π τ δ)} (hrs : ∀ r ∈ rs, 0 ≤ r.ms) {E : ℤ}
    (hE : IsLeast {d | ∃ r ∈ rs, r.due = d} E) (maxFd : ℤ) {flags : Mask}
    (htime : flags.has aeTimeEvents = true) (hwait : flags.has aeDontWait = false)
    (now : ClockReading) :
    (∃ w, (created rs).pollTimeout maxFd flags now = some w ∧ 0 ≤ w ∧ w ≤ max 0 (E - now.inMs)) ↔
      max 0 (E - now.inMs) % 2 ^ 32 < 2 ^ 31 := by
  have hflags : flags.consultsTimers = true := by rw [Mask.consultsTimers, htime, hwait]; rfl
  rw [pollTimeout_created maxFd now hrs hE hflags,
    ← int32_nonneg_iff (le_max_left 0 (E - now.inMs))]
  constructor
  · rintro ⟨w, hw, h⟩
    obtain rfl := Option.some.inj hw
    exact h
  · intro h
    exact ⟨_, rfl, h⟩

end AeTimers

/-- The clock at zero. -/
def epoch : ClockReading := { s := 0, ms := 0, ms_nonneg := le_rfl, ms_lt := by decide }

/-- A request at the time zero. -/
def requestAtEpoch (ms : ℤ) : TimerRequest Unit Unit Unit :=
  { ms, proc := (), data := (), tProc := (), now := epoch }

namespace AeTimers

/-- Two timers, the nearer one created first. -/
theorem sleeps_to_second :
    ∃ w, (created [requestAtEpoch 1000, requestAtEpoch 2500]).pollTimeout (-1) aeTimeEvents epoch =
      some w ∧ 0 ≤ w ∧ w ≤ max 0 (1000 - epoch.inMs) := by
  refine (sleeps_to_deadline_iff ?_ ?_ (-1) rfl rfl epoch).mpr (by decide)
  · simp [requestAtEpoch]
  · constructor
    · exact ⟨_, List.mem_cons_self, by decide⟩
    · rintro d ⟨r, hr, rfl⟩
      simp only [List.mem_cons, List.not_mem_nil, or_false] at hr
      rcases hr with rfl | rfl <;> decide

/-- A timer of 25 days: the timeout is negative, which blocks until a descriptor is ready. -/
theorem far_timer_blocks :
    (created [requestAtEpoch 2160000000]).pollTimeout (-1) aeTimeEvents epoch =
        some (-2134967296) ∧
      ¬∃ w, (created [requestAtEpoch 2160000000]).pollTimeout (-1) aeTimeEvents epoch = some w ∧
        0 ≤ w ∧ w ≤ max 0 (2160000000 - epoch.inMs) := by
  have hpoll : (created [requestAtEpoch 2160000000]).pollTimeout (-1) aeTimeEvents epoch =
      some (-2134967296) := by
    apply pollTimeout_created (E := 2160000000)
    · simp [requestAtEpoch]
    · constructor
      · exact ⟨_, List.mem_cons_self, by decide⟩
      · rintro d ⟨r, hr, rfl⟩
        obtain rfl := List.mem_singleton.mp hr
        decide
    · rfl
  refine ⟨hpoll, ?_⟩
  rintro ⟨w, hw, hnonneg, -⟩
  obtain rfl := Option.some.inj (hpoll.symm.trans hw)
  exact absurd hnonneg (by decide)

end AeTimers

end AsprNet
