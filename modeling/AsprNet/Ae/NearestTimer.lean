import AsprNet.Ae.Timers

/-! # The nearest timer

Reference: `ae.cpp`. Every record stands for the time that was asked for. A negative delay, though,
may leave negative milliseconds: the constructor carries whole seconds out of them, but borrows
none. Such a record lies in the second behind its deadline, and `nearest_time_event`, which
compares the seconds first, takes another one for nearer (`nearest_is_earliest_iff`).
-/

namespace AsprNet

namespace TimerRequest

variable {π τ δ : Type} (r : TimerRequest π τ δ)

/-- The milliseconds of the record are negative: `_cur_ms + _ms % 1000 < 0`. -/
def Borrows : Prop := r.now.ms + r.ms.tmod 1000 < 0

instance : Decidable r.Borrows := inferInstanceAs (Decidable (_ < _))

/-- The second of the record: that of the deadline, or the next one. -/
def second : ℤ := if r.Borrows then r.due / 1000 + 1 else r.due / 1000

/-- With a borrow the second is one more. -/
theorem second_of_borrows (h : r.Borrows) : r.second = r.due / 1000 + 1 := if_pos h

/-- Without one it is the quotient. -/
theorem second_of_not_borrows (h : ¬r.Borrows) : r.second = r.due / 1000 := if_neg h

/-- The two differ by one second at most. -/
theorem second_bounds : r.due / 1000 ≤ r.second ∧ r.second ≤ r.due / 1000 + 1 := by
  unfold second
  split_ifs <;> omega

/-- A delay that is not negative. -/
theorem not_borrows (hr : 0 ≤ r.ms) : ¬r.Borrows := by
  intro hneg
  have hms := r.now.ms_nonneg
  have hmod := Int.tmod_nonneg 1000 hr
  unfold Borrows at hneg
  omega

end TimerRequest

namespace AeTimeEvent

variable {π τ δ : Type} {id id' : ℤ} {r r' : TimerRequest π τ δ}

/-- **The second of a new record.** -/
theorem whenSec_create (id : ℤ) (r : TimerRequest π τ δ) : (create id r).whenSec = r.second := by
  have hdue : (create id r).whenSec * 1000 + (create id r).whenMs = r.due := due_create id r
  have hlt := whenMs_create_lt id r
  by_cases hneg : r.Borrows
  · -- nothing is carried, and the milliseconds are above -1000
    have hsmall : r.now.ms + r.ms.tmod 1000 < 1000 := lt_trans hneg (by decide)
    have hms : (create id r).whenMs = r.now.ms + r.ms.tmod 1000 := by
      unfold create
      rw [carryMs, if_neg (by omega)]
    have hnow := r.now.ms_nonneg
    have hmod := Int.lt_tmod_of_pos r.ms (show (0 : ℤ) < 1000 by decide)
    have hneg' : r.now.ms + r.ms.tmod 1000 < 0 := hneg
    rw [r.second_of_borrows hneg]
    omega
  · have hnonneg : 0 ≤ (create id r).whenMs := (carryMs_spec _ _).2.2 (not_lt.mp hneg)
    rw [r.second_of_not_borrows hneg]
    omega

/-- The order of two records, by their seconds and deadlines. -/
theorem when_create_le_iff :
    (create id r).when ≤ (create id' r').when ↔
      r.second < r'.second ∨ (r.second = r'.second ∧ r.due ≤ r'.due) := by
  have hdue : (create id r).whenSec * 1000 + (create id r).whenMs = r.due := due_create id r
  have hdue' : (create id' r').whenSec * 1000 + (create id' r').whenMs = r'.due :=
    due_create id' r'
  rw [whenSec_create] at hdue hdue'
  simp only [when, Prod.Lex.toLex_le_toLex, whenSec_create]
  omega

end AeTimeEvent

namespace AeTimers

variable {π τ δ : Type}

/-- What `nearest_time_event` is for: nothing for the empty list, else a record of the list that is
due no later than any other. -/
structure NearestFirst (t : AeTimers π τ δ) : Prop where
  none_iff : t.nearestTimeEvent = none ↔ t.list = []
  mem : ∀ te, t.nearestTimeEvent = some te → te ∈ t.list
  first : ∀ te, t.nearestTimeEvent = some te → ∀ te' ∈ t.list, te.due ≤ te'.due

/-- Where the seconds of the records tell the earliest one: if a request without a borrow is due in
the second of the earliest deadline, then one without a borrow has that deadline. -/
def SecondsTell (rs : List (TimerRequest π τ δ)) : Prop :=
  ∀ e ∈ rs, (∀ r ∈ rs, e.due ≤ r.due) →
    ∀ r ∈ rs, ¬r.Borrows → r.due / 1000 = e.due / 1000 → ∃ f ∈ rs, ¬f.Borrows ∧ f.due = e.due

/-! ## The timers of a run -/

/-- Each call leaves one record, with the deadline it asked for. -/
theorem map_due_created (rs : List (TimerRequest π τ δ)) :
    (created rs).list.map AeTimeEvent.due = (rs.map TimerRequest.due).reverse := by
  induction rs using List.reverseRecOn with
  | nil => rfl
  | append_singleton rs r ih =>
      rw [list_created_concat, List.map_cons, AeTimeEvent.due_create, ih, List.map_append,
        List.reverse_append]
      rfl

/-- There is a nearest timer unless the list is empty. -/
theorem nearestTimeEvent_eq_none (t : AeTimers π τ δ) :
    t.nearestTimeEvent = none ↔ t.list = [] := by
  rw [nearestTimeEvent_eq, List.argmin_eq_none]

/-- The request of the nearest record: its second is the least, and its deadline the earliest among
those of that second. -/
theorem request_of_nearest {rs : List (TimerRequest π τ δ)} {te : AeTimeEvent π τ δ}
    (h : (created rs).nearestTimeEvent = some te) :
    ∃ n ∈ rs, te.due = n.due ∧
      ∀ r ∈ rs, n.second < r.second ∨ (n.second = r.second ∧ n.due ≤ r.due) := by
  rw [nearestTimeEvent_eq] at h
  obtain ⟨n, hn, id, rfl⟩ := request_of_mem (List.argmin_mem h)
  refine ⟨n, hn, AeTimeEvent.due_create id n, ?_⟩
  intro r hr
  obtain ⟨id', hmem⟩ := exists_mem_created hr
  exact AeTimeEvent.when_create_le_iff.mp (List.le_of_mem_argmin hmem h)

/-- The deadlines of the list are those of the requests. -/
theorem forall_due_created {rs : List (TimerRequest π τ δ)} {d : ℤ} :
    (∀ te ∈ (created rs).list, d ≤ te.due) ↔ ∀ r ∈ rs, d ≤ r.due := by
  constructor
  · intro h r hr
    obtain ⟨id, hmem⟩ := exists_mem_created hr
    have hle := h _ hmem
    rwa [AeTimeEvent.due_create] at hle
  · intro h te hte
    obtain ⟨r, hr, id, rfl⟩ := request_of_mem hte
    rw [AeTimeEvent.due_create]
    exact h r hr

/-- A nearest record that is the earliest: one without a borrow, if there is one in its second. -/
theorem secondsTell_of_nearestFirst {rs : List (TimerRequest π τ δ)}
    (h : (created rs).NearestFirst) : SecondsTell rs := by
  intro e he hearliest r hr hborrow hsecond
  cases hnear : (created rs).nearestTimeEvent with
  | none =>
      rw [h.none_iff] at hnear
      obtain ⟨id, hmem⟩ := exists_mem_created he
      rw [hnear] at hmem
      cases hmem
  | some te =>
      obtain ⟨n, hn, hdue, hleast⟩ := request_of_nearest hnear
      have hfirst : n.due = e.due := by
        have hle := forall_due_created.mp (h.first te hnear) e he
        rw [hdue] at hle
        exact le_antisymm hle (hearliest n hn)
      refine ⟨n, hn, ?_, hfirst⟩
      intro hn'
      -- a borrow would put it behind the second of `r`
      have hle := hleast r hr
      rw [n.second_of_borrows hn', r.second_of_not_borrows hborrow, hfirst, hsecond] at hle
      omega

/-- The nearest record is the earliest where the seconds tell. -/
theorem nearestFirst_of_secondsTell {rs : List (TimerRequest π τ δ)} (h : SecondsTell rs) :
    (created rs).NearestFirst := by
  refine ⟨nearestTimeEvent_eq_none _, ?_, ?_⟩
  · intro te hnear
    rw [nearestTimeEvent_eq] at hnear
    exact List.argmin_mem hnear
  · intro te hnear
    obtain ⟨n, hn, hdue, hleast⟩ := request_of_nearest hnear
    rw [hdue, forall_due_created]
    obtain ⟨e, hmin⟩ : ∃ e, e ∈ rs.argmin TimerRequest.due := by
      cases hmin : rs.argmin TimerRequest.due with
      | none =>
          rw [List.argmin_eq_none.mp hmin] at hn
          cases hn
      | some e => exact ⟨e, rfl⟩
    have he : e ∈ rs := List.argmin_mem hmin
    have hearliest : ∀ r ∈ rs, e.due ≤ r.due := fun r hr => List.le_of_mem_argmin hr hmin
    have hle : n.due ≤ e.due := by
      rcases hleast e he with hbefore | ⟨-, hle⟩
      · -- only a borrow puts the earliest one behind, into a second that `n` does not leave
        obtain ⟨hlow, -⟩ := n.second_bounds
        obtain ⟨-, hhigh⟩ := e.second_bounds
        have hmono := hearliest n hn
        have hsecond : n.second = e.due / 1000 ∧ n.due / 1000 = e.due / 1000 := by omega
        have hborrow : ¬n.Borrows := by
          intro hn'
          rw [n.second_of_borrows hn'] at hsecond
          omega
        obtain ⟨f, hf, hfborrow, hfdue⟩ := h e he hearliest n hn hborrow hsecond.2
        rcases hleast f hf with hlt | ⟨-, hle⟩
        · rw [f.second_of_not_borrows hfborrow, hfdue, hsecond.1] at hlt
          exact absurd hlt (lt_irrefl _)
        · rwa [hfdue] at hle
      · exact hle
    exact fun r hr => hle.trans (hearliest r hr)

/-- **The nearest timer.** Every record stands for the requested time, and `nearest_time_event`
finds the earliest one, exactly when the seconds of the records tell it. -/
theorem nearest_is_earliest_iff (rs : List (TimerRequest π τ δ)) :
    ((created rs).list.map AeTimeEvent.due = (rs.map TimerRequest.due).reverse ∧
        (created rs).NearestFirst) ↔ SecondsTell rs := by
  constructor
  · intro h
    exact secondsTell_of_nearestFirst h.2
  · intro h
    exact ⟨map_due_created rs, nearestFirst_of_secondsTell h⟩

/-- Delays that are not negative: the search finds the earliest timer. -/
theorem nearestFirst_of_nonneg {rs : List (TimerRequest π τ δ)} (hrs : ∀ r ∈ rs, 0 ≤ r.ms) :
    (created rs).NearestFirst := by
  apply nearestFirst_of_secondsTell
  intro e he _ r _ _ _
  exact ⟨e, he, e.not_borrows (hrs e he), rfl⟩

/-- At 0.6 s a timer for that moment, at 1 s one for half a second before. -/
def halfSecondBefore : List (TimerRequest Unit Unit Unit) :=
  [{ requestAtEpoch 0 with now := ⟨0, 600, Int.natCast_nonneg 600, by decide⟩ },
    { requestAtEpoch (-500) with now := { epoch with s := 1 } }]

/-- The first is taken for the nearest, and the second is due before it. -/
theorem negative_delay_missed :
    ¬((created halfSecondBefore).list.map AeTimeEvent.due =
          (halfSecondBefore.map TimerRequest.due).reverse ∧
        (created halfSecondBefore).NearestFirst) := by
  rintro ⟨-, hfirst⟩
  have htell := secondsTell_of_nearestFirst hfirst
  unfold SecondsTell at htell
  exact absurd htell (by decide)

end AeTimers

end AsprNet
