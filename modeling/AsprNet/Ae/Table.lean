import AsprNet.Ae.Loop
import AsprNet.Lib.Failures

/-! # What the operations do to the event table

One equation for each of `add_file_event` and `del_file_event`: which kernel call it makes, which
entry it changes and to what. The invariants of the table are read off them. For `resize` the
equation is about the values that its moves leave.
-/

namespace AsprNet

/-! ## Masks -/

/-- The flags a registration may carry. -/
def aeBoth : Mask := aeReadable ||| aeWritable

/-- Every flag of `m` is a flag of `n`. -/
def Mask.Within (m n : Mask) : Prop := m &&& ~~~n = 0#32

instance (m n : Mask) : Decidable (m.Within n) := inferInstanceAs (Decidable (_ = _))

/-- A bitwise fact holds when it holds of each bit. -/
theorem Mask.within_iff {m n : Mask} :
    m.Within n ↔ ∀ i, m.getLsbD i = true → n.getLsbD i = true := by
  constructor
  · intro h i hi
    have hbit := congrArg (fun x : Mask => x.getLsbD i) h
    have hlt : i < 32 := BitVec.lt_of_getLsbD hi
    simp [hlt, hi] at hbit
    exact hbit
  · intro h
    refine BitVec.eq_of_getLsbD_eq fun i hi => ?_
    have := h i
    simp only [BitVec.getLsbD_and, BitVec.getLsbD_not, hi, decide_true, Bool.true_and,
      BitVec.getLsbD_zero]
    cases hm : m.getLsbD i <;> simp_all

/-- A join of masks is within what holds both. -/
theorem Mask.Within.or {m m' n : Mask} (h : m.Within n) (h' : m'.Within n) :
    (m ||| m').Within n := by
  rw [Mask.within_iff] at h h' ⊢
  intro i hi
  rw [BitVec.getLsbD_or, Bool.or_eq_true] at hi
  exact hi.elim (h i) (h' i)

/-- A part of a mask is within what holds the mask. -/
theorem Mask.Within.and {m n : Mask} (h : m.Within n) (m' : Mask) : (m &&& m').Within n := by
  rw [Mask.within_iff] at h ⊢
  intro i hi
  rw [BitVec.getLsbD_and, Bool.and_eq_true] at hi
  exact h i hi.1

/-- Adding to a mask that is not empty leaves it so. -/
theorem Mask.or_ne_none {m n : Mask} (h : m ≠ aeNone) : m ||| n ≠ aeNone := by
  intro hor
  refine h (BitVec.eq_of_getLsbD_eq fun i hi => ?_)
  have hbit := congrArg (fun x : Mask => x.getLsbD i) hor
  simp only [aeNone, BitVec.getLsbD_or, BitVec.getLsbD_zero, Bool.or_eq_false_iff] at hbit ⊢
  exact hbit.1

/-- A flag that `m` has is decided by the other mask. -/
theorem Mask.has_and {m flag : Mask} (h : m &&& flag = flag) (e : Mask) :
    (m &&& e).has flag = e.has flag := by
  have hand : m &&& e &&& flag = e &&& flag := by
    rw [BitVec.and_assoc, BitVec.and_comm e flag, ← BitVec.and_assoc, h, BitVec.and_comm]
  rw [Mask.has, Mask.has, hand]

/-- A flag that `m` does not have is not in the intersection. -/
theorem Mask.not_has_and {m flag : Mask} (h : m &&& flag = 0#32) (e : Mask) :
    (m &&& e).has flag = false := by
  have hand : m &&& e &&& flag = 0#32 := by
    rw [BitVec.and_assoc, BitVec.and_comm e flag, ← BitVec.and_assoc, h, BitVec.zero_and]
  rw [Mask.has, hand]
  rfl

/-- A flag of an intersection is one of the first mask. -/
theorem Mask.has_of_has_and {m e flag : Mask} (h : (m &&& e).has flag = true) :
    m.has flag = true := by
  rw [Mask.has, bne_iff_ne] at h ⊢
  intro hzero
  apply h
  rw [BitVec.and_assoc, BitVec.and_comm e, ← BitVec.and_assoc, hzero, BitVec.zero_and]

/-- A mask with a flag is not empty. -/
theorem Mask.ne_none_of_has {m flag : Mask} (h : m.has flag = true) : m ≠ aeNone := by
  rintro rfl
  simp [Mask.has, aeNone] at h

/-! ## Entries -/

namespace AeEventLoop

variable {π δ : Type} {l : AeEventLoop π δ} {fd : ℤ}

/-- The table has as many entries as `_fdset_size` says. -/
def Sized (l : AeEventLoop π δ) : Prop := (l.events.length : ℤ) = l.fdsetSize

/-- Inside the table the access returns the entry. -/
theorem Sized.event (hl : l.Sized) (h0 : 0 ≤ fd) (h : fd < l.fdsetSize) :
    l.event fd = .ok (l.entry fd) := if_pos ⟨h0, by rwa [hl]⟩

/-- An access that returns, returns the entry. -/
theorem event_eq_ok {fe : AeFileEvent π δ} (h : l.event fd = .ok fe) : fe = l.entry fd := by
  rw [AeEventLoop.event] at h
  split_ifs at h
  exact (Except.ok.inj h).symm

/-- Outside the table nothing is registered. -/
theorem Sized.entry_of_le (hl : l.Sized) (h : l.fdsetSize ≤ fd) : l.entry fd = {} := by
  have hl : (l.events.length : ℤ) = l.fdsetSize := hl
  rw [entry]
  split
  · rw [List.getD_eq_getElem?_getD, List.getElem?_eq_none (by omega), Option.getD_none]
  · rfl

/-- Below the table there is nothing registered. -/
theorem entry_of_neg (h : fd < 0) : l.entry fd = {} := if_neg (by omega)

/-- A registered descriptor is one of the table. -/
theorem Sized.lt_of_mask (hl : l.Sized) (h : (l.entry fd).mask ≠ aeNone) :
    0 ≤ fd ∧ fd < l.fdsetSize := by
  refine ⟨?_, ?_⟩
  · by_contra hneg
    exact h (by rw [entry_of_neg (by omega)])
  · by_contra hge
    exact h (by rw [hl.entry_of_le (by omega)])

/-- Only the written entry changes. -/
theorem entry_setEvent (hl : l.Sized) (h0 : 0 ≤ fd) (h : fd < l.fdsetSize) (fe : AeFileEvent π δ)
    (fd' : ℤ) : (l.setEvent fd fe).entry fd' = if fd' = fd then fe else l.entry fd' := by
  have hl : (l.events.length : ℤ) = l.fdsetSize := hl
  by_cases hneg : fd' < 0
  · rw [entry_of_neg hneg, entry_of_neg hneg, if_neg (by omega)]
  · simp only [entry, setEvent, if_pos (show 0 ≤ fd' by omega), List.getD_eq_getElem?_getD,
      List.getElem?_set]
    by_cases heq : fd' = fd
    · subst heq
      simp [show fd'.toNat < l.events.length by omega]
    · rw [if_neg heq, if_neg (by omega)]

/-- Writing an entry changes the mask of its descriptor alone. -/
theorem mask_setEvent (hl : l.Sized) (h0 : 0 ≤ fd) (h : fd < l.fdsetSize) (m : Mask) (fd' : ℤ) :
    ((l.setEvent fd { l.entry fd with mask := m }).entry fd').mask =
      if fd' = fd then m else (l.entry fd').mask := by
  rw [entry_setEvent hl h0 h]
  split <;> rfl

/-- A registration adds its flags to one mask. -/
theorem mask_register (hl : l.Sized) (h0 : 0 ≤ fd) (h : fd < l.fdsetSize) (mask : Mask) (proc : π)
    (data : δ) (fd' : ℤ) :
    ((l.register fd (l.entry fd) mask proc data).entry fd').mask =
      if fd' = fd then (l.entry fd).mask ||| mask else (l.entry fd').mask := by
  show ((l.setEvent fd _).entry fd').mask = _
  rw [entry_setEvent hl h0 h]
  split <;> rfl

/-! ## The operations -/

/-- The kernel call of `add_file_event`, on an entry whose mask is `old`. -/
def addCtl (s : AeEpollState) (fd : ℤ) (old mask : Mask) : ℤ × AeEpollState :=
  s.epollCtl (if old = aeNone then .add else .mod) fd (epollEvents (mask ||| old))

/-- The kernel call of `del_file_event`, when the mask `left` is left. -/
def delCtl (s : AeEpollState) (fd : ℤ) (left : Mask) : AeEpollState :=
  (s.epollCtl (if left = aeNone then .del else .mod) fd (epollEvents left)).2

/-- A descriptor behind the table is refused. -/
theorem addFileEvent_of_le (h : l.fdsetSize ≤ fd) (mask : Mask) (proc : π) (data : δ) :
    l.addFileEvent fd mask proc data = .ok (aeErr, l) := if_pos h

/-- Without an epoll state nothing is registered. -/
theorem addFileEvent_null (h : l.apiData = none) {mask : Mask} {proc : π} {data : δ} {r : ℤ}
    {l' : AeEventLoop π δ} (hadd : l.addFileEvent fd mask proc data = .ok (r, l')) :
    r = aeErr ∧ l' = l := by
  rw [addFileEvent, h] at hadd
  split_ifs at hadd
  · obtain ⟨rfl, rfl⟩ := Prod.mk.inj (Except.ok.inj hadd)
    exact ⟨rfl, rfl⟩
  · obtain ⟨fe, -, hret⟩ := bind_eq_ok.mp hadd
    obtain ⟨rfl, rfl⟩ := Prod.mk.inj (Except.ok.inj hret)
    exact ⟨rfl, rfl⟩

/-- **`add_file_event` on a descriptor of the table**: it fails when an ADD fails, and registers
otherwise. -/
theorem addFileEvent_of_lt (hl : l.Sized) (h0 : 0 ≤ fd) (h : fd < l.fdsetSize) {s : AeEpollState}
    (hs : l.apiData = some s) (mask : Mask) (proc : π) (data : δ) :
    l.addFileEvent fd mask proc data = .ok
      (if (l.entry fd).mask = aeNone ∧ (addCtl s fd (l.entry fd).mask mask).1 = -1 then
        (aeErr, { l with apiData := some (addCtl s fd (l.entry fd).mask mask).2 })
      else
        (aeOk, { l.register fd (l.entry fd) mask proc data with
          apiData := some (addCtl s fd (l.entry fd).mask mask).2 })) := by
  rw [addFileEvent, if_neg (by omega), hl.event h0 h, ok_bind]
  simp only [hs, addCtl, AeEpollState.addEvent, AeEpollState.modEvent]
  by_cases hm : (l.entry fd).mask = aeNone
  · simp only [if_pos hm]
    by_cases hr : (s.epollCtl .add fd (epollEvents (mask ||| (l.entry fd).mask))).1 = -1
    · simp only [if_pos hr, if_pos (And.intro hm hr)]
      rfl
    · simp only [if_neg hr, if_neg (not_and_of_not_right _ hr)]
      rfl
  · simp only [if_neg hm, if_neg (not_and_of_not_left _ hm)]
    rfl

/-- A descriptor behind the table has nothing to delete. -/
theorem delFileEvent_of_le (h : l.fdsetSize ≤ fd) (mask : Mask) :
    l.delFileEvent fd mask = .ok l := if_pos h

/-- **`del_file_event` on a descriptor of the table.** -/
theorem delFileEvent_of_lt (hl : l.Sized) (h0 : 0 ≤ fd) (h : fd < l.fdsetSize) {s : AeEpollState}
    (hs : l.apiData = some s) (mask : Mask) :
    l.delFileEvent fd mask = .ok
      (let left := (l.entry fd).mask &&& ~~~mask
       let l' := l.setEvent fd { l.entry fd with mask := left }
       { l' with
          maxFd := if fd = l.maxFd ∧ left = aeNone then scanMaxFd l'.events l.maxFd.toNat
            else l.maxFd
          apiData := some (delCtl s fd left) }) := by
  rw [delFileEvent, if_neg (by omega), hl.event h0 h, ok_bind]
  simp only [hs, delCtl, AeEpollState.delEvent, AeEpollState.modEvent, setEvent]
  by_cases hm : (l.entry fd).mask &&& ~~~mask = aeNone
  · by_cases hfd : fd = l.maxFd
    · simp only [if_pos hm, if_pos (And.intro hfd hm)]
      rfl
    · simp only [if_pos hm, if_neg (not_and_of_not_left _ hfd)]
      rfl
  · simp only [if_neg hm, if_neg (not_and_of_not_right _ hm)]
    rfl

/-- The scan finds the highest registered descriptor below its start. -/
theorem scanMaxFd_spec (events : List (AeFileEvent π δ)) (i : ℕ) :
    scanMaxFd events i < i ∧
      ∀ j < i, (events.getD j {}).mask ≠ aeNone → (j : ℤ) ≤ scanMaxFd events i := by
  induction i with
  | zero => simp [scanMaxFd]
  | succ i ih =>
      rw [scanMaxFd]
      split
      · exact ⟨by push_cast; omega, fun j hj _ => by omega⟩
      · rename_i hi
        refine ⟨by push_cast; omega, fun j hj hreg => ?_⟩
        rcases Nat.lt_succ_iff_lt_or_eq.mp hj with hlt | rfl
        · exact ih.2 j hlt hreg
        · exact absurd hreg hi

/-- A registered descriptor below the start of the scan is at most what it finds. -/
theorem le_scanMaxFd {i : ℕ} (hreg : (l.entry fd).mask ≠ aeNone) (hlt : fd < i) :
    fd ≤ scanMaxFd l.events i := by
  rcases lt_or_ge fd 0 with hneg | hpos
  · rw [entry_of_neg hneg] at hreg
    exact absurd rfl hreg
  · rw [entry, if_pos hpos] at hreg
    have hle := (scanMaxFd_spec l.events i).2 fd.toNat (by omega) hreg
    omega

/-! ## The arrays -/

/-- `_events`, `_fired` and the array given to `epoll_wait` have `_fdset_size` elements. -/
structure Fits (l : AeEventLoop π δ) : Prop where
  sized : l.Sized
  fired : (l.fired.length : ℤ) = l.fdsetSize
  capacity : ∀ s, l.apiData = some s → s.eventsSize = l.fdsetSize

/-- A new table is empty. -/
theorem entry_create (size : ℕ) (api : Option AeEpollState) (fd : ℤ) :
    (AeEventLoop.create size api : AeEventLoop π δ).entry fd = {} := by
  simp only [AeEventLoop.create, AeEventLoop.entry, List.getD_eq_getElem?_getD,
    List.getElem?_replicate]
  split_ifs <;> rfl

/-- The arrays of a new loop have its size. -/
theorem Fits.create (size : ℕ) (ctl : List Bool) :
    (AeEventLoop.create size (some (AeEpollState.create size ctl)) : AeEventLoop π δ).Fits := by
  refine ⟨?_, ?_, fun s hs => ?_⟩
  · simp [AeEventLoop.Sized, AeEventLoop.create]
  · simp [AeEventLoop.create]
  · obtain rfl := Option.some.inj hs
    rfl

/-- `epoll_ctl` keeps the array of `epoll_wait`. -/
theorem eventsSize_epollCtl (s : AeEpollState) (op : CtlOp) (fd : ℤ) (ev : Mask) :
    (s.epollCtl op fd ev).2.eventsSize = s.eventsSize := by
  simp only [AeEpollState.epollCtl]
  split
  · rfl
  · split <;> rfl

/-- What `add_file_event` and `del_file_event` do to the loop keeps the arrays. -/
theorem Fits.update (h : l.Fits) {s : AeEpollState} (hs : l.apiData = some s) (op : CtlOp)
    (ev : Mask) (fe : AeFileEvent π δ) (m : ℤ) :
    ({ l.setEvent fd fe with maxFd := m, apiData := some (s.epollCtl op fd ev).2 } :
      AeEventLoop π δ).Fits := by
  refine ⟨?_, h.fired, fun t ht => ?_⟩
  · show ((l.events.set _ _).length : ℤ) = _
    rw [List.length_set]
    exact h.sized
  · obtain rfl := Option.some.inj ht
    exact (eventsSize_epollCtl s op fd ev).trans (h.capacity s hs)

/-- `l'` is a loop of the same size that agrees with `l` on all entries but that of `fd`. -/
structure Alters (l l' : AeEventLoop π δ) (fd : ℤ) : Prop where
  fits : l'.Fits
  api : ∃ s, l'.apiData = some s
  size : l'.fdsetSize = l.fdsetSize
  others : ∀ fd', fd' ≠ fd → l'.entry fd' = l.entry fd'

theorem Alters.trans {l₁ l₂ : AeEventLoop π δ} (h : l.Alters l₁ fd) (h' : l₁.Alters l₂ fd) :
    l.Alters l₂ fd :=
  ⟨h'.fits, h'.api, h'.size.trans h.size,
    fun fd' hne => (h'.others fd' hne).trans (h.others fd' hne)⟩

/-- `add_file_event` alters the entry of its descriptor at most. -/
theorem Fits.add (h : l.Fits) (h0 : 0 ≤ fd) {s : AeEpollState} (hs : l.apiData = some s)
    {mask : Mask} {proc : π} {data : δ} {r : ℤ} {l' : AeEventLoop π δ}
    (hadd : l.addFileEvent fd mask proc data = .ok (r, l')) : l.Alters l' fd := by
  rcases lt_or_ge fd l.fdsetSize with hlt | hge
  · rw [addFileEvent_of_lt h.sized h0 hlt hs] at hadd
    split_ifs at hadd
    · obtain ⟨-, rfl⟩ := Prod.mk.inj (Except.ok.inj hadd)
      refine ⟨⟨h.sized, h.fired, fun t ht => ?_⟩, ⟨_, rfl⟩, rfl, fun _ _ => rfl⟩
      obtain rfl := Option.some.inj ht
      exact (eventsSize_epollCtl s _ fd _).trans (h.capacity s hs)
    · obtain ⟨-, rfl⟩ := Prod.mk.inj (Except.ok.inj hadd)
      refine ⟨h.update hs _ _ _ _, ⟨_, rfl⟩, rfl, fun fd' hne => ?_⟩
      exact (entry_setEvent h.sized h0 hlt _ fd').trans (if_neg hne)
  · rw [addFileEvent_of_le hge] at hadd
    obtain ⟨-, rfl⟩ := Prod.mk.inj (Except.ok.inj hadd)
    exact ⟨h, ⟨s, hs⟩, rfl, fun _ _ => rfl⟩

/-- `del_file_event` takes the flags out of the mask, also out of the empty one outside the
table. -/
theorem Fits.del (h : l.Fits) (h0 : 0 ≤ fd) {s : AeEpollState} (hs : l.apiData = some s)
    {mask : Mask} {l' : AeEventLoop π δ} (hdel : l.delFileEvent fd mask = .ok l') :
    l.Alters l' fd ∧ (l'.entry fd).mask = (l.entry fd).mask &&& ~~~mask := by
  rcases lt_or_ge fd l.fdsetSize with hlt | hge
  · rw [delFileEvent_of_lt h.sized h0 hlt hs] at hdel
    obtain rfl := Except.ok.inj hdel
    refine ⟨⟨h.update hs _ _ _ _, ⟨_, rfl⟩, rfl, fun fd' hne => ?_⟩, ?_⟩
    · exact (entry_setEvent h.sized h0 hlt _ fd').trans (if_neg hne)
    · exact congrArg AeFileEvent.mask ((entry_setEvent h.sized h0 hlt _ fd).trans (if_pos rfl))
  · rw [delFileEvent_of_le hge] at hdel
    obtain rfl := Except.ok.inj hdel
    refine ⟨⟨h, ⟨s, hs⟩, rfl, fun _ _ => rfl⟩, ?_⟩
    rw [h.sized.entry_of_le hge]
    exact BitVec.zero_and.symm

/-- `poll` stores what `epoll_wait` returned, at most `_fdset_size` events. -/
theorem Fits.poll (h : l.Fits) {s : AeEpollState} (hs : l.apiData = some s)
    (batch : List EpollEvent) :
    l.poll batch = .ok ((batch.take l.fdsetSize.toNat).length,
      { l with fired := (batch.take l.fdsetSize.toNat).map firedOf ++
                 l.fired.drop (batch.take l.fdsetSize.toNat).length }) := by
  have hfired := h.fired
  have hle : ((batch.take l.fdsetSize.toNat).map firedOf).length ≤ l.fired.length := by
    rw [List.length_map, List.length_take]
    omega
  rw [List.length_map] at hle
  simp only [AeEventLoop.poll, hs, h.capacity s hs, List.length_map, if_pos hle]

/-! ## Resizing -/

/-- The elements of the old array below the new size, and defaults behind them. -/
theorem getD_regrow {α : Type} (dflt : α) (old : List α) (n i : ℕ) :
    (regrow dflt old n).getD i dflt = if i < n then old.getD i dflt else dflt := by
  simp only [regrow, List.getD_eq_getElem?_getD, List.getElem?_append, List.length_take,
    List.getElem?_take, List.getElem?_replicate]
  by_cases hi : i < old.length
  · by_cases hn : i < n
    · simp [hi, hn]
    · rw [if_neg (by omega), if_neg (by omega), if_neg hn]
      rfl
  · rw [if_neg (by omega), List.getElem?_eq_none (by omega)]
    split <;> simp

/-- The new array has the new size. -/
theorem length_regrow {α : Type} (dflt : α) (old : List α) (n : ℕ) :
    (regrow dflt old n).length = n := by
  simp only [regrow, List.length_append, List.length_take, List.length_replicate]
  omega

/-- The entries behind a resize: those up to `_max_fd` are kept, the others unregistered. -/
def resizedEntry (l : AeEventLoop π δ) (newSize fd : ℤ) : AeFileEvent π δ :=
  if fd ≤ l.maxFd then l.entry fd
  else if fd < newSize then { l.entry fd with mask := aeNone }
  else {}

/-- The moves of `resize` change the three capacities. -/
theorem fits_resized (l : AeEventLoop π δ) (s : AeEpollState) {newSize : ℤ} (h0 : 0 ≤ newSize) :
    (l.resized s newSize).Fits := by
  refine ⟨?_, ?_, ?_⟩
  · simp only [Sized, resized, List.length_mapIdx, length_regrow]
    omega
  · simp only [resized, length_regrow]
    omega
  · intro t ht
    obtain rfl := Option.some.inj ht
    rfl

/-- **The entries behind the moves of `resize`.** -/
theorem entry_resized (l : AeEventLoop π δ) (s : AeEpollState) (newSize fd : ℤ)
    (hmax : l.maxFd < newSize) : (l.resized s newSize).entry fd = l.resizedEntry newSize fd := by
  by_cases hneg : fd < 0
  · rw [entry_of_neg hneg, resizedEntry, entry_of_neg hneg]
    split_ifs <;> rfl
  · have hget := getD_regrow ({} : AeFileEvent π δ) l.events newSize.toNat fd.toNat
    simp only [resized, entry, if_pos (show 0 ≤ fd by omega), List.getD_eq_getElem?_getD,
      List.getElem?_mapIdx, resizedEntry] at hget ⊢
    by_cases hlt : fd < newSize
    · have hsome : fd.toNat < (regrow ({} : AeFileEvent π δ) l.events newSize.toNat).length := by
        rw [length_regrow]
        omega
      rw [if_pos (by omega), List.getElem?_eq_getElem hsome, Option.getD_some] at hget
      rw [List.getElem?_eq_getElem hsome, Option.map_some, Option.getD_some, hget]
      by_cases hle : fd ≤ l.maxFd
      · rw [if_neg (by omega), if_pos hle]
      · rw [if_pos (by omega), if_neg hle, if_pos hlt]
    · rw [List.getElem?_eq_none (by rw [length_regrow]; omega), if_neg (by omega), if_neg hlt]
      rfl

/-! ## How the operations fail -/

/-- An access fails only outside the table. -/
theorem event_fails (l : AeEventLoop π δ) (fd : ℤ) : FailsOnly {Halt.outOfBounds} (l.event fd) :=
  .ite (fun _ => .ok _) fun _ => .error rfl

/-- `add_file_event` fails only outside the table. -/
theorem addFileEvent_fails (l : AeEventLoop π δ) (fd : ℤ) (mask : Mask) (proc : π) (data : δ) :
    FailsOnly {Halt.outOfBounds} (l.addFileEvent fd mask proc data) := by
  unfold addFileEvent
  refine .ite (fun _ => .ok _) fun _ => (l.event_fails fd).bind fun fe _ => ?_
  cases l.apiData with
  | none => exact .ok _
  | some s => exact .ite (fun _ => .ite (fun _ => .ok _) fun _ => .ok _) fun _ => .ok _

/-- `del_file_event` fails only outside the table. -/
theorem delFileEvent_fails (l : AeEventLoop π δ) (fd : ℤ) (mask : Mask) :
    FailsOnly {Halt.outOfBounds} (l.delFileEvent fd mask) := by
  unfold delFileEvent
  refine .ite (fun _ => .ok _) fun _ => (l.event_fails fd).bind fun fe _ => ?_
  cases l.apiData with
  | none => exact .ok _
  | some s => exact .ite (fun _ => .ok _) fun _ => .ok _

end AeEventLoop

end AsprNet
