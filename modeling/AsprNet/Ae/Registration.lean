import AsprNet.Ae.Interest
import AsprNet.Lib.Highest

/-! # The event table when kernel calls fail

`_max_fd`, the three arrays and the entries after any run of operations, whatever `epoll_ctl`
answers: they are represented exactly when no resize of the run gets to work
(`table_representation_iff`). The moves of such a resize are right, its second release of one
array is what it does not survive. And when `add_file_event` is atomic
(`addFileEvent_atomic_iff`): the ADD of a first registration is checked, the MOD that widens an
existing one is not.
-/

namespace AsprNet

variable {π δ : Type}

namespace AeEventLoop

/-- The descriptors with a non-empty mask. -/
def registered (l : AeEventLoop π δ) : Set ℤ := {fd | (l.entry fd).mask ≠ aeNone}

/-- What the three operations keep up between the fields of the loop. -/
structure Represented (l : AeEventLoop π δ) : Prop where
  fits : l.Fits
  api : ∃ s, l.apiData = some s
  highest : Highest (-1) l.registered l.maxFd

variable {l : AeEventLoop π δ} {fd : ℤ}

/-- Registered means a mask that is not empty. -/
theorem mem_registered : fd ∈ l.registered ↔ (l.entry fd).mask ≠ aeNone := Iff.rfl

/-- A registered descriptor is above the `-1` of an empty table. -/
theorem Sized.neg_one_lt (hl : l.Sized) (h : fd ∈ l.registered) : -1 < fd := by
  have := (hl.lt_of_mask h).1
  omega

/-! ## `_max_fd` -/

/-- The registered descriptors of a loop whose entry of `fd` has the mask `m` now. -/
theorem registered_eq {l' : AeEventLoop π δ} {m : Mask}
    (h : ∀ fd', (l'.entry fd').mask = if fd' = fd then m else (l.entry fd').mask) :
    l'.registered = if m = aeNone then l.registered \ {fd} else insert fd l.registered := by
  ext fd'
  rw [mem_registered, h]
  by_cases hfd : fd' = fd
  · rw [if_pos hfd]
    split_ifs with hm
    · simp [hm, hfd]
    · simp [hm, hfd]
  · rw [if_neg hfd]
    split_ifs with hm
    · simp [hfd, mem_registered]
    · simp [hfd, mem_registered]

/-- The scan ends at a registered descriptor or below the table. -/
theorem scanMaxFd_mem (events : List (AeFileEvent π δ)) (i : ℕ) :
    scanMaxFd events i = -1 ∨
      ∃ j : ℕ, scanMaxFd events i = j ∧ (events.getD j {}).mask ≠ aeNone := by
  induction i with
  | zero => exact Or.inl rfl
  | succ i ih =>
      unfold scanMaxFd
      split
      · exact Or.inr ⟨i, rfl, by assumption⟩
      · exact ih

/-- When nothing is registered from `i` on, the scan from `i` finds the highest descriptor. -/
theorem highest_scanMaxFd (hl : l.Sized) {i : ℕ} (h : ∀ fd ∈ l.registered, fd < i) :
    Highest (-1) l.registered (scanMaxFd l.events i) := by
  have hentry : ∀ j : ℕ, l.entry j = l.events.getD j {} := by
    intro j
    unfold entry
    rw [if_pos (by omega), Int.toNat_natCast]
  apply Highest.of_mem_of_le
  · rcases scanMaxFd_mem l.events i with hneg | ⟨j, hj, hreg⟩
    · exact Or.inl hneg
    · rw [hj, mem_registered, hentry]
      exact Or.inr hreg
  · intro fd hfd
    exact hl.neg_one_lt hfd
  · intro fd hfd
    exact le_scanMaxFd hfd (h fd hfd)

namespace Represented

/-- In a new table nothing is registered. -/
theorem create (size : ℕ) (ctl : List Bool) :
    (AeEventLoop.create size (some (AeEpollState.create size ctl)) :
      AeEventLoop π δ).Represented := by
  refine ⟨Fits.create size ctl, ⟨_, rfl⟩, ?_⟩
  have hnone : (AeEventLoop.create size (some (AeEpollState.create size ctl)) :
      AeEventLoop π δ).registered = ∅ := by
    apply Set.eq_empty_of_forall_notMem
    intro fd hfd
    rw [mem_registered, entry_create] at hfd
    exact hfd rfl
  rw [hnone]
  exact Highest.empty (-1)

/-- `add_file_event` either fails, and touches nothing but the epoll state, or adds `fd`. -/
theorem add (h : l.Represented) (h0 : 0 ≤ fd) {mask : Mask} (hne : mask ≠ aeNone) (proc : π)
    (data : δ) :
    ∃ r l', l.addFileEvent fd mask proc data = .ok (r, l') ∧ l'.Represented := by
  obtain ⟨s, hs⟩ := h.api
  rcases lt_or_ge fd l.fdsetSize with hlt | hge
  · have hadd := addFileEvent_of_lt h.fits.sized h0 hlt hs mask proc data
    split at hadd
    · have hkeeps := h.fits.add h0 hs hadd
      exact ⟨_, _, hadd, hkeeps.fits, hkeeps.api, h.highest⟩
    · have hkeeps := h.fits.add h0 hs hadd
      refine ⟨_, _, hadd, hkeeps.fits, hkeeps.api, ?_⟩
      have hmask := mask_register h.fits.sized h0 hlt mask proc data
      show Highest (-1) (l.register fd (l.entry fd) mask proc data).registered (max l.maxFd fd)
      rw [registered_eq hmask, if_neg (by rw [BitVec.or_comm]; exact Mask.or_ne_none hne)]
      exact h.highest.insert (by omega)
  · exact ⟨_, l, addFileEvent_of_le hge mask proc data, h⟩

/-- `del_file_event` scans for a new `_max_fd` when the highest descriptor is gone. -/
theorem del (h : l.Represented) (h0 : 0 ≤ fd) (gone : Mask) :
    ∃ l', l.delFileEvent fd gone = .ok l' ∧ l'.Represented := by
  obtain ⟨s, hs⟩ := h.api
  rcases lt_or_ge fd l.fdsetSize with hlt | hge
  · have hdel := delFileEvent_of_lt h.fits.sized h0 hlt hs gone
    refine ⟨_, hdel, ?_⟩
    have hkeeps := (h.fits.del h0 hs hdel).1
    refine ⟨hkeeps.fits, hkeeps.api, ?_⟩
    set left := (l.entry fd).mask &&& ~~~gone
    set l₁ := l.setEvent fd { l.entry fd with mask := left } with hl₁
    have hsized : l₁.Sized := hkeeps.fits.sized
    show Highest (-1) l₁.registered
      (if fd = l.maxFd ∧ left = aeNone then scanMaxFd l₁.events l.maxFd.toNat else l.maxFd)
    have hreg := registered_eq (mask_setEvent h.fits.sized h0 hlt left)
    rw [← hl₁] at hreg
    by_cases hleft : left = aeNone
    · rw [if_pos hleft] at hreg
      by_cases htop : fd = l.maxFd
      · -- every other descriptor is below the one that left
        rw [if_pos ⟨htop, hleft⟩]
        apply highest_scanMaxFd hsized
        intro fd' hfd'
        rw [hreg] at hfd'
        have hle := h.highest.le hfd'.1
        have hne : fd' ≠ fd := hfd'.2
        omega
      · rw [if_neg (not_and_of_not_left _ htop), hreg]
        exact h.highest.diff htop
    · -- a mask of which something is left was not empty
      rw [if_neg hleft] at hreg
      have hold : fd ∈ l.registered := by
        intro hnone
        apply hleft
        simp [left, hnone, aeNone]
      rw [if_neg (not_and_of_not_right _ hleft), hreg, Set.insert_eq_of_mem hold]
      exact h.highest
  · exact ⟨l, delFileEvent_of_le hge gone, h⟩

/-- **The moves of `resize`** keep every entry that is registered and register none, so the release
behind them is all that is wrong with it. -/
theorem resized (h : l.Represented) (s : AeEpollState) {newSize : ℤ} (h0 : 0 ≤ newSize)
    (hmax : l.maxFd < newSize) :
    (l.resized s newSize).Represented ∧ (l.resized s newSize).registered = l.registered ∧
      ∀ fd ∈ l.registered, (l.resized s newSize).entry fd = l.entry fd := by
  have hkept : ∀ fd ∈ l.registered, (l.resized s newSize).entry fd = l.entry fd := by
    intro fd hfd
    rw [entry_resized l s newSize fd hmax, resizedEntry, if_pos (h.highest.le hfd)]
  have hreg : (l.resized s newSize).registered = l.registered := by
    ext fd
    refine ⟨fun hfd => ?_, fun hfd => by rw [mem_registered, hkept fd hfd]; exact hfd⟩
    rw [mem_registered, entry_resized l s newSize fd hmax, resizedEntry] at hfd
    split_ifs at hfd
    · exact hfd
    · exact absurd rfl hfd
    · exact absurd rfl hfd
  refine ⟨⟨fits_resized l s h0, ⟨_, rfl⟩, ?_⟩, hreg, hkept⟩
  rw [hreg]
  exact h.highest

end Represented

end AeEventLoop

/-! ## Every run -/

/-- The arguments of an operation: a descriptor or a size that is not negative, and flags to
register. -/
def TableOp.InRange : TableOp π δ → Prop
  | .add fd mask _ _ => 0 ≤ fd ∧ mask ≠ aeNone
  | .del fd _ => 0 ≤ fd
  | .resize newSize => 0 ≤ newSize

instance (op : TableOp π δ) : Decidable op.InRange :=
  match op with
  | .add _ _ _ _ => inferInstanceAs (Decidable (_ ∧ _))
  | .del _ _ => inferInstanceAs (Decidable (_ ≤ _))
  | .resize _ => inferInstanceAs (Decidable (_ ≤ _))

/-- Registrations keep the representation. -/
theorem AeEventLoop.Represented.kept :
    AeArrays.Kept TableOp.InRange fun l : AeEventLoop π δ => l.Represented where
  api := fun _ h => h.api
  add := fun _ _ _ proc data hop h => h.add hop.1 hop.2 proc data
  del := fun _ _ mask hop h => h.del hop mask

/-- What the fields of a loop say: `_max_fd` is the highest registered descriptor, and the three
arrays have `_fdset_size` elements, so that `poll` stays inside `_fired`. -/
structure AeEventLoop.Tells (l : AeEventLoop π δ) : Prop where
  maxFd : (l.registered = ∅ ∧ l.maxFd = -1) ∨ IsGreatest l.registered l.maxFd
  events : (l.events.length : ℤ) = l.fdsetSize
  fired : (l.fired.length : ℤ) = l.fdsetSize
  api : ∃ s, l.apiData = some s ∧ s.eventsSize = l.fdsetSize
  poll : ∀ batch, ∃ n l', l.poll batch = .ok (n, l') ∧ n ≤ l.fired.length ∧
    l'.fired.length = l.fired.length

/-- What a represented table tells. -/
theorem AeEventLoop.Represented.tells {l : AeEventLoop π δ} (h : l.Represented) : l.Tells := by
  obtain ⟨s, hs⟩ := h.api
  have hfired := h.fits.fired
  refine ⟨h.highest, h.fits.sized, hfired, ⟨s, hs, h.fits.capacity s hs⟩, fun batch => ?_⟩
  refine ⟨_, _, h.fits.poll hs batch, ?_, ?_⟩
  · rw [List.length_take]
    omega
  · simp only [List.length_append, List.length_map, List.length_drop, List.length_take]
    omega

namespace AeArrays

variable {a b : AeArrays π δ} {op : TableOp π δ} {ops : List (TableOp π δ)}

/-- A resize returns. It fails exactly when it would drop a registered descriptor, and changes
nothing then; else it keeps the entry of every registered descriptor, and registers none. -/
def ResizeKeeps (a : AeArrays π δ) : TableOp π δ → Prop
  | .resize newSize => ∃ r b, a.resize newSize = .ok (r, b) ∧
      (r = aeErr ↔ ∃ fd ∈ a.loop.registered, newSize ≤ fd) ∧
      (r = aeErr → b = a) ∧
      (r ≠ aeErr → r = aeOk ∧ b.loop.fdsetSize = newSize ∧
        b.loop.registered = a.loop.registered ∧
        ∀ fd ∈ a.loop.registered, b.loop.entry fd = a.loop.entry fd)
  | _ => True

/-- The table represents its registrations throughout a run: every state tells what is registered,
and every resize keeps it. -/
structure Represents (a : AeArrays π δ) (ops : List (TableOp π δ)) : Prop where
  states : StatesMeet call (fun b => b.loop.Tells) a ops
  resizes : StepsMeet call ResizeKeeps a ops

/-- A resize that stays keeps the registrations. -/
theorem resizeKeeps_of_stays (h : a.loop.Represented) (hop : op.InRange)
    (hstays : op.Stays a.loop) : a.ResizeKeeps op := by
  cases op with
  | add fd mask proc data => trivial
  | del fd mask => trivial
  | resize newSize =>
      obtain ⟨s, hs⟩ := h.api
      rcases resize_stays hstays with hsame | ⟨hnull, -⟩
      · refine ⟨_, a, hsame, ?_, fun _ => rfl, ?_⟩
        · split_ifs with hsize
          · -- every registered descriptor is below the size that stays
            refine iff_of_false (by decide) ?_
            rintro ⟨fd, hfd, hge⟩
            have := (h.fits.sized.lt_of_mask hfd).2
            omega
          · have hle : newSize ≤ a.loop.maxFd := by
              rcases hstays with heq | hle | hnull
              · exact absurd heq hsize
              · exact hle
              · cases hnull.symm.trans hs
            have h0 : 0 ≤ newSize := hop
            exact iff_of_true rfl ⟨a.loop.maxFd, h.highest.mem (by omega), hle⟩
        · split_ifs with hsize
          · exact fun _ => ⟨rfl, hsize.symm, rfl, fun _ _ => rfl⟩
          · exact fun hne => absurd rfl hne
      · cases hnull.symm.trans hs

/-- A resize that keeps the registrations stays. -/
theorem stays_of_resizeKeeps (h : a.ResizeKeeps op) : op.Stays a.loop := by
  cases op with
  | add fd mask proc data => trivial
  | del fd mask => trivial
  | resize newSize =>
      obtain ⟨r, b, hresize, -⟩ := h
      by_contra hmoves
      cases (resize_moves hmoves).symm.trans hresize

/-- **The table represents its registrations throughout a run exactly when no resize of the run
gets to work**, whichever `epoll_ctl` calls fail. -/
theorem table_representation_iff (heap : Blocks) (size : ℕ) (ctl : List Bool)
    (ops : List (TableOp π δ)) (hops : ∀ op ∈ ops, op.InRange) :
    ∃ a, create heap size (some (AeEpollState.create size ctl)) = .ok a ∧
      (Represents a ops ↔ StepsMeet call (fun b op => op.Stays b.loop) a ops) := by
  obtain ⟨a, hcreate, hloop, -⟩ := create_live (π := π) (δ := δ) heap size
    (some (AeEpollState.create size ctl))
  have ha : a.loop.Represented := by
    rw [hloop]
    exact AeEventLoop.Represented.create size ctl
  have hkept := AeEventLoop.Represented.kept (π := π) (δ := δ)
  refine ⟨a, hcreate, ?_, ?_⟩
  · intro h
    exact h.resizes.imp fun b op => stays_of_resizeKeeps
  · intro h
    have hkeeps : ∀ (b : AeArrays π δ) op, op.InRange → b.loop.Represented → op.Stays b.loop →
        b.ResizeKeeps op := fun b op hop hb hstays => resizeKeeps_of_stays hb hop hstays
    have hcall : ∀ (b : AeArrays π δ) op c, op.InRange → b.loop.Represented →
        b.call op = .ok c → c.loop.Represented := fun b op c hop hb hc => hkept.call_ok hop hb hc
    exact ⟨(hkept.states hops ha h).imp fun b hb => hb.tells,
      h.imp_of_invariant hkeeps hcall hops ha⟩

/-- A run in which an ADD and a MOD fail, with a resize to the present size and a refused one. At
its end descriptors 3 and 5 are registered. -/
theorem table_representation_run :
    ∃ a : AeArrays Unit Unit,
      create .empty 8 (some (AeEpollState.create 8 [true, false, false, true])) = .ok a ∧
      Represents a [.add 5 aeReadable () (), .add 5 aeReadable () (), .add 3 aeBoth () (),
        .add 5 aeWritable () (), .resize 4, .del 3 aeReadable, .resize 8] := by
  obtain ⟨a, hcreate, hiff⟩ := table_representation_iff (π := Unit) (δ := Unit) .empty 8
    [true, false, false, true] [.add 5 aeReadable () (), .add 5 aeReadable () (),
      .add 3 aeBoth () (), .add 5 aeWritable () (), .resize 4, .del 3 aeReadable, .resize 8]
    (by decide)
  obtain rfl := Except.ok.inj hcreate
  exact ⟨_, rfl, hiff.mpr (StepsMeet.of_run (fun a op b hcall => stays_of_call hcall) rfl)⟩

/-- A loop for 16 descriptors in which descriptor 5 is registered: a resize to 32 drops nothing, and
does not return. -/
theorem grown_table_unrepresented :
    ∃ a b : AeArrays Unit Unit, create .empty 16 (some (AeEpollState.create 16 [])) = .ok a ∧
      a.call (.add 5 aeReadable () ()) = .ok b ∧ (b.loop.entry 5).mask = aeReadable ∧
      b.loop.maxFd = 5 ∧ b.resize 32 = .error .badPointer ∧
      ¬Represents a [.add 5 aeReadable () (), .resize 32] := by
  obtain ⟨a, hcreate, -⟩ := create_live (π := Unit) (δ := Unit) .empty 16
    (some (AeEpollState.create 16 []))
  obtain ⟨b, hcall, hsize, hmax, hsome, hmask⟩ : ∃ b, a.call (.add 5 aeReadable () ()) = .ok b ∧
      b.loop.fdsetSize = 16 ∧ b.loop.maxFd = 5 ∧ b.loop.apiData ≠ none ∧
      (b.loop.entry 5).mask = aeReadable := by
    obtain rfl := Except.ok.inj hcreate
    exact ⟨_, rfl, rfl, by decide, Option.some_ne_none _, by decide⟩
  have hmoves : ¬(TableOp.resize 32 : TableOp Unit Unit).Stays b.loop := by
    rw [TableOp.Stays, hsize, hmax]
    exact not_or.mpr ⟨by decide, not_or.mpr ⟨by decide, hsome⟩⟩
  refine ⟨a, b, hcreate, hcall, hmask, hmax, resize_moves hmoves, fun h => ?_⟩
  exact hmoves (stays_of_resizeKeeps (h.resizes.2 b hcall).1)

end AeArrays

/-! ## Atomicity -/

namespace AeEventLoop

variable {l : AeEventLoop π δ} {s : AeEpollState} {fd : ℤ}

/-- **`add_file_event` is atomic exactly when its `epoll_ctl` succeeds or `fd` was not registered.**
When the MOD of a registered descriptor fails, the result is `AE_OK` and only the table says so. -/
theorem addFileEvent_atomic_iff (hl : l.Sized) (hs : l.apiData = some s)
    (hagree : ∀ fd, s.interest fd = (l.entry fd).mask.watched) (h0 : 0 ≤ fd)
    (h : fd < l.fdsetSize) {mask : Mask} (hne : mask ≠ aeNone) (proc : π) (data : δ) :
    ∃ r l' s', l.addFileEvent fd mask proc data = .ok (r, l') ∧ l'.apiData = some s' ∧
      (((r = aeOk → s'.interest fd = ((l.entry fd).mask ||| mask).watched ∧
            (l'.entry fd).mask = (l.entry fd).mask ||| mask) ∧
          ((addCtl s fd (l.entry fd).mask mask).1 = -1 →
            r = aeErr ∧ l'.entry = l.entry ∧ l'.maxFd = l.maxFd ∧ s'.interest = s.interest)) ↔
        (s.ctl.headD false = false ∨ (l.entry fd).mask = aeNone)) := by
  have hadd := addFileEvent_of_lt hl h0 h hs mask proc data
  have hctl := addCtl_eq (hagree fd) hne
  cases hfail : s.ctl.headD false with
  | false =>
      -- the kernel watches the union, and the table is updated
      rw [hfail, if_neg Bool.false_ne_true] at hctl
      rw [hctl, if_neg (not_and_of_not_right _ (by show ¬(0 : ℤ) = -1; omega))] at hadd
      refine ⟨_, _, _, hadd, rfl, iff_of_true ⟨fun _ => ⟨?_, ?_⟩, fun herr => ?_⟩ (Or.inl rfl)⟩
      · show Function.update s.interest fd _ fd = _
        rw [Function.update_self, BitVec.or_comm]
      · exact (mask_register hl h0 h mask proc data fd).trans (if_pos rfl)
      · rw [hctl] at herr
        have herr : (0 : ℤ) = -1 := herr
        omega
  | true =>
      rw [hfail, if_pos rfl] at hctl
      by_cases hm : (l.entry fd).mask = aeNone
      · rw [if_pos ⟨hm, by rw [hctl]⟩] at hadd
        refine ⟨_, _, _, hadd, rfl, iff_of_true ⟨fun hok => ?_, fun _ => ?_⟩ (Or.inr hm)⟩
        · exact absurd hok (by decide)
        · rw [hctl]
          exact ⟨rfl, rfl, rfl, rfl⟩
      · -- the failed MOD goes unnoticed
        rw [if_neg (not_and_of_not_left _ hm)] at hadd
        refine ⟨_, _, _, hadd, rfl, iff_of_false ?_ ?_⟩
        · rintro ⟨-, herr⟩
          have := (herr (by rw [hctl])).1
          exact absurd this (by decide)
        · rintro (hok | hnone)
          · exact absurd hok (by decide)
          · exact hm hnone

/-- An epoll instance that watches descriptor 5 for input and fails the next call. -/
def failingEpoll : AeEpollState :=
  { eventsSize := 8, ctl := [true], interest := Function.update (fun _ => none) 5 (some epollIn) }

/-- A loop over it in which descriptor 5 is registered for reading. -/
def widening : AeEventLoop Unit Unit :=
  { (create 8 none).setEvent 5 { mask := aeReadable, rProc := some (), clientData := some () } with
    maxFd := 5
    apiData := some failingEpoll }

/-- Before the failing call the instance watches what the table asks. -/
theorem widening_agrees (fd : ℤ) :
    failingEpoll.interest fd = (widening.entry fd).mask.watched := by
  have hsized : (create 8 none : AeEventLoop Unit Unit).Sized := rfl
  have hentry := entry_setEvent hsized (show (0 : ℤ) ≤ 5 by decide) (by decide)
    { mask := aeReadable, rProc := some (), clientData := some () } fd
  show Function.update (fun _ => none) 5 (some epollIn) fd =
    Mask.watched ((AeEventLoop.setEvent _ _ _).entry fd).mask
  rw [hentry, Function.update_apply, entry_create]
  split <;> rfl

/-- Registering descriptor 5 for writing too is not atomic: the MOD fails, the result is `AE_OK`,
the table has both directions and the kernel still watches one. -/
theorem widening_not_atomic :
    widening.apiData = some failingEpoll ∧
      (∀ fd, failingEpoll.interest fd = (widening.entry fd).mask.watched) ∧
      ∃ l' s', widening.addFileEvent 5 aeWritable () () = .ok (aeOk, l') ∧ l'.apiData = some s' ∧
        (addCtl failingEpoll 5 (widening.entry 5).mask aeWritable).1 = -1 ∧
        (l'.entry 5).mask = aeBoth ∧ s'.interest 5 = some epollIn :=
  ⟨rfl, widening_agrees, _, _, rfl, rfl, by decide, by decide, by decide⟩

/-- On a descriptor that is not registered the failure is reported. -/
theorem addFileEvent_atomic_first :
    ∃ r l' s', widening.addFileEvent 6 aeWritable () () = .ok (r, l') ∧ l'.apiData = some s' ∧
      (((r = aeOk → s'.interest 6 = ((widening.entry 6).mask ||| aeWritable).watched ∧
            (l'.entry 6).mask = (widening.entry 6).mask ||| aeWritable) ∧
          ((addCtl failingEpoll 6 (widening.entry 6).mask aeWritable).1 = -1 →
            r = aeErr ∧ l'.entry = widening.entry ∧ l'.maxFd = widening.maxFd ∧
              s'.interest = failingEpoll.interest)) ↔
        (failingEpoll.ctl.headD false = false ∨ (widening.entry 6).mask = aeNone)) :=
  addFileEvent_atomic_iff (l := widening) rfl rfl widening_agrees (by decide) (by decide)
    (by decide) () ()

end AeEventLoop

end AsprNet
