import AsprNet.Ae.Arrays

/-! # The interest set follows the event table

Every operation picks ADD, MOD or DEL from the mask in memory. When the kernel honours each call
that is in order, its interest set and the masks stay in step over every run of operations
(`interest_agrees`), so what `epoll_wait` reports always has an entry in the table.
-/

namespace AsprNet

variable {π δ : Type}

/-! ## Operations and what the kernel should watch -/

/-- The arguments an operation may have. -/
def TableOp.Valid : TableOp π δ → Prop
  | .add fd mask _ _ => 0 ≤ fd ∧ mask ≠ aeNone ∧ mask.Within aeBoth
  | .del fd _ => 0 ≤ fd
  | .resize newSize => 0 ≤ newSize

instance (op : TableOp π δ) : Decidable op.Valid :=
  match op with
  | .add _ _ _ _ => inferInstanceAs (Decidable (_ ∧ _ ∧ _))
  | .del _ _ => inferInstanceAs (Decidable (_ ≤ _))
  | .resize _ => inferInstanceAs (Decidable (_ ≤ _))

/-- What the kernel should watch for a mask: nothing, or its directions. -/
def Mask.watched (m : Mask) : Option Mask := if m = aeNone then none else some (epollEvents m)

/-! ## Kernel calls that are in order -/

variable {s : AeEpollState} {fd : ℤ}

/-- On an epoll instance that agrees with the mask, the kernel call of `add_file_event` fails for
a reason of its own only, and changes nothing then. -/
theorem AeEventLoop.addCtl_eq {old mask : Mask} (hold : s.interest fd = old.watched)
    (hne : mask ≠ aeNone) :
    AeEventLoop.addCtl s fd old mask =
      if s.ctl.headD false then (-1, { s with ctl := s.ctl.tail })
      else (0, { s with
        ctl := s.ctl.tail
        interest := Function.update s.interest fd (mask ||| old).watched }) := by
  have hunion : (mask ||| old).watched = some (epollEvents (mask ||| old)) :=
    if_neg (Mask.or_ne_none hne)
  rw [hunion]
  unfold AeEventLoop.addCtl AeEpollState.epollCtl
  by_cases hm : old = aeNone
  · have hnone : s.interest fd = none := by rw [hold, Mask.watched, if_pos hm]
    simp only [if_pos hm, hnone]
  · have hsome : s.interest fd = some (epollEvents old) := by rw [hold, Mask.watched, if_neg hm]
    simp only [if_neg hm, hsome]

/-- The state of an epoll instance that fails no call on its own account. -/
def AeEpollState.Honest (s : AeEpollState) : Prop := s.ctl = []

/-- On an honest instance that watches `fd` for its mask, `add_file_event` succeeds in having it
watched for the union. -/
theorem addCtl_honest (hs : s.Honest) {old mask : Mask} (hold : s.interest fd = old.watched)
    (hne : mask ≠ aeNone) :
    AeEventLoop.addCtl s fd old mask =
      (0, { s with interest := Function.update s.interest fd (mask ||| old).watched }) := by
  have hs : s.ctl = [] := hs
  rw [AeEventLoop.addCtl_eq hold hne, hs]
  rfl

/-- After `del_file_event` it watches `fd` for what is left of the mask. -/
theorem delCtl_honest (hs : s.Honest) {old : Mask} (hold : s.interest fd = old.watched)
    (gone : Mask) :
    AeEventLoop.delCtl s fd (old &&& ~~~gone) =
      { s with interest := Function.update s.interest fd (old &&& ~~~gone).watched } := by
  have hs : s.ctl = [] := hs
  by_cases hm : old = aeNone
  · -- nothing was watched: the DEL fails, and nothing has to change
    have hnone : s.interest fd = none := by rw [hold, Mask.watched, if_pos hm]
    have hsame : Function.update s.interest fd none = s.interest := by
      rw [← hnone, Function.update_eq_self]
    simp [AeEventLoop.delCtl, AeEpollState.epollCtl, hs, hm, hnone, aeNone, Mask.watched, hsame]
  · by_cases hleft : old &&& ~~~gone = aeNone
    · simp [AeEventLoop.delCtl, AeEpollState.epollCtl, hs, hm, hleft, hold, Mask.watched]
    · simp [AeEventLoop.delCtl, AeEpollState.epollCtl, hs, hm, hleft, hold, Mask.watched]

/-! ## The invariant -/

/-- The interest set of `s` agrees with the masks of the table. -/
structure AeEventLoop.Agrees (l : AeEventLoop π δ) (s : AeEpollState) : Prop where
  api : l.apiData = some s
  honest : s.Honest
  fits : l.Fits
  interest : ∀ fd, s.interest fd = (l.entry fd).mask.watched
  within : ∀ fd, (l.entry fd).mask.Within aeBoth
  below : ∀ fd, (l.entry fd).mask ≠ aeNone → fd ≤ l.maxFd

namespace AeEventLoop.Agrees

variable {l : AeEventLoop π δ}

/-- A new table and a new instance hold nothing. -/
theorem create (size : ℕ) :
    (AeEventLoop.create size (some (AeEpollState.create size [])) : AeEventLoop π δ).Agrees
      (AeEpollState.create size []) := by
  refine ⟨rfl, rfl, Fits.create size [], fun fd => ?_, fun fd => ?_, fun fd h => ?_⟩
  · rw [entry_create]
    rfl
  · rw [entry_create]
    exact (by decide : Mask.Within aeNone aeBoth)
  · rw [entry_create] at h
    exact absurd rfl h

/-- `add_file_event` keeps the agreement. -/
theorem add (h : l.Agrees s) {mask : Mask} (h0 : 0 ≤ fd) (hne : mask ≠ aeNone)
    (hw : mask.Within aeBoth) (proc : π) (data : δ) :
    ∃ r l' s', l.addFileEvent fd mask proc data = .ok (r, l') ∧ l'.Agrees s' := by
  rcases lt_or_ge fd l.fdsetSize with hlt | hge
  · have hctl := addCtl_honest h.honest (h.interest fd) hne
    have hadd := addFileEvent_of_lt h.fits.sized h0 hlt h.api mask proc data
    rw [hctl, if_neg (by simp)] at hadd
    -- the entry of `fd` gets the union, the others stay
    have hmask := mask_register h.fits.sized h0 hlt mask proc data
    refine ⟨_, _, _, hadd, ⟨rfl, h.honest, (h.fits.add h0 h.api hadd).fits, fun fd' => ?_,
      fun fd' => ?_, fun fd' hreg => ?_⟩⟩
    · show Function.update s.interest fd _ fd' =
        Mask.watched ((l.register _ _ _ _ _).entry fd').mask
      rw [hmask, Function.update_apply, BitVec.or_comm]
      split
      · rfl
      · exact h.interest fd'
    · show Mask.Within ((l.register _ _ _ _ _).entry fd').mask _
      rw [hmask]
      split
      · exact (h.within fd).or hw
      · exact h.within fd'
    · have hreg : ((l.register fd (l.entry fd) mask proc data).entry fd').mask ≠ aeNone := hreg
      show fd' ≤ max l.maxFd fd
      rw [hmask] at hreg
      split at hreg
      · omega
      · exact (h.below fd' hreg).trans (le_max_left _ _)
  · exact ⟨_, _, s, addFileEvent_of_le hge mask proc data, h⟩

/-- What is registered once a mask of `fd` is cut to `left` is below the new `_max_fd`. -/
theorem below_del (h : l.Agrees s) (h0 : 0 ≤ fd) (hlt : fd < l.fdsetSize) {left : Mask}
    (hleft : (l.entry fd).mask = aeNone → left = aeNone) {fd' : ℤ}
    (hreg : ((l.setEvent fd { l.entry fd with mask := left }).entry fd').mask ≠ aeNone) :
    fd' ≤ if fd = l.maxFd ∧ left = aeNone then
        scanMaxFd (l.setEvent fd { l.entry fd with mask := left }).events l.maxFd.toNat
      else l.maxFd := by
  have hmask := mask_setEvent h.fits.sized h0 hlt left fd'
  have hbelow : fd' ≠ fd → fd' ≤ l.maxFd := by
    intro hfd'
    rw [hmask, if_neg hfd'] at hreg
    exact h.below fd' hreg
  split
  · -- the highest descriptor is gone: the scan starts below it
    rename_i htop
    have hfd' : fd' ≠ fd := by
      rintro rfl
      rw [hmask, if_pos rfl] at hreg
      exact hreg htop.2
    have hle := hbelow hfd'
    exact le_scanMaxFd hreg (by omega)
  · rcases eq_or_ne fd' fd with rfl | hfd'
    · -- a mask that was not emptied was registered before
      rw [hmask, if_pos rfl] at hreg
      exact h.below fd' fun hnone => hreg (hleft hnone)
    · exact hbelow hfd'

/-- `del_file_event` keeps the agreement. -/
theorem del (h : l.Agrees s) (h0 : 0 ≤ fd) (gone : Mask) :
    ∃ l' s', l.delFileEvent fd gone = .ok l' ∧ l'.Agrees s' := by
  rcases lt_or_ge fd l.fdsetSize with hlt | hge
  · have hctl := delCtl_honest h.honest (h.interest fd) gone
    have hdel := delFileEvent_of_lt h.fits.sized h0 hlt h.api gone
    dsimp only at hdel
    rw [hctl] at hdel
    set left := (l.entry fd).mask &&& ~~~gone
    have hmask := mask_setEvent h.fits.sized h0 hlt left
    refine ⟨_, _, hdel, ⟨rfl, h.honest, (h.fits.del h0 h.api hdel).1.fits, fun fd' => ?_,
      fun fd' => ?_, fun fd' hreg => ?_⟩⟩
    · show Function.update s.interest fd _ fd' = Mask.watched ((l.setEvent fd _).entry fd').mask
      rw [hmask, Function.update_apply]
      split
      · rfl
      · exact h.interest fd'
    · show Mask.Within ((l.setEvent fd _).entry fd').mask _
      rw [hmask]
      split
      · exact (h.within fd).and _
      · exact h.within fd'
    · refine h.below_del h0 hlt (fun hnone => ?_) hreg
      simp [left, hnone, aeNone]
  · exact ⟨_, s, delFileEvent_of_le hge gone, h⟩

/-- Registrations keep the agreement. -/
theorem kept : AeArrays.Kept TableOp.Valid fun l : AeEventLoop π δ => ∃ s, l.Agrees s where
  api := fun _ ⟨s, h⟩ => ⟨s, h.api⟩
  add := by
    rintro l fd mask proc data hop ⟨s, h⟩
    obtain ⟨r, l', s', hadd, h'⟩ := h.add hop.1 hop.2.1 hop.2.2 proc data
    exact ⟨r, l', hadd, s', h'⟩
  del := by
    rintro l fd mask hop ⟨s, h⟩
    obtain ⟨l', s', hdel, h'⟩ := h.del hop mask
    exact ⟨l', hdel, s', h'⟩

end AeEventLoop.Agrees

/-! ## Every run -/

/-- The kernel's events say the same about the two directions as the mask. -/
theorem epollEvents_has (m : Mask) :
    (epollEvents m).has epollIn = m.has aeReadable ∧
      (epollEvents m).has epollOut = m.has aeWritable ∧
      (epollEvents m).Within (epollIn ||| epollOut) := by
  simp only [epollEvents]
  cases m.has aeReadable <;> cases m.has aeWritable <;> decide

/-- The epoll instance `s` watches every descriptor for exactly the directions of its mask, and one
without a mask not at all. Whatever it can report is therefore in the table. -/
structure AeEventLoop.Watched (l : AeEventLoop π δ) (s : AeEpollState) : Prop where
  api : l.apiData = some s
  unregistered : ∀ fd, (l.entry fd).mask = aeNone → s.interest fd = none
  registered : ∀ fd, (l.entry fd).mask ≠ aeNone → ∃ ev, s.interest fd = some ev ∧
    ev.has epollIn = (l.entry fd).mask.has aeReadable ∧
    ev.has epollOut = (l.entry fd).mask.has aeWritable ∧
    ev.Within (epollIn ||| epollOut)
  polled : ∀ batch, (∀ e ∈ batch, s.interest e.fd ≠ none) → ∃ n l', l.poll batch = .ok (n, l') ∧
    ∀ e ∈ l'.fired.take n, 0 ≤ e.fd ∧ e.fd < l'.fdsetSize ∧ l'.event e.fd = .ok (l.entry e.fd)

/-- Agreement includes that every registered descriptor is watched. -/
theorem AeEventLoop.Agrees.watched {l : AeEventLoop π δ} (h : l.Agrees s) : l.Watched s := by
  refine ⟨h.api, fun fd hm => ?_, fun fd hm => ?_, fun batch hbatch => ?_⟩
  · rw [h.interest, Mask.watched, if_pos hm]
  · exact ⟨_, by rw [h.interest, Mask.watched, if_neg hm], epollEvents_has _⟩
  · refine ⟨_, _, h.fits.poll h.api batch, fun e he => ?_⟩
    rw [List.take_left' (by rw [List.length_map])] at he
    obtain ⟨ev, hev, rfl⟩ := List.mem_map.mp he
    have hreg : (l.entry ev.fd).mask ≠ aeNone := by
      intro hm
      exact hbatch ev (List.mem_of_mem_take hev) (by rw [h.interest, Mask.watched, if_pos hm])
    obtain ⟨h0, hlt⟩ := h.fits.sized.lt_of_mask hreg
    exact ⟨h0, hlt, h.fits.sized.event h0 hlt⟩

/-- **The interest set agrees with the table in every reachable state**: every run from the
constructor ends in one where it does, if it returns. It returns exactly when none of its resizes
gets to work on the arrays. -/
theorem interest_agrees (heap : Blocks) (size : ℕ) (ops : List (TableOp π δ))
    (hops : ∀ op ∈ ops, op.Valid) :
    ∃ a, AeArrays.create heap size (some (AeEpollState.create size [])) = .ok a ∧
      (∀ b, ops.foldlM AeArrays.call a = .ok b → ∃ s, b.loop.Watched s) ∧
      ((∃ b, ops.foldlM AeArrays.call a = .ok b) ↔
        StepsMeet AeArrays.call (fun b op => op.Stays b.loop) a ops) := by
  obtain ⟨a, hcreate, hloop, -⟩ := AeArrays.create_live (π := π) (δ := δ) heap size
    (some (AeEpollState.create size []))
  have ha : ∃ s, a.loop.Agrees s := by
    rw [hloop]
    exact ⟨_, AeEventLoop.Agrees.create size⟩
  refine ⟨a, hcreate, ?_, AeEventLoop.Agrees.kept.run_iff hops ha⟩
  intro b hrun
  obtain ⟨s, h⟩ := AeEventLoop.Agrees.kept.run hops ha hrun
  exact ⟨s, h.watched⟩

/-- A run with a partial removal, a repeated one, a resize to the present size and one that is
refused: it returns, and descriptor 5 is watched for both directions at its end. -/
theorem interest_agrees_run :
    ∃ a b s, AeArrays.create .empty 8 (some (AeEpollState.create 8 [])) = .ok a ∧
      [TableOp.add 5 aeReadable () (), .del 5 aeReadable, .del 7 aeWritable, .resize 8,
        .add 5 aeBoth () (), .del 5 aeReadable, .resize 5, .add 5 aeReadable () ()].foldlM
        AeArrays.call a = .ok b ∧
      b.loop.Watched s ∧ (b.loop.entry 5).mask = aeBoth := by
  obtain ⟨a, hcreate, hwatched, -⟩ := interest_agrees .empty 8
    [TableOp.add 5 aeReadable () (), .del 5 aeReadable, .del 7 aeWritable, .resize 8,
      .add 5 aeBoth () (), .del 5 aeReadable, .resize 5, .add 5 aeReadable () ()] (by decide)
  obtain rfl := Except.ok.inj hcreate
  obtain ⟨s, hs⟩ := hwatched _ rfl
  exact ⟨_, _, s, rfl, rfl, hs, by decide⟩

end AsprNet
