import AsprNet.Ae.Table
import AsprNet.Lib.Blocks

/-! # Who owns the arrays of the loop

Reference: `ae.cpp`, `ae_epoll.hpp`. The loop together with the blocks that its pointers hold:
`_events`, `_fired` and the `_events` of its epoll state. Here is `resize`, and with it the runs of
calls on one loop.

A resize that gets to work releases the old `_events` a second time where it should release the old
`_fired`. So the arrays are owned throughout a run exactly when every resize of it changes nothing
(`array_ownership_iff`), and what a run keeps of the table rests on its registrations (`Kept`).
-/

namespace AsprNet

variable {π δ : Type}

/-- An operation on the event table. -/
inductive TableOp (π δ : Type)
  | add (fd : ℤ) (mask : Mask) (proc : π) (data : δ)
  | del (fd : ℤ) (mask : Mask)
  | resize (newSize : ℤ)

/-- A loop and the blocks it points to. -/
structure AeArrays (π δ : Type) where
  loop : AeEventLoop π δ
  heap : Blocks
  /-- The array `_events`. -/
  events : ℕ
  /-- The array `_fired`. -/
  fired : ℕ
  /-- The array `_events` of `_api_data`, when that is not null. -/
  apiEvents : ℕ

namespace AeArrays

/-- `_S_epoll_create`, given the outcome of `epoll_create`: the array of the new epoll state. -/
def epollCreate (heap : Blocks) (api : Option AeEpollState) : Except Halt (ℕ × Blocks) := do
  let (state, heap) := heap.alloc
  let (events, heap) := heap.alloc
  match api with
  | some _ => return (events, heap)
  | none =>
    -- `delete _ret`, which takes its array along
    let heap ← heap.release .badPointer events
    let heap ← heap.release .badPointer state
    return (events, heap)

/-- `ae_epoll_state::resize` of a state with the array `oldEvents`. -/
def epollResize (heap : Blocks) (oldEvents : ℕ) : Except Halt (ℕ × Blocks) := do
  let (events, heap) := heap.alloc
  let heap ← heap.release .badPointer oldEvents
  return (events, heap)

/-- The constructor, in a program whose heap is `heap`. -/
def create (heap : Blocks) (size : ℕ) (api : Option AeEpollState) :
    Except Halt (AeArrays π δ) := do
  let (events, heap) := heap.alloc
  let (fired, heap) := heap.alloc
  let (apiEvents, heap) ← epollCreate heap api
  return { loop := .create size api, heap, events, fired, apiEvents }

/-- The destructor. -/
def destroy (a : AeArrays π δ) : Except Halt Blocks := do
  let heap ← a.heap.release .badPointer a.events
  heap.release .badPointer a.fired

/-- `resize`. -/
def resize (a : AeArrays π δ) (newSize : ℤ) : Except Halt (ℤ × AeArrays π δ) :=
  if newSize = a.loop.fdsetSize then .ok (aeOk, a)
  else if newSize ≤ a.loop.maxFd then .ok (aeErr, a)
  else match a.loop.apiData with
    | none => .error .nullPointer
    | some s => do
      let (apiEvents, heap) ← epollResize a.heap a.apiEvents
      let oldEvents := a.events
      let (events, heap) := heap.alloc
      let heap ← heap.release .badPointer oldEvents
      let (fired, heap) := heap.alloc
      -- `delete[] _old_events`, here as well
      let heap ← heap.release .badPointer oldEvents
      return (aeOk, { loop := a.loop.resized s newSize, heap, events, fired, apiEvents })

/-- One call, its result dropped. Registrations leave the pointers alone. -/
def call (a : AeArrays π δ) : TableOp π δ → Except Halt (AeArrays π δ)
  | .add fd mask proc data => do
    let (_, loop) ← a.loop.addFileEvent fd mask proc data
    return { a with loop }
  | .del fd mask => do
    let loop ← a.loop.delFileEvent fd mask
    return { a with loop }
  | .resize newSize => do
    let (_, a) ← a.resize newSize
    return a

end AeArrays

/-- A call that is no resize, or a resize that the loop leaves before it touches an array: the size
stays, the size is refused, or there is no epoll state to resize. -/
def TableOp.Stays (l : AeEventLoop π δ) : TableOp π δ → Prop
  | .resize newSize => newSize = l.fdsetSize ∨ newSize ≤ l.maxFd ∨ l.apiData = none
  | _ => True

namespace AeArrays

variable {a b : AeArrays π δ} {op : TableOp π δ}

/-! ## One call -/

/-- `b` holds the blocks that `a` holds. -/
structure Unmoved (a b : AeArrays π δ) : Prop where
  heap : b.heap = a.heap
  events : b.events = a.events
  fired : b.fired = a.fired

theorem Unmoved.refl (a : AeArrays π δ) : Unmoved a a := ⟨rfl, rfl, rfl⟩

theorem Unmoved.trans {c : AeArrays π δ} (h : Unmoved a b) (h' : Unmoved b c) : Unmoved a c :=
  ⟨h'.heap.trans h.heap, h'.events.trans h.events, h'.fired.trans h.fired⟩

/-- The two outcomes of the resize of `_epoll_events`. -/
theorem epollResize_cases (heap : Blocks) (oldEvents : ℕ) :
    (∃ events heap', epollResize heap oldEvents = .ok (events, heap')) ∨
      epollResize heap oldEvents = .error .badPointer := by
  unfold epollResize
  dsimp only
  rcases Blocks.release_cases Halt.badPointer heap.alloc.2 oldEvents with ⟨heap', hrel⟩ | hfail
  · rw [hrel, ok_bind]
    exact Or.inl ⟨_, _, rfl⟩
  · rw [hfail]
    exact Or.inr rfl

/-- What a resize does that stays. -/
theorem resize_stays {newSize : ℤ} (h : (TableOp.resize newSize : TableOp π δ).Stays a.loop) :
    a.resize newSize = .ok (if newSize = a.loop.fdsetSize then aeOk else aeErr, a) ∨
      a.loop.apiData = none ∧ a.resize newSize = .error .nullPointer := by
  rw [resize]
  by_cases heq : newSize = a.loop.fdsetSize
  · rw [if_pos heq, if_pos heq]
    exact Or.inl rfl
  by_cases hle : newSize ≤ a.loop.maxFd
  · rw [if_neg heq, if_pos hle, if_neg heq]
    exact Or.inl rfl
  · have hnull : a.loop.apiData = none := (h.resolve_left heq).resolve_left hle
    rw [if_neg heq, if_neg hle, hnull]
    exact Or.inr ⟨rfl, rfl⟩

/-- **A resize that gets to work** releases a block twice. -/
theorem resize_moves {newSize : ℤ} (h : ¬(TableOp.resize newSize : TableOp π δ).Stays a.loop) :
    a.resize newSize = .error .badPointer := by
  obtain ⟨hne, h⟩ := not_or.mp h
  obtain ⟨hgt, hsome⟩ := not_or.mp h
  obtain ⟨s, hs⟩ := Option.ne_none_iff_exists'.mp hsome
  rw [resize, if_neg hne, if_neg hgt, hs]
  dsimp only
  rcases epollResize_cases a.heap a.apiEvents with ⟨events, heap, hapi⟩ | hfail
  · rw [hapi, ok_bind]
    dsimp only
    rcases Blocks.release_cases Halt.badPointer heap.alloc.2 a.events with ⟨heap', hold⟩ | hfail
    · -- the old `_events` are gone, and the new `_fired` lie somewhere else
      rw [hold, ok_bind, Blocks.release_twice hold, error_bind]
    · rw [hfail, error_bind]
  · rw [hfail, error_bind]

/-- A call that stays misuses no block. -/
theorem call_ne (h : op.Stays a.loop) : a.call op ≠ .error .badPointer := by
  cases op with
  | add fd mask proc data =>
      have hadd := (a.loop.addFileEvent_fails fd mask proc data).bind
        fun x _ => .ok ({ a with loop := x.2 } : AeArrays π δ)
      exact hadd.ne (by decide)
  | del fd mask =>
      have hdel := (a.loop.delFileEvent_fails fd mask).bind
        fun l _ => .ok ({ a with loop := l } : AeArrays π δ)
      exact hdel.ne (by decide)
  | resize newSize =>
      intro hcall
      rw [call] at hcall
      rcases resize_stays h with hresize | ⟨-, hnull⟩
      · rw [hresize] at hcall
        cases hcall
      · rw [hnull] at hcall
        cases hcall

/-- What a call leaves that stays. -/
theorem call_unmoved (h : op.Stays a.loop) (hcall : a.call op = .ok b) : Unmoved a b := by
  cases op with
  | add fd mask proc data =>
      obtain ⟨x, -, hret⟩ := bind_eq_ok.mp hcall
      obtain rfl := Except.ok.inj hret
      exact ⟨rfl, rfl, rfl⟩
  | del fd mask =>
      obtain ⟨l, -, hret⟩ := bind_eq_ok.mp hcall
      obtain rfl := Except.ok.inj hret
      exact ⟨rfl, rfl, rfl⟩
  | resize newSize =>
      obtain ⟨x, hresize, hret⟩ := bind_eq_ok.mp hcall
      obtain rfl := Except.ok.inj hret
      rcases resize_stays h with hsame | ⟨-, hnull⟩
      · obtain rfl := Except.ok.inj (hsame.symm.trans hresize)
        exact Unmoved.refl a
      · cases hnull.symm.trans hresize

/-- A call that gets to work on the arrays misuses a block. -/
theorem call_moves (h : ¬op.Stays a.loop) : a.call op = .error .badPointer := by
  cases op with
  | add fd mask proc data => exact absurd trivial h
  | del fd mask => exact absurd trivial h
  | resize newSize => rw [call, resize_moves h, error_bind]

/-- A call returns only where it stays. -/
theorem stays_of_call (hcall : a.call op = .ok b) : op.Stays a.loop := by
  by_contra hmoves
  cases (call_moves hmoves).symm.trans hcall

/-! ## What runs keep of the table -/

/-- `Inv` is a property of loops that `add_file_event` and `del_file_event` keep, when their
arguments are as `P` says. -/
structure Kept (P : TableOp π δ → Prop) (Inv : AeEventLoop π δ → Prop) : Prop where
  api : ∀ l, Inv l → ∃ s, l.apiData = some s
  add : ∀ l fd mask proc data, P (.add fd mask proc data) → Inv l →
    ∃ r l', l.addFileEvent fd mask proc data = .ok (r, l') ∧ Inv l'
  del : ∀ l fd mask, P (.del fd mask) → Inv l →
    ∃ l', l.delFileEvent fd mask = .ok l' ∧ Inv l'

namespace Kept

variable {P : TableOp π δ → Prop} {Inv : AeEventLoop π δ → Prop}

/-- **A call that stays returns, and keeps what registrations keep.** -/
theorem call (hI : Kept P Inv) (hop : P op) (ha : Inv a.loop) (h : op.Stays a.loop) :
    ∃ b, a.call op = .ok b ∧ Inv b.loop := by
  cases op with
  | add fd mask proc data =>
      obtain ⟨r, l, hadd, hl⟩ := hI.add a.loop fd mask proc data hop ha
      exact ⟨{ a with loop := l }, by rw [AeArrays.call, hadd]; rfl, hl⟩
  | del fd mask =>
      obtain ⟨l, hdel, hl⟩ := hI.del a.loop fd mask hop ha
      exact ⟨{ a with loop := l }, by rw [AeArrays.call, hdel]; rfl, hl⟩
  | resize newSize =>
      obtain ⟨s, hs⟩ := hI.api a.loop ha
      rcases resize_stays h with hsame | ⟨hnull, -⟩
      · exact ⟨a, by rw [AeArrays.call, hsame]; rfl, ha⟩
      · cases hnull.symm.trans hs

/-- A call that returns keeps what registrations keep. -/
theorem call_ok (hI : Kept P Inv) (hop : P op) (ha : Inv a.loop) (hcall : a.call op = .ok b) :
    Inv b.loop := by
  obtain ⟨c, hc, hinv⟩ := hI.call hop ha (stays_of_call hcall)
  obtain rfl := Except.ok.inj (hcall.symm.trans hc)
  exact hinv

variable {ops : List (TableOp π δ)}

/-- **Every run that returns keeps what registrations keep.** -/
theorem run (hI : Kept P Inv) (hops : ∀ op ∈ ops, P op) (ha : Inv a.loop)
    (hrun : ops.foldlM AeArrays.call a = .ok b) : Inv b.loop := by
  have hstep : ∀ (a : AeArrays π δ) op b, P op → Inv a.loop → a.call op = .ok b → Inv b.loop :=
    fun a op b hop ha hcall => hI.call_ok hop ha hcall
  exact run_invariant hstep ops a b hops ha hrun

/-- A run none of whose resizes gets to work returns, and every state of it keeps what
registrations keep. -/
theorem states (hI : Kept P Inv) (hops : ∀ op ∈ ops, P op) (ha : Inv a.loop)
    (h : StepsMeet AeArrays.call (fun b op => op.Stays b.loop) a ops) :
    StatesMeet AeArrays.call (fun b => Inv b.loop) a ops := by
  have hstep : ∀ (a : AeArrays π δ) op, P op → Inv a.loop → op.Stays a.loop →
      ∃ b, a.call op = .ok b ∧ Inv b.loop := fun a op hop ha hstays => hI.call hop ha hstays
  exact h.total hstep hops ha

/-- **A run returns exactly when no resize of it gets to work.** -/
theorem run_iff (hI : Kept P Inv) (hops : ∀ op ∈ ops, P op) (ha : Inv a.loop) :
    (∃ b, ops.foldlM AeArrays.call a = .ok b) ↔
      StepsMeet AeArrays.call (fun b op => op.Stays b.loop) a ops := by
  constructor
  · rintro ⟨b, hrun⟩
    exact StepsMeet.of_run (fun a op b hcall => stays_of_call hcall) hrun
  · intro h
    obtain ⟨b, hrun, -⟩ := (hI.states hops ha h).run
    exact ⟨b, hrun⟩

end Kept

/-! ## Ownership -/

/-- The arrays are owned throughout a run: no call releases a block that is not live, `_events` and
`_fired` are live behind every call, and the destructor leaves none of the arrays that they held in
the course of the run. -/
structure Owned (a : AeArrays π δ) (ops : List (TableOp π δ)) : Prop where
  once : StepsMeet call (fun b op => b.call op ≠ .error .badPointer) a ops
  live : ∀ pre post b, ops = pre ++ post → pre.foldlM call a = .ok b →
    b.events ∈ b.heap.live ∧ b.fired ∈ b.heap.live
  released : ∀ b, ops.foldlM call a = .ok b → ∃ heap, b.destroy = .ok heap ∧
    ∀ pre post c, ops = pre ++ post → pre.foldlM call a = .ok c →
      c.events ∉ heap.live ∧ c.fired ∉ heap.live

/-- `_S_epoll_create` releases nothing but its own blocks. -/
theorem epollCreate_live (heap : Blocks) (api : Option AeEpollState) :
    ∃ events heap', epollCreate heap api = .ok (events, heap') ∧
      ∀ b ∈ heap.live, b ∈ heap'.live := by
  unfold epollCreate
  dsimp only
  cases api with
  | some s =>
      refine ⟨_, _, rfl, ?_⟩
      intro b hb
      simp [hb]
  | none =>
      have hstate : heap.next ∈ (heap.alloc.2.alloc.2.without heap.alloc.2.next).live := by simp
      have hevents : heap.alloc.2.next ∈ heap.alloc.2.alloc.2.live := by simp
      refine ⟨heap.alloc.2.next,
        (heap.alloc.2.alloc.2.without heap.alloc.2.next).without heap.next, ?_, ?_⟩
      · show (heap.alloc.2.alloc.2.release Halt.badPointer heap.alloc.2.next >>= fun h =>
          h.release Halt.badPointer heap.next >>= fun h => .ok (heap.alloc.2.next, h)) = _
        rw [Blocks.release_of_mem hevents, ok_bind, Blocks.release_of_mem hstate, ok_bind]
      · intro b hb
        have hlt := heap.lt_next b hb
        simp only [Blocks.mem_without, Blocks.mem_alloc, Blocks.next_alloc]
        exact ⟨hlt.ne, by omega, Or.inr (Or.inr hb)⟩

/-- The constructor's arrays are two live blocks. -/
theorem create_live (heap : Blocks) (size : ℕ) (api : Option AeEpollState) :
    ∃ a : AeArrays π δ, create heap size api = .ok a ∧ a.loop = .create size api ∧
      a.events ∈ a.heap.live ∧ a.fired ∈ a.heap.live ∧ a.events ≠ a.fired := by
  obtain ⟨apiEvents, heap', hapi, hkept⟩ := epollCreate_live heap.alloc.2.alloc.2 api
  refine ⟨{ loop := .create size api, heap := heap', events := heap.next,
            fired := heap.alloc.2.next, apiEvents }, ?_, rfl, ?_, ?_, ?_⟩
  · show (epollCreate heap.alloc.2.alloc.2 api >>= _) = _
    rw [hapi, ok_bind]
    rfl
  · exact hkept _ (by simp)
  · exact hkept _ (by simp)
  · exact Nat.ne_of_lt (Nat.lt_succ_self _)

/-- **The destructor** releases the two arrays. -/
theorem destroy_live (hevents : a.events ∈ a.heap.live) (hfired : a.fired ∈ a.heap.live)
    (hne : a.events ≠ a.fired) :
    ∃ heap, a.destroy = .ok heap ∧ a.events ∉ heap.live ∧ a.fired ∉ heap.live := by
  have hfired' : a.fired ∈ (a.heap.without a.events).live :=
    Blocks.mem_without.mpr ⟨hne.symm, hfired⟩
  refine ⟨(a.heap.without a.events).without a.fired, ?_, ?_, ?_⟩
  · rw [destroy, Blocks.release_of_mem hevents, ok_bind, Blocks.release_of_mem hfired']
  · simp
  · simp

/-- Where every call stays, the constructor's arrays are held to the end. -/
theorem owned_of_stays (hevents : a.events ∈ a.heap.live) (hfired : a.fired ∈ a.heap.live)
    (hne : a.events ≠ a.fired) {ops : List (TableOp π δ)}
    (h : StepsMeet call (fun b op => op.Stays b.loop) a ops) : Owned a ops := by
  have hreach : ∀ pre post b, ops = pre ++ post → pre.foldlM call a = .ok b → Unmoved a b := by
    rintro pre post b rfl hrun
    refine h.invariant ?_ (Unmoved.refl a) hrun
    intro b op c hstay hb hcall
    exact hb.trans (call_unmoved hstay hcall)
  refine ⟨h.imp fun b op hstay => call_ne hstay, ?_, ?_⟩
  · intro pre post b hops hrun
    obtain ⟨hheap, hev, hfi⟩ := hreach pre post b hops hrun
    rw [hheap, hev, hfi]
    exact ⟨hevents, hfired⟩
  · intro b hrun
    obtain ⟨hheap, hev, hfi⟩ := hreach ops [] b (List.append_nil ops).symm hrun
    obtain ⟨heap, hdestroy, hgone⟩ := destroy_live (a := b) (by rwa [hheap, hev])
      (by rwa [hheap, hfi]) (by rwa [hev, hfi])
    refine ⟨heap, hdestroy, ?_⟩
    intro pre post c hops hpre
    have hc := hreach pre post c hops hpre
    rw [hc.events, hc.fired, ← hev, ← hfi]
    exact hgone

/-- **Array ownership.** In every run from the constructor to the destructor the arrays are owned
exactly when no resize of the run gets to work. -/
theorem array_ownership_iff (heap : Blocks) (size : ℕ) (api : Option AeEpollState)
    (ops : List (TableOp π δ)) :
    ∃ a : AeArrays π δ, create heap size api = .ok a ∧
      (Owned a ops ↔ StepsMeet call (fun b op => op.Stays b.loop) a ops) := by
  obtain ⟨a, hcreate, -, hevents, hfired, hne⟩ := create_live heap size api
  refine ⟨a, hcreate, ?_, owned_of_stays hevents hfired hne⟩
  intro hown
  refine hown.once.imp fun b op honce => ?_
  by_contra hmoves
  exact honce (call_moves hmoves)

/-- A loop for 16 descriptors that is resized to 32. -/
theorem grown_loop_releases_twice :
    ∃ a : AeArrays Unit Unit, create .empty 16 (some (AeEpollState.create 16 [])) = .ok a ∧
      a.call (.resize 32) = .error .badPointer ∧ ¬Owned a [.resize 32] := by
  obtain ⟨a, hcreate, -⟩ := create_live (π := Unit) (δ := Unit) .empty 16
    (some (AeEpollState.create 16 []))
  have hcall : a.call (.resize 32) = .error .badPointer := by
    obtain rfl := Except.ok.inj hcreate
    exact call_moves (by simp [TableOp.Stays, AeEventLoop.create])
  refine ⟨a, hcreate, hcall, ?_⟩
  intro hown
  exact hown.once.1 hcall

end AeArrays

end AsprNet
