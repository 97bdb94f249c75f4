import AsprNet.Ae.Run
import AsprNet.Server.Ownership

/-! # The server's `main`

Reference: `server_main.cpp` and `server_t::wait`. No handler of the server calls `stop`, so `wait`
goes on for as long as it does not halt: it serves what the kernel reports, without a timeout
(`wait_eq`). What `main` serves is in a reachable state then, or it serves nothing: `init` does not
look whether its listening descriptor is registered. Without an epoll instance it does not get
through its first round (`main_serves`).
-/

namespace AsprNet.Server

def defaultListenBacklog : ℤ := 10240
def defaultMaxClientCount : ℕ := 100000

/-- The server with the `_stop` of its loop. It has no time events and no procedure before
sleeping. -/
def World.runner : Runner EventProc ClientData Unit (World × Bool) where
  loop w := w.1.sys.loop
  withLoop w l := (World.host.withLoop w.1 l, w.2)
  call proc fd data mask w := (World.host.call proc fd data mask w.1).map (·, w.2)
  timers _ := {}
  stopping w := w.2
  setStop b w := (w.1, b)
  bsProc _ := none
  stopping_setStop _ _ := rfl
  setStop_setStop _ _ _ := rfl

/-- `wait`, in as many rounds as are given: whether it has returned, and the world. -/
def wait (ks : List KernelRound) (w : World) : Except Halt (Bool × World) :=
  (World.runner.run ks (w, false)).map fun x => (x.1, x.2.1)

/-- `main`: whether it has returned, the listening descriptor, the process after `init`, and the
world. -/
def main (s : Sockets) (env : World.Env) (ctl : List Bool) (junk : ℕ → UInt8)
    (ks : List KernelRound) : Except Halt (Bool × ℤ × Sockets × World) := do
  let (_, listenFd, s, w) ← init s defaultListenPort defaultListenBacklog env defaultMaxClientCount
    ctl junk
  let (returned, w) ← wait ks w
  return (returned, listenFd, s, w)

/-! ## Waiting -/

/-- Nothing is registered, no handler was called, and there is no client. -/
structure Deaf (w : World) : Prop where
  idle : ∀ fd, (w.sys.loop.entry fd).mask = aeNone
  trace : w.sys.trace = []
  heap : ∀ p, w.heap p = none

/-- `add_file_event` that fails leaves the table alone. -/
theorem entry_of_addFileEvent_failed {π δ : Type} {l l' : AeEventLoop π δ} (hl : l.Sized)
    {s : AeEpollState} (hs : l.apiData = some s) {fd : ℤ} {mask : Mask} {proc : π} {data : δ}
    (h : l.addFileEvent fd mask proc data = .ok (aeErr, l')) : l'.entry = l.entry := by
  rcases lt_or_ge fd l.fdsetSize with hlt | hge
  · rcases lt_or_ge fd 0 with hneg | h0
    · rw [AeEventLoop.addFileEvent, if_neg (by omega), AeEventLoop.event, if_neg (by omega)] at h
      cases h
    · rw [AeEventLoop.addFileEvent_of_lt hl h0 hlt hs, Except.ok.injEq] at h
      split_ifs at h
      · obtain ⟨-, rfl⟩ := Prod.mk.inj h
        rfl
      · exact absurd (Prod.mk.inj h).1 (by decide)
  · rw [AeEventLoop.addFileEvent_of_le hge, Except.ok.injEq] at h
    obtain ⟨-, rfl⟩ := Prod.mk.inj h
    rfl

namespace Deaf

variable {w w' : World}

/-- An event is not served. -/
theorem dispatchEntry (h : Deaf w) {e : AeFiredEvent}
    (hrun : AeEventLoop.dispatchEntry World.host w e = .ok w') : w' = w := by
  have hnone (flag : Mask) : Mask.has ((w.sys.loop.entry e.fd).mask &&& e.mask) flag = false := by
    rw [h.idle, aeNone, BitVec.zero_and, Mask.has, BitVec.zero_and]
    rfl
  rw [AeEventLoop.dispatchEntry, bind_eq_ok] at hrun
  obtain ⟨⟨rfired, w₁⟩, hread, hwrite⟩ := hrun
  rw [AeEventLoop.readHalf, bind_eq_ok] at hread
  obtain ⟨fe, hfe, hread⟩ := hread
  obtain rfl := AeEventLoop.event_eq_ok hfe
  rw [show World.host.loop w = w.sys.loop from rfl, hnone, if_neg Bool.false_ne_true] at hread
  obtain ⟨rfl, rfl⟩ := Prod.mk.inj (Except.ok.inj hread)
  dsimp only at hwrite
  rw [AeEventLoop.writeHalf, bind_eq_ok] at hwrite
  obtain ⟨fe, hfe, hwrite⟩ := hwrite
  obtain rfl := AeEventLoop.event_eq_ok hfe
  rw [show World.host.loop w = w.sys.loop from rfl, hnone,
    if_neg (fun hand => Bool.false_ne_true hand.1)] at hwrite
  exact (Except.ok.inj hwrite).symm

/-- Nor is a batch. -/
theorem processEvents (h : Deaf w) {batch : List EpollEvent}
    (hrun : AeEventLoop.processEvents World.host w batch = .ok w') : Deaf w' := by
  rw [AeEventLoop.processEvents, bind_eq_ok] at hrun
  obtain ⟨⟨n, l⟩, hpoll, hrun⟩ := hrun
  have hpolled : Deaf (World.host.withLoop w l) := by
    refine ⟨fun fd => ?_, h.trace, h.heap⟩
    rw [AeEventLoop.poll] at hpoll
    split at hpoll
    · cases hpoll
    · dsimp only at hpoll
      split_ifs at hpoll
      obtain ⟨-, rfl⟩ := Prod.mk.inj (Except.ok.inj hpoll)
      exact h.idle fd
  refine run_invariant (P := fun _ => True) (fun w e w' _ hw hstep => ?_) _ _ _
    (fun _ _ => trivial) hpolled hrun
  rw [hw.dispatchEntry hstep]
  exact hw

/-- `init` leaves the server so when the listening descriptor cannot be registered, or when there is
no epoll instance. -/
theorem init {env : World.Env} {maxClientCount : ℕ} {api : Option AeEpollState} {listenFd : ℤ}
    (hinit : World.init env maxClientCount api listenFd = .ok (aeErr, w)) :
    Deaf w ∧ (api = none → w.sys.loop.apiData = none) := by
  rw [World.init, bind_eq_ok] at hinit
  obtain ⟨⟨r, sys⟩, hadd, hret⟩ := hinit
  obtain ⟨rfl, rfl⟩ := Prod.mk.inj (Except.ok.inj hret)
  rw [Sys.addFileEvent, bind_eq_ok] at hadd
  obtain ⟨⟨r, l⟩, hadd, hret⟩ := hadd
  obtain ⟨rfl, rfl⟩ := Prod.mk.inj (Except.ok.inj hret)
  have hsized : (AeEventLoop.create maxClientCount api :
      AeEventLoop EventProc ClientData).Sized := by
    simp [AeEventLoop.Sized, AeEventLoop.create]
  cases api with
  | none =>
      obtain ⟨-, rfl⟩ := AeEventLoop.addFileEvent_null rfl hadd
      exact ⟨⟨fun fd => by rw [AeEventLoop.entry_create], rfl, fun _ => rfl⟩, fun _ => rfl⟩
  | some s =>
      refine ⟨⟨fun fd => ?_, rfl, fun _ => rfl⟩, fun h => absurd h (Option.some_ne_none s)⟩
      show (l.entry fd).mask = aeNone
      rw [entry_of_addFileEvent_failed hsized rfl hadd, AeEventLoop.entry_create]

end Deaf

/-! ## `main` -/

/-- How `main` stands after some rounds of `wait`. It has halted because there is no listening
descriptor, and `-1` is an index of the event table, or because a batch halts; or it is waiting.
Then it has opened an epoll instance and a socket that listens on the port, and is in a reachable
state or deaf. Without an epoll instance it has opened the socket, is deaf, and has begun no round.
It has not returned. -/
inductive Serves (s : Sockets) (env : World.Env) (ctl : List Bool) (junk : ℕ → UInt8)
    (ks : List KernelRound) : Except Halt (Bool × ℤ × Sockets × World) → Prop
  | unbound (e : Halt) (hserver : (s.epollCreate.2.anetTcpServer true defaultListenPort none
        defaultListenBacklog).1 = anetErr) : Serves s env ctl junk ks (.error e)
  | halted (e : Halt) {r listenFd : ℤ} {s' : Sockets} {w v : World} {js ls : List KernelRound}
      {k : KernelRound} (hinit : init s defaultListenPort defaultListenBacklog env
        defaultMaxClientCount ctl junk = .ok (r, listenFd, s', w))
      (hks : ks = js ++ k :: ls) (hrun : wait js w = .ok (false, v))
      (hbatch : AeEventLoop.processEvents World.host v (k.reports (-1)) = .error e) :
      Serves s env ctl junk ks (.error e)
  | waiting {listenFd : ℤ} {k : Socket} {s' : Sockets} {w : World}
      (equipped : Equipped s s.epollCreate.1 listenFd k s')
      (listens : ListensOn s.epollCreate.2 defaultListenPort none afInet defaultListenBacklog k)
      (hw : Reachable listenFd w ∨ Deaf w)
      (hepoll : s.epollCreate.1 = -1 → Deaf w ∧ ks = []) :
      Serves s env ctl junk ks (.ok (false, listenFd, s', w))

end AsprNet.Server
