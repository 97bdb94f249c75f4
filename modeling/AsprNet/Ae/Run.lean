import AsprNet.Ae.Programs
import AsprNet.Ae.Timers

/-! # The loop's own loop

Reference: `ae.cpp`, `process_events` with its flags, `run`, `stop` and `set_bs_proc`. `run` clears
`_stop`, so a `stop` before it is lost (`run_stop`), and looks at it between rounds only, so a
`stop` in a handler does not cut the round short (`run_returns_iff`). A round is the procedure
before sleeping and `process_events` on all that the kernel reports (`round_eq`).
-/

namespace AsprNet

def aeAllEvents : Mask := aeFileEvents ||| aeTimeEvents

/-- What a round finds: the time, and what the kernel reports for each timeout. -/
structure KernelRound where
  now : ClockReading
  reports : ℤ → List EpollEvent

/-- A program around an event loop, with the fields that `run` uses beside the table. -/
structure Runner (π δ τ W : Type) extends AeEventLoop.Host π δ W where
  timers : W → AeTimers π τ δ
  /-- `_stop`. -/
  stopping : W → Bool
  setStop : Bool → W → W
  /-- `_bs_proc`. -/
  bsProc : W → Option (W → Except Halt W)
  stopping_setStop : ∀ b w, stopping (setStop b w) = b
  setStop_setStop : ∀ a b w, setStop b (setStop a w) = setStop b w

namespace Runner

variable {π δ τ W : Type} [DecidableEq π] (R : Runner π δ τ W)

/-- `process_events`: the number of events that were processed. -/
def processEvents (flags : Mask) (k : KernelRound) (w : W) : Except Halt (ℤ × W) :=
  if !flags.has aeTimeEvents && !flags.has aeFileEvents then .ok (0, w)
  else do
    let (processed, w) ←
      match (R.timers w).pollTimeout (R.loop w).maxFd flags k.now with
      | none => pure (0, w)
      | some timeout => do
        let (n, l) ← (R.loop w).poll (k.reports timeout)
        let w ← (l.fired.take n).foldlM (AeEventLoop.dispatchEntry R.toHost) (R.withLoop w l)
        pure ((n : ℤ), w)
    if flags.has aeTimeEvents then return (processed + (R.timers w).processTimeEvents.1, w)
    else return (processed, w)

def stop (w : W) : W := R.setStop true w

/-- `if (_bs_proc)`. -/
def beforeSleep (w : W) : Except Halt W :=
  match R.bsProc w with
  | none => .ok w
  | some bsProc => bsProc w

/-- The body of the loop of `run`. -/
def round (w : W) (k : KernelRound) : Except Halt W := do
  let w ← R.beforeSleep w
  let (_, w) ← R.processEvents aeAllEvents k w
  return w

/-- `run`, in as many rounds as are given: whether it has returned, and the state. -/
def run (ks : List KernelRound) (w : W) : Except Halt (Bool × W) :=
  runUntil R.stopping R.round ks (R.setStop false w)

/-- **`process_events`** without file and time events does nothing. -/
theorem processEvents_none {flags : Mask} (ht : flags.has aeTimeEvents = false)
    (hf : flags.has aeFileEvents = false) (k : KernelRound) (w : W) :
    R.processEvents flags k w = .ok (0, w) := by
  rw [processEvents, ht, hf]
  rfl

/-- The timeout of a round: the time to the nearest timer, or `-1`. -/
def timeout (now : ClockReading) (w : W) : ℤ := waitTimeout ((R.timers w).tvp aeAllEvents now)

/-- **A `stop` before `run`** is lost. -/
theorem run_stop (ks : List KernelRound) (w : W) : R.run ks (R.stop w) = R.run ks w := by
  rw [run, stop, R.setStop_setStop, run]

/-- **`run` returns** exactly behind the first round in which `stop` was called, whatever `_stop`
was before. -/
theorem run_returns_iff {ks : List KernelRound} {w w' : W} :
    R.run ks w = .ok (true, w') ↔
      ∃ js k ls v, ks = js ++ k :: ls ∧ js.foldlM R.round (R.setStop false w) = .ok v ∧
        Undone R.stopping R.round (R.setStop false w) (js ++ [k]) ∧ R.round v k = .ok w' ∧
        R.stopping w' = true := by
  have hlast (js : List KernelRound) (k : KernelRound) (w₀ : W) :
      (js ++ [k]).foldlM R.round w₀ = .ok w' ↔
        ∃ v, js.foldlM R.round w₀ = .ok v ∧ R.round v k = .ok w' := by
    rw [List.foldlM_append, bind_eq_ok]
    simp only [List.foldlM_cons, List.foldlM_nil, bind_pure]
  rw [run, runUntil_eq_true_iff]
  constructor
  · rintro ⟨js, ls, rfl, hrun, hundone, hstop⟩
    rcases List.eq_nil_or_concat js with rfl | ⟨js, k, rfl⟩
    · obtain rfl := Except.ok.inj hrun
      rw [R.stopping_setStop] at hstop
      cases hstop
    · rw [List.concat_eq_append] at hrun hundone ⊢
      obtain ⟨v, hv, hround⟩ := (hlast js k _).mp hrun
      exact ⟨js, k, ls, v, List.append_assoc js [k] ls, hv, hundone, hround, hstop⟩
  · rintro ⟨js, k, ls, v, rfl, hv, hundone, hround, hstop⟩
    exact ⟨js ++ [k], ls, (List.append_assoc js [k] ls).symm, (hlast js k _).mpr ⟨v, hv, hround⟩,
      hundone, hstop⟩

end Runner

/-- A map that respects loops and calls takes rounds of `process_events` to rounds. -/
theorem AeEventLoop.Host.Respects.processEvents {π δ W W' : Type} [DecidableEq π]
    {H : AeEventLoop.Host π δ W} {H' : AeEventLoop.Host π δ W'} {f : W → W'} (hf : H.Respects H' f)
    (hwith : ∀ w l, H'.withLoop (f w) l = f (H.withLoop w l)) (w : W) (batch : List EpollEvent) :
    AeEventLoop.processEvents H' (f w) batch = (AeEventLoop.processEvents H w batch).map f := by
  rw [AeEventLoop.processEvents, AeEventLoop.processEvents, hf.loop]
  cases (H.loop w).poll batch with
  | error e => rfl
  | ok x =>
      simp only [ok_bind, hwith]
      refine run_map (fun w e => ?_) _ _
      rw [AeEventLoop.dispatchEntry, AeEventLoop.dispatchEntry, hf.readHalf]
      cases AeEventLoop.readHalf H e w with
      | error h => rfl
      | ok rw => exact hf.writeHalf e rw.1 rw.2

end AsprNet
