import AsprNet.Ae.Table

/-! # Handlers that change the event table

A handler is any program that calls `add_file_event`, `del_file_event` and `get_file_event` on
descriptors of its choice and goes on with the answers. A traced run of `process_events` notes
every handler call, with its direction, and every change of the table; forgetting the notes gives
the run of `processEvents` (`processEvents_programHost`).
-/

namespace AsprNet

variable {π δ σ : Type}

/-! ## Programs -/

/-- What a handler does: it ends in a state of its own, or it calls the loop. -/
inductive Program (π δ σ : Type)
  | done (state : σ)
  | add (fd : ℕ) (mask : Mask) (proc : π) (data : δ) (next : ℤ → Program π δ σ)
  | del (fd : ℕ) (mask : Mask) (next : Program π δ σ)
  | get (fd : ℕ) (next : Mask → Program π δ σ)

/-- The handler procedures. -/
abbrev Procs (π δ σ : Type) : Type := π → ℤ → Option δ → Mask → σ → Program π δ σ

/-- What is noted of a run. -/
inductive Happening (π δ : Type)
  /-- An entry of `_fired` is taken up. -/
  | entered (e : AeFiredEvent)
  /-- A handler is called for the direction `flag`, while `entry` is the table entry of `fd`. -/
  | called (flag : Mask) (fd : ℤ) (proc : π) (data : Option δ) (entry : AeFileEvent π δ)
  | added (fd : ℤ) (mask : Mask) (proc : π) (data : δ) (result : ℤ)
  | deleted (fd : ℤ) (mask : Mask)
deriving DecidableEq

/-- A handler's run, with the changes of the table in their order. -/
def Program.run : Program π δ σ → AeEventLoop π δ →
    Except Halt (σ × AeEventLoop π δ × List (Happening π δ))
  | .done state, l => .ok (state, l, [])
  | .add fd mask proc data next, l => do
    let (r, l) ← l.addFileEvent fd mask proc data
    let (state, l, hs) ← (next r).run l
    return (state, l, .added fd mask proc data r :: hs)
  | .del fd mask next, l => do
    let l ← l.delFileEvent fd mask
    let (state, l, hs) ← next.run l
    return (state, l, .deleted fd mask :: hs)
  | .get fd next, l => do
    let m ← l.getFileEvent fd
    (next m).run l

/-- The program around the loop, its state beside the loop. -/
def programHost (procs : Procs π δ σ) : AeEventLoop.Host π δ (AeEventLoop π δ × σ) where
  loop := Prod.fst
  withLoop w l := (l, w.2)
  call p fd data mask w := do
    let (state, l, _) ← (procs p fd data mask w.2).run w.1
    return (l, state)

/-! ## Traced runs -/

structure Traced (π δ σ : Type) where
  loop : AeEventLoop π δ
  state : σ
  trace : List (Happening π δ)

namespace Traced

/-- The same program with notes; `flag` is the direction that a call is noted for. -/
def host (procs : Procs π δ σ) (flag : Mask) : AeEventLoop.Host π δ (Traced π δ σ) where
  loop := Traced.loop
  withLoop w l := { w with loop := l }
  call p fd data mask w := do
    let (state, l, hs) ← (procs p fd data mask w.state).run w.loop
    return { loop := l, state, trace := w.trace ++ .called flag fd p data (w.loop.entry fd) :: hs }

variable [DecidableEq π] (procs : Procs π δ σ)

/-- `dispatchEntry`, its two halves noted for their directions. -/
def dispatchEntry (w : Traced π δ σ) (e : AeFiredEvent) : Except Halt (Traced π δ σ) := do
  let (rfired, w) ← AeEventLoop.readHalf (host procs aeReadable) e
    { w with trace := w.trace ++ [.entered e] }
  AeEventLoop.writeHalf (host procs aeWritable) e rfired w

/-- `processEvents` with notes. -/
def processEvents (w : Traced π δ σ) (batch : List EpollEvent) : Except Halt (Traced π δ σ) := do
  let (n, l) ← w.loop.poll batch
  (l.fired.take n).foldlM (dispatchEntry procs) { w with loop := l }

/-- What is left without the notes. -/
def forget (w : Traced π δ σ) : AeEventLoop π δ × σ := (w.loop, w.state)

end Traced

/-! ### Forgetting the notes -/

namespace AeEventLoop

variable {W W' : Type} {H : Host π δ W} {H' : Host π δ W'} {f : W → W'}

/-- A map between the worlds of two hosts that respects their loops and their calls. -/
structure Host.Respects (H : Host π δ W) (H' : Host π δ W') (f : W → W') : Prop where
  loop : ∀ w, H'.loop (f w) = H.loop w
  call : ∀ p fd data mask w, H'.call p fd data mask (f w) = (H.call p fd data mask w).map f

/-- A call of a procedure. -/
theorem Host.Respects.invoke (hf : H.Respects H' f) (proc : Option π) (fd : ℤ) (data : Option δ)
    (mask : Mask) (w : W) :
    H'.invoke proc fd data mask (f w) = (H.invoke proc fd data mask w).map f := by
  cases proc with
  | none => rfl
  | some p => exact hf.call p fd data mask w

/-- The reading half of an entry. -/
theorem Host.Respects.readHalf (hf : H.Respects H' f) (e : AeFiredEvent) (w : W) :
    AeEventLoop.readHalf H' e (f w) = (AeEventLoop.readHalf H e w).map (Prod.map id f) := by
  unfold AeEventLoop.readHalf
  rw [hf.loop]
  cases (H.loop w).event e.fd with
  | error h => rfl
  | ok fe =>
      simp only [ok_bind, hf.invoke]
      split
      · cases H.invoke fe.rProc e.fd fe.clientData e.mask w <;> rfl
      · rfl

/-- The writing half of an entry. -/
theorem Host.Respects.writeHalf [DecidableEq π] (hf : H.Respects H' f) (e : AeFiredEvent)
    (rfired : Bool) (w : W) :
    AeEventLoop.writeHalf H' e rfired (f w) = (AeEventLoop.writeHalf H e rfired w).map f := by
  unfold AeEventLoop.writeHalf
  rw [hf.loop]
  cases (H.loop w).event e.fd with
  | error h => rfl
  | ok fe =>
      simp only [ok_bind, hf.invoke]
      split <;> rfl

end AeEventLoop

/-- Forgetting the trace respects the host that keeps one. -/
theorem respects_forget (procs : Procs π δ σ) (flag : Mask) :
    (Traced.host procs flag).Respects (programHost procs) Traced.forget := by
  refine ⟨fun w => rfl, fun p fd data mask w => ?_⟩
  show ((procs p fd data mask w.state).run w.loop >>= _) = _
  unfold Traced.host
  dsimp only
  cases (procs p fd data mask w.state).run w.loop <;> rfl

variable [DecidableEq π]

/-- An entry, with and without a trace. -/
theorem dispatchEntry_programHost (procs : Procs π δ σ) (w : Traced π δ σ) (e : AeFiredEvent) :
    AeEventLoop.dispatchEntry (programHost procs) w.forget e =
      (w.dispatchEntry procs e).map Traced.forget := by
  unfold AeEventLoop.dispatchEntry Traced.dispatchEntry
  have hread := (respects_forget procs aeReadable).readHalf e
    { w with trace := w.trace ++ [.entered e] }
  rw [show Traced.forget { w with trace := w.trace ++ [.entered e] } = w.forget from rfl] at hread
  rw [hread]
  cases AeEventLoop.readHalf (Traced.host procs aeReadable) e
    { w with trace := w.trace ++ [.entered e] } with
  | error h => rfl
  | ok rw => exact (respects_forget procs aeWritable).writeHalf e rw.1 rw.2

/-- **The run without the notes is the run of `process_events`.** -/
theorem processEvents_programHost (procs : Procs π δ σ) (w : Traced π δ σ)
    (batch : List EpollEvent) :
    AeEventLoop.processEvents (programHost procs) w.forget batch =
      (w.processEvents procs batch).map Traced.forget := by
  unfold AeEventLoop.processEvents Traced.processEvents
  rw [show (programHost procs).loop w.forget = w.loop from rfl]
  cases w.loop.poll batch with
  | error h => rfl
  | ok nl => exact run_map (dispatchEntry_programHost procs) _ { w with loop := nl.2 }

end AsprNet
