import AsprNet.Client.Wire
import AsprNet.Server.Replies

/-! # What reaches the socket of a queued output

`write_event_handler` forgets how far an `anetWrite` that ended in `-1` got, starts again from the
front of `_buff`, and sends and drops the list whatever became of `_w_buffer`. The output stays in
order when all that is accepted of it is accepted at one writable event, and, if a list is queued,
when nothing is refused (`sending_prefix`). The client's `flush_2_server` makes one attempt with
the same two steps.
-/

namespace AsprNet

namespace Server

namespace InStep

variable {sys : Sys} {p : ℕ} {c : ClientT} {s : Sock}

end InStep

end Server

/-! ## The client's single attempt -/

namespace Client

/-- The writes take nothing of buffers of `ns` bytes, and none of them fails. -/
def Silent : List ℕ → List WriteOutcome → Prop
  | [], _ => True
  | n :: ns, ws => (passed ws n).1 = 0 ∧ (passed ws n).2.1 ≠ .err ∧ Silent ns (passed ws n).2.2

/-- The writes take buffers of `ns` bytes in order: the first ones whole, of the next one a part and
of those behind it nothing. If one fails, it is in the first buffer of all (`first`). -/
def InOrder : Bool → List ℕ → List WriteOutcome → Prop
  | _, [], _ => True
  | first, n :: ns, ws =>
    ((passed ws n).2.1 = .err → first = true) ∧
      if (passed ws n).2.1 = .done then InOrder false ns (passed ws n).2.2
      else Silent ns (passed ws n).2.2

instance Silent.decidable : ∀ ns ws, Decidable (Silent ns ws)
  | [], _ => inferInstanceAs (Decidable True)
  | n :: ns, ws =>
    have := Silent.decidable ns (passed ws n).2.2
    inferInstanceAs (Decidable (_ ∧ _ ∧ _))

instance InOrder.decidable : ∀ first ns ws, Decidable (InOrder first ns ws)
  | _, [], _ => inferInstanceAs (Decidable True)
  | _, n :: ns, ws =>
    have := InOrder.decidable false ns (passed ws n).2.2
    inferInstanceAs (Decidable ((_ → _) ∧ ite _ _ _))

/-- Writes that all accept something take the buffers in order. -/
theorem inOrder_of_accepts (first : Bool) (ns : List ℕ) {ws : List WriteOutcome}
    (h : ∀ o ∈ ws, o.Accepts) : InOrder first ns ws := by
  induction ns generalizing first ws with
  | nil => trivial
  | cons n ns ih =>
      obtain ⟨⟨a, stop, rest⟩, hpassed⟩ : ∃ t, passed ws n = t := ⟨_, rfl⟩
      have hdone := passed_accepts h n
      rw [hpassed] at hdone
      obtain rfl : stop = .done := hdone
      have hsuffix := (passed_le hpassed).2.2
      rw [InOrder, hpassed]
      exact ⟨fun herr => WriteStop.noConfusion herr,
        ih false fun o ho => h o (hsuffix.subset ho)⟩

end Client

-- A list may be in order by coincidence. When a file without a byte is uploaded and `0` ends the
-- write behind nine bytes of the number of chunks, the seven bytes that are lost are like the eight
-- of the chunk behind them.
example :
    ((Client.flush2Server { writes := [.full, .upTo 9, .upTo 0] }
        { Client.ClientT.create (fun _ => 0) (fun _ => 0) with
          wBuffer := ⟨frame headSize (text "file_send client-a"), 0, 26⟩
          bufferList := [⟨frame headSize (leBytes 8 1), 0, 16⟩, ⟨frame headSize [], 0, 8⟩] }
      ).toOption.map fun r => (r.1, r.2.1.outbox)) =
    some (43, (queued ⟨frame headSize (text "file_send client-a"), 0, 26⟩
      [⟨frame headSize (leBytes 8 1), 0, 16⟩, ⟨frame headSize [], 0, 8⟩]).take 43) := by
  decide +kernel

end AsprNet
