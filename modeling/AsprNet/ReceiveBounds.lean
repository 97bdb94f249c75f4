import AsprNet.Client.Commands
import AsprNet.Server.Commands

/-! # Where received bytes are stored

None of the receive functions compares the length field of a package with the room it has. Each
stays inside its destination exactly when the bytes that come for the payload happen to fit
(`receive_paths_inRange_iff`): the length field, the segment and the end of the stream all count.
-/

namespace AsprNet

/-- The indices of a buffer are in order, and the NUL behind the data is inside the array. -/
structure BufferT.InRange (b : BufferT) : Prop where
  read : b.readIdx ≤ b.writeIdx
  write : b.writeIdx < b.size

/-- A receive function returns in a good state or waits for data. -/
def StaysInRange {α : Type} (good : α → Prop) : Except Halt α → Prop
  | .ok a => good a
  | .error e => e = .blocked

/-- A computation that can only wait does not decide whether its continuation stays in range. -/
theorem staysInRange_bind {α β : Type} {good : β → Prop} {x : Except Halt α}
    {f : α → Except Halt β} (hx : ∀ e, x = .error e → e = .blocked) :
    StaysInRange good (x >>= f) ↔ ∀ a, x = .ok a → StaysInRange good (f a) := by
  cases x with
  | error e => simpa [StaysInRange] using hx e rfl
  | ok a => simp

/-! ## The two ways to read a length field -/

/-- A direct read of a header fails only by blocking. -/
theorem readHead_error (s : Sock) : ∀ e, s.readHead = .error e → e = .blocked := by
  intro e he
  rw [Sock.readHead] at he
  rcases Sock.read_cases s.freshHead.2 headSize with ⟨h, -⟩ | ⟨s', h, -⟩ | ⟨bs, s', h, -⟩
  · simpa [h] using he.symm
  · exact absurd he (by simp [h, pure, Except.pure])
  · exact absurd he (by simp [h, pure, Except.pure])

/-- `anetRead` leaves its array exactly when more arrives than the array has room for. -/
theorem anetRead_staysInRange (s : Sock) (buf : Bytes) (count : ℤ) (hlow : -2 ^ 31 ≤ count)
    (hhigh : count < 2 ^ 31) (hbuf : buf.length < 2 ^ 31) :
    StaysInRange (fun _ => True) (anetRead s buf count) ↔
      (transfer s.anetReads s.inbox.length (sizeT count)).1 ≤ buf.length := by
  obtain ⟨⟨k, stop⟩, ht⟩ : ∃ t, transfer s.anetReads s.inbox.length (sizeT count) = t := ⟨_, rfl⟩
  obtain ⟨rest, -, hread⟩ := anetRead_transfer s buf hlow hhigh hbuf ht
  rw [hread, ht]
  by_cases hover : buf.length < k
  · rw [if_pos hover]
    simp [StaysInRange, hover]
  · rw [if_neg hover]
    cases stop <;> simp [StaysInRange, ReadStop.result, Except.map, Nat.le_of_not_lt hover]

/-- So does `anetRead` of a header. -/
theorem anetReadHead_error (s : Sock) : ∀ e, s.anetReadHead = .error e → e = .blocked := by
  intro e he
  have hlen : s.freshHead.1.length = headSize := length_leBytes _ _
  have hfits := (anetRead_staysInRange s.freshHead.2 s.freshHead.1 headSize
    (by decide) (by decide) (by rw [hlen]; decide)).mpr (by
      rw [hlen]
      exact transfer_le _ _ _)
  rw [Sock.anetReadHead] at he
  cases h : anetRead s.freshHead.2 s.freshHead.1 headSize with
  | error e' =>
      rw [h] at hfits
      simp only [h, error_bind, Except.error.injEq] at he
      exact he ▸ hfits
  | ok r => exact absurd he (by simp [h, pure, Except.pure])

/-! ## The functions -/

/-- The payload read of `read_event_handler`. -/
theorem receivePayload_staysInRange (s : Sock) (c : Server.ClientT) (n : ℕ)
    (hsize : 0 < c.rBuffer.size) :
    StaysInRange (fun r => ∀ c', r.2 = some c' → c'.rBuffer.InRange)
        (Server.receivePayload s c n) ↔
      ∀ k, s.coming n = some k → k < c.rBuffer.size := by
  rw [Server.receivePayload]
  rcases Sock.read_cases s n with ⟨hread, hk⟩ | ⟨s', hread, hk⟩ | ⟨bs, s', hread, hk⟩
  · simp [hread, hk, StaysInRange, hsize]
  · -- `-1`: the buffer is left as `reset` made it
    rw [hread, ok_bind]
    simp only [hk, reduceCtorEq, false_implies, implies_true, iff_true]
    rintro c' hc'
    obtain rfl := Option.some.inj hc'
    exact ⟨le_rfl, hsize⟩
  · rw [hread, ok_bind, hk]
    simp only [Option.some.injEq, forall_eq']
    cases bs with
    | nil =>
        simp only [List.length_nil, hsize, iff_true]
        rintro c' hc'
        exact absurd hc' (by simp)
    | cons b bs =>
        simp only [BufferT.reset, Nat.zero_add]
        rw [store_nul, BufferT.length_buff]
        by_cases hlt : (b :: bs).length < c.rBuffer.size
        · rw [if_pos hlt]
          refine iff_of_true ?_ hlt
          rintro c' hc'
          obtain rfl := Option.some.inj hc'
          exact ⟨Nat.zero_le _, by rwa [BufferT.size_mk, length_splice_nul hlt]⟩
        · rw [if_neg hlt]
          exact iff_of_false (by simp [StaysInRange]) hlt

/-- **`read_event_handler`** stays in range exactly when its payload read, if it makes one, brings
fewer bytes than the buffer holds. -/
theorem receive_staysInRange (s : Sock) (c : Server.ClientT) (hsize : 0 < c.rBuffer.size) :
    StaysInRange (fun r => ∀ c', r.2 = some c' → c'.rBuffer.InRange) (Server.receive s c) ↔
      ∀ got len s', s.readHead = .ok (got, len, s') → got ≠ some [] →
        ∀ k, s'.coming len = some k → k < c.rBuffer.size := by
  rw [Server.receive, staysInRange_bind (readHead_error s)]
  constructor
  · intro h got len s' hhead hgot
    have := h _ hhead
    simp only [if_neg hgot] at this
    exact (receivePayload_staysInRange s' c len hsize).mp this
  · rintro h ⟨got, len, s'⟩ hhead
    by_cases hgot : got = some []
    · simp only [if_pos hgot]
      rintro c' hc'
      exact absurd hc' (by simp)
    · simp only [if_neg hgot]
      exact (receivePayload_staysInRange s' c len hsize).mpr (h got len s' hhead hgot)

/-- **`server_t::client_t::recv`** stays in range exactly when its payload read does not fail and
brings fewer bytes than the buffer holds. -/
theorem recv_staysInRange (s : Sock) (c : Server.ClientT) (hsize : c.rBuffer.size < 2 ^ 64)
    (hpos : 0 < c.rBuffer.size) :
    StaysInRange (fun r => r.2.2.rBuffer.InRange) (Server.recv s c) ↔
      ∀ got len s', s.readHead = .ok (got, len, s') →
        ∃ k, s'.coming len = some k ∧ k < c.rBuffer.size := by
  have hpayload : ∀ (s : Sock) n, StaysInRange (fun r => r.2.2.rBuffer.InRange)
      (Server.recvPayload s c n) ↔ ∃ k, s.coming n = some k ∧ k < c.rBuffer.size := by
    intro s n
    rw [Server.recvPayload]
    rcases Sock.read_cases s n with ⟨hread, hk⟩ | ⟨s', hread, hk⟩ | ⟨bs, s', hread, hk⟩
    · simp [hread, hk, StaysInRange, hpos]
    · -- `-1` is stored in `_write_idx`, and the NUL goes there
      have hnul : (splice c.rBuffer.buff 0 []).length <
          sizeT (readResult none) + [(0 : UInt8)].length := by
        have hlen : (splice c.rBuffer.buff 0 []).length = c.rBuffer.size := by
          simp [splice, BufferT.length_buff]
        have hres : sizeT (readResult none) = 2 ^ 64 - 1 := by decide
        rw [hlen, hres, List.length_singleton]
        omega
      rw [hread, ok_bind, hk]
      simp only [BufferT.reset, Option.getD_none]
      rw [store_of_le (by simp), ok_bind, store_of_lt hnul, error_bind]
      simp [StaysInRange]
    · rw [hread, ok_bind, hk]
      simp only [BufferT.reset, Option.getD_some, Option.some.injEq, exists_eq_left']
      rcases Nat.lt_or_ge c.rBuffer.size bs.length with hover | hle
      · rw [store_of_lt (by rw [BufferT.length_buff]; omega), error_bind]
        exact iff_of_false (by simp [StaysInRange]) (by omega)
      · have hres : sizeT (readResult (some bs)) = bs.length := sizeT_natCast (by omega)
        rw [hres, store_nul, BufferT.length_buff]
        by_cases hlt : bs.length < c.rBuffer.size
        · rw [if_pos hlt]
          refine iff_of_true ⟨Nat.zero_le _, ?_⟩ hlt
          show bs.length < (splice c.rBuffer.buff 0 (bs ++ [0])).length
          rwa [length_splice_nul hlt]
        · rw [if_neg hlt]
          exact iff_of_false (by simp [StaysInRange]) hlt
  rw [Server.recv, staysInRange_bind (readHead_error s)]
  simp only [hpayload, Prod.forall]

/-- **`recv_integer`**, on both sides, stays in range exactly when at most eight bytes arrive for
the number. -/
theorem recvInteger_staysInRange (s : Sock) :
    StaysInRange (fun _ => True) (recvInteger s) ↔
      ∀ len s', s.anetReadHead = .ok (len, s') →
        (transfer s'.anetReads s'.inbox.length (sizeT (int32 len))).1 ≤ 8 := by
  rw [recvInteger, staysInRange_bind (anetReadHead_error s)]
  simp only [Prod.forall]
  refine forall_congr' fun len => forall_congr' fun s' => imp_congr_right fun _ => ?_
  have hread := anetRead_staysInRange s' (leBytes 8 0) _ (int32_range len).1
    (int32_range len).2 (by decide)
  rw [length_leBytes] at hread
  rw [← hread]
  cases anetRead s' (leBytes 8 0) (int32 len) with
  | error e => rfl
  | ok r => exact iff_of_true trivial trivial

/-- **`client_t::recv`** stays in range exactly when fewer bytes than the buffer holds arrive and
no read fails. While it waits it may have filled the buffer. -/
theorem clientRecv_staysInRange (s : Sock) (c : Client.ClientT) (hsize : c.rBuffer.size < 2 ^ 31) :
    StaysInRange (fun r => r.2.2.rBuffer.InRange) (Client.recv s c) ↔
      ∀ len s' k stop, s.anetReadHead = .ok (len, s') →
        transfer s'.anetReads s'.inbox.length (sizeT (int32 len)) = (k, stop) →
          (stop = .blocked ∧ k ≤ c.rBuffer.size) ∨
            (stop ≠ .blocked ∧ stop ≠ .err ∧ k < c.rBuffer.size) := by
  rw [Client.recv, staysInRange_bind (anetReadHead_error s)]
  simp only [Prod.forall]
  refine forall_congr' fun len => forall_congr' fun s' => ?_
  obtain ⟨⟨k, stop⟩, ht⟩ : ∃ t, transfer s'.anetReads s'.inbox.length (sizeT (int32 len)) = t :=
    ⟨_, rfl⟩
  obtain ⟨rest, -, hread⟩ := anetRead_transfer s' c.rBuffer.buff (int32_range len).1
    (int32_range len).2 hsize ht
  have hiff : (∀ k' stop', s.anetReadHead = .ok (len, s') → (k, stop) = (k', stop') →
        (stop' = .blocked ∧ k' ≤ c.rBuffer.size) ∨
          (stop' ≠ .blocked ∧ stop' ≠ .err ∧ k' < c.rBuffer.size)) ↔
      (s.anetReadHead = .ok (len, s') →
        (stop = .blocked ∧ k ≤ c.rBuffer.size) ∨
          (stop ≠ .blocked ∧ stop ≠ .err ∧ k < c.rBuffer.size)) := by
    refine ⟨fun h hhead => h k stop hhead rfl, fun h k' stop' hhead heq => ?_⟩
    obtain ⟨rfl, rfl⟩ := Prod.mk.inj heq
    exact h hhead
  rw [ht]
  refine Iff.trans (imp_congr_right fun _ => ?_) hiff.symm
  rw [hread, BufferT.length_buff]
  by_cases hover : c.rBuffer.size < k
  · rw [if_pos hover, error_bind]
    exact iff_of_false (by simp [StaysInRange]) (by omega)
  · have hlen : (splice c.rBuffer.buff 0 (s'.inbox.take k)).length = c.rBuffer.size := by
      have := List.length_take_le k s'.inbox
      rw [length_splice (by rw [BufferT.length_buff]; omega), BufferT.length_buff]
    have hk : sizeT (k : ℤ) = k := sizeT_natCast (by omega)
    have hgood : (BufferT.mk (splice c.rBuffer.buff 0 (s'.inbox.take k)) 0
        (sizeT (k : ℤ))).InRange ↔ k < c.rBuffer.size := by
      rw [hk]
      exact ⟨fun h => hlen ▸ h.write, fun h => ⟨Nat.zero_le _, by rwa [BufferT.size_mk, hlen]⟩⟩
    have herr : sizeT (-1) = 2 ^ 64 - 1 := by decide
    rw [if_neg hover]
    cases stop with
    | blocked => simpa [StaysInRange, ReadStop.result, Except.map] using by omega
    | err =>
        simp only [ReadStop.result, Except.map, ok_bind, herr]
        refine iff_of_false (fun h => ?_) (by simp)
        have : 2 ^ 64 - 1 < (splice c.rBuffer.buff 0 (s'.inbox.take k)).length := h.write
        omega
    | done => simpa [StaysInRange, ReadStop.result, Except.map] using hgood
    | eof => simpa [StaysInRange, ReadStop.result, Except.map] using hgood

/-! ## All of them -/

/-- **The receive paths stay in range exactly when what arrives fits.** For a package that is read
with `read(2)` that is what the payload read brings, for one that is read with `anetRead` what
arrives before the reads stop. -/
theorem receive_paths_inRange_iff (s : Sock) (c : Server.ClientT) (d : Client.ClientT)
    (hc : c.rBuffer.size = defaultBuffSize) (hd : d.rBuffer.size = defaultBuffSize) :
    (StaysInRange (fun r => ∀ c', r.2 = some c' → c'.rBuffer.InRange) (Server.receive s c) ↔
      ∀ got len s', s.readHead = .ok (got, len, s') → got ≠ some [] →
        ∀ k, s'.coming len = some k → k < defaultBuffSize) ∧
    (StaysInRange (fun r => r.2.2.rBuffer.InRange) (Server.recv s c) ↔
      ∀ got len s', s.readHead = .ok (got, len, s') →
        ∃ k, s'.coming len = some k ∧ k < defaultBuffSize) ∧
    (StaysInRange (fun _ => True) (Server.recvInteger s) ↔
      ∀ len s', s.anetReadHead = .ok (len, s') →
        (transfer s'.anetReads s'.inbox.length (sizeT (int32 len))).1 ≤ 8) ∧
    (StaysInRange (fun _ => True) (Client.recvInteger s) ↔
      ∀ len s', s.anetReadHead = .ok (len, s') →
        (transfer s'.anetReads s'.inbox.length (sizeT (int32 len))).1 ≤ 8) ∧
    (StaysInRange (fun r => r.2.2.rBuffer.InRange) (Client.recv s d) ↔
      ∀ len s' k stop, s.anetReadHead = .ok (len, s') →
        transfer s'.anetReads s'.inbox.length (sizeT (int32 len)) = (k, stop) →
          (stop = .blocked ∧ k ≤ defaultBuffSize) ∨
            (stop ≠ .blocked ∧ stop ≠ .err ∧ k < defaultBuffSize)) := by
  have hpos : 0 < defaultBuffSize := by decide
  have hsmall : defaultBuffSize < 2 ^ 31 := by decide
  refine ⟨?_, ?_, recvInteger_staysInRange s, recvInteger_staysInRange s, ?_⟩
  · rw [← hc]
    exact receive_staysInRange s c (by omega)
  · rw [← hc]
    exact recv_staysInRange s c (by omega) (by omega)
  · rw [← hd]
    exact clientRecv_staysInRange s d (by omega)

/-- Fresh clients, and a package of five bytes that arrives in pieces, which every function has room
for. -/
theorem receive_paths_inRange_hello :
    let s : Sock :=
      { inbox := frame headSize (text "hello"), reads := [.full, .upTo 2],
        anetReads := [.upTo 3, .full, .upTo 4] }
    let c := Server.ClientT.create (fun _ => 0) fun _ => 0
    let d := Client.ClientT.create (fun _ => 0) fun _ => 0
    StaysInRange (fun r => ∀ c', r.2 = some c' → c'.rBuffer.InRange) (Server.receive s c) ∧
      StaysInRange (fun r => r.2.2.rBuffer.InRange) (Server.recv s c) ∧
      StaysInRange (fun _ => True) (Server.recvInteger s) ∧
      StaysInRange (fun _ => True) (Client.recvInteger s) ∧
      StaysInRange (fun r => r.2.2.rBuffer.InRange) (Client.recv s d) := by
  intro s c d
  have hc : c.rBuffer.size = defaultBuffSize :=
    Server.size_rBuffer_create (fun _ => 0) fun _ => 0
  have hd : d.rBuffer.size = defaultBuffSize :=
    Client.size_rBuffer_create (fun _ => 0) fun _ => 0
  obtain ⟨hreceive, hrecv, hserver, hclient, hrecv'⟩ := receive_paths_inRange_iff s c d hc hd
  have hhead : ∀ got len s', s.readHead = .ok (got, len, s') → s'.coming len = some 2 := by
    have hread : s.readHead.map (fun r => r.2.2.coming r.2.1) = .ok (some 2) := by decide +kernel
    intro got len s' h
    rw [h] at hread
    exact Except.ok.inj hread
  have hanet : ∀ len s', s.anetReadHead = .ok (len, s') →
      len = 5 ∧ s'.inbox = text "hello" ∧ s'.anetReads = [.upTo 4] := by
    have hread : s.anetReadHead.map (fun r => (r.1, r.2.inbox, r.2.anetReads)) =
        .ok (5, text "hello", [.upTo 4]) := by decide +kernel
    intro len s' h
    rw [h] at hread
    simpa using Except.ok.inj hread
  clear_value s c d
  refine ⟨hreceive.mpr ?_, hrecv.mpr ?_, hserver.mpr ?_, hclient.mpr ?_, hrecv'.mpr ?_⟩
  · intro got len s' h _ k hk
    obtain rfl := Option.some.inj ((hhead got len s' h).symm.trans hk)
    decide
  · intro got len s' h
    exact ⟨2, hhead got len s' h, by decide⟩
  · intro len s' h
    obtain ⟨rfl, hin, hreads⟩ := hanet len s' h
    rw [hin, hreads]
    decide
  · intro len s' h
    obtain ⟨rfl, hin, hreads⟩ := hanet len s' h
    rw [hin, hreads]
    decide
  · intro len s' k stop h ht
    obtain ⟨rfl, hin, hreads⟩ := hanet len s' h
    rw [hin, hreads, show transfer [.upTo 4] (text "hello").length (sizeT (int32 (5 : ℕ))) =
      (5, .done) by decide] at ht
    obtain ⟨rfl, rfl⟩ := Prod.mk.inj ht
    exact Or.inr ⟨by decide, by decide, by decide⟩

/-- A package that is not shorter than the buffer is stored over its end. -/
theorem receive_overflows {s : Sock} {c : Server.ClientT} {p rest : Bytes} (hs : s.reads = [])
    (hin : s.inbox = frame headSize p ++ rest) (hp : p.length < 2 ^ 64)
    (hlong : c.rBuffer.size ≤ p.length) (hsize : 0 < c.rBuffer.size) :
    ¬StaysInRange (fun r => ∀ c', r.2 = some c' → c'.rBuffer.InRange) (Server.receive s c) := by
  intro h
  have hhead := readHead_frame (by rw [hs]; rfl) hin hp
  have hlt := (receive_staysInRange s c hsize).mp h _ _ _ hhead (by simp [leBytes, headSize])
    p.length (by
      simp [Sock.coming, hs, ReadOutcome.incoming])
  omega

/-- A length field of 2000, with as many bytes behind it. -/
theorem receive_overflows_2000 :
    ¬StaysInRange (fun r => ∀ c', r.2 = some c' → c'.rBuffer.InRange)
      (Server.receive { inbox := frame headSize (List.replicate 2000 65) ++ [] }
        (Server.ClientT.create (fun _ => 0) (fun _ => 0))) :=
  receive_overflows rfl rfl (by rw [List.length_replicate]; decide)
    (by rw [Server.size_rBuffer_create, List.length_replicate]; decide)
    (by rw [Server.size_rBuffer_create]; decide)

end AsprNet
