import AsprNet.Kernel

/-! # `anetRead` and `anetWrite`

The two looping wrappers of `anet.cpp` around `read(2)` and `write(2)`. What `anetRead` does is
decided by how many bytes arrive and how the reads end (`transfer`, `anetRead_transfer`). A stream
without errors may be cut into segments at will: `anetRead` still delivers exactly the next
`count` bytes (`anetRead_steady`). `anetWrite` sends what the writes take (`passed`,
`anetWrite_passed`), which is a prefix, and all of it on a willing socket, but its result `-1` does
not tell which prefix (`anetWrite_prefix`).
-/

namespace AsprNet

/-! ## The loops -/

/-- The loop of `anetRead`: `buf` is the destination, `totlen` the number of bytes stored. -/
def anetReadLoop : ℕ → Sock → Bytes → ℤ → ℕ → Except Halt (ℤ × Bytes × Sock)
  | 0, _, _, _, _ => .error .outOfFuel
  | fuel + 1, s, buf, count, totlen =>
    if (totlen : ℤ) = count then .ok (totlen, buf, s) else do
      let (nread, s) ← s.anetReadCall (sizeT (count - totlen))
      match nread with
      | none => .ok (-1, buf, s)
      | some bs =>
        if bs = [] then .ok (totlen, buf, s) else do
          let buf ← store buf totlen bs
          anetReadLoop fuel s buf count (totlen + bs.length)

/-- `anetRead(fd, buf, count)`: its result, the destination array and the stream afterwards. Every
round but the last takes a byte off the inbox, which bounds the number of rounds. -/
def anetRead (s : Sock) (buf : Bytes) (count : ℤ) : Except Halt (ℤ × Bytes × Sock) :=
  anetReadLoop (s.inbox.length + 1) s buf count 0

/-- The loop of `anetWrite`: `buf` is the array from the current position of `buf` on. -/
def anetWriteLoop : ℕ → Sock → Bytes → ℤ → ℕ → Except Halt (ℤ × Sock)
  | 0, _, _, _, _ => .error .outOfFuel
  | fuel + 1, s, buf, count, totlen =>
    if (totlen : ℤ) = count then .ok (totlen, s)
    else if buf.length < sizeT (count - totlen) then .error .outOfBounds
    else
      let (nwritten, s) := s.write (buf.take (sizeT (count - totlen)))
      match nwritten with
      | none => .ok (-1, s)
      | some n =>
        if n = 0 then .ok (totlen, s)
        else anetWriteLoop fuel s (buf.drop n) count (totlen + n)

/-- `anetWrite(fd, buf, count)`: its result and the stream afterwards. -/
def anetWrite (s : Sock) (buf : Bytes) (count : ℤ) : Except Halt (ℤ × Sock) :=
  anetWriteLoop (buf.length + 1) s buf count 0

/-! ## Reading -/

/-- How the reads of one `anetRead` end. -/
inductive ReadStop
  /-- Nothing is missing any more. -/
  | done
  | eof
  | err
  | blocked
deriving DecidableEq, Repr

/-- What `anetRead` returns after `n` bytes. -/
def ReadStop.result (n : ℕ) : ReadStop → Except Halt ℤ
  | .done => .ok n
  | .eof => .ok n
  | .err => .ok (-1)
  | .blocked => .error .blocked

/-- How many bytes the reads of one `anetRead` bring when it misses `n` bytes and `avail` bytes are
to come, and how they end. -/
def transfer : List ReadOutcome → ℕ → ℕ → ℕ × ReadStop
  | [], avail, n => (min n avail, if n ≤ avail then .done else .blocked)
  | o :: os, avail, n =>
    if n = 0 then (0, .done)
    else match o with
      | .eof => (0, .eof)
      | .err => (0, .err)
      | _ =>
        if avail = 0 then (0, .blocked)
        else
          let m := (o.incoming n avail).getD 0
          (m + (transfer os (avail - m) (n - m)).1, (transfer os (avail - m) (n - m)).2)

/-- Nothing to read, nothing read. -/
theorem transfer_zero (os : List ReadOutcome) (avail : ℕ) : transfer os avail 0 = (0, .done) := by
  cases os <;> simp [transfer]

/-- The end of the stream before the first byte. -/
theorem transfer_eof {os : List ReadOutcome} (ho : os.headD .full = .eof) (avail : ℕ) {n : ℕ}
    (hn : 0 < n) : transfer os avail n = (0, .eof) := by
  cases os with
  | nil => simp at ho
  | cons o os =>
      obtain rfl : o = .eof := ho
      simp [transfer, hn.ne']

/-- An error before the first byte. -/
theorem transfer_err {os : List ReadOutcome} (ho : os.headD .full = .err) (avail : ℕ) {n : ℕ}
    (hn : 0 < n) : transfer os avail n = (0, .err) := by
  cases os with
  | nil => simp at ho
  | cons o os =>
      obtain rfl : o = .err := ho
      simp [transfer, hn.ne']

/-- A read on an empty inbox. -/
theorem transfer_blocked {os : List ReadOutcome} (ho : (os.headD .full).IsData) {n : ℕ}
    (hn : 0 < n) : transfer os 0 n = (0, .blocked) := by
  cases os with
  | nil => simp [transfer, hn.ne']
  | cons o os =>
      cases o with
      | full => simp [transfer, hn.ne']
      | upTo k => simp [transfer, hn.ne']
      | eof => exact absurd rfl ho.1
      | err => exact absurd rfl ho.2

/-- One read for data, then the others. -/
theorem transfer_data (os : List ReadOutcome) (ho : (os.headD .full).IsData) {avail n m : ℕ}
    (hn : 0 < n) (havail : 0 < avail) (hm : (os.headD .full).incoming n avail = some m) :
    transfer os avail n =
      (m + (transfer os.tail (avail - m) (n - m)).1,
        (transfer os.tail (avail - m) (n - m)).2) := by
  cases os with
  | nil =>
      obtain rfl : min n avail = m := by simpa [ReadOutcome.incoming] using hm
      rcases Nat.le_total n avail with hle | hle
      · simp [transfer, hle]
      · simp only [transfer, List.tail_nil, min_eq_right hle, Nat.sub_self, Nat.min_zero]
        by_cases heq : n ≤ avail
        · simp [heq]
        · simp [heq, show ¬n - avail = 0 by omega]
  | cons o os =>
      have hm : o.incoming n avail = some m := hm
      cases o with
      | full => simp [transfer, hn.ne', havail.ne', hm]
      | upTo k => simp [transfer, hn.ne', havail.ne', hm]
      | eof => exact absurd rfl ho.1
      | err => exact absurd rfl ho.2

/-- No more arrives than was asked for. -/
theorem transfer_le (os : List ReadOutcome) (avail n : ℕ) : (transfer os avail n).1 ≤ n := by
  induction os generalizing avail n with
  | nil => exact min_le_left _ _
  | cons o os ih =>
      have hdata : ∀ m ≤ n, m + (transfer os (avail - m) (n - m)).1 ≤ n := by
        intro m hm
        have := ih (avail - m) (n - m)
        omega
      cases o with
      | eof =>
          simp only [transfer]
          split_ifs <;> exact Nat.zero_le _
      | err =>
          simp only [transfer]
          split_ifs <;> exact Nat.zero_le _
      | full =>
          simp only [transfer]
          split_ifs
          · exact Nat.zero_le _
          · exact Nat.zero_le _
          · exact hdata _ (by simp [ReadOutcome.incoming])
      | upTo k =>
          simp only [transfer]
          split_ifs
          · exact Nat.zero_le _
          · exact Nat.zero_le _
          · exact hdata _ (by simp only [ReadOutcome.incoming, Option.getD_some]; omega)

/-- Without end of stream and errors, everything arrives. -/
theorem transfer_steady {os : List ReadOutcome} (hos : ∀ o ∈ os, o.IsData) {avail n : ℕ}
    (h : n ≤ avail) : transfer os avail n = (n, .done) := by
  induction os generalizing avail n with
  | nil => simp [transfer, h]
  | cons o os ih =>
      have ho := hos o List.mem_cons_self
      rcases Nat.eq_zero_or_pos n with rfl | hn
      · exact transfer_zero _ _
      · obtain ⟨m, hm, hmn⟩ : ∃ m, o.incoming n avail = some m ∧ m ≤ n := by
          cases o with
          | full => exact ⟨_, rfl, by omega⟩
          | upTo k => exact ⟨_, rfl, by omega⟩
          | eof => exact absurd rfl ho.1
          | err => exact absurd rfl ho.2
        have hrest := @ih (fun o ho => hos o (List.mem_cons_of_mem _ ho)) (avail - m) (n - m)
          (by omega)
        rw [transfer_data (o :: os) ho hn (by omega) hm, List.tail_cons, hrest]
        simp only [Prod.mk.injEq, and_true]
        omega

/-- One round of the loop that brings data. -/
theorem anetReadLoop_data (fuel : ℕ) (s : Sock) (buf : Bytes) {count : ℤ} {totlen : ℕ}
    (hne : (totlen : ℤ) ≠ count) (ho : (s.anetReads.headD .full).IsData)
    (hn : 0 < sizeT (count - totlen)) (hin : s.inbox ≠ []) :
    ∃ m, 0 < m ∧ m ≤ sizeT (count - totlen) ∧ m ≤ s.inbox.length ∧
      (s.anetReads.headD .full).incoming (sizeT (count - totlen)) s.inbox.length = some m ∧
      anetReadLoop (fuel + 1) s buf count totlen =
        if buf.length < totlen + m then .error .outOfBounds
        else anetReadLoop fuel { s with inbox := s.inbox.drop m, anetReads := s.anetReads.tail }
          (splice buf totlen (s.inbox.take m)) count (totlen + m) := by
  obtain ⟨m, hm, hmn, hml, hinc, hcall⟩ :=
    Sock.deliver_data { s with anetReads := s.anetReads.tail } ho hn hin
  have hml : m ≤ s.inbox.length := hml
  have htake : (s.inbox.take m).length = m := by
    rw [List.length_take]
    omega
  have hdata : s.inbox.take m ≠ [] := by
    rw [← List.length_pos_iff, htake]
    exact hm
  refine ⟨m, hm, hmn, hml, hinc, ?_⟩
  rw [anetReadLoop, if_neg hne, Sock.anetReadCall, hcall, ok_bind]
  simp only [hdata, if_false]
  by_cases hover : buf.length < totlen + m
  · rw [store_of_lt (by omega), error_bind, if_pos hover]
  · rw [store_of_le (by omega), ok_bind, htake, if_neg hover]

/-- One round of the loop that brings nothing is the last one. -/
theorem anetReadLoop_none (fuel : ℕ) (s : Sock) (buf : Bytes) {count : ℤ} {totlen : ℕ}
    (hne : (totlen : ℤ) ≠ count) (hn : 0 < sizeT (count - totlen))
    (hnone : ¬((s.anetReads.headD .full).IsData ∧ s.inbox ≠ [])) :
    ∃ stop, transfer s.anetReads s.inbox.length (sizeT (count - totlen)) = (0, stop) ∧
      anetReadLoop (fuel + 1) s buf count totlen =
        (stop.result totlen).map fun r => (r, buf, { s with anetReads := s.anetReads.tail }) := by
  rw [anetReadLoop, if_neg hne, Sock.anetReadCall]
  rcases Decidable.em (s.anetReads.headD .full = .eof) with ho | heof
  · refine ⟨.eof, transfer_eof ho _ hn, ?_⟩
    rw [ho]
    simp [Sock.deliver, ReadStop.result, Except.map]
  rcases Decidable.em (s.anetReads.headD .full = .err) with ho | herr
  · refine ⟨.err, transfer_err ho _ hn, ?_⟩
    rw [ho]
    simp [Sock.deliver, ReadStop.result, Except.map]
  · have ho : (s.anetReads.headD .full).IsData := ⟨heof, herr⟩
    have hin : s.inbox = [] := by
      by_contra hin
      exact hnone ⟨ho, hin⟩
    refine ⟨.blocked, ?_, ?_⟩
    · rw [hin, List.length_nil, transfer_blocked ho hn]
    · rw [Sock.deliver_blocked (s := { s with anetReads := s.anetReads.tail }) ho hn hin]
      rfl

/-- From `totlen` on, the loop stores what arrives. It leaves the array exactly when more arrives
than the array has room for. -/
theorem anetReadLoop_transfer (fuel : ℕ) (s : Sock) (buf : Bytes) {count : ℤ} (totlen : ℕ)
    (hlow : -2 ^ 31 ≤ count) (hhigh : count < 2 ^ 31) (hbuf : buf.length < 2 ^ 31)
    (htot : totlen ≤ buf.length) (hle : 0 ≤ count → totlen ≤ count)
    (hfuel : s.inbox.length < fuel) {k : ℕ} {stop : ReadStop}
    (ht : transfer s.anetReads s.inbox.length (sizeT (count - totlen)) = (k, stop)) :
    ∃ rest, rest <:+ s.anetReads ∧ anetReadLoop fuel s buf count totlen =
      if buf.length < totlen + k then .error .outOfBounds
      else (stop.result (totlen + k)).map fun r =>
        (r, splice buf totlen (s.inbox.take k),
          { s with inbox := s.inbox.drop k, anetReads := rest }) := by
  induction fuel generalizing s buf totlen k stop with
  | zero => omega
  | succ fuel ih =>
      have hzero : (totlen : ℤ) = count ↔ sizeT (count - totlen) = 0 := by
        simp only [sizeT]
        omega
      by_cases heq : (totlen : ℤ) = count
      · rw [hzero.mp heq, transfer_zero] at ht
        obtain ⟨rfl, rfl⟩ := Prod.mk.inj ht
        refine ⟨s.anetReads, List.suffix_refl _, ?_⟩
        rw [anetReadLoop, if_pos heq, if_neg (by omega)]
        simp [ReadStop.result, Except.map, splice]
      have hn : 0 < sizeT (count - totlen) := Nat.pos_of_ne_zero fun h => heq (hzero.mpr h)
      have htail := List.tail_suffix s.anetReads
      by_cases hnone : ¬((s.anetReads.headD .full).IsData ∧ s.inbox ≠ [])
      · obtain ⟨stop', hlast, hround⟩ := anetReadLoop_none fuel s buf heq hn hnone
        obtain ⟨rfl, rfl⟩ := Prod.mk.inj (ht.symm.trans hlast)
        refine ⟨_, htail, ?_⟩
        rw [hround, if_neg (by omega)]
        simp [splice]
      · obtain ⟨ho, hin⟩ := not_not.mp hnone
        obtain ⟨m, hm, hmn, hml, hinc, hround⟩ := anetReadLoop_data fuel s buf heq ho hn hin
        rw [transfer_data _ ho hn (List.length_pos_iff.mpr hin) hinc] at ht
        obtain ⟨k', stop', ht'⟩ : ∃ k' stop', transfer s.anetReads.tail (s.inbox.length - m)
            (sizeT (count - totlen) - m) = (k', stop') := ⟨_, _, rfl⟩
        rw [ht'] at ht
        obtain ⟨rfl, rfl⟩ := Prod.mk.inj ht
        rw [hround]
        by_cases hover : buf.length < totlen + m
        · -- this piece does not fit
          exact ⟨_, htail, by rw [if_pos hover, if_pos (by omega)]⟩
        have htake : (s.inbox.take m).length = m := List.length_take_of_le hml
        have hsplice : (splice buf totlen (s.inbox.take m)).length = buf.length :=
          length_splice (by omega)
        have hmiss : sizeT (count - (totlen + m : ℕ)) = sizeT (count - totlen) - m := by
          simp only [sizeT] at hmn ⊢
          push_cast
          omega
        have hrest : transfer s.anetReads.tail (s.inbox.drop m).length
            (sizeT (count - (totlen + m : ℕ))) = (k', stop') := by
          rw [hmiss, List.length_drop, ht']
        obtain ⟨rest, hsuf, hloop⟩ := ih
          { s with inbox := s.inbox.drop m, anetReads := s.anetReads.tail }
          (splice buf totlen (s.inbox.take m)) (totlen + m) (by omega) (by omega)
          (by simp only [sizeT] at hmn; omega) (by simp only [List.length_drop]; omega) hrest
        refine ⟨rest, hsuf.trans htail, ?_⟩
        rw [if_neg hover, hloop, hsplice, Nat.add_assoc]
        by_cases hover' : buf.length < totlen + (m + k')
        · rw [if_pos hover', if_pos hover']
        have hjoin : splice (splice buf totlen (s.inbox.take m)) (totlen + m)
            ((s.inbox.drop m).take k') = splice buf totlen (s.inbox.take (m + k')) := by
          have hle := List.length_take_le k' (s.inbox.drop m)
          rw [List.take_add, ← splice_splice (by rw [htake]; omega), htake]
        rw [if_neg hover', if_neg hover', hjoin, List.drop_drop]

/-- **What `anetRead` does** on any stream, into any array and for any `int` count. -/
theorem anetRead_transfer (s : Sock) (buf : Bytes) {count : ℤ} (hlow : -2 ^ 31 ≤ count)
    (hhigh : count < 2 ^ 31) (hbuf : buf.length < 2 ^ 31) {k : ℕ} {stop : ReadStop}
    (ht : transfer s.anetReads s.inbox.length (sizeT count) = (k, stop)) :
    ∃ rest, rest <:+ s.anetReads ∧ anetRead s buf count =
      if buf.length < k then .error .outOfBounds
      else (stop.result k).map fun r =>
        (r, splice buf 0 (s.inbox.take k),
          { s with inbox := s.inbox.drop k, anetReads := rest }) := by
  have h := anetReadLoop_transfer (s.inbox.length + 1) s buf 0 hlow hhigh hbuf (Nat.zero_le _)
    (fun h => by simpa using h) (Nat.lt_succ_self _) (by simpa using ht)
  simp only [Nat.zero_add] at h
  exact h

/-- No `read(2)` inside `anetRead` reports end of stream or an error, however short it is. -/
def Sock.Steady (s : Sock) : Prop := ∀ o ∈ s.anetReads, o.IsData

/-- **`anetRead` on a steady stream** delivers exactly the next `count` bytes, however they are
cut into segments. -/
theorem anetRead_steady {s : Sock} (hs : s.Steady) (buf : Bytes) (count : ℕ)
    (hin : count ≤ s.inbox.length) (hbuf : count ≤ buf.length) (hlen : buf.length < 2 ^ 31) :
    ∃ rest, (∀ o ∈ rest, o.IsData) ∧ anetRead s buf count =
      .ok ((count : ℤ), splice buf 0 (s.inbox.take count),
        { s with inbox := s.inbox.drop count, anetReads := rest }) := by
  have ht : transfer s.anetReads s.inbox.length (sizeT count) = (count, .done) := by
    rw [sizeT_natCast (by omega)]
    exact transfer_steady hs hin
  obtain ⟨rest, hrest, h⟩ := anetRead_transfer s buf (by omega) (by omega) hlen ht
  refine ⟨rest, fun o ho => hs o (hrest.subset ho), ?_⟩
  rw [h, if_neg (by omega)]
  rfl

/-! ## Writing -/

/-- A `write(2)` with this outcome accepts at least one byte of a non-empty array. -/
def WriteOutcome.Accepts (o : WriteOutcome) : Prop := o ≠ .upTo 0 ∧ o ≠ .err

/-- Every coming `write(2)` accepts at least one byte. -/
def Sock.Willing (s : Sock) : Prop := ∀ o ∈ s.writes, o.Accepts

/-- One `write(2)`: `-1` and no byte, or the length of the prefix it accepts. -/
theorem write_cases (s : Sock) (bs : Bytes) :
    s.write bs = (none, { s with writes := s.writes.tail }) ∨
      ∃ n ≤ bs.length, s.write bs =
        (some n, { s with outbox := s.outbox ++ bs.take n, writes := s.writes.tail }) := by
  simp only [Sock.write]
  cases s.writes.headD .full with
  | full => exact Or.inr ⟨bs.length, le_rfl, by simp⟩
  | upTo k => exact Or.inr ⟨min k bs.length, by omega, by simp [List.take_eq_take_min]⟩
  | err => exact Or.inl rfl

/-- How the writes of one `anetWrite` end. -/
inductive WriteStop
  /-- Nothing is missing any more. -/
  | done
  /-- A write took nothing. -/
  | zero
  | err
deriving DecidableEq, Repr

/-- What `anetWrite` returns after `n` bytes. -/
def WriteStop.result (n : ℕ) : WriteStop → ℤ
  | .done => n
  | .zero => n
  | .err => -1

/-- How many bytes the writes of one `anetWrite` take when `n` are to be sent, how they end, and
what the writes behind them return. -/
def passed : List WriteOutcome → ℕ → ℕ × WriteStop × List WriteOutcome
  | ws, 0 => (0, .done, ws)
  | [], n + 1 => (n + 1, .done, [])
  | .full :: ws, n + 1 => (n + 1, .done, ws)
  | .upTo k :: ws, n + 1 =>
    if k = 0 then (0, .zero, ws)
    else
      let (m, stop, rest) := passed ws (n + 1 - k)
      (min k (n + 1) + m, stop, rest)
  | .err :: ws, _ + 1 => (0, .err, ws)

/-- The next write, and those behind it. -/
theorem passed_succ (ws : List WriteOutcome) (n : ℕ) :
    passed ws (n + 1) =
      match ws.headD .full with
      | .full => (n + 1, .done, ws.tail)
      | .upTo k =>
        if k = 0 then (0, .zero, ws.tail)
        else
          let (m, stop, rest) := passed ws.tail (n + 1 - k)
          (min k (n + 1) + m, stop, rest)
      | .err => (0, .err, ws.tail) := by
  cases ws with
  | nil => rfl
  | cons o ws => cases o <;> rfl

/-- What the writes take is a part, and all of it exactly when nothing is missing in the end. -/
theorem passed_le {ws rest : List WriteOutcome} {n a : ℕ} {stop : WriteStop}
    (h : passed ws n = (a, stop, rest)) :
    a ≤ n ∧ (stop = .done ↔ a = n) ∧ rest <:+ ws := by
  induction ws, n using passed.induct generalizing a with
  | case1 ws =>
      rw [passed] at h
      cases h
      exact ⟨le_rfl, by simp, List.suffix_refl _⟩
  | case2 n =>
      rw [passed] at h
      cases h
      exact ⟨le_rfl, by simp, List.suffix_refl _⟩
  | case3 n ws =>
      rw [passed] at h
      cases h
      exact ⟨le_rfl, by simp, List.suffix_cons _ _⟩
  | case4 n ws =>
      rw [passed, if_pos rfl] at h
      cases h
      exact ⟨Nat.zero_le _, by simp, List.suffix_cons _ _⟩
  | case5 k ws n hk m stop' rest' hpassed ih =>
      rw [passed, if_neg hk, hpassed] at h
      cases h
      obtain ⟨hle, hdone, hsuffix⟩ := ih hpassed
      exact ⟨by omega, hdone.trans (by omega), hsuffix.trans (List.suffix_cons _ _)⟩
  | case6 n ws =>
      rw [passed] at h
      cases h
      exact ⟨Nat.zero_le _, by simp, List.suffix_cons _ _⟩

/-- Writes that all accept something take all bytes. -/
theorem passed_accepts {ws : List WriteOutcome} (h : ∀ o ∈ ws, o.Accepts) (n : ℕ) :
    (passed ws n).2.1 = .done := by
  induction ws, n using passed.induct with
  | case1 ws => rw [passed]
  | case2 n => rw [passed]
  | case3 n ws => rw [passed]
  | case4 n ws => exact absurd rfl (h _ List.mem_cons_self).1
  | case5 k ws n hk m stop rest hpassed ih =>
      rw [passed, if_neg hk]
      exact ih fun o ho => h o (List.mem_cons_of_mem _ ho)
  | case6 n ws => exact absurd rfl (h _ List.mem_cons_self).2

/-- The loop of `anetWrite` sends what the writes take of the remaining `count - totlen` bytes. -/
theorem anetWriteLoop_passed (fuel : ℕ) (s : Sock) (buf : Bytes) (count totlen : ℕ)
    (hle : totlen ≤ count) (hbuf : count - totlen ≤ buf.length) (hcount : count < 2 ^ 31)
    (hfuel : count - totlen < fuel) {a : ℕ} {stop : WriteStop} {rest : List WriteOutcome}
    (h : passed s.writes (count - totlen) = (a, stop, rest)) :
    anetWriteLoop fuel s buf count totlen =
      .ok (stop.result (totlen + a),
        { s with outbox := s.outbox ++ buf.take a, writes := rest }) := by
  induction fuel generalizing s buf totlen a with
  | zero => omega
  | succ fuel ih =>
      rw [anetWriteLoop]
      by_cases heq : totlen = count
      · subst heq
        rw [Nat.sub_self, passed] at h
        cases h
        simp [WriteStop.result]
      obtain ⟨n, hn⟩ : ∃ n, count - totlen = n + 1 := ⟨count - totlen - 1, by omega⟩
      have hsize : sizeT ((count : ℤ) - totlen) = n + 1 := by
        rw [← Nat.cast_sub hle, hn]
        exact sizeT_natCast (by omega)
      have hlen : (buf.take (n + 1)).length = n + 1 := by
        rw [List.length_take]
        omega
      rw [hn, passed_succ] at h
      rw [if_neg (by exact_mod_cast heq), hsize, if_neg (by omega), Sock.write]
      cases ho : s.writes.headD .full with
      | err =>
          rw [ho] at h
          cases h
          simp [WriteStop.result]
      | full =>
          rw [ho] at h
          cases h
          dsimp only
          rw [hlen, if_neg (Nat.succ_ne_zero n)]
          have hend := ih { s with outbox := s.outbox ++ buf.take (n + 1), writes := s.writes.tail }
            (buf.drop (n + 1)) (totlen + (n + 1)) (by omega) (by omega) (by omega)
            (by rw [show count - (totlen + (n + 1)) = 0 by omega, passed])
          rw [hend]
          simp [WriteStop.result]
      | upTo k =>
          rw [ho] at h
          dsimp only at h ⊢
          by_cases hk : k = 0
          · rw [if_pos hk] at h
            cases h
            simp [hk, WriteStop.result]
          · -- the loop goes on behind the accepted bytes
            rw [if_neg hk] at h
            obtain ⟨⟨m, stop', rest'⟩, hpassed⟩ : ∃ t, passed s.writes.tail (n + 1 - k) = t :=
              ⟨_, rfl⟩
            rw [hpassed] at h
            cases h
            rw [hlen, if_neg (by omega)]
            have hend := ih
              { s with outbox := s.outbox ++ (buf.take (n + 1)).take k, writes := s.writes.tail }
              (buf.drop (min k (n + 1))) (totlen + min k (n + 1)) (by omega)
              (by rw [List.length_drop]; omega) (by omega)
              (by rw [show count - (totlen + min k (n + 1)) = n + 1 - k by omega]; exact hpassed)
            have hsent : (buf.take (n + 1)).take k ++ (buf.drop (min k (n + 1))).take m =
                buf.take (min k (n + 1) + m) := by
              rw [List.take_take, List.take_add]
            rw [hend, List.append_assoc, hsent, Nat.add_assoc]

/-- **What `anetWrite` does** is decided by what the writes take, and how they end. -/
theorem anetWrite_passed (s : Sock) {buf : Bytes} {count : ℕ} (hbuf : count ≤ buf.length)
    (hcount : count < 2 ^ 31) {a : ℕ} {stop : WriteStop} {rest : List WriteOutcome}
    (h : passed s.writes count = (a, stop, rest)) :
    anetWrite s buf count =
      .ok (stop.result a, { s with outbox := s.outbox ++ buf.take a, writes := rest }) := by
  have hloop := anetWriteLoop_passed (buf.length + 1) s buf count 0 (Nat.zero_le _) hbuf hcount
    (by omega) h
  rwa [Nat.zero_add] at hloop

/-- **`anetWrite` sends a prefix**, and exactly `count` bytes on a willing socket. Its result is the
length of that prefix, or `-1` after an error, when some of the prefix may have been sent all the
same. -/
theorem anetWrite_prefix (s : Sock) {buf : Bytes} {count : ℕ} (hbuf : count ≤ buf.length)
    (hcount : count < 2 ^ 31) :
    ∃ a rest r, a ≤ count ∧ rest <:+ s.writes ∧
      anetWrite s buf count =
        .ok (r, { s with outbox := s.outbox ++ buf.take a, writes := rest }) ∧
      (r = (a : ℤ) ∨ (r = -1 ∧ a < count)) ∧ (s.Willing → a = count ∧ r = count) := by
  obtain ⟨⟨a, stop, rest⟩, h⟩ : ∃ t, passed s.writes count = t := ⟨_, rfl⟩
  obtain ⟨hle, hdone, hsuffix⟩ := passed_le h
  refine ⟨a, rest, stop.result a, hle, hsuffix, anetWrite_passed s hbuf hcount h, ?_, fun hs => ?_⟩
  · cases stop with
    | done => exact Or.inl rfl
    | zero => exact Or.inl rfl
    | err => exact Or.inr ⟨rfl, lt_of_le_of_ne hle fun hall => nomatch hdone.mpr hall⟩
  · have hstop := passed_accepts hs count
    rw [h] at hstop
    obtain rfl : stop = .done := hstop
    exact ⟨hdone.mp rfl, congrArg _ (hdone.mp rfl)⟩

end AsprNet
