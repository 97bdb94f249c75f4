import AsprNet.Client.CommandLine
import Mathlib.Data.List.TakeWhile

/-! # The lines the client reads

Reference: `client_main.cpp`. `main` reads its input with `fgetline` into an array and gives each
string to `process`. `fgetline` takes a character off the stream before it looks whether there is
room for it. The character is lost when there is none, so the strings are the input without its
newlines exactly when every line fits (`reading_lines_iff`).
-/

namespace AsprNet

def newline : UInt8 := 10

namespace Client

/-- The loop of `fgetline`, where `n` is `_n` after `--_n`: `_len`, the last `_c` (`none` is `EOF`),
the array and the rest of the stream. -/
def fgetlineLoop (n : ℤ) : Bytes → ℕ → Bytes → Except Halt (ℕ × Option UInt8 × Bytes × Bytes)
  | line, len, [] => .ok (len, none, line, [])
  | line, len, c :: stream =>
    -- `c` is off the stream already
    if len < n then
      if c = newline then .ok (len, some c, line, stream)
      else do
        let line ← store line len [c]
        fgetlineLoop n line (len + 1) stream
    else .ok (len, some c, line, stream)

/-- `fgetline`: what it returns, the array and the rest of the stream. -/
def fgetline (line : Bytes) (n : ℤ) (stream : Bytes) : Except Halt (ℤ × Bytes × Bytes) := do
  let (len, c, line, stream) ← fgetlineLoop (n - 1) line 0 stream
  if len = 0 ∧ c = none then return (-1, line, stream)
  else
    let line ← store line len [0]
    return (len, line, stream)

/-- Calls of `fgetline` until one returns `-1`: what each call before returned, and the array it
left. -/
def fgetlines (n : ℤ) : ℕ → Bytes → Bytes → Except Halt (List (ℤ × Bytes))
  | 0, _, _ => .error .outOfFuel
  | fuel + 1, line, stream => do
    let (r, line, stream) ← fgetline line n stream
    if r = -1 then return []
    else
      let calls ← fgetlines n fuel line stream
      return (r, line) :: calls

/-- The string a call left: as many bytes as it returned. -/
def lineRead (call : ℤ × Bytes) : Bytes := call.2.take call.1.toNat

/-- The string and its terminator are inside an array of `n` bytes. -/
structure InLine (n : ℤ) (call : ℤ × Bytes) : Prop where
  low : 0 ≤ call.1
  short : call.1 ≤ n - 1
  size : (call.2.length : ℤ) = n
  nul : call.2[call.1.toNat]? = some 0

/-! ## One call -/

/-- What one call reads into an array with room for `k` bytes and a NUL. -/
def taken (k : ℕ) (stream : Bytes) : Bytes := (stream.takeWhile (· ≠ newline)).take k

/-- A call takes `k` bytes at most. -/
theorem length_taken_le (k : ℕ) (stream : Bytes) : (taken k stream).length ≤ k :=
  List.length_take_le _ _

/-- **The loop** stores what fits of the line ahead, and takes one character more. -/
theorem fgetlineLoop_eq {k len : ℕ} {line : Bytes} (hlen : len ≤ k) (hline : k < line.length)
    (stream : Bytes) :
    fgetlineLoop k line len stream =
      .ok (len + (taken (k - len) stream).length, stream[(taken (k - len) stream).length]?,
        splice line len (taken (k - len) stream),
        stream.drop ((taken (k - len) stream).length + 1)) := by
  have hnil (l : Bytes) (i : ℕ) : splice l i [] = l := by
    rw [splice, List.append_nil, List.length_nil, Nat.add_zero, List.take_append_drop]
  induction stream generalizing line len with
  | nil => simp [fgetlineLoop, taken, hnil]
  | cons c stream ih =>
      rw [fgetlineLoop]
      rcases Nat.lt_or_ge len k with hroom | hfull
      · rw [if_pos (by omega)]
        by_cases hc : c = newline
        · have htaken : taken (k - len) (c :: stream) = [] := by
            rw [taken, List.takeWhile_cons_of_neg (by simp [hc]), List.take_nil]
          rw [if_pos hc, htaken, hnil]
          rfl
        · have htaken : taken (k - len) (c :: stream) = c :: taken (k - (len + 1)) stream := by
            rw [taken, List.takeWhile_cons_of_pos (by simp [hc]),
              show k - len = k - (len + 1) + 1 by omega, List.take_succ_cons]
            rfl
          have hstore : len + [c].length ≤ line.length := by
            rw [List.length_singleton]
            omega
          have hshort := length_taken_le (k - (len + 1)) stream
          rw [if_neg hc, store_of_le hstore, ok_bind, ih hroom (by rwa [length_splice hstore]),
            htaken, List.length_cons]
          have hjoin : splice (splice line len [c]) (len + 1) (taken (k - (len + 1)) stream) =
              splice line len (c :: taken (k - (len + 1)) stream) := by
            apply splice_splice
            rw [List.length_singleton]
            omega
          rw [hjoin, ← Nat.add_assoc, Nat.add_right_comm]
          rfl
      · have htaken : taken (k - len) (c :: stream) = [] := by
          rw [taken, Nat.sub_eq_zero_of_le hfull, List.take_zero]
        rw [if_neg (by omega), htaken, hnil]
        rfl

/-- **`fgetline`** at the end of the input. -/
theorem fgetline_nil (line : Bytes) (n : ℤ) : fgetline line n [] = .ok (-1, line, []) := rfl

/-- **`fgetline`** before the end. -/
theorem fgetline_eq {k : ℕ} {line stream : Bytes} (hline : line.length = k + 1)
    (hstream : stream ≠ []) :
    fgetline line (k + 1) stream =
      .ok ((taken k stream).length, splice line 0 (taken k stream ++ [0]),
        stream.drop ((taken k stream).length + 1)) := by
  have hshort := length_taken_le k stream
  have hloop := fgetlineLoop_eq (Nat.zero_le k) (show k < line.length by omega) stream
  rw [Nat.sub_zero, Nat.zero_add] at hloop
  -- `EOF` comes with an empty string at the end of the input only
  have hnotEof : ¬((taken k stream).length = 0 ∧ stream[(taken k stream).length]? = none) := by
    rintro ⟨hzero, heof⟩
    rw [hzero, List.getElem?_eq_none_iff, Nat.le_zero, List.length_eq_zero_iff] at heof
    exact hstream heof
  have hfit : 0 + (taken k stream).length ≤ line.length := by omega
  have hstore : (taken k stream).length + [(0 : UInt8)].length ≤
      (splice line 0 (taken k stream)).length := by
    rw [length_splice hfit, List.length_singleton]
    omega
  have hjoin : splice (splice line 0 (taken k stream)) (0 + (taken k stream).length) [0] =
      splice line 0 (taken k stream ++ [0]) := by
    apply splice_splice
    rw [List.length_singleton]
    omega
  rw [Nat.zero_add] at hjoin
  rw [fgetline, add_sub_cancel_right, hloop, ok_bind]
  dsimp only
  rw [if_neg hnotEof, store_of_le hstore, ok_bind, hjoin]
  rfl

/-! ## All calls -/

/-- The string and its NUL leave the array as long as it was. -/
theorem length_call {k : ℕ} {line : Bytes} (hline : line.length = k + 1) (stream : Bytes) :
    (splice line 0 (taken k stream ++ [0])).length = k + 1 := by
  have hshort := length_taken_le k stream
  have hfit : 0 + (taken k stream ++ [0]).length ≤ line.length := by
    rw [List.length_append, List.length_singleton]
    omega
  rw [length_splice hfit, hline]

/-- What `in_line` leaves in the array is a line: the bytes taken, and a NUL. -/
theorem inLine_call {k : ℕ} {line : Bytes} (hline : line.length = k + 1) (stream : Bytes) :
    InLine (k + 1) ((taken k stream).length, splice line 0 (taken k stream ++ [0])) := by
  have hshort := length_taken_le k stream
  refine ⟨Int.natCast_nonneg _, ?_, ?_, ?_⟩
  · dsimp only
    omega
  · dsimp only
    rw [length_call hline]
    rfl
  · dsimp only
    rw [splice_zero, List.append_assoc, Int.toNat_natCast, List.getElem?_append_right le_rfl,
      Nat.sub_self]
    rfl

/-- The line read is the bytes taken. -/
theorem lineRead_call (line : Bytes) (k : ℕ) (stream : Bytes) :
    lineRead ((taken k stream).length, splice line 0 (taken k stream ++ [0])) =
      taken k stream := by
  rw [lineRead, splice_zero, List.append_assoc, Int.toNat_natCast, List.take_left' rfl]

/-- **Reading ends**: every call before the last one takes a character off the stream. -/
theorem fgetlines_total {k : ℕ} {fuel : ℕ} {line stream : Bytes} (hfuel : stream.length < fuel)
    (hline : line.length = k + 1) : ∃ calls, fgetlines (k + 1) fuel line stream = .ok calls := by
  induction fuel generalizing line stream with
  | zero => exact absurd hfuel (Nat.not_lt_zero _)
  | succ fuel ih =>
      rw [fgetlines]
      by_cases hstream : stream = []
      · subst hstream
        exact ⟨[], rfl⟩
      · have hpos := List.length_pos_of_ne_nil hstream
        have hrest : (stream.drop ((taken k stream).length + 1)).length < fuel := by
          rw [List.length_drop]
          omega
        obtain ⟨calls, hcalls⟩ := ih hrest (length_call hline stream)
        rw [fgetline_eq hline hstream, ok_bind]
        dsimp only
        rw [if_neg (by omega), hcalls]
        exact ⟨_, rfl⟩

/-- `strs` is what reading `stream` in strings of at most `k` bytes can give: no more than its
bytes without the newlines, and all of them exactly when every line fits. -/
def Reads (k : ℕ) (stream strs : Bytes) : Prop :=
  strs.length ≤ (stream.filter (· ≠ newline)).length ∧
    (strs = stream.filter (· ≠ newline) ↔ ∀ l ∈ stream.splitOn newline, l.length ≤ k)

/-- Of the empty stream nothing is read. -/
theorem reads_nil (k : ℕ) : Reads k [] [] := by
  refine ⟨le_rfl, iff_of_true rfl ?_⟩
  simp

/-- A line has no newline to leave out. -/
theorem filter_of_notMem {l : Bytes} (hl : newline ∉ l) : l.filter (· ≠ newline) = l := by
  rw [List.filter_eq_self]
  intro c hc
  simpa using ne_of_mem_of_not_mem hc hl

/-- A call takes from a line and, if there is room, from what follows it. -/
theorem taken_append {l : Bytes} (hl : newline ∉ l) (k : ℕ) (r : Bytes) :
    taken k (l ++ r) = (l ++ r.takeWhile (· ≠ newline)).take k := by
  rw [taken, List.takeWhile_append_of_pos]
  intro c hc
  simpa using ne_of_mem_of_not_mem hc hl

/-- A line that fits is read whole, with its newline. -/
theorem Reads.line {k : ℕ} {l rest strs : Bytes} (hl : newline ∉ l) (hk : l.length ≤ k)
    (h : Reads k rest strs) : Reads k (l ++ newline :: rest) (l ++ strs) := by
  have hfilter : (l ++ newline :: rest).filter (· ≠ newline) = l ++ rest.filter (· ≠ newline) := by
    rw [List.filter_append, filter_of_notMem hl, List.filter_cons_of_neg (by simp)]
  obtain ⟨hlen, hall⟩ := h
  refine ⟨?_, ?_⟩
  · rw [hfilter, List.length_append, List.length_append]
    omega
  · rw [hfilter, List.append_cancel_left_eq, hall, List.splitOn_append_cons_self_of_not_mem hl,
      List.forall_mem_cons]
    exact (and_iff_right hk).symm

/-- A line that does not fit loses the byte behind the part that does. -/
theorem Reads.long {k : ℕ} {l r strs : Bytes} (hl : newline ∉ l) (hk : k < l.length)
    (hmem : l ∈ (l ++ r).splitOn newline) (h : Reads k ((l ++ r).drop (k + 1)) strs) :
    Reads k (l ++ r) (l.take k ++ strs) := by
  have hin : k < (l ++ r).length := by
    rw [List.length_append]
    omega
  have hx : (l ++ r)[k] ≠ newline := by
    rw [List.getElem_append_left hk]
    exact ne_of_mem_of_not_mem (List.getElem_mem hk) hl
  have hstream : l.take k ++ (l ++ r)[k] :: (l ++ r).drop (k + 1) = l ++ r := by
    rw [← List.drop_eq_getElem_cons hin, ← List.take_append_of_le_length hk.le,
      List.take_append_drop]
  have hkept : newline ∉ l.take k := fun hmem => hl (List.mem_of_mem_take hmem)
  -- the strings are shorter than what they should be, so they are not that
  have hlost : (l.take k ++ strs).length < ((l ++ r).filter (· ≠ newline)).length := by
    have hrest := h.1
    rw [← hstream, List.filter_append, List.filter_cons_of_pos (by simpa using hx),
      filter_of_notMem hkept, List.length_append, List.length_append, List.length_cons]
    omega
  refine ⟨hlost.le, iff_of_false ?_ ?_⟩
  · intro heq
    rw [heq] at hlost
    exact lt_irrefl _ hlost
  · intro hfits
    exact absurd (hfits l hmem) (Nat.not_le_of_lt hk)

/-- **One call** in front of the others. -/
theorem Reads.call {k : ℕ} {stream strs : Bytes}
    (h : Reads k (stream.drop ((taken k stream).length + 1)) strs) :
    Reads k stream (taken k stream ++ strs) := by
  by_cases hmem : newline ∈ stream
  · obtain ⟨l, rest, rfl, hl⟩ := List.eq_append_cons_of_mem hmem
    have htaken : taken k (l ++ newline :: rest) = l.take k := by
      rw [taken_append hl, List.takeWhile_cons_of_neg (by simp), List.append_nil]
    rw [htaken] at h ⊢
    rcases Nat.lt_or_ge k l.length with hlong | hfits
    · -- what is left of the line is read as a line of its own
      refine Reads.long hl hlong ?_ ?_
      · rw [List.splitOn_append_cons_self_of_not_mem hl]
        exact List.mem_cons_self
      · rwa [List.length_take_of_le hlong.le] at h
    · rw [List.take_of_length_le hfits] at h ⊢
      rw [← List.drop_drop, List.drop_left' rfl] at h
      exact Reads.line hl hfits h
  · have htaken : taken k stream = stream.take k := by
      have happ := taken_append hmem k []
      rwa [List.append_nil, List.takeWhile_nil, List.append_nil] at happ
    have hsplit : stream.splitOn newline = [stream] := List.splitOn_eq_singleton hmem
    rw [htaken] at h ⊢
    rcases Nat.lt_or_ge k stream.length with hlong | hfits
    · have hin : stream ∈ (stream ++ []).splitOn newline := by
        rw [List.append_nil, hsplit]
        exact List.mem_cons_self
      rw [List.length_take_of_le hlong.le, ← List.append_nil stream] at h
      have hlost := Reads.long hmem hlong hin h
      rwa [List.append_nil] at hlost
    · -- the last line, without a newline
      rw [List.take_of_length_le hfits] at h ⊢
      rw [List.drop_of_length_le (Nat.le_succ _)] at h
      have hstrs : strs = [] := List.length_eq_zero_iff.mp (Nat.le_zero.mp h.1)
      rw [hstrs, List.append_nil, Reads, filter_of_notMem hmem, hsplit, List.forall_mem_singleton]
      exact ⟨le_rfl, iff_of_true rfl hfits⟩

/-- **What the calls of a whole reading give.** -/
theorem fgetlines_reads {k fuel : ℕ} {line stream : Bytes} {calls : List (ℤ × Bytes)}
    (hline : line.length = k + 1) (h : fgetlines (k + 1) fuel line stream = .ok calls) :
    (∀ call ∈ calls, InLine (k + 1) call) ∧ Reads k stream (calls.flatMap lineRead) := by
  induction fuel generalizing line stream calls with
  | zero => cases h
  | succ fuel ih =>
      rw [fgetlines] at h
      by_cases hstream : stream = []
      · subst hstream
        rw [fgetline_nil, ok_bind] at h
        obtain rfl := Except.ok.inj h
        exact ⟨fun call hcall => absurd hcall List.not_mem_nil, reads_nil k⟩
      · rw [fgetline_eq hline hstream, ok_bind] at h
        dsimp only at h
        rw [if_neg (by omega), bind_eq_ok] at h
        obtain ⟨rest, hrest, hret⟩ := h
        obtain rfl := Except.ok.inj hret
        obtain ⟨hin, hreads⟩ := ih (length_call hline stream) hrest
        refine ⟨List.forall_mem_cons.mpr ⟨inLine_call hline stream, hin⟩, ?_⟩
        rw [List.flatMap_cons, lineRead_call]
        exact hreads.call

/-- **Reading lines loses nothing** exactly when every line of the stream leaves room for its
terminator in the array. -/
theorem reading_lines_iff {n : ℤ} (hn : 2 ≤ n) {line : Bytes} (hline : (line.length : ℤ) = n)
    (stream : Bytes) :
    (∃ fuel calls, fgetlines n fuel line stream = .ok calls ∧
        calls.flatMap lineRead = stream.filter (· ≠ newline) ∧ ∀ call ∈ calls, InLine n call) ↔
      ∀ l ∈ stream.splitOn newline, (l.length : ℤ) ≤ n - 1 := by
  obtain ⟨k, rfl⟩ : ∃ k : ℕ, n = k + 1 := ⟨line.length - 1, by omega⟩
  have hline : line.length = k + 1 := by omega
  have hfits : (∀ l ∈ stream.splitOn newline, (l.length : ℤ) ≤ k + 1 - 1) ↔
      ∀ l ∈ stream.splitOn newline, l.length ≤ k := by
    simp only [add_sub_cancel_right, Nat.cast_le]
  rw [hfits]
  constructor
  · rintro ⟨fuel, calls, hcalls, hall, -⟩
    exact (fgetlines_reads hline hcalls).2.2.mp hall
  · intro hlines
    obtain ⟨calls, hcalls⟩ := fgetlines_total (Nat.lt_succ_self stream.length) hline
    obtain ⟨hin, hreads⟩ := fgetlines_reads hline hcalls
    exact ⟨_, calls, hcalls, hreads.2.mpr hlines, hin⟩

/-- A line that fills the array, an empty one and one without a newline. -/
theorem reading_lines_fitting :
    ∃ fuel calls, fgetlines 4 fuel [9, 9, 9, 9] (text "get\n\nab") = .ok calls ∧
      calls.flatMap lineRead = (text "get\n\nab").filter (· ≠ newline) ∧
      ∀ call ∈ calls, InLine 4 call :=
  (reading_lines_iff (by decide) (by decide) (text "get\n\nab")).mpr (by decide +kernel)

/-- A line of one byte too many. -/
theorem reading_lines_long :
    ¬∃ fuel calls, fgetlines 4 fuel [9, 9, 9, 9] (text "ping\n") = .ok calls ∧
      calls.flatMap lineRead = (text "ping\n").filter (· ≠ newline) ∧
      ∀ call ∈ calls, InLine 4 call := by
  rintro ⟨fuel, calls, hcalls, hall, -⟩
  have hline : ([9, 9, 9, 9] : Bytes).length = 3 + 1 := rfl
  have hlines := (fgetlines_reads hline hcalls).2.2.mp hall
  exact absurd hlines (by decide +kernel)

/-! ## `main` -/

/-- The size of `_command_str`. -/
def lineSize : ℤ := 128

/-- The loop of `main` that gives every line to `process`; a command string ends at its NUL. -/
def mainLoop : ℕ → Bytes → Bytes → Io → ClientT → Except Halt (Io × ClientT)
  | 0, _, _, _, _ => .error .outOfFuel
  | fuel + 1, commandStr, stdin, io, c => do
    let (r, commandStr, stdin) ← fgetline commandStr lineSize stdin
    if r = -1 then return (io, c)
    else
      let (_, io, c) ← process sCommandTable io c (commandStr.takeWhile (· ≠ 0))
      mainLoop fuel commandStr stdin io c

/-- The string of a call ends at its terminator. -/
theorem InLine.length_string {n : ℤ} {call : ℤ × Bytes} (h : InLine n call) :
    ((call.2.takeWhile (· ≠ 0)).length : ℤ) ≤ n - 1 := by
  have hstop : ∀ (l : Bytes) (i : ℕ), l[i]? = some 0 → (l.takeWhile (· ≠ 0)).length ≤ i := by
    intro l
    induction l with
    | nil => exact fun _ _ => Nat.zero_le _
    | cons c l ih =>
        intro i hi
        cases i with
        | zero =>
            obtain rfl : c = 0 := by simpa using hi
            simp
        | succ i =>
            rw [List.takeWhile_cons]
            split_ifs
            · exact Nat.succ_le_succ (ih i hi)
            · exact Nat.zero_le _
  have hlen := hstop call.2 call.1.toNat h.nul
  have hlow := h.low
  have hshort := h.short
  omega

/-- **The arguments of the lines that `main` reads** fit into both arrays with their command. -/
theorem main_args_fit {fuel : ℕ} {commandStr stdin : Bytes} {calls : List (ℤ × Bytes)}
    (hline : (commandStr.length : ℤ) = lineSize)
    (h : fgetlines lineSize fuel commandStr stdin = .ok calls) :
    ∀ call ∈ calls, ∀ arg ∈ ArgT.process (call.2.takeWhile (· ≠ 0)),
      arg.length ≤ maxArgLength := by
  intro call hcall arg harg
  have hin := (fgetlines_reads (k := 127) (Int.ofNat.inj hline) h).1 call hcall
  have hstring := hin.length_string
  have hle := length_le_of_mem_process harg
  rw [maxArgLength]
  push_cast at hstring
  omega

/-- **The loop of `main` is a session** of the strings that `fgetline` leaves. -/
theorem mainLoop_eq_session {fuel : ℕ} {commandStr stdin : Bytes} {calls : List (ℤ × Bytes)}
    (h : fgetlines lineSize fuel commandStr stdin = .ok calls) (io : Io) (c : ClientT) :
    mainLoop fuel commandStr stdin io c =
      session (calls.map fun call => call.2.takeWhile (· ≠ 0)) io c := by
  induction fuel generalizing commandStr stdin calls io c with
  | zero => cases h
  | succ fuel ih =>
      rw [fgetlines, bind_eq_ok] at h
      obtain ⟨⟨r, line, rest⟩, hline, h⟩ := h
      rw [mainLoop, hline, ok_bind]
      dsimp only at h ⊢
      split_ifs at h ⊢ with hend
      · obtain rfl := Except.ok.inj h
        rfl
      · obtain ⟨calls', hrest, hret⟩ := bind_eq_ok.mp h
        obtain rfl := Except.ok.inj hret
        rw [List.map_cons, session, List.foldlM_cons]
        dsimp only
        cases process sCommandTable io c (line.takeWhile (· ≠ 0)) with
        | error e => rfl
        | ok x => exact ih hrest x.2.1 x.2.2

end Client

end AsprNet
