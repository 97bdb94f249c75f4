import AsprNet.Kernel
import Mathlib.Algebra.Order.BigOperators.Group.List

/-! # `arg_t`

Reference: `arguments.hpp`.

`process` cuts a C string into arguments: white space separates them, and a backslash in front of
a blank makes the blank part of the argument. The scanner of the source works with two cursors and
a partial accumulator; `decodeArg` is what one round of it computes, and `Lexes` the relation
between a text and its arguments that the rounds realise (`process_lexes`).
-/

namespace AsprNet

def blank : UInt8 := 32

def backslash : UInt8 := 92

/-- `isspace` of the C locale. -/
def isspace (c : UInt8) : Bool := c == 32 || (9 ≤ c && c ≤ 13)

/-- The bytes at which the `switch` of the scanner ends an argument. -/
def endsArg (c : UInt8) : Bool := c == blank || c == 10 || c == 13 || c == 9 || c == 0

namespace ArgT

/-- `while (*_p && isspace(*_p)) ++_p`. The end of the list is the terminating NUL. -/
def skipSpaces (p : Bytes) : Bytes := p.dropWhile fun c => c != 0 && isspace c

/-- The scan of one argument: `_p` (with what follows it), `_space_arg` and the bytes from `_top`
to `_p`. It returns the last two and the position where it stopped. -/
def scanArg : Bytes → Bytes → Bytes → Bytes × Bytes × Bytes
  | [], spaceArg, seg => (spaceArg, seg, [])
  | c :: p, spaceArg, seg =>
    if endsArg c then (spaceArg, seg, c :: p)
    else match p with
      | [] => (spaceArg, seg ++ [c], [])
      | d :: p' =>
        -- the segment in front of the backslash is saved; the next one starts with the blank
        if c = backslash ∧ d = blank then scanArg p' (spaceArg ++ seg) [d]
        else scanArg (d :: p') spaceArg (seg ++ [c])

/-- The outer loop. Every round but the last moves `_p`. -/
def processLoop : ℕ → Bytes → List Bytes → Option (List Bytes)
  | 0, _, _ => none
  | fuel + 1, p, argv =>
    let p := skipSpaces p
    if p.headD 0 = 0 then some argv
    else
      let (spaceArg, seg, p) := scanArg p [] []
      if spaceArg = [] then processLoop fuel p (argv ++ [seg])
      else processLoop fuel p (argv ++ [spaceArg ++ seg])

/-- `process(const char*)` of the C string `s`: the resulting `_argv`. -/
def process (s : Bytes) : List Bytes := (processLoop (s.length + 1) s []).getD []

/-- `argv(i)`. -/
def argv (a : List Bytes) (i : ℕ) : Except Halt Bytes :=
  match a[i]? with
  | some arg => .ok arg
  | none => .error .noArgument

end ArgT

open ArgT

/-! ## One argument -/

/-- The argument at the front of a text and the text behind it. -/
def decodeArg : Bytes → Bytes × Bytes
  | [] => ([], [])
  | c :: p =>
    if endsArg c then ([], c :: p)
    else match p with
      | [] => ([c], [])
      | d :: p' =>
        if c = backslash ∧ d = blank then (d :: (decodeArg p').1, (decodeArg p').2)
        else (c :: (decodeArg (d :: p')).1, (decodeArg (d :: p')).2)

/-- At a blank or a NUL the argument is over. -/
theorem decodeArg_ends {c : UInt8} (h : endsArg c = true) (p : Bytes) :
    decodeArg (c :: p) = ([], c :: p) := by
  cases p <;> simp [decodeArg, h]

/-- The last byte belongs to the argument, also a backslash. -/
theorem decodeArg_last {c : UInt8} (h : endsArg c = false) : decodeArg [c] = ([c], []) := by
  simp [decodeArg, h]

/-- An escaped blank is a blank of the argument. -/
theorem decodeArg_escape (p : Bytes) :
    decodeArg (backslash :: blank :: p) = (blank :: (decodeArg p).1, (decodeArg p).2) := by
  simp [decodeArg, show endsArg backslash = false from rfl]

/-- Any other byte is copied. -/
theorem decodeArg_step {c d : UInt8} (h : endsArg c = false) (hne : ¬(c = backslash ∧ d = blank))
    (p : Bytes) :
    decodeArg (c :: d :: p) = (c :: (decodeArg (d :: p)).1, (decodeArg (d :: p)).2) := by
  simp [decodeArg, h, hne]

/-- The rounds of the scan, as a rule of induction over the text. -/
theorem scan_induction {motive : Bytes → Prop} (nil : motive [])
    (ends : ∀ c p, endsArg c = true → motive (c :: p))
    (last : ∀ c, endsArg c = false → motive [c])
    (escape : ∀ p, motive p → motive (backslash :: blank :: p))
    (step : ∀ c d p, endsArg c = false → ¬(c = backslash ∧ d = blank) → motive (d :: p) →
      motive (c :: d :: p)) (p : Bytes) : motive p := by
  induction p using decodeArg.induct with
  | case1 => exact nil
  | case2 c p hc => exact ends c p hc
  | case3 c hc => exact last c (by simpa using hc)
  | case4 c hc d p' hesc ih =>
      obtain ⟨rfl, rfl⟩ := hesc
      exact escape p' ih
  | case5 c hc d p' hesc ih => exact step c d p' (by simpa using hc) hesc ih

/-- The cursors and the accumulator together hold what was there before, then the argument. -/
theorem scanArg_eq (p : Bytes) : ∀ spaceArg seg,
    (scanArg p spaceArg seg).1 ++ (scanArg p spaceArg seg).2.1 =
        spaceArg ++ seg ++ (decodeArg p).1 ∧
      (scanArg p spaceArg seg).2.2 = (decodeArg p).2 := by
  induction p using scan_induction with
  | nil => simp [scanArg, decodeArg]
  | ends c p hc => cases p <;> simp [scanArg, hc, decodeArg_ends hc]
  | last c hc => simp [scanArg, hc, decodeArg_last hc]
  | escape p ih =>
      intro spaceArg seg
      rw [decodeArg_escape]
      simpa [scanArg, show endsArg backslash = false from rfl] using ih (spaceArg ++ seg) [blank]
  | step c d p hc hne ih =>
      intro spaceArg seg
      rw [decodeArg_step hc hne]
      simpa [scanArg, hc, hne] using ih spaceArg (seg ++ [c])

/-- A byte of an argument is a blank or one that does not end arguments. -/
theorem mem_decodeArg (p : Bytes) : ∀ c ∈ (decodeArg p).1, c = blank ∨ endsArg c = false := by
  induction p using scan_induction with
  | nil => simp [decodeArg]
  | ends c p hc => simp [decodeArg_ends hc]
  | last c hc => simp [decodeArg_last hc, hc]
  | escape p ih => simpa [decodeArg_escape] using ih
  | step c d p hc hne ih =>
      rw [decodeArg_step hc hne]
      simpa [hc] using ih

/-- An argument takes one byte of the text for each of its bytes and one more for each blank. -/
theorem decodeArg_cost (p : Bytes) :
    (decodeArg p).1.length + (decodeArg p).1.count blank + (decodeArg p).2.length ≤ p.length := by
  have hends : ∀ c, endsArg c = false → c ≠ blank := by
    rintro c hc rfl
    exact absurd hc (by decide)
  induction p using scan_induction with
  | nil => simp [decodeArg]
  | ends c p hc => simp [decodeArg_ends hc]
  | last c hc => simp [decodeArg_last hc, hends c hc]
  | escape p ih =>
      rw [decodeArg_escape]
      simp only [List.length_cons, List.count_cons_self]
      omega
  | step c d p hc hne ih =>
      rw [decodeArg_step hc hne]
      simp only [List.length_cons, List.count_cons_of_ne (hends c hc)] at ih ⊢
      omega

/-- The scan of an argument stops at the end of the text or at a byte that ends arguments. -/
theorem decodeArg_rest (p : Bytes) :
    ∀ c, (decodeArg p).2.head? = some c → endsArg c = true := by
  induction p using scan_induction with
  | nil => simp [decodeArg]
  | ends c p hc => simp [decodeArg_ends hc, hc]
  | last c hc => simp [decodeArg_last hc]
  | escape p ih => simpa [decodeArg_escape] using ih
  | step c d p hc hne ih => simpa [decodeArg_step hc hne] using ih

/-- A text that does not start with the end of an argument loses at least a byte. -/
theorem length_decodeArg_lt {c : UInt8} (p : Bytes) (hc : endsArg c = false) :
    (decodeArg (c :: p)).2.length < (c :: p).length := by
  have hcost := decodeArg_cost (c :: p)
  have hpos : 0 < (decodeArg (c :: p)).1.length := by
    cases p with
    | nil => simp [decodeArg_last hc]
    | cons d p =>
        by_cases hesc : c = backslash ∧ d = blank
        · obtain ⟨rfl, rfl⟩ := hesc
          simp [decodeArg_escape]
        · simp [decodeArg_step hc hesc]
  omega

/-- A word without bytes that end arguments is read back as it is, up to a separator that its last
byte does not escape. -/
theorem decodeArg_word {w rest : Bytes} (hw : ∀ c ∈ w, endsArg c = false)
    (hsep : ∀ c, rest.head? = some c → endsArg c = true)
    (hesc : rest.head? = some blank → backslash ∉ w) : decodeArg (w ++ rest) = (w, rest) := by
  induction w with
  | nil =>
      cases rest with
      | nil => rfl
      | cons c rest => exact decodeArg_ends (hsep c rfl) rest
  | cons c w ih =>
      have hc := hw c List.mem_cons_self
      have ih := ih (fun d hd => hw d (List.mem_cons_of_mem _ hd))
        fun hb hmem => hesc hb (List.mem_cons_of_mem _ hmem)
      cases hwr : w ++ rest with
      | nil =>
          obtain ⟨rfl, rfl⟩ := List.append_eq_nil_iff.mp hwr
          exact decodeArg_last hc
      | cons d t =>
          -- the next byte is not an escaped blank: it is a byte of the word or the separator
          have hne : ¬(c = backslash ∧ d = blank) := by
            rintro ⟨rfl, rfl⟩
            cases w with
            | nil =>
                rw [List.nil_append] at hwr
                exact hesc (by rw [hwr]; rfl) List.mem_cons_self
            | cons e w =>
                obtain rfl : e = blank := by simpa using (List.cons.inj hwr).1
                exact absurd (hw blank (by simp)) (by decide)
          rw [List.cons_append, hwr, decodeArg_step hc hne, ← hwr, ih]

/-! ## A whole text -/

/-- The arguments of a text: rounds of the outer loop. -/
inductive Lexes : Bytes → List Bytes → Prop
  | done {s : Bytes} (h : (skipSpaces s).headD 0 = 0) : Lexes s []
  | arg {s : Bytes} {as : List Bytes} (h : (skipSpaces s).headD 0 ≠ 0)
      (rest : Lexes (decodeArg (skipSpaces s)).2 as) :
      Lexes s ((decodeArg (skipSpaces s)).1 :: as)

/-- A byte of white space is skipped. -/
theorem skipSpaces_space {c : UInt8} (hc : c ≠ 0) (hs : isspace c = true) (p : Bytes) :
    skipSpaces (c :: p) = skipSpaces p :=
  List.dropWhile_cons_of_pos (by simp [hc, hs])

/-- Any other byte is not. -/
theorem skipSpaces_stop {c : UInt8} (hs : isspace c = false) (p : Bytes) :
    skipSpaces (c :: p) = c :: p :=
  List.dropWhile_cons_of_neg (by simp [hs])

/-- What follows the white space starts with a byte that is no white space, unless it is over. -/
theorem skipSpaces_head {s : Bytes} (h : (skipSpaces s).headD 0 ≠ 0) :
    ∃ c p, skipSpaces s = c :: p ∧ c ≠ 0 ∧ isspace c = false := by
  cases hs : skipSpaces s with
  | nil => simp [hs] at h
  | cons c p =>
      have hc : c ≠ 0 := by simpa [hs] using h
      have hstop := List.head?_dropWhile_not (fun c => c != 0 && isspace c) s
      rw [skipSpaces] at hs
      rw [hs] at hstop
      exact ⟨c, p, rfl, hc, by simpa [hc] using hstop⟩

/-- White space ends arguments, apart from vertical tab and form feed; so what is not white space
and not NUL does not. -/
theorem endsArg_of_not_isspace {c : UInt8} (hc : c ≠ 0) (hs : isspace c = false) :
    endsArg c = false := by
  by_contra h
  simp only [endsArg, Bool.not_eq_false, Bool.or_eq_true, beq_iff_eq] at h
  rcases h with (((rfl | rfl) | rfl) | rfl) | rfl
  all_goals first | exact hc rfl | exact absurd hs (by decide)

/-- Skipping takes bytes away. -/
theorem length_skipSpaces (s : Bytes) : (skipSpaces s).length ≤ s.length :=
  (List.dropWhile_suffix _).length_le

/-- A round shortens the text. -/
theorem length_round_lt {s : Bytes} (h : (skipSpaces s).headD 0 ≠ 0) :
    (decodeArg (skipSpaces s)).2.length < s.length := by
  obtain ⟨c, p, hs, hc, hsp⟩ := skipSpaces_head h
  have hlt := length_decodeArg_lt p (endsArg_of_not_isspace hc hsp)
  have hle := length_skipSpaces s
  rw [hs] at hle ⊢
  omega

/-- One round of the outer loop. -/
theorem processLoop_succ (fuel : ℕ) (p : Bytes) (as : List Bytes) :
    processLoop (fuel + 1) p as =
      if (skipSpaces p).headD 0 = 0 then some as
      else
        processLoop fuel (decodeArg (skipSpaces p)).2 (as ++ [(decodeArg (skipSpaces p)).1]) := by
  obtain ⟨harg, hrest⟩ := scanArg_eq (skipSpaces p) [] []
  rw [processLoop]
  split
  · rfl
  · simp only [List.nil_append] at harg
    by_cases hspace : (scanArg (skipSpaces p) [] []).1 = []
    · rw [hspace, List.nil_append] at harg
      simp only [hspace, if_true, hrest, harg]
    · simp only [hspace, if_false, hrest, harg]

/-- With more rounds than bytes the outer loop ends, and its rounds are those of `Lexes`. -/
theorem processLoop_lexes (fuel : ℕ) (s : Bytes) (as : List Bytes) (h : s.length < fuel) :
    ∃ bs, processLoop fuel s as = some (as ++ bs) ∧ Lexes s bs := by
  induction fuel generalizing s as with
  | zero => omega
  | succ fuel ih =>
      rw [processLoop_succ]
      by_cases hdone : (skipSpaces s).headD 0 = 0
      · exact ⟨[], by rw [if_pos hdone, List.append_nil], .done hdone⟩
      · have hlt := length_round_lt hdone
        obtain ⟨bs, hloop, hlex⟩ := ih (decodeArg (skipSpaces s)).2
          (as ++ [(decodeArg (skipSpaces s)).1]) (by omega)
        exact ⟨_ :: bs, by rw [if_neg hdone, hloop, List.append_assoc]; rfl, .arg hdone hlex⟩

/-- **`process` terminates and computes the arguments of the text.** -/
theorem process_lexes (s : Bytes) : Lexes s (process s) := by
  obtain ⟨bs, hloop, hlex⟩ := processLoop_lexes (s.length + 1) s [] (Nat.lt_succ_self _)
  rwa [process, hloop, List.nil_append, Option.getD_some]

/-- A text has one argument vector. -/
theorem Lexes.unique {s : Bytes} {as bs : List Bytes} (ha : Lexes s as) (hb : Lexes s bs) :
    as = bs := by
  induction ha generalizing bs with
  | done h =>
      cases hb with
      | done => rfl
      | arg h' => exact absurd h h'
  | arg h _ ih =>
      cases hb with
      | done h' => exact absurd h' h
      | arg _ hrest => rw [ih hrest]

/-- A line lexes in one way, which `process` finds. -/
theorem Lexes.process_eq {s : Bytes} {as : List Bytes} (h : Lexes s as) : process s = as :=
  (process_lexes s).unique h

/-- Behind an argument with a successor there is white space to skip. -/
theorem length_skipSpaces_lt {p : Bytes} (h : (skipSpaces (decodeArg p).2).headD 0 ≠ 0) :
    (skipSpaces (decodeArg p).2).length < (decodeArg p).2.length := by
  have hends := decodeArg_rest p
  cases hr : (decodeArg p).2 with
  | nil => simp [hr, skipSpaces] at h
  | cons c r =>
      have hc := hends c (by rw [hr]; rfl)
      have hc0 : c ≠ 0 := by
        rintro rfl
        rw [hr, skipSpaces_stop rfl] at h
        exact h rfl
      cases hsp : isspace c with
      | true =>
          rw [skipSpaces_space hc0 hsp]
          exact Nat.lt_succ_of_le (length_skipSpaces r)
      | false =>
          rw [endsArg_of_not_isspace hc0 hsp] at hc
          exact absurd hc (by decide)

/-- The bytes of the arguments, their blanks once more and a separator between any two of them all
come from the text. -/
theorem Lexes.cost {s : Bytes} {as : List Bytes} (h : Lexes s as) :
    (as.map fun a => a.length + a.count blank + 1).sum ≤ (skipSpaces s).length + 1 := by
  induction h with
  | done => simp
  | @arg s as h hrest ih =>
      have hcost := decodeArg_cost (skipSpaces s)
      rw [List.map_cons, List.sum_cons]
      cases hrest with
      | done => simpa using by omega
      | arg h' =>
          have hlt := length_skipSpaces_lt h'
          omega

/-! ## The arguments the program can see -/

/-- What every argument is: non-empty, without NUL, tab, newline and carriage return, and not
starting with vertical tab or form feed. -/
structure IsArg (a : Bytes) : Prop where
  bytes : ∀ c ∈ a, c = blank ∨ endsArg c = false
  head : ∃ c t, a = c :: t ∧ (c = blank ∨ isspace c = false)

/-- By induction on the derivation: whatever is lexed is an argument (`IsArg`). -/
theorem Lexes.isArg {s : Bytes} {as : List Bytes} (h : Lexes s as) : ∀ a ∈ as, IsArg a := by
  induction h with
  | done => simp
  | @arg s as h hrest ih =>
      obtain ⟨c, p, hs, hc, hsp⟩ := skipSpaces_head h
      have hends := endsArg_of_not_isspace hc hsp
      have hhead : ∃ d t, (decodeArg (c :: p)).1 = d :: t ∧ (d = blank ∨ isspace d = false) := by
        cases p with
        | nil => exact ⟨c, [], by rw [decodeArg_last hends], Or.inr hsp⟩
        | cons d p =>
            by_cases hesc : c = backslash ∧ d = blank
            · obtain ⟨rfl, rfl⟩ := hesc
              exact ⟨blank, _, by rw [decodeArg_escape], Or.inl rfl⟩
            · exact ⟨c, _, by rw [decodeArg_step hends hesc], Or.inr hsp⟩
      rintro a (_ | ⟨_, ha⟩)
      · rw [← hs] at hhead
        exact ⟨mem_decodeArg _, hhead⟩
      · exact ih a ha

/-- Every argument `process` returns is of that kind. -/
theorem process_isArg (s : Bytes) : ∀ a ∈ process s, IsArg a := (process_lexes s).isArg

/-- No argument is longer than the text. -/
theorem length_le_of_mem_process {s a : Bytes} (h : a ∈ process s) : a.length ≤ s.length := by
  have hcost := (process_lexes s).cost
  have hskip := length_skipSpaces s
  have ha : a.length + a.count blank + 1 ≤
      ((process s).map fun a => a.length + a.count blank + 1).sum :=
    List.single_le_sum (fun _ _ => Nat.zero_le _) _ (List.mem_map_of_mem h)
  omega

/-- An argument without blanks starts with a byte that is no white space, and no byte of it ends
arguments. -/
theorem IsArg.word {a : Bytes} (h : IsArg a) (hb : blank ∉ a) :
    (∀ c ∈ a, endsArg c = false) ∧ ∃ c t, a = c :: t ∧ isspace c = false := by
  refine ⟨fun c hc => (h.bytes c hc).resolve_left fun he => hb (he ▸ hc), ?_⟩
  obtain ⟨c, t, rfl, hc⟩ := h.head
  exact ⟨c, t, rfl, hc.resolve_left fun he => hb (he ▸ List.mem_cons_self)⟩

/-- An argument at the front of a text that does not start with white space. -/
theorem Lexes.front {c : UInt8} {t a rest : Bytes} {as : List Bytes} (hc : endsArg c = false)
    (hs : isspace c = false) (hdec : decodeArg (c :: t) = (a, rest)) (h : Lexes rest as) :
    Lexes (c :: t) (a :: as) := by
  have hskip : skipSpaces (c :: t) = c :: t := skipSpaces_stop hs t
  have hne : (skipSpaces (c :: t)).headD 0 ≠ 0 := by
    rw [hskip]
    rintro h0
    obtain rfl : c = 0 := by simpa using h0
    exact absurd hc (by decide)
  have harg := Lexes.arg hne (by rw [hskip, hdec]; exact h)
  rwa [hskip, hdec] at harg

/-- A word at the front of a text, up to a separator it does not escape, is its first argument. -/
theorem Lexes.word {w rest : Bytes} {as : List Bytes} (hw : ∀ c ∈ w, endsArg c = false)
    (hhead : ∃ c t, w = c :: t ∧ isspace c = false)
    (hsep : ∀ c, rest.head? = some c → endsArg c = true)
    (hesc : rest.head? = some blank → backslash ∉ w) (h : Lexes rest as) :
    Lexes (w ++ rest) (w :: as) := by
  have hdec := decodeArg_word hw hsep hesc
  obtain ⟨c, t, rfl, hc⟩ := hhead
  exact Lexes.front (hw c List.mem_cons_self) hc hdec h

/-- White space in front of a text changes nothing. -/
theorem Lexes.space_cons {c : UInt8} {s : Bytes} {as : List Bytes} (hc : c ≠ 0)
    (hs : isspace c = true) (h : Lexes s as) : Lexes (c :: s) as := by
  have hskip : skipSpaces (c :: s) = skipSpaces s := skipSpaces_space hc hs s
  cases h with
  | done h => exact .done (by rwa [hskip])
  | arg h hrest =>
      have := Lexes.arg (s := c :: s) (by rwa [hskip]) (by rwa [hskip])
      rwa [hskip] at this

/-- **A command and one argument without blanks** are read back as they were put together. -/
theorem process_command {cmd a : Bytes} (hcmd : ∀ c ∈ cmd, endsArg c = false)
    (hcmd' : ∃ c t, cmd = c :: t ∧ isspace c = false) (hbs : backslash ∉ cmd)
    (ha : ∀ c ∈ a, endsArg c = false) (ha' : ∃ c t, a = c :: t ∧ isspace c = false) :
    process (cmd ++ blank :: a) = [cmd, a] := by
  have hnil : Lexes [] [] := .done rfl
  have hlast : Lexes a [a] := by
    simpa using Lexes.word ha ha' (by simp) (by simp) hnil
  refine (Lexes.word hcmd hcmd' ?_ (fun _ => hbs) (hlast.space_cons (by decide) rfl)).process_eq
  simp [endsArg]

end AsprNet
