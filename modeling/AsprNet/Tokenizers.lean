import AsprNet.Arguments
import Mathlib.Logic.Relation

/-! # The two tokenizers

Reference: `arguments.hpp`.

`process(const std::string&)` is a second copy of the scanner of `process(const char*)`, with the
end of the string in the place of the terminating NUL. On strings without NUL the two agree
(`tokenizers_agree`). A NUL ends an argument there but is neither skipped nor the end, so that the
outer loop stops moving at the first one (`processString_terminates_iff`). `encodeArgs` is what a
caller has to send so that `process` gives back its arguments (`process_round_trip`).
-/

namespace AsprNet

/-- The members of an `arg_t`. -/
structure ArgT where
  /-- `_type`. -/
  type : ℤ := 0
  /-- `_argv`. -/
  args : List Bytes := []
deriving DecidableEq, Repr

namespace ArgT

def reset (a : ArgT) : ArgT := { a with args := [], type := 0 }

/-- `process(const char*)`; `none` is `nullptr`. -/
def processCString (a : ArgT) (s : Option Bytes) : Option ArgT :=
  let a := a.reset
  match s with
  | none => some a
  | some s => (processLoop (s.length + 1) s a.args).map fun args => { a with args }

/-- `while (_p != _s.cend() && isspace(*_p)) ++_p`. -/
def skipSpacesStr (p : Bytes) : Bytes := p.dropWhile isspace

/-- The loop `while (!_done && _p != _s.cend())`: `_p` (with what follows it), `_space_arg` and the
bytes from `_top` to `_p`. -/
def scanArgStr : Bytes → Bytes → Bytes → Bytes × Bytes × Bytes
  | [], spaceArg, seg => (spaceArg, seg, [])
  | c :: p, spaceArg, seg =>
    if endsArg c then (spaceArg, seg, c :: p)
    -- `_p+1 != _s.cend()` comes before the look at the next byte
    else match p with
      | [] => scanArgStr [] spaceArg (seg ++ [c])
      | d :: p' =>
        if c = backslash ∧ d = blank then scanArgStr p' (spaceArg ++ seg) [d]
        else scanArgStr (d :: p') spaceArg (seg ++ [c])

/-- One round of the outer loop: the argument it adds and the position behind it, or `none` for
`return`. -/
def roundStr (p : Bytes) : Option (Bytes × Bytes) :=
  let p := skipSpacesStr p
  if p = [] then none
  else
    let (spaceArg, seg, p) := scanArgStr p [] []
    if spaceArg = [] then some (seg, p) else some (spaceArg ++ seg, p)

/-- The outer loop, for a number of rounds. -/
def processStringLoop : ℕ → Bytes → List Bytes → Option (List Bytes)
  | 0, _, _ => none
  | fuel + 1, p, argv =>
    match roundStr p with
    | none => some argv
    | some (arg, p) => processStringLoop fuel p (argv ++ [arg])

/-- `process(const std::string&)`, with as many rounds as can advance the position. -/
def processString (a : ArgT) (s : Bytes) : Option ArgT :=
  let a := a.reset
  if s = [] then some a
  else (processStringLoop (s.length + 1) s a.args).map fun args => { a with args }

end ArgT

open ArgT

/-! ## Round trip -/

def tab : UInt8 := 9

/-- An argument with a backslash in front of every blank. -/
def escapeArg (a : Bytes) : Bytes :=
  a.flatMap fun c => if c = blank then [backslash, blank] else [c]

/-- The text for an argument vector. -/
def encodeArgs (args : List Bytes) : Bytes := [tab].intercalate (args.map escapeArg)

/-- The six bytes that `isspace` accepts in the C locale. -/
theorem isspace_iff {c : UInt8} :
    isspace c = true ↔ c = 32 ∨ c = 9 ∨ c = 10 ∨ c = 11 ∨ c = 12 ∨ c = 13 := by
  simp only [isspace, Bool.or_eq_true, beq_iff_eq, Bool.and_eq_true, decide_eq_true_eq,
    UInt8.le_iff_toNat_le, ← UInt8.toNat_inj]
  simp only [UInt8.reduceToNat]
  omega

/-- What an argument can be, byte by byte. -/
theorem isArg_iff {a : Bytes} :
    IsArg a ↔ a ≠ [] ∧ (∀ c ∈ a, c ≠ 0 ∧ c ≠ 9 ∧ c ≠ 10 ∧ c ≠ 13) ∧ a.head? ≠ some 11 ∧
      a.head? ≠ some 12 := by
  have hbyte : ∀ c : UInt8, (c = blank ∨ endsArg c = false) ↔
      (c ≠ 0 ∧ c ≠ 9 ∧ c ≠ 10 ∧ c ≠ 13) := by
    intro c
    simp only [endsArg, blank, Bool.or_eq_false_iff, beq_eq_false_iff_ne]
    grind
  have hfirst : ∀ c : UInt8, c ≠ 0 ∧ c ≠ 9 ∧ c ≠ 10 ∧ c ≠ 13 →
      ((c = blank ∨ isspace c = false) ↔ c ≠ 11 ∧ c ≠ 12) := by
    intro c hc
    rw [← Bool.not_eq_true, isspace_iff, blank]
    grind
  constructor
  · rintro ⟨hbytes, c, t, rfl, hc⟩
    have hall := fun d hd => (hbyte d).mp (hbytes d hd)
    have hne := (hfirst c (hall c List.mem_cons_self)).mp hc
    exact ⟨List.cons_ne_nil c t, hall, by simpa using hne.1, by simpa using hne.2⟩
  · rintro ⟨hne, hall, h11, h12⟩
    obtain ⟨c, t, rfl⟩ := List.exists_cons_of_ne_nil hne
    refine ⟨fun d hd => (hbyte d).mpr (hall d hd), c, t, rfl, ?_⟩
    exact (hfirst c (hall c List.mem_cons_self)).mpr ⟨by simpa using h11, by simpa using h12⟩

/-- An escaped argument does not start with a blank. -/
theorem head?_escapeArg {a rest : Bytes} (hrest : rest.head? ≠ some blank) :
    (escapeArg a ++ rest).head? ≠ some blank := by
  cases a with
  | nil => exact hrest
  | cons c a =>
      rw [escapeArg, List.flatMap_cons]
      split_ifs with hc
      · simp [backslash, blank]
      · simpa using hc

/-- **Decoding undoes escaping**, up to a separator that is no blank. -/
theorem decodeArg_escapeArg {a rest : Bytes} (ha : ∀ c ∈ a, c = blank ∨ endsArg c = false)
    (hends : ∀ c, rest.head? = some c → endsArg c = true) (hrest : rest.head? ≠ some blank) :
    decodeArg (escapeArg a ++ rest) = (a, rest) := by
  induction a with
  | nil =>
      cases rest with
      | nil => rfl
      | cons c rest => exact decodeArg_ends (hends c rfl) rest
  | cons c a ih =>
      have ih := ih fun d hd => ha d (List.mem_cons_of_mem _ hd)
      have hhead := head?_escapeArg (a := a) hrest
      have hcons : escapeArg (c :: a) = (if c = blank then [backslash, blank] else [c]) ++
          escapeArg a := List.flatMap_cons
      rw [hcons]
      by_cases hc : c = blank
      · rw [if_pos hc, hc]
        show decodeArg (backslash :: blank :: (escapeArg a ++ rest)) = _
        rw [decodeArg_escape, ih]
      · have hstop := (ha c List.mem_cons_self).resolve_left hc
        rw [if_neg hc, List.append_assoc, List.singleton_append]
        cases htail : escapeArg a ++ rest with
        | nil =>
            rw [htail] at ih
            rw [decodeArg_last hstop, ← (Prod.mk.inj ih).1, ← (Prod.mk.inj ih).2]
        | cons d t =>
            -- a backslash of the argument meets no blank: the next one has its own backslash
            have hne : ¬(c = backslash ∧ d = blank) := by
              rintro ⟨-, rfl⟩
              rw [htail] at hhead
              exact hhead rfl
            rw [decodeArg_step hstop hne, ← htail, ih]

/-- An escaped argument in front of a text. -/
theorem Lexes.escaped {a rest : Bytes} {as : List Bytes} (ha : IsArg a)
    (hends : ∀ c, rest.head? = some c → endsArg c = true) (hrest : rest.head? ≠ some blank)
    (h : Lexes rest as) : Lexes (escapeArg a ++ rest) (a :: as) := by
  have hdec := decodeArg_escapeArg ha.bytes hends hrest
  obtain ⟨c, t, rfl, hc⟩ := ha.head
  have hcons : escapeArg (c :: t) ++ rest =
      (if c = blank then [backslash, blank] else [c]) ++ escapeArg t ++ rest := by
    rw [escapeArg, List.flatMap_cons]
    rfl
  rw [hcons] at hdec ⊢
  by_cases hb : c = blank
  · rw [if_pos hb] at hdec ⊢
    exact Lexes.front (by decide) (by decide) hdec h
  · rw [if_neg hb] at hdec ⊢
    exact Lexes.front ((ha.bytes c List.mem_cons_self).resolve_left hb) (hc.resolve_left hb) hdec h

/-- Arguments written with escapes are lexed back. -/
theorem lexes_encodeArgs {args : List Bytes} (h : ∀ a ∈ args, IsArg a) :
    Lexes (encodeArgs args) args := by
  induction args with
  | nil => exact .done rfl
  | cons a args ih =>
      have ha := h a List.mem_cons_self
      have ih := ih fun b hb => h b (List.mem_cons_of_mem _ hb)
      cases args with
      | nil =>
          have hnil : Lexes [] [] := .done rfl
          have hsingle := Lexes.escaped ha (by simp) (by simp) hnil
          rw [List.append_nil] at hsingle
          rwa [encodeArgs, List.map_cons, List.map_nil, List.intercalate_singleton]
      | cons b args =>
          have hrest : Lexes (tab :: encodeArgs (b :: args)) (b :: args) :=
            ih.space_cons (by decide) (by decide)
          have htext : encodeArgs (a :: b :: args) =
              escapeArg a ++ tab :: encodeArgs (b :: args) := by
            rw [encodeArgs, List.map_cons, List.map_cons, List.intercalate_cons_cons,
              List.append_assoc]
            rfl
          rw [htext]
          -- the tab ends the argument and is skipped in front of the next one
          refine Lexes.escaped ha (fun c hc => ?_) (by simp [tab, blank]) hrest
          obtain rfl : tab = c := by simpa using hc
          decide

/-- **The round trip**: `process` gives back the arguments a text was made for, its own arguments
are of the kind that can be sent, and sending them again gives the same. -/
theorem process_round_trip {args : List Bytes} (h : ∀ a ∈ args, IsArg a) (s : Bytes) :
    process (encodeArgs args) = args ∧ (∀ a ∈ process s, IsArg a) ∧
      process (encodeArgs (process s)) = process s :=
  ⟨(lexes_encodeArgs h).process_eq, process_isArg s,
    (lexes_encodeArgs (process_isArg s)).process_eq⟩

/-- Backslashes in front of a blank and at the end, and a leading blank. -/
theorem process_round_trip_backslashes :
    process (encodeArgs [text "a\\ b\\", text " c", text "\\"]) =
        [text "a\\ b\\", text " c", text "\\"] ∧
      (∀ a ∈ process (text "x\\ y z"), IsArg a) ∧
      process (encodeArgs (process (text "x\\ y z"))) = process (text "x\\ y z") :=
  process_round_trip (by simp only [isArg_iff]; decide +kernel) (text "x\\ y z")

/-! ## The copy for `std::string` -/

/-- The two scans of one argument read the same. -/
theorem scanArgStr_eq (p : Bytes) : ∀ spaceArg seg,
    scanArgStr p spaceArg seg = scanArg p spaceArg seg := by
  induction p using scan_induction with
  | nil => exact fun _ _ => rfl
  | ends c p hc => cases p <;> simp [scanArgStr, scanArg, hc]
  | last c hc => simp [scanArgStr, scanArg, hc]
  | escape p ih =>
      simpa [scanArgStr, scanArg, show endsArg backslash = false from rfl] using fun s t =>
        ih (s ++ t) [blank]
  | step c d p hc hne ih =>
      intro spaceArg seg
      simpa [scanArgStr, scanArg, hc, hne] using ih spaceArg (seg ++ [c])

/-- **What a round does**: it ends at the end of the string, else it decodes one argument. -/
theorem roundStr_eq (p : Bytes) :
    roundStr p = if skipSpacesStr p = [] then none else some (decodeArg (skipSpacesStr p)) := by
  obtain ⟨harg, hrest⟩ := scanArg_eq (skipSpacesStr p) [] []
  unfold roundStr
  dsimp only
  split
  · rfl
  · rw [scanArgStr_eq]
    simp only [List.nil_append] at harg
    by_cases hspace : (scanArg (skipSpacesStr p) [] []).1 = []
    · rw [hspace, List.nil_append] at harg
      rw [if_pos hspace, hrest, harg]
    · rw [if_neg hspace, hrest, harg]

/-- The scan of an argument stops inside the text. -/
theorem decodeArg_suffix (p : Bytes) : (decodeArg p).2 <:+ p := by
  induction p using scan_induction with
  | nil => exact List.suffix_refl _
  | ends c p hc => simp [decodeArg_ends hc]
  | last c hc =>
      rw [decodeArg_last hc]
      exact List.nil_suffix
  | escape p ih =>
      rw [decodeArg_escape]
      exact (ih.trans (List.suffix_cons _ _)).trans (List.suffix_cons _ _)
  | step c d p hc hne ih =>
      rw [decodeArg_step hc hne]
      exact ih.trans (List.suffix_cons _ _)

/-- Without NUL the end of the string is the only end. -/
theorem skipSpacesStr_eq {p : Bytes} (hp : (0 : UInt8) ∉ p) : skipSpacesStr p = skipSpaces p := by
  unfold skipSpacesStr skipSpaces
  induction p with
  | nil => rfl
  | cons c p ih =>
      have hc : c ≠ 0 := fun h0 => hp (h0 ▸ List.mem_cons_self)
      rw [List.dropWhile_cons, List.dropWhile_cons, ih fun h0 => hp (List.mem_cons_of_mem _ h0)]
      simp [hc]

/-- Without NUL the end of the text is the one place where skipping meets a zero. -/
theorem skipSpaces_eq_nil_iff {p : Bytes} (hp : (0 : UInt8) ∉ p) :
    skipSpaces p = [] ↔ (skipSpaces p).headD 0 = 0 := by
  have hsuffix : skipSpaces p <:+ p := List.dropWhile_suffix _
  cases hq : skipSpaces p with
  | nil => exact iff_of_true rfl rfl
  | cons c q =>
      have hmem : c ∈ p := hsuffix.mem (by rw [hq]; exact List.mem_cons_self)
      exact iff_of_false (List.cons_ne_nil c q) fun h0 => hp ((show c = 0 from h0) ▸ hmem)

/-- A round on a text without NUL. -/
theorem roundStr_of_nul {p : Bytes} (hp : (0 : UInt8) ∉ p) :
    roundStr p = if (skipSpaces p).headD 0 = 0 then none else some (decodeArg (skipSpaces p)) := by
  rw [roundStr_eq, skipSpacesStr_eq hp]
  simp only [skipSpaces_eq_nil_iff hp]

/-- A round leaves no NUL where none was. -/
theorem nul_notMem_round {p : Bytes} (hp : (0 : UInt8) ∉ p) :
    (0 : UInt8) ∉ (decodeArg (skipSpaces p)).2 := fun h0 =>
  hp ((List.dropWhile_suffix _).mem ((decodeArg_suffix _).mem h0))

/-- **The two outer loops** do the same rounds on a text without NUL. -/
theorem processStringLoop_eq (fuel : ℕ) {p : Bytes} (hp : (0 : UInt8) ∉ p) (as : List Bytes) :
    processStringLoop fuel p as = processLoop fuel p as := by
  induction fuel generalizing p as with
  | zero => rfl
  | succ fuel ih =>
      rw [processStringLoop, processLoop_succ, roundStr_of_nul hp]
      split_ifs with hdone
      · rfl
      · exact ih (nul_notMem_round hp) _

/-! ## Agreement -/

/-- Bytes behind the NUL do not take part in skipping. -/
theorem skipSpaces_nul (s mem : Bytes) : skipSpaces (s ++ 0 :: mem) = skipSpaces s ++ 0 :: mem := by
  unfold skipSpaces
  induction s with
  | nil => exact List.dropWhile_cons_of_neg (by simp)
  | cons c s ih =>
      rw [List.cons_append, List.dropWhile_cons, List.dropWhile_cons, ih]
      split <;> rfl

/-- Nor in reading an argument. -/
theorem decodeArg_nul (s mem : Bytes) :
    decodeArg (s ++ 0 :: mem) = ((decodeArg s).1, (decodeArg s).2 ++ 0 :: mem) := by
  induction s using scan_induction with
  | nil => exact decodeArg_ends (by decide) mem
  | ends c p hc => rw [List.cons_append, decodeArg_ends hc, decodeArg_ends hc, List.cons_append]
  | last c hc =>
      -- behind the last byte comes the NUL, which is no blank
      have hne : ¬(c = backslash ∧ (0 : UInt8) = blank) := fun h => absurd h.2 (by decide)
      show decodeArg (c :: 0 :: mem) = _
      rw [decodeArg_step hc hne, decodeArg_ends (by decide), decodeArg_last hc]
      rfl
  | escape p ih =>
      show decodeArg (backslash :: blank :: (p ++ 0 :: mem)) = _
      rw [decodeArg_escape, decodeArg_escape, ih]
  | step c d p hc hne ih =>
      show decodeArg (c :: d :: (p ++ 0 :: mem)) = _
      rw [decodeArg_step hc hne, decodeArg_step hc hne]
      rw [List.cons_append] at ih
      rw [ih]

/-- What lies behind the terminating NUL of a C string is never read. -/
theorem Lexes.nul {s : Bytes} {as : List Bytes} (h : Lexes s as) (mem : Bytes) :
    Lexes (s ++ 0 :: mem) as := by
  induction h with
  | @done s h =>
      refine .done ?_
      rw [skipSpaces_nul]
      cases hq : skipSpaces s with
      | nil => rfl
      | cons c q => rwa [hq] at h
  | @arg s as h _ ih =>
      obtain ⟨c, p, hs, hc, -⟩ := skipSpaces_head h
      have hskip := skipSpaces_nul s mem
      have hdec := decodeArg_nul (skipSpaces s) mem
      have hne : (skipSpaces (s ++ 0 :: mem)).headD 0 ≠ 0 := by
        rw [hskip, hs]
        exact hc
      have harg := Lexes.arg hne (by rw [hskip, hdec]; exact ih)
      rwa [hskip, hdec] at harg

/-- With fuel for every byte the loop ends, with what `process` says. -/
theorem processLoop_eq (s : Bytes) : processLoop (s.length + 1) s [] = some (process s) := by
  obtain ⟨bs, hloop, -⟩ := processLoop_lexes (s.length + 1) s [] (Nat.lt_succ_self _)
  rw [process, hloop]
  rfl

/-- **The tokenizers agree** on strings without NUL, whatever the two objects held and whatever
lies behind the NUL of `c_str()`. -/
theorem tokenizers_agree (a a' : ArgT) {s : Bytes} (hs : (0 : UInt8) ∉ s) (mem : Bytes) :
    ∃ r, a.processCString (some (s ++ 0 :: mem)) = some r ∧ a'.processString s = some r := by
  have hprocess : process (s ++ 0 :: mem) = process s := ((process_lexes s).nul mem).process_eq
  refine ⟨{ args := process s }, ?_, ?_⟩
  · unfold processCString
    dsimp only [reset]
    rw [processLoop_eq, hprocess]
    rfl
  · unfold processString
    dsimp only [reset]
    split_ifs with hnil
    · subst hnil
      rfl
    · rw [processStringLoop_eq _ hs, processLoop_eq]
      rfl

/-- A string that ends in a backslash, with blanks to be kept and blanks to be skipped. -/
theorem tokenizers_agree_escapes :
    ∃ r, ArgT.processCString { args := [text "old"] } (some (text " a\\ b c\\" ++ 0 :: text "x")) =
        some r ∧
      ArgT.processString {} (text " a\\ b c\\") = some r :=
  tokenizers_agree { args := [text "old"] } {} (by decide +kernel) (text "x")

/-! ## Termination -/

/-- One round of the outer loop leads from `p` to `p'`. -/
def RoundTo (p p' : Bytes) : Prop := ∃ arg, roundStr p = some (arg, p')

/-- A text with a NUL has a round, and that leaves the NUL to be read. -/
theorem roundStr_nul {p : Bytes} (hp : (0 : UInt8) ∈ p) :
    ∃ arg p', roundStr p = some (arg, p') ∧ (0 : UInt8) ∈ p' := by
  have hskip : (0 : UInt8) ∈ skipSpacesStr p := by
    unfold skipSpacesStr
    induction p with
    | nil => exact hp
    | cons c p ih =>
        rw [List.dropWhile_cons]
        split_ifs with hc
        · refine ih ((List.mem_cons.mp hp).resolve_left ?_)
          rintro rfl
          exact absurd hc (by decide)
        · exact hp
  -- no argument contains a NUL
  have hdec : ∀ q : Bytes, (0 : UInt8) ∈ q → (0 : UInt8) ∈ (decodeArg q).2 := by
    intro q
    induction q using scan_induction with
    | nil => exact fun h => h
    | ends c p hc =>
        rw [decodeArg_ends hc]
        exact fun h => h
    | last c hc =>
        intro h
        obtain rfl := List.mem_singleton.mp h
        exact absurd hc (by decide)
    | escape p ih =>
        intro h
        rw [decodeArg_escape]
        exact ih (by simpa [backslash, blank] using h)
    | step c d p hc hne ih =>
        intro h
        rw [decodeArg_step hc hne]
        refine ih ((List.mem_cons.mp h).resolve_left ?_)
        rintro rfl
        exact absurd hc (by decide)
  rw [roundStr_eq, if_neg (List.ne_nil_of_mem hskip)]
  exact ⟨_, _, rfl, hdec _ hskip⟩

/-- With a NUL ahead the outer loop goes on for any number of rounds. -/
theorem processStringLoop_nul (fuel : ℕ) {p : Bytes} (hp : (0 : UInt8) ∈ p) (as : List Bytes) :
    processStringLoop fuel p as = none := by
  induction fuel generalizing p as with
  | zero => rfl
  | succ fuel ih =>
      -- every round leaves the NUL ahead
      obtain ⟨arg, p', hround, hp'⟩ := roundStr_nul hp
      rw [processStringLoop, hround]
      exact ih hp' _

/-- A round on a text without NUL shortens it, and leaves none. -/
theorem RoundTo.shortens {p p' : Bytes} (h : RoundTo p p') (hp : (0 : UInt8) ∉ p) :
    p'.length < p.length ∧ (0 : UInt8) ∉ p' := by
  obtain ⟨arg, hround⟩ := h
  rw [roundStr_of_nul hp] at hround
  split_ifs at hround with hdone
  obtain ⟨-, rfl⟩ := Prod.mk.inj (Option.some.inj hround)
  exact ⟨length_round_lt hdone, nul_notMem_round hp⟩

/-- **`process(const std::string&)` terminates, every round moving the position, exactly when the
string has no NUL.** -/
theorem processString_terminates_iff (s : Bytes) :
    ((∃ fuel args, processStringLoop fuel s [] = some args) ∧
        ∀ p p', Relation.ReflTransGen RoundTo s p → RoundTo p p' → p'.length < p.length) ↔
      (0 : UInt8) ∉ s := by
  constructor
  · rintro ⟨⟨fuel, args, hloop⟩, -⟩ hnul
    rw [processStringLoop_nul fuel hnul] at hloop
    cases hloop
  · intro hs
    refine ⟨⟨s.length + 1, _, by rw [processStringLoop_eq _ hs, processLoop_eq]⟩, ?_⟩
    intro p p' hreach hround
    have hp : (0 : UInt8) ∉ p := by
      clear hround
      induction hreach with
      | refl => exact hs
      | tail _ hstep ih => exact (hstep.shortens ih).2
    exact (hround.shortens hp).1

/-- The string `a`, NUL, `b`: the position stays at the NUL. -/
theorem processString_nul_loops :
    ¬((∃ fuel args, processStringLoop fuel [97, 0, 98] [] = some args) ∧
      ∀ p p', Relation.ReflTransGen RoundTo [97, 0, 98] p → RoundTo p p' →
        p'.length < p.length) := by
  rintro ⟨⟨fuel, args, hloop⟩, -⟩
  rw [processStringLoop_nul fuel (by decide)] at hloop
  cases hloop

end AsprNet
