import AsprNet.Lib.Noted
import AsprNet.Server.Dispatch
import AsprNet.Server.Lifetime
import AsprNet.Client.Commands

/-! # Which command a dispatcher runs

The two dispatchers with a note at each call of a command procedure; forgetting the notes gives the
dispatchers back. The comment on `_arity` asks for `argc = n` where it is `+n` and for `argc >= n`
where it is `-n`. Both compare `argc` with `_arity` itself in the second case, so they keep to the
comment exactly where `argc` is large enough anyway (`dispatch_arity_iff`).
-/

namespace AsprNet

/-- The comment on `_arity`: `+n`: `argc = n`, `-n`: `argc >= n`. -/
def Satisfies (arity argc : ℤ) : Prop := if 0 < arity then argc = arity else -arity ≤ argc

instance (arity argc : ℤ) : Decidable (Satisfies arity argc) :=
  inferInstanceAs (Decidable (if 0 < arity then argc = arity else -arity ≤ argc))

/-- The command a table has for `argv(0)`. -/
def named {κ : Type} (table : List (Bytes × κ)) (args : List Bytes) : Option κ :=
  args.head?.bind (List.lookup · table)

/-- The calls that the comment asks for: the procedure of `argv(0)` once, if its arity is met. -/
def dueCalls {κ : Type} (arity : κ → ℤ) (table : List (Bytes × κ)) (args : List Bytes) : List κ :=
  match named table args with
  | none => []
  | some cmd => if Satisfies (arity cmd) args.length then [cmd] else []

/-- The arity check of both dispatchers, as it is written, agrees with the comment on a number of
arguments exactly when that is large enough for a negative arity. -/
theorem arityErr_iff (arity : ℤ) (argc : ℕ) :
    ((if 0 < arity then (argc : ℤ) != arity else (argc : ℤ) < arity) = false ↔
      Satisfies arity argc) ↔ 0 < arity ∨ -arity ≤ argc := by
  unfold Satisfies
  by_cases hpos : 0 < arity
  · rw [if_pos hpos, if_pos hpos, bne_eq_false_iff_eq]
    exact iff_of_true Iff.rfl (Or.inl hpos)
  · rw [if_neg hpos, if_neg hpos, decide_eq_false_iff_not]
    constructor
    · intro h
      exact Or.inr (h.mp (by omega))
    · rintro (h | h)
      · exact absurd h hpos
      · exact iff_of_true (by omega) h

/-- The calls that both dispatchers make. -/
def madeCalls {κ : Type} (arity : κ → ℤ) (table : List (Bytes × κ)) (args : List Bytes) : List κ :=
  match named table args with
  | none => []
  | some cmd =>
    if (if 0 < arity cmd then (args.length : ℤ) != arity cmd else args.length < arity cmd) then []
    else [cmd]

/-- Where the check misses nothing: the arity is positive, or there are enough arguments. -/
def Enough {κ : Type} (arity : κ → ℤ) (table : List (Bytes × κ)) (args : List Bytes) : Prop :=
  ∀ cmd, named table args = some cmd → 0 < arity cmd ∨ -arity cmd ≤ args.length

/-- The calls made are the calls due exactly when every command found has enough arguments. -/
theorem madeCalls_eq_iff {κ : Type} (arity : κ → ℤ) (table : List (Bytes × κ))
    (args : List Bytes) :
    madeCalls arity table args = dueCalls arity table args ↔ Enough arity table args := by
  unfold madeCalls dueCalls Enough
  cases hnamed : named table args with
  | none => exact iff_of_true rfl fun cmd h => nomatch h
  | some cmd =>
      have hcheck := arityErr_iff (arity cmd) args.length
      have hcmd : (∀ cmd', some cmd = some cmd' → 0 < arity cmd' ∨ -arity cmd' ≤ args.length) ↔
          0 < arity cmd ∨ -arity cmd ≤ args.length := by simp
      rw [hcmd, ← hcheck]
      dsimp only
      generalize (if 0 < arity cmd then (args.length : ℤ) != arity cmd
        else args.length < arity cmd) = err
      cases err <;> by_cases hsat : Satisfies (arity cmd) args.length <;> simp [hsat]

/-! ## The dispatchers with notes -/

namespace Server

/-- `process_command`, with a note of each command whose procedure it calls. -/
def notedProcessCommand (table : List (Bytes × CommandT)) (sys : Sys) (self : ℕ) (c : ClientT) :
    Noted CommandT Halt (Sys × ClientT) := do
  let name ← .silent (ArgT.argv c.arg 0)
  match table.lookup name with
  | none => return (sys, c)
  | some cmd =>
    -- `goto command_arity_err` comes before the registration
    if cmd.arityErr c.arg.length then return (sys, c)
    else
      let (_, sys) ← .silent (if cmd.reply then
          sys.addFileEvent c.fd aeWritable .writeEvent (.client self)
        else pure (aeOk, sys))
      let io ← .silent (sys.io c.fd)
      .note cmd
      let (io, c') ← .silent (cmd.proc io c)
      return (sys.putIo c.fd io, c')

/-- **Without the notes it is `process_command`.** -/
theorem result_notedProcessCommand (table : List (Bytes × CommandT)) (sys : Sys) (self : ℕ)
    (c : ClientT) :
    (notedProcessCommand table sys self c).result = processCommand table sys self c := by
  unfold notedProcessCommand processCommand
  simp only [Noted.result_bind, Noted.result_silent]
  congr 1
  funext name
  cases table.lookup name with
  | none => rfl
  | some cmd =>
      dsimp only
      split_ifs
      · rfl
      all_goals simp only [Noted.result_bind, Noted.result_silent, Noted.result_note, ok_bind,
        Noted.result_pure]; rfl

/-- What the comment on `_arity` asks of `process_command`: it makes the due calls, and without one
it leaves the client and everything else alone. -/
structure Dispatches (table : List (Bytes × CommandT)) (sys : Sys) (p : ℕ) (c : ClientT) :
    Prop where
  calls : (notedProcessCommand table sys p c).notes = dueCalls CommandT.arity table c.arg
  rejects : (notedProcessCommand table sys p c).notes = [] →
    processCommand table sys p c = .ok (sys, c)

/-- Nothing stands between the arity check of a linked client and the call. -/
theorem Linked.callable {sys : Sys} {fd : ℤ} {p : ℕ} (h : Linked sys fd p) (reply : Bool) :
    ∃ r sys' io, (if reply then sys.addFileEvent fd aeWritable .writeEvent (.client p)
        else pure (aeOk, sys)) = .ok (r, sys') ∧ sys'.io fd = .ok io := by
  obtain ⟨b, hreg⟩ := h.registered
  obtain ⟨s, hs⟩ := Option.isSome_iff_exists.mp h.isOpen
  cases reply with
  | false => exact ⟨aeOk, sys, ⟨s, sys.files, sys.junk⟩, rfl, io_eq_ok.mpr ⟨hs, rfl, rfl⟩⟩
  | true =>
      obtain ⟨r, l', hadd, -⟩ := hreg.addWritable
      refine ⟨r, { sys with loop := l' }, ⟨s, sys.files, sys.junk⟩, ?_, io_eq_ok.mpr ⟨hs, rfl, rfl⟩⟩
      rw [if_pos rfl, Sys.addFileEvent, hadd, ok_bind]
      rfl

variable {sys : Sys} {p : ℕ} {c : ClientT}

/-- **What `process_command` does for a linked client.** -/
theorem notedProcessCommand_spec (hlink : Linked sys c.fd p) (harg : c.arg ≠ [])
    (table : List (Bytes × CommandT)) :
    (notedProcessCommand table sys p c).notes = madeCalls CommandT.arity table c.arg ∧
      ((notedProcessCommand table sys p c).notes = [] →
        notedProcessCommand table sys p c = pure (sys, c)) := by
  obtain ⟨a, as, hargs⟩ := List.exists_cons_of_ne_nil harg
  have hname : ArgT.argv c.arg 0 = .ok a := by rw [hargs]; rfl
  have hnamed : named table c.arg = table.lookup a := by rw [hargs]; rfl
  unfold notedProcessCommand madeCalls
  rw [hname, Noted.silent_ok_bind, hnamed]
  cases hlook : table.lookup a with
  | none => exact ⟨rfl, fun _ => rfl⟩
  | some cmd =>
      have hcheck : (if 0 < cmd.arity then (c.arg.length : ℤ) != cmd.arity
          else c.arg.length < cmd.arity) = cmd.arityErr c.arg.length := rfl
      dsimp only
      rw [hcheck]
      cases harity : cmd.arityErr c.arg.length with
      | true => exact ⟨rfl, fun _ => rfl⟩
      | false =>
          -- the note is there whatever the procedure does
          obtain ⟨r, sys₁, io, hadd, hio⟩ := hlink.callable cmd.reply
          rw [if_neg Bool.false_ne_true, hadd, Noted.silent_ok_bind]
          dsimp only
          rw [hio, Noted.silent_ok_bind, Noted.notes_note_bind]
          refine ⟨?_, fun hnil => absurd hnil (List.cons_ne_nil _ _)⟩
          cases cmd.proc io c <;> rfl

/-- For the server, on a client whose pointer is in the table. -/
theorem dispatches_iff (hlink : Linked sys c.fd p) (harg : c.arg ≠ [])
    (table : List (Bytes × CommandT)) :
    Dispatches table sys p c ↔ Enough CommandT.arity table c.arg := by
  obtain ⟨hnotes, hnone⟩ := notedProcessCommand_spec hlink harg table
  rw [← madeCalls_eq_iff, ← hnotes]
  constructor
  · intro h
    exact h.calls
  · intro h
    refine ⟨h, fun hnil => ?_⟩
    rw [← result_notedProcessCommand, hnone hnil]
    rfl

end Server

namespace Client

/-- `process`, with a note of each command whose procedure it calls. -/
def notedProcess (table : List (Bytes × CommandT)) (io : Io) (c : ClientT) (commandStr : Bytes) :
    Noted CommandT Halt (ℤ × Io × ClientT) := do
  let c := { c with rBuffer := c.rBuffer.reset, bufferList := [], arg := ArgT.process commandStr }
  let name ← .silent (ArgT.argv c.arg 0)
  match table.lookup name with
  | none => return (-1, io, c)
  | some cmd =>
    if cmd.arityErr c.arg.length then return (-1, io, c)
    else
      .note cmd
      .silent (cmd.proc io c)

/-- **Without the notes it is `process`.** -/
theorem result_notedProcess (table : List (Bytes × CommandT)) (io : Io) (c : ClientT)
    (commandStr : Bytes) :
    (notedProcess table io c commandStr).result = process table io c commandStr := by
  unfold notedProcess process
  simp only [Noted.result_bind, Noted.result_silent]
  congr 1
  funext name
  cases table.lookup name with
  | none => rfl
  | some cmd =>
      dsimp only
      split_ifs <;> rfl

/-- What the comment on `_arity` asks of `process`: it makes the due calls, and without one it
returns `-1` and sends nothing. -/
structure Dispatches (table : List (Bytes × CommandT)) (io : Io) (c : ClientT)
    (commandStr : Bytes) : Prop where
  calls : (notedProcess table io c commandStr).notes =
    dueCalls CommandT.arity table (ArgT.process commandStr)
  rejects : (notedProcess table io c commandStr).notes = [] →
    ∃ c', process table io c commandStr = .ok (-1, io, c')

variable {line : Bytes}

/-- **What `process` does with a line.** -/
theorem notedProcess_spec (hline : ArgT.process line ≠ []) (table : List (Bytes × CommandT))
    (io : Io) (c : ClientT) :
    (notedProcess table io c line).notes =
        madeCalls CommandT.arity table (ArgT.process line) ∧
      ((notedProcess table io c line).notes = [] →
        ∃ c', notedProcess table io c line = pure (-1, io, c')) := by
  obtain ⟨a, as, hargs⟩ := List.exists_cons_of_ne_nil hline
  have hname : ArgT.argv (ArgT.process line) 0 = .ok a := by rw [hargs]; rfl
  have hnamed : named table (ArgT.process line) = table.lookup a := by rw [hargs]; rfl
  unfold notedProcess madeCalls
  dsimp only
  rw [hname, Noted.silent_ok_bind, hnamed]
  cases hlook : table.lookup a with
  | none => exact ⟨rfl, fun _ => ⟨_, rfl⟩⟩
  | some cmd =>
      have hcheck : (if 0 < cmd.arity then ((ArgT.process line).length : ℤ) != cmd.arity
          else (ArgT.process line).length < cmd.arity) =
            cmd.arityErr (ArgT.process line).length := rfl
      dsimp only
      rw [hcheck]
      cases harity : cmd.arityErr (ArgT.process line).length with
      | true => exact ⟨rfl, fun _ => ⟨_, rfl⟩⟩
      | false =>
          rw [if_neg Bool.false_ne_true, Noted.notes_note_bind]
          exact ⟨rfl, fun hnil => absurd hnil (List.cons_ne_nil _ _)⟩

/-- For the client, on a line with a word in it. -/
theorem dispatches_iff (hline : ArgT.process line ≠ []) (table : List (Bytes × CommandT))
    (io : Io) (c : ClientT) :
    Dispatches table io c line ↔ Enough CommandT.arity table (ArgT.process line) := by
  obtain ⟨hnotes, hnone⟩ := notedProcess_spec hline table io c
  rw [← madeCalls_eq_iff, ← hnotes]
  constructor
  · intro h
    exact h.calls
  · intro h
    refine ⟨h, fun hnil => ?_⟩
    obtain ⟨c', heq⟩ := hnone hnil
    refine ⟨c', ?_⟩
    rw [← result_notedProcess, heq]
    rfl

end Client

/-! ## Both dispatchers -/

/-- **The documented arity rule** holds of a call of either dispatcher exactly when the command
that `argv(0)` names has a positive arity `n`, or has `-n` and there are at least `n` arguments. -/
theorem dispatch_arity_iff {sys : Server.Sys} {p : ℕ} {sc : Server.ClientT}
    (hlink : Server.Linked sys sc.fd p) (harg : sc.arg ≠ []) {line : Bytes}
    (hline : ArgT.process line ≠ []) (serverTable : List (Bytes × Server.CommandT))
    (clientTable : List (Bytes × Client.CommandT)) (io : Io) (cc : Client.ClientT) :
    (Server.Dispatches serverTable sys p sc ↔
        Enough Server.CommandT.arity serverTable sc.arg) ∧
      (Client.Dispatches clientTable io cc line ↔
        Enough Client.CommandT.arity clientTable (ArgT.process line)) :=
  ⟨Server.dispatches_iff hlink harg serverTable, Client.dispatches_iff hline clientTable io cc⟩

/-- With positive arities there are always enough arguments. -/
theorem enough_of_pos {κ : Type} {arity : κ → ℤ} {table : List (Bytes × κ)}
    (h : ∀ e ∈ table, 0 < arity e.2) (args : List Bytes) : Enough arity table args := by
  intro cmd hnamed
  obtain ⟨name, -, hlook⟩ := Option.bind_eq_some_iff.mp hnamed
  obtain ⟨l₁, l₂, rfl, -⟩ := List.lookup_eq_some_iff.mp hlook
  exact Or.inl (h (name, cmd) (by simp))

/-- The two tables of the program have positive arities only. -/
theorem sCommandTable_enough (args : List Bytes) :
    Enough Server.CommandT.arity Server.sCommandTable args ∧
      Enough Client.CommandT.arity Client.sCommandTable args :=
  ⟨enough_of_pos (by decide) args, enough_of_pos (by decide) args⟩

/-- The system with one connection links the descriptor to its client. -/
theorem linked_connected (fd p : ℕ) (s : Sock) (files : Files) :
    Server.Linked (Server.Sys.connected fd p s files) fd p := by
  have hconn := Server.conn_connected fd p s files
  exact ⟨⟨false, hconn.serving.registered⟩, by simp [Server.Sys.connected]⟩

/-- The one command of a table is found by its name. -/
theorem named_singleton {κ : Type} (name : Bytes) (cmd : κ) (args : List Bytes) :
    named [(name, cmd)] (name :: args) = some cmd := by
  simp [named]

/-- A command of the server's own table, and a line with enough arguments for an open arity. -/
theorem dispatch_arity_ping :
    Server.Dispatches Server.sCommandTable (Server.Sys.connected 5 0 {} Files.empty) 0
        { Server.ClientT.accepted 5 with arg := [text "ping"] } ∧
      Client.Dispatches [(text "sum", ⟨Client.getCommand, -3⟩)] { sock := {}, files := .empty }
        (Client.ClientT.create (fun _ => 0) (fun _ => 0)) (text "sum 1 2") := by
  have hargs : ArgT.process (text "sum 1 2") = [text "sum", text "1", text "2"] := by
    decide +kernel
  have hboth := dispatch_arity_iff (linked_connected 5 0 {} Files.empty)
    (show ({ Server.ClientT.accepted 5 with arg := [text "ping"] } : Server.ClientT).arg ≠ [] from
      List.cons_ne_nil _ _)
    (show ArgT.process (text "sum 1 2") ≠ [] by rw [hargs]; exact List.cons_ne_nil _ _)
    Server.sCommandTable [(text "sum", ⟨Client.getCommand, -3⟩)] { sock := {}, files := .empty }
    (Client.ClientT.create (fun _ => 0) (fun _ => 0))
  refine ⟨hboth.1.mpr (sCommandTable_enough _).1, hboth.2.mpr ?_⟩
  rw [hargs]
  intro cmd hnamed
  obtain rfl := Option.some.inj ((named_singleton _ _ _).symm.trans hnamed)
  exact Or.inr (by decide)

/-- A command that asks for three arguments at least is run with its name alone. -/
theorem open_arity_unchecked :
    ¬Server.Dispatches [(text "sum", ⟨Server.getCommand, -3, false⟩)]
        (Server.Sys.connected 5 0 {} Files.empty) 0
        { Server.ClientT.accepted 5 with arg := [text "sum"] } ∧
      ¬Client.Dispatches [(text "sum", ⟨Client.getCommand, -3⟩)] { sock := {}, files := .empty }
        (Client.ClientT.create (fun _ => 0) (fun _ => 0)) (text "sum") := by
  have hargs : ArgT.process (text "sum") = [text "sum"] := by decide +kernel
  constructor
  · intro h
    have henough := (Server.dispatches_iff (linked_connected 5 0 {} Files.empty)
      (List.cons_ne_nil _ _) _).mp h
    exact absurd (henough _ (named_singleton _ _ _)) (by decide)
  · intro h
    have hline : ArgT.process (text "sum") ≠ [] := by
      rw [hargs]
      exact List.cons_ne_nil _ _
    have henough := (Client.dispatches_iff hline _ _ _).mp h
    rw [hargs] at henough
    exact absurd (henough _ (named_singleton _ _ _)) (by decide)

end AsprNet
