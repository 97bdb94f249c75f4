import AsprNet.Ae.Table
import AsprNet.FileFailures
import AsprNet.Server.Connection

/-! # Accesses to the argument vector

Both dispatchers look up `argv(0)` before they look at `argc()`; behind that the arities of the
commands keep `argv(1)` in range. A text has a first argument exactly when one of its bytes is no
white space (`process_eq_nil_iff`), which decides both dispatchers (`argv_inRange_iff`).
-/

namespace AsprNet

/-! ## Texts without arguments -/

/-- The C string at the front of `t` has a byte that is no white space. -/
def HasWord (t : Bytes) : Prop := ∃ b ∈ t.takeWhile (· ≠ 0), isspace b = false

instance (t : Bytes) : Decidable (HasWord t) := inferInstanceAs (Decidable (∃ b ∈ _, _))

/-- Skipping white space stops at a byte exactly when the string has a word. By induction on the
bytes. -/
theorem skipSpaces_headD_iff (s : Bytes) : (ArgT.skipSpaces s).headD 0 ≠ 0 ↔ HasWord s := by
  unfold HasWord
  induction s with
  | nil => simp [ArgT.skipSpaces]
  | cons c p ih =>
      by_cases hc : c = 0
      · subst hc
        rw [skipSpaces_stop rfl, List.takeWhile_cons_of_neg (by simp)]
        simp
      · rw [List.takeWhile_cons_of_pos (by simpa using hc)]
        cases hs : isspace c with
        | true => rw [skipSpaces_space hc hs, ih]; simp [hs]
        | false => rw [skipSpaces_stop hs]; simp [hc, hs]

/-- **When `process` finds no argument.** -/
theorem process_eq_nil_iff (s : Bytes) : ArgT.process s = [] ↔ ¬HasWord s := by
  rw [← skipSpaces_headD_iff, not_not]
  have hlex := process_lexes s
  generalize ArgT.process s = as at hlex
  cases hlex with
  | done h => exact iff_of_true rfl h
  | arg h rest => exact iff_of_false (by simp) h

/-! ## Halts other than `argv(i)` out of range -/

/-- Every halt but an access behind the last argument. -/
def otherHalts : Set Halt := {e | e ≠ .noArgument}

instance (e : Halt) : Decidable (e ∈ otherHalts) := inferInstanceAs (Decidable (_ ≠ _))

/-- The halts of arrays and streams are none of the argument list. -/
theorem ioHalts_other : ioHalts ⊆ otherHalts := by
  rintro e he rfl
  exact absurd he (by decide)

/-- The halts of a `FILE*` are none of the argument list. -/
theorem handleHalts_other {α : Type} (file : Option α) : handleHalts file ⊆ otherHalts := by
  rintro e he rfl
  exact noArgument_notMem file he

/-- The one halt left out. -/
theorem noArgument_notMem_other : Halt.noArgument ∉ otherHalts := fun h => h rfl

/-- An argument vector of length 2 has an `argv(1)`. -/
theorem argv_of_length_two {args : List Bytes} (h : (args.length : ℤ) = 2) :
    ∃ arg, ArgT.argv args 1 = .ok arg := by
  obtain ⟨a, b, rfl⟩ := List.length_eq_two.mp (show args.length = 2 by omega)
  exact ⟨b, rfl⟩

/-- A list with an argument has `argv(0)`. -/
theorem argv_zero {args : List Bytes} (h : args ≠ []) : ∃ name, ArgT.argv args 0 = .ok name := by
  obtain ⟨a, rest, rfl⟩ := List.exists_cons_of_ne_nil h
  exact ⟨a, rfl⟩

/-! ## The server -/

namespace Server

/-- A reply fails where `write` does. -/
theorem replyText_fails (reply : String) (io : Io) (c : ClientT) :
    FailsOnly ioHalts (replyText reply io c) := by
  unfold replyText
  exact (BufferT.writePackage_fails _ _ _).bind fun w _ => .ok _

/-- **The commands of the table**, called behind the arity check. -/
theorem sCommandTable_fails {name : Bytes} {cmd : CommandT}
    (hcmd : sCommandTable.lookup name = some cmd) (io : Io) (c : ClientT)
    (harity : cmd.arityErr c.arg.length = false) : FailsOnly otherHalts (cmd.proc io c) := by
  simp only [sCommandTable, List.lookup_cons, List.lookup_nil] at hcmd
  split at hcmd
  · cases hcmd
    exact (replyText_fails _ io c).mono ioHalts_other
  split at hcmd
  · cases hcmd
    exact .ok _
  split at hcmd
  · cases hcmd
    exact .ok _
  split at hcmd
  · cases hcmd
    have hlen : (c.arg.length : ℤ) = 2 := by simpa [CommandT.arityErr] using harity
    obtain ⟨arg, harg⟩ := argv_of_length_two hlen
    exact (fileSendCommand_fails harg).mono (handleHalts_other _)
  split at hcmd
  · cases hcmd
    have hlen : (c.arg.length : ℤ) = 2 := by simpa [CommandT.arityErr] using harity
    obtain ⟨arg, harg⟩ := argv_of_length_two hlen
    exact (fileRecvCommand_fails harg).mono (handleHalts_other _)
  · cases hcmd

/-- The operations on the event table fail outside the table only. -/
theorem tableHalts_subset : {Halt.outOfBounds} ⊆ ioHalts :=
  Set.singleton_subset_iff.mpr (by decide)

/-- `add_file_event` fails only outside the table. -/
theorem addFileEvent_fails (sys : Sys) (fd : ℤ) (mask : Mask) (proc : EventProc)
    (data : ClientData) : FailsOnly ioHalts (sys.addFileEvent fd mask proc data) := by
  unfold Sys.addFileEvent
  exact ((sys.loop.addFileEvent_fails fd mask proc data).mono tableHalts_subset).bind
    fun _ _ => .ok _

/-- `del_file_event` fails only outside the table. -/
theorem delFileEvent_fails (sys : Sys) (fd : ℤ) (mask : Mask) :
    FailsOnly ioHalts (sys.delFileEvent fd mask) := by
  unfold Sys.delFileEvent
  exact ((sys.loop.delFileEvent_fails fd mask).mono tableHalts_subset).bind fun _ _ => .ok _

/-- The destructor fails where its deletions do. -/
theorem delete_fails (c : ClientT) (sys : Sys) : FailsOnly ioHalts (c.delete sys) := by
  unfold ClientT.delete
  refine .ite (fun _ => ?_) fun _ => .ok _
  exact (delFileEvent_fails _ _ _).bind fun sys₁ _ =>
    (delFileEvent_fails _ _ _).bind fun sys₂ _ => .ok _

/-- A descriptor without a stream is no fault of the argument list. -/
theorem sock_fails (sys : Sys) (fd : ℤ) : FailsOnly otherHalts (sys.sock fd) := by
  unfold Sys.sock
  cases sys.socks fd with
  | none => exact .error (by decide)
  | some s => exact .ok s

/-- **`process_command`** looks up `argv(0)` at once; behind that it stays in range. -/
theorem processCommand_ne (sys : Sys) (p : ℕ) (c : ClientT) :
    processCommand sCommandTable sys p c ≠ .error .noArgument ↔ c.arg ≠ [] := by
  constructor
  · intro h hnil
    apply h
    rw [processCommand, hnil]
    rfl
  · intro hne
    obtain ⟨name, hname⟩ := argv_zero hne
    refine FailsOnly.ne (S := otherHalts) ?_ noArgument_notMem_other
    unfold processCommand
    rw [hname, ok_bind]
    cases hlook : sCommandTable.lookup name with
    | none => exact .ok _
    | some cmd =>
        refine .ite (fun _ => .ok _) fun harity => ?_
        have hproc : ∀ sys₁ : Sys, FailsOnly otherHalts (sys₁.io c.fd >>= fun io =>
            cmd.proc io c >>= fun x => Except.ok (sys₁.putIo c.fd x.1, x.2)) := by
          intro sys₁
          refine ((sock_fails _ _).bind fun s _ => .ok _).bind fun io _ => ?_
          exact (sCommandTable_fails hlook io c (by simpa using harity)).bind fun _ _ => .ok _
        refine .ite (fun _ => ?_) fun _ => hproc sys
        exact ((addFileEvent_fails _ _ _ _ _).mono ioHalts_other).bind fun x _ => hproc x.2

/-- The text that `read_event_handler` gives to `process_input_buffer`; `none` when it does not
get there. -/
def receivedText (sys : Sys) (fd : ℤ) (c : ClientT) : Except Halt (Option Bytes) := do
  let s ← sys.sock fd
  let (_, r) ← receive s c
  match r with
  | none => return none
  | some c =>
    let t ← cString c.rBuffer.buff
    return some t

/-- The arguments of a package are those of the text. -/
theorem readPackage_arg (sys : Sys) (fd : ℤ) (c : ClientT) :
    (readPackage sys fd c).map (fun x => x.2.map ClientT.arg) =
      (receivedText sys fd c).map (Option.map ArgT.process) := by
  unfold readPackage receivedText
  cases sys.sock fd with
  | error e => rfl
  | ok s =>
      rw [ok_bind, ok_bind]
      cases receive s c with
      | error e => rfl
      | ok x =>
          obtain ⟨s', r⟩ := x
          cases r with
          | none => rfl
          | some c' =>
              rw [ok_bind, ok_bind]
              dsimp only
              unfold processInputBuffer
              cases cString c'.rBuffer.buff <;> rfl

/-- When no package arrives, no text does. -/
theorem receivedText_of_error {sys : Sys} {fd : ℤ} {c : ClientT} {e : Halt}
    (h : readPackage sys fd c = .error e) : receivedText sys fd c = .error e := by
  have harg := readPackage_arg sys fd c
  rw [h] at harg
  cases htext : receivedText sys fd c with
  | error e' =>
      rw [htext] at harg
      obtain rfl : e = e' := Except.error.inj harg
      rfl
  | ok o =>
      rw [htext] at harg
      cases harg

/-- When a package arrives, `process` reads the arguments from its text. -/
theorem receivedText_of_ok {sys sys' : Sys} {fd : ℤ} {c : ClientT} {r : Option ClientT}
    (h : readPackage sys fd c = .ok (sys', r)) :
    ∃ o, receivedText sys fd c = .ok o ∧ o.map ArgT.process = r.map ClientT.arg := by
  have harg := readPackage_arg sys fd c
  rw [h] at harg
  cases htext : receivedText sys fd c with
  | error e =>
      rw [htext] at harg
      cases harg
  | ok o =>
      rw [htext] at harg
      exact ⟨o, rfl, (Except.ok.inj harg).symm⟩

/-- Receiving a payload fails like its `read` or the store behind it. -/
theorem receivePayload_fails (s : Sock) (c : ClientT) (n : ℕ) :
    FailsOnly ioHalts (receivePayload s c n) := by
  unfold receivePayload
  refine (Sock.read_fails _ _).bind fun x _ => ?_
  rcases x with ⟨_ | _ | ⟨b, bs⟩, s'⟩
  · exact .ok _
  · exact .ok _
  · refine (store_fails _ _ _).bind fun buff _ => ?_
    exact (store_fails _ _ _).bind fun buff' _ => .ok _

/-- Receiving a package fails where its header or its payload does. -/
theorem receive_fails (s : Sock) (c : ClientT) : FailsOnly ioHalts (receive s c) := by
  unfold receive
  refine (Sock.readHead_fails s).bind fun x _ => .ite (fun _ => .ok _) fun _ => ?_
  exact receivePayload_fails _ _ _

/-- `process_input_buffer` fails where the text of the buffer does not end. -/
theorem processInputBuffer_fails (c : ClientT) : FailsOnly ioHalts (processInputBuffer c) := by
  unfold processInputBuffer
  exact .bind (.ite (fun _ => .ok _) fun _ => .error (by decide)) fun t _ => .ok _

/-- Reading a package asks for no argument. -/
theorem readPackage_fails (sys : Sys) (fd : ℤ) (c : ClientT) :
    FailsOnly otherHalts (readPackage sys fd c) := by
  unfold readPackage
  refine (sock_fails sys fd).bind fun s _ => ((receive_fails s c).mono ioHalts_other).bind ?_
  rintro ⟨s', _ | c'⟩ -
  · exact .ok _
  · exact ((processInputBuffer_fails c').mono ioHalts_other).bind fun _ _ => .ok _

/-- **`read_event_handler`** stays in range unless it receives a text without a word. -/
theorem readEventHandler_ne (sys : Sys) (p : ℕ) (fd : ℤ) (c : ClientT) :
    readEventHandler sys p fd c ≠ .error .noArgument ↔
      ∀ t, receivedText sys fd c = .ok (some t) → HasWord t := by
  cases hread : readPackage sys fd c with
  | error e =>
      refine iff_of_true ?_ fun t ht => ?_
      · rw [readEventHandler, hread, error_bind]
        intro heq
        obtain rfl := Except.error.inj heq
        exact readPackage_fails sys fd c _ hread rfl
      · rw [receivedText_of_error hread] at ht
        cases ht
  | ok x =>
      obtain ⟨sys', r⟩ := x
      obtain ⟨o, htext, harg⟩ := receivedText_of_ok hread
      rw [htext]
      cases r with
      | none =>
          -- the client is deleted before anything is parsed
          refine iff_of_true ?_ fun t ht => ?_
          · rw [readEventHandler, hread, ok_bind]
            refine FailsOnly.ne (S := ioHalts) ?_ (by decide)
            exact (delete_fails _ _).bind fun _ _ => .ok _
          · obtain rfl := Except.ok.inj ht
            cases harg
      | some c' =>
          obtain ⟨t, rfl, hparse⟩ := Option.map_eq_some_iff.mp harg
          have hword : (∀ t', (.ok (some t) : Except Halt (Option Bytes)) = .ok (some t') →
              HasWord t') ↔ HasWord t := by
            refine ⟨fun h => h t rfl, fun h t' ht' => ?_⟩
            obtain rfl := Option.some.inj (Except.ok.inj ht')
            exact h
          -- what follows `process_command` cannot fail
          have hrun : readEventHandler sys p fd c ≠ .error .noArgument ↔
              processCommand sCommandTable sys' p c' ≠ .error .noArgument := by
            rw [readEventHandler, hread, ok_bind]
            dsimp only
            cases processCommand sCommandTable sys' p c' with
            | error e => rw [error_bind]; simp
            | ok y => exact iff_of_true (fun h => nomatch h) fun h => nomatch h
          rw [hrun, processCommand_ne, hword, ← hparse, Ne, process_eq_nil_iff, not_not]

end Server

/-! ## The client -/

namespace Client

/-- `ping_command` only replies. -/
theorem pingCommand_fails (io : Io) (c : ClientT) : FailsOnly ioHalts (pingCommand io c) := by
  unfold pingCommand
  refine (send_fails _ _ _).bind fun x _ => (recv_fails _ _).bind fun y _ => ?_
  refine .bind ?_ fun _ _ => .ok _
  unfold flush2Client
  exact (BufferT.readableSize_fails _).bind fun _ _ => .ok _

/-- **The commands of the table**, called behind the arity check. -/
theorem sCommandTable_fails {name : Bytes} {cmd : CommandT}
    (hcmd : sCommandTable.lookup name = some cmd) (io : Io) (c : ClientT)
    (harity : cmd.arityErr c.arg.length = false) : FailsOnly otherHalts (cmd.proc io c) := by
  have hfile : ∀ f, (∀ arg, FailsOnly otherHalts (f io c arg)) → (c.arg.length : ℤ) = 2 →
      FailsOnly otherHalts (fileCommand f io c) := by
    intro f hf hlen
    obtain ⟨arg, harg⟩ := argv_of_length_two hlen
    unfold fileCommand
    rw [harg, ok_bind]
    exact (hf arg).bind fun _ _ => .ok _
  simp only [sCommandTable, List.lookup_cons, List.lookup_nil] at hcmd
  split at hcmd
  · cases hcmd
    exact (pingCommand_fails io c).mono ioHalts_other
  split at hcmd
  · cases hcmd
    exact .ok _
  split at hcmd
  · cases hcmd
    exact .ok _
  split at hcmd
  · cases hcmd
    exact hfile fileSend (fun arg => (fileSend_fails io c arg).mono (handleHalts_other _))
      (by simpa [CommandT.arityErr] using harity)
  split at hcmd
  · cases hcmd
    exact hfile fileRecv (fun arg => (fileRecv_fails io c arg).mono (handleHalts_other _))
      (by simpa [CommandT.arityErr] using harity)
  · cases hcmd

/-- **`process`** stays in range unless the line has no word. -/
theorem process_ne (io : Io) (c : ClientT) (line : Bytes) :
    process sCommandTable io c line ≠ .error .noArgument ↔ HasWord line := by
  rw [← not_iff_not, not_not, ← process_eq_nil_iff]
  constructor
  · intro h
    by_contra hne
    obtain ⟨name, hname⟩ := argv_zero hne
    refine FailsOnly.ne (S := otherHalts) ?_ noArgument_notMem_other h
    unfold process
    dsimp only
    rw [hname, ok_bind]
    cases hlook : sCommandTable.lookup name with
    | none => exact .ok _
    | some cmd =>
        refine .ite (fun _ => .ok _) fun harity => ?_
        exact sCommandTable_fails hlook io _ (by simpa using harity)
  · intro hnil
    unfold process
    dsimp only
    rw [hnil]
    rfl

end Client

/-- **Dispatch stays inside the argument vector exactly for texts with a word**: whatever the
server receives, and whatever line the client reads. -/
theorem argv_inRange_iff (sys : Server.Sys) (p : ℕ) (fd : ℤ) (sc : Server.ClientT) (io : Io)
    (cc : Client.ClientT) (line : Bytes) :
    (Server.readEventHandler sys p fd sc ≠ .error .noArgument ↔
      ∀ t, Server.receivedText sys fd sc = .ok (some t) → HasWord t) ∧
    (Client.process Client.sCommandTable io cc line ≠ .error .noArgument ↔ HasWord line) :=
  ⟨Server.readEventHandler_ne sys p fd sc, Client.process_ne io cc line⟩

/-- A package that holds one blank, and an empty line: `argv(0)` with `argc() = 0`. -/
theorem blank_text_halts :
    Server.readEventHandler
        (Server.Sys.connected 5 0 { inbox := frame headSize (text " ") } Files.empty) 0 5
        (Server.ClientT.accepted 5) = .error .noArgument ∧
      Client.process Client.sCommandTable { sock := {}, files := .empty }
        (Client.ClientT.create (fun _ => 0) (fun _ => 0)) [] = .error .noArgument := by
  constructor
  · by_contra h
    have htext : Server.receivedText
        (Server.Sys.connected 5 0 { inbox := frame headSize (text " ") } Files.empty) 5
        (Server.ClientT.accepted 5) = .ok (some (text " ")) := by decide +kernel
    exact absurd ((Server.readEventHandler_ne _ _ _ _).mp h _ htext) (by decide)
  · by_contra h
    exact absurd ((Client.process_ne _ _ _).mp h) (by decide)

end AsprNet
