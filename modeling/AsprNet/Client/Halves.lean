import AsprNet.Client.Session
import AsprNet.Download

/-! # The two halves of a line

`process` sends a request, and for `ping` and `file_recv` it then waits for the reply. Between the
two the process is stopped in `read(2)`, and the rest of the system goes on. Here a line is cut
there: `beginLine` is `process` up to the first read, `finish` what follows, and `process` is one
after the other (`process_halves`).
-/

namespace AsprNet.Client

/-- The reply that the client waits for. -/
inductive Awaited
  | pong
  | file (name : Bytes)
deriving DecidableEq

/-! ## The first half -/

/-- An entry of the command table, up to the first read of its procedure. -/
structure HalfT where
  start : Io → ClientT → Except Halt (Io × ClientT × Option Awaited)
  arity : ℤ

def pingStart (io : Io) (c : ClientT) : Except Halt (Io × ClientT × Option Awaited) := do
  let (_, io, c) ← send io c (text "ping")
  return (io, c, some .pong)

/-- `get` and `set`. -/
def idleStart (io : Io) (c : ClientT) : Except Halt (Io × ClientT × Option Awaited) :=
  .ok (io, c, none)

def fileSendStart (io : Io) (c : ClientT) : Except Halt (Io × ClientT × Option Awaited) := do
  let name ← ArgT.argv c.arg 1
  let (_, io, c) ← fileSend io c name
  return (io, c, none)

def fileRecvStart (io : Io) (c : ClientT) : Except Halt (Io × ClientT × Option Awaited) := do
  let name ← ArgT.argv c.arg 1
  let commandStr ← sprintf commandStrSize (text "file_recv " ++ name)
  let (_, io, c) ← send io c commandStr
  return (io, c, some (.file name))

/-- `_s_command_table`, cut at the first reads. -/
def sHalfTable : List (Bytes × HalfT) :=
  [(text "ping", ⟨pingStart, 1⟩),
   (text "get", ⟨idleStart, 2⟩),
   (text "set", ⟨idleStart, 3⟩),
   (text "file_send", ⟨fileSendStart, 2⟩),
   (text "file_recv", ⟨fileRecvStart, 2⟩)]

/-- The arity check of `process`, as it is written. -/
def HalfT.arityErr (cmd : HalfT) (argc : ℤ) : Bool :=
  if 0 < cmd.arity then argc != cmd.arity else argc < cmd.arity

/-- `process` up to the first read. -/
def beginLine (io : Io) (c : ClientT) (line : Bytes) :
    Except Halt (Io × ClientT × Option Awaited) := do
  let c := c.parsed line
  let name ← ArgT.argv c.arg 0
  match sHalfTable.lookup name with
  | none => return (io, c, none)
  | some cmd =>
    if cmd.arityErr c.arg.length then return (io, c, none)
    else cmd.start io c

/-! ## The second half -/

/-- `process` from the first read on, when the reply `a` is awaited. -/
def Awaited.finish (io : Io) (c : ClientT) : Awaited → Except Halt (Io × ClientT)
  | .pong => do
    let (_, sock, c) ← recv io.sock c
    let (_, c) ← flush2Client c
    return ({ io with sock }, c)
  | .file name => do
    let (outputFile, files) := io.files.fopenWrite name
    let (num, sock) ← recvInteger io.sock
    let (sock, files, c) ← recvChunks recv ClientT.rBuffer outputFile num sock files c
    let _ ← Files.handle outputFile
    return ({ io with sock, files }, c)

/-- Nothing follows when no reply is awaited. -/
def finishLine (io : Io) (c : ClientT) : Option Awaited → Except Halt (Io × ClientT)
  | none => .ok (io, c)
  | some a => a.finish io c

/-- The procedure of a command is its two halves. -/
def Halves (proc : CommandProc)
    (start : Io → ClientT → Except Halt (Io × ClientT × Option Awaited)) :
    Prop :=
  ∀ io c, (proc io c >>= fun r => Except.ok r.2) =
    start io c >>= fun r => finishLine r.1 r.2.1 r.2.2

/-- `ping_command` sends, then awaits the pong. -/
theorem pingCommand_halves : Halves pingCommand pingStart := by
  intro io c
  simp only [pingCommand, pingStart, bind_assoc]
  refine bind_congr fun r => ?_
  rfl

/-- A line without a command does nothing in either half. -/
theorem idle_halves : Halves (fun io c => .ok (0, io, c)) idleStart := fun _ _ => rfl

/-- `file_send_command` sends, and awaits nothing. -/
theorem fileSendCommand_halves : Halves fileSendCommand fileSendStart := by
  intro io c
  simp only [fileSendCommand, fileCommand, fileSendStart, bind_assoc]
  rfl

/-- `file_recv_command` sends the name, then awaits the file. -/
theorem fileRecvCommand_halves : Halves fileRecvCommand fileRecvStart := by
  intro io c
  simp only [fileRecvCommand, fileCommand, fileRecv, fileRecvStart, bind_assoc]
  rfl

/-- The arity check comes before both. -/
theorem Halves.checked {proc : CommandProc}
    {start : Io → ClientT → Except Halt (Io × ClientT × Option Awaited)} (h : Halves proc start)
    (err : Bool) (io : Io) (c : ClientT) :
    ((if err then Except.ok (-1, io, c) else proc io c) >>= fun r => Except.ok r.2) =
      (if err then Except.ok (io, c, none) else start io c) >>=
        fun r => finishLine r.1 r.2.1 r.2.2 := by
  cases err with
  | true => rfl
  | false => exact h io c

/-- **A line is its two halves, one after the other.** -/
theorem process_halves (io : Io) (c : ClientT) (line : Bytes) :
    (process sCommandTable io c line >>= fun r => Except.ok r.2) =
      beginLine io c line >>= fun r => finishLine r.1 r.2.1 r.2.2 := by
  rw [process, beginLine, bind_assoc, bind_assoc]
  refine bind_congr fun name => ?_
  simp only [sCommandTable, sHalfTable, List.lookup_cons, List.lookup_nil]
  cases name == text "ping" with
  | true => exact pingCommand_halves.checked _ io (c.parsed line)
  | false =>
  cases name == text "get" with
  | true => exact idle_halves.checked _ io (c.parsed line)
  | false =>
  cases name == text "set" with
  | true => exact idle_halves.checked _ io (c.parsed line)
  | false =>
  cases name == text "file_send" with
  | true => exact fileSendCommand_halves.checked _ io (c.parsed line)
  | false =>
  cases name == text "file_recv" with
  | true => exact fileRecvCommand_halves.checked _ io (c.parsed line)
  | false => rfl

/-! ## What a line asks for -/

/-- What the client waits for behind a request. -/
def Sending.awaits : Sending → Option Awaited
  | .ping => some .pong
  | .fileSend _ _ => none
  | .fileRecv name => some (.file name)

/-- The request that a line is. -/
def requestOf (files : Files) (line : Bytes) : Option Sending :=
  match ArgT.process line with
  | [cmd] => if cmd = text "ping" then some .ping else none
  | [cmd, name] =>
    if cmd = text "file_send" then some (.fileSend name (files.bytes name))
    else if cmd = text "file_recv" then some (.fileRecv name)
    else none
  | _ => none

/-- A command of the table, started on `args`. -/
theorem start_eq {io : Io} {c : ClientT} {cmd : HalfT} (hpos : 0 < cmd.arity) (args : List Bytes) :
    (if cmd.arityErr args.length then pure (io, c, none) else cmd.start io c) =
      if (args.length : ℤ) = cmd.arity then cmd.start io c else .ok (io, c, none) := by
  by_cases hlen : (args.length : ℤ) = cmd.arity
  · rw [if_pos hlen, if_neg (by simp [HalfT.arityErr, hpos, hlen])]
  · rw [if_neg hlen, if_pos (by simp [HalfT.arityErr, hpos, hlen])]
    rfl

/-- **What a line starts** is decided by its request. -/
theorem beginLine_eq (io : Io) (c : ClientT) (line : Bytes) (hne : ArgT.process line ≠ []) :
    beginLine io c line =
      match requestOf io.files line with
      | none => .ok (io, c.parsed line, none)
      | some .ping => pingStart io (c.parsed line)
      | some (.fileSend _ _) => fileSendStart io (c.parsed line)
      | some (.fileRecv _) => fileRecvStart io (c.parsed line) := by
  have harg : (c.parsed line).arg = ArgT.process line := rfl
  rw [beginLine, requestOf, harg]
  generalize ArgT.process line = args at hne
  obtain _ | ⟨cmd, args⟩ := args
  · exact absurd rfl hne
  have hargv : ArgT.argv (cmd :: args) 0 = .ok cmd := rfl
  rw [hargv, ok_bind]
  -- `get` and `set` do nothing, whatever their arguments are
  have hidle : ∀ n : ℤ, (if ((cmd :: args).length : ℤ) = n then idleStart io (c.parsed line)
      else Except.ok (io, c.parsed line, none)) = .ok (io, c.parsed line, none) :=
    fun n => ite_self _
  by_cases hping : cmd = text "ping"
  · subst hping
    rw [show sHalfTable.lookup (text "ping") = some ⟨pingStart, 1⟩ by rfl]
    dsimp only
    rw [start_eq (by decide)]
    rcases args with _ | ⟨a, _ | ⟨b, args⟩⟩
    · rfl
    · rfl
    · rw [if_neg (by simp; omega)]
  by_cases hsend : cmd = text "file_send"
  · subst hsend
    rw [show sHalfTable.lookup (text "file_send") = some ⟨fileSendStart, 2⟩ by rfl]
    dsimp only
    rw [start_eq (by decide)]
    rcases args with _ | ⟨a, _ | ⟨b, args⟩⟩
    · rfl
    · rfl
    · rw [if_neg (by simp; omega)]
  by_cases hrecv : cmd = text "file_recv"
  · subst hrecv
    rw [show sHalfTable.lookup (text "file_recv") = some ⟨fileRecvStart, 2⟩ by rfl]
    dsimp only
    rw [start_eq (by decide)]
    rcases args with _ | ⟨a, _ | ⟨b, args⟩⟩
    · rfl
    · rfl
    · rw [if_neg (by simp; omega)]
  have hnone : (match cmd :: args with
      | [cmd] => if cmd = text "ping" then some Sending.ping else none
      | [cmd, name] =>
        if cmd = text "file_send" then some (.fileSend name (io.files.bytes name))
        else if cmd = text "file_recv" then some (.fileRecv name)
        else none
      | _ => none) = none := by
    rcases args with _ | ⟨a, _ | ⟨b, args⟩⟩
    · exact if_neg hping
    · dsimp only
      rw [if_neg hsend, if_neg hrecv]
    · rfl
  rw [hnone]
  by_cases hget : cmd = text "get"
  · subst hget
    rw [show sHalfTable.lookup (text "get") = some ⟨idleStart, 2⟩ by rfl]
    dsimp only
    rw [start_eq (by decide), hidle]
  by_cases hset : cmd = text "set"
  · subst hset
    rw [show sHalfTable.lookup (text "set") = some ⟨idleStart, 3⟩ by rfl]
    dsimp only
    rw [start_eq (by decide), hidle]
  have hlook : sHalfTable.lookup cmd = none := by
    simp only [sHalfTable, List.lookup_cons, List.lookup_nil, beq_eq_false_iff_ne.mpr hping,
      beq_eq_false_iff_ne.mpr hget, beq_eq_false_iff_ne.mpr hset, beq_eq_false_iff_ne.mpr hsend,
      beq_eq_false_iff_ne.mpr hrecv]
  rw [hlook]
  rfl

/-! ## What the first half does -/

/-- The request can be sent: its name fits into the command, and the file is there. -/
def Sending.Fits (files : Files) : Sending → Prop
  | .ping => True
  | .fileSend name content =>
    name.length ≤ maxArgLength ∧ files.data name = some { bytes := content }
  | .fileRecv name => name.length ≤ maxArgLength

/-- The packages of the requests `qs` were sent, and nothing was read. -/
structure Begun (io io' : Io) (c c' : ClientT) (qs : List Sending) : Prop where
  sock : ∃ os, (∀ o ∈ os, o.Accepts) ∧ io'.sock = { io.sock with
    outbox := io.sock.outbox ++ (qs.flatMap Sending.packages).flatMap (frame headSize)
    writes := os }
  files : io'.files = io.files
  wSize : c'.wBuffer.size = defaultBuffSize
  rSize : c'.rBuffer.size = c.rBuffer.size
  stdout : c'.stdout = c.stdout

/-- Parsing the line counts for nothing. -/
theorem Begun.of_parsed {io io' : Io} {c c' : ClientT} {line : Bytes} {qs : List Sending}
    (h : Begun io io' (c.parsed line) c' qs) : Begun io io' c c' qs :=
  ⟨h.sock, h.files, h.wSize, h.rSize, h.stdout⟩

section Begin

variable {io : Io} {c : ClientT} {name content : Bytes}

/-- The first half of `ping_command` sends one ping. -/
theorem pingStart_begun (hs : io.sock.Willing) (hc : c.wBuffer.size = defaultBuffSize)
    (hlist : c.bufferList = []) :
    ∃ io' c', pingStart io c = .ok (io', c', some .pong) ∧ Begun io io' c c' [.ping] := by
  obtain ⟨r, os, w, hos, hw, hsend⟩ := send_wire (text "ping") hs hc hlist (by decide)
  rw [pingStart, hsend, ok_bind]
  exact ⟨_, _, rfl, ⟨os, hos, by simp [Sending.packages]⟩, rfl, hw, rfl, rfl⟩

/-- The first half of `file_send_command` sends the name and the packages of the file. -/
theorem fileSendStart_begun (hs : io.sock.Willing) (hc : c.wBuffer.size = defaultBuffSize)
    (harg : c.arg = [text "file_send", name])
    (hfit : (Sending.fileSend name content).Fits io.files) :
    ∃ io' c', fileSendStart io c = .ok (io', c', none) ∧
      Begun io io' c c' [.fileSend name content] := by
  obtain ⟨hlen, hfile⟩ := hfit
  obtain ⟨os, r, io', w, hos, hw, hsend, hfiles, hsock⟩ := fileSend_wire hs hc hlen hfile
  have hargv : ArgT.argv c.arg 1 = .ok name := by rw [harg]; rfl
  rw [fileSendStart, hargv, ok_bind, hsend, ok_bind]
  exact ⟨_, _, rfl, ⟨os, hos, by rw [hsock]; simp [Sending.packages]⟩, hfiles, hw, rfl, rfl⟩

/-- The first half of `file_recv_command` sends the name. -/
theorem fileRecvStart_begun (hs : io.sock.Willing) (hc : c.wBuffer.size = defaultBuffSize)
    (hlist : c.bufferList = []) (harg : c.arg = [text "file_recv", name])
    (hlen : name.length ≤ maxArgLength) :
    ∃ io' c', fileRecvStart io c = .ok (io', c', some (.file name)) ∧
      Begun io io' c c' [.fileRecv name] := by
  have hname : IsFileCommand (text "file_recv") := Or.inr rfl
  have hmax : name.length ≤ 1005 := hlen
  obtain ⟨r, os, w, hos, hw, hsend⟩ := send_wire (commandText (text "file_recv") name) hs hc
    hlist (by rw [length_commandText hname name, headSize, defaultBuffSize]; omega)
  have hargv : ArgT.argv c.arg 1 = .ok name := by rw [harg]; rfl
  rw [fileRecvStart, hargv, ok_bind, commandText_fileRecv,
    (commandText_packs hc (io.junk 0) hname hlen).1, ok_bind, hsend, ok_bind]
  exact ⟨_, _, rfl, ⟨os, hos, by simp [Sending.packages]⟩, rfl, hw, rfl, rfl⟩

end Begin

/-- The arguments behind a request. -/
theorem requestOf_args {files : Files} {line : Bytes} :
    (requestOf files line = some .ping → ArgT.process line = [text "ping"]) ∧
      (∀ name content, requestOf files line = some (.fileSend name content) →
        ArgT.process line = [text "file_send", name] ∧ content = files.bytes name) ∧
      ∀ name, requestOf files line = some (.fileRecv name) →
        ArgT.process line = [text "file_recv", name] := by
  rw [requestOf]
  generalize ArgT.process line = args
  rcases args with _ | ⟨cmd, _ | ⟨a, _ | ⟨b, args⟩⟩⟩
  · simp
  · dsimp only
    split_ifs with hping
    · simp [hping]
    · simp
  · dsimp only
    split_ifs with hsend hrecv
    · simp [hsend]
    · simp [hrecv]
    · simp
  · simp

/-- **The first half of a line** sends its request. -/
theorem beginLine_begun {io : Io} {c : ClientT} {line : Bytes} (hs : io.sock.Willing)
    (hc : c.wBuffer.size = defaultBuffSize) (hne : ArgT.process line ≠ [])
    (hfit : ∀ q ∈ requestOf io.files line, q.Fits io.files) :
    ∃ io' c', beginLine io c line =
        .ok (io', c', (requestOf io.files line).bind Sending.awaits) ∧
      Begun io io' c c' (requestOf io.files line).toList := by
  rw [beginLine_eq io c line hne]
  cases hq : requestOf io.files line with
  | none =>
      exact ⟨_, _, rfl, ⟨io.sock.writes, hs, by simp⟩, rfl, hc, rfl, rfl⟩
  | some q =>
      have hfit := hfit q hq
      cases q with
      | ping =>
          obtain ⟨io', c', hrun, hbegun⟩ := pingStart_begun (c := c.parsed line) hs hc rfl
          exact ⟨io', c', hrun, hbegun.of_parsed⟩
      | fileSend name content =>
          obtain ⟨io', c', hrun, hbegun⟩ := fileSendStart_begun (c := c.parsed line) hs hc
            (requestOf_args.2.1 _ _ hq).1 hfit
          exact ⟨io', c', hrun, hbegun.of_parsed⟩
      | fileRecv name =>
          obtain ⟨io', c', hrun, hbegun⟩ := fileRecvStart_begun (c := c.parsed line) hs hc rfl
            (requestOf_args.2.2 _ hq) hfit
          exact ⟨io', c', hrun, hbegun.of_parsed⟩

/-- A first half that returns could be sent. -/
theorem beginLine_fits {io : Io} {c : ClientT} {line : Bytes}
    (hc : c.wBuffer.size = defaultBuffSize) {r : Io × ClientT × Option Awaited}
    (h : beginLine io c line = .ok r) :
    ArgT.process line ≠ [] ∧ ∀ q ∈ requestOf io.files line, q.Fits io.files := by
  have hne : ArgT.process line ≠ [] := by
    intro hnil
    have hargv : ArgT.argv (c.parsed line).arg 0 = .error .noArgument := by
      rw [show (c.parsed line).arg = [] from hnil]
      rfl
    rw [beginLine, hargv, error_bind] at h
    cases h
  refine ⟨hne, fun q hq => ?_⟩
  rw [beginLine_eq io c line hne, Option.mem_def.mp hq] at h
  cases q with
  | ping => trivial
  | fileSend name content =>
      obtain ⟨hargs, hcontent⟩ := requestOf_args.2.1 name content hq
      have hargv : ArgT.argv (c.parsed line).arg 1 = .ok name := by
        rw [show (c.parsed line).arg = _ from hargs]
        rfl
      simp only [fileSendStart, hargv, ok_bind, bind_eq_ok] at h
      obtain ⟨⟨r₁, io₁, c₁⟩, hsend, -⟩ := h
      obtain ⟨hlen, content', hfile⟩ := fileSend_reads (c := c.parsed line) hc hsend
      refine ⟨hlen, ?_⟩
      rw [hcontent, Files.bytes, hfile]
      rfl
  | fileRecv name =>
      have hargs := requestOf_args.2.2 name hq
      have hargv : ArgT.argv (c.parsed line).arg 1 = .ok name := by
        rw [show (c.parsed line).arg = _ from hargs]
        rfl
      simp only [fileRecvStart, commandText_fileRecv, hargv, ok_bind, bind_eq_ok] at h
      obtain ⟨str, hprint, ⟨r₁, io₁, c₁⟩, hsend, -⟩ := h
      simp only [send, bind_eq_ok] at hsend
      obtain ⟨w, hwrite, -⟩ := hsend
      exact length_le_of_commandPackage (w := c.wBuffer) hc (io.junk 0) (Or.inr rfl)
        (by rw [commandPackage, hprint, ok_bind]; exact hwrite)

/-! ## What the second half does -/

namespace Awaited

/-- The packages of the reply `b`. -/
def packages : Awaited → Bytes → List Bytes
  | .pong, b => [b]
  | .file _, content => filePackages content

/-- What the client prints on the reply `b`. -/
def printed : Awaited → Bytes → Bytes
  | .pong, b => b ++ [10]
  | .file _, _ => []

/-- The client's files after the reply `b`. -/
def stored (files : Files) : Awaited → Bytes → Files
  | .pong, _ => files
  | .file name, content => files.put name content

/-- `b` is a reply to what is awaited: `pong.`, or a file with an `off_t` size. -/
def Takes : Awaited → Bytes → Prop
  | .pong, b => b = text "pong."
  | .file _, content => content.length < 2 ^ 63

/-- The file that the reply goes to can be written. -/
def Opens (files : Files) : Awaited → Prop
  | .pong => True
  | .file name => files.canWrite name = true

end Awaited

/-- The reply `b` to `a` was taken off the stream. -/
structure Finished (io io' : Io) (c c' : ClientT) (a : Awaited) (b rest : Bytes) : Prop where
  inbox : io'.sock.inbox = rest
  output : SameOutput io.sock io'.sock
  steady : io'.sock.Steady
  files : io'.files = a.stored io.files b
  wBuffer : c'.wBuffer = c.wBuffer
  rSize : c'.rBuffer.size = defaultBuffSize
  stdout : c'.stdout = c.stdout ++ a.printed b

section Finish

variable {io : Io} {c : ClientT} {rest : Bytes}

/-- With the pong in the inbox the second half of `ping_command` returns and prints it. -/
theorem finish_pong (hsteady : io.sock.Steady) (hr : c.rBuffer.size = defaultBuffSize)
    (hin : io.sock.inbox = frame headSize (text "pong.") ++ rest) :
    ∃ io' c', Awaited.pong.finish io c = .ok (io', c') ∧
      Finished io io' c c' .pong (text "pong.") rest := by
  obtain ⟨s', c', hrecv, hin', hgood, hsize, hbuf⟩ := recv_receives 0 io.sock c (text "pong.") rest
    ⟨hsteady, hr⟩ hin (by decide)
  obtain ⟨hsame, b, rfl⟩ := recv_frame hrecv
  have htext : (b.buff.take (text "pong.").length).takeWhile (· ≠ 0) = text "pong." := by
    rw [hbuf]
    decide
  refine ⟨{ io with sock := s' },
    { c with rBuffer := b, stdout := c.stdout ++ (text "pong." ++ [10]) }, ?_,
    ⟨hin', hsame, hgood.steady, rfl, rfl, hgood.size, rfl⟩⟩
  rw [Awaited.finish, hrecv, ok_bind]
  dsimp only
  rw [flush2Client, hsize, ok_bind]
  dsimp only
  rw [htext]
  rfl

/-- With the packages of a file in the inbox the second half of `file_recv_command` returns and
stores it. -/
theorem finish_file {name content : Bytes} (hsteady : io.sock.Steady)
    (hr : c.rBuffer.size = defaultBuffSize) (hopen : io.files.canWrite name = true)
    (hsize : content.length < 2 ^ 63)
    (hin : io.sock.inbox = (filePackages content).flatMap (frame headSize) ++ rest) :
    ∃ io' c', (Awaited.file name).finish io c = .ok (io', c') ∧
      Finished io io' c c' (.file name) content rest := by
  have hcount : content.length / chunkSize + 1 < 2 ^ 64 := by
    have := Nat.div_le_self content.length chunkSize
    omega
  rw [filePackages, List.flatMap_cons, List.append_assoc] at hin
  obtain ⟨os, hos, hnum⟩ := recvInteger_frame hsteady hcount hin
  obtain ⟨s', c', hloop, hin', hgood⟩ := recvChunks_spec recv_receives (chunks chunkSize content)
    (k := 0) (s := { io.sock with
      inbox := (chunks chunkSize content).flatMap (frame headSize) ++ rest
      anetReads := os
      heads := io.sock.heads.tail })
    (c := c) io.files name [] ⟨hos, hr⟩ rfl (fun p hp => length_le_of_mem_chunks hp)
    (ne_nil_of_mem_dropLast_chunks (by decide) content)
  rw [length_chunks, List.nil_append, flatten_chunks (by decide)] at hloop
  obtain ⟨hsame, b, rfl⟩ := recvChunks_frame _ hloop
  refine ⟨{ io with sock := s', files := io.files.put name content }, { c with rBuffer := b }, ?_,
    ⟨hin', ⟨hsame.outbox, hsame.writes⟩, hgood.steady, rfl, rfl, hgood.size,
      (List.append_nil _).symm⟩⟩
  rw [Awaited.finish]
  simp only [Files.fopenWrite, hopen, if_true, hnum, ok_bind, hloop, Files.handle]
  rfl

/-- **The second half of a line** takes the reply off the stream. -/
theorem finish_finished {a : Awaited} {b : Bytes} (hsteady : io.sock.Steady)
    (hr : c.rBuffer.size = defaultBuffSize) (ha : a.Takes b) (hopen : a.Opens io.files)
    (hin : io.sock.inbox = (a.packages b).flatMap (frame headSize) ++ rest) :
    ∃ io' c', a.finish io c = .ok (io', c') ∧ Finished io io' c c' a b rest := by
  cases a with
  | pong =>
      obtain rfl : b = text "pong." := ha
      rw [Awaited.packages, List.flatMap_singleton] at hin
      exact finish_pong hsteady hr hin
  | file name => exact finish_file hsteady hr hopen ha hin

/-- Without a reply, `read(2)` waits. -/
theorem anetReadHead_blocked {s : Sock} (hs : s.Steady) (hin : s.inbox = []) :
    s.anetReadHead = .error .blocked := by
  have ho : (s.anetReads.headD .full).IsData := by
    cases h : s.anetReads with
    | nil => exact ⟨by decide, by decide⟩
    | cons o os => exact hs o (by rw [h]; exact List.mem_cons_self)
  have hlen : s.freshHead.1.length = headSize := length_leBytes _ _
  have ht : transfer s.freshHead.2.anetReads s.freshHead.2.inbox.length (sizeT headSize) =
      (0, .blocked) := by
    show transfer s.anetReads s.inbox.length 8 = _
    rw [hin, List.length_nil]
    exact transfer_blocked ho (by decide)
  obtain ⟨rest, -, hread⟩ := anetRead_transfer s.freshHead.2 s.freshHead.1 (by decide) (by decide)
    (by rw [hlen]; decide) ht
  rw [if_neg (Nat.not_lt_zero _)] at hread
  rw [Sock.anetReadHead]
  show (anetRead s.freshHead.2 s.freshHead.1 headSize >>= _) = _
  rw [hread]
  rfl

/-- With an empty inbox every second half blocks. -/
theorem finish_blocked {a : Awaited} (hsteady : io.sock.Steady) (hin : io.sock.inbox = []) :
    a.finish io c = .error .blocked := by
  have hhead := anetReadHead_blocked hsteady hin
  cases a with
  | pong =>
      rw [Awaited.finish, recv, hhead]
      rfl
  | file name =>
      have hnum : recvInteger io.sock = .error .blocked := by
        show (io.sock.anetReadHead >>= _) = _
        rw [hhead, error_bind]
      simp only [Awaited.finish, hnum, error_bind]

/-- A second half that returns had a file to write to. -/
theorem opens_of_finish {a : Awaited} {r : Io × ClientT} (h : a.finish io c = .ok r) :
    a.Opens io.files := by
  cases a with
  | pong => trivial
  | file name =>
      rw [Awaited.Opens]
      by_contra hclosed
      simp only [Awaited.finish, Files.fopenWrite, hclosed, bind_eq_ok] at h
      obtain ⟨_, -, _, -, _, hhandle, -⟩ := h
      cases hhandle

end Finish

end AsprNet.Client
