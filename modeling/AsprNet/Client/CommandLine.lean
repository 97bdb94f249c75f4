import AsprNet.Client.Commands
import AsprNet.Server.Connection
import Mathlib.Data.List.TakeWhile

/-! # From the command line to the server's arguments

The client takes the escapes out of an argument and sends the argument without them. The server
parses it once more, so that exactly the arguments without blanks arrive as they were
(`same_arguments_iff`); the local arrays bound their length.
-/

namespace AsprNet.Client

/-- The names of the two commands that send a file name. -/
def IsFileCommand (name : Bytes) : Prop := name = text "file_send" ∨ name = text "file_recv"

/-- The payload of the command package. -/
def commandText (name arg : Bytes) : Bytes := name ++ blank :: arg

/-- The lines of `file_send` and `file_recv` that put the command package into `_w_buffer`. -/
def commandPackage (w : BufferT) (junk : ℕ → UInt8) (name arg : Bytes) : Except Halt BufferT := do
  let commandStr ← sprintf commandStrSize (commandText name arg)
  w.writeStr junk commandStr

/-- `file_send` puts the command package into `_w_buffer`, and goes on with the file. -/
theorem fileSend_eq (io : Io) (c : ClientT) (fileName : Bytes) :
    fileSend io c fileName = do
      let w ← commandPackage c.wBuffer (io.junk 0) (text "file_send") fileName
      let io := io.allocated 1
      let file := io.files.fopenRead fileName
      let (bs, file) ← readChunks io.junk (chunkRounds file) 0 file
      let io := io.allocated bs.length
      let bn ← (BufferT.create (io.junk 0)).writeInt (io.junk 1) bs.length
      let _ ← Files.handle file
      let (n, sock, c) ← flush2Server io.sock { c with wBuffer := w, bufferList := bn :: bs }
      return (int32 n, { io.allocated 2 with sock }, c) := by
  rw [commandPackage, bind_assoc]
  rfl

/-- `file_recv` puts the command package into `_w_buffer` and sends it, and goes on with the
reply. -/
theorem fileRecv_eq (io : Io) (c : ClientT) (fileName : Bytes) :
    fileRecv io c fileName = do
      let w ← commandPackage c.wBuffer (io.junk 0) (text "file_recv") fileName
      let (_, sock, c) ← flush2Server io.sock { c with wBuffer := w }
      let io := { io.allocated 1 with sock }
      let (file, files) := io.files.fopenWrite fileName
      let (num, sock) ← recvInteger io.sock
      let (sock, files, c) ← recvChunks recv ClientT.rBuffer file num sock files c
      let _ ← Files.handle file
      return (0, { io with sock, files }, c) := by
  rw [commandPackage, fileRecv, bind_assoc]
  simp only [send, bind_assoc]
  rfl

/-- The longest argument that fits into both arrays with its command. Those of the lines that `main`
reads are shorter (`main_args_fit`). -/
def maxArgLength : ℕ := 1005

namespace IsFileCommand

variable {name : Bytes} (h : IsFileCommand name)

include h

/-- The two names have nine bytes each. -/
theorem length : name.length = 9 := by
  rcases h with rfl | rfl <;> rfl

/-- The two names are plain words. -/
theorem word : (∀ c ∈ name, endsArg c = false) ∧ (∃ c t, name = c :: t ∧ isspace c = false) ∧
    backslash ∉ name ∧ (0 : UInt8) ∉ name := by
  rcases h with rfl | rfl
  · exact ⟨by decide +kernel, ⟨102, text "ile_send", by decide +kernel, by decide⟩,
      by decide +kernel, by decide +kernel⟩
  · exact ⟨by decide +kernel, ⟨102, text "ile_recv", by decide +kernel, by decide⟩,
      by decide +kernel, by decide +kernel⟩

end IsFileCommand

/-- An argument has no NUL. -/
theorem IsArg.nul {a : Bytes} (h : IsArg a) : (0 : UInt8) ∉ a := by
  intro h0
  rcases h.bytes 0 h0 with h0 | h0 <;> exact absurd h0 (by decide)

/-- A package without NUL is its text. -/
theorem packageText_of_nul {p : Bytes} (h : (0 : UInt8) ∉ p) : Server.packageText p = p := by
  rw [Server.packageText, List.takeWhile_eq_self_iff]
  intro c hc
  simpa using fun h0 : c = 0 => h (h0 ▸ hc)

/-- The server reads the line that the client packs. -/
theorem packageText_commandText {name arg : Bytes} (hname : IsFileCommand name) (harg : IsArg arg) :
    Server.packageText (commandText name arg) = commandText name arg := by
  refine packageText_of_nul ?_
  simp only [commandText, List.mem_append, List.mem_cons, not_or]
  exact ⟨hname.word.2.2.2, by decide, IsArg.nul harg⟩

/-- The name, a blank and the argument. -/
theorem length_commandText {name : Bytes} (hname : IsFileCommand name) (arg : Bytes) :
    (commandText name arg).length = 10 + arg.length := by
  simp only [commandText, List.length_append, List.length_cons, hname.length]
  omega

/-- **A short argument** fits into both arrays with its command. -/
theorem commandText_packs {w : BufferT} (hw : w.size = defaultBuffSize) (junk : ℕ → UInt8)
    {name arg : Bytes} (hname : IsFileCommand name) (hlen : arg.length ≤ maxArgLength) :
    sprintf commandStrSize (commandText name arg) = .ok (commandText name arg) ∧
      ∃ w', w.writeStr junk (commandText name arg) = .ok w' ∧ w'.Packs (commandText name arg) ∧
        w'.size = defaultBuffSize := by
  have htext := length_commandText hname arg
  have hmax : arg.length ≤ 1005 := hlen
  have hfit : headSize + (commandText name arg).length < w.size := by
    rw [hw, htext, headSize, defaultBuffSize]
    omega
  obtain ⟨w', hwrite, hpacks, hsize⟩ := w.writePackage_packs junk hfit
  refine ⟨?_, w', hwrite, hpacks, hsize.trans hw⟩
  rw [sprintf, if_pos (by rw [htext, commandStrSize]; omega)]

/-- The package of a command whose argument is short enough holds its line. -/
theorem commandPackage_packs {w : BufferT} (hw : w.size = defaultBuffSize) (junk : ℕ → UInt8)
    {name : Bytes} (arg : Bytes) (hname : IsFileCommand name) (hlen : arg.length ≤ maxArgLength) :
    ∃ w', commandPackage w junk name arg = .ok w' ∧ w'.Packs (commandText name arg) ∧
      w'.size = defaultBuffSize := by
  obtain ⟨hprint, w', hwrite, hpacks, hsize⟩ := commandText_packs hw junk hname hlen
  exact ⟨w', by rw [commandPackage, hprint, ok_bind, hwrite], hpacks, hsize⟩

/-- **A long argument** leaves one of the two arrays. -/
theorem commandPackage_overflows {w : BufferT} (hw : w.size = defaultBuffSize) (junk : ℕ → UInt8)
    {name arg : Bytes} (hname : IsFileCommand name) (hlen : maxArgLength < arg.length) :
    commandPackage w junk name arg = .error .outOfBounds := by
  have htext := length_commandText hname arg
  have hmax : 1005 < arg.length := hlen
  rw [commandPackage, sprintf]
  split_ifs with hshort
  · rw [htext, commandStrSize] at hshort
    rw [ok_bind]
    refine w.writePackage_overflows junk ?_ ?_ ?_
    · rw [hw]
      decide
    · rw [hw, htext, headSize, defaultBuffSize]
      omega
    · rw [hw, htext, headSize, defaultBuffSize]
      omega
  · rfl

/-- A buffer packs one payload. -/
theorem Packs.unique {b : BufferT} {p q : Bytes} (hp : b.Packs p) (hq : b.Packs q) : p = q := by
  have h : frame headSize p = frame headSize q := hp.readable.symm.trans hq.readable
  have hdrop := congrArg (List.drop headSize) h
  simpa [frame, headSize, List.drop_left'] using hdrop

/-- What the server makes of a command text whose argument has no blank. -/
theorem process_commandText {name arg : Bytes} (hname : IsFileCommand name) (harg : IsArg arg)
    (hblank : blank ∉ arg) : ArgT.process (commandText name arg) = [name, arg] := by
  obtain ⟨hw, hhead, hbs, -⟩ := hname.word
  obtain ⟨hw', hhead'⟩ := harg.word hblank
  exact process_command hw hhead hbs hw' hhead'

/-- **Client and server see the same arguments exactly when the argument has no blank and fits.**
For every line that the client dispatches to `file_send` or `file_recv`. -/
theorem same_arguments_iff {line name arg : Bytes} (hline : ArgT.process line = [name, arg])
    (hname : IsFileCommand name) {w : BufferT} (hw : w.size = defaultBuffSize)
    (junk : ℕ → UInt8) :
    (∃ w' p, commandPackage w junk name arg = .ok w' ∧ w'.Packs p ∧
        ArgT.process (Server.packageText p) = ArgT.process line) ↔
      blank ∉ arg ∧ arg.length ≤ maxArgLength := by
  have harg : IsArg arg := process_isArg line arg (by rw [hline]; simp)
  constructor
  · rintro ⟨w', p, hpack, hp, hsame⟩
    have hlen : arg.length ≤ maxArgLength := by
      by_contra hlong
      rw [commandPackage_overflows hw junk hname (by omega)] at hpack
      cases hpack
    obtain ⟨w'', hpack', hp', -⟩ := commandPackage_packs hw junk arg hname hlen
    obtain rfl : w'' = w' := by
      rw [hpack'] at hpack
      exact Except.ok.inj hpack
    obtain rfl := Packs.unique hp hp'
    refine ⟨fun hblank => ?_, hlen⟩
    -- the bytes of the two arguments and the separator use up the text
    rw [packageText_commandText hname harg, hline] at hsame
    have hlex := process_lexes (commandText name arg)
    rw [hsame] at hlex
    have hcost := hlex.cost
    have hskip := length_skipSpaces (commandText name arg)
    have hcount : 0 < arg.count blank := List.count_pos_iff.mpr hblank
    rw [length_commandText hname arg] at hskip
    simp only [List.map_cons, List.map_nil, List.sum_cons, List.sum_nil, hname.length] at hcost
    omega
  · rintro ⟨hblank, hlen⟩
    obtain ⟨w', hpack, hp, -⟩ := commandPackage_packs hw junk arg hname hlen
    refine ⟨w', _, hpack, hp, ?_⟩
    rw [packageText_commandText hname harg, process_commandText hname harg hblank, hline]

/-- An argument without blanks. -/
theorem same_arguments_note :
    (∃ w' p, commandPackage (BufferT.create fun _ => 0) (fun _ => 0) (text "file_send")
          (text "client-note.txt") = .ok w' ∧ w'.Packs p ∧
        ArgT.process (Server.packageText p) =
          ArgT.process (text "  file_send\tclient-note.txt")) ↔
      blank ∉ text "client-note.txt" ∧ (text "client-note.txt").length ≤ maxArgLength :=
  same_arguments_iff (by decide +kernel) (Or.inl rfl) (size_create _) _

/-- An escaped blank reaches the server as a separator. -/
theorem same_arguments_escape :
    ArgT.process (text "file_send a\\ b") = [text "file_send", text "a b"] ∧
      ¬∃ w' p, commandPackage (BufferT.create fun _ => 0) (fun _ => 0) (text "file_send")
          (text "a b") = .ok w' ∧ w'.Packs p ∧
        ArgT.process (Server.packageText p) = ArgT.process (text "file_send a\\ b") := by
  have hname : IsFileCommand (text "file_send") := Or.inl rfl
  refine ⟨by decide +kernel, ?_⟩
  rintro ⟨w', p, hpack, hp, hsame⟩
  obtain ⟨w'', hpack', hp', -⟩ := commandPackage_packs (size_create fun _ => 0) (fun _ => 0)
    (text "a b") hname (by decide)
  obtain rfl : w'' = w' := by
    rw [hpack'] at hpack
    exact Except.ok.inj hpack
  obtain rfl := Packs.unique hp hp'
  exact absurd hsame (by decide +kernel)

end AsprNet.Client
