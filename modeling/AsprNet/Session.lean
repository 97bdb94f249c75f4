import AsprNet.Client.Session
import AsprNet.Server.Replies
import AsprNet.Upload

/-! # A whole session, seen from the server

The server takes the packages of a session one by one. It is at the front of a command package
before every readable event, as long as each `file_send` of the session is one for the server too:
then, and only then, it takes the data of an upload off the stream (`session_dispatched`).
-/

namespace AsprNet

open Client (commandText maxArgLength IsFileCommand Sending)

/-- The first argument of a command text is the command. -/
theorem process_commandText_cons {name arg : Bytes} (hname : IsFileCommand name) :
    ∃ as, ArgT.process (commandText name arg) = name :: as := by
  obtain ⟨hw, hhead, hbs, -⟩ := hname.word
  have hrest : Lexes (blank :: arg) (ArgT.process arg) :=
    (process_lexes arg).space_cons (by decide) rfl
  exact ⟨_, (Lexes.word hw hhead (by simp [endsArg]) (fun _ => hbs) hrest).process_eq⟩

/-- What the server can follow: the names are arguments that fit, and an upload is one for the
server too, of a file with an `off_t` size. -/
def Client.Sending.Followable : Sending → Prop
  | .ping => True
  | .fileSend name content => IsArg name ∧ name.length ≤ maxArgLength ∧
      (ArgT.process (commandText (text "file_send") name)).length = 2 ∧ content.length < 2 ^ 63
  | .fileRecv name => IsArg name ∧ name.length ≤ maxArgLength

namespace Server

/-- Every `fopen` succeeds, and every file can be read to its end. -/
def OpensAll (files : Files) : Prop :=
  ∀ name, files.canWrite name = true ∧ ∃ content, files.data name = some { bytes := content }

/-- A file more opens as well. -/
theorem OpensAll.put {files : Files} (h : OpensAll files) (name bytes : Bytes) :
    OpensAll (files.put name bytes) := by
  refine fun name' => ⟨(h name').1, ?_⟩
  rcases eq_or_ne name' name with rfl | hne
  · exact ⟨bytes, Files.data_put_self _ _ _⟩
  · obtain ⟨content, hdata⟩ := (h name').2
    exact ⟨content, by simpa [Files.put, Function.update_of_ne hne] using hdata⟩

/-- Between two events: what the client sent for `ss` is still to be read, whole. -/
structure Following (sys : Sys) (p : ℕ) (c : ClientT) (ss : List Sending) : Prop where
  serving : ∃ b, Serving sys p c b
  stream : ∃ s, sys.socks c.fd = some s ∧
    s.inbox = (ss.flatMap Sending.packages).flatMap (frame headSize) ∧ ReadsWhole s c
  opens : OpensAll sys.files

/-- A command with the wrong number of arguments is dropped. -/
theorem processCommand_arity {sys : Sys} {self : ℕ} {c : ClientT} {name : Bytes} {cmd : CommandT}
    (hname : ArgT.argv c.arg 0 = .ok name) (hlook : sCommandTable.lookup name = some cmd)
    (harity : cmd.arityErr c.arg.length = true) :
    processCommand sCommandTable sys self c = .ok (sys, c) := by
  rw [processCommand, hname, ok_bind, hlook]
  simp only [harity, if_true]
  rfl

namespace Following

variable {sys : Sys} {p : ℕ} {c : ClientT} {ss : List Sending}

/-- The command package at the front of the stream. -/
theorem handed {x : Sending} (h : Following sys p c (x :: ss)) {ps : List Bytes}
    (hpackages : x.packages = x.command :: ps) (hne : x.command ≠ [])
    (hlen : x.command.length < defaultBuffSize) :
    ConnEvent.readable.handed sys c = [ArgT.process (packageText x.command)] := by
  obtain ⟨s, hs, hin, hwhole⟩ := h.stream
  have hin : s.inbox = frame headSize x.command ++
      (ps.flatMap (frame headSize) ++ (ss.flatMap Sending.packages).flatMap (frame headSize)) := by
    rw [hin, List.flatMap_cons, hpackages]
    simp
  have hread := readPackage_frame hs hin hne (by rw [hwhole.size]; exact hlen)
    (by rw [hwhole.size]; decide) hwhole.headD hwhole.headD_tail
  simp [ConnEvent.handed, hread]

/-- **A request that is answered.** -/
theorem request {x : Sending} (h : Following sys p c (x :: ss))
    (hpackages : x.packages = [x.command]) {ps : List Bytes} (hq : Request sys.files x.command ps) :
    ∃ sys' c', ConnEvent.readable.handle p sys c = .ok (sys', some c') ∧
      Following sys' p c' ss := by
  obtain ⟨b, hserving⟩ := h.serving
  obtain ⟨s, hs, hin, hwhole⟩ := h.stream
  rw [List.flatMap_cons, hpackages, List.singleton_append, List.flatMap_cons] at hin
  obtain ⟨sys', c', -, hrun, hserving', hfd, hs', hfiles, -⟩ :=
    hserving.read_request hs _ hin hq hwhole.headD hwhole.headD_tail
  rw [← hfd] at hs'
  refine ⟨sys', c', hrun, ⟨true, hserving'⟩,
    ⟨_, hs', rfl, hwhole.tail_tail, hwhole.steady, hserving'.rSize⟩, ?_⟩
  rw [hfiles]
  exact h.opens

/-- **A command that is dropped.** -/
theorem dropped {x : Sending} (h : Following sys p c (x :: ss))
    (hpackages : x.packages = [x.command]) (hne : x.command ≠ [])
    (hlen : x.command.length < defaultBuffSize) {name : Bytes} {cmd : CommandT}
    (hname : ArgT.argv (ArgT.process (packageText x.command)) 0 = .ok name)
    (hlook : sCommandTable.lookup name = some cmd)
    (harity : cmd.arityErr (ArgT.process (packageText x.command)).length = true) :
    ∃ sys' c', ConnEvent.readable.handle p sys c = .ok (sys', some c') ∧
      Following sys' p c' ss := by
  obtain ⟨b, hserving⟩ := h.serving
  obtain ⟨s, hs, hin, hwhole⟩ := h.stream
  rw [List.flatMap_cons, hpackages, List.singleton_append, List.flatMap_cons] at hin
  have hfits : x.command.length < c.rBuffer.size := by
    rw [hwhole.size]
    exact hlen
  have hread := readPackage_frame hs hin hne hfits (by rw [hwhole.size]; decide) hwhole.headD
    hwhole.headD_tail
  have hsize := (size_withPackage hfits).trans hwhole.size
  generalize hs' : ({ s with
    inbox := (ss.flatMap Sending.packages).flatMap (frame headSize)
    reads := s.reads.tail.tail
    heads := s.heads.tail } : Sock) = s' at hread
  have hrun := @processCommand_arity (sys.setSock c.fd s') p (c.withPackage x.command) _ _ hname
    hlook harity
  refine ⟨sys.setSock c.fd s', c.withPackage x.command, ?_, ⟨b, ?_⟩,
    ⟨s', Function.update_self _ _ _, by rw [← hs'], ?_⟩, h.opens⟩
  · rw [ConnEvent.handle, readEventHandler, hread, ok_bind]
    dsimp only
    rw [hrun]
    rfl
  · exact ⟨⟨hserving.registered, hserving.attached, hserving.wSound, hserving.list,
      hserving.pending, hserving.idle⟩, hsize, hserving.wSize⟩
  · rw [← hs']
    exact ⟨hwhole.tail_tail, hwhole.steady, hsize⟩

/-- **An upload.** -/
theorem upload {q name content : Bytes}
    (h : Following sys p c (.fileSend q content :: ss))
    (hlen : (commandText (text "file_send") q).length < defaultBuffSize)
    (harg : ArgT.process (packageText (commandText (text "file_send") q)) =
      [text "file_send", name]) (hsize : content.length < 2 ^ 63) :
    ∃ sys' c', ConnEvent.readable.handle p sys c = .ok (sys', some c') ∧
      Following sys' p c' ss := by
  obtain ⟨b, hserving⟩ := h.serving
  obtain ⟨s, hs, hin, hwhole⟩ := h.stream
  rw [List.flatMap_cons, List.flatMap_append] at hin
  obtain ⟨sys', r, s', hrun, hloop, hfiles, hs', hrest, hwhole'⟩ :=
    @readEventHandler_upload_whole sys p c s _ name content _ (by simp [commandText, text]) hlen
      harg hsize hs hwhole (h.opens _).1 hin
  refine ⟨sys', _, hrun, ⟨b, ⟨by rw [hloop]; exact hserving.registered, hserving.attached,
    hserving.wSound, hserving.list, hserving.pending, hserving.idle⟩, hwhole'.size,
    hserving.wSize⟩, ⟨s', hs', hrest, hwhole'⟩, ?_⟩
  rw [hfiles]
  exact h.opens.put _ _

/-- **A readable event** runs the next command of the client, and leaves the stream at the front
of the one behind it. -/
theorem readable {x : Sending} (h : Following sys p c (x :: ss)) (hx : x.Followable) :
    ConnEvent.readable.handed sys c = [ArgT.process (packageText x.command)] ∧
      ∃ sys' c', ConnEvent.readable.handle p sys c = .ok (sys', some c') ∧
        Following sys' p c' ss := by
  cases x with
  | ping =>
      have harg : ArgT.process (packageText (text "ping")) = [text "ping"] := by decide +kernel
      exact ⟨h.handed rfl (by decide) (by decide),
        h.request rfl ⟨by decide, by decide, by rw [Sending.command, harg]; exact .ping⟩⟩
  | fileSend name content =>
      obtain ⟨hname, hlen, htwo, hsize⟩ := hx
      have hcmd : IsFileCommand (text "file_send") := Or.inl rfl
      have hmax : name.length ≤ 1005 := hlen
      have hfits : (commandText (text "file_send") name).length < defaultBuffSize := by
        rw [Client.length_commandText hcmd name, defaultBuffSize]
        omega
      obtain ⟨as, has⟩ := @process_commandText_cons _ name hcmd
      obtain ⟨a, rfl⟩ : ∃ a, as = [a] := by
        rw [has, List.length_cons] at htwo
        exact List.length_eq_one_iff.mp (by omega)
      exact ⟨h.handed rfl (by simp [Sending.command, commandText, text]) hfits,
        h.upload hfits (by rw [Client.packageText_commandText hcmd hname, has]) hsize⟩
  | fileRecv name =>
      obtain ⟨hname, hlen⟩ := hx
      have hcmd : IsFileCommand (text "file_recv") := Or.inr rfl
      have hmax : name.length ≤ 1005 := hlen
      have hfits : (commandText (text "file_recv") name).length < defaultBuffSize := by
        rw [Client.length_commandText hcmd name, defaultBuffSize]
        omega
      have hne : commandText (text "file_recv") name ≠ [] := by simp [commandText, text]
      obtain ⟨as, has⟩ := @process_commandText_cons _ name hcmd
      have has' : ArgT.process (packageText (commandText (text "file_recv") name)) =
          text "file_recv" :: as := by
        rw [Client.packageText_commandText hcmd hname, has]
      refine ⟨h.handed rfl hne hfits, ?_⟩
      by_cases hone : ∃ a, as = [a]
      · obtain ⟨a, rfl⟩ := hone
        obtain ⟨content, hfile⟩ := (h.opens (fileName a)).2
        exact h.request rfl ⟨hne, hfits, by rw [Sending.command, has']; exact .fileRecv hfile⟩
      · -- for the server there is more than one argument, or none
        refine h.dropped rfl hne hfits (by rw [Sending.command, has']; rfl) rfl ?_
        have hlen : as.length ≠ 1 := fun hlen => hone (List.length_eq_one_iff.mp hlen)
        rw [Sending.command, has']
        simp [CommandT.arityErr]
        omega

/-- A writable event changes nothing of what is to be read. -/
theorem writable (h : Following sys p c ss) :
    ∃ sys' c', ConnEvent.writable.handle p sys c = .ok (sys', some c') ∧
      Following sys' p c' ss := by
  obtain ⟨b, hserving⟩ := h.serving
  obtain ⟨s, hs, hin, hwhole⟩ := h.stream
  rw [ConnEvent.handle, hserving.registered.has_writable]
  cases b with
  | false => exact ⟨sys, c, rfl, h⟩
  | true =>
      obtain ⟨sys', c', s', w', hrun, hserving', hfd, hbuf, hs', hsame, hfiles⟩ :=
        hserving.write hs
      refine ⟨sys', c', by simpa using hrun, ⟨w', hserving'⟩, ⟨s', by rw [hfd]; exact hs',
        hsame.inbox.trans hin, ?_, ?_, by rw [hbuf]; exact hwhole.size⟩, ?_⟩
      · rw [hsame.reads]
        exact hwhole.reads
      · rw [Sock.Steady, hsame.anetReads]
        exact hwhole.steady
      · rw [hfiles]
        exact h.opens

end Following

/-- **Every run**: one command of the client for each readable event. -/
theorem dispatched_session (es : List ConnEvent) {sys : Sys} {p : ℕ} {c : ClientT}
    {ss : List Sending} (h : Following sys p c ss) (hss : ∀ x ∈ ss, x.Followable) :
    dispatched p es sys c =
      ((ss.map Sending.command).take (es.count .readable)).map fun q =>
        ArgT.process (packageText q) := by
  induction es generalizing sys c ss with
  | nil => rfl
  | cons e es ih =>
      rw [dispatched]
      cases e with
      | writable =>
          obtain ⟨sys', c', hrun, h'⟩ := h.writable
          rw [hrun]
          simpa [ConnEvent.handed] using ih h' hss
      | readable =>
          cases ss with
          | nil =>
              -- nothing is left to read
              obtain ⟨s, hs, hin, hwhole⟩ := h.stream
              have hread := readPackage_empty hs hin hwhole.headD
              simp [ConnEvent.handed, ConnEvent.handle, readEventHandler, hread]
          | cons x ss =>
              obtain ⟨hhanded, sys', c', hrun, h'⟩ := h.readable (hss x List.mem_cons_self)
              rw [hhanded, hrun, List.count_cons_self, List.map_cons, List.take_succ_cons,
                List.map_cons, ← ih h' fun y hy => hss y (List.mem_cons_of_mem _ hy)]
              rfl

end Server

open Server in
/-- **The server runs the commands of the client and nothing else**, when every argument that the
client gives to `file_send` is a single argument for the server, too. This holds for every order of
events and whatever becomes of the server's writes: each readable event runs the next command. -/
theorem session_dispatched {lines : List Bytes} {io io' : Io} {d d' : Client.ClientT}
    (hrun : Client.session lines io d = .ok (io', d')) (hs : io.sock.Willing)
    (hd : d.wBuffer.size = defaultBuffSize)
    (hlines : ∀ line ∈ lines, ∀ name, ArgT.process line = [text "file_send", name] →
      (ArgT.process (commandText (text "file_send") name)).length = 2) :
    ∃ ss : List Sending,
      io'.sock.outbox = io.sock.outbox ++ (ss.flatMap Sending.packages).flatMap (frame headSize) ∧
      d'.commands = d.commands ++ ss.map Sending.command ∧
      ((∀ name content, Sending.fileSend name content ∈ ss → content.length < 2 ^ 63) →
        ∀ sys p c b s, Serving sys p c b → sys.socks c.fd = some s →
          s.inbox = (ss.flatMap Sending.packages).flatMap (frame headSize) → ReadsWhole s c →
          OpensAll sys.files → ∀ es, dispatched p es sys c =
            ((ss.map Sending.command).take (es.count .readable)).map fun q =>
              ArgT.process (packageText q)) := by
  obtain ⟨ss, hfor, hsends⟩ := Client.session_wire hs hd hrun
  refine ⟨ss, hsends.outbox, hsends.commands, fun hsize sys p c b s hserving hsock hin hwhole
    hopens es => dispatched_session es ⟨⟨b, hserving⟩, ⟨s, hsock, hin, hwhole⟩, hopens⟩ ?_⟩
  intro x hx
  obtain ⟨line, hline, hfor⟩ := hfor x hx
  have harg : ∀ cmd name, ArgT.process line = [cmd, name] → IsArg name :=
    fun cmd name h => process_isArg line name (by rw [h]; simp)
  cases x with
  | ping => trivial
  | fileSend name content =>
      exact ⟨harg _ _ hfor.1, hfor.2, hlines line hline name hfor.1, hsize name content hx⟩
  | fileRecv name => exact ⟨harg _ _ hfor.1, hfor.2⟩

/-- A session with one upload. -/
theorem session_dispatched_note :
    ∃ io' d', Client.session [text "file_send client-a", text "get a"]
        { sock := {}, files := Files.empty.put (text "client-a") (text "hi") }
        (Client.ClientT.create (fun _ => 0) (fun _ => 0)) = .ok (io', d') ∧
      ∃ ss : List Sending,
        io'.sock.outbox = [] ++ (ss.flatMap Sending.packages).flatMap (frame headSize) ∧
        d'.commands = [] ++ ss.map Sending.command ∧
        ((∀ name content, Sending.fileSend name content ∈ ss → content.length < 2 ^ 63) →
          ∀ sys p c b s, Server.Serving sys p c b → sys.socks c.fd = some s →
            s.inbox = (ss.flatMap Sending.packages).flatMap (frame headSize) →
            Server.ReadsWhole s c → Server.OpensAll sys.files →
            ∀ es, Server.dispatched p es sys c =
              ((ss.map Sending.command).take (es.count .readable)).map fun q =>
                ArgT.process (Server.packageText q)) := by
  have hok : (Client.session [text "file_send client-a", text "get a"]
      { sock := {}, files := Files.empty.put (text "client-a") (text "hi") }
      (Client.ClientT.create (fun _ => 0) (fun _ => 0))).toOption.isSome = true := by
    decide +kernel
  cases hrun : Client.session [text "file_send client-a", text "get a"]
      { sock := {}, files := Files.empty.put (text "client-a") (text "hi") }
      (Client.ClientT.create (fun _ => 0) (fun _ => 0)) with
  | error e =>
      rw [hrun] at hok
      exact absurd hok (by simp [Except.toOption])
  | ok r =>
      refine ⟨r.1, r.2, rfl, session_dispatched hrun (by simp [Sock.Willing])
        (Client.size_wBuffer_create _ _) fun line hline name hname => ?_⟩
      rcases List.mem_pair.mp hline with rfl | rfl
      · rw [show ArgT.process (text "file_send client-a") =
          [text "file_send", text "client-a"] by decide +kernel] at hname
        obtain rfl : text "client-a" = name := by simpa using hname
        decide +kernel
      · rw [show ArgT.process (text "get a") = [text "get", text "a"] by decide +kernel] at hname
        exact absurd (List.cons.inj hname).1 (by decide)

/-- An escaped blank in the name: the server drops the upload, and takes the number of its chunks
for a command. -/
theorem session_dispatched_blank :
    ¬∃ io' d' k, Client.session [text "file_send a\\ b"]
        { sock := {}, files := Files.empty.put (text "a b") (text "hi") }
        (Client.ClientT.create (fun _ => 0) (fun _ => 0)) = .ok (io', d') ∧
      Server.dispatched 0 [.readable, .readable]
          (Server.Sys.connected 5 0 { inbox := io'.sock.outbox }
            { data := fun _ => some { bytes := [] }, canWrite := fun _ => true })
          (Server.ClientT.accepted 5) =
        (d'.commands.take k).map fun q => ArgT.process (Server.packageText q) := by
  have hrun : ((Client.session [text "file_send a\\ b"]
      { sock := {}, files := Files.empty.put (text "a b") (text "hi") }
      (Client.ClientT.create (fun _ => 0) (fun _ => 0))).toOption.map fun r =>
        (r.2.commands, Server.dispatched 0 [.readable, .readable]
          (Server.Sys.connected 5 0 { inbox := r.1.sock.outbox }
            { data := fun _ => some { bytes := [] }, canWrite := fun _ => true })
          (Server.ClientT.accepted 5))) =
      some ([text "file_send a b"], [[text "file_send", text "a", text "b"], [[1]]]) := by
    decide +kernel
  rintro ⟨io', d', k, hok, hdispatched⟩
  rw [hok] at hrun
  simp only [Except.toOption, Option.map_some, Option.some.injEq, Prod.mk.injEq] at hrun
  have hlen := congrArg List.length hdispatched
  rw [hrun.1, hrun.2, List.length_map, List.length_take] at hlen
  simp at hlen
  omega

end AsprNet
