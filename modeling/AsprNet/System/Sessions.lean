import AsprNet.System.Service
import AsprNet.System.Streams

/-! # Clients and server together

A `Session` is one client process, its connection as the server has it (`Server.Channel`), and the
two streams between them. The client's side goes line by line (`Client.beginLine`,
`Awaited.finish`), the server's side report by report (`Channel.report`); the sessions have the
server's files and memory in common, and their events come in any order.

Each session does what a customer of the file service does, step by step (`Follows.does`). So every
run of clients and server is one of the service (`sessions_refine`).
-/

namespace AsprNet.System

open Client (Sending Awaited requestOf beginLine Begun)
open Server (Store Channel Plain)

/-! ## Sessions -/

/-- A client process. -/
structure User where
  /-- The lines still to be read from `stdin`. -/
  lines : List Bytes
  /-- What the process waits for in `read(2)`. -/
  awaited : Option Awaited := none
  /-- Its end of the connection, its files and its memory. -/
  io : Io
  client : Client.ClientT

/-- A client process and the server's end of its connection, if the server has one. -/
structure Session extends User where
  channel : Option Channel

/-- Carry the bytes `up`, which the client wrote, to the server; they stay where they are as long as
the connection is not accepted. -/
def carriedUp (up : Bytes) : Option Channel → Bytes × Option Channel
  | none => (up, none)
  | some ch => ([], some { ch with sock := { ch.sock with inbox := ch.sock.inbox ++ up } })

/-- Carry what the server wrote to the client, who has `down` on its stream. -/
def carriedDown (down : Bytes) : Option Channel → Bytes × Option Channel
  | none => (down, none)
  | some ch =>
    (down ++ ch.sock.outbox, some { ch with sock := { ch.sock with outbox := [] } })

namespace Session

def carryUp (x : Session) : Session :=
  let (outbox, channel) := carriedUp x.io.sock.outbox x.channel
  { x with channel, io := { x.io with sock := { x.io.sock with outbox } } }

def carryDown (x : Session) : Session :=
  let (inbox, channel) := carriedDown x.io.sock.inbox x.channel
  { x with channel, io := { x.io with sock := { x.io.sock with inbox } } }

/-- The bytes on their way to the server: those on the stream of the connection, and those that
wait for it to be accepted. -/
def upstream (x : Session) : Bytes :=
  (x.channel.elim [] fun ch => ch.sock.inbox) ++ x.io.sock.outbox

/-- The requests on their way to the server, as it will read them. -/
def pending (x : Session) : List Sending := requestsOn x.upstream

end Session

inductive SessionEvent
  /-- The server accepts the connection. -/
  | accepted
  /-- The server accepts a connection and closes it, having no room. -/
  | refused
  /-- The client reads a line and sends the request `q` that it is, if it is one. -/
  | line (q : Option Sending)
  /-- The server's event loop reports the connection. -/
  | reported (mask : Mask)
  /-- The client goes on with the reply it has waited for. -/
  | reply

/-- What the client sees of the events of its session. -/
def SessionEvent.observed : SessionEvent → List Observation
  | .line q => [.typed q]
  | .reply => [.replied]
  | _ => []

/-- **What a session does.** A step that would halt, because a read waits or the code leaves its
defined behaviour, is none. -/
inductive Session.Does : Conduct Store Session SessionEvent
  | accepted {F : Store} {x : Session} {fd : ℕ} {s : Sock} (hnew : x.channel = none)
      (hplain : Plain s) :
      Does F x .accepted (F.allocated 2)
        (Session.carryUp { x with channel := some (Channel.accepted F fd s) })
  | refused {F : Store} {x : Session} (hnew : x.channel = none) :
      Does F x .refused (F.allocated 2) x
  | line {F : Store} {x : Session} {line : Bytes} {lines : List Bytes} {io : Io}
      {client : Client.ClientT} {awaited : Option Awaited} (hlines : x.lines = line :: lines)
      (hidle : x.awaited = none)
      (hrun : beginLine x.io x.client line = .ok (io, client, awaited)) :
      Does F x (.line (requestOf x.io.files line)) F
        (Session.carryUp { x with lines, awaited, io, client })
  | reported {F F' : Store} {x : Session} {mask : Mask} {channel : Option Channel}
      (hrun : Channel.report F mask x.channel = .ok (F', channel)) :
      Does F x (.reported mask) F' (Session.carryDown { x with channel })
  | reply {F : Store} {x : Session} {a : Awaited} {io : Io} {client : Client.ClientT}
      (hawaited : x.awaited = some a) (hrun : a.finish x.io x.client = .ok (io, client)) :
      Does F x .reply F { x with awaited := none, io, client }

/-! ## Sessions and customers -/

/-- Where the reply to a customer is: nowhere yet, queued at the server, or at the client. -/
inductive Held : Option Awaited → Option Bytes → Bool → Bytes → Bytes → Prop
  | nowhere (a : Option Awaited) : Held a none false [] []
  | queued (a : Awaited) (b : Bytes) :
      Held (some a) (some b) true ((a.packages b).flatMap (frame headSize)) []
  | arrived (a : Awaited) (b : Bytes) :
      Held (some a) (some b) false [] ((a.packages b).flatMap (frame headSize))

namespace Held

variable {a : Option Awaited} {b : Option Bytes} {w : Bool} {queued inbox : Bytes}

/-- Nothing is held where nothing was answered. -/
theorem of_none (h : Held a none w queued inbox) : w = false ∧ queued = [] ∧ inbox = [] := by
  cases h
  exact ⟨rfl, rfl, rfl⟩

/-- A connection that is registered for writing has the reply queued. -/
theorem of_writing (h : Held a b true queued inbox) :
    inbox = [] ∧ Held a b false [] queued := by
  cases h
  exact ⟨rfl, .arrived _ _⟩

/-- What has arrived is the reply. -/
theorem of_inbox (h : Held a b w queued inbox) (hin : inbox ≠ []) :
    ∃ a' b', a = some a' ∧ b = some b' ∧ w = false ∧ queued = [] ∧
      inbox = (a'.packages b').flatMap (frame headSize) := by
  cases h with
  | nowhere a => exact absurd rfl hin
  | queued a b => exact absurd rfl hin
  | arrived a b => exact ⟨a, b, rfl, rfl, rfl, rfl, rfl⟩

end Held

/-- The names of the file commands in the line have no blanks. -/
def Clear (line : Bytes) : Prop :=
  ∀ cmd name, ArgT.process line = [cmd, name] → Client.IsFileCommand cmd → blank ∉ name

/-- The files of the size an `off_t` holds. -/
def Small : Set Bytes := {content | content.length < 2 ^ 63}

/-- The reply that a customer was given is one to what it waits for. -/
theorem Customer.Formed.takes {c : Customer} (h : c.Formed) (hsmall : c.Holding Small)
    {a : Awaited} {b : Bytes} (ha : c.awaited = some a) (hb : c.answer = some b) : a.Takes b := by
  cases a with
  | pong =>
      rcases h.waiting _ ha with ⟨hnone, -⟩ | ⟨-, b', hb', hpong⟩
      · rw [hnone] at hb
        cases hb
      · obtain rfl : b = b' := Option.some.inj (hb.symm.trans hb')
        exact hpong rfl
  | file name => exact hsmall.answer name b ha hb

/-- The client's end of a connection in good order. -/
structure Ready (io : Io) (client : Client.ClientT) : Prop where
  willing : io.sock.Willing
  steady : io.sock.Steady
  wSize : client.wBuffer.size = defaultBuffSize
  rSize : client.rBuffer.size = defaultBuffSize

/-- The server's end stands where the customer stands: the requests to be carried out are on the
stream, and the reply is held. -/
structure Stands (ch : Channel) (c : Customer) (reply : Bytes) : Prop where
  serves : ch.Serves
  outbox : ch.sock.outbox = []
  inbox : ch.sock.inbox = (c.pending.flatMap Sending.packages).flatMap (frame headSize)
  held : Held c.awaited c.answer ch.writing ch.client.queued reply

/-- Where the requests and the reply are: `up` has been written by the client and not carried on,
`down` has been carried to the client. -/
inductive Between (c : Customer) (up down : Bytes) : Option Channel → Prop
  /-- The connection waits to be accepted. -/
  | waiting (hup : up = (c.pending.flatMap Sending.packages).flatMap (frame headSize))
      (hanswer : c.answer = none) (hdown : down = []) : Between c up down none
  | served {ch : Channel} (hup : up = []) (hstands : Stands ch c down) :
      Between c up down (some ch)

/-- The session stands where the customer stands. -/
structure Follows (x : Session) (c : Customer) : Prop where
  lines : x.lines = c.lines
  awaited : x.awaited = c.awaited
  files : x.io.files = c.files
  printed : x.client.stdout = c.printed
  clear : ∀ line ∈ c.lines, Clear line
  ready : Ready x.io x.client
  formed : c.Formed
  small : c.Holding Small
  sent : ∀ q ∈ c.pending, q.Sent
  between : Between c x.io.sock.outbox x.io.sock.inbox x.channel

/-- What is on its way to the server are the bytes of the customer's requests. -/
theorem Between.upstream {c : Customer} {down : Bytes} {x : Session}
    (h : Between c x.io.sock.outbox down x.channel) :
    x.upstream = (c.pending.flatMap Sending.packages).flatMap (frame headSize) := by
  rw [Session.upstream]
  generalize x.io.sock.outbox = up, x.channel = channel at h
  cases h with
  | waiting hup hanswer hdown => exact hup
  | served hup hstands =>
      rw [hup, List.append_nil]
      exact hstands.inbox

/-- **The requests on the stream** are those that the customer has still to be served. -/
theorem Follows.pending {x : Session} {c : Customer} (h : Follows x c) : x.pending = c.pending := by
  rw [Session.pending, h.between.upstream]
  exact requestsOn_packages h.sent

namespace Stands

variable {ch : Channel} {c : Customer} {reply : Bytes} {F F' : Store} {r : Option Channel}

/-- Without a request, `read(2)` waits. -/
theorem read_blocked (h : Stands ch c reply) (hnil : c.pending = []) :
    ch.read F = .error .blocked := by
  have hin : ch.sock.inbox = [] := by rw [h.inbox, hnil]; rfl
  have hread : ch.sock.freshHead.2.read headSize = .error .blocked := by
    simp only [Sock.read, Sock.freshHead, h.serves.whole.headD, Sock.deliver, Sock.fetch, hin]
    rfl
  rw [Channel.read, Server.receive, Sock.readHead]
  simp only [hread, error_bind]

/-- **The read half of a report** carries out the next request. -/
theorem read (h : Stands ch c reply) (hform : c.Formed) (hsent : ∀ q ∈ c.pending, q.Sent)
    (hrun : ch.read F = .ok (F', r)) :
    ∃ q qs b ch', c.pending = q :: qs ∧ q.Answers F.files b ∧ F'.files = q.effect F.files ∧
      r = some ch' ∧ Stands ch' { c with pending := qs, answer := b } reply := by
  cases hpending : c.pending with
  | nil =>
      rw [h.read_blocked hpending] at hrun
      cases hrun
  | cons q qs =>
      have hanswer := hform.answer_none (by rw [hpending]; exact List.cons_ne_nil _ _)
      obtain ⟨hidle, hqueued, rfl⟩ := Held.of_none (hanswer ▸ h.held)
      have hin := h.inbox
      rw [hpending, List.flatMap_cons, List.flatMap_append] at hin
      have hq : q.Sent := hsent q (by rw [hpending]; exact List.mem_cons_self)
      obtain ⟨b, hans⟩ := h.serves.answers_of_read hq hin hrun
      obtain ⟨F₁, ch', hread, hfiles, htook, hwriting, hreply⟩ :=
        h.serves.read_answers hidle hq hans hin
      obtain ⟨hF, hr⟩ := Prod.mk.inj (Except.ok.inj (hrun.symm.trans hread))
      subst hF hr
      refine ⟨q, qs, b, ch', rfl, hans, hfiles, rfl, htook.serves, ?_, htook.inbox, ?_⟩
      · exact htook.output.outbox.trans h.outbox
      · show Held c.awaited b ch'.writing ch'.client.queued []
        rw [hwriting, hreply]
        have hsome := hans.isSome
        cases b with
        | none => exact .nowhere _
        | some b =>
            obtain ⟨a, ha⟩ := Option.isSome_iff_exists.mp (hsome.symm.trans rfl)
            rw [hform.awaited_of_awaits hpending ha, Server.replied, ha]
            simpa using Held.queued a b

/-- **The write half of a report** hands the reply over. -/
theorem write (h : Stands ch c reply) (hwriting : ch.writing = true)
    (hrun : ch.write F = .ok (F', r)) :
    F' = F ∧ ∃ ch', r = some ch' ∧ ch'.writing = false ∧
      Stands { ch' with sock := { ch'.sock with outbox := [] } } c (reply ++ ch'.sock.outbox) := by
  obtain ⟨ch', hwrite, hserves, hidle, hin, hout, -⟩ := h.serves.write_queued (F := F) hwriting
  obtain ⟨hF, hr⟩ := Prod.mk.inj (Except.ok.inj (hrun.symm.trans hwrite))
  subst hF hr
  obtain ⟨rfl, hheld⟩ := Held.of_writing (hwriting ▸ h.held)
  refine ⟨rfl, ch', rfl, hidle, hserves.takeOutbox, rfl, hin.trans h.inbox, ?_⟩
  show Held c.awaited c.answer ch'.writing ch'.client.queued ([] ++ ch'.sock.outbox)
  rw [hidle, hserves.queued_nil hidle, hout, h.outbox]
  exact hheld

/-- **A report** carries out a request if the connection is readable, and none otherwise; if it is
writable, nothing is queued afterwards. -/
theorem report (h : Stands ch c reply) (hform : c.Formed) (hsent : ∀ q ∈ c.pending, q.Sent)
    {mask : Mask} (hrun : Channel.report F mask (some ch) = .ok (F', r)) :
    ∃ c', c.Served F.files F'.files c' ∧
      (mask.has aeReadable = true → ∃ q, Customer.Does F.files c (.serve q) F'.files c') ∧
      ∃ ch', r = some ch' ∧ (mask.has aeWritable = true → ch'.writing = false) ∧
        Stands { ch' with sock := { ch'.sock with outbox := [] } } c'
          (reply ++ ch'.sock.outbox) := by
  rw [Channel.report, bind_eq_ok] at hrun
  obtain ⟨⟨F₁, r₁⟩, hread, hwrite⟩ := hrun
  -- the read half
  obtain ⟨c', ch₁, hserved, hreadable, rfl, hstands⟩ : ∃ c' ch₁,
      c.Served F.files F₁.files c' ∧
      (mask.has aeReadable = true → ∃ q, Customer.Does F.files c (.serve q) F₁.files c') ∧
      r₁ = some ch₁ ∧ Stands ch₁ c' reply := by
    rw [Channel.reportRead] at hread
    split_ifs at hread with hmask
    · obtain ⟨q, qs, b, ch₁, hpending, hans, hfiles, rfl, hstands⟩ := h.read hform hsent hread
      have hstep := Customer.Does.serve hpending hans
      rw [← hfiles] at hstep
      exact ⟨_, ch₁, Or.inr ⟨q, hstep⟩, fun _ => ⟨q, hstep⟩, rfl, hstands⟩
    · cases hread
      exact ⟨c, ch, Or.inl ⟨rfl, rfl⟩, fun hm => absurd hm hmask, rfl, h⟩
  -- the write half
  refine ⟨c', ?_⟩
  simp only [Channel.reportWrite] at hwrite
  split_ifs at hwrite with hmask
  · obtain ⟨rfl, ch', rfl, hidle, hstands'⟩ := hstands.write hmask.2 hwrite
    exact ⟨hserved, hreadable, ch', rfl, fun _ => hidle, hstands'⟩
  · cases hwrite
    refine ⟨hserved, hreadable, ch₁, rfl, fun hm => ?_, hstands.serves.takeOutbox, rfl,
      hstands.inbox, ?_⟩
    · simpa [hm] using hmask
    · rw [hstands.outbox, List.append_nil]
      exact hstands.held

/-- **What a report needs**: if the connection is readable, a request that can be carried out. -/
theorem report_ok_iff (h : Stands ch c reply) (hform : c.Formed)
    (hsent : ∀ q ∈ c.pending, q.Sent) (mask : Mask) :
    (∃ r, Channel.report F mask (some ch) = .ok r) ↔
      (mask.has aeReadable = true →
        ∃ q qs b, c.pending = q :: qs ∧ q.Answers F.files b) := by
  constructor
  · rintro ⟨⟨F', r⟩, hrun⟩ hm
    obtain ⟨c', -, hreadable, -⟩ := h.report hform hsent hrun
    obtain ⟨q, hstep⟩ := hreadable hm
    obtain ⟨qs, b, hpending, hans, -⟩ := hstep.of_serve
    exact ⟨q, qs, b, hpending, hans⟩
  · intro hcan
    -- the write half succeeds on whatever the read half leaves
    have hwrites : ∀ (F₁ : Store) (ch₁ : Channel), ch₁.Serves →
        ∃ r, Channel.reportWrite F₁ mask (some ch₁) = .ok r := by
      intro F₁ ch₁ hserves
      simp only [Channel.reportWrite]
      split_ifs with hmask
      · obtain ⟨ch₂, hwrite, -⟩ := hserves.write_queued (F := F₁) hmask.2
        exact ⟨_, hwrite⟩
      · exact ⟨_, rfl⟩
    rw [Channel.report, Channel.reportRead]
    split_ifs with hm
    · obtain ⟨q, qs, b, hpending, hans⟩ := hcan hm
      have hin := h.inbox
      rw [hpending, List.flatMap_cons, List.flatMap_append] at hin
      have hanswer := hform.answer_none (by rw [hpending]; exact List.cons_ne_nil _ _)
      obtain ⟨hidle, -⟩ := Held.of_none (hanswer ▸ h.held)
      obtain ⟨F₁, ch₁, hread, -, htook, -⟩ := h.serves.read_answers hidle
        (hsent q (by rw [hpending]; exact List.mem_cons_self)) hans hin
      rw [hread, ok_bind]
      exact hwrites _ _ htook.serves
    · exact hwrites F ch h.serves

end Stands

namespace Between

variable {c : Customer} {up down : Bytes} {channel : Option Channel}

/-- The bytes of the requests. -/
theorem frames_append (c : Customer) (qs : List Sending) :
    ((c.pending ++ qs).flatMap Sending.packages).flatMap (frame headSize) =
      (c.pending.flatMap Sending.packages).flatMap (frame headSize) ++
        (qs.flatMap Sending.packages).flatMap (frame headSize) := by
  rw [List.flatMap_append, List.flatMap_append]

/-- **More requests** are sent. -/
theorem append (h : Between c up down channel) (hanswer : c.answer = none) (lines : List Bytes)
    (qs : List Sending) (awaited : Option Awaited) :
    Between { c with lines, awaited, pending := c.pending ++ qs }
      (carriedUp (up ++ (qs.flatMap Sending.packages).flatMap (frame headSize)) channel).1 down
      (carriedUp (up ++ (qs.flatMap Sending.packages).flatMap (frame headSize)) channel).2 := by
  cases h with
  | waiting hup _ hdown =>
      refine .waiting ?_ hanswer hdown
      rw [hup]
      exact (frames_append c qs).symm
  | @served ch hup hstands =>
      obtain ⟨hwriting, hqueued, rfl⟩ := Held.of_none (hanswer ▸ hstands.held)
      refine .served rfl ⟨hstands.serves.appendInbox _, hstands.outbox, ?_, ?_⟩
      · rw [hup]
        show ch.sock.inbox ++ ([] ++ _) = _
        rw [List.nil_append, hstands.inbox]
        exact (frames_append c qs).symm
      · show Held awaited c.answer ch.writing ch.client.queued []
        rw [hanswer, hwriting, hqueued]
        exact .nowhere _

/-- **The connection is accepted**, and gets what was sent before. -/
theorem accept (h : Between c up down none) {F : Store} {fd : ℕ} {s : Sock} (hplain : Plain s) :
    Between c (carriedUp up (some (Channel.accepted F fd s))).1 down
      (carriedUp up (some (Channel.accepted F fd s))).2 := by
  cases h with
  | waiting hup hanswer hdown =>
      have hserves : (Channel.accepted F fd s).Serves := Server.Channel.accepted_serves hplain
      refine .served rfl ⟨hserves.appendInbox _, hplain.outbox, ?_, ?_⟩
      · show s.inbox ++ up = _
        rw [hplain.inbox, hup]
        rfl
      · show Held c.awaited c.answer false (Channel.accepted F fd s).client.queued down
        rw [hserves.queued_nil rfl, hanswer, hdown]
        exact .nowhere _

end Between

/-- What the report of a connection has done: if it was readable, a request was carried out, and if
it was writable, nothing is queued. -/
structure Reported (mask : Mask) (F F' : Files) (c c' : Customer) (channel : Option Channel) :
    Prop where
  readable : mask.has aeReadable = true → ∃ q, Customer.Does F c (.serve q) F' c'
  writable : ∃ ch', channel = some ch' ∧ (mask.has aeWritable = true → ch'.writing = false)

namespace Follows

variable {x : Session} {c : Customer} {F F' : Store}

/-- The request of a line can be sent by the client and read by the server. -/
theorem sent_of_line (h : Follows x c) {line : Bytes} (hclear : Clear line) {q : Sending}
    (hq : requestOf c.files line = some q) (hfit : q.Fits c.files) : q.Sent := by
  have hargs := @Client.requestOf_args c.files line
  cases q with
  | ping => trivial
  | fileSend name content =>
      obtain ⟨harg, -⟩ := hargs.2.1 _ _ hq
      exact ⟨process_isArg line name (by rw [harg]; simp), hclear _ _ harg (Or.inl rfl), hfit.1,
        h.small.files _ _ hfit.2⟩
  | fileRecv name =>
      have harg := hargs.2.2 _ hq
      exact ⟨process_isArg line name (by rw [harg]; simp), hclear _ _ harg (Or.inr rfl), hfit⟩

/-- **A line** is one step of the customer. -/
theorem line (h : Follows x c) {line : Bytes} {lines : List Bytes} {io : Io}
    {client : Client.ClientT} {awaited : Option Awaited} (hlines : x.lines = line :: lines)
    (hidle : x.awaited = none) (hrun : beginLine x.io x.client line = .ok (io, client, awaited))
    {G : Files} (hG : Holds Small G) :
    ∃ c', Customer.Does G c (.line (requestOf c.files line)) G c' ∧
      Follows (Session.carryUp { x with lines, awaited, io, client }) c' := by
  have hwait : c.awaited = none := h.awaited.symm.trans hidle
  obtain ⟨hne, hfit⟩ := Client.beginLine_fits h.ready.wSize hrun
  obtain ⟨io', client', hrun', hbegun⟩ :=
    Client.beginLine_begun h.ready.willing h.ready.wSize hne hfit
  obtain ⟨hio, hrest⟩ := Prod.mk.inj (Except.ok.inj (hrun'.symm.trans hrun))
  obtain ⟨hclient, hawaits⟩ := Prod.mk.inj hrest
  subst hio hclient hawaits
  obtain ⟨os, hos, hsock⟩ := hbegun.sock
  rw [h.files] at hfit hsock
  have hcline : c.lines = line :: lines := h.lines.symm.trans hlines
  have hstep := Customer.Does.line (F := G) hcline hwait hfit
  refine ⟨_, hstep, ?_⟩
  constructor
  · rfl
  · rw [← h.files]
    rfl
  · exact hbegun.files.trans h.files
  · exact hbegun.stdout.trans h.printed
  · exact fun l hl => h.clear l (by rw [hcline]; exact List.mem_cons_of_mem _ hl)
  · refine ⟨?_, ?_, hbegun.wSize, hbegun.rSize.trans h.ready.rSize⟩
    · show io'.sock.Willing
      rw [Sock.Willing, hsock]
      exact hos
    · show io'.sock.Steady
      rw [Sock.Steady, hsock]
      exact h.ready.steady
  · exact h.formed.does hstep
  · exact (h.small.does hG h.formed hstep).2
  · intro q hq
    rcases List.mem_append.mp hq with hq | hq
    · exact h.sent q hq
    · have hq := Option.mem_toList.mp hq
      exact h.sent_of_line (h.clear line (by rw [hcline]; exact List.mem_cons_self)) hq (hfit q hq)
  · show Between _ (carriedUp io'.sock.outbox x.channel).1 io'.sock.inbox
      (carriedUp io'.sock.outbox x.channel).2
    rw [hsock]
    exact h.between.append (h.formed.quiet hwait).1 _ _ _

/-- **The connection is accepted.** -/
theorem accepted (h : Follows x c) {fd : ℕ} {s : Sock} (hnew : x.channel = none)
    (hplain : Plain s) :
    Follows (Session.carryUp { x with channel := some (Channel.accepted F fd s) }) c := by
  have hbetween := h.between
  rw [hnew] at hbetween
  exact ⟨h.lines, h.awaited, h.files, h.printed, h.clear,
    ⟨h.ready.willing, h.ready.steady, h.ready.wSize, h.ready.rSize⟩, h.formed, h.small, h.sent,
    hbetween.accept hplain⟩

/-- **A report** carries out one of the customer's requests, or none. -/
theorem reported (h : Follows x c) {mask : Mask} {channel : Option Channel}
    (hF : Holds Small F.files)
    (hrun : Channel.report F mask x.channel = .ok (F', channel)) :
    ∃ c', c.Served F.files F'.files c' ∧
      (x.channel.isSome = true → Reported mask F.files F'.files c c' channel) ∧
      Follows (Session.carryDown { x with channel }) c' := by
  obtain ⟨c', hserved, hreported, hbetween⟩ : ∃ c', c.Served F.files F'.files c' ∧
      (x.channel.isSome = true → Reported mask F.files F'.files c c' channel) ∧
      Between c' x.io.sock.outbox (carriedDown x.io.sock.inbox channel).1
        (carriedDown x.io.sock.inbox channel).2 := by
    cases hb : x.channel with
    | none =>
        rw [hb] at hrun
        obtain ⟨rfl, rfl⟩ := Prod.mk.inj (Except.ok.inj hrun)
        have hbetween := h.between
        rw [hb] at hbetween
        exact ⟨c, Or.inl ⟨rfl, rfl⟩, fun hsome => absurd hsome Bool.false_ne_true, hbetween⟩
    | some ch =>
        have hbetween := h.between
        rw [hb] at hrun hbetween
        cases hbetween with
        | served hup hstands =>
            obtain ⟨c', hserved, hreadable, ch', rfl, hwritable, hstands'⟩ :=
              hstands.report h.formed h.sent hrun
            exact ⟨c', hserved, fun _ => ⟨hreadable, ch', rfl, hwritable⟩, .served hup hstands'⟩
  refine ⟨c', hserved, hreported, ?_⟩
  obtain ⟨hlines, hfiles, hprinted, hawaited, hpending⟩ := hserved.frame
  constructor
  · exact h.lines.trans hlines.symm
  · exact h.awaited.trans hawaited.symm
  · exact h.files.trans hfiles.symm
  · exact h.printed.trans hprinted.symm
  · rw [hlines]
    exact h.clear
  · exact ⟨h.ready.willing, h.ready.steady, h.ready.wSize, h.ready.rSize⟩
  · exact hserved.formed h.formed
  · exact (hserved.holding hF h.formed h.small).2
  · exact fun q hq => h.sent q (hpending q hq)
  · exact hbetween

/-- **A reply** is taken off the stream. -/
theorem reply (h : Follows x c) {a : Awaited} {io : Io} {client : Client.ClientT}
    (hawaited : x.awaited = some a) (hrun : a.finish x.io x.client = .ok (io, client))
    {G : Files} (hG : Holds Small G) :
    ∃ c', Customer.Does G c .reply G c' ∧
      Follows { x with awaited := none, io, client } c' := by
  have hwait : c.awaited = some a := h.awaited.symm.trans hawaited
  have hin : x.io.sock.inbox ≠ [] := by
    intro hnil
    rw [Client.finish_blocked h.ready.steady hnil] at hrun
    cases hrun
  have hbetween := h.between
  cases hb : x.channel with
  | none =>
      rw [hb] at hbetween
      cases hbetween with
      | waiting _ _ hdown => exact absurd hdown hin
  | some ch =>
      rw [hb] at hbetween
      cases hbetween with
      | served hup hstands =>
          obtain ⟨a', b, ha', hans, hwriting, hqueued, hinbox⟩ := hstands.held.of_inbox hin
          obtain rfl : a' = a := Option.some.inj (ha'.symm.trans hwait)
          have hopen := Client.opens_of_finish hrun
          have htakes : a'.Takes b := h.formed.takes h.small hwait hans
          have hin' : x.io.sock.inbox = (a'.packages b).flatMap (frame headSize) ++ [] := by
            rw [hinbox, List.append_nil]
          obtain ⟨io', client', hrun', hfin⟩ :=
            Client.finish_finished h.ready.steady h.ready.rSize htakes hopen hin'
          obtain ⟨hio, hclient⟩ := Prod.mk.inj (Except.ok.inj (hrun'.symm.trans hrun))
          subst hio hclient
          rw [h.files] at hopen
          have hstep := Customer.Does.reply (F := G) hwait hans hopen
          refine ⟨_, hstep, ?_⟩
          constructor
          · exact h.lines
          · rfl
          · rw [← h.files]
            exact hfin.files
          · rw [← h.printed]
            exact hfin.stdout
          · exact h.clear
          · refine ⟨?_, hfin.steady, ?_, hfin.rSize⟩
            · rw [Sock.Willing, hfin.output.writes]
              exact h.ready.willing
            · rw [hfin.wBuffer]
              exact h.ready.wSize
          · exact h.formed.does hstep
          · exact (h.small.does hG h.formed hstep).2
          · exact h.sent
          · show Between _ io'.sock.outbox io'.sock.inbox (some ch)
            rw [hfin.output.outbox, hup]
            refine .served rfl ⟨hstands.serves, hstands.outbox, hstands.inbox, ?_⟩
            rw [hwriting, hqueued, hfin.inbox]
            exact .nowhere _

/-- **Every step of a session** is a run of the customer, who sees the same. -/
theorem does (h : Follows x c) (hF : Holds Small F.files) {i : SessionEvent} {x' : Session}
    (hstep : Session.Does F x i F' x') :
    Holds Small F'.files ∧
      ∃ is c', Steps (Family.Owning Customer.Does) (F.files, c) is (F'.files, c') ∧
        is.flatMap ServiceEvent.observed = i.observed ∧ Follows x' c' := by
  cases hstep with
  | accepted hnew hplain => exact ⟨hF, [], c, .nil _, rfl, h.accepted hnew hplain⟩
  | refused hnew => exact ⟨hF, [], c, .nil _, rfl, h⟩
  | line hlines hidle hrun =>
      obtain ⟨c', hdoes, hfollows⟩ := h.line hlines hidle hrun hF
      refine ⟨hF, _, c', .single hdoes, ?_, hfollows⟩
      rw [h.files]
      rfl
  | reported hrun =>
      obtain ⟨c', hserved, -, hfollows⟩ := h.reported hF hrun
      obtain ⟨is, hsteps, hobs⟩ := hserved.steps
      exact ⟨(hserved.holding hF h.formed h.small).1, is, c', hsteps, hobs, hfollows⟩
  | reply hawaited hrun =>
      obtain ⟨c', hdoes, hfollows⟩ := h.reply hawaited hrun hF
      exact ⟨hF, _, c', .single hdoes, rfl, hfollows⟩

end Follows

/-! ## Starting -/

/-- A client process that was just started: its connection is new and does what it is asked for,
the names in its lines have no blanks, and its files are small. -/
structure User.Starts (u : User) : Prop where
  awaited : u.awaited = none
  inbox : u.io.sock.inbox = []
  outbox : u.io.sock.outbox = []
  willing : u.io.sock.Willing
  steady : u.io.sock.Steady
  wSize : u.client.wBuffer.size = defaultBuffSize
  rSize : u.client.rBuffer.size = defaultBuffSize
  clear : ∀ line ∈ u.lines, Clear line
  small : Holds Small u.io.files

/-- What the process is for the service. -/
def User.customer (u : User) : Customer where
  lines := u.lines
  files := u.io.files
  printed := u.client.stdout

/-- A process that was just started stands where its customer starts. -/
theorem User.Starts.follows {u : User} (h : u.Starts) :
    Follows { u with channel := none } u.customer where
  lines := rfl
  awaited := h.awaited
  files := rfl
  printed := rfl
  clear := h.clear
  ready := ⟨h.willing, h.steady, h.wSize, h.rSize⟩
  formed := ⟨fun _ => ⟨rfl, fun _ hq => absurd hq List.not_mem_nil⟩, fun a ha => by cases ha⟩
  small := ⟨h.small, fun _ _ hq => absurd hq List.not_mem_nil, fun _ _ ha => by cases ha⟩
  sent _ hq := absurd hq List.not_mem_nil
  between := .waiting h.outbox rfl h.inbox

/-- **The sessions refine the service.** Whatever comes first and whatever is late, the clients and
the server do what the customers and the service do, and the clients see what the customers see. -/
theorem sessions_refine {κ : Type*} [DecidableEq κ] {x y : Family κ Session Store}
    {os : List (Occurrence κ SessionEvent Store)} (h : Steps (Family.Step Session.Does) x os y)
    {z : Family κ Customer Files} (hstore : z.store = x.store.files)
    (hsmall : Holds Small x.store.files) (hparts : ∀ k, Follows (x.part k) (z.part k)) :
    ∃ fs w, Steps (Family.Step Customer.Does) z fs w ∧
      fs.flatMap (Occurrence.seen ServiceEvent.observed) =
        os.flatMap (Occurrence.seen SessionEvent.observed) ∧
      w.store = y.store.files ∧ Holds Small y.store.files ∧
      ∀ k, Follows (y.part k) (w.part k) :=
  h.simulates Store.files (I := fun F => Holds Small F.files)
    (fun _ _ _ _ _ _ _ hF hfollows hstep => hfollows.does hF hstep) hstore hsmall hparts

end AsprNet.System
