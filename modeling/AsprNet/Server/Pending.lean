import AsprNet.Server.Lifetime

/-! # Writable interest and pending output

`process_command` registers a client for writing because of a flag in the command table; the
output is the business of the command. `get` and `set` carry the flag and write nothing, so a run
keeps "registered for writing only with something queued" as long as none of them is dispatched for
a client whose queue is empty (`writable_pending`). Otherwise `write_event_handler` deletes the
client.
-/

namespace AsprNet.Server

/-! ## Queues -/

/-- The output buffer has its first size, its indices are in order, and something is queued while
the client is registered for writing. -/
structure Owing (l : AeEventLoop EventProc ClientData) (c : ClientT) : Prop where
  sound : c.wBuffer.Sound
  size : c.wBuffer.size = defaultBuffSize
  pending : (l.entry c.fd).mask.has aeWritable = true → c.wBuffer.readIdx < c.wBuffer.writeIdx

/-- The requests that are answered according to the command table and get no output. -/
inductive Mute : List Bytes → Prop
  | get (key : Bytes) : Mute [text "get", key]
  | set (key value : Bytes) : Mute [text "set", key, value]

/-- Something is queued in a buffer of the first size. -/
structure Filled (b : BufferT) : Prop where
  sound : b.Sound
  size : b.size = defaultBuffSize
  nonempty : b.readIdx < b.writeIdx

/-- A buffer that holds a package is filled, by its header at least. -/
theorem filled_of_packs {b : BufferT} {p : Bytes} (h : b.Packs p)
    (hsize : b.size = defaultBuffSize) : Filled b := by
  refine ⟨(h.unsent (by rw [hsize]; decide)).toSound, hsize, ?_⟩
  rw [h.read, h.write]
  exact Nat.lt_of_lt_of_le (by decide) (Nat.le_add_right headSize _)

/-- A short reply fills the buffer. -/
theorem replyText_fills {reply : String} {io io' : Io} {c c' : ClientT}
    (hsize : c.wBuffer.size = defaultBuffSize)
    (hfit : headSize + (text reply).length < defaultBuffSize)
    (h : replyText reply io c = .ok (io', c')) : Filled c'.wBuffer := by
  unfold replyText at h
  obtain ⟨w, hw, hret⟩ := bind_eq_ok.mp h
  obtain ⟨-, rfl⟩ := Prod.mk.inj (Except.ok.inj hret)
  obtain ⟨b, hb, hpacks, hbsize⟩ := c.wBuffer.writePackage_packs (io.junk 0) (p := text reply)
    (by rw [hsize]; exact hfit)
  obtain rfl := Except.ok.inj (hw.symm.trans hb)
  exact filled_of_packs hpacks (hbsize.trans hsize)

/-- A file to be sent fills the buffer with the number of its packages. -/
theorem fileRecvCommand_fills {io io' : Io} {c c' : ClientT}
    (hsize : c.wBuffer.size = defaultBuffSize) (h : fileRecvCommand io c = .ok (io', c')) :
    Filled c'.wBuffer := by
  unfold fileRecvCommand at h
  obtain ⟨arg, -, h⟩ := bind_eq_ok.mp h
  obtain ⟨⟨bs, file⟩, -, h⟩ := bind_eq_ok.mp h
  obtain ⟨w, hw, h⟩ := bind_eq_ok.mp h
  obtain ⟨-, -, hret⟩ := bind_eq_ok.mp h
  obtain ⟨-, rfl⟩ := Prod.mk.inj (Except.ok.inj hret)
  obtain ⟨b, hb, hpacks, hbsize⟩ := c.wBuffer.writePackage_packs ((io.allocated bs.length).junk 0)
    (p := leBytes 8 bs.length) (by rw [hsize, length_leBytes]; decide)
  obtain rfl := Except.ok.inj (hw.symm.trans hb)
  exact filled_of_packs hpacks (hbsize.trans hsize)

/-- **The commands of the table**: `ping` and `file_recv` queue their answer; `file_send` does not
answer; `get` and `set` answer by the table and leave the client as it is. -/
theorem sCommandTable_fills {name : Bytes} {cmd : CommandT}
    (hcmd : sCommandTable.lookup name = some cmd) {io io' : Io} {c c' : ClientT}
    (hsize : c.wBuffer.size = defaultBuffSize) (h : cmd.proc io c = .ok (io', c')) :
    Filled c'.wBuffer ∨ (c'.wBuffer = c.wBuffer ∧ (cmd.reply = true →
      (name = text "get" ∧ cmd.arity = 2) ∨ (name = text "set" ∧ cmd.arity = 3))) := by
  simp only [sCommandTable, List.lookup_cons, List.lookup_nil] at hcmd
  split at hcmd
  · cases hcmd
    exact Or.inl (replyText_fills hsize (by decide) h)
  split at hcmd
  · rename_i hname
    cases hcmd
    obtain ⟨-, rfl⟩ := Prod.mk.inj (Except.ok.inj h)
    exact Or.inr ⟨rfl, fun _ => Or.inl ⟨by simpa using hname, rfl⟩⟩
  split at hcmd
  · rename_i hname
    cases hcmd
    obtain ⟨-, rfl⟩ := Prod.mk.inj (Except.ok.inj h)
    exact Or.inr ⟨rfl, fun _ => Or.inr ⟨by simpa using hname, rfl⟩⟩
  split at hcmd
  · cases hcmd
    obtain ⟨b, rfl⟩ := fileSendCommand_frame h
    exact Or.inr ⟨rfl, fun hreply => absurd hreply (by decide)⟩
  split at hcmd
  · cases hcmd
    exact Or.inl (fileRecvCommand_fills hsize h)
  · cases hcmd

/-! ## Handlers -/

/-- A request of two arguments whose first is `name`. -/
theorem eq_of_argv {args : List Bytes} {name : Bytes} (h : ArgT.argv args 0 = .ok name) :
    ∃ rest, args = name :: rest := by
  cases args with
  | nil => cases h
  | cons a rest => exact ⟨rest, congrArg (· :: rest) (Except.ok.inj h)⟩

/-- `get` and `set` with enough arguments say nothing. -/
theorem mute_of_arity {args : List Bytes} {name : Bytes} {cmd : CommandT}
    (hname : ArgT.argv args 0 = .ok name) (harity : cmd.arityErr args.length = false)
    (h : (name = text "get" ∧ cmd.arity = 2) ∨ (name = text "set" ∧ cmd.arity = 3)) :
    Mute args := by
  obtain ⟨rest, rfl⟩ := eq_of_argv hname
  unfold CommandT.arityErr at harity
  rcases h with ⟨rfl, hcmd⟩ | ⟨rfl, hcmd⟩
  · rw [hcmd, if_pos (by decide), bne_eq_false_iff_eq, List.length_cons] at harity
    obtain ⟨key, rfl⟩ := List.length_eq_one_iff.mp (show rest.length = 1 by omega)
    exact .get key
  · rw [hcmd, if_pos (by decide), bne_eq_false_iff_eq, List.length_cons] at harity
    obtain ⟨key, value, rfl⟩ := List.length_eq_two.mp (show rest.length = 2 by omega)
    exact .set key value

/-- **`process_command`** leaves a client that is registered for writing with something queued,
unless it dispatches a mute request on an empty queue. -/
theorem processCommand_owing {sys sys' : Sys} {c c' : ClientT} {p : ℕ}
    (howe : Owing sys.loop c) (hlink : Linked sys c.fd p)
    (hmute : Mute c.arg → c.wBuffer.readIdx < c.wBuffer.writeIdx)
    (h : processCommand sCommandTable sys p c = .ok (sys', c')) : Owing sys'.loop c' := by
  rcases processCommand_cases h with
    ⟨rfl, rfl⟩ | ⟨name, cmd, sys₁, io, io', hname, hlook, harity, hreg, -, hproc, rfl⟩
  · exact howe
  · obtain ⟨hframe, -⟩ := sCommandTable_frame hlook hproc
    rcases sCommandTable_fills hlook howe.size hproc with hfill | ⟨hsame, hreply⟩
    · exact ⟨hfill.sound, hfill.size, fun _ => hfill.nonempty⟩
    · -- the queue stays as it was, so what was pending before has to carry the registration
      show Owing sys₁.loop c'
      refine ⟨hsame.symm ▸ howe.sound, hsame.symm ▸ howe.size, fun hw => ?_⟩
      rw [hsame]
      rcases hreg with ⟨-, rfl⟩ | ⟨hrep, -⟩
      · rw [hframe.fd] at hw
        exact howe.pending hw
      · exact hmute (mute_of_arity hname harity (hreply hrep))

/-- A mute request registers the client for writing and leaves its queue as it is. -/
theorem processCommand_mute {sys sys' : Sys} {c c' : ClientT} {p : ℕ}
    (hlink : Linked sys c.fd p) (hmute : Mute c.arg)
    (h : processCommand sCommandTable sys p c = .ok (sys', c')) :
    c' = c ∧ (sys'.loop.entry c.fd).mask.has aeWritable = true := by
  obtain ⟨b, hreg⟩ := hlink.registered
  obtain ⟨r, l, hadd, hreg'⟩ := hreg.addWritable
  have hrun : ∀ (name : Bytes) {cmd : CommandT}, ArgT.argv c.arg 0 = .ok name →
      sCommandTable.lookup name = some cmd → cmd.arityErr c.arg.length = false →
      cmd.reply = true → cmd.proc = (fun io c => .ok (io, c)) →
      c' = c ∧ (sys'.loop.entry c.fd).mask.has aeWritable = true := by
    intro name cmd hname hlook harity hreply hproc
    rw [processCommand, hname, ok_bind, hlook] at h
    simp only [harity, hreply, hproc, Sys.addFileEvent, hadd, ok_bind, if_true] at h
    obtain ⟨⟨r', sys₁⟩, hret, h⟩ := bind_eq_ok.mp h
    obtain ⟨-, rfl⟩ := Prod.mk.inj (Except.ok.inj hret)
    obtain ⟨io, -, h⟩ := bind_eq_ok.mp h
    obtain ⟨rfl, rfl⟩ := Prod.mk.inj (Except.ok.inj h)
    exact ⟨rfl, hreg'.has_writable⟩
  generalize hargs : c.arg = args at hmute
  rw [hargs] at hrun
  cases hmute with
  | get key => exact hrun (text "get") rfl rfl rfl rfl rfl
  | set key value => exact hrun (text "set") rfl rfl rfl rfl rfl

/-- Something is queued when the indices differ. -/
theorem Owing.queued_iff {l : AeEventLoop EventProc ClientData} {c : ClientT} (h : Owing l c) :
    c.wBuffer.readable ≠ [] ↔ c.wBuffer.readIdx < c.wBuffer.writeIdx := by
  rw [← List.length_pos_iff, h.sound.length_readable]
  omega

/-- The table entry of the client decides whether it may have an empty queue. -/
theorem Owing.of_entry {l l' : AeEventLoop EventProc ClientData} {c : ClientT} (h : Owing l c)
    (hentry : l'.entry c.fd = l.entry c.fd) : Owing l' c :=
  ⟨h.sound, h.size, fun hw => h.pending (hentry ▸ hw)⟩

/-- What `write_event_handler` sends is counted, and is not more than what is queued. -/
theorem sendPending_sent {s s' : Sock} {c c' : ClientT} (hw : c.wBuffer.Sound)
    (h : sendPending s c (int32 (c.wBuffer.writeIdx - c.wBuffer.readIdx : ℕ)) = .ok (s', c')) :
    ∃ k ≤ c.wBuffer.writeIdx - c.wBuffer.readIdx, c' = c.sent k := by
  obtain ⟨a, os, r, ha, -, hwrite, hr, -⟩ := anetWrite_sound s hw
  unfold sendPending at h
  rw [hwrite, ok_bind] at h
  obtain ⟨⟨r', s₁⟩, -, hret⟩ := bind_eq_ok.mp h
  obtain ⟨-, rfl⟩ := Prod.mk.inj (Except.ok.inj hret)
  refine ⟨r.toNat, by omega, ?_⟩
  dsimp only
  split_ifs with hpos
  · rfl
  · rw [ClientT.sent, show r.toNat = 0 by omega, Nat.add_zero]

/-- **`write_event_handler`** keeps a client with something queued, and keeps it registered only
while something is left. -/
theorem writeEventHandler_owing {sys sys' : Sys} {c : ClientT} {p : ℕ} {r : Option ClientT}
    (howe : Owing sys.loop c) (hlink : Linked sys c.fd p) (hatt : c.attached = true)
    (hw : (sys.loop.entry c.fd).mask.has aeWritable = true)
    (h : writeEventHandler sys c = .ok (sys', r)) : ∃ c', r = some c' ∧ Owing sys'.loop c' := by
  have hpos := howe.pending hw
  have hwrite := howe.sound.write
  have hint := howe.sound.int
  have hsize : int32 (c.wBuffer.writeIdx - c.wBuffer.readIdx : ℕ) =
      ((c.wBuffer.writeIdx - c.wBuffer.readIdx : ℕ) : ℤ) := int32_natCast (by omega)
  unfold writeEventHandler at h
  rw [howe.sound.readableSize, ok_bind] at h
  dsimp only at h
  rw [if_neg (by rw [hsize]; omega)] at h
  obtain ⟨s, -, h⟩ := bind_eq_ok.mp h
  obtain ⟨⟨s', c₁⟩, hsend, h⟩ := bind_eq_ok.mp h
  obtain ⟨k, hk, rfl⟩ := sendPending_sent howe.sound hsend
  have hsound : (c.sent k).wBuffer.Sound :=
    ⟨by show c.wBuffer.readIdx + k ≤ c.wBuffer.writeIdx; omega, hwrite, hint⟩
  dsimp only at h
  rw [hsound.readableSize, ok_bind] at h
  split at h
  · -- all is sent: the registration for writing is removed
    rw [if_pos (show (c.sent k).attached = true from hatt)] at h
    obtain ⟨sys₁, hdel, hret⟩ := bind_eq_ok.mp h
    obtain ⟨rfl, rfl⟩ := Prod.mk.inj (Except.ok.inj hret)
    obtain ⟨b, hreg⟩ := hlink.registered
    obtain ⟨l, hl, rfl⟩ := delFileEvent_eq hdel
    obtain ⟨l', hl', hreg'⟩ := hreg.delWritable
    obtain rfl := Except.ok.inj (hl.symm.trans hl')
    refine ⟨_, rfl, hsound, howe.size, fun hmask => ?_⟩
    rw [show (l.entry (c.sent k).fd).mask.has aeWritable = false from hreg'.has_writable] at hmask
    exact absurd hmask Bool.false_ne_true
  · -- a part is left, and the client stays registered
    rename_i hleft
    obtain ⟨rfl, rfl⟩ := Prod.mk.inj (Except.ok.inj h)
    refine ⟨_, rfl, hsound, howe.size, fun _ => ?_⟩
    have hleft : ¬c.wBuffer.writeIdx - (c.wBuffer.readIdx + k) = 0 := hleft
    show c.wBuffer.readIdx + k < c.wBuffer.writeIdx
    omega

/-! ## Requests -/

/-- The argument vector that `read_event_handler` would give to `process_command` for the client at
`p`; `none` when its read returns 0. -/
def World.request (w : World) (p : ℕ) : Except Halt (Option (List Bytes)) :=
  match w.heap p with
  | none => .error .badPointer
  | some c => do
    let (_, r) ← readPackage w.sys c.fd c
    return r.map ClientT.arg

/-- What has happened before does not matter to a read. -/
theorem readPackage_note (sys : Sys) (ev : LifeEvent) (fd : ℤ) (c : ClientT) :
    readPackage (sys.note ev) fd c = (readPackage sys fd c).map fun x => (x.1.note ev, x.2) := by
  unfold readPackage
  rw [show (sys.note ev).sock fd = sys.sock fd from rfl]
  cases sys.sock fd with
  | error e => rfl
  | ok s =>
      rw [ok_bind, ok_bind]
      cases receive s c with
      | error e => rfl
      | ok x =>
          obtain ⟨s', r⟩ := x
          cases r with
          | none => rfl
          | some c' =>
              rw [ok_bind, ok_bind]
              dsimp only
              cases processInputBuffer c' <;> rfl

/-- A read that succeeds tells the request. -/
theorem request_of_readPackage {w : World} {p : ℕ} {c : ClientT} (hc : w.heap p = some c)
    {ev : LifeEvent} {sys' : Sys} {r : Option ClientT}
    (h : readPackage (w.sys.note ev) c.fd c = .ok (sys', r)) :
    w.request p = .ok (r.map ClientT.arg) := by
  unfold World.request
  rw [hc]
  dsimp only
  rw [readPackage_note] at h
  cases hread : readPackage w.sys c.fd c with
  | error e =>
      rw [hread] at h
      cases h
  | ok x =>
      rw [hread] at h
      cases h
      rfl

/-- No mute request is dispatched with an empty queue when the entry `e` calls a read handler. -/
def World.Answers (w : World) (e : AeFiredEvent) : Prop :=
  ∀ p c args, (w.sys.loop.entry e.fd).clientData = some (.client p) → w.heap p = some c →
    w.request p = .ok (some args) → Mute args → c.wBuffer.readable ≠ []

/-- **`read_event_handler`** leaves a client that is registered for writing with something
queued. -/
theorem readEventHandler_owing {w : World} {p : ℕ} {c : ClientT} {ev : LifeEvent} {sys' : Sys}
    {r : Option ClientT} (hc : w.heap p = some c) (howe : Owing w.sys.loop c)
    (hlink : Linked w.sys c.fd p)
    (hmute : ∀ args, w.request p = .ok (some args) → Mute args →
      c.wBuffer.readIdx < c.wBuffer.writeIdx)
    (h : readEventHandler (w.sys.note ev) p c.fd c = .ok (sys', r)) :
    ∀ c', r = some c' → Owing sys'.loop c' := by
  unfold readEventHandler at h
  obtain ⟨⟨sys₁, r₁⟩, hread, h⟩ := bind_eq_ok.mp h
  have hreq := request_of_readPackage hc hread
  obtain ⟨s, rfl, hclient⟩ := readPackage_eq hread
  cases r₁ with
  | none =>
      obtain ⟨sys₂, -, hret⟩ := bind_eq_ok.mp h
      obtain ⟨-, rfl⟩ := Prod.mk.inj (Except.ok.inj hret)
      exact fun c' hc' => (nomatch hc')
  | some c₁ =>
      obtain ⟨b, arg, rfl⟩ := hclient c₁ rfl
      obtain ⟨⟨sys₂, c₂⟩, hcmd, hret⟩ := bind_eq_ok.mp h
      obtain ⟨rfl, rfl⟩ := Prod.mk.inj (Except.ok.inj hret)
      intro c' hc'
      obtain rfl := Option.some.inj hc'
      have howe₁ : Owing ((w.sys.note ev).setSock c.fd s).loop { c with rBuffer := b, arg } :=
        ⟨howe.sound, howe.size, howe.pending⟩
      exact processCommand_owing howe₁
        ((hlink.note ev).io s w.sys.files w.sys.junk).toLinked (hmute arg hreq) hcmd

/-! ## Runs -/

/-- Every live client owes what it is registered for. -/
def World.Owing (w : World) : Prop := ∀ p c, w.heap p = some c → Server.Owing w.sys.loop c

section Steps

variable {w w' : World} {listenFd : ℤ} {conn : ℤ → Option ℕ} {p : ℕ} {c : ClientT}

/-- The other clients do not notice what a handler does to one. -/
theorem World.Owing.update (h : w.Owing) (halive : Alive w listenFd conn) (hc : w.heap p = some c)
    {sys' : Sys} {r : Option ClientT} (ht : Touches w.sys sys' c.fd)
    (hr : ∀ c', r = some c' → Server.Owing sys'.loop c') :
    World.Owing ⟨sys', Function.update w.heap p r⟩ := by
  intro q d hd
  have hd : Function.update w.heap p r q = some d := hd
  rcases eq_or_ne q p with rfl | hqp
  · rw [Function.update_self] at hd
    exact hr d hd
  · rw [Function.update_of_ne hqp] at hd
    have hne : d.fd ≠ c.fd := by
      intro heq
      have hq := halive.owned q d hd
      rw [heq, halive.owned p c hc] at hq
      exact hqp (Option.some.inj hq).symm
    exact (h q d hd).of_entry (ht.loop.others d.fd hne)

/-- An update of one address keeps the clients at the others. -/
theorem isSome_update {heap : ℕ → Option ClientT} {r : Option ClientT} {q : ℕ}
    (hq : (heap q).isSome) (hr : q = p → r.isSome) : (Function.update heap p r q).isSome := by
  rw [Function.update_apply]
  split
  · exact hr (by assumption)
  · exact hq

/-- A new client has nothing queued and is registered for reading only. -/
theorem World.Owing.accept (h : w.Owing) (halive : Alive w listenFd conn)
    (hrun : w.acceptTcpHandler = .ok w') :
    w'.Owing ∧ ∀ p, (w.heap p).isSome → (w'.heap p).isSome := by
  obtain ⟨sys', heap'⟩ := w'
  rcases halive.accept_cases hrun with
    ⟨rfl, ht, -⟩ | ⟨fd, p, -, hconn, hheap, -, ht, hcase⟩
  · exact ⟨fun q d hd => (h q d hd).of_entry ((ht (d.fd + 1)).loop.others d.fd (by omega)),
      fun q hq => hq⟩
  · have hothers : ∀ q d, w.heap q = some d → sys'.loop.entry d.fd = w.sys.loop.entry d.fd := by
      intro q d hd
      apply ht.loop.others
      rintro rfl
      exact absurd ((halive.owned q d hd).symm.trans hconn) (by simp)
    rcases hcase with ⟨rfl, -, -⟩ | ⟨rJunk, wJunk, rfl, hreg, -, -⟩
    · exact ⟨fun q d hd => (h q d hd).of_entry (hothers q d hd), fun q hq => hq⟩
    · refine ⟨fun q d hd => ?_, fun q hq => ?_⟩
      · have hd : Function.update w.heap p _ q = some d := hd
        rcases eq_or_ne q p with rfl | hqp
        · rw [Function.update_self] at hd
          obtain rfl := Option.some.inj hd
          have hsize := size_wBuffer_create rJunk wJunk
          refine ⟨⟨le_rfl, Nat.zero_le _, by rw [hsize]; decide⟩, hsize, fun hw => ?_⟩
          rw [show (sys'.loop.entry fd).mask.has aeWritable = false from hreg.has_writable] at hw
          exact absurd hw Bool.false_ne_true
        · rw [Function.update_of_ne hqp] at hd
          exact (h q d hd).of_entry (hothers q d hd)
      · exact isSome_update hq fun _ => rfl

/-- **The read half of an entry.** A client is deleted only when its read returns 0. -/
theorem World.Owing.readHalf (h : w.Owing) (halive : Alive w listenFd conn) {e : AeFiredEvent}
    {rfired : Bool} (hread : AeEventLoop.readHalf World.host e w = .ok (rfired, w')) :
    (∀ p, (w.heap p).isSome → (w'.heap p).isSome ∨ w.request p = .ok none) ∧
      ((rfired = true → w.Answers e) → w'.Owing) := by
  rcases halive.readHalf_cases hread with
    ⟨-, rfl⟩ | ⟨-, -, haccept⟩ | ⟨rfl, p, c, b, sys', r, hc, hfd, hreg, hlink, hatt, hhandler, rfl⟩
  · exact ⟨fun p hp => Or.inl hp, fun _ => h⟩
  · have hnote : Alive ⟨w.sys.note (.called .acceptTcp e.fd (some .server)), w.heap⟩ listenFd
        conn := halive.note rfl
    have howe : World.Owing ⟨w.sys.note (.called .acceptTcp e.fd (some .server)), w.heap⟩ := h
    obtain ⟨howe', hkeep⟩ := howe.accept hnote haccept
    exact ⟨fun p hp => Or.inl (hkeep p hp), fun _ => howe'⟩
  · refine ⟨fun q hq => ?_, fun hcond => ?_⟩
    · -- the read of the client at `p` decides whether it stays
      cases r with
      | some c₁ => exact Or.inl (isSome_update hq fun _ => rfl)
      | none =>
          by_cases hqp : q = p
          · subst hqp
            right
            unfold readEventHandler at hhandler
            obtain ⟨⟨sys₁, r₁⟩, hpkg, hrest⟩ := bind_eq_ok.mp hhandler
            cases r₁ with
            | none => exact request_of_readPackage hc hpkg
            | some c₁ =>
                obtain ⟨x, -, hret⟩ := bind_eq_ok.mp hrest
                cases (Prod.mk.inj (Except.ok.inj hret)).2
          · exact Or.inl (isSome_update hq fun heq => absurd heq hqp)
    · have ht := (readEventHandler_outcome (hlink.note _) hatt hhandler).touches
      apply h.update halive hc ⟨ht.loop, ht.socks⟩
      apply readEventHandler_owing hc (h p c hc) hlink _ hhandler
      intro args hreq hmute
      exact (h p c hc).queued_iff.mp (hcond rfl p c args (hfd ▸ hreg.data) hc hreq hmute)

/-- **The write half of an entry** deletes no client. -/
theorem World.Owing.writeHalf (h : w.Owing) (halive : Alive w listenFd conn) {e : AeFiredEvent}
    {rfired : Bool} (hwrite : AeEventLoop.writeHalf World.host e rfired w = .ok w') :
    (∀ p, (w.heap p).isSome → (w'.heap p).isSome) ∧ w'.Owing := by
  rcases halive.writeHalf_cases hwrite with
    rfl | ⟨p, c, sys', r, hc, hreg, hlink, hatt, hhandler, rfl⟩
  · exact ⟨fun p hp => hp, h⟩
  · have ht := (writeEventHandler_outcome (hlink.note _) hatt hhandler).touches
    have howe : Server.Owing (w.sys.note (.called .writeEvent c.fd (some (.client p)))).loop c :=
      h p c hc
    obtain ⟨c₁, rfl, howe⟩ := writeEventHandler_owing howe (hlink.note _) hatt hreg.has_writable
      hhandler
    refine ⟨fun q hq => isSome_update hq fun _ => rfl,
      h.update halive hc ⟨ht.loop, ht.socks⟩ fun c₂ hc₂ => ?_⟩
    obtain rfl := Option.some.inj hc₂
    exact howe

end Steps

/-- The states of the runs in which no `get` or `set` request is dispatched for a client with an
empty queue. -/
inductive WriteAsked (listenFd : ℤ) : World → Prop
  | init {env : World.Env} {maxClientCount : ℕ} {ctl : List Bool} {r : ℤ} {w : World}
      (hinit : World.init env maxClientCount (some (.create maxClientCount ctl)) listenFd =
        .ok (r, w)) (hr : r ≠ aeErr) : WriteAsked listenFd w
  | poll {w : World} {batch : List EpollEvent} {n : ℕ} {l : AeEventLoop EventProc ClientData}
      (hw : WriteAsked listenFd w) (hpoll : w.sys.loop.poll batch = .ok (n, l)) :
      WriteAsked listenFd (World.host.withLoop w l)
  | readHalf {w w' : World} {e : AeFiredEvent} {rfired : Bool} (hw : WriteAsked listenFd w)
      (hread : AeEventLoop.readHalf World.host e w = .ok (rfired, w'))
      (hcond : rfired = true → w.Answers e) : WriteAsked listenFd w'
  | writeHalf {w w' : World} {e : AeFiredEvent} {rfired : Bool} (hw : WriteAsked listenFd w)
      (hwrite : AeEventLoop.writeHalf World.host e rfired w = .ok w') : WriteAsked listenFd w'

/-- Such a state is reachable. -/
theorem WriteAsked.reachable {listenFd : ℤ} {w : World} (hw : WriteAsked listenFd w) :
    Reachable listenFd w := by
  induction hw with
  | init hinit hr => exact .init hinit hr
  | poll hw hpoll ih => exact ih.poll hpoll
  | readHalf hw hread hcond ih => exact ih.readHalf hread
  | writeHalf hw hwrite ih => exact ih.writeHalf hwrite

/-- **Run lemma.** The invariant holds after every such run. -/
theorem WriteAsked.owing {listenFd : ℤ} {w : World} (hw : WriteAsked listenFd w) : w.Owing := by
  induction hw with
  | init hinit hr =>
      unfold World.init at hinit
      obtain ⟨x, -, hret⟩ := bind_eq_ok.mp hinit
      obtain ⟨-, rfl⟩ := Prod.mk.inj (Except.ok.inj hret)
      exact fun p c hc => (nomatch hc)
  | @poll w batch n l hw hpoll ih =>
      obtain ⟨conn, h⟩ := hw.reachable.alive
      obtain ⟨s, hs⟩ := h.api
      rw [h.fits.poll hs] at hpoll
      obtain ⟨-, rfl⟩ := Prod.mk.inj (Except.ok.inj hpoll)
      exact fun p c hc => (ih p c hc).of_entry rfl
  | readHalf hw hread hcond ih =>
      obtain ⟨conn, h⟩ := hw.reachable.alive
      exact (ih.readHalf h hread).2 hcond
  | writeHalf hw hwrite ih =>
      obtain ⟨conn, h⟩ := hw.reachable.alive
      exact (ih.writeHalf h hwrite).2

/-- Writable interest means pending output. -/
structure Pending (w : World) : Prop where
  /-- A client that is registered for writing has something queued. -/
  queued : ∀ p c, w.heap p = some c → (w.sys.loop.entry c.fd).mask.has aeWritable = true →
    c.wBuffer.readable ≠ []
  /-- `write_event_handler` does not delete its client. -/
  written : ∀ e rfired w', AeEventLoop.writeHalf World.host e rfired w = .ok w' →
    ∀ p, (w.heap p).isSome → (w'.heap p).isSome
  /-- A client is only dropped when its read returns 0, not for what it asks. -/
  answered : ∀ e rfired w', AeEventLoop.readHalf World.host e w = .ok (rfired, w') →
    ∀ p, (w.heap p).isSome → (w'.heap p).isSome ∨ w.request p = .ok none

/-- **Writable interest means pending output**, as long as no `get` or `set` is dispatched for a
client whose queue is empty. Such a request leads to a state in which it does not. -/
theorem writable_pending {listenFd : ℤ} {w : World} (hw : WriteAsked listenFd w) :
    Pending w ∧ ∀ e w', AeEventLoop.readHalf World.host e w = .ok (true, w') → ¬w.Answers e →
      ¬Pending w' := by
  have howe := hw.owing
  obtain ⟨conn, h⟩ := hw.reachable.alive
  refine ⟨⟨fun p c hc hmask => ?_, fun e rfired w' hwrite => ?_, fun e rfired w' hread => ?_⟩, ?_⟩
  · exact (howe p c hc).queued_iff.mpr ((howe p c hc).pending hmask)
  · exact (howe.writeHalf h hwrite).1
  · exact (howe.readHalf h hread).1
  · intro e w' hread hnot hpend
    apply hnot
    intro p c args hdata hc hreq hmute hempty
    rcases h.readHalf_cases hread with
      ⟨hfalse, -⟩ | ⟨-, heq, -⟩ | ⟨-, q, d, b, sys', r, hd, hfd, hreg, hlink, -, hhandler, rfl⟩
    · exact Bool.false_ne_true hfalse.symm
    · rw [heq, h.listening] at hdata
      cases hdata
    · rw [← hfd, hreg.data] at hdata
      obtain rfl : q = p := by cases hdata; rfl
      obtain rfl := Option.some.inj (hd.symm.trans hc)
      -- the mute request leaves the client as its read left it, registered for writing
      unfold readEventHandler at hhandler
      obtain ⟨⟨sys₁, r₁⟩, hpkg, hrest⟩ := bind_eq_ok.mp hhandler
      have hreq' := (request_of_readPackage hc hpkg).symm.trans hreq
      obtain ⟨s, rfl, hclient⟩ := readPackage_eq hpkg
      cases r₁ with
      | none => cases hreq'
      | some d₁ =>
          obtain ⟨buf, arg, rfl⟩ := hclient d₁ rfl
          obtain rfl : arg = args := Option.some.inj (Except.ok.inj hreq')
          obtain ⟨⟨sys₂, d₂⟩, hcmd, hret⟩ := bind_eq_ok.mp hrest
          obtain ⟨rfl, rfl⟩ := Prod.mk.inj (Except.ok.inj hret)
          obtain ⟨rfl, hwritable⟩ := processCommand_mute
            (c := { d with rBuffer := buf, arg }) ((hlink.note _).io s _ _).toLinked hmute hcmd
          exact hpend.queued q _ (Function.update_self _ _ _) hwritable hempty

/-- A client that sends the two requests `ping` and `get a`. -/
def pipelinedEnv : World.Env where
  files := .empty
  accepts :=
    [⟨4, 0, { inbox := frame headSize (text "ping") ++ frame headSize (text "get a") }⟩]

/-- `get a` while the answer to `ping` is queued. -/
theorem writable_pending_pipelined :
    ∃ w, (w.sys.loop.entry 4).mask = aeBoth ∧ (w.heap 0).isSome ∧ Pending w ∧
      ∀ e w', AeEventLoop.readHalf World.host e w = .ok (true, w') → ¬w.Answers e →
        ¬Pending w' := by
  have hrun : (World.init pipelinedEnv 8 (some (.create 8 [])) 3 >>= fun x =>
      AeEventLoop.readHalf World.host ⟨3, aeReadable⟩ x.2 >>= fun y =>
      AeEventLoop.readHalf World.host ⟨4, aeReadable⟩ y.2 >>= fun z =>
      AeEventLoop.readHalf World.host ⟨4, aeReadable⟩ z.2 >>= fun w => Except.ok (decide
        (x.1 = aeOk ∧ (x.2.sys.loop.entry 3).clientData = some .server ∧
          y.2.request 0 = .ok (some [text "ping"]) ∧
          (y.2.sys.loop.entry 4).clientData = some (.client 0) ∧
          (z.2.heap 0).map (fun c => c.wBuffer.readable.length) = some 13 ∧
          (z.2.sys.loop.entry 4).clientData = some (.client 0) ∧
          (w.2.sys.loop.entry 4).mask = aeBoth ∧ (w.2.heap 0).isSome))) = .ok true := by
    decide +kernel
  simp only [bind_eq_ok] at hrun
  obtain ⟨x, hinit, y, haccept, z, hping, w, hget, hret⟩ := hrun
  obtain ⟨hr, hlisten, hreq, hdata, hqueue, hdata', hmask, hlive⟩ :=
    of_decide_eq_true (Except.ok.inj hret)
  have h₀ : WriteAsked 3 x.2 := .init hinit (by rw [hr]; decide)
  have h₁ : WriteAsked 3 y.2 := h₀.readHalf haccept (by
    intro _ p c args hclient
    rw [hlisten] at hclient
    cases hclient)
  have h₂ : WriteAsked 3 z.2 := h₁.readHalf hping (by
    intro _ p c args hclient _ hargs hmute
    rw [hdata] at hclient
    cases hclient
    rw [hreq] at hargs
    obtain rfl := Option.some.inj (Except.ok.inj hargs)
    cases hmute)
  have h₃ : WriteAsked 3 w.2 := h₂.readHalf hget (by
    intro _ p c args hclient hc _ _ hempty
    rw [hdata'] at hclient
    cases hclient
    rw [hc] at hqueue
    have hlen : c.wBuffer.readable.length = 13 := Option.some.inj hqueue
    rw [hempty] at hlen
    cases hlen)
  exact ⟨w.2, hmask, hlive, writable_pending h₃⟩

/-- The client sends `get a` alone. -/
def getEnv : World.Env where
  files := .empty
  accepts := [⟨4, 0, { inbox := frame headSize (text "get a") }⟩]

/-- `get a` is read whole and dispatched; the client is registered for writing with nothing queued,
and the writable event closes its connection. -/
theorem get_drops_client :
    ∃ r w w₁ w₂, World.init getEnv 8 (some (.create 8 [])) 3 = .ok (r, w) ∧
      [[⟨epollIn, 3⟩], [⟨epollIn, 4⟩]].foldlM (AeEventLoop.processEvents World.host) w = .ok w₁ ∧
      AeEventLoop.processEvents World.host w₁ [⟨epollOut, 4⟩] = .ok w₂ ∧
      (w₁.sys.loop.entry 4).mask = aeBoth ∧
      (w₁.heap 0).map (fun c => (c.arg, c.wBuffer.readable)) =
        some ([text "get", text "a"], []) ∧
      (w₂.heap 0).isNone ∧
      w₂.sys.trace = w₁.sys.trace ++
        [.called .writeEvent 4 (some (.client 0)), .closed 4 aeNone] := by
  have hrun : (World.init getEnv 8 (some (.create 8 [])) 3 >>= fun x =>
      [[⟨epollIn, 3⟩], [⟨epollIn, 4⟩]].foldlM (AeEventLoop.processEvents World.host) x.2 >>=
        fun w₁ => AeEventLoop.processEvents World.host w₁ [⟨epollOut, 4⟩] >>= fun w₂ => Except.ok
        (decide ((w₁.sys.loop.entry 4).mask = aeBoth ∧
          (w₁.heap 0).map (fun c => (c.arg, c.wBuffer.readable)) =
            some ([text "get", text "a"], []) ∧
          (w₂.heap 0).isNone ∧ w₂.sys.trace = w₁.sys.trace ++
            [.called .writeEvent 4 (some (.client 0)), .closed 4 aeNone]))) = .ok true := by
    decide +kernel
  simp only [bind_eq_ok] at hrun
  obtain ⟨x, hinit, w₁, hevents, w₂, hwrite, hret⟩ := hrun
  have hend := of_decide_eq_true (Except.ok.inj hret)
  exact ⟨x.1, x.2, w₁, w₂, hinit, hevents, hwrite, hend⟩

end AsprNet.Server
