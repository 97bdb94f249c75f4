import AsprNet.Addresses
import AsprNet.Server.Lifetime

/-! # The server's descriptors

The server as the handlers see it (`World`) and the process whose descriptors it uses (`Sockets`),
put together. `init` opens an epoll instance and a listening socket (`Equipped`). It fails exactly
when it gets no listening socket (`init_halts_iff`); without an epoll instance it goes on, and
nothing is registered. From then on the two go along with each other by the trace of the
handlers: a descriptor is accepted by `anetTcpAccept`, and is closed by `close` (`Carries`).

In every reachable state the descriptors of the process are those it had before, the listening one,
and one for each live client (`descriptors_owned`): none is lost, and none is closed twice.
-/

namespace AsprNet.Server

/-! ## Starting -/

/-- `server_t::init`: the result of `add_file_event`, the listening descriptor, the process and the
world. `junk` is what the stack has where `init` and `anetFormatSock` have their arrays. -/
def init (s : Sockets) (port tcpBacklog : ℤ) (env : World.Env) (maxClientCount : ℕ)
    (ctl : List Bool) (junk : ℕ → UInt8) : Except Halt (ℤ × ℤ × Sockets × World) := do
  let (epollFd, s) := s.epollCreate
  let api := if epollFd = -1 then none else some (AeEpollState.create maxClientCount ctl)
  let (listenFd, s) := s.anetTcpServer true port none tcpBacklog
  let s := if listenFd ≠ -1 then (s.anetNonBlock true listenFd).2 else s
  let (r, w) ← World.init env maxClientCount api listenFd
  if r ≠ -1 then
    let (name, s) := s.getsockname listenFd
    let ip := (List.range inet6Addrstrlen).map junk
    -- the text is not used
    let _ ← s.anetFormatSock name ip ((List.range 64).map junk)
    return (r, listenFd, s, w)
  else
    return (r, listenFd, s, w)

/-- `add_file_event` returns exactly for what may be a descriptor. -/
theorem addFileEvent_returns_iff {l : AeEventLoop EventProc ClientData} (hl : l.Sized) {fd : ℤ}
    (mask : Mask) (proc : EventProc) (data : ClientData) :
    (∃ x, l.addFileEvent fd mask proc data = .ok x) ↔ 0 ≤ fd := by
  have hlen : (l.events.length : ℤ) = l.fdsetSize := hl
  rw [AeEventLoop.addFileEvent]
  constructor
  · rintro ⟨x, h⟩
    by_contra hneg
    rw [if_neg (by omega), AeEventLoop.event, if_neg (by omega)] at h
    cases h
  · intro h0
    split_ifs with hge
    · exact ⟨_, rfl⟩
    · rw [hl.event h0 (by omega), ok_bind]
      cases l.apiData with
      | none => exact ⟨_, rfl⟩
      | some a =>
          dsimp only
          split_ifs <;> exact ⟨_, rfl⟩

/-- Registering the listening socket goes through unless its descriptor is negative. -/
theorem World.init_returns_iff (env : World.Env) (maxClientCount : ℕ) (api : Option AeEpollState)
    (listenFd : ℤ) : (∃ x, World.init env maxClientCount api listenFd = .ok x) ↔ 0 ≤ listenFd := by
  have hsized : (AeEventLoop.create maxClientCount api :
      AeEventLoop EventProc ClientData).Sized := by
    simp [AeEventLoop.Sized, AeEventLoop.create]
  rw [← addFileEvent_returns_iff hsized aeReadable .acceptTcp .server]
  simp only [World.init, Sys.addFileEvent, bind_eq_ok]
  constructor
  · rintro ⟨_, _, ⟨x, hx, -⟩, -⟩
    exact ⟨x, hx⟩
  · rintro ⟨x, hx⟩
    exact ⟨_, _, ⟨x, hx, rfl⟩, rfl⟩

/-- What `anetTcpServer` gives: nothing, or a socket that listens. -/
theorem anetTcpServer_gives (s : Sockets) (err : Bool) (port backlog : ℤ) :
    (s.anetTcpServer err port none backlog).1 = anetErr ∨
    ∃ (n : ℕ) (s' : Sockets) (k : Socket), s.anetTcpServer err port none backlog = ((n : ℤ), s') ∧
      Holding s n (some k) s' ∧ ListensOn s port none afInet backlog k := by
  rw [Sockets.anetTcpServer]
  have hcases := tcpServer_exact s err port none afInet backlog
  generalize s.tcpServer err port none afInet backlog = rs at hcases
  rcases hcases with ⟨-, hleak⟩ | ⟨-, hopen⟩
  · cases hleak
    exact Or.inl rfl
  · cases hopen with
    | failed => exact Or.inl rfl
    | opened _ holding hk => exact Or.inr ⟨_, _, _, rfl, holding, hk⟩

/-- Without an epoll instance nothing can be registered. -/
theorem World.init_null {env : World.Env} {maxClientCount : ℕ} {listenFd r : ℤ} {w : World}
    (h : World.init env maxClientCount none listenFd = .ok (r, w)) : r = aeErr := by
  rw [World.init, bind_eq_ok] at h
  obtain ⟨⟨r', sys⟩, hadd, hret⟩ := h
  obtain ⟨rfl, rfl⟩ := Prod.mk.inj (Except.ok.inj hret)
  rw [Sys.addFileEvent, bind_eq_ok] at hadd
  obtain ⟨⟨r', l⟩, hadd, hret⟩ := hadd
  obtain ⟨rfl, rfl⟩ := Prod.mk.inj (Except.ok.inj hret)
  exact (AeEventLoop.addFileEvent_null rfl hadd).1

/-- What `epoll_create` gives the loop. -/
def epollState (s : Sockets) (maxClientCount : ℕ) (ctl : List Bool) : Option AeEpollState :=
  if s.epollCreate.1 = -1 then none else some (.create maxClientCount ctl)

/-- The name of a listening socket can be printed. -/
theorem printable_of_listensOn {s : Sockets} {port af backlog : ℤ} {bindaddr : Option Bytes}
    {k : Socket} (h : ListensOn s port bindaddr af backlog k) {addr : SockAddr}
    (haddr : addr = k.name.getD (anyAddr k.family)) (hinet : addr.IsInet) : addr.Printable := by
  obtain ⟨ps, -, p, -, hl⟩ := h
  rw [hl.name] at haddr
  obtain rfl : addr = p.addr := haddr
  exact p.printable hinet

/-- `init` by its outcome. -/
theorem init_cases (s : Sockets) (port tcpBacklog : ℤ) (env : World.Env) (maxClientCount : ℕ)
    (ctl : List Bool) (junk : ℕ → UInt8) :
    ((s.epollCreate.2.anetTcpServer true port none tcpBacklog).1 = anetErr ∧ ∃ e,
      init s port tcpBacklog env maxClientCount ctl junk = .error e) ∨
    ((s.epollCreate.2.anetTcpServer true port none tcpBacklog).1 ≠ anetErr ∧
      ∃ r listenFd s' w k,
        init s port tcpBacklog env maxClientCount ctl junk = .ok (r, listenFd, s', w) ∧
        World.init env maxClientCount (epollState s maxClientCount ctl) listenFd = .ok (r, w) ∧
        Holding s.epollCreate.2 listenFd (some k) s' ∧
        ListensOn s.epollCreate.2 port none afInet tcpBacklog k) := by
  rw [init]
  dsimp only
  rw [show (if s.epollCreate.1 = -1 then none else
    some (AeEpollState.create maxClientCount ctl)) = epollState s maxClientCount ctl from rfl]
  rcases anetTcpServer_gives s.epollCreate.2 true port tcpBacklog with
    herr | ⟨n, s₁, k, hserver, hhold, hk⟩
  · refine Or.inl ⟨herr, ?_⟩
    have hret := World.init_returns_iff env maxClientCount (epollState s maxClientCount ctl) anetErr
    rw [herr]
    cases hinit : World.init env maxClientCount (epollState s maxClientCount ctl) anetErr with
    | ok x => exact absurd (hret.mp ⟨x, hinit⟩) (by decide)
    | error e => exact ⟨e, rfl⟩
  obtain ⟨⟨r, w⟩, hx⟩ := (World.init_returns_iff env maxClientCount
    (epollState s maxClientCount ctl) n).mpr (Int.natCast_nonneg n)
  have hn : (n : ℤ) ≠ -1 := by omega
  obtain ⟨s₂, hset, -, -, h₂⟩ := hhold.setBlock true true
  obtain ⟨k', h₂, hk'⟩ : ∃ k', Holding s.epollCreate.2 n (some k') s₂ ∧
      ListensOn s.epollCreate.2 port none afInet tcpBacklog k' := by
    refine ⟨_, h₂, ?_⟩
    obtain ⟨ps, hps, p, hp, hl⟩ := hk
    refine ⟨ps, hps, p, hp, ?_⟩
    split
    · exact hl
    · exact ⟨hl.name, hl.backlog, hl.reuse, hl.only⟩
  obtain ⟨name, s₃, hname, h₃, haddr⟩ := h₂.getsockname
  rw [hserver]
  dsimp only
  rw [if_pos hn, Sockets.anetNonBlock, hset, hx, ok_bind]
  dsimp only
  refine Or.inr ⟨hn, ?_⟩
  split_ifs with hr
  · -- the text of the listening socket is made and dropped
    have hip : ((List.range inet6Addrstrlen).map junk).length = inet6Addrstrlen := by
      rw [List.length_map, List.length_range]
    have hbuf : (List.range 64).map junk ≠ [] := by simp
    obtain ⟨m, buf, t, hformat, -⟩ := anetFormatSock_reads s₃
      (fun addr hsome => printable_of_listensOn hk' (haddr addr hsome)) hip hbuf
    rw [hname]
    dsimp only
    rw [hformat, ok_bind]
    exact ⟨r, n, s₃, w, k', rfl, hx, h₃, hk'⟩
  · exact ⟨r, n, s₂, w, k', rfl, hx, h₂, hk'⟩

/-- What `init` leaves of the process: all that was open in `s`, and beside it the epoll instance,
unless `epollFd` is `-1`, and the socket `k`, each at a number that was free. -/
structure Equipped (s : Sockets) (epollFd listenFd : ℤ) (k : Socket) (s' : Sockets) : Prop extends
    Unstrayed s s' where
  epollFree : s.descriptors epollFd = none
  listenFree : s.descriptors listenFd = none
  distinct : listenFd ≠ epollFd
  opened : ∀ fd, s'.descriptors fd =
    if fd = listenFd then some (.socket k)
    else if fd = epollFd ∧ epollFd ≠ -1 then some (.epoll oRdwr)
    else s.descriptors fd

/-- An epoll instance, if there is one, and a socket beside it. -/
theorem Equipped.of_holding {s s' : Sockets} {listenFd : ℤ} {k : Socket}
    (h : Holding s.epollCreate.2 listenFd (some k) s') :
    Equipped s s.epollCreate.1 listenFd k s' := by
  have hcreated := s.epollCreate_created
  have hneg : s.descriptors (-1) = none := s.table.get_of_neg (by decide)
  have hopen := h.beside.eq
  have hfree := h.beside.fresh
  have hlisten : listenFd ≠ -1 := by
    rintro rfl
    have hfile := h.file
    rw [Sockets.descriptors, s'.table.get_of_neg (by decide)] at hfile
    cases hfile
  generalize s.epollCreate = rs at h hcreated hopen hfree
  cases hcreated with
  | @failed s₁ settled =>
      refine ⟨settled.toUnstrayed.trans h.toUnstrayed, hneg, ?_, hlisten, fun fd => ?_⟩
      · rw [← settled.descriptors]
        exact hfree
      · rw [hopen, settled.descriptors, Function.update_apply]
        simp
  | @created n s₁ lowest stray beside =>
      have hne : listenFd ≠ n := by
        rintro rfl
        have hepoll := beside.get
        rw [hfree] at hepoll
        cases hepoll
      refine ⟨stray.trans h.toUnstrayed, beside.fresh, ?_, hne, fun fd => ?_⟩
      · rw [← beside.get_of_ne hne]
        exact hfree
      · rw [hopen, beside.eq, Function.update_apply, Function.update_apply]
        have hn : (n : ℤ) ≠ -1 := by omega
        simp [hn]

/-- **`init`** fails exactly when `anetTcpServer` gives no descriptor: `-1` is used as an index of
the event table. Otherwise it has opened an epoll instance and a listening socket and nothing else,
and the server is started; or the listening socket is all that is new, because `epoll_create`
failed, and the server is not started. It is not started either when the descriptor could not be
registered. -/
theorem init_halts_iff (s : Sockets) (port tcpBacklog : ℤ) (env : World.Env) (maxClientCount : ℕ)
    (ctl : List Bool) (junk : ℕ → UInt8) :
    ((∃ e, init s port tcpBacklog env maxClientCount ctl junk = .error e) ↔
      (s.epollCreate.2.anetTcpServer true port none tcpBacklog).1 = anetErr) ∧
    ∀ r listenFd s' w,
      init s port tcpBacklog env maxClientCount ctl junk = .ok (r, listenFd, s', w) →
      (∃ k, Equipped s s.epollCreate.1 listenFd k s' ∧
        ListensOn s.epollCreate.2 port none afInet tcpBacklog k) ∧
      (s.epollCreate.1 = -1 → r = aeErr) ∧ (r ≠ aeErr → Reachable listenFd w) := by
  rcases init_cases s port tcpBacklog env maxClientCount ctl junk with
    ⟨herr, e, he⟩ | ⟨hne, r, listenFd, s', w, k, hrun, hinit, hhold, hk⟩
  · refine ⟨iff_of_true ⟨e, he⟩ herr, fun r listenFd s' w hok => ?_⟩
    rw [he] at hok
    cases hok
  · refine ⟨iff_of_false ?_ hne, fun r' listenFd' s'' w' hok => ?_⟩
    · rintro ⟨e, he⟩
      rw [hrun] at he
      cases he
    · rw [hrun] at hok
      simp only [Except.ok.injEq, Prod.mk.injEq] at hok
      obtain ⟨rfl, rfl, rfl, rfl⟩ := hok
      rw [epollState] at hinit
      split_ifs at hinit with hepoll
      · have hr := World.init_null hinit
        exact ⟨⟨k, .of_holding hhold, hk⟩, fun _ => hr, fun hne => absurd hr hne⟩
      · exact ⟨⟨k, .of_holding hhold, hk⟩, fun h => absurd h hepoll, .init hinit⟩

/-! ## Going on -/

/-- `accept_tcp_handler` up to the allocation of the client. -/
def acceptDescriptor (s : Sockets) (fd : ℤ) : Except Halt (ℤ × Sockets) := do
  let (_, clientFd, s) ← s.anetTcpAccept false fd 64
  if clientFd ≠ -1 then return (clientFd, (s.anetEnableTcpNoDelay false clientFd).2)
  else return (clientFd, s)

/-- **The process goes along with the trace** of the handlers: what they accept is what
`anetTcpAccept` gives, and what they close is closed. `anetTcpAccept` may fail at any time. -/
inductive Carries (listenFd : ℤ) (s : Sockets) : List LifeEvent → Sockets → Prop
  | start : Carries listenFd s [] s
  | called {t : List LifeEvent} {s₁ : Sockets} (h : Carries listenFd s t s₁) (proc : EventProc)
      (fd : ℤ) (data : Option ClientData) : Carries listenFd s (t ++ [.called proc fd data]) s₁
  | refused {t : List LifeEvent} {s₁ s₂ : Sockets} (h : Carries listenFd s t s₁)
      (haccept : acceptDescriptor s₁ listenFd = .ok (-1, s₂)) : Carries listenFd s t s₂
  | accepted {t : List LifeEvent} {s₁ s₂ : Sockets} {fd : ℤ} (h : Carries listenFd s t s₁)
      (haccept : acceptDescriptor s₁ listenFd = .ok (fd, s₂)) (hfd : fd ≠ -1) (p : ℕ) :
      Carries listenFd s (t ++ [.accepted fd p]) s₂
  | closed {t : List LifeEvent} {s₁ : Sockets} (h : Carries listenFd s t s₁) (fd : ℤ)
      (mask : Mask) : Carries listenFd s (t ++ [.closed fd mask]) (s₁.close fd)

/-- The process has what it had in `b`, the listening socket `k`, and the connections `conn`. -/
structure Owns (b : Sockets) (listenFd : ℤ) (k : Socket) (conn : ℤ → Option ℕ) (s : Sockets) :
    Prop extends Unstrayed b s where
  listening : s.descriptors listenFd = some (.socket k)
  kept : ∀ fd, fd ≠ listenFd → conn fd = none → s.descriptors fd = b.descriptors fd
  owned : ∀ fd p, conn fd = some p → fd ≠ listenFd ∧ b.descriptors fd = none ∧
    (s.descriptors fd).isSome = true

section Owns

variable {b s s' : Sockets} {listenFd fd : ℤ} {k : Socket} {conn : ℤ → Option ℕ}

/-- At first the process owns the listening socket alone. -/
theorem Owns.start (h : Holding b listenFd (some k) s) : Owns b listenFd k (fun _ => none) s :=
  ⟨h.toUnstrayed, h.file, fun _ hne _ => h.beside.get_of_ne hne, fun _ _ hp => (nomatch hp)⟩

/-- What is settled does not matter. -/
theorem Owns.settled (h : Owns b listenFd k conn s) (hs : Settled s s') :
    Owns b listenFd k conn s' :=
  ⟨h.toUnstrayed.trans hs.toUnstrayed, by rw [hs.descriptors]; exact h.listening,
    by rw [hs.descriptors]; exact h.kept, by rw [hs.descriptors]; exact h.owned⟩

/-- A connection that is closed was open, and is given back. -/
theorem Owns.close (h : Owns b listenFd k conn s) {p : ℕ} (hp : conn fd = some p) :
    Owns b listenFd k (Function.update conn fd none) (s.close fd) := by
  obtain ⟨hne, hbase, hsome⟩ := h.owned fd p hp
  obtain ⟨k', hk'⟩ := Option.isSome_iff_exists.mp hsome
  obtain ⟨hopen, hstray, -, -⟩ := s.close_cases hk'
  refine ⟨h.toUnstrayed.trans hstray, ?_, fun fd' hne' hconn => ?_, fun fd' p' hp' => ?_⟩
  · rw [hopen, Function.update_of_ne hne.symm]
    exact h.listening
  · rcases eq_or_ne fd' fd with rfl | hother
    · rw [hopen, Function.update_self, hbase]
    · rw [Function.update_of_ne hother] at hconn
      rw [hopen, Function.update_of_ne hother]
      exact h.kept fd' hne' hconn
  · rcases eq_or_ne fd' fd with rfl | hother
    · rw [Function.update_self] at hp'
      cases hp'
    · rw [Function.update_of_ne hother] at hp'
      rw [hopen, Function.update_of_ne hother]
      exact h.owned fd' p' hp'

/-- A new connection is beside all that is open. -/
theorem Owns.accept (h : Owns b listenFd k conn s) {k' : Socket} (hs : Holding s fd (some k') s')
    (p : ℕ) : Owns b listenFd k (Function.update conn fd (some p)) s' := by
  have hne : fd ≠ listenFd := by
    rintro rfl
    have hfresh := hs.beside.fresh
    rw [h.listening] at hfresh
    cases hfresh
  have hconn : conn fd = none := by
    by_contra hsome
    obtain ⟨q, hq⟩ := Option.ne_none_iff_exists'.mp hsome
    have hopen := (h.owned fd q hq).2.2
    rw [hs.beside.fresh] at hopen
    cases hopen
  refine ⟨h.toUnstrayed.trans hs.toUnstrayed, ?_, fun fd' hne' hnone => ?_, fun fd' p' hp' => ?_⟩
  · rw [hs.beside.get_of_ne hne.symm]
    exact h.listening
  · rcases eq_or_ne fd' fd with rfl | hother
    · rw [Function.update_self] at hnone
      cases hnone
    · rw [Function.update_of_ne hother] at hnone
      rw [hs.beside.get_of_ne hother]
      exact h.kept fd' hne' hnone
  · rcases eq_or_ne fd' fd with rfl | hother
    · refine ⟨hne, ?_, by rw [hs.file]; rfl⟩
      rw [← h.kept fd' hne hconn]
      exact hs.beside.fresh
    · rw [Function.update_of_ne hother] at hp'
      rw [hs.beside.get_of_ne hother]
      exact h.owned fd' p' hp'

/-- **`accept_tcp_handler`** gets a descriptor that was free, or none. -/
theorem acceptDescriptor_cases (hlisten : s.descriptors listenFd = some (.socket k)) {r : ℤ}
    (hrun : acceptDescriptor s listenFd = .ok (r, s')) :
    (r = -1 ∧ Settled s s') ∨ (r ≠ -1 ∧ ∃ k', Holding s r (some k') s') := by
  obtain ⟨peer, rs, haccept, hopen, -⟩ :=
    genericAccept_opened s false (s.sockets_eq_some_iff.mpr hlisten)
  rw [acceptDescriptor, Sockets.anetTcpAccept, haccept, ok_bind] at hrun
  cases hopen with
  | failed settled told =>
      obtain ⟨rfl, rfl⟩ := Prod.mk.inj (Except.ok.inj hrun)
      exact Or.inl ⟨rfl, settled⟩
  | @opened n k' s₁ lowest holding hk =>
      have hn : ¬(n : ℤ) = -1 := by omega
      obtain ⟨s₂, hset, -, -, h₂⟩ := holding.setOption false .tcpNodelay [1]
        (text "setsockopt TCP_NODELAY: ") []
      dsimp only at hrun
      rw [if_neg hn] at hrun
      have hrun : (if (n : ℤ) ≠ -1 then Except.ok ((n : ℤ), (s₁.anetEnableTcpNoDelay false n).2)
          else Except.ok ((n : ℤ), s₁) : Except Halt (ℤ × Sockets)) = .ok (r, s') := hrun
      rw [if_pos hn, Sockets.anetEnableTcpNoDelay, Sockets.anetSetTcpNoDelay, hset] at hrun
      obtain ⟨rfl, rfl⟩ := Prod.mk.inj (Except.ok.inj hrun)
      exact Or.inr ⟨hn, _, h₂⟩

/-- The last event of a trace may happen after the others. -/
theorem openAfter_of_snoc {t : List LifeEvent} {ev : LifeEvent}
    (h : openAfter (t ++ [ev]) = some conn) :
    ∃ conn₁, openAfter t = some conn₁ ∧ ev.next conn₁ = some conn := by
  rw [openAfter, List.foldlM_append, Option.bind_eq_bind, Option.bind_eq_some_iff] at h
  obtain ⟨conn₁, h₁, hlast⟩ := h
  exact ⟨conn₁, h₁, by simpa using hlast⟩

/-- A call opens and closes nothing by itself. -/
theorem LifeEvent.next_called {proc : EventProc} {data : Option ClientData}
    {conn₁ : ℤ → Option ℕ} (h : (LifeEvent.called proc fd data).next conn₁ = some conn) :
    conn₁ = conn := by
  rcases data with _ | _ | p <;> cases proc <;> grind [LifeEvent.next]

/-- **A run of the process** keeps what the server owns. -/
theorem Carries.owns {t : List LifeEvent} (hrun : Carries listenFd s t s')
    (hinit : Holding b listenFd (some k) s) (ht : openAfter t = some conn) :
    Owns b listenFd k conn s' := by
  induction hrun generalizing conn with
  | start =>
      obtain rfl := Option.some.inj ht
      exact .start hinit
  | @called t s₁ h proc fd data ih =>
      obtain ⟨conn₁, h₁, hev⟩ := openAfter_of_snoc ht
      obtain rfl := LifeEvent.next_called hev
      exact ih h₁
  | @refused t s₁ s₂ h haccept ih =>
      have hown := ih ht
      rcases acceptDescriptor_cases hown.listening haccept with ⟨-, hs⟩ | ⟨hne, -⟩
      · exact hown.settled hs
      · exact absurd rfl hne
  | @accepted t s₁ s₂ fd h haccept hfd p ih =>
      obtain ⟨conn₁, h₁, hev⟩ := openAfter_of_snoc ht
      have hown := ih h₁
      rw [LifeEvent.next] at hev
      split_ifs at hev
      obtain rfl := Option.some.inj hev
      rcases acceptDescriptor_cases hown.listening haccept with ⟨hr, -⟩ | ⟨-, k', hs⟩
      · exact absurd hr hfd
      · exact hown.accept hs p
  | @closed t s₁ h fd mask ih =>
      obtain ⟨conn₁, h₁, hev⟩ := openAfter_of_snoc ht
      rw [LifeEvent.next] at hev
      split_ifs at hev with hcan
      obtain rfl := Option.some.inj hev
      obtain ⟨p, hp⟩ := Option.isSome_iff_exists.mp hcan.1
      exact (ih h₁).close hp

/-- **The descriptors of the server.** Whatever the kernel reports, accepts and refuses, the process
has open what it had before, the listening descriptor, and one descriptor for each live client, and
it never used a descriptor that was not open: none is lost and none is closed twice. -/
theorem descriptors_owned {w : World} (hw : Reachable listenFd w)
    (hinit : Holding b listenFd (some k) s) (hrun : Carries listenFd s w.sys.trace s') :
    s'.stray = b.stray ∧ ∀ fd, (s'.descriptors fd).isSome = true ↔
      (b.descriptors fd).isSome = true ∨ fd = listenFd ∨ ∃ p c, w.heap p = some c ∧ c.fd = fd := by
  obtain ⟨conn, h⟩ := hw.alive
  have hown := hrun.owns hinit h.trace
  refine ⟨hown.stray, fun fd => ?_⟩
  have hheap : (∃ p c, w.heap p = some c ∧ c.fd = fd) ↔ ∃ p, conn fd = some p := by
    constructor
    · rintro ⟨p, c, hc, rfl⟩
      exact ⟨p, h.owned p c hc⟩
    · rintro ⟨p, hp⟩
      obtain ⟨-, -, c, hc, hfd, -⟩ := h.linked fd p hp
      exact ⟨p, c, hc, hfd⟩
  rw [hheap]
  rcases eq_or_ne fd listenFd with rfl | hne
  · rw [hown.listening]
    simp
  · cases hconn : conn fd with
    | none =>
        rw [hown.kept fd hne hconn]
        simp [hne]
    | some p =>
        rw [(hown.owned fd p hconn).2.2]
        simp

/-- A process with an epoll instance and three more descriptors before its listening one: a first
connection is closed, and the next one gets its number. -/
theorem descriptors_owned_reusing :
    ∃ (b s s' : Sockets) (k : Socket) (w : World), Reachable 4 w ∧ Holding b 4 (some k) s ∧
      w.sys.trace = [.called .acceptTcp 4 (some .server), .accepted 5 0,
        .called .readEvent 5 (some (.client 0)), .called .readEvent 5 (some (.client 0)),
        .closed 5 aeNone, .called .acceptTcp 4 (some .server), .accepted 5 1] ∧
      s'.stray = b.stray ∧
      ∀ fd, (s'.descriptors fd).isSome = true ↔
        (b.descriptors fd).isSome = true ∨ fd = 4 ∨ ∃ p c, w.heap p = some c ∧ c.fd = fd := by
  let ping : Sock := { inbox := frame headSize (text "ping"), reads := [.full, .full, .eof] }
  have hrun : (World.init { files := .empty, accepts := [⟨5, 0, ping⟩, ⟨5, 1, {}⟩] } 8
      (some (.create 8 [])) 4 >>= fun (r, w) =>
      [[⟨epollIn, 4⟩], [⟨epollIn, 5⟩], [⟨epollIn, 5⟩, ⟨epollIn, 4⟩]].foldlM
        (AeEventLoop.processEvents World.host) w >>= fun w' => Except.ok (r, w'.sys.trace)) =
      .ok (0, [.called .acceptTcp 4 (some .server), .accepted 5 0,
        .called .readEvent 5 (some (.client 0)), .called .readEvent 5 (some (.client 0)),
        .closed 5 aeNone, .called .acceptTcp 4 (some .server), .accepted 5 1]) := by
    decide +kernel
  simp only [bind_eq_ok] at hrun
  obtain ⟨⟨r, w⟩, hinit, w', hrun, hret⟩ := hrun
  obtain ⟨rfl, htrace⟩ := Prod.mk.inj (Except.ok.inj hret)
  have hw : Reachable 4 w' := (Reachable.init hinit (by decide)).run hrun
  let k : Socket := { family := afInet, socktype := sockStream, protocol := 0, backlog := some 5 }
  let file : Option OpenFile := some (.socket k)
  let b : Sockets := { table := ⟨[file, file, file, some (.epoll oRdwr)]⟩ }
  let s : Sockets := { b with table := b.table.alloc (.socket k) }
  have hs : Holding b 4 (some k) s :=
    ⟨⟨rfl, rfl⟩, b.table.get_lowest, b.table.get_alloc (.socket k)⟩
  obtain ⟨s₁, hfirst, s₂, hnext⟩ : ∃ s₁, acceptDescriptor s 4 = .ok (5, s₁) ∧
      ∃ s₂, acceptDescriptor (s₁.close 5) 4 = .ok (5, s₂) := ⟨_, rfl, _, rfl⟩
  have hcarries : Carries 4 s w'.sys.trace s₂ := by
    rw [htrace]
    have h₁ : Carries 4 s [.called .acceptTcp 4 (some .server), .accepted 5 0] s₁ :=
      .accepted (.called .start _ _ _) hfirst (by decide) 0
    have h₂ := ((h₁.called .readEvent 5 (some (.client 0))).called .readEvent 5
      (some (.client 0))).closed 5 aeNone
    exact (h₂.called .acceptTcp 4 (some .server)).accepted hnext (by decide) 1
  exact ⟨b, s, s₂, k, w', hw, hs, htrace, descriptors_owned hw hs hcarries⟩

end Owns

end AsprNet.Server
