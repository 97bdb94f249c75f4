import AsprNet.Sockets

/-! # Listening and accepting

Reference: `anet.cpp`, `_anetTcpServer`, `anetUnixServer` and `anetGenericAccept`. A socket that
cannot listen is closed where this is found out, in `anetListen` and `anetV6Only`; `_anetTcpServer`
itself closes nothing. So it gives a listening socket or leaves nothing open, except when
`SO_REUSEADDR` is refused (`tcpServer_leaked_iff`). `anetUnixServer` has no such case
(`anetUnixServer_opened`).

`anetGenericAccept` tries again as long as it is interrupted, so `anetTcpAccept` never fails for
this reason (`anetTcpAccept_opened`).
-/

namespace AsprNet

namespace Sockets

/-! ## Listening -/

/-- The loop of `_anetTcpServer` over `servinfo`, up to the label `end`. -/
def serverLoop (s : Sockets) (err : Bool) (af backlog : ℤ) : List AddrInfo → ℤ × Sockets
  | [] => (anetErr, s.anetSetError err (text "unable to bind socket"))
  | p :: ps =>
    let (fd, s) := s.socket p.family p.socktype p.protocol
    if fd = -1 then serverLoop s err af backlog ps
    else
      let (r, s) := if af = afInet6 then s.anetV6Only err fd else (anetOk, s)
      if r = anetErr then (anetErr, s)
      else
        let (r, s) := s.anetSetReuseAddr err fd
        if r = anetErr then (anetErr, s)
        else
          let (r, s) := s.anetListen err fd p.addr backlog
          if r = anetErr then (anetErr, s) else (fd, s)

/-- What `_anetTcpServer` asks `getaddrinfo` for. -/
def serverQuery (port : ℤ) (bindaddr : Option Bytes) (af : ℤ) : Query where
  node := bindaddr
  service := some ((text (toString port)).take 5)
  family := af
  passive := true

/-- `_anetTcpServer`. -/
def tcpServer (s : Sockets) (err : Bool) (port : ℤ) (bindaddr : Option Bytes) (af backlog : ℤ) :
    ℤ × Sockets :=
  let (servinfo, s) := s.getaddrinfo (serverQuery port bindaddr af)
  match servinfo with
  | .error rv => (anetErr, s.anetSetError err (s.gaiStrerror rv))
  | .ok servinfo => s.serverLoop err af backlog servinfo

def anetTcpServer (s : Sockets) (err : Bool) (port : ℤ) (bindaddr : Option Bytes) (backlog : ℤ) :
    ℤ × Sockets :=
  s.tcpServer err port bindaddr afInet backlog

def anetTcp6Server (s : Sockets) (err : Bool) (port : ℤ) (bindaddr : Option Bytes) (backlog : ℤ) :
    ℤ × Sockets :=
  s.tcpServer err port bindaddr afInet6 backlog

/-- `anetUnixServer`. `chmod` is one more system call, whose result is not looked at. -/
def anetUnixServer (s : Sockets) (err : Bool) (path : Bytes) (perm : ℕ) (backlog : ℤ) :
    ℤ × Sockets :=
  let (fd, s) := s.anetCreateSocket err afUnix
  if fd = anetErr then (anetErr, s)
  else
    let (r, s) := s.anetListen err fd { family := afUnix, text := sunPath path 0 } backlog
    if r = anetErr then (anetErr, s)
    else (fd, if perm ≠ 0 then s.call.2 else s)

/-! ## Accepting -/

/-- The loop of `anetGenericAccept`. -/
def anetGenericAcceptLoop (err : Bool) (fd : ℤ) : ℕ → Sockets → Except Halt (SockAddr × ℤ × Sockets)
  | 0, _ => .error .outOfFuel
  | fuel + 1, s =>
    let (peer, r, s) := s.accept fd
    if r = -1 then
      if s.errno = eintr then anetGenericAcceptLoop err fd fuel s
      else .ok (peer, anetErr, s.anetSetErrno err (text "accept: "))
    else .ok (peer, r, s)

/-- `anetGenericAccept`. Every interruption is a system call that fails, which bounds the number of
rounds. -/
def anetGenericAccept (s : Sockets) (err : Bool) (fd : ℤ) : Except Halt (SockAddr × ℤ × Sockets) :=
  anetGenericAcceptLoop err fd (s.calls.length + 1) s

/-- `inet_ntop`, of an address that is written `t`, into an array of `n` bytes, which may be too
small. -/
def inetNtop (t : Bytes) (n : ℕ) : Option Bytes := if t.length < n then some t else none

/-- `anetTcpAccept`: what it writes to `ip` and `port`, and its result. A peer that is not of
`AF_INET` is read as one of `AF_INET6`. -/
def anetTcpAccept (s : Sockets) (err : Bool) (fd : ℤ) (ipLen : ℕ) :
    Except Halt (Option (Option Bytes × ℕ) × ℤ × Sockets) := do
  let (peer, r, s) ← s.anetGenericAccept err fd
  if r = -1 then return (none, anetErr, s)
  else
    let (t, port) := s.readInet peer
    return (some (inetNtop t ipLen, port), r, s)

/-- `anetUnixAccept`. -/
def anetUnixAccept (s : Sockets) (err : Bool) (fd : ℤ) : Except Halt (ℤ × Sockets) := do
  let (_, r, s) ← s.anetGenericAccept err fd
  if r = -1 then return (anetErr, s) else return (r, s)

end Sockets

/-! ## What listens, and what is lost -/

/-- The socket listens on `addr`. -/
structure Listens (af backlog : ℤ) (addr : SockAddr) (k : Socket) : Prop where
  name : k.name = some addr
  backlog : k.backlog = some backlog
  reuse : k.options .soReuseaddr = some [1]
  only : af = afInet6 → k.options .ipv6V6only = some [1]

/-- The system calls of `IPV6_V6ONLY`, where it is asked for. -/
def v6Calls (af : ℤ) : ℕ := if af = afInet6 then 1 else 0

/-- Of `n` addresses the first ones have no socket, and the next one has one, which is refused
`SO_REUSEADDR`. -/
def ReuseRefused (af : ℤ) (n : ℕ) (calls : List (Option ℤ)) : Prop :=
  ∃ j < n, (∀ i < j, refused 1 (calls.drop i) = true) ∧
    refused (1 + v6Calls af) (calls.drop j) = false ∧
    refused 1 (calls.drop (j + (1 + v6Calls af))) = true

/-- No call, no refusal. -/
theorem reuseRefused_zero (af : ℤ) (calls : List (Option ℤ)) : ¬ReuseRefused af 0 calls := by
  rintro ⟨j, hj, -⟩
  exact absurd hj (Nat.not_lt_zero j)

/-- The first address has no socket, or it is the one. -/
theorem reuseRefused_succ (af : ℤ) (n : ℕ) (calls : List (Option ℤ)) :
    ReuseRefused af (n + 1) calls ↔
      (refused 1 calls = true ∧ ReuseRefused af n (calls.drop 1)) ∨
      (refused ((1 + v6Calls af)) calls = false ∧
        refused 1 (calls.drop ((1 + v6Calls af))) = true) := by
  constructor
  · rintro ⟨_ | j, hj, hfirst, hworks, hrefused⟩
    · rw [List.drop_zero] at hworks
      rw [Nat.zero_add] at hrefused
      exact Or.inr ⟨hworks, hrefused⟩
    · refine Or.inl
        ⟨hfirst 0 (Nat.succ_pos j), j, Nat.lt_of_succ_lt_succ hj, fun i hi => ?_, ?_, ?_⟩
      · rw [List.drop_drop, Nat.add_comm 1 i]
        exact hfirst (i + 1) (Nat.succ_lt_succ hi)
      · rw [List.drop_drop, Nat.add_comm 1 j]
        exact hworks
      · rw [List.drop_drop, ← Nat.add_assoc, Nat.add_comm 1 j]
        exact hrefused
  · rintro (⟨hsocket, j, hj, hfirst, hworks, hrefused⟩ | ⟨hworks, hrefused⟩)
    · refine ⟨j + 1, Nat.succ_lt_succ hj, fun i hi => ?_, ?_, ?_⟩
      · cases i with
        | zero => exact hsocket
        | succ i =>
            have h := hfirst i (Nat.lt_of_succ_lt_succ hi)
            rwa [List.drop_drop, Nat.add_comm 1 i] at h
      · rwa [List.drop_drop, Nat.add_comm 1 j] at hworks
      · rwa [List.drop_drop, ← Nat.add_assoc, Nat.add_comm 1 j] at hrefused
    · exact ⟨0, Nat.succ_pos n, fun i hi => absurd hi (Nat.not_lt_zero i), hworks, by
        rwa [Nat.zero_add]⟩

section Server

variable {s₀ s : Sockets} {fd : ℤ} {k : Socket}

/-- `IPV6_V6ONLY`, where it is asked for. -/
theorem Holding.v6 (h : Holding s₀ fd (some k) s) (err : Bool) (af : ℤ) :
    (refused (v6Calls af) s.calls = true ∧ ∃ s',
      (if af = afInet6 then s.anetV6Only err fd else (anetOk, s)) = (anetErr, s') ∧ s'.Told err ∧
      Settled s₀ s') ∨
    (refused (v6Calls af) s.calls = false ∧ ∃ s' options,
      (if af = afInet6 then s.anetV6Only err fd else (anetOk, s)) = (anetOk, s') ∧
      s'.calls = s.calls.drop (v6Calls af) ∧
      (af = afInet6 → options .ipv6V6only = some [1]) ∧
      Holding s₀ fd (some { k with options }) s') := by
  rw [v6Calls]
  split
  · rcases h.v6Only err with ⟨hr, s', hset, htold, h'⟩ | ⟨hr, s', hset, hcalls, h'⟩
    · exact Or.inl ⟨hr, s', hset, htold, h'⟩
    · exact Or.inr ⟨hr, s', _, hset, hcalls, fun _ => k.options_setOption .ipv6V6only [1], h'⟩
  · rename_i hne
    exact Or.inr ⟨rfl, s, k.options, rfl, rfl, fun h6 => absurd h6 hne, h⟩

/-- What the loop of `_anetTcpServer` gives. -/
theorem Settled.serverLoop (h : Settled s₀ s) (err : Bool) (af backlog : ℤ) (ps : List AddrInfo) :
    (ReuseRefused af ps.length s.calls ∧ Leaked s₀ err (s.serverLoop err af backlog ps)) ∨
    (¬ReuseRefused af ps.length s.calls ∧
      Opened s₀ err (fun k => ∃ p ∈ ps, Listens af backlog p.addr k)
        (s.serverLoop err af backlog ps)) := by
  induction ps generalizing s with
  | nil =>
      exact Or.inr ⟨reuseRefused_zero af s.calls,
        .failed (h.setError err _) (s.told_setError err _)⟩
  | cons p ps ih =>
      rw [List.length_cons, reuseRefused_succ, Sockets.serverLoop, refused_add]
      rcases h.socket p.family p.socktype p.protocol with
        ⟨hr, s₁, hsocket, hcalls₁, h₁⟩ | ⟨hr, n, s₁, hsocket, hcalls₁, hlow, h₁⟩
      · have hrest := ih h₁
        rw [hcalls₁] at hrest
        rw [hsocket]
        simp only [hr, Bool.true_or, true_and, Bool.true_eq_false, false_and, or_false]
        rcases hrest with ⟨hreuse, hleak⟩ | ⟨hreuse, hopen⟩
        · exact Or.inl ⟨hreuse, hleak⟩
        · exact Or.inr ⟨hreuse, hopen.mono fun k ⟨q, hq, hk⟩ => ⟨q, List.mem_cons_of_mem _ hq, hk⟩⟩
      have hn : ¬(n : ℤ) = -1 := by omega
      rw [hsocket, hr, ← hcalls₁]
      dsimp only
      rw [if_neg hn, Bool.false_or]
      simp only [Bool.false_eq_true, false_and, false_or]
      rcases h₁.v6 err af with
        ⟨hr₂, s₂, hset, htold, h₂⟩ | ⟨hr₂, s₂, options, hset, hcalls₂, honly, h₂⟩
      · rw [hset, hr₂]
        exact Or.inr ⟨fun hand => Bool.false_ne_true hand.1.symm, .failed h₂ htold⟩
      rw [hset, hr₂]
      dsimp only
      rw [if_neg (by decide)]
      have hdrop : s.calls.drop (1 + v6Calls af) = s₂.calls := by
        rw [hcalls₂, hcalls₁, List.drop_drop]
      obtain ⟨s₃, hreuse, hcalls₃, htold, h₃⟩ := h₂.setOption err .soReuseaddr [1]
        (text "setsockopt SO_REUSEADDR: ") []
      rw [Sockets.anetSetReuseAddr, hreuse, hdrop]
      dsimp only
      cases hr₃ : refused 1 s₂.calls with
      | true =>
          rw [hr₃] at h₃
          exact Or.inl ⟨⟨rfl, rfl⟩, .mk h₃ (htold hr₃)⟩
      | false =>
          rw [hr₃] at h₃
          obtain ⟨k, h₃, hopt, honly⟩ : ∃ k : Socket, Holding s₀ n (some k) s₃ ∧
              k.options .soReuseaddr = some [1] ∧
              (af = afInet6 → k.options .ipv6V6only = some [1]) := by
            refine ⟨_, h₃, Socket.options_setOption _ _ _, fun h6 => ?_⟩
            show Function.update options .soReuseaddr (some [1]) .ipv6V6only = _
            rw [Function.update_of_ne (by decide)]
            exact honly h6
          rw [if_neg Bool.false_ne_true, if_neg (by decide)]
          refine Or.inr ⟨fun hand => Bool.false_ne_true hand.2, ?_⟩
          rcases h₃.anetListen err p.addr backlog with
            ⟨-, s₄, hlisten, htold₄, h₄⟩ | ⟨-, s₄, hlisten, h₄⟩
          · rw [hlisten]
            exact .failed h₄ htold₄
          · rw [hlisten]
            exact .opened hlow h₄ ⟨p, List.mem_cons_self, rfl, rfl, hopt, honly⟩

end Server

/-- `_anetTcpServer` by its outcome. -/
theorem tcpServer_cases (s : Sockets) (err : Bool) (port : ℤ) (bindaddr : Option Bytes)
    (af backlog : ℤ) {ps : List AddrInfo}
    (hps : s.resolve s.asked.length (Sockets.serverQuery port bindaddr af) = .ok ps) :
    (ReuseRefused af ps.length s.calls ∧
      Leaked s err (s.tcpServer err port bindaddr af backlog)) ∨
    (¬ReuseRefused af ps.length s.calls ∧
      Opened s err (fun k => ∃ p ∈ ps, Listens af backlog p.addr k)
        (s.tcpServer err port bindaddr af backlog)) := by
  obtain ⟨s₁, hget, htable, hstray, hcalls⟩ := s.getaddrinfo_cases
    (Sockets.serverQuery port bindaddr af)
  rw [Sockets.tcpServer, hget, hps, ← hcalls]
  exact ((Settled.refl s).same htable hstray).serverLoop err af backlog ps

/-- Some address that `getaddrinfo` gives for the server has a socket that is refused
`SO_REUSEADDR`, and those before it have none. -/
def LosesSocket (s : Sockets) (port : ℤ) (bindaddr : Option Bytes) (af : ℤ) : Prop :=
  ∃ ps, s.resolve s.asked.length (Sockets.serverQuery port bindaddr af) = .ok ps ∧
    ReuseRefused af ps.length s.calls

/-- A socket that listens on an address of the host. -/
def ListensOn (s : Sockets) (port : ℤ) (bindaddr : Option Bytes) (af backlog : ℤ) (k : Socket) :
    Prop :=
  ∃ ps, s.resolve s.asked.length (Sockets.serverQuery port bindaddr af) = .ok ps ∧
    ∃ p ∈ ps, Listens af backlog p.addr k

/-- `_anetTcpServer` by its outcome, whether or not the host has addresses. -/
theorem tcpServer_exact (s : Sockets) (err : Bool) (port : ℤ) (bindaddr : Option Bytes)
    (af backlog : ℤ) :
    (LosesSocket s port bindaddr af ∧ Leaked s err (s.tcpServer err port bindaddr af backlog)) ∨
    (¬LosesSocket s port bindaddr af ∧ Opened s err (ListensOn s port bindaddr af backlog)
      (s.tcpServer err port bindaddr af backlog)) := by
  cases hres : s.resolve s.asked.length (Sockets.serverQuery port bindaddr af) with
  | error rv =>
      obtain ⟨s₁, hget, htable, hstray, -⟩ := s.getaddrinfo_cases
        (Sockets.serverQuery port bindaddr af)
      refine Or.inr ⟨fun ⟨ps, hps, _⟩ => (nomatch hres.symm.trans hps), ?_⟩
      rw [Sockets.tcpServer, hget, hres]
      exact .failed (((Settled.refl s).same htable hstray).setError err _)
        (s₁.told_setError err _)
  | ok ps =>
      rcases tcpServer_cases s err port bindaddr af backlog hres with
        ⟨hreuse, hleak⟩ | ⟨hreuse, hopen⟩
      · exact Or.inl ⟨⟨ps, hres, hreuse⟩, hleak⟩
      · refine Or.inr ⟨fun ⟨ps', hps', hreuse'⟩ => hreuse ?_,
          hopen.mono fun k hk => ⟨ps, hres, hk⟩⟩
        obtain rfl := Except.ok.inj (hres.symm.trans hps')
        exact hreuse'

/-- **`_anetTcpServer`** loses the descriptor of a socket exactly when this socket is refused
`SO_REUSEADDR`. Otherwise it gives one new descriptor, for a socket that listens on an address of
the host, or `-1` with a text, and nothing is open that was not open before. -/
theorem tcpServer_leaked_iff (s : Sockets) (err : Bool) (port : ℤ) (bindaddr : Option Bytes)
    (af backlog : ℤ) :
    (Leaked s err (s.tcpServer err port bindaddr af backlog) ↔ LosesSocket s port bindaddr af) ∧
    (Opened s err (ListensOn s port bindaddr af backlog)
        (s.tcpServer err port bindaddr af backlog) ↔ ¬LosesSocket s port bindaddr af) :=
  leaked_iff_opened_iff (tcpServer_exact s err port bindaddr af backlog)

/-- **`anetUnixServer`** loses none: it gives one new descriptor, for a socket that listens on the
path, or `-1` with a text, and nothing is open that was not open before. -/
theorem anetUnixServer_opened (s : Sockets) (err : Bool) (path : Bytes) (perm : ℕ) (backlog : ℤ) :
    Opened s err (Listens afUnix backlog ⟨afUnix, Sockets.sunPath path 0, 0⟩)
      (s.anetUnixServer err path perm backlog) := by
  rw [Sockets.anetUnixServer]
  rcases (Settled.refl s).createSocket err afUnix with
    ⟨-, s₁, hcreate, htold, h₁⟩ | ⟨-, n, s₁, hcreate, -, hlow, h₁⟩
  · rw [hcreate]
    exact .failed h₁ htold
  have hn : ¬(n : ℤ) = anetErr := by
    rw [anetErr]
    omega
  obtain ⟨k, h₁, hopt⟩ : ∃ k : Socket, Holding s n (some k) s₁ ∧
      k.options .soReuseaddr = some [1] := ⟨_, h₁, Socket.options_setOption _ _ _⟩
  rw [hcreate]
  dsimp only
  rw [if_neg hn]
  rcases h₁.anetListen err ⟨afUnix, Sockets.sunPath path 0, 0⟩ backlog with
    ⟨-, s₂, hlisten, htold₂, h₂⟩ | ⟨-, s₂, hlisten, h₂⟩
  · rw [hlisten]
    exact .failed h₂ htold₂
  · rw [hlisten]
    dsimp only
    rw [if_neg (by decide)]
    split
    · exact .opened hlow h₂.call ⟨rfl, rfl, hopt, fun h6 => absurd h6 (by decide)⟩
    · exact .opened hlow h₂ ⟨rfl, rfl, hopt, fun h6 => absurd h6 (by decide)⟩

/-! ## Accepting without a socket lost -/

section Accept

variable {s₀ s : Sockets} {fd : ℤ} {k : Socket}

/-- `accept` opens the lowest free descriptor, or fails. -/
theorem Settled.accept (h : Settled s₀ s) (hfd : s₀.sockets fd = some k) :
    ∃ peer, (∃ e calls s', s.calls = some e :: calls ∧ s.accept fd = (peer, -1, s') ∧
        s'.errno = e ∧ s'.calls = calls ∧ Settled s₀ s') ∨
      (refused 1 s.calls = false ∧ ∃ (n : ℕ) (s' : Sockets), s.accept fd = (peer, (n : ℤ), s') ∧
        (∀ i < n, (s₀.descriptors i).isSome = true) ∧
        Holding s₀ n (some (k.accepted peer)) s') := by
  obtain ⟨hok, -, htable, hstray, -⟩ := s.call_cases
  refine ⟨s.peers.headD ⟨afUnspec, [], 0⟩, ?_⟩
  rw [Sockets.accept, h.descriptors, s₀.sockets_eq_some_iff.mp hfd]
  dsimp only
  rw [hok]
  rcases hr : refused 1 s.calls with _ | _
  · refine Or.inr ⟨rfl, _, _, rfl, fun i hi => ?_,
      h.toUnstrayed.trans ⟨hstray.stray, hstray.resolve⟩, ?_⟩
    · rw [htable] at hi
      rw [← h.descriptors]
      exact s.table.isSome_of_lt_lowest hi
    · rw [← h.descriptors, htable]
      exact ⟨s.table.get_lowest, s.table.get_alloc _⟩
  · have hsettled := h.same htable hstray
    rw [Sockets.call] at hsettled ⊢
    rcases hcalls : s.calls with _ | ⟨_ | e, calls⟩
    · rw [hcalls] at hr
      cases hr
    · rw [hcalls] at hr
      cases hr
    · rw [hcalls] at hsettled
      exact Or.inl ⟨e, calls, _, rfl, rfl, rfl, rfl, hsettled⟩

/-- **`anetGenericAccept`** always returns, and is never interrupted: it fails exactly when the
first call that is not interrupted does. It gives one new descriptor, or `-1` with a text, and
nothing is open that was not open before. -/
theorem genericAccept_opened (s : Sockets) (err : Bool) (hfd : s.sockets fd = some k) :
    ∃ peer rs, s.anetGenericAccept err fd = .ok (peer, rs) ∧
      Opened s err (· = k.accepted peer) rs ∧
      (rs.1 = anetErr ↔ refused 1 (s.calls.dropWhile (· == some eintr)) = true) := by
  have hloop : ∀ fuel (s₁ : Sockets), Settled s s₁ → s₁.calls.length < fuel →
      ∃ peer rs, Sockets.anetGenericAcceptLoop err fd fuel s₁ = .ok (peer, rs) ∧
        Opened s err (· = k.accepted peer) rs ∧
        (rs.1 = anetErr ↔ refused 1 (s₁.calls.dropWhile (· == some eintr)) = true) := by
    intro fuel
    induction fuel with
    | zero => exact fun s₁ _ hlt => absurd hlt (Nat.not_lt_zero _)
    | succ fuel ih =>
        intro s₁ h₁ hlt
        rw [Sockets.anetGenericAcceptLoop]
        obtain ⟨peer, ⟨e, calls, s₂, hcalls, haccept, herrno, hcalls₂, h₂⟩ |
          ⟨hr, n, s₂, haccept, hlow, h₂⟩⟩ := h₁.accept hfd
        · rw [haccept, hcalls]
          dsimp only
          rw [if_pos rfl, herrno]
          by_cases he : e = eintr
          · subst he
            rw [if_pos rfl, List.dropWhile_cons_of_pos (by simp), ← hcalls₂]
            refine ih s₂ h₂ ?_
            rw [hcalls, List.length_cons] at hlt
            rw [hcalls₂]
            omega
          · rw [if_neg he, List.dropWhile_cons_of_neg (by simpa using he)]
            exact ⟨peer, _, rfl, .failed (h₂.setError err _) (s₂.told_setError err _),
              iff_of_true rfl rfl⟩
        · have hn : ¬(n : ℤ) = -1 := by omega
          rw [haccept]
          dsimp only
          rw [if_neg hn]
          have hworks : s₁.calls.dropWhile (· == some eintr) = s₁.calls := by
            rcases hcalls : s₁.calls with _ | ⟨_ | e, calls⟩
            · rfl
            · rfl
            · rw [hcalls] at hr
              cases hr
          refine ⟨peer, _, rfl, .opened hlow h₂ rfl, iff_of_false hn ?_⟩
          rw [hworks, hr]
          exact Bool.false_ne_true
  exact hloop _ s (Settled.refl s) (Nat.lt_succ_self _)

/-- **`anetTcpAccept`** always returns, and fails exactly when the first call that is not
interrupted does. It gives one new descriptor and the text and port of its peer (`readInet`), the
text if the array has room for it, or `-1` with a text, and nothing is open that was not open
before. -/
theorem anetTcpAccept_opened (s : Sockets) (err : Bool) (hfd : s.sockets fd = some k) (ipLen : ℕ) :
    ∃ out rs, s.anetTcpAccept err fd ipLen = .ok (out, rs) ∧
      Opened s err (fun k' => ∃ peer, k' = k.accepted peer ∧
        out = some (Sockets.inetNtop (rs.2.readInet peer).1 ipLen, (rs.2.readInet peer).2)) rs ∧
      (rs.1 = anetErr ↔ refused 1 (s.calls.dropWhile (· == some eintr)) = true) := by
  obtain ⟨peer, rs, haccept, hopen, hfails⟩ := genericAccept_opened s err hfd
  rw [Sockets.anetTcpAccept, haccept, ok_bind]
  cases hopen with
  | failed settled told => exact ⟨none, _, rfl, .failed settled told, hfails⟩
  | @opened n k' s' lowest holding hk =>
      have hn : ¬(n : ℤ) = -1 := by omega
      dsimp only
      rw [if_neg hn]
      exact ⟨_, _, rfl, .opened lowest holding ⟨peer, hk, rfl⟩, hfails⟩

/-- The kernel interrupts `accept` twice, and gives a connection then. -/
theorem anetTcpAccept_opened_interrupted :
    ∃ s k out rs, s.calls = [some eintr, some eintr] ∧ s.sockets 3 = some k ∧
      s.anetTcpAccept false 3 64 = .ok (out, rs) ∧
      Opened s false (fun k' => ∃ peer, k' = k.accepted peer ∧
        out = some (Sockets.inetNtop (rs.2.readInet peer).1 64, (rs.2.readInet peer).2)) rs ∧
      (rs.1 = anetErr ↔ refused 1 (s.calls.dropWhile (· == some eintr)) = true) := by
  let k : Socket := { family := afInet, socktype := sockStream, protocol := 0, backlog := some 5 }
  let s : Sockets :=
    { table := ⟨[none, none, none, some (.socket k)]⟩, calls := [some eintr, some eintr] }
  have hfd : s.sockets 3 = some k := rfl
  obtain ⟨out, rs, h⟩ := anetTcpAccept_opened s false hfd 64
  exact ⟨s, k, out, rs, rfl, hfd, h⟩

end Accept

end AsprNet
