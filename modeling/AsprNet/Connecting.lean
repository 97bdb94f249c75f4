import AsprNet.Sockets

/-! # Connecting

Reference: `anet.cpp`, `anetTcpGenericConnect` and `anetUnixGenericConnect`. The first tries the
addresses of a name one after the other. A socket that cannot be configured ends the search, one
that cannot be connected does not.

What they are for is `Opened`: they give the number of one new descriptor, for a connected socket,
or `-1` and nothing is open that was not open before. `anetTcpGenericConnect` does this whatever
fails (`anetTcpGenericConnect_opened`); `anetUnixGenericConnect` does it except when the socket
cannot be made non-blocking, which leaves it open (`anetUnixGenericConnect_leaked_iff`).
-/

namespace AsprNet

def anetConnectNone : BitVec 32 := 0#32
def anetConnectNonblock : BitVec 32 := 1#32
def anetConnectBeBinding : BitVec 32 := 2#32

/-- `flags & ANET_CONNECT_NONBLOCK`. -/
def wantsNonBlock (flags : BitVec 32) : Bool := flags &&& anetConnectNonblock != 0#32

/-- `flags & ANET_CONNECT_BE_BINDING`. -/
def wantsBeBinding (flags : BitVec 32) : Bool := flags &&& anetConnectBeBinding != 0#32

/-- `portstr`: five characters have room. -/
def portstr (port : ℤ) : Bytes := (text (toString port)).take 5

namespace Sockets

/-! ## The search for an address -/

/-- The loop over `bservinfo`: whether `bind` took one of the addresses. -/
def bindFirst (s : Sockets) (fd : ℤ) : List AddrInfo → Bool × Sockets
  | [] => (false, s)
  | b :: bs =>
    let (r, s) := s.bind fd b.addr
    if r ≠ -1 then (true, s) else bindFirst s fd bs

/-- `if (source_addr)`: whether the search goes on. -/
def bindSource (s : Sockets) (err : Bool) (fd : ℤ) : Option Bytes → Bool × Sockets
  | none => (true, s)
  | some sourceAddr =>
    let (bservinfo, s) := s.getaddrinfo { node := some sourceAddr, service := none }
    match bservinfo with
    | .error rv => (false, s.anetSetError err (s.gaiStrerror rv))
    | .ok bservinfo =>
      let (bound, s) := s.bindFirst fd bservinfo
      if bound then (true, s) else (false, s.anetSetErrno err (text "bind: "))

/-- How the body of the loop over `servinfo` is left. -/
inductive Attempt
  /-- `continue`, with `s == ANET_ERR`. -/
  | next
  /-- `goto error`. -/
  | error (fd : ℤ)
  /-- `goto end`. -/
  | done (fd : ℤ)

/-- The body of the loop over `servinfo`. -/
def tryConnect (s : Sockets) (err : Bool) (sourceAddr : Option Bytes) (flags : BitVec 32)
    (p : AddrInfo) : Attempt × Sockets :=
  let (fd, s) := s.socket p.family p.socktype p.protocol
  if fd = -1 then (.next, s)
  else
    let (r, s) := s.anetSetReuseAddr err fd
    if r = anetErr then (.error fd, s)
    else
      let (r, s) := if wantsNonBlock flags then s.anetNonBlock err fd else (anetOk, s)
      if r ≠ anetOk then (.error fd, s)
      else
        let (bound, s) := s.bindSource err fd sourceAddr
        if !bound then (.error fd, s)
        else
          let (r, s) := s.connect fd p.addr
          if r = -1 then
            if s.errno = einprogress ∧ wantsNonBlock flags then (.done fd, s)
            else (.next, s.close fd)
          else (.done fd, s)

/-- The loop over `servinfo`, and what is behind the label `error`. -/
def connectLoop (s : Sockets) (err : Bool) (sourceAddr : Option Bytes) (flags : BitVec 32) :
    List AddrInfo → ℤ × Sockets
  | [] => (anetErr, s.anetSetErrno err (text "creating socket: "))
  | p :: ps =>
    match s.tryConnect err sourceAddr flags p with
    | (.next, s) => connectLoop s err sourceAddr flags ps
    | (.error fd, s) => (anetErr, s.close fd)
    | (.done fd, s) => (fd, s)

/-- The body of `anetTcpGenericConnect`; `again` is its call of itself, without a source address. -/
def connectBody (s : Sockets) (err : Bool) (addr : Bytes) (port : ℤ) (sourceAddr : Option Bytes)
    (flags : BitVec 32) (again : Sockets → ℤ × Sockets) : ℤ × Sockets :=
  let (servinfo, s) := s.getaddrinfo { node := some addr, service := some (portstr port) }
  match servinfo with
  | .error rv => (anetErr, s.anetSetError err (s.gaiStrerror rv))
  | .ok servinfo =>
    let (fd, s) := s.connectLoop err sourceAddr flags servinfo
    if fd = anetErr ∧ sourceAddr.isSome ∧ wantsBeBinding flags then again s else (fd, s)

/-- `anetTcpGenericConnect`. Without a source address it does not call itself. -/
def anetTcpGenericConnect (s : Sockets) (err : Bool) (addr : Bytes) (port : ℤ)
    (sourceAddr : Option Bytes) (flags : BitVec 32) : ℤ × Sockets :=
  s.connectBody err addr port sourceAddr flags fun s =>
    s.connectBody err addr port none flags fun s => (anetErr, s)

/-- The second call is one of the function itself. -/
theorem anetTcpGenericConnect_eq (s : Sockets) (err : Bool) (addr : Bytes) (port : ℤ)
    (sourceAddr : Option Bytes) (flags : BitVec 32) :
    s.anetTcpGenericConnect err addr port sourceAddr flags =
      s.connectBody err addr port sourceAddr flags fun s =>
        s.anetTcpGenericConnect err addr port none flags := by
  have hnone : ∀ (s : Sockets) again again',
      s.connectBody err addr port none flags again =
        s.connectBody err addr port none flags again' := by
    intro s again again'
    simp [connectBody]
  exact congrArg _ (funext fun s => hnone s _ _)

def anetTcpConnect (s : Sockets) (err : Bool) (addr : Bytes) (port : ℤ) : ℤ × Sockets :=
  s.anetTcpGenericConnect err addr port none anetConnectNone

def anetTcpNonBlockConnect (s : Sockets) (err : Bool) (addr : Bytes) (port : ℤ) : ℤ × Sockets :=
  s.anetTcpGenericConnect err addr port none anetConnectNonblock

def anetTcpNonBlockBindConnect (s : Sockets) (err : Bool) (addr : Bytes) (port : ℤ)
    (sourceAddr : Option Bytes) : ℤ × Sockets :=
  s.anetTcpGenericConnect err addr port sourceAddr anetConnectNonblock

def anetTcpNonBlockBestEffortBindConnect (s : Sockets) (err : Bool) (addr : Bytes) (port : ℤ)
    (sourceAddr : Option Bytes) : ℤ × Sockets :=
  s.anetTcpGenericConnect err addr port sourceAddr (anetConnectNonblock ||| anetConnectBeBinding)

/-- `anetUnixGenericConnect`; `junk` is the last byte of `sun_path`. -/
def anetUnixGenericConnect (s : Sockets) (err : Bool) (path : Bytes) (junk : UInt8)
    (flags : BitVec 32) : ℤ × Sockets :=
  let (fd, s) := s.anetCreateSocket err afUnix
  if fd = anetErr then (anetErr, s)
  else
    let (r, s) := if wantsNonBlock flags then s.anetNonBlock err fd else (anetOk, s)
    if r ≠ anetOk then (anetErr, s)
    else
      let (r, s) := s.connect fd { family := afUnix, text := sunPath path junk }
      if r = -1 then
        if s.errno = einprogress ∧ wantsNonBlock flags then (fd, s)
        else (anetErr, (s.anetSetErrno err (text "connect: ")).close fd)
      else (fd, s)

def anetUnixConnect (s : Sockets) (err : Bool) (path : Bytes) (junk : UInt8) : ℤ × Sockets :=
  s.anetUnixGenericConnect err path junk anetConnectNone

def anetUnixNonBlockConnect (s : Sockets) (err : Bool) (path : Bytes) (junk : UInt8) :
    ℤ × Sockets :=
  s.anetUnixGenericConnect err path junk anetConnectNonblock

end Sockets

/-! ## The TCP socket -/

/-- `addr` is an address that `getaddrinfo` gives for `q`. -/
def ResolvesTo (s : Sockets) (q : Query) (addr : SockAddr) : Prop :=
  ∃ i ps, s.resolve i q = .ok ps ∧ ∃ p ∈ ps, p.addr = addr

/-- A socket with the name `name` is bound to an address of the source address, or to none if there
is no source address. -/
def BoundTo (s : Sockets) (sourceAddr : Option Bytes) (name : Option SockAddr) : Prop :=
  match sourceAddr with
  | none => name = none
  | some src => ∃ addr, name = some addr ∧ ResolvesTo s { node := some src, service := none } addr

/-- What `anetTcpGenericConnect` makes of a socket that it connects to `addr`. -/
structure Connected (s : Sockets) (sourceAddr : Option Bytes) (flags : BitVec 32) (addr : SockAddr)
    (k : Socket) : Prop where
  peer : k.peer = some addr
  reuse : k.options .soReuseaddr = some [1]
  nonBlock : k.nonBlock = wantsNonBlock flags
  pending : k.pending = true → wantsNonBlock flags = true
  bound : BoundTo s sourceAddr k.name

/-- What an attempt leaves open. -/
inductive Attempted (s₀ : Sockets) (err : Bool) (P : Socket → Prop) :
    Sockets.Attempt × Sockets → Prop
  | next {s : Sockets} (settled : Settled s₀ s) : Attempted s₀ err P (.next, s)
  | error {fd : ℤ} {k : Socket} {s : Sockets} (holding : Holding s₀ fd (some k) s)
      (told : s.Told err) : Attempted s₀ err P (.error fd, s)
  | done {n : ℕ} {k : Socket} {s : Sockets} (lowest : ∀ i < n, (s₀.descriptors i).isSome = true)
      (holding : Holding s₀ n (some k) s) (hk : P k) : Attempted s₀ err P (.done n, s)

section Search

variable {s₀ s : Sockets} {fd : ℤ} {k : Socket}

/-- The loop over `bservinfo` binds the socket to one of the addresses, or to none. -/
theorem Holding.bindFirst (h : Holding s₀ fd (some k) s) (bs : List AddrInfo) :
    (∃ s', s.bindFirst fd bs = (false, s') ∧ Holding s₀ fd (some k) s') ∨
    ∃ s', ∃ b ∈ bs, s.bindFirst fd bs = (true, s') ∧
      Holding s₀ fd (some { k with name := some b.addr }) s' := by
  induction bs generalizing s with
  | nil => exact Or.inl ⟨s, rfl, h⟩
  | cons b bs ih =>
      obtain ⟨s₁, hbind, -, h₁⟩ := h.callOn fun k => { k with name := some b.addr }
      rw [Sockets.bindFirst, Sockets.bind, hbind]
      dsimp only
      cases hr : refused 1 s.calls with
      | true =>
          rw [hr] at h₁
          rcases ih h₁ with hnone | ⟨s', b', hb', hbind', h'⟩
          · exact Or.inl hnone
          · exact Or.inr ⟨s', b', List.mem_cons_of_mem b hb', hbind', h'⟩
      | false =>
          rw [hr] at h₁
          exact Or.inr ⟨s₁, b, List.mem_cons_self, rfl, h₁⟩

/-- **Binding** names the socket as the source address says, or fails with a text. -/
theorem Holding.bindSource (h : Holding s₀ fd (some k) s) (err : Bool)
    (sourceAddr : Option Bytes) (hname : k.name = none) :
    (∃ s', s.bindSource err fd sourceAddr = (false, s') ∧ s'.Told err ∧
      Holding s₀ fd (some k) s') ∨
    ∃ s' name, s.bindSource err fd sourceAddr = (true, s') ∧ BoundTo s₀ sourceAddr name ∧
      Holding s₀ fd (some { k with name }) s' := by
  cases sourceAddr with
  | none => exact Or.inr ⟨s, k.name, rfl, hname, h⟩
  | some src =>
      obtain ⟨s₁, hget, htable, hstray, -⟩ := s.getaddrinfo_cases
        { node := some src, service := none }
      have h₁ := h.same htable hstray
      rw [Sockets.bindSource, hget, h.resolve]
      cases hres : s₀.resolve s.asked.length { node := some src, service := none } with
      | error rv => exact Or.inl ⟨_, rfl, s₁.told_setError err _, h₁.setError err _⟩
      | ok bs =>
          dsimp only
          rcases h₁.bindFirst bs with ⟨s₂, hbind, h₂⟩ | ⟨s₂, b, hb, hbind, h₂⟩
          · rw [hbind]
            exact Or.inl ⟨_, rfl, s₂.told_setError err _, h₂.setError err _⟩
          · rw [hbind]
            have hto : BoundTo s₀ (some src) (some b.addr) :=
              ⟨b.addr, rfl, s.asked.length, bs, hres, b, hb, rfl⟩
            exact Or.inr ⟨s₂, some b.addr, rfl, hto, h₂⟩

/-- The socket is made non-blocking if this is asked for, and is blocking otherwise. -/
theorem Holding.nonBlock (h : Holding s₀ fd (some k) s) (err : Bool) (flags : BitVec 32)
    (hk : k.nonBlock = false) :
    (wantsNonBlock flags = true ∧ refused 2 s.calls = true ∧ ∃ s',
      s.anetNonBlock err fd = (anetErr, s') ∧ s'.Told err ∧ Holding s₀ fd (some k) s') ∨
    (¬(wantsNonBlock flags = true ∧ refused 2 s.calls = true) ∧ ∃ s' status,
      (if wantsNonBlock flags then s.anetNonBlock err fd else (anetOk, s)) = (anetOk, s') ∧
      Socket.nonBlock { k with flags := status } = wantsNonBlock flags ∧
      Holding s₀ fd (some { k with flags := status }) s') := by
  cases hwants : wantsNonBlock flags with
  | false => exact Or.inr ⟨fun hand => (nomatch hand.1), s, k.flags, rfl, hk, h⟩
  | true =>
      obtain ⟨s', hset, -, htold, h'⟩ := h.setBlock err true
      rw [Sockets.anetNonBlock, hset]
      cases hr : refused 2 s.calls with
      | true =>
          rw [hr] at h'
          exact Or.inl ⟨rfl, rfl, s', rfl, htold hr, h'⟩
      | false =>
          rw [hr] at h'
          exact Or.inr ⟨fun hand => (nomatch hand.2), s', _, rfl, k.nonBlock_setBlock true, h'⟩

/-- **An attempt** to connect to one address. -/
theorem Settled.tryConnect (h : Settled s₀ s) (err : Bool) (sourceAddr : Option Bytes)
    (flags : BitVec 32) (p : AddrInfo) :
    Attempted s₀ err (Connected s₀ sourceAddr flags p.addr)
      (s.tryConnect err sourceAddr flags p) := by
  rw [Sockets.tryConnect]
  rcases h.socket p.family p.socktype p.protocol with
    ⟨-, s₁, hsocket, -, h₁⟩ | ⟨-, n, s₁, hsocket, -, hlow, h₁⟩
  · rw [hsocket]
    exact .next h₁
  have hn : ¬(n : ℤ) = -1 := by omega
  obtain ⟨s₂, hreuse, -, htold, h₂⟩ := h₁.setOption err .soReuseaddr [1]
    (text "setsockopt SO_REUSEADDR: ") []
  rw [hsocket]
  dsimp only
  rw [if_neg hn, Sockets.anetSetReuseAddr, hreuse]
  dsimp only
  cases hr : refused 1 s₁.calls with
  | true =>
      rw [hr] at h₂
      exact .error h₂ (htold hr)
  | false =>
  rw [hr] at h₂
  obtain ⟨k, h₂, hopt, hwaits, hunbound⟩ : ∃ k : Socket, Holding s₀ n (some k) s₂ ∧
      k.options .soReuseaddr = some [1] ∧ k.nonBlock = false ∧ k.name = none :=
    ⟨_, h₂, Socket.options_setOption _ _ _,
      Socket.nonBlock_new p.family p.socktype p.protocol, rfl⟩
  rw [if_neg Bool.false_ne_true, if_neg (by decide)]
  rcases h₂.nonBlock err flags hwaits with
    ⟨hwants, -, s₃, hset, htold₃, h₃⟩ | ⟨-, s₃, status, hset, hblock, h₃⟩
  · rw [if_pos hwants, hset]
    exact .error h₃ htold₃
  rw [hset]
  dsimp only
  rw [if_neg (fun hne => hne rfl)]
  rcases h₃.bindSource err sourceAddr hunbound with
    ⟨s₄, hbind, htold₄, h₄⟩ | ⟨s₄, name, hbind, hname, h₄⟩
  · rw [hbind]
    exact .error h₄ htold₄
  rw [hbind]
  dsimp only
  rw [if_neg (by decide)]
  have hmade : ∀ pending, (pending = true → wantsNonBlock flags = true) →
      Connected s₀ sourceAddr flags p.addr
        { k with flags := status, name, peer := some p.addr, pending } :=
    fun pending hp => ⟨rfl, hopt, hblock, hp, hname⟩
  obtain ⟨s₅, -, ⟨-, hconnect, h₅⟩ | ⟨-, hconnect, herrno, h₅⟩ | ⟨-, hconnect, herrno, h₅⟩⟩ :=
    h₄.connect p.addr
  · rw [hconnect]
    exact .done hlow h₅ (hmade _ fun h => absurd h Bool.false_ne_true)
  · rw [hconnect]
    dsimp only
    rw [if_pos rfl]
    by_cases hwants : wantsNonBlock flags = true
    · rw [if_pos ⟨herrno, hwants⟩]
      exact .done hlow h₅ (hmade _ fun _ => hwants)
    · rw [if_neg (fun hand => hwants hand.2)]
      exact .next h₅.close.1
  · rw [hconnect]
    dsimp only
    rw [if_pos rfl, if_neg (fun hand => herrno hand.1)]
    exact .next h₅.close.1

/-- **The search** ends with one connected socket or with none. -/
theorem Settled.connectLoop (h : Settled s₀ s) (err : Bool) (sourceAddr : Option Bytes)
    (flags : BitVec 32) (ps : List AddrInfo) :
    Opened s₀ err (fun k => ∃ p ∈ ps, Connected s₀ sourceAddr flags p.addr k)
      (s.connectLoop err sourceAddr flags ps) := by
  induction ps generalizing s with
  | nil => exact .failed (h.setError err _) (s.told_setError err _)
  | cons p ps ih =>
      rw [Sockets.connectLoop]
      have hattempt := h.tryConnect err sourceAddr flags p
      generalize s.tryConnect err sourceAddr flags p = as at hattempt
      cases hattempt with
      | next settled => exact (ih settled).mono fun k ⟨q, hq, hk⟩ =>
          ⟨q, List.mem_cons_of_mem _ hq, hk⟩
      | error holding told => exact .failed holding.close.1 (told.close holding)
      | done lowest holding hk => exact .opened lowest holding ⟨p, List.mem_cons_self, hk⟩

end Search

section Generic

variable {s₀ s : Sockets}

/-- **`anetTcpGenericConnect`** up to its call of itself. -/
theorem Settled.connectBody (h : Settled s₀ s) (err : Bool) (addr : Bytes) (port : ℤ)
    (sourceAddr : Option Bytes) (flags : BitVec 32) {again : Sockets → ℤ × Sockets}
    {P : Socket → Prop}
    (hP : ∀ a k, ResolvesTo s₀ { node := some addr, service := some (portstr port) } a →
      Connected s₀ sourceAddr flags a k → P k)
    (hagain : sourceAddr.isSome = true → wantsBeBinding flags = true →
      ∀ s', Settled s₀ s' → Opened s₀ err P (again s')) :
    Opened s₀ err P (s.connectBody err addr port sourceAddr flags again) := by
  obtain ⟨s₁, hget, htable, hstray, -⟩ := s.getaddrinfo_cases
    { node := some addr, service := some (portstr port) }
  have h₁ := h.same htable hstray
  rw [Sockets.connectBody, hget, h.resolve]
  cases hres : s₀.resolve s.asked.length { node := some addr, service := some (portstr port) } with
  | error rv => exact .failed (h₁.setError err _) (s₁.told_setError err _)
  | ok ps =>
      dsimp only
      have hloop := (h₁.connectLoop err sourceAddr flags ps).mono fun k ⟨p, hp, hk⟩ =>
        hP p.addr k ⟨_, ps, hres, p, hp, rfl⟩ hk
      generalize s₁.connectLoop err sourceAddr flags ps = rs at hloop
      split
      · rename_i hretry
        cases hloop with
        | failed settled => exact hagain hretry.2.1 hretry.2.2 _ settled
        | opened =>
            have hneg : anetErr < 0 := by decide
            have hfd := hretry.1
            omega
      · exact hloop

/-- What `anetTcpGenericConnect` connects: a socket to an address of the name, from the source
address, or from none if this is good enough. -/
def TcpConnected (s : Sockets) (addr : Bytes) (port : ℤ) (sourceAddr : Option Bytes)
    (flags : BitVec 32) (k : Socket) : Prop :=
  ∃ a source, ResolvesTo s { node := some addr, service := some (portstr port) } a ∧
    (source = sourceAddr ∨ source = none ∧ wantsBeBinding flags = true) ∧
    Connected s source flags a k

/-- From a process with nothing held. -/
theorem Settled.tcpGenericConnect (h : Settled s₀ s) (err : Bool) (addr : Bytes) (port : ℤ)
    (sourceAddr : Option Bytes) (flags : BitVec 32) :
    Opened s₀ err (TcpConnected s₀ addr port sourceAddr flags)
      (s.anetTcpGenericConnect err addr port sourceAddr flags) := by
  refine h.connectBody err addr port sourceAddr flags
    (fun a k ha hk => ⟨a, sourceAddr, ha, Or.inl rfl, hk⟩) fun _ hbe s' h' => ?_
  exact h'.connectBody err addr port none flags
    (fun a k ha hk => ⟨a, none, ha, Or.inr ⟨rfl, hbe⟩, hk⟩) fun hnone => (nomatch hnone)

/-- **`anetTcpGenericConnect`** gives one new descriptor, for a socket that is connected to an
address of the name as the flags say, or `-1` with a text, and nothing is open that was not open
before. This is so whatever the system calls return and however many addresses are tried. -/
theorem anetTcpGenericConnect_opened (s : Sockets) (err : Bool) (addr : Bytes) (port : ℤ)
    (sourceAddr : Option Bytes) (flags : BitVec 32) :
    Opened s err (TcpConnected s addr port sourceAddr flags)
      (s.anetTcpGenericConnect err addr port sourceAddr flags) :=
  (Settled.refl s).tcpGenericConnect err addr port sourceAddr flags

end Generic

/-! ## Which address is connected -/

/-- `p` is the address that is connected: every address before it has no socket, or cannot be
connected and costs its socket's `close` too, and everything works for `p` itself. -/
inductive Reaches : List AddrInfo → List (Option ℤ) → AddrInfo → Prop
  | here {p : AddrInfo} {ps : List AddrInfo} {calls : List (Option ℤ)}
      (hworks : refused 3 calls = false) : Reaches (p :: ps) calls p
  | noSocket {p q : AddrInfo} {ps : List AddrInfo} {calls : List (Option ℤ)}
      (hsocket : refused 1 calls = true) (h : Reaches ps (calls.drop 1) q) :
      Reaches (p :: ps) calls q
  | noPeer {p q : AddrInfo} {ps : List AddrInfo} {calls : List (Option ℤ)}
      (hworks : refused 2 calls = false) (hconnect : refused 1 (calls.drop 2) = true)
      (h : Reaches ps (calls.drop 4) q) : Reaches (p :: ps) calls q

/-- How an attempt of `anetTcpConnect` ends. -/
theorem Settled.tryConnect_blocking {s₀ s : Sockets} (h : Settled s₀ s) (err : Bool)
    (p : AddrInfo) :
    (refused 1 s.calls = true ∧ ∃ s', s.tryConnect err none anetConnectNone p = (.next, s') ∧
      Settled s₀ s' ∧ s'.calls = s.calls.drop 1) ∨
    (refused 1 s.calls = false ∧ refused 2 s.calls = true ∧ ∃ fd s',
      s.tryConnect err none anetConnectNone p = (.error fd, s')) ∨
    (refused 2 s.calls = false ∧ refused 1 (s.calls.drop 2) = true ∧ ∃ s',
      s.tryConnect err none anetConnectNone p = (.next, s') ∧ Settled s₀ s' ∧
      s'.calls = s.calls.drop 4) ∨
    (refused 3 s.calls = false ∧ ∃ (n : ℕ) (s' : Sockets) (k : Socket),
      s.tryConnect err none anetConnectNone p = (.done n, s') ∧ s'.sockets n = some k ∧
      k.peer = some p.addr) := by
  rw [Sockets.tryConnect]
  rcases h.socket p.family p.socktype p.protocol with
    ⟨hr, s₁, hsocket, hcalls₁, h₁⟩ | ⟨hr, n, s₁, hsocket, hcalls₁, -, h₁⟩
  · rw [hsocket]
    exact Or.inl ⟨hr, _, rfl, h₁, hcalls₁⟩
  have hn : ¬(n : ℤ) = -1 := by omega
  obtain ⟨s₂, hreuse, hcalls₂, -, h₂⟩ := h₁.setOption err .soReuseaddr [1]
    (text "setsockopt SO_REUSEADDR: ") []
  rw [hsocket, refused_add 1 1, hr, Bool.false_or, ← hcalls₁]
  dsimp only
  rw [if_neg hn, Sockets.anetSetReuseAddr, hreuse]
  dsimp only
  cases hr₁ : refused 1 s₁.calls with
  | true => exact Or.inr (Or.inl ⟨rfl, rfl, _, _, rfl⟩)
  | false =>
  obtain ⟨k, h₂⟩ : ∃ k, Holding s₀ n (some k) s₂ := ⟨_, h₂⟩
  obtain ⟨s₃, hcalls₃, hconnected⟩ := h₂.connect p.addr
  have hdrop₂ : s.calls.drop 2 = s₂.calls := by rw [hcalls₂, hcalls₁, List.drop_drop]
  have hdrop₄ : s.calls.drop 4 = s₃.calls.drop 1 := by
    rw [hcalls₃, ← hdrop₂, List.drop_drop, List.drop_drop]
  have hthree : refused 3 s.calls = refused 1 s₂.calls := by
    rw [show 3 = 1 + 1 + 1 from rfl, refused_add (1 + 1) 1, refused_add 1 1, hr, ← hcalls₁, hr₁,
      hdrop₂]
    rfl
  rw [hdrop₂, hdrop₄, hthree]
  right; right
  have hwaits : wantsNonBlock anetConnectNone = false := by decide
  simp only [Bool.false_eq_true, if_false, hwaits, Sockets.bindSource]
  rcases hconnected with ⟨hr₂, hconnect, h₃⟩ | ⟨hr₂, hconnect, -, h₃⟩ | ⟨hr₂, hconnect, -, h₃⟩
  · rw [hconnect]
    exact Or.inr ⟨hr₂, n, s₃, _, rfl, h₃.get, rfl⟩
  · rw [hconnect]
    refine Or.inl ⟨trivial, hr₂, _, ?_, h₃.close.1, h₃.close.2.1⟩
    simp [anetOk, anetErr]
  · rw [hconnect]
    refine Or.inl ⟨trivial, hr₂, _, ?_, h₃.close.1, h₃.close.2.1⟩
    simp [anetOk, anetErr]

namespace Reaches

variable {p q : AddrInfo} {ps : List AddrInfo} {calls : List (Option ℤ)}

/-- Which case an address is. -/
theorem cons_iff : Reaches (p :: ps) calls q ↔
    (refused 3 calls = false ∧ q = p) ∨
    (refused 1 calls = true ∧ Reaches ps (calls.drop 1) q) ∨
    (refused 2 calls = false ∧ refused 1 (calls.drop 2) = true ∧ Reaches ps (calls.drop 4) q) := by
  constructor
  · intro h
    cases h with
    | here hworks => exact Or.inl ⟨hworks, rfl⟩
    | noSocket hsocket h => exact Or.inr (Or.inl ⟨hsocket, h⟩)
    | noPeer hworks hconnect h => exact Or.inr (Or.inr ⟨hworks, hconnect, h⟩)
  · rintro (⟨hworks, rfl⟩ | ⟨hsocket, h⟩ | ⟨hworks, hconnect, h⟩)
    · exact .here hworks
    · exact .noSocket hsocket h
    · exact .noPeer hworks hconnect h

end Reaches

/-- **The search of `anetTcpConnect`** finds the address that is reached. -/
theorem Settled.connectLoop_reaches {s₀ s : Sockets} (h : Settled s₀ s) (err : Bool)
    (ps : List AddrInfo) {r : ℤ} {s' : Sockets}
    (hrun : s.connectLoop err none anetConnectNone ps = (r, s')) :
    (r = anetErr ∧ ∀ p, ¬Reaches ps s.calls p) ∨
      ∃ p k, r ≠ anetErr ∧ s'.sockets r = some k ∧ k.peer = some p.addr ∧
        ∀ q, Reaches ps s.calls q ↔ q = p := by
  induction ps generalizing s with
  | nil =>
      obtain ⟨rfl, -⟩ := Prod.mk.inj hrun
      exact Or.inl ⟨rfl, fun p hp => (nomatch hp)⟩
  | cons p ps ih =>
      rw [Sockets.connectLoop] at hrun
      simp only [Reaches.cons_iff]
      rcases h.tryConnect_blocking err p with
        ⟨hr, s₁, htry, h₁, hcalls⟩ | ⟨hr, hr₂, fd, s₁, htry⟩ |
        ⟨hr₂, hr₃, s₁, htry, h₁, hcalls⟩ | ⟨hr₃, n, s₁, k, htry, hk, hpeer⟩
      · rw [htry] at hrun
        have hrest := ih h₁ hrun
        rw [hcalls] at hrest
        simpa [hr, refused_mono (by decide : 1 ≤ 2) hr, refused_mono (by decide : 1 ≤ 3) hr]
          using hrest
      · rw [htry] at hrun
        obtain ⟨rfl, -⟩ := Prod.mk.inj hrun
        left
        simp [hr, hr₂, refused_mono (by decide : 2 ≤ 3) hr₂]
      · rw [htry] at hrun
        have hrest := ih h₁ hrun
        rw [hcalls] at hrest
        have hr : refused 1 s.calls = false := refused_anti (by decide) hr₂
        have hr₁ : refused 3 s.calls = true := by
          rw [show 3 = 2 + 1 from rfl, refused_add, hr₂, hr₃]
          rfl
        simpa [hr, hr₁, hr₂, hr₃] using hrest
      · rw [htry] at hrun
        obtain ⟨rfl, rfl⟩ := Prod.mk.inj hrun
        have hr : refused 1 s.calls = false := refused_anti (by decide) hr₃
        have hr₁ : refused 1 (s.calls.drop 2) = false := by
          rw [show 3 = 2 + 1 from rfl, refused_add, Bool.or_eq_false_iff] at hr₃
          exact hr₃.2
        refine Or.inr ⟨p, k, ?_, hk, hpeer, fun q => by simp [hr, hr₁, hr₃]⟩
        rw [anetErr]
        omega

/-- **`anetTcpConnect`** connects exactly when one of the addresses of the name is reached, and then
to this address. -/
theorem anetTcpConnect_reaches (s : Sockets) (err : Bool) (addr : Bytes) (port : ℤ)
    {ps : List AddrInfo} (hps : s.resolve s.asked.length
      { node := some addr, service := some (portstr port) } = .ok ps) {r : ℤ} {s' : Sockets}
    (hrun : s.anetTcpConnect err addr port = (r, s')) :
    (r ≠ anetErr ↔ ∃ p, Reaches ps s.calls p) ∧
      ∀ p, Reaches ps s.calls p → ∃ k, s'.sockets r = some k ∧ k.peer = some p.addr := by
  obtain ⟨s₁, hget, htable, hstray, hcalls⟩ := s.getaddrinfo_cases
    { node := some addr, service := some (portstr port) }
  rw [Sockets.anetTcpConnect, Sockets.anetTcpGenericConnect, Sockets.connectBody, hget, hps] at hrun
  have hrun : s₁.connectLoop err none anetConnectNone ps = (r, s') := by simpa using hrun
  have hloop := ((Settled.refl s).same htable hstray).connectLoop_reaches err ps hrun
  rw [hcalls] at hloop
  rcases hloop with ⟨hr, hnone⟩ | ⟨p, k, hr, hk, hpeer, hreach⟩
  · exact ⟨iff_of_false (not_not.mpr hr) fun ⟨p, hp⟩ => hnone p hp,
      fun p hp => absurd hp (hnone p)⟩
  · refine ⟨iff_of_true hr ⟨p, (hreach p).mpr rfl⟩, fun q hq => ?_⟩
    obtain rfl := (hreach q).mp hq
    exact ⟨k, hk, hpeer⟩

/-- There is no socket for the first of two addresses, and the second is connected. -/
theorem anetTcpConnect_reaches_second :
    let p : AddrInfo := ⟨afInet6, sockStream, 6, ⟨afInet6, text "::1", 12345⟩, by decide⟩
    let q : AddrInfo := ⟨afInet, sockStream, 6, ⟨afInet, text "127.0.0.1", 12345⟩, by decide⟩
    let s : Sockets := { calls := [some 24], resolve := fun _ _ => .ok [p, q] }
    let r := s.anetTcpConnect true (text "localhost") 12345
    r.1 ≠ anetErr ∧ ∃ k, r.2.sockets r.1 = some k ∧ k.peer = some q.addr := by
  intro p q s r
  have hreaches : Reaches [p, q] s.calls q := .noSocket rfl (.here rfl)
  have hps : s.resolve s.asked.length
      { node := some (text "localhost"), service := some (portstr 12345) } = .ok [p, q] := rfl
  have h := anetTcpConnect_reaches s true (text "localhost") 12345 hps (Prod.mk.eta (p := r)).symm
  exact ⟨h.1.mpr ⟨q, hreaches⟩, h.2 q hreaches⟩

/-! ## The local socket -/

/-- The socket for a path is connected, or about to be. -/
structure UnixConnected (path : Bytes) (junk : UInt8) (flags : BitVec 32) (k : Socket) : Prop where
  family : k.family = afUnix
  peer : k.peer = some { family := afUnix, text := Sockets.sunPath path junk }
  nonBlock : k.nonBlock = wantsNonBlock flags
  pending : k.pending = true → wantsNonBlock flags = true

/-- `anetUnixGenericConnect` by its outcome. -/
theorem unixGenericConnect_cases (s : Sockets) (err : Bool) (path : Bytes) (junk : UInt8)
    (flags : BitVec 32) :
    ((wantsNonBlock flags = true ∧ refused 2 s.calls = false ∧
        refused 2 (s.calls.drop 2) = true) ∧
      Leaked s err (s.anetUnixGenericConnect err path junk flags)) ∨
    (¬(wantsNonBlock flags = true ∧ refused 2 s.calls = false ∧
        refused 2 (s.calls.drop 2) = true) ∧
      Opened s err (UnixConnected path junk flags)
        (s.anetUnixGenericConnect err path junk flags)) := by
  rw [Sockets.anetUnixGenericConnect]
  rcases (Settled.refl s).createSocket err afUnix with
    ⟨hr, s₁, hcreate, htold, h₁⟩ | ⟨hr, n, s₁, hcreate, hcalls, hlow, h₁⟩
  · rw [hcreate, hr]
    exact Or.inr ⟨fun hand => (nomatch hand.2.1), .failed h₁ htold⟩
  have hn : ¬(n : ℤ) = anetErr := by
    rw [anetErr]
    omega
  rw [hcreate, hr, ← hcalls]
  dsimp only
  rw [if_neg hn]
  rcases h₁.nonBlock err flags (Socket.nonBlock_new afUnix sockStream 0) with
    ⟨hwants, hr₂, s₂, hset, htold, h₂⟩ | ⟨hnot, s₂, status, hset, hblock, h₂⟩
  · rw [if_pos hwants, hset]
    exact Or.inl ⟨⟨hwants, rfl, hr₂⟩, .mk h₂ htold⟩
  refine Or.inr ⟨fun hand => hnot ⟨hand.1, hand.2.2⟩, ?_⟩
  rw [hset]
  dsimp only
  rw [if_neg (fun hne => hne rfl)]
  obtain ⟨s₃, -, ⟨-, hconnect, h₃⟩ | ⟨-, hconnect, herrno, h₃⟩ | ⟨-, hconnect, herrno, h₃⟩⟩ :=
    h₂.connect { family := afUnix, text := Sockets.sunPath path junk }
  · rw [hconnect]
    exact .opened hlow h₃ ⟨rfl, rfl, hblock, fun h => (nomatch h)⟩
  · rw [hconnect]
    dsimp only
    rw [if_pos rfl]
    by_cases hwants : wantsNonBlock flags = true
    · rw [if_pos ⟨herrno, hwants⟩]
      exact .opened hlow h₃ ⟨rfl, rfl, hblock, fun _ => hwants⟩
    · rw [if_neg (fun hand => hwants hand.2)]
      exact .failed (h₃.setError err _).close.1
        ((s₃.told_setError err _).close (h₃.setError err _))
  · rw [hconnect]
    dsimp only
    rw [if_pos rfl, if_neg (fun hand => herrno hand.1)]
    exact .failed (h₃.setError err _).close.1
      ((s₃.told_setError err _).close (h₃.setError err _))

/-- **`anetUnixGenericConnect`** loses the descriptor of a socket exactly when the socket was to be
non-blocking and `fcntl` failed on it. Otherwise it gives one new descriptor, for a connected
socket, or `-1` with a text, and nothing is open that was not open before. -/
theorem anetUnixGenericConnect_leaked_iff (s : Sockets) (err : Bool) (path : Bytes) (junk : UInt8)
    (flags : BitVec 32) :
    (Leaked s err (s.anetUnixGenericConnect err path junk flags) ↔
      wantsNonBlock flags = true ∧ refused 2 s.calls = false ∧
        refused 2 (s.calls.drop 2) = true) ∧
    (Opened s err (UnixConnected path junk flags)
        (s.anetUnixGenericConnect err path junk flags) ↔
      ¬(wantsNonBlock flags = true ∧ refused 2 s.calls = false ∧
        refused 2 (s.calls.drop 2) = true)) := by
  exact leaked_iff_opened_iff (unixGenericConnect_cases s err path junk flags)

end AsprNet
