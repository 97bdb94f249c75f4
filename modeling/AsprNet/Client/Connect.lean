import AsprNet.Client.Lines
import AsprNet.Connecting

/-! # The client's `main`

Reference: `client_t::connect` and `main`. The user gives the server's name as an argument, or line
by line until one can be connected; the lines behind it are commands. On the strings that `fgetline`
leaves this is `connectFirst`, then a session (`main_connects`): whatever fails on the way, the
process has one connection in the end, to the first name that can be connected, or nothing that it
did not have before.
-/

namespace AsprNet.Client

/-- `client_t::connect`: its result, which is `_fd` or `-1`. -/
def connect (s : Sockets) (ip : Bytes) (port : ℤ) : ℤ × Sockets :=
  let (fd, s) := s.anetTcpConnect true ip port
  if fd = -1 then (-1, s) else (fd, (s.anetBlock true fd).2)

/-- The first loop of `main`: the descriptor, the array and the rest of the input, or `none` where
the input ends. -/
def connectLines : ℕ → Sockets → Bytes → Bytes →
    Except Halt (Option (ℤ × Bytes × Bytes) × Sockets)
  | 0, _, _, _ => .error .outOfFuel
  | fuel + 1, s, commandStr, stdin => do
    let (r, commandStr, stdin) ← fgetline commandStr lineSize stdin
    if r = -1 then return (none, s)
    else
      let (fd, s) := connect s (commandStr.takeWhile (· ≠ 0)) defaultListenPort
      if fd = -1 then connectLines fuel s commandStr stdin
      else return (some (fd, commandStr, stdin), s)

/-- `main` up to its second loop. -/
def mainConnect (s : Sockets) (argv : List Bytes) (commandStr stdin : Bytes) :
    Except Halt (Option (ℤ × Bytes × Bytes) × Sockets) :=
  let (fd, s) :=
    match argv with
    | [_, ip] => connect s ip defaultListenPort
    | _ => (-1, s)
  if fd = -1 then connectLines (stdin.length + 1) s commandStr stdin
  else .ok (some (fd, commandStr, stdin), s)

/-- `main`, where `io` is behind the connection that it makes: the descriptor, if there is one, and
what becomes of the rest. -/
def main (s : Sockets) (argv : List Bytes) (commandStr stdin : Bytes) (io : Io) (c : ClientT) :
    Except Halt (Option ℤ × Sockets × Io × ClientT) := do
  let (conn, s) ← mainConnect s argv commandStr stdin
  match conn with
  | none => return (none, s, io, c)
  | some (fd, commandStr, stdin) =>
    let (io, c) ← mainLoop (stdin.length + 1) commandStr stdin io c
    return (some fd, s, io, c)

/-- Names, tried one after the other: the descriptor of the first that is connected, and the names
behind it. -/
def connectFirst (s : Sockets) : List Bytes → Option (ℤ × List Bytes) × Sockets
  | [] => (none, s)
  | name :: names =>
    let (fd, s) := connect s name defaultListenPort
    if fd = -1 then connectFirst s names else (some (fd, names), s)

/-! ## One attempt -/

/-- The socket waits, and is connected to an address of `name`. -/
structure ConnectedTo (s : Sockets) (name : Bytes) (k : Socket) : Prop where
  peer : ∃ a, k.peer = some a ∧
    ResolvesTo s { node := some name, service := some (portstr defaultListenPort) } a
  waits : k.nonBlock = false
  established : k.pending = false

variable {s₀ s : Sockets}

/-- **`connect`** opens one connection, or nothing. -/
theorem connect_opened (h : Settled s₀ s) (ip : Bytes) :
    Opened s₀ true (ConnectedTo s₀ ip) (connect s ip defaultListenPort) := by
  rw [connect, Sockets.anetTcpConnect]
  have hopened := h.tcpGenericConnect true ip defaultListenPort none anetConnectNone
  generalize s.anetTcpGenericConnect true ip defaultListenPort none anetConnectNone = rs at hopened
  cases hopened with
  | failed settled told => exact .failed settled told
  | @opened n k s₁ lowest holding hk =>
      obtain ⟨a, source, ha, -, hconn⟩ := hk
      have hn : ¬(n : ℤ) = -1 := by omega
      obtain ⟨s₂, hset, -, -, h₂⟩ := holding.setBlock true false
      have hwaits : k.nonBlock = false := hconn.nonBlock.trans (by decide)
      have hpending : k.pending = false := by
        cases hp : k.pending with
        | false => rfl
        | true => exact absurd (hconn.pending hp) (by decide)
      dsimp only
      rw [if_neg hn, Sockets.anetBlock, hset]
      refine .opened lowest h₂ ?_
      split
      · exact ⟨⟨a, hconn.peer, ha⟩, hwaits, hpending⟩
      · exact ⟨⟨a, hconn.peer, ha⟩, k.nonBlock_setBlock false, hpending⟩

/-! ## All attempts -/

/-- What trying `names` leaves: a connection to the first that could be connected, or nothing. -/
inductive Arrived (s₀ : Sockets) (names : List Bytes) : Option (ℤ × List Bytes) × Sockets → Prop
  | ended {s : Sockets} (settled : Settled s₀ s) : Arrived s₀ names (none, s)
  | connected {n : ℕ} {k : Socket} {s : Sockets} {tried rest : List Bytes} {name : Bytes}
      (hnames : names = tried ++ name :: rest) (holding : Holding s₀ n (some k) s)
      (hk : ConnectedTo s₀ name k) : Arrived s₀ names (some ((n : ℤ), rest), s)

/-- **Every name is an attempt**, until one of them connects. -/
theorem connectFirst_arrives (h : Settled s₀ s) (names : List Bytes) :
    Arrived s₀ names (connectFirst s names) := by
  induction names generalizing s with
  | nil => exact .ended h
  | cons name names ih =>
      have hopened := connect_opened h name
      rw [connectFirst]
      generalize connect s name defaultListenPort = rs at hopened
      cases hopened with
      | failed settled =>
          have hrest := ih settled
          dsimp only
          rw [if_pos (by rfl)]
          generalize connectFirst _ names = out at hrest
          cases hrest with
          | ended settled => exact .ended settled
          | @connected n k s tried rest name' hnames holding hk =>
              have hcons : name :: names = (name :: tried) ++ name' :: rest :=
                congrArg (name :: ·) hnames
              exact .connected hcons holding hk
      | opened _ holding hk =>
          dsimp only
          rw [if_neg (by omega)]
          exact .connected (List.nil_append _).symm holding hk

/-! ## The strings that are read -/

/-- The C string that a call of `fgetline` left. -/
def lineString (call : ℤ × Bytes) : Bytes := call.2.takeWhile (· ≠ 0)

/-- A call leaves the array as long as it was. -/
theorem length_fgetline {line stream : Bytes} (hline : (line.length : ℤ) = lineSize) {r : ℤ}
    {line' rest : Bytes} (h : fgetline line lineSize stream = .ok (r, line', rest)) :
    (line'.length : ℤ) = lineSize := by
  have hlength : line.length = 127 + 1 := Int.ofNat.inj hline
  by_cases hstream : stream = []
  · rw [hstream, fgetline_nil, Except.ok.injEq, Prod.mk.injEq, Prod.mk.injEq] at h
    rw [← h.2.1, hline]
  · have heq : fgetline line lineSize stream = _ := fgetline_eq hlength hstream
    rw [heq, Except.ok.injEq, Prod.mk.injEq, Prod.mk.injEq] at h
    rw [← h.2.1, length_call hlength stream]
    rfl

/-- How many rounds are granted to reading does not matter. -/
theorem fgetlines_unique {n : ℤ} {fuel fuel' : ℕ} {line stream : Bytes}
    {calls calls' : List (ℤ × Bytes)} (h : fgetlines n fuel line stream = .ok calls)
    (h' : fgetlines n fuel' line stream = .ok calls') : calls = calls' := by
  induction fuel generalizing fuel' line stream calls calls' with
  | zero => cases h
  | succ fuel ih =>
      cases fuel' with
      | zero => cases h'
      | succ fuel' =>
          rw [fgetlines, bind_eq_ok] at h h'
          obtain ⟨⟨r, line₁, rest⟩, hline, h⟩ := h
          obtain ⟨_, hline', h'⟩ := h'
          obtain rfl := Except.ok.inj (hline.symm.trans hline')
          dsimp only at h h'
          split_ifs at h h' with hend
          · exact (Except.ok.inj h).symm.trans (Except.ok.inj h')
          · obtain ⟨tail, htail, hret⟩ := bind_eq_ok.mp h
            obtain ⟨tail', htail', hret'⟩ := bind_eq_ok.mp h'
            obtain rfl := Except.ok.inj hret
            obtain rfl := Except.ok.inj hret'
            rw [ih htail htail']

/-- What is left to be read is what the names behind are read from. -/
inductive Tracks : Option (ℤ × List Bytes) × Sockets → Option (ℤ × Bytes × Bytes) × Sockets → Prop
  | ended (s : Sockets) : Tracks (none, s) (none, s)
  | connected {fuel : ℕ} {commandStr stdin : Bytes} {calls : List (ℤ × Bytes)} (fd : ℤ)
      (s : Sockets) (hline : (commandStr.length : ℤ) = lineSize)
      (hcalls : fgetlines lineSize fuel commandStr stdin = .ok calls) :
      Tracks (some (fd, calls.map lineString), s) (some (fd, commandStr, stdin), s)

/-- **The first loop of `main`** tries the strings that it reads. -/
theorem connectLines_tracks {fuel : ℕ} {commandStr stdin : Bytes} {calls : List (ℤ × Bytes)}
    (hline : (commandStr.length : ℤ) = lineSize)
    (hcalls : fgetlines lineSize fuel commandStr stdin = .ok calls) (s : Sockets) :
    ∃ rs, connectLines fuel s commandStr stdin = .ok rs ∧
      Tracks (connectFirst s (calls.map lineString)) rs := by
  induction fuel generalizing s commandStr stdin calls with
  | zero => cases hcalls
  | succ fuel ih =>
      rw [fgetlines, bind_eq_ok] at hcalls
      obtain ⟨⟨r, commandStr₁, rest⟩, hread, hcalls⟩ := hcalls
      have hline₁ := length_fgetline hline hread
      rw [connectLines, hread, ok_bind]
      dsimp only at hcalls ⊢
      by_cases hend : r = -1
      · rw [if_pos hend] at hcalls
        obtain rfl := Except.ok.inj hcalls
        rw [if_pos hend]
        exact ⟨_, rfl, .ended s⟩
      rw [if_neg hend] at hcalls
      obtain ⟨tail, htail, hret⟩ := bind_eq_ok.mp hcalls
      obtain rfl := Except.ok.inj hret
      rw [if_neg hend, List.map_cons, connectFirst]
      show ∃ rs, (if (connect s (lineString (r, commandStr₁)) defaultListenPort).1 = -1 then _
        else _) = _ ∧ _
      dsimp only
      split_ifs with hfd
      · exact ih hline₁ htail _
      · exact ⟨_, rfl, .connected _ _ hline₁ htail⟩

/-- The argument, if there is one. -/
def givenName : List Bytes → List Bytes
  | [_, ip] => [ip]
  | _ => []

/-- **`main` up to its second loop** tries the argument and the strings that it reads. -/
theorem mainConnect_tracks {commandStr stdin : Bytes} {calls : List (ℤ × Bytes)}
    (hline : (commandStr.length : ℤ) = lineSize)
    (hcalls : fgetlines lineSize (stdin.length + 1) commandStr stdin = .ok calls) (s : Sockets)
    (argv : List Bytes) :
    ∃ rs, mainConnect s argv commandStr stdin = .ok rs ∧
      Tracks (connectFirst s (givenName argv ++ calls.map lineString)) rs := by
  rcases argv with _ | ⟨prog, _ | ⟨ip, _ | ⟨x, argv⟩⟩⟩
  · exact connectLines_tracks hline hcalls s
  · exact connectLines_tracks hline hcalls s
  · rw [mainConnect, givenName, List.singleton_append, connectFirst]
    dsimp only
    split_ifs with hfd
    · exact connectLines_tracks hline hcalls _
    · exact ⟨_, rfl, .connected _ _ hline hcalls⟩
  · exact connectLines_tracks hline hcalls s

/-- `main` behind its first loop, on the strings that it reads. -/
def afterConnect (io : Io) (c : ClientT) :
    Option (ℤ × List Bytes) × Sockets → Except Halt (Option ℤ × Sockets × Io × ClientT)
  | (none, s) => .ok (none, s, io, c)
  | (some (fd, lines), s) => do
    let (io, c) ← session lines io c
    return (some fd, s, io, c)

/-- **The client's `main`.** Whatever the system calls return and the user types, the argument and
the lines are names until one of them is connected, and commands from then on. In the end the
process has one connection more than before, blocking and established, to an address of that name,
or no name could be connected, and nothing is open that was not open before. -/
theorem main_connects {commandStr : Bytes} (hline : (commandStr.length : ℤ) = lineSize)
    (stdin : Bytes) (s : Sockets) (argv : List Bytes) (io : Io) (c : ClientT) :
    ∃ calls, fgetlines lineSize (stdin.length + 1) commandStr stdin = .ok calls ∧
      Arrived s (givenName argv ++ calls.map lineString)
        (connectFirst s (givenName argv ++ calls.map lineString)) ∧
      main s argv commandStr stdin io c =
        afterConnect io c (connectFirst s (givenName argv ++ calls.map lineString)) := by
  have hreads {line stream : Bytes} (hline : (line.length : ℤ) = lineSize) :
      ∃ calls, fgetlines lineSize (stream.length + 1) line stream = .ok calls :=
    fgetlines_total (k := 127) (Nat.lt_succ_self _) (Int.ofNat.inj hline)
  obtain ⟨calls, hcalls⟩ := hreads hline
  refine ⟨calls, hcalls, connectFirst_arrives (Settled.refl s) _, ?_⟩
  obtain ⟨rs, hrun, htracks⟩ := mainConnect_tracks hline hcalls s argv
  rw [main, hrun, ok_bind]
  generalize connectFirst s (givenName argv ++ calls.map lineString) = out at htracks
  cases htracks with
  | ended s' => rfl
  | connected fd s' hline' hcalls' =>
      obtain ⟨calls'', hcalls''⟩ := hreads hline'
      obtain rfl := fgetlines_unique hcalls' hcalls''
      dsimp only
      rw [mainLoop_eq_session hcalls'']
      rfl

/-- The user types a name that has no address, a name that has one, and a command. -/
theorem main_connects_second_line :
    let p : AddrInfo := ⟨afInet, sockStream, 6, ⟨afInet, text "127.0.0.1", 12345⟩, by decide⟩
    let s : Sockets := { resolve := fun i _ => if i = 0 then .error (-2) else .ok [p] }
    let names := [text "host", text "localhost", text "get"]
    Arrived s names (connectFirst s names) ∧ (connectFirst s names).1 = some (0, [text "get"]) := by
  intro p s names
  have hline : ((List.replicate 128 0 : Bytes).length : ℤ) = lineSize := rfl
  let stdin := text "host\nlocalhost\nget\n"
  obtain ⟨calls, hcalls, harrived, -⟩ := main_connects hline stdin s [text "client"]
    ⟨{}, .empty, fun _ _ => 0⟩ (.create (fun _ => 0) fun _ => 0)
  have hnames : (fgetlines lineSize (stdin.length + 1) (List.replicate 128 0) stdin).map
      (·.map lineString) = .ok names := by
    decide +kernel
  rw [hcalls] at hnames
  have hread : calls.map lineString = names := Except.ok.inj hnames
  rw [hread] at harrived
  exact ⟨harrived, by decide +kernel⟩

end AsprNet.Client
