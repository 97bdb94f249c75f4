import AsprNet.Connecting
import AsprNet.Lib.Decimal
import AsprNet.Listening
import AsprNet.Server.Connection
import Mathlib.Data.List.TakeWhile

/-! # Addresses as texts

Reference: `anet.cpp`, `anetFormatAddr`, `anetFormatPeer` and `anetFormatSock`. An address is
written as `ip:port`, and as `[ip]:port` when the `ip` has colons of its own. `readAddr` is what the
format is for: it reads the two parts back. It does so exactly when the text was not cut to the size
of the buffer (`formatAddr_reads`), and 54 bytes are enough for every address
(`anetFormatPeer_reads`, `anetFormatSock_reads`).
-/

namespace AsprNet

open Server (cString)

/-- The byte `:`. -/
def colon : UInt8 := 58

namespace Sockets

/-- `inet_ntop`, of an address that is written `t`, into the array `ip`. -/
def ntopInto (t : Bytes) (ip : Bytes) : Bytes :=
  match inetNtop t ip.length with
  | some t => splice ip 0 (t ++ [0])
  | none => ip

/-- What `anetPeerToString` does behind the label `error`. -/
def peerError (ip : Bytes) : ℤ × Bytes × ℕ :=
  if 2 ≤ ip.length then (-1, splice ip 0 [63, 0], 0)
  else if ip.length = 1 then (-1, [0], 0)
  else (-1, ip, 0)

/-- `anetPeerToString`: its result, the array `ip` and the port, where `sa` is what `getpeername`
gives. -/
def anetPeerToString (sa : Option SockAddr) (ip : Bytes) : ℤ × Bytes × ℕ :=
  match sa with
  | none => peerError ip
  | some addr =>
    if ip.length = 0 then peerError ip
    else if addr.family = afInet then (0, ntopInto addr.text ip, addr.port)
    else if addr.family = afInet6 then (0, ntopInto addr.text ip, addr.port)
    else if addr.family = afUnix then
      (0, splice ip 0 (BufferT.strncpyBytes (text "/unixsocket") ip.length), 0)
    else peerError ip

/-- `anetSockName`, where `sa` is what `getsockname` gives. An address that is not of `AF_INET` is
read as one of `AF_INET6`. -/
def anetSockName (s : Sockets) (sa : Option SockAddr) (ip : Bytes) :
    Except Halt (ℤ × Bytes × ℕ) :=
  match sa with
  | none => do
    let ip ← store ip 0 [63, 0]
    return (-1, ip, 0)
  | some addr =>
    let (t, port) := s.readInet addr
    .ok (0, ntopInto t ip, port)

/-- The text of `anetFormatAddr`. -/
def addrText (ip : Bytes) (port : ℤ) : Bytes :=
  if colon ∈ ip then text "[" ++ ip ++ text "]:" ++ text (toString port)
  else ip ++ text ":" ++ text (toString port)

/-- `anetFormatAddr`: the length of the text, and the array `buf` with as much of it as fits. -/
def anetFormatAddr (buf : Bytes) (ip : Bytes) (port : ℤ) : ℤ × Bytes :=
  let out := addrText ip port
  (out.length, if buf.length = 0 then buf else splice buf 0 (out.take (buf.length - 1) ++ [0]))

/-- `anetFormatPeer`; `ip` is the array of this name. -/
def anetFormatPeer (sa : Option SockAddr) (ip buf : Bytes) : Except Halt (ℤ × Bytes) := do
  let (_, ip, port) := anetPeerToString sa ip
  let ip ← cString ip
  return anetFormatAddr buf ip port

/-- `anetFormatSock`. -/
def anetFormatSock (s : Sockets) (sa : Option SockAddr) (ip buff : Bytes) :
    Except Halt (ℤ × Bytes) := do
  let (_, ip, port) ← s.anetSockName sa ip
  let ip ← cString ip
  return anetFormatAddr buff ip port

end Sockets

/-! ## Reading an address -/

/-- How a host is written. -/
def hostText (ip : Bytes) : Bytes := if colon ∈ ip then text "[" ++ ip ++ text "]" else ip

/-- A text with colons without its first and last byte. -/
def unbracket (bs : Bytes) : Bytes := if colon ∈ bs then (bs.drop 1).dropLast else bs

/-- The host that is written `bs`, if there is one. -/
def readHost (bs : Bytes) : Option Bytes :=
  if hostText (unbracket bs) = bs then some (unbracket bs) else none

/-- The host and the port on both sides of the last colon. -/
def readAddr (bs : Bytes) : Option (Bytes × ℤ) :=
  match bs.reverse.dropWhile (· ≠ colon) with
  | [] => none
  | _ :: host => do
    let ip ← readHost host.reverse
    let port ← readDecimal (bs.reverse.takeWhile (· ≠ colon)).reverse
    return (ip, port)

/-- Taking the brackets off an address printed with them gives it back, and one printed without is
left. -/
theorem unbracket_hostText (ip : Bytes) : unbracket (hostText ip) = ip := by
  rw [unbracket, hostText]
  split_ifs with hcolon hmem
  · show (ip ++ text "]").dropLast = ip
    exact List.dropLast_concat
  · exact absurd (List.mem_append_left _ (List.mem_append_right _ hcolon)) hmem
  · rfl

/-- The host read is the one printed. -/
theorem readHost_eq_some_iff {bs ip : Bytes} : readHost bs = some ip ↔ bs = hostText ip := by
  rw [readHost]
  constructor
  · intro h
    split_ifs at h with hshape
    obtain rfl := Option.some.inj h
    exact hshape.symm
  · rintro rfl
    rw [unbracket_hostText, if_pos rfl]

/-- An address is printed as its host, a colon and the decimal port. -/
theorem addrText_eq (ip : Bytes) (port : ℤ) :
    Sockets.addrText ip port = hostText ip ++ colon :: text (toString port) := by
  rw [Sockets.addrText, hostText]
  split_ifs
  · rw [List.append_assoc, List.append_assoc, List.append_assoc]
    rfl
  · rw [List.append_assoc]
    rfl

/-- A number has no colon. -/
theorem colon_notMem_port (port : ℤ) : colon ∉ text (toString port) := by
  intro h
  rcases of_mem_text_toString h with h | ⟨-, h⟩
  · exact absurd h (by decide)
  · exact absurd h (by decide)

/-- **The last colon** of a text. -/
theorem split_lastColon (host : Bytes) {port : Bytes} (hport : colon ∉ port) :
    (host ++ colon :: port).reverse.takeWhile (· ≠ colon) = port.reverse ∧
      (host ++ colon :: port).reverse.dropWhile (· ≠ colon) = colon :: host.reverse := by
  have hrev : (host ++ colon :: port).reverse = port.reverse ++ colon :: host.reverse := by simp
  have hpass : ∀ b ∈ port.reverse, decide (b ≠ colon) = true := by
    intro b hb
    rw [decide_eq_true_eq]
    rintro rfl
    exact hport (List.mem_reverse.mp hb)
  rw [hrev, List.takeWhile_append_of_pos hpass, List.dropWhile_append_of_pos hpass,
    List.takeWhile_cons_of_neg (by simp), List.dropWhile_cons_of_neg (by simp), List.append_nil]
  exact ⟨rfl, rfl⟩

/-- What is left of a text from its last colon on backwards begins with this colon. -/
theorem join_lastColon {bs host : Bytes} {c : UInt8}
    (h : bs.reverse.dropWhile (· ≠ colon) = c :: host) :
    bs = host.reverse ++ colon :: (bs.reverse.takeWhile (· ≠ colon)).reverse := by
  have hc : c = colon := by
    have hne : bs.reverse.dropWhile (· ≠ colon) ≠ [] := by
      rw [h]
      exact List.cons_ne_nil c host
    have hhead := List.head_dropWhile_not (· ≠ colon) hne
    simp only [h, List.head_cons, decide_eq_false_iff_not, not_not] at hhead
    exact hhead
  have hsplit := List.takeWhile_append_dropWhile (p := (· ≠ colon)) (l := bs.reverse)
  rw [h, hc] at hsplit
  have hrev := congrArg List.reverse hsplit
  rw [List.reverse_append, List.reverse_cons, List.append_assoc, List.reverse_reverse] at hrev
  exact hrev.symm

/-- **An address is read back**, and nothing else is read as one. -/
theorem readAddr_eq_some_iff {bs ip : Bytes} {port : ℤ} :
    readAddr bs = some (ip, port) ↔ bs = Sockets.addrText ip port := by
  rw [readAddr, addrText_eq]
  constructor
  · intro h
    split at h
    · cases h
    · rename_i hhost
      simp only [bind, pure, Option.bind_eq_some_iff, Option.some.injEq, Prod.mk.injEq,
        readHost_eq_some_iff, readDecimal_eq_some_iff] at h
      obtain ⟨_, hip, _, hport, rfl, rfl⟩ := h
      rw [← hip, ← hport]
      exact join_lastColon hhost
  · rintro rfl
    obtain ⟨htake, hdrop⟩ := split_lastColon (hostText ip) (colon_notMem_port port)
    rw [htake, hdrop]
    dsimp only
    rw [List.reverse_reverse, List.reverse_reverse, readHost_eq_some_iff.mpr rfl,
      readDecimal_eq_some_iff.mpr rfl]
    rfl

/-! ## Writing an address -/

/-- Neither the text of a host nor a number has a NUL. -/
theorem nul_notMem_addrText {ip : Bytes} (hip : 0 ∉ ip) (port : ℤ) :
    0 ∉ Sockets.addrText ip port := by
  have hport : (0 : UInt8) ∉ text (toString port) := by
    intro h
    rcases of_mem_text_toString h with h | ⟨h, -⟩
    · exact absurd h (by decide)
    · exact absurd h (by decide)
  have hhost : 0 ∉ hostText ip := by
    rw [hostText]
    split_ifs
    · simp only [List.mem_append, not_or]
      exact ⟨⟨by decide, hip⟩, by decide⟩
    · exact hip
  rw [addrText_eq, List.mem_append, List.mem_cons, not_or, not_or]
  exact ⟨hhost, by decide, hport⟩

/-- The C string in front of a NUL. -/
theorem cString_append {t : Bytes} (ht : 0 ∉ t) (rest : Bytes) :
    cString (t ++ 0 :: rest) = .ok t := by
  rw [cString, if_pos (List.mem_append_right _ List.mem_cons_self), Server.takeWhile_nul,
    List.takeWhile_eq_self_iff.mpr]
  intro b hb
  rw [decide_eq_true_eq]
  exact ne_of_mem_of_not_mem hb ht

/-- The C string in an array that `t` was written to. -/
theorem cString_splice {mem t : Bytes} (ht : 0 ∉ t) :
    cString (splice mem 0 (t ++ [0])) = .ok t := by
  rw [splice_zero, List.append_assoc]
  exact cString_append ht _

/-- **`anetFormatAddr`** leaves a text from which the host and the port can be read, exactly when it
returns less than the size of the buffer. -/
theorem formatAddr_reads {ip buf : Bytes} (hip : 0 ∉ ip) (port : ℤ) (hbuf : buf ≠ []) :
    ∃ t, cString (Sockets.anetFormatAddr buf ip port).2 = .ok t ∧
      (readAddr t = some (ip, port) ↔ (Sockets.anetFormatAddr buf ip port).1 < buf.length) := by
  have hpos := List.length_pos_of_ne_nil hbuf
  have hnul := nul_notMem_addrText hip port
  have htake : 0 ∉ (Sockets.addrText ip port).take (buf.length - 1) :=
    fun h => hnul (List.mem_of_mem_take h)
  refine ⟨(Sockets.addrText ip port).take (buf.length - 1), ?_, ?_⟩
  · rw [Sockets.anetFormatAddr]
    dsimp only
    rw [if_neg (by omega), cString_splice htake]
  · rw [readAddr_eq_some_iff, List.take_eq_self_iff]
    show _ ↔ ((Sockets.addrText ip port).length : ℤ) < buf.length
    omega

/-- The text of an address with a host of at most 45 bytes and a port of 16 bits. -/
theorem length_addrText_le {ip : Bytes} (hip : ip.length < inet6Addrstrlen) {port : ℕ}
    (hport : port < 2 ^ 16) : (Sockets.addrText ip port).length ≤ 53 := by
  have hhost : (hostText ip).length ≤ 47 := by
    rw [inet6Addrstrlen] at hip
    rw [hostText]
    split_ifs
    · rw [List.length_append, List.length_append, show (text "[").length = 1 from rfl,
        show (text "]").length = 1 from rfl]
      omega
    · omega
  have hdigits : (text (toString (port : ℤ))).length ≤ 4 + 1 :=
    (length_text_toString_le (by decide)).mpr ⟨by omega, by omega⟩
  rw [addrText_eq, List.length_append, List.length_cons]
  omega

/-- **The port in a query** can be read back exactly when five characters are enough for it. -/
theorem portstr_reads (port : ℤ) :
    readDecimal (portstr port) = some port ↔ -10000 < port ∧ port < 100000 := by
  have hlen := length_text_toString_le (z := port) (k := 4) (by decide)
  rw [portstr, readDecimal_eq_some_iff, List.take_eq_self_iff, hlen]
  norm_num

/-! ## The address of a socket -/

/-- What `anetFormatPeer` shows, where `getpeername` gives `sa`. -/
def shownPeer (sa : Option SockAddr) : Bytes × ℕ :=
  match sa with
  | none => (text "?", 0)
  | some addr =>
    if addr.family = afInet ∨ addr.family = afInet6 then (addr.text, addr.port)
    else if addr.family = afUnix then (text "/unixsocket", 0)
    else (text "?", 0)

/-- What `anetFormatSock` shows, where `getsockname` gives `sa`. -/
def shownSock (s : Sockets) (sa : Option SockAddr) : Bytes × ℕ :=
  match sa with
  | none => (text "?", 0)
  | some addr => s.readInet addr

/-- The C string that `inet_ntop` leaves. -/
theorem cString_ntopInto {t : Bytes} {port : ℕ} (h : IsPrinted t port) {ip : Bytes}
    (hip : ip.length = inet6Addrstrlen) : cString (Sockets.ntopInto t ip) = .ok t := by
  rw [Sockets.ntopInto, Sockets.inetNtop, hip, if_pos h.1]
  exact cString_splice h.2.1

/-- Where the peer is not known its text is a question mark. -/
theorem cString_peerError {ip : Bytes} (hip : ip.length = inet6Addrstrlen) :
    ∃ ip', Sockets.peerError ip = (-1, ip', 0) ∧ cString ip' = .ok (text "?") := by
  rw [Sockets.peerError, hip, if_pos (by decide)]
  exact ⟨_, rfl, cString_splice (t := text "?") (by decide)⟩

/-- `anetPeerToString` leaves what is shown. -/
theorem anetPeerToString_shown {sa : Option SockAddr}
    (hsa : ∀ addr, sa = some addr → addr.IsInet → addr.Printable) {ip : Bytes}
    (hip : ip.length = inet6Addrstrlen) :
    ∃ r ip', Sockets.anetPeerToString sa ip = (r, ip', (shownPeer sa).2) ∧
      cString ip' = .ok (shownPeer sa).1 := by
  have hne : ¬ip.length = 0 := by
    rw [hip]
    decide
  cases sa with
  | none =>
      obtain ⟨ip', herr, hc⟩ := cString_peerError hip
      exact ⟨_, ip', herr, hc⟩
  | some addr =>
      rw [Sockets.anetPeerToString, shownPeer, if_neg hne]
      by_cases h4 : addr.family = afInet
      · rw [if_pos h4, if_pos (Or.inl h4)]
        exact ⟨0, _, rfl, cString_ntopInto (hsa addr rfl (Or.inl h4)) hip⟩
      by_cases h6 : addr.family = afInet6
      · rw [if_neg h4, if_pos h6, if_pos (Or.inr h6)]
        exact ⟨0, _, rfl, cString_ntopInto (hsa addr rfl (Or.inr h6)) hip⟩
      · rw [if_neg h4, if_neg h6, if_neg (not_or.mpr ⟨h4, h6⟩)]
        split_ifs
        · refine ⟨_, _, rfl, ?_⟩
          rw [hip, splice_zero]
          exact cString_append (t := text "/unixsocket") (by decide) _
        · obtain ⟨ip', herr, hc⟩ := cString_peerError hip
          exact ⟨_, ip', herr, hc⟩

/-- `anetSockName` leaves what is shown. -/
theorem anetSockName_shown (s : Sockets) {sa : Option SockAddr}
    (hsa : ∀ addr, sa = some addr → addr.IsInet → addr.Printable) {ip : Bytes}
    (hip : ip.length = inet6Addrstrlen) :
    ∃ r ip', s.anetSockName sa ip = .ok (r, ip', (shownSock s sa).2) ∧
      cString ip' = .ok (shownSock s sa).1 := by
  cases sa with
  | none =>
      have hstore : 0 + [(63 : UInt8), 0].length ≤ ip.length := by
        rw [hip]
        decide
      refine ⟨-1, splice ip 0 [63, 0], ?_, cString_splice (t := text "?") (by decide)⟩
      rw [Sockets.anetSockName, store_of_le hstore, ok_bind]
      rfl
  | some addr =>
      exact ⟨0, Sockets.ntopInto (s.readInet addr).1 ip, rfl,
        cString_ntopInto (s.readInet_printed (hsa addr rfl)) hip⟩

/-- What is shown of a peer can be printed. -/
theorem shownPeer_printable {sa : Option SockAddr}
    (hsa : ∀ addr, sa = some addr → addr.IsInet → addr.Printable) :
    IsPrinted (shownPeer sa).1 (shownPeer sa).2 := by
  cases sa with
  | none => decide
  | some addr =>
      rw [shownPeer]
      split_ifs with hinet
      · exact hsa addr rfl hinet
      · decide
      · decide

/-- What is shown of a socket can be printed. -/
theorem shownSock_printable (s : Sockets) {sa : Option SockAddr}
    (hsa : ∀ addr, sa = some addr → addr.IsInet → addr.Printable) :
    IsPrinted (shownSock s sa).1 (shownSock s sa).2 := by
  cases sa with
  | none => exact (by decide : IsPrinted (text "?") 0)
  | some addr => exact s.readInet_printed (hsa addr rfl)

/-- A host and a port, formatted. -/
theorem format_reads {host ip buf : Bytes} {port : ℕ} (hhost : IsPrinted host port)
    (hc : cString ip = .ok host) (hbuf : buf ≠ []) :
    ∃ r buf' t, (cString ip >>= fun ip => Except.ok (Sockets.anetFormatAddr buf ip port)) =
        .ok (r, buf') ∧ cString buf' = .ok t ∧
      (readAddr t = some (host, (port : ℤ)) ↔ r < buf.length) ∧ r ≤ 53 := by
  obtain ⟨hshort, hnul, hport⟩ := hhost
  obtain ⟨t, ht, hreads⟩ := formatAddr_reads hnul port hbuf
  rw [hc, ok_bind]
  exact ⟨_, _, t, rfl, ht, hreads, Int.ofNat_le.mpr (length_addrText_le hshort hport)⟩

/-- **`anetFormatPeer`** gives a text from which the peer's address can be read, exactly when it
returns less than the size of the buffer. It never returns more than 53. -/
theorem anetFormatPeer_reads {sa : Option SockAddr}
    (hsa : ∀ addr, sa = some addr → addr.IsInet → addr.Printable) {ip buf : Bytes}
    (hip : ip.length = inet6Addrstrlen) (hbuf : buf ≠ []) :
    ∃ r buf' t, Sockets.anetFormatPeer sa ip buf = .ok (r, buf') ∧ cString buf' = .ok t ∧
      (readAddr t = some ((shownPeer sa).1, ((shownPeer sa).2 : ℤ)) ↔ r < buf.length) ∧ r ≤ 53 := by
  obtain ⟨r, ip', hpeer, hc⟩ := anetPeerToString_shown hsa hip
  rw [Sockets.anetFormatPeer, hpeer]
  exact format_reads (shownPeer_printable hsa) hc hbuf

/-- The address of a peer in a buffer that it does not fit into. -/
theorem anetFormatPeer_reads_cut :
    let addr : SockAddr := ⟨afInet6, text "2001:db8::1", 12345⟩
    let ip : Bytes := List.replicate 46 1
    let buf : Bytes := List.replicate 16 1
    ∃ r buf' t, Sockets.anetFormatPeer (some addr) ip buf = .ok (r, buf') ∧ cString buf' = .ok t ∧
      (readAddr t = some (text "2001:db8::1", 12345) ↔ r < buf.length) ∧ r ≤ 53 := by
  intro addr ip buf
  have hprint : addr.Printable := by decide
  have hsa : ∀ a, some addr = some a → a.IsInet → a.Printable := by
    rintro a ha -
    rwa [← Option.some.inj ha]
  exact anetFormatPeer_reads hsa (show ip.length = inet6Addrstrlen from rfl)
    (show buf ≠ [] from List.cons_ne_nil _ _)

/-- **`anetFormatSock`** does the same for the socket's own address. -/
theorem anetFormatSock_reads (s : Sockets) {sa : Option SockAddr}
    (hsa : ∀ addr, sa = some addr → addr.IsInet → addr.Printable) {ip buf : Bytes}
    (hip : ip.length = inet6Addrstrlen) (hbuf : buf ≠ []) :
    ∃ r buf' t, s.anetFormatSock sa ip buf = .ok (r, buf') ∧ cString buf' = .ok t ∧
      (readAddr t = some ((shownSock s sa).1, ((shownSock s sa).2 : ℤ)) ↔ r < buf.length) ∧
      r ≤ 53 := by
  obtain ⟨r, ip', hsock, hc⟩ := anetSockName_shown s hsa hip
  rw [Sockets.anetFormatSock, hsock, ok_bind]
  exact format_reads (shownSock_printable s hsa) hc hbuf

end AsprNet
