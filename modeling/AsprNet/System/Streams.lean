import AsprNet.Server.Requests

/-! # The requests on a stream

A client writes packages, and the packages are those of its requests: one for `ping` and
`file_recv`, and for `file_send` the command, the number of chunks and the chunks. So the requests
that are on their way can be read off the stream that carries them (`requestsOn_packages`).
-/

namespace AsprNet.System

open Client (Sending IsFileCommand commandText uploadPackages maxArgLength)
open Server (packageText)

/-- The request at the head of the packages, and what is behind it. -/
def takeRequest : List Bytes → Option (Sending × List Bytes)
  | [] => none
  | p :: ps =>
    match ArgT.process (packageText p) with
    | [cmd] => if cmd = text "ping" then some (.ping, ps) else none
    | [cmd, name] =>
      if cmd = text "file_send" then
        match ps with
        | [] => none
        | num :: ps =>
          some (.fileSend name (ps.take (leNat num)).flatten, ps.drop (leNat num))
      else if cmd = text "file_recv" then some (.fileRecv name, ps)
      else none
    | _ => none

/-- The requests at the head of the packages, at most `k` of them. -/
def requestsUpTo : ℕ → List Bytes → List Sending
  | 0, _ => []
  | k + 1, ps =>
    match takeRequest ps with
    | none => []
    | some (q, ps) => q :: requestsUpTo k ps

/-- The requests that the bytes of a stream are: every request has a package at least. -/
def requestsOn (bs : Bytes) : List Sending :=
  requestsUpTo (frames headSize bs).length (frames headSize bs)

/-! ## Reading back -/

/-- A request is read off its packages. -/
theorem takeRequest_packages {q : Sending} (hq : q.Sent) (ps : List Bytes) :
    takeRequest (q.packages ++ ps) = some (q, ps) := by
  -- the command of a file request, as the server takes it apart
  have hcommand : ∀ {cmd name : Bytes}, IsFileCommand cmd → IsArg name → blank ∉ name →
      ArgT.process (packageText (commandText cmd name)) = [cmd, name] := by
    intro cmd name hcmd hname hblank
    rw [Client.packageText_commandText hcmd hname, Client.process_commandText hcmd hname hblank]
  cases q with
  | ping =>
      have harg : ArgT.process (packageText (text "ping")) = [text "ping"] := by decide +kernel
      show takeRequest (text "ping" :: ps) = _
      rw [takeRequest, harg]
      rfl
  | fileSend name content =>
      obtain ⟨hname, hblank, -, hsize⟩ := hq
      have hnum : leNat (leBytes 8 (content.length / chunkSize + 1)) =
          (chunks chunkSize content).length := by
        rw [length_chunks, leNat_leBytes_eight]
        simp only [chunkSize]
        omega
      show takeRequest (commandText (text "file_send") name ::
        (leBytes 8 (content.length / chunkSize + 1) :: (chunks chunkSize content ++ ps))) = _
      rw [takeRequest, hcommand (Or.inl rfl) hname hblank]
      dsimp only
      rw [if_pos rfl, hnum, List.take_left' rfl, List.drop_left' rfl, flatten_chunks (by decide)]
  | fileRecv name =>
      obtain ⟨hname, hblank, -⟩ := hq
      show takeRequest (commandText (text "file_recv") name :: ps) = _
      rw [takeRequest, hcommand (Or.inr rfl) hname hblank]
      dsimp only
      rw [if_neg (by decide), if_pos rfl]

/-- Requests are read off their packages, when `k` is enough. -/
theorem requestsUpTo_packages {k : ℕ} {qs : List Sending} (hk : qs.length ≤ k)
    (hqs : ∀ q ∈ qs, q.Sent) : requestsUpTo k (qs.flatMap Sending.packages) = qs := by
  induction qs generalizing k with
  | nil => cases k <;> rfl
  | cons q qs ih =>
      obtain ⟨k, rfl⟩ : ∃ k', k = k' + 1 := ⟨k - 1, by rw [List.length_cons] at hk; omega⟩
      rw [List.flatMap_cons, requestsUpTo, takeRequest_packages (hqs q List.mem_cons_self)]
      dsimp only
      rw [ih (Nat.le_of_succ_le_succ hk) fun q' hq' => hqs q' (List.mem_cons_of_mem _ hq')]

/-- A request has a package. -/
theorem packages_ne_nil (q : Sending) : q.packages ≠ [] := by
  cases q <;> exact List.cons_ne_nil _ _

/-- There are as many packages as requests at least. -/
theorem length_le_packages (qs : List Sending) :
    qs.length ≤ (qs.flatMap Sending.packages).length := by
  induction qs with
  | nil => exact le_rfl
  | cons q qs ih =>
      have hpos := List.length_pos_iff.mpr (packages_ne_nil q)
      rw [List.flatMap_cons, List.length_append, List.length_cons]
      omega

/-- The length of a package fits into its length field. -/
theorem length_package_lt {q : Sending} (hq : q.Sent) {p : Bytes} (hp : p ∈ q.packages) :
    p.length < 256 ^ headSize := by
  -- the commands are short
  have hshort : ∀ {cmd name : Bytes}, IsFileCommand cmd → name.length ≤ maxArgLength →
      (commandText cmd name).length < 256 ^ headSize := by
    intro cmd name hcmd hlen
    have hmax : name.length ≤ 1005 := hlen
    rw [Client.length_commandText hcmd, headSize]
    omega
  cases q with
  | ping =>
      obtain rfl := List.mem_singleton.mp hp
      decide
  | fileSend name content =>
      obtain ⟨-, -, hlen, -⟩ := hq
      rcases List.mem_cons.mp hp with rfl | hp
      · exact hshort (Or.inl rfl) hlen
      rcases List.mem_cons.mp hp with rfl | hp
      · rw [length_leBytes]
        decide
      · exact (length_le_of_mem_chunks hp).trans_lt (by decide)
  | fileRecv name =>
      obtain rfl := List.mem_singleton.mp hp
      exact hshort (Or.inr rfl) hq.2.2

/-- **Requests are read off the stream** that carries them. -/
theorem requestsOn_packages {qs : List Sending} (hqs : ∀ q ∈ qs, q.Sent) :
    requestsOn ((qs.flatMap Sending.packages).flatMap (frame headSize)) = qs := by
  have hframes : frames headSize ((qs.flatMap Sending.packages).flatMap (frame headSize)) =
      qs.flatMap Sending.packages := by
    refine frames_flatMap_frame (by decide) fun p hp => ?_
    obtain ⟨q, hq, hp⟩ := List.mem_flatMap.mp hp
    exact length_package_lt (hqs q hq) hp
  rw [requestsOn, hframes]
  exact requestsUpTo_packages (length_le_packages qs) hqs

end AsprNet.System
