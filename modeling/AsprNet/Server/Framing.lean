import AsprNet.Server.Connection

/-! # Which bytes are run as a command

As long as every `read(2)` of `read_event_handler` returns all it was asked for, or 0, the
commands that are run are the packages that were sent, in order, each once
(`commands_framed`). A short or failed read breaks this at once, since the handler parses its
buffer whatever the reads returned (`commands_framed_stale`).
-/

namespace AsprNet.Server

/-- A package that is a command other than `file_send`, and fits into a receive buffer of `size`
bytes. -/
structure CommandPackage (size : ℕ) (p : Bytes) : Prop where
  nonempty : p ≠ []
  fits : p.length < size
  noUpload : ArgT.argv (ArgT.process (packageText p)) 0 ≠ .ok (text "file_send")

/-- A `read(2)` that is not cut short and does not fail. -/
def Whole (o : ReadOutcome) : Prop := o = .full ∨ o = .eof

/-- The state of the connection when the packages `ps` are still to be read, and the next `n` reads
are whole. -/
structure Awaits (sys : Sys) (c : ClientT) (ps : List Bytes) (n : ℕ) : Prop where
  size : c.rBuffer.size = defaultBuffSize
  packages : ∀ p ∈ ps, CommandPackage defaultBuffSize p
  stream : ∃ s, sys.socks c.fd = some s ∧ s.inbox = ps.flatMap (frame headSize) ∧
    ∀ o ∈ s.reads.take n, Whole o

/-- A read that does not lead to a package ends the run without a command. -/
theorem handed_none {sys sys₁ : Sys} {c : ClientT} (self : ℕ)
    (hread : readPackage sys c.fd c = .ok (sys₁, none)) :
    ConnEvent.readable.handed sys c = [] ∧
      ∀ sys' c', ConnEvent.readable.handle self sys c ≠ .ok (sys', some c') := by
  refine ⟨by simp [ConnEvent.handed, hread], fun sys' c' hrun => ?_⟩
  simp only [ConnEvent.handle, readEventHandler, hread, ok_bind, bind_eq_ok] at hrun
  obtain ⟨_, _, hret⟩ := hrun
  cases hret

namespace Awaits

variable {sys : Sys} {c : ClientT} {ps : List Bytes} {n : ℕ}

/-- A writable event changes nothing of what is to be read. -/
theorem writable (h : Awaits sys c ps (n + 2)) (self : ℕ) {sys' : Sys} {c' : ClientT}
    (hrun : ConnEvent.writable.handle self sys c = .ok (sys', some c')) : Awaits sys' c' ps n := by
  obtain ⟨s, hs, hin, hreads⟩ := h.stream
  have hless : ∀ o ∈ s.reads.take n, Whole o :=
    fun o ho => hreads o (List.take_subset_take_left _ (by omega) ho)
  rw [ConnEvent.handle] at hrun
  split_ifs at hrun
  · obtain ⟨s', hs', hsame, hframe, hbuf⟩ := writeEventHandler_sameInput hrun hs
    refine ⟨by rw [hbuf, h.size], h.packages, s', ?_, by rw [hsame.inbox, hin], ?_⟩
    · rw [hframe.fd, hs']
    · rwa [hsame.reads]
  · cases hrun
    exact ⟨h.size, h.packages, s, hs, hin, hless⟩

/-- A package that is read whole is run, and the others are still to come. -/
theorem dispatch {p : Bytes} (h : Awaits sys c (p :: ps) (n + 2)) (self : ℕ) {s : Sock}
    (hs : sys.socks c.fd = some s)
    (hin : s.inbox = frame headSize p ++ ps.flatMap (frame headSize))
    (hreads : ∀ o ∈ s.reads.take (n + 2), Whole o) (h₁ : s.reads.headD .full = .full)
    (h₂ : s.reads.tail.headD .full = .full) :
    ConnEvent.readable.handed sys c = [ArgT.process (packageText p)] ∧
      ∀ sys' c', ConnEvent.readable.handle self sys c = .ok (sys', some c') →
        Awaits sys' c' ps n := by
  have hp := h.packages p List.mem_cons_self
  have hfits : p.length < c.rBuffer.size := by
    rw [h.size]
    exact hp.fits
  have hsize : c.rBuffer.size ≤ 2 ^ 64 := by
    rw [h.size]
    decide
  have hread := readPackage_frame hs hin hp.nonempty hfits hsize h₁ h₂
  refine ⟨by simp [ConnEvent.handed, hread], fun sys' c' hrun => ?_⟩
  simp only [ConnEvent.handle, readEventHandler, hread, ok_bind, bind_eq_ok] at hrun
  obtain ⟨⟨sys₁, c₁⟩, hcmd, hret⟩ := hrun
  cases hret
  obtain ⟨hs', hframe, hbuf⟩ :=
    processCommand_sameInput hcmd (Function.update_self _ _ _) hp.noUpload
  refine ⟨?_, fun q hq => h.packages q (List.mem_cons_of_mem _ hq),
    { s with inbox := ps.flatMap (frame headSize), reads := s.reads.tail.tail,
             heads := s.heads.tail }, ?_, rfl, tail_of_take (tail_of_take hreads)⟩
  · rw [hbuf, size_withPackage hfits, h.size]
  · rw [hframe.fd]
    exact hs'

/-- **One event.** Either no command is run and the run goes on with the same packages or ends, or
the first package is run and the run goes on with the others or ends. -/
theorem step (h : Awaits sys c ps (n + 2)) (self : ℕ) (e : ConnEvent) :
    (e.handed sys c = [] ∧ ∀ sys' c', e.handle self sys c = .ok (sys', some c') →
        Awaits sys' c' ps n) ∨
      ∃ p rest, ps = p :: rest ∧ e.handed sys c = [ArgT.process (packageText p)] ∧
        ∀ sys' c', e.handle self sys c = .ok (sys', some c') → Awaits sys' c' rest n := by
  cases e with
  | writable => exact Or.inl ⟨rfl, fun sys' c' hrun => h.writable self hrun⟩
  | readable =>
      obtain ⟨s, hs, hin, hreads⟩ := h.stream
      have hquiet : ∀ sys₁, readPackage sys c.fd c = .ok (sys₁, none) →
          ConnEvent.readable.handed sys c = [] ∧ ∀ sys' c',
            ConnEvent.readable.handle self sys c = .ok (sys', some c') → Awaits sys' c' ps n := by
        intro sys₁ hread
        obtain ⟨hhanded, hends⟩ := handed_none self hread
        exact ⟨hhanded, fun sys' c' hrun => absurd hrun (hends sys' c')⟩
      rcases headD_of_take (P := Whole) (Or.inl rfl) hreads with h₁ | h₁
      · cases ps with
        | nil =>
            -- nothing is left to read
            have hread := readPackage_empty hs hin h₁
            refine Or.inl ⟨by simp [ConnEvent.handed, hread], fun sys' c' hrun => ?_⟩
            simp [ConnEvent.handle, readEventHandler, hread] at hrun
        | cons p rest =>
            rw [List.flatMap_cons] at hin
            rcases headD_of_take (P := Whole) (Or.inl rfl) (tail_of_take hreads) with h₂ | h₂
            · exact Or.inr ⟨p, rest, rfl, h.dispatch self hs hin hreads h₁ h₂⟩
            · have hfits := (h.packages p List.mem_cons_self).fits
              have hmax : p.length < 1024 := hfits
              obtain ⟨sys₁, hread⟩ := readPackage_cut hs hin (by omega) h₁ h₂
              exact Or.inl (hquiet sys₁ hread)
      · obtain ⟨sys₁, hread⟩ := readPackage_closed hs h₁
        exact Or.inl (hquiet sys₁ hread)

end Awaits

/-- **Command framing.** While the reads of `read_event_handler` are whole, the argument vectors
given to `process_command` are those of the packages sent, in order, up to some package. -/
theorem commands_framed {sys : Sys} {c : ClientT} {ps : List Bytes} (self : ℕ)
    (es : List ConnEvent) (h : Awaits sys c ps (2 * es.length)) :
    ∃ k, dispatched self es sys c = (ps.take k).map fun p => ArgT.process (packageText p) := by
  induction es generalizing sys c ps with
  | nil => exact ⟨0, rfl⟩
  | cons e es ih =>
      have hstep := Awaits.step (n := 2 * es.length) h self e
      rw [dispatched]
      rcases hstep with ⟨hhanded, hnext⟩ | ⟨p, rest, rfl, hhanded, hnext⟩
      · rw [hhanded, List.nil_append]
        split
        · rename_i sys' c' hrun
          exact ih (hnext sys' c' hrun)
        · exact ⟨0, rfl⟩
      · rw [hhanded]
        split
        · rename_i sys' c' hrun
          obtain ⟨k, hk⟩ := ih (hnext sys' c' hrun)
          exact ⟨k + 1, by rw [hk, List.take_succ_cons, List.map_cons, List.singleton_append]⟩
        · exact ⟨1, by simp⟩

/-- Two commands, the second cut off by the end of the stream. -/
theorem commands_framed_ping_get :
    ∃ k, dispatched 0 [.readable, .readable]
        (Sys.connected 5 0 { inbox := [text "ping", text "get a"].flatMap (frame headSize),
                             reads := [.full, .full, .full, .eof] } Files.empty)
        (ClientT.accepted 5) =
      ([text "ping", text "get a"].take k).map fun p => ArgT.process (packageText p) :=
  commands_framed 0 _
    { size := size_rBuffer_accepted 5
      packages := by
        have hping : CommandPackage defaultBuffSize (text "ping") := by constructor <;> decide
        have hget : CommandPackage defaultBuffSize (text "get a") := by constructor <;> decide
        simpa using ⟨hping, hget⟩
      stream := ⟨_, rfl, rfl, by simp [Whole]⟩ }

/-- The payload read of the second package fails: the text of the first is run again. -/
theorem commands_framed_stale :
    ¬∃ k, dispatched 0 [.readable, .readable]
        (Sys.connected 5 0 { inbox := [text "ping", text "get a"].flatMap (frame headSize),
                             reads := [.full, .full, .full, .err] } Files.empty)
        (ClientT.accepted 5) =
      ([text "ping", text "get a"].take k).map fun p => ArgT.process (packageText p) := by
  have hrun : dispatched 0 [.readable, .readable]
      (Sys.connected 5 0 { inbox := [text "ping", text "get a"].flatMap (frame headSize),
                           reads := [.full, .full, .full, .err] } Files.empty)
      (ClientT.accepted 5) = [[text "ping"], [text "ping"]] := by decide +kernel
  rintro ⟨k, hk⟩
  rw [hrun] at hk
  rcases k with _ | _ | k
  · exact absurd hk (by decide)
  · exact absurd hk (by decide)
  · rw [List.take_of_length_le (by simp)] at hk
    exact absurd hk (by decide)

end AsprNet.Server
