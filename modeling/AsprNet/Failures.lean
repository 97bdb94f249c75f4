import AsprNet.Lib.Failures
import AsprNet.Package

/-! # How the shared functions fail

Functions on arrays and streams end in one of `ioHalts`. Functions on a `FILE*` end in one of
`handleHalts`, which has a null pointer only when there is no file.
-/

namespace AsprNet

/-- How functions on arrays and streams halt. -/
def ioHalts : Set Halt :=
  {e | e = .outOfBounds ∨ e = .assertion ∨ e = .badAlloc ∨ e = .blocked ∨ e = .outOfFuel}

instance (e : Halt) : Decidable (e ∈ ioHalts) := inferInstanceAs (Decidable (_ ∨ _))

/-- How functions on a `FILE*` halt. -/
def handleHalts {α : Type} (file : Option α) : Set Halt :=
  {e | e ∈ ioHalts ∨ (e = .nullPointer ∧ file = none)}

/-- A function on a `FILE*` may halt in every way a function on arrays does. -/
theorem ioHalts_subset {α : Type} (file : Option α) : ioHalts ⊆ handleHalts file :=
  fun _ h => Or.inl h

/-- With an open file there is no null pointer to read through. -/
theorem nullPointer_notMem {α : Type} (f : α) : Halt.nullPointer ∉ handleHalts (some f) := by
  rintro (h | ⟨-, h⟩)
  · exact absurd h (by decide)
  · cases h

/-- Reading past the end of an argument list is no halt of a function on a `FILE*`. -/
theorem noArgument_notMem {α : Type} (file : Option α) : Halt.noArgument ∉ handleHalts file := by
  rintro (h | ⟨h, -⟩)
  · exact absurd h (by decide)
  · cases h

/-! ## Arrays and buffers -/

/-- A store halts only outside its array. -/
theorem store_fails (mem : Bytes) (i : ℕ) (bs : Bytes) : FailsOnly ioHalts (store mem i bs) :=
  .ite (fun _ => .ok _) fun _ => .error (by decide)

namespace BufferT

/-- The sizes of a buffer halt only through the assertion. -/
theorem checked_fails (b : BufferT) (n : ℕ) : FailsOnly ioHalts (b.checked n) :=
  .ite (fun _ => .ok _) fun _ => .error (by decide)

/-- `readable_size` halts only through its assertion. -/
theorem readableSize_fails (b : BufferT) : FailsOnly ioHalts b.readableSize := b.checked_fails _

/-- `writeable_size` halts only through its assertion. -/
theorem writeableSize_fails (b : BufferT) : FailsOnly ioHalts b.writeableSize := b.checked_fails _

/-- `shrink` halts through the assertion or the store behind the array. -/
theorem shrink_fails (b : BufferT) : FailsOnly ioHalts b.shrink := by
  unfold shrink
  refine b.readableSize_fails.bind fun len _ => ?_
  exact (store_fails _ _ _).bind fun buff _ => .ok _

/-- `new char[]` fails only by refusing the size. -/
theorem newChars_fails (junk : ℕ → UInt8) (n : ℕ) : FailsOnly ioHalts (newChars junk n) :=
  .ite (fun _ => .ok _) fun _ => .error (by decide)

/-- `extend` halts through the assertion, the allocation or a store. -/
theorem extend_fails (b : BufferT) (junk : ℕ → UInt8) (n : ℕ) :
    FailsOnly ioHalts (b.extend junk n) := by
  unfold extend
  refine b.writeableSize_fails.bind fun room _ => .ite (fun _ => ?_) fun _ => .ok _
  refine b.shrink_fails.bind fun b₁ _ => (newChars_fails junk _).bind fun buff _ => ?_
  exact (store_fails _ _ _).bind fun buff _ => .ok _

/-- `write_package` halts where its `extend` and its stores do. -/
theorem writePackage_fails (b : BufferT) (junk : ℕ → UInt8) (p : Bytes) :
    FailsOnly ioHalts (b.writePackage junk p) := by
  have hput : ∀ b₁ : BufferT, FailsOnly ioHalts (b₁.putBytes p) := by
    intro b₁
    unfold putBytes
    refine (store_fails _ _ _).bind fun buff _ => ?_
    exact (store_fails _ _ _).bind fun buff' _ => .ok _
  have hhead : FailsOnly ioHalts (b.putHead p.length) := by
    unfold putHead
    exact (store_fails _ _ _).bind fun buff _ => .ok _
  unfold writePackage
  refine hhead.bind fun b₁ _ => b₁.writeableSize_fails.bind fun room _ => .ite (fun _ => ?_) ?_
  · exact (b₁.extend_fails junk _).bind fun b₂ _ => hput b₂
  · exact fun _ => hput b₁

end BufferT

/-! ## Streams -/

namespace Sock

/-- Taking bytes from the inbox fails only by blocking on an empty one. -/
theorem fetch_fails (s : Sock) (m : ℕ) : FailsOnly ioHalts (s.fetch m) :=
  .ite (fun _ => .ok _) fun _ => .ite (fun _ => .error (by decide)) fun _ => .ok _

/-- A read may block; the end of the stream and an error of `read(2)` are results. -/
theorem deliver_fails (s : Sock) (o : ReadOutcome) (n : ℕ) :
    FailsOnly ioHalts (s.deliver o n) := by
  cases o with
  | full => exact s.fetch_fails _
  | upTo k => exact s.fetch_fails _
  | eof => exact .ok _
  | err => exact .ok _

/-- `read` fails like the outcome its script names. -/
theorem read_fails (s : Sock) (n : ℕ) : FailsOnly ioHalts (s.read n) := deliver_fails _ _ _

end Sock

/-- By induction on the fuel: each round fails like its read or the store of what it read. -/
theorem anetReadLoop_fails (fuel : ℕ) (s : Sock) (buf : Bytes) (count : ℤ) (totlen : ℕ) :
    FailsOnly ioHalts (anetReadLoop fuel s buf count totlen) := by
  induction fuel generalizing s buf totlen with
  | zero => exact .error (by decide)
  | succ fuel ih =>
      rw [anetReadLoop]
      refine .ite (fun _ => .ok _) fun _ => (Sock.deliver_fails _ _ _).bind ?_
      rintro ⟨got, s'⟩ -
      cases got with
      | none => exact .ok _
      | some bs =>
          exact .ite (fun _ => .ok _) fun _ => (store_fails _ _ _).bind fun buff _ => ih _ _ _

/-- `anetRead` fails like its loop. -/
theorem anetRead_fails (s : Sock) (buf : Bytes) (count : ℤ) :
    FailsOnly ioHalts (anetRead s buf count) := anetReadLoop_fails _ _ _ _ _

/-- By induction on the fuel: a round fails only by sending from behind the end of its array. -/
theorem anetWriteLoop_fails (fuel : ℕ) (s : Sock) (buf : Bytes) (count : ℤ) (totlen : ℕ) :
    FailsOnly ioHalts (anetWriteLoop fuel s buf count totlen) := by
  induction fuel generalizing s buf totlen with
  | zero => exact .error (by decide)
  | succ fuel ih =>
      rw [anetWriteLoop]
      refine .ite (fun _ => .ok _) fun _ => .ite (fun _ => .error (by decide)) fun _ => ?_
      rcases s.write (buf.take (sizeT (count - totlen))) with ⟨_ | n, s'⟩
      · exact .ok _
      · exact .ite (fun _ => .ok _) fun _ => ih _ _ _

/-- `anetWrite` fails like its loop. -/
theorem anetWrite_fails (s : Sock) (buf : Bytes) (count : ℤ) :
    FailsOnly ioHalts (anetWrite s buf count) := anetWriteLoop_fails _ _ _ _ _

/-! ## Packages -/

/-- Reading the header directly fails like one `read`. -/
theorem Sock.readHead_fails (s : Sock) : FailsOnly ioHalts s.readHead := by
  unfold readHead
  exact (read_fails _ _).bind fun _ _ => .ok _

/-- Reading the header through `anetRead` fails like `anetRead`. -/
theorem Sock.anetReadHead_fails (s : Sock) : FailsOnly ioHalts s.anetReadHead := by
  unfold anetReadHead
  exact (anetRead_fails _ _ _).bind fun _ _ => .ok _

/-- `recv_integer` fails like the two `anetRead`s it makes. -/
theorem recvInteger_fails (s : Sock) : FailsOnly ioHalts (recvInteger s) := by
  unfold recvInteger
  exact s.anetReadHead_fails.bind fun x _ => (anetRead_fails _ _ _).bind fun _ _ => .ok _

/-- By induction on the queue: flushing fails where a size or a write does. -/
theorem sendBuffers_fails (s : Sock) (bs : List BufferT) :
    FailsOnly ioHalts (sendBuffers s bs) := by
  induction bs generalizing s with
  | nil => exact .ok _
  | cons b bs ih =>
      rw [sendBuffers]
      refine b.readableSize_fails.bind fun n _ => (anetWrite_fails _ _ _).bind fun x _ => ?_
      exact (ih _).bind fun _ _ => .ok _

/-! ## Files -/

section Files

variable {α : Type}

/-- Taking the `FILE*` out of a null pointer is the only way to meet one. -/
theorem handle_fails (file : Option α) : FailsOnly (handleHalts file) (Files.handle file) := by
  cases file with
  | none => exact .error (Or.inr ⟨rfl, rfl⟩)
  | some f => exact .ok f

/-- Using a handle succeeds only for a file. -/
theorem isSome_of_handle {file : Option α} {f : α} (h : Files.handle file = .ok f) :
    file.isSome := by
  cases file with
  | none => cases h
  | some g => rfl

/-- `fwrite` fails only without a file. -/
theorem fwrite_fails (fs : Files) (file : Option Bytes) (bs : Bytes) :
    FailsOnly (handleHalts file) (fs.fwrite file bs) := by
  cases file with
  | none => exact .error (Or.inr ⟨rfl, rfl⟩)
  | some name => exact .ok _

/-- One chunk fails like its three stores: what `fread` read, the header and the NUL. -/
theorem readChunk_fails (junk : ℕ → UInt8) (f : InFile) : FailsOnly ioHalts (readChunk junk f) := by
  unfold readChunk
  refine (store_fails _ _ _).bind fun buff _ => (store_fails _ _ _).bind fun buff' _ => ?_
  exact (store_fails _ _ _).bind fun buff'' _ => .ok _

/-- By induction on the fuel: the loop fails at a null `FILE*` or like one of its rounds. -/
theorem readChunks_fails (junk : ℕ → ℕ → UInt8) (fuel i : ℕ) (file : Option InFile) :
    FailsOnly (handleHalts file) (readChunks junk fuel i file) := by
  induction fuel generalizing i file with
  | zero => exact .error (Or.inl (by decide))
  | succ fuel ih =>
      rw [readChunks]
      refine (handle_fails file).bind fun f hf => .ite (fun _ => .ok _) fun _ => ?_
      refine ((readChunk_fails _ _).mono (ioHalts_subset _)).bind fun x _ => ?_
      -- the loop goes on with a file
      have hsub : handleHalts (some x.2) ⊆ handleHalts file := by
        rintro e (he | ⟨-, he⟩)
        · exact Or.inl he
        · cases he
      exact ((ih _ _).mono hsub).bind fun _ _ => .ok _

/-- The chunk loop leaves the file open, and needs one. -/
theorem isSome_of_readChunks {junk : ℕ → ℕ → UInt8} {fuel i : ℕ} {file file' : Option InFile}
    {bs : List BufferT} (h : readChunks junk fuel i file = .ok (bs, file')) :
    file.isSome ∧ file'.isSome := by
  induction fuel generalizing i file bs with
  | zero => cases h
  | succ fuel ih =>
      rw [readChunks] at h
      obtain ⟨f, hf, h⟩ := bind_eq_ok.mp h
      have hfile := isSome_of_handle hf
      split_ifs at h
      · obtain ⟨-, rfl⟩ := Prod.mk.inj (Except.ok.inj h)
        exact ⟨hfile, hfile⟩
      · obtain ⟨x, -, h⟩ := bind_eq_ok.mp h
        obtain ⟨y, hrest, hret⟩ := bind_eq_ok.mp h
        obtain ⟨-, rfl⟩ := Prod.mk.inj (Except.ok.inj hret)
        exact ⟨hfile, (ih hrest).2⟩

/-- By induction on the number of packages: the loop fails at a null `FILE*` or like the function
that receives one package. -/
theorem recvChunks_fails {γ : Type} {recv : Sock → γ → Except Halt (ℤ × Sock × γ)}
    (hrecv : ∀ s c, FailsOnly ioHalts (recv s c)) (rBuffer : γ → BufferT) (file : Option Bytes)
    (num : ℕ) (s : Sock) (fs : Files) (c : γ) :
    FailsOnly (handleHalts file) (recvChunks recv rBuffer file num s fs c) := by
  induction num generalizing s fs c with
  | zero => exact .ok _
  | succ num ih =>
      rw [recvChunks]
      refine ((hrecv _ _).mono (ioHalts_subset _)).bind fun x _ => .ite (fun _ => .ok _) fun _ => ?_
      refine ((BufferT.readableSize_fails _).mono (ioHalts_subset _)).bind fun n _ => ?_
      exact (fwrite_fails _ _ _).bind fun fs' _ => ih _ _ _

end Files

end AsprNet
