import Mathlib.Data.List.Basic

/-! # Runs of a fallible step function

A run feeds a list of inputs to a step function that may fail, `List.foldlM` in `Except`. The
rules below lift what one step preserves to whole runs.
-/

namespace AsprNet

universe u v w

variable {σ α β : Type u} {ι : Type v} {η : Type w}

@[simp] theorem ok_bind (a : α) (f : α → Except η β) : (Except.ok a >>= f) = f a := rfl

@[simp] theorem error_bind (e : η) (f : α → Except η β) : (Except.error e >>= f) = .error e := rfl

/-- A sequence of two computations succeeds only through a success of the first. -/
theorem bind_eq_ok {x : Except η α} {f : α → Except η β} {b : β} :
    (x >>= f) = .ok b ↔ ∃ a, x = .ok a ∧ f a = .ok b := by
  cases x <;> simp

variable {step : σ → ι → Except η σ} {Inv : σ → Prop} {P : ι → Prop}

/-- **Invariant rule.** What every successful step preserves holds after every successful run. -/
theorem run_invariant (hstep : ∀ s i s', P i → Inv s → step s i = .ok s' → Inv s')
    (is : List ι) (s s' : σ) (hP : ∀ i ∈ is, P i) (hs : Inv s)
    (hrun : is.foldlM step s = .ok s') : Inv s' := by
  induction is generalizing s with
  | nil =>
      cases hrun
      exact hs
  | cons i is ih =>
      rw [List.foldlM_cons, bind_eq_ok] at hrun
      obtain ⟨t, ht, hrest⟩ := hrun
      exact ih t (fun j hj => hP j (List.mem_cons_of_mem _ hj))
        (hstep s i t (hP i List.mem_cons_self) hs ht) hrest

/-- **Simulation rule.** If `f` takes every step of one system to a step of another, it takes every
run to a run. -/
theorem run_map {τ : Type u} {f : σ → τ} {step' : τ → ι → Except η τ}
    (hstep : ∀ s i, step' (f s) i = (step s i).map f) (is : List ι) (s : σ) :
    is.foldlM step' (f s) = (is.foldlM step s).map f := by
  induction is generalizing s with
  | nil => rfl
  | cons i is ih =>
      rw [List.foldlM_cons, List.foldlM_cons, hstep]
      cases step s i with
      | error e => rfl
      | ok t => exact ih t

/-- `R` holds of every step of the run from `s`, at the state in which the step is taken. -/
def StepsMeet (step : σ → ι → Except η σ) (R : σ → ι → Prop) : σ → List ι → Prop
  | _, [] => True
  | s, i :: is => R s i ∧ ∀ s', step s i = .ok s' → StepsMeet step R s' is

/-- The condition on the steps may be weakened. -/
theorem StepsMeet.imp {R R' : σ → ι → Prop} (himp : ∀ s i, R s i → R' s i) {is : List ι} {s : σ}
    (h : StepsMeet step R s is) : StepsMeet step R' s is := by
  induction is generalizing s with
  | nil => trivial
  | cons i is ih => exact ⟨himp s i h.1, fun s' hs' => ih (h.2 s' hs')⟩

/-- **Conditional invariant rule.** What a step keeps when `R` holds of it holds in every state
that a run reaches whose steps meet `R`. -/
theorem StepsMeet.invariant {R : σ → ι → Prop}
    (hstep : ∀ s i s', R s i → Inv s → step s i = .ok s' → Inv s') {is js : List ι} {s s' : σ}
    (h : StepsMeet step R s (is ++ js)) (hs : Inv s) (hrun : is.foldlM step s = .ok s') :
    Inv s' := by
  induction is generalizing s with
  | nil =>
      cases hrun
      exact hs
  | cons i is ih =>
      rw [List.foldlM_cons, bind_eq_ok] at hrun
      obtain ⟨t, ht, hrest⟩ := hrun
      exact ih (h.2 t ht) (hstep s i t h.1 hs ht) hrest

/-- What `R` says of a step in a good state may be replaced by what follows from it there. -/
theorem StepsMeet.imp_of_invariant {R R' : σ → ι → Prop}
    (himp : ∀ s i, P i → Inv s → R s i → R' s i)
    (hstep : ∀ s i s', P i → Inv s → step s i = .ok s' → Inv s') {is : List ι} {s : σ}
    (h : StepsMeet step R s is) (hP : ∀ i ∈ is, P i) (hs : Inv s) : StepsMeet step R' s is := by
  induction is generalizing s with
  | nil => trivial
  | cons i is ih =>
      have hi := hP i List.mem_cons_self
      refine ⟨himp s i hi hs h.1, fun s' hs' => ih (h.2 s' hs') ?_ (hstep s i s' hi hs hs')⟩
      intro j hj
      exact hP j (List.mem_cons_of_mem i hj)

/-- The run from `s` does not fail, and `Inv` holds in every state of it. -/
def StatesMeet (step : σ → ι → Except η σ) (Inv : σ → Prop) : σ → List ι → Prop
  | s, [] => Inv s
  | s, i :: is => Inv s ∧ ∃ s', step s i = .ok s' ∧ StatesMeet step Inv s' is

/-- The condition holds at the start. -/
theorem StatesMeet.first {is : List ι} {s : σ} (h : StatesMeet step Inv s is) : Inv s := by
  cases is with
  | nil => exact h
  | cons i is => exact h.1

/-- The condition on the states may be weakened. -/
theorem StatesMeet.imp {Inv' : σ → Prop} (himp : ∀ s, Inv s → Inv' s) {is : List ι} {s : σ}
    (h : StatesMeet step Inv s is) : StatesMeet step Inv' s is := by
  induction is generalizing s with
  | nil => exact himp s h
  | cons i is ih =>
      obtain ⟨hs, s', hstep, hrest⟩ := h
      exact ⟨himp s hs, s', hstep, ih hrest⟩

/-- A run that does not fail ends in one of its states. -/
theorem StatesMeet.run {is : List ι} {s : σ} (h : StatesMeet step Inv s is) :
    ∃ s', is.foldlM step s = .ok s' ∧ Inv s' := by
  induction is generalizing s with
  | nil => exact ⟨s, rfl, h⟩
  | cons i is ih =>
      obtain ⟨-, t, ht, hrest⟩ := h
      obtain ⟨s', hrun, hs'⟩ := ih hrest
      exact ⟨s', by rw [List.foldlM_cons, ht, ok_bind, hrun], hs'⟩

/-- **Conditional progress rule.** If a step from a good state succeeds where `R` holds of it, and
leads to a good state, so does every run whose steps meet `R`. -/
theorem StepsMeet.total {R : σ → ι → Prop}
    (hstep : ∀ s i, P i → Inv s → R s i → ∃ s', step s i = .ok s' ∧ Inv s') {is : List ι} {s : σ}
    (h : StepsMeet step R s is) (hP : ∀ i ∈ is, P i) (hs : Inv s) : StatesMeet step Inv s is := by
  induction is generalizing s with
  | nil => exact hs
  | cons i is ih =>
      obtain ⟨t, ht, hinv⟩ := hstep s i (hP i List.mem_cons_self) hs h.1
      exact ⟨hs, t, ht, ih (h.2 t ht) (fun j hj => hP j (List.mem_cons_of_mem i hj)) hinv⟩

/-- A run succeeds only if `R` holds of its steps, when a step succeeds only where `R` does. -/
theorem StepsMeet.of_run {R : σ → ι → Prop} (hstep : ∀ s i s', step s i = .ok s' → R s i)
    {is : List ι} {s s' : σ} (hrun : is.foldlM step s = .ok s') : StepsMeet step R s is := by
  induction is generalizing s with
  | nil => trivial
  | cons i is ih =>
      rw [List.foldlM_cons, bind_eq_ok] at hrun
      obtain ⟨t, ht, hrest⟩ := hrun
      refine ⟨hstep s i t ht, fun u hu => ?_⟩
      obtain rfl := Except.ok.inj (ht.symm.trans hu)
      exact ih hrest

/-- **Exact invariant rule.** If, where `G` holds of a step, the step keeps `Inv` exactly when `K`
holds of it, then a run whose steps meet `G` keeps `Inv` exactly when its steps meet `K`. `Aux` is
what steps of this kind keep. -/
theorem statesMeet_iff {Aux : σ → Prop} {G K : σ → ι → Prop}
    (haux : ∀ s i s', Aux s → G s i → step s i = .ok s' → Aux s')
    (hstep : ∀ s i, Aux s → Inv s → G s i → ((∃ s', step s i = .ok s' ∧ Inv s') ↔ K s i))
    (is : List ι) {s : σ} (ha : Aux s) (hs : Inv s) (hG : StepsMeet step G s is) :
    StatesMeet step Inv s is ↔ StepsMeet step K s is := by
  induction is generalizing s with
  | nil => exact iff_of_true hs trivial
  | cons i is ih =>
      have hfirst := hstep s i ha hs hG.1
      constructor
      · rintro ⟨-, t, ht, hrest⟩
        refine ⟨hfirst.mp ⟨t, ht, hrest.first⟩, ?_⟩
        intro s' hs'
        obtain rfl := Except.ok.inj (ht.symm.trans hs')
        exact (ih (haux s i t ha hG.1 ht) hrest.first (hG.2 t ht)).mp hrest
      · rintro ⟨hK, hrest⟩
        obtain ⟨t, ht, hinv⟩ := hfirst.mpr hK
        exact ⟨hs, t, ht, (ih (haux s i t ha hG.1 ht) hinv (hG.2 t ht)).mpr (hrest t ht)⟩

/-- What a fold loses, it loses at one of its steps. -/
theorem exists_lost {f : σ → ι → σ} {is : List ι} {s : σ} (h0 : Inv s)
    (h1 : ¬Inv (is.foldl f s)) : ∃ i ∈ is, ∃ t, Inv t ∧ ¬Inv (f t i) := by
  by_contra hkept
  push Not at hkept
  exact h1 (List.foldlRecOn is f h0 fun t ht i hi => hkept i hi t ht)

/-! ## Runs that end by themselves -/

section Until

variable {done : σ → Bool}

/-- A run that ends in the first state that is `done`: whether there was one, and the last state. -/
def runUntil (done : σ → Bool) (step : σ → ι → Except η σ) : List ι → σ → Except η (Bool × σ)
  | [], s => .ok (done s, s)
  | i :: is, s => if done s then .ok (true, s) else step s i >>= runUntil done step is

/-- No state of the run from `s` in front of a step of `is` is `done`. -/
def Undone (done : σ → Bool) (step : σ → ι → Except η σ) (s : σ) (is : List ι) : Prop :=
  ∀ js i ks t, is = js ++ i :: ks → js.foldlM step s = .ok t → done t = false

/-- Without inputs nothing is done. -/
theorem undone_nil (s : σ) : Undone done step s ([] : List ι) := by
  intro js i ks t h
  exact absurd h.symm (List.append_ne_nil_of_right_ne_nil _ (List.cons_ne_nil i ks))

/-- The run is undone before its first step, and after it. -/
theorem undone_cons {s : σ} {i : ι} {is : List ι} :
    Undone done step s (i :: is) ↔
      done s = false ∧ ∀ t, step s i = .ok t → Undone done step t is := by
  constructor
  · intro h
    refine ⟨h [] i is s rfl rfl, fun t ht js j ks u his hu => ?_⟩
    refine h (i :: js) j ks u (congrArg (i :: ·) his) ?_
    rw [List.foldlM_cons, ht, ok_bind, hu]
  · rintro ⟨hs, htail⟩ js j ks u his hu
    cases js with
    | nil =>
        obtain rfl := Except.ok.inj hu
        exact hs
    | cons j' js =>
        obtain ⟨rfl, htl⟩ := List.cons.inj his
        rw [List.foldlM_cons, bind_eq_ok] at hu
        obtain ⟨t, ht, hu⟩ := hu
        exact htail t ht js j ks u htl hu

/-- **A run ends by itself** in the first state that is `done`. -/
theorem runUntil_eq_true_iff {is : List ι} {s s' : σ} :
    runUntil done step is s = .ok (true, s') ↔
      ∃ js ks, is = js ++ ks ∧ js.foldlM step s = .ok s' ∧ Undone done step s js ∧
        done s' = true := by
  induction is generalizing s with
  | nil =>
      rw [runUntil, Except.ok.injEq, Prod.mk.injEq]
      constructor
      · rintro ⟨hs, rfl⟩
        exact ⟨[], [], rfl, rfl, undone_nil s, hs⟩
      · rintro ⟨js, ks, his, hrun, -, hs'⟩
        obtain ⟨rfl, rfl⟩ := List.append_eq_nil_iff.mp his.symm
        obtain rfl := Except.ok.inj hrun
        exact ⟨hs', rfl⟩
  | cons i is ih =>
      rw [runUntil]
      cases hs : done s with
      | true =>
          rw [if_pos rfl, Except.ok.injEq, Prod.mk.injEq]
          constructor
          · rintro ⟨-, rfl⟩
            exact ⟨[], i :: is, rfl, rfl, undone_nil s, hs⟩
          · rintro ⟨js, ks, his, hrun, hundone, -⟩
            cases js with
            | nil => exact ⟨rfl, Except.ok.inj hrun⟩
            | cons j js =>
                have hfalse := (undone_cons.mp hundone).1
                rw [hs] at hfalse
                cases hfalse
      | false =>
          rw [if_neg Bool.false_ne_true, bind_eq_ok]
          constructor
          · rintro ⟨t, ht, hrest⟩
            obtain ⟨js, ks, rfl, hrun, hundone, hs'⟩ := ih.mp hrest
            refine ⟨i :: js, ks, rfl, ?_, undone_cons.mpr ⟨hs, fun t' ht' => ?_⟩, hs'⟩
            · rw [List.foldlM_cons, ht, ok_bind, hrun]
            · obtain rfl := Except.ok.inj (ht.symm.trans ht')
              exact hundone
          · rintro ⟨js, ks, his, hrun, hundone, hs'⟩
            cases js with
            | nil =>
                obtain rfl := Except.ok.inj hrun
                rw [hs] at hs'
                cases hs'
            | cons j js =>
                obtain ⟨rfl, rfl⟩ := List.cons.inj his
                rw [List.foldlM_cons, bind_eq_ok] at hrun
                obtain ⟨t, ht, hrun⟩ := hrun
                exact ⟨t, ht, ih.mpr ⟨js, ks, rfl, hrun, (undone_cons.mp hundone).2 t ht, hs'⟩⟩

end Until

end AsprNet
