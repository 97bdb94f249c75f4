import Mathlib.Data.List.Basic
import Mathlib.Logic.Function.Basic

/-! # Interleaved components over a shared store

A family of components has no state in common but a store. Every event belongs to one component: it
may change this component and the store, whatever the others are doing. Two rules follow for runs
of the family, in which the events of all components come in any order. What a component does among
the others it does alone, on the stores it finds (`Steps.alone`). And a simulation of the single
components is one of the families (`Steps.simulates`).
-/

namespace AsprNet

variable {α α' β ε ε' κ σ τ S T ι ι' : Type*}

/-! ## Labelled runs -/

/-- `y` is reached from `x` by the steps with the labels `es`. -/
inductive Steps (step : α → ε → α → Prop) : α → List ε → α → Prop
  | nil (x : α) : Steps step x [] x
  | cons {x y z : α} {e : ε} {es : List ε} (h : step x e y) (hs : Steps step y es z) :
      Steps step x (e :: es) z

namespace Steps

variable {step : α → ε → α → Prop} {x y z : α} {e : ε} {es fs : List ε}

/-- A run of one step. -/
theorem single (h : step x e y) : Steps step x [e] y := .cons h (.nil y)

/-- Two runs in turn. -/
theorem append (h : Steps step x es y) (h' : Steps step y fs z) : Steps step x (es ++ fs) z := by
  induction h with
  | nil => exact h'
  | cons hstep _ ih => exact .cons hstep (ih h')

/-- **Invariant rule.** -/
theorem invariant {I : α → Prop} (hstep : ∀ x e y, I x → step x e y → I y)
    (h : Steps step x es y) (hx : I x) : I y := by
  induction h with
  | nil => exact hx
  | cons h _ ih => exact ih (hstep _ _ _ hx h)

/-- **Refinement rule.** If every step is a run of another system on the states that `f` gives,
and is observed as this run is, then so is every run. -/
theorem refines {step' : α' → ε' → α' → Prop} {I : α → Prop} (f : α → α') (obs : ε → List β)
    (obs' : ε' → List β)
    (hstep : ∀ x e y, I x → step x e y →
      I y ∧ ∃ es, Steps step' (f x) es (f y) ∧ es.flatMap obs' = obs e)
    (h : Steps step x fs y) (hx : I x) :
    I y ∧ ∃ es, Steps step' (f x) es (f y) ∧ es.flatMap obs' = fs.flatMap obs := by
  induction h with
  | nil x => exact ⟨hx, [], .nil _, rfl⟩
  | @cons x y z e fs h _ ih =>
      obtain ⟨hy, es, hes, hobs⟩ := hstep _ _ _ hx h
      obtain ⟨hz, es', hes', hobs'⟩ := ih hy
      exact ⟨hz, es ++ es', hes.append hes', by
        rw [List.flatMap_append, List.flatMap_cons, hobs, hobs']⟩

end Steps

/-! ## Families -/

/-- What a component can do: on finding the store `F` in the state `s`, an event leads to the state
`s'` and leaves the store `F'`. -/
abbrev Conduct (S σ ι : Type*) := S → σ → ι → S → σ → Prop

/-- The states of the components, and the store. -/
@[ext] structure Family (κ σ S : Type*) where
  part : κ → σ
  store : S

/-- An event of the component `key`, with the store it finds. -/
structure Occurrence (κ ι S : Type*) where
  key : κ
  event : ι
  store : S

/-- What is observed of the event, and of which component. -/
def Occurrence.seen (obs : ι → List β) (o : Occurrence κ ι S) : List (κ × β) :=
  (obs o.event).map fun b => (o.key, b)

/-- What is seen of the component `k`. -/
def own [DecidableEq κ] (k : κ) (l : List (κ × β)) : List β :=
  l.filterMap fun p => if p.1 = k then some p.2 else none

section Own

variable [DecidableEq κ] {k : κ}

end Own

/-- The event of a component on the store it found. -/
def Occurrence.own (o : Occurrence κ ι S) : ι × S := (o.event, o.store)

namespace Family

variable [DecidableEq κ]

/-- The family after the component `k` went over to `s` and left the store `F`. -/
def put (x : Family κ σ S) (k : κ) (s : σ) (F : S) : Family κ σ S :=
  ⟨Function.update x.part k s, F⟩

@[simp] theorem part_put (x : Family κ σ S) (k : κ) (s : σ) (F : S) :
    (x.put k s F).part = Function.update x.part k s := rfl

@[simp] theorem put_same (x : Family κ σ S) (k : κ) : x.put k (x.part k) x.store = x := by
  ext1
  · exact Function.update_eq_self _ _
  · rfl

@[simp] theorem put_put (x : Family κ σ S) (k : κ) (s s' : σ) (F F' : S) :
    (x.put k s F).put k s' F' = x.put k s' F' := by
  ext1
  · exact Function.update_idem _ _ _
  · rfl

/-- One component does a step, the others stay. -/
inductive Step (R : Conduct S σ ι) : Family κ σ S → Occurrence κ ι S → Family κ σ S → Prop
  | mk {x : Family κ σ S} {k : κ} {i : ι} {F : S} {s : σ} (h : R x.store (x.part k) i F s) :
      Step R x ⟨k, i, x.store⟩ (x.put k s F)

/-- A component on its own: every event comes with a store. -/
def Solo (R : Conduct S σ ι) (s : σ) (e : ι × S) (s' : σ) : Prop := ∃ F, R e.2 s e.1 F s'

/-- A component together with the store. -/
def Owning (R : Conduct S σ ι) (x : S × σ) (i : ι) (y : S × σ) : Prop := R x.1 x.2 i y.1 y.2

end Family

open Family

section Rules

variable [DecidableEq κ] {R : Conduct S σ ι} {Q : Conduct T τ ι'}

/-- **Isolation.** In a run of the family a component does what it does alone, on the stores that
its events find. -/
theorem Steps.alone {x y : Family κ σ S} {es : List (Occurrence κ ι S)}
    (h : Steps (Family.Step R) x es y) (k : κ) :
    Steps (Solo R) (x.part k) ((es.filter fun e => e.key = k).map Occurrence.own) (y.part k) := by
  induction h with
  | nil x => exact .nil _
  | @cons x y z e es hstep hrest ih =>
      obtain @⟨k', i, F, s, hR⟩ := hstep
      rw [part_put] at ih
      by_cases hk : k' = k
      · subst hk
        rw [Function.update_self] at ih
        rw [List.filter_cons_of_pos (by simp), List.map_cons]
        exact .cons ⟨F, hR⟩ ih
      · rw [Function.update_of_ne (Ne.symm hk)] at ih
        rwa [List.filter_cons_of_neg (by simpa using hk)]

/-- A run of one component and the store is one of every family it is in. -/
theorem Steps.embed {F F' : S} {s s' : σ} {is : List ι}
    (h : Steps (Owning R) (F, s) is (F', s')) (x : Family κ σ S) (k : κ) (hF : x.store = F)
    (hs : x.part k = s) :
    ∃ es, Steps (Family.Step R) x es (x.put k s' F') ∧
      es.map (fun e => (e.key, e.event)) = is.map fun i => (k, i) := by
  generalize ha : (F, s) = a at h
  generalize hb : (F', s') = b at h
  induction h generalizing F s x with
  | nil a =>
      subst ha
      obtain ⟨rfl, rfl⟩ := Prod.mk.inj hb
      rw [← hs, ← hF, put_same]
      exact ⟨[], .nil x, rfl⟩
  | @cons a c b i is hstep _ ih =>
      subst ha hF hs
      obtain ⟨es, hrun, hmap⟩ := ih (x.put k c.2 c.1) rfl (Function.update_self _ _ _) rfl hb
      rw [put_put] at hrun
      exact ⟨⟨k, i, x.store⟩ :: es, .cons (.mk hstep) hrun, by rw [List.map_cons, hmap]; rfl⟩

/-- **Simulation.** If every step of a component is one run of its counterpart on what the
counterpart sees of the store, and is observed as this run is, then every run of the family is one
of the counterparts' family. `I` is what the steps keep of the store. -/
theorem Steps.simulates (view : S → T) {I : S → Prop} {Sim : κ → σ → τ → Prop}
    {obs : ι → List β} {obs' : ι' → List β}
    (hsim : ∀ k F s i F' s' t, I F → Sim k s t → R F s i F' s' →
      I F' ∧ ∃ is t', Steps (Owning Q) (view F, t) is (view F', t') ∧
        is.flatMap obs' = obs i ∧ Sim k s' t')
    {x y : Family κ σ S} {es : List (Occurrence κ ι S)} (h : Steps (Family.Step R) x es y)
    {z : Family κ τ T} (hstore : z.store = view x.store) (hinv : I x.store)
    (hparts : ∀ k, Sim k (x.part k) (z.part k)) :
    ∃ fs w, Steps (Family.Step Q) z fs w ∧
      fs.flatMap (Occurrence.seen obs') = es.flatMap (Occurrence.seen obs) ∧
      w.store = view y.store ∧ I y.store ∧ ∀ k, Sim k (y.part k) (w.part k) := by
  induction h generalizing z with
  | nil x => exact ⟨[], z, .nil z, rfl, hstore, hinv, hparts⟩
  | @cons x y w e es hstep _ ih =>
      obtain @⟨k, i, F, s, hR⟩ := hstep
      obtain ⟨hinv', is, t, hrun, hobs, ht⟩ := hsim k _ _ i F s _ hinv (hparts k) hR
      obtain ⟨fs, hfs, hevents⟩ := hrun.embed z k hstore rfl
      obtain ⟨fs', w, hfs', hobs', hw⟩ := ih (z := z.put k t (view F)) rfl hinv' (by
        intro k'
        rcases eq_or_ne k' k with rfl | hne
        · rwa [part_put, part_put, Function.update_self, Function.update_self]
        · rw [part_put, part_put, Function.update_of_ne hne, Function.update_of_ne hne]
          exact hparts k')
      have hseen : fs.flatMap (Occurrence.seen obs') = (obs i).map fun b => (k, b) := by
        have hpairs := congrArg
          (List.flatMap fun p : κ × ι' => (obs' p.2).map fun b => (p.1, b)) hevents
        rw [List.flatMap_map, List.flatMap_map] at hpairs
        rw [← hobs, List.map_flatMap]
        exact hpairs
      refine ⟨fs ++ fs', w, hfs.append hfs', ?_, hw⟩
      rw [List.flatMap_append, List.flatMap_cons, hseen, hobs']
      rfl

end Rules

end AsprNet
