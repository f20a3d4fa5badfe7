import Mathlib.Data.Option.Basic
import Mathlib.Data.List.Basic

/-!
# Runs of a partial step function

A system given by `step : ι → σ → Option σ`: an action is either impossible in a state, or leads
to one state. A run is a list of actions performed in turn, and what every step preserves every
run preserves.

`Meets` restricts a run by a condition on the state each action is performed in, which `meets_iff`
compares with what the states show; `run_rel` is
the refinement rule: two systems that answer every action in related states by related states, or
both not at all, do so for whole runs. `Leads` asks what some run of certain actions can reach, and
`Leads.simulate` carries the answer from one system to another.
-/

namespace Run

variable {ι σ τ : Type*}

/-- Perform the actions in turn. -/
def run (step : ι → σ → Option σ) : List ι → σ → Option σ
  | [], s => some s
  | i :: is, s => (step i s).bind (run step is)

variable {step : ι → σ → Option σ} {s s' : σ}

@[simp] theorem run_nil (s : σ) : run step [] s = some s := rfl

theorem run_cons (i : ι) (is : List ι) (s : σ) :
    run step (i :: is) s = (step i s).bind (run step is) := rfl

theorem run_cons_some {i : ι} {t : σ} (h : step i s = some t) (is : List ι) :
    run step (i :: is) s = run step is t := by
  rw [run_cons, h, Option.bind_some]

theorem run_append (is js : List ι) (s : σ) :
    run step (is ++ js) s = (run step is s).bind (run step js) := by
  induction is generalizing s with
  | nil => rfl
  | cons i is ih =>
    rw [List.cons_append, run_cons, run_cons]
    cases step i s with
    | none => rfl
    | some t => exact ih t

theorem run_trans {is js : List ι} {s₁ s₂ s₃ : σ} (h₁ : run step is s₁ = some s₂)
    (h₂ : run step js s₂ = some s₃) : run step (is ++ js) s₁ = some s₃ := by
  rw [run_append, h₁, Option.bind_some, h₂]

/-- The states of a run, numbered: so many actions lead to each. -/
def Timeline (step : ι → σ → Option σ) (is : List ι) (s : σ) (state : ℕ → σ) : Prop :=
  ∀ t ≤ is.length, run step (is.take t) s = some (state t)

theorem Timeline.step_eq {is : List ι} {state : ℕ → σ} (h : Timeline step is s state) {t : ℕ}
    (ht : t < is.length) : step is[t] (state t) = some (state (t + 1)) := by
  have hnext := h (t + 1) ht
  rw [List.take_add_one, List.getElem?_eq_getElem ht, run_append, h t (Nat.le_of_lt ht),
    Option.bind_some, Option.toList_some, run_cons] at hnext
  obtain ⟨t', hstep, ht'⟩ := Option.bind_eq_some_iff.mp hnext
  exact hstep.trans ht'

/-- A run has a timeline. -/
theorem timeline_of_run {is : List ι} (h : run step is s = some s') :
    Timeline step is s fun t => (run step (is.take t) s).getD s := by
  intro t _
  rw [← List.take_append_drop t is, run_append] at h
  obtain ⟨t', ht', -⟩ := Option.bind_eq_some_iff.mp h
  simp only [ht', Option.getD_some]

/-- Every action of the run meets `c` in the state it is performed in. -/
def Meets (step : ι → σ → Option σ) (c : ι → σ → Prop) : List ι → σ → Prop
  | [], _ => True
  | i :: is, s => c i s ∧ ∀ t ∈ step i s, Meets step c is t

instance decidableMeets (c : ι → σ → Prop) [∀ i s, Decidable (c i s)] :
    ∀ is s, Decidable (Meets step c is s)
  | [], _ => .isTrue trivial
  | i :: is, s =>
    have := fun t => decidableMeets c is t
    inferInstanceAs (Decidable (c i s ∧ ∀ t ∈ step i s, Meets step c is t))

theorem meets_of_forall {a : ι → Prop} {is : List ι} (h : ∀ i ∈ is, a i) :
    Meets step (fun i _ => a i) is s := by
  induction is generalizing s with
  | nil => trivial
  | cons i is ih =>
    exact ⟨h i (List.mem_cons_self ..), fun t _ => ih fun j hj => h j (List.mem_cons_of_mem _ hj)⟩

theorem meets_append {c : ι → σ → Prop} {is js : List ι} (h : Meets step c (is ++ js) s)
    (hrun : run step is s = some s') : Meets step c is s ∧ Meets step c js s' := by
  induction is generalizing s with
  | nil =>
    obtain rfl := Option.some.inj hrun
    exact ⟨trivial, h⟩
  | cons i is ih =>
    obtain ⟨t, ht, hrun⟩ := Option.bind_eq_some_iff.mp hrun
    have hboth := ih (h.2 t ht) hrun
    refine ⟨⟨h.1, fun t' ht' => ?_⟩, hboth.2⟩
    obtain rfl := Option.some.inj (ht.symm.trans ht')
    exact hboth.1

/-- **The invariant rule**, for runs whose actions meet a condition. -/
theorem invariant_of_meets {c : ι → σ → Prop} {p : σ → Prop}
    (hstep : ∀ i t t', c i t → p t → step i t = some t' → p t') {is : List ι} (hp : p s)
    (hc : Meets step c is s) (hrun : run step is s = some s') : p s' := by
  induction is generalizing s with
  | nil => exact Option.some.inj hrun ▸ hp
  | cons i is ih =>
    obtain ⟨t, ht, hrun⟩ := Option.bind_eq_some_iff.mp hrun
    exact ih (hstep i s t hc.1 hp ht) (hc.2 t ht) hrun

/-- **The invariant rule.** -/
theorem invariant {p : σ → Prop} (hstep : ∀ i t t', p t → step i t = some t' → p t')
    {is : List ι} (hp : p s) (hrun : run step is s = some s') : p s' := by
  refine invariant_of_meets (c := fun _ _ => True) (fun i t t' _ => hstep i t t') hp ?_ hrun
  exact meets_of_forall fun _ _ => trivial

/-- **The invariant rule**, for what also speaks of the actions so far. -/
theorem invariant_history {p : List ι → σ → Prop}
    (hstep : ∀ is i t t', p is t → step i t = some t' → p (is ++ [i]) t') {is : List ι}
    (hp : p [] s) (hrun : run step is s = some s') : p is s' := by
  have hrest : ∀ (js before : List ι) (t : σ), p before t → run step js t = some s' →
      p (before ++ js) s' := by
    intro js
    induction js with
    | nil =>
      intro before t ht hrun
      rw [List.append_nil]
      exact Option.some.inj hrun ▸ ht
    | cons j js ih =>
      intro before t ht hrun
      obtain ⟨u, hu, hrun⟩ := Option.bind_eq_some_iff.mp hrun
      have hnext := ih (before ++ [j]) u (hstep before j t u ht hu) hrun
      rwa [List.append_assoc, List.singleton_append] at hnext
  exact hrest is [] s hp hrun

/-- **The exact condition**, for runs whose actions meet `a`. When a step from a state that meets
`p` leads to one that shows `q` exactly if it meets `c`, the condition holds all along a run exactly
if `q` does. -/
theorem meets_iff {a c : ι → σ → Prop} {p q : σ → Prop} (hshow : ∀ t, p t → q t)
    (hkeep : ∀ i t t', a i t → p t → step i t = some t' → c i t → p t')
    (hneed : ∀ i t t', a i t → p t → step i t = some t' → q t' → c i t) {is : List ι}
    (ha : Meets step a is s) (hp : p s) (hrun : run step is s = some s') :
    Meets step c is s ↔
      ∀ before after t, is = before ++ after → run step before s = some t → q t := by
  induction is generalizing s with
  | nil =>
    refine iff_of_true trivial fun before after t hnil ht => ?_
    obtain ⟨rfl, -⟩ := List.append_eq_nil_iff.mp hnil.symm
    exact Option.some.inj ht ▸ hshow s hp
  | cons i is ih =>
    obtain ⟨t, ht, hrun⟩ := Option.bind_eq_some_iff.mp hrun
    have hi : a i s := ha.1
    have ih := fun hc => ih (ha.2 t ht) (hkeep i s t hi hp ht hc) hrun
    constructor
    · rintro ⟨hc, hrest⟩ before after u his hu
      cases before with
      | nil => exact Option.some.inj hu ▸ hshow s hp
      | cons j before =>
        obtain ⟨rfl, htail⟩ := List.cons.inj his
        rw [run_cons_some ht] at hu
        exact (ih hc).mp (hrest t ht) before after u htail hu
    · intro hq
      have hc : c i s := hneed i s t hi hp ht (hq [i] is t rfl (run_cons_some ht []))
      refine ⟨hc, fun t' ht' => ?_⟩
      obtain rfl := Option.some.inj (ht.symm.trans ht')
      refine (ih hc).mpr fun before after u his hu => ?_
      exact hq (i :: before) after u (by rw [his, List.cons_append]) ((run_cons_some ht _).trans hu)

/-! ### Refinement -/

variable {step' : ι → τ → Option τ} {r : σ → τ → Prop} {t t' : τ}

/-- **The refinement rule.** -/
theorem run_rel (hstep : ∀ i s t, r s t → Option.Rel r (step i s) (step' i t)) (is : List ι)
    (hr : r s t) : Option.Rel r (run step is s) (run step' is t) := by
  induction is generalizing s t with
  | nil => exact .some hr
  | cons i is ih =>
    rw [run_cons, run_cons]
    have hfirst := hstep i s t hr
    generalize step i s = o, step' i t = o' at hfirst
    cases hfirst with
    | none => exact .none
    | some hr' => exact ih hr'

/-- What one side of a relation reaches the other reaches too. -/
theorem rel_some_left {o : Option σ} {o' : Option τ} (h : Option.Rel r o o') (ho : o = some s) :
    ∃ t, o' = some t ∧ r s t := by
  subst ho
  cases h with
  | some hr => exact ⟨_, rfl, hr⟩

theorem rel_some_right {o : Option σ} {o' : Option τ} (h : Option.Rel r o o')
    (ho : o' = some t) : ∃ s, o = some s ∧ r s t := by
  subst ho
  cases h with
  | some hr => exact ⟨_, rfl, hr⟩

/-! ### What some actions can lead to -/

/-- Some run of actions that satisfy `p` leads from `s` to `s'`. -/
def Leads (step : ι → σ → Option σ) (p : ι → Prop) (s s' : σ) : Prop :=
  ∃ is, (∀ i ∈ is, p i) ∧ run step is s = some s'

namespace Leads

variable {p : ι → Prop} {s'' : σ}

theorem refl (s : σ) : Leads step p s s := ⟨[], by simp, rfl⟩

theorem trans (h : Leads step p s s') (h' : Leads step p s' s'') : Leads step p s s'' := by
  obtain ⟨is, his, hrun⟩ := h
  obtain ⟨js, hjs, hrun'⟩ := h'
  refine ⟨is ++ js, fun i hi => ?_, run_trans hrun hrun'⟩
  exact (List.mem_append.mp hi).elim (his i) (hjs i)

theorem single {i : ι} (hi : p i) (h : step i s = some s') : Leads step p s s' :=
  ⟨[i], by simpa using hi, by rw [run_cons_some h, run_nil]⟩

/-- What every allowed action preserves is preserved. -/
theorem invariant {q : σ → Prop} (hstep : ∀ i t t', p i → q t → step i t = some t' → q t')
    (h : Leads step p s s') (hs : q s) : q s' := by
  obtain ⟨is, his, hrun⟩ := h
  induction is generalizing s with
  | nil => exact Option.some.inj hrun ▸ hs
  | cons i is ih =>
    obtain ⟨t, ht, hrun⟩ := Option.bind_eq_some_iff.mp hrun
    exact ih (hstep i s t (his i (List.mem_cons_self ..)) hs ht)
      (fun j hj => his j (List.mem_cons_of_mem _ hj)) hrun

/-- **The simulation rule.** One action may be answered by several, or by none. -/
theorem simulate {κ : Type*} {step' : κ → τ → Option τ} {q : κ → Prop}
    (hstep : ∀ i t u t', p i → r t u → step i t = some t' → ∃ u', Leads step' q u u' ∧ r t' u')
    (h : Leads step p s s') {t : τ} (hr : r s t) : ∃ t', Leads step' q t t' ∧ r s' t' := by
  refine h.invariant (q := fun s => ∃ t', Leads step' q t t' ∧ r s t') ?_ ⟨t, .refl t, hr⟩
  rintro i s₁ s₂ hi ⟨t₁, hleads, hr₁⟩ hs
  obtain ⟨t₂, hnext, hr₂⟩ := hstep i s₁ t₁ s₂ hi hr₁ hs
  exact ⟨t₂, hleads.trans hnext, hr₂⟩

end Leads

end Run
