import LabNetstack.Lib.Run
import Mathlib.Logic.Function.Basic

/-!
# An outer mutex and many inner ones

Threads that share data under an outer mutex, whose parts each have a mutex of their own. A thread
that locks the outer mutex sees what is there, and what it does next may depend on it: it walks over
the parts, locks them, may keep one when it unlocks the outer mutex, and may lock the outer mutex
again while it keeps that one.

A thread hangs that holds the outer mutex and is on its way to an inner one, whose owner will not
unlock it before it has locked the outer mutex. `hangs_iff` says which steps make a thread hang;
without them no two threads ever wait for each other.

## Main results

* `Hangs.step` — the outer mutex is never unlocked again
* `not_cyclicWait` — the steps that avoid a cyclic wait
-/

namespace Mutex

/-- What a thread does to the mutexes. `δ` is what it finds behind the outer one. -/
inductive Op (κ δ : Type)
  | lockOuter (walk : δ → List (Op κ δ))
  | unlockOuter
  | lock (m : κ)
  | unlock (m : κ)

/-- The owners of the mutexes, and what is left to do for each thread. -/
structure State (τ κ δ : Type) where
  outer : Option τ
  inner : κ → Option τ
  todo : τ → List (Op κ δ)

/-- A thread begins a call, or takes the next step of one. `data` is what it finds. -/
inductive Action (ι τ δ : Type)
  | call (c : ι)
  | next (t : τ) (data : δ)

variable {ι τ κ δ : Type} {m : κ} {t : τ}

/-- The thread locks the outer mutex before it unlocks `m`. -/
def Needs (m : κ) : List (Op κ δ) → Prop
  | [] => False
  | .lockOuter _ :: _ => True
  | .unlock m' :: rest => m' ≠ m ∧ Needs m rest
  | .unlockOuter :: rest | .lock _ :: rest => Needs m rest

/-- The thread locks `m` before it unlocks the outer mutex. -/
def Ahead (m : κ) : List (Op κ δ) → Prop
  | [] | .lockOuter _ :: _ | .unlockOuter :: _ => False
  | .lock m' :: rest => m' = m ∨ Ahead m rest
  | .unlock _ :: rest => Ahead m rest

/-- One thread holds `m` and waits for the outer mutex, another holds that and waits for `m`. -/
def CyclicWait (s : State τ κ δ) : Prop :=
  ∃ t t' m, s.inner m = some t ∧ (∃ walk rest, s.todo t = .lockOuter walk :: rest) ∧
    s.outer = some t' ∧ ∃ rest, s.todo t' = .lock m :: rest

/-- Two threads are on their way to wait for each other. -/
def Hangs (s : State τ κ δ) : Prop :=
  ∃ t t' m, t ≠ t' ∧ s.inner m = some t ∧ Needs m (s.todo t) ∧ s.outer = some t' ∧
    Ahead m (s.todo t')

/-- The discipline of a call, begun with or without the outer mutex: it locks the outer mutex only
without it, unlocks it only with it, and unlocks what it has locked without the outer mutex before
it locks that. -/
inductive Tidy : Bool → List (Op κ δ) → Prop
  | nil : Tidy false []
  | lockOuter {walk : δ → List (Op κ δ)} {rest : List (Op κ δ)}
      (h : ∀ data, Tidy true (walk data ++ rest)) : Tidy false (.lockOuter walk :: rest)
  | unlockOuter {rest : List (Op κ δ)} (h : Tidy false rest) : Tidy true (.unlockOuter :: rest)
  | lockWith {m : κ} {rest : List (Op κ δ)} (h : Tidy true rest) : Tidy true (.lock m :: rest)
  | lockWithout {m : κ} {rest : List (Op κ δ)} (h : Tidy false rest) (hm : ¬ Needs m rest) :
      Tidy false (.lock m :: rest)
  | unlock {m : κ} {rest : List (Op κ δ)} {inside : Bool} (h : Tidy inside rest) :
      Tidy inside (.unlock m :: rest)

theorem ahead_lock {m' : κ} {rest : List (Op κ δ)} (hne : m' ≠ m) :
    Ahead m (.lock m' :: rest) ↔ Ahead m rest := or_iff_right hne

/-- The mutexes that are locked before the outer one is unlocked. -/
def ahead : List (Op κ δ) → List κ
  | [] | .lockOuter _ :: _ | .unlockOuter :: _ => []
  | .lock m :: rest => m :: ahead rest
  | .unlock _ :: rest => ahead rest

theorem mem_ahead {ops : List (Op κ δ)} : m ∈ ahead ops ↔ Ahead m ops := by
  induction ops with
  | nil => exact iff_of_false List.not_mem_nil id
  | cons op ops ih =>
    cases op with
    | lockOuter | unlockOuter => exact iff_of_false List.not_mem_nil id
    | lock m' => exact List.mem_cons.trans (or_congr eq_comm ih)
    | unlock => exact ih

variable {s s' : State τ κ δ}

theorem Tidy.lock_inv {inside : Bool} {rest : List (Op κ δ)} (h : Tidy inside (.lock m :: rest)) :
    Tidy inside rest := by
  cases h with
  | lockWith h => exact h
  | lockWithout h => exact h

theorem Tidy.unlock_inv {inside : Bool} {rest : List (Op κ δ)}
    (h : Tidy inside (.unlock m :: rest)) :
    Tidy inside rest := by
  cases h with
  | unlock h => exact h

theorem CyclicWait.hangs (h : CyclicWait s) : Hangs s := by
  obtain ⟨t, t', m, hinner, ⟨walk, rest, htodo⟩, houter, rest', htodo'⟩ := h
  refine ⟨t, t', m, ?_, hinner, ?_, houter, ?_⟩
  · rintro rfl
    rw [htodo] at htodo'
    cases htodo'
  · rw [htodo]
    trivial
  · rw [htodo']
    exact Or.inl rfl

variable [DecidableEq τ]

/-- All threads are disciplined. -/
def AllTidy (s : State τ κ δ) : Prop := ∀ t, Tidy (decide (s.outer = some t)) (s.todo t)

theorem AllTidy.update (h : AllTidy s) {ops : List (Op κ δ)}
    (hops : Tidy (decide (s.outer = some t)) ops) (t' : τ) :
    Tidy (decide (s.outer = some t')) (Function.update s.todo t ops t') := by
  by_cases heq : t' = t
  · subst heq
    rw [Function.update_self]
    exact hops
  · rw [Function.update_of_ne heq]
    exact h t'

/-- Who has nothing to do does not hold the outer mutex. -/
theorem AllTidy.outer_ne (h : AllTidy s) (hnil : s.todo t = []) : s.outer ≠ some t := by
  intro howner
  have htidy : Tidy true ([] : List (Op κ δ)) := by
    have htidy := h t
    rwa [hnil, decide_eq_true howner] at htidy
  cases htidy

/-- A step of another thread, or one that keeps what `p` says of the rest. -/
theorem update_cases {p : List (Op κ δ) → Prop} {ops : List (Op κ δ)} {u : τ}
    (h : p (s.todo t)) (hops : u = t → p ops) : p (Function.update s.todo u ops t) := by
  by_cases heq : t = u
  · subst heq
    rw [Function.update_self]
    exact hops rfl
  · rw [Function.update_of_ne heq]
    exact h

/-- The other way round. -/
theorem of_update_cases {p : List (Op κ δ) → Prop} {ops : List (Op κ δ)} {u : τ}
    (h : p (Function.update s.todo u ops t)) (hops : p ops → p (s.todo u)) : p (s.todo t) := by
  by_cases heq : t = u
  · subst heq
    rw [Function.update_self] at h
    exact hops h
  · rwa [Function.update_of_ne heq] at h

/-! ### Steps -/

variable [DecidableEq κ] (thread : ι → τ) (prog : ι → List (Op κ δ))

/-- `none` for a thread that waits, has nothing to do, is not done with its last call, or unlocks
what it does not hold. -/
def step : Action ι τ δ → State τ κ δ → Option (State τ κ δ)
  | .call c, s =>
    match s.todo (thread c) with
    | [] => some { s with todo := Function.update s.todo (thread c) (prog c) }
    | _ => none
  | .next t data, s =>
    match s.todo t with
    | [] => none
    | .lockOuter walk :: rest =>
      if s.outer = none then
        some { s with outer := some t, todo := Function.update s.todo t (walk data ++ rest) }
      else none
    | .unlockOuter :: rest =>
      if s.outer = some t then
        some { s with outer := none, todo := Function.update s.todo t rest }
      else none
    | .lock m :: rest =>
      if s.inner m = none then
        some { s with
          inner := Function.update s.inner m (some t)
          todo := Function.update s.todo t rest }
      else none
    | .unlock m :: rest =>
      if s.inner m = some t then
        some { s with
          inner := Function.update s.inner m none
          todo := Function.update s.todo t rest }
      else none

/-- Nobody holds anything, or has anything to do. -/
def start : State τ κ δ := ⟨none, fun _ => none, fun _ => []⟩

/-- The condition on a step. A call does not begin in a thread that has kept a mutex which the owner
of the outer one is on its way to; the outer mutex is not locked for a walk to a mutex whose owner
will lock the outer one before it unlocks that. -/
def Clear : Action ι τ δ → State τ κ δ → Prop
  | .call c, s => ∀ m, s.inner m = some (thread c) → Needs m (prog c) →
    ∀ t ∈ s.outer, t ≠ thread c → ¬ Ahead m (s.todo t)
  | .next t data, s => ∀ walk rest, s.todo t = .lockOuter walk :: rest →
    ∀ t' m, t' ≠ t → s.inner m = some t' → Needs m (s.todo t') → ¬ Ahead m (walk data ++ rest)

/-! ### Looking whether a step is clear -/

instance decidableNeeds (m : κ) : ∀ ops : List (Op κ δ), Decidable (Needs m ops)
  | [] => .isFalse id
  | .lockOuter _ :: _ => .isTrue trivial
  | .unlock m' :: rest =>
    have := decidableNeeds m rest
    inferInstanceAs (Decidable (m' ≠ m ∧ Needs m rest))
  | .unlockOuter :: rest | .lock _ :: rest => decidableNeeds m rest

instance decidableClear : ∀ act (s : State τ κ δ), Decidable (Clear thread prog act s)
  | .call c, s =>
    decidable_of_iff (∀ t ∈ s.outer, t ≠ thread c → ∀ m ∈ ahead (s.todo t),
        s.inner m = some (thread c) → ¬ Needs m (prog c))
      ⟨fun h m hinner hneeds t ht hne hahead =>
          h t ht hne m (mem_ahead.mpr hahead) hinner hneeds,
        fun h t ht hne m hahead hinner hneeds =>
          h m hinner hneeds t ht hne (mem_ahead.mp hahead)⟩
  | .next t data, s =>
    match htodo : s.todo t with
    | .lockOuter walk :: rest =>
      decidable_of_iff (∀ m ∈ ahead (walk data ++ rest), ∀ t' ∈ s.inner m, t' ≠ t →
          ¬ Needs m (s.todo t'))
        ⟨fun h walk' rest' heq t' m hne hinner hneeds hahead => by
            obtain ⟨hop, rfl⟩ := List.cons.inj (htodo.symm.trans heq)
            obtain rfl := Op.lockOuter.inj hop
            exact h m (mem_ahead.mpr hahead) t' hinner hne hneeds,
          fun h m hahead t' hinner hne hneeds =>
            h walk rest htodo t' m hne hinner hneeds (mem_ahead.mp hahead)⟩
    | [] | .unlockOuter :: _ | .lock _ :: _ | .unlock _ :: _ =>
      .isTrue fun _ _ heq => by cases htodo.symm.trans heq

/-- What a step does. -/
inductive Moves (thread : ι → τ) (prog : ι → List (Op κ δ)) (s : State τ κ δ) :
    Action ι τ δ → State τ κ δ → Prop
  | call (c : ι) (h : s.todo (thread c) = []) : Moves thread prog s (.call c)
      { s with todo := Function.update s.todo (thread c) (prog c) }
  | lockOuter (t : τ) (data : δ) (walk : δ → List (Op κ δ)) (rest : List (Op κ δ))
      (h : s.todo t = .lockOuter walk :: rest) (hfree : s.outer = none) :
      Moves thread prog s (.next t data)
        { s with outer := some t, todo := Function.update s.todo t (walk data ++ rest) }
  | unlockOuter (t : τ) (data : δ) (rest : List (Op κ δ)) (h : s.todo t = .unlockOuter :: rest)
      (howner : s.outer = some t) :
      Moves thread prog s (.next t data)
        { s with outer := none, todo := Function.update s.todo t rest }
  | lock (t : τ) (data : δ) (m : κ) (rest : List (Op κ δ)) (h : s.todo t = .lock m :: rest)
      (hfree : s.inner m = none) : Moves thread prog s (.next t data) { s with
        inner := Function.update s.inner m (some t)
        todo := Function.update s.todo t rest }
  | unlock (t : τ) (data : δ) (m : κ) (rest : List (Op κ δ)) (h : s.todo t = .unlock m :: rest)
      (howner : s.inner m = some t) : Moves thread prog s (.next t data) { s with
        inner := Function.update s.inner m none
        todo := Function.update s.todo t rest }

variable {thread prog} {act : Action ι τ δ}

theorem moves_of_step (hs : step thread prog act s = some s') : Moves thread prog s act s' := by
  cases act with
  | call c =>
    simp only [step] at hs
    split at hs
    next h => exact Option.some.inj hs ▸ .call c h
    next => cases hs
  | next t data =>
    simp only [step] at hs
    split at hs
    next => cases hs
    next walk rest h =>
      split_ifs at hs with hfree
      exact Option.some.inj hs ▸ .lockOuter t data walk rest h hfree
    next rest h =>
      split_ifs at hs with howner
      exact Option.some.inj hs ▸ .unlockOuter t data rest h howner
    next m rest h =>
      split_ifs at hs with hfree
      exact Option.some.inj hs ▸ .lock t data m rest h hfree
    next m rest h =>
      split_ifs at hs with howner
      exact Option.some.inj hs ▸ .unlock t data m rest h howner

theorem AllTidy.step (hprog : ∀ c, Tidy false (prog c)) (h : AllTidy s)
    (hs : step thread prog act s = some s') : AllTidy s' := by
  cases moves_of_step hs with
  | call c hnil =>
    refine h.update ?_
    rw [decide_eq_false (h.outer_ne hnil)]
    exact hprog c
  | lockOuter t data walk rest htodo hfree =>
    have htidy := h t
    rw [htodo, hfree] at htidy
    intro t'
    by_cases heq : t' = t
    · subst heq
      simp only [Function.update_self, decide_true]
      cases htidy with
      | lockOuter hwalk => exact hwalk data
    · have hother := h t'
      rw [hfree] at hother
      simpa [Function.update_of_ne heq, Ne.symm heq] using hother
  | unlockOuter t data rest htodo howner =>
    have htidy := h t
    rw [htodo, decide_eq_true howner] at htidy
    intro t'
    by_cases heq : t' = t
    · subst heq
      simp only [Function.update_self, reduceCtorEq, decide_false]
      cases htidy with
      | unlockOuter hrest => exact hrest
    · have hother := h t'
      rw [howner] at hother
      simpa [Function.update_of_ne heq, Ne.symm heq] using hother
  | lock t data m rest htodo hfree =>
    refine h.update ?_
    have htidy := h t
    rw [htodo] at htidy
    exact htidy.lock_inv
  | unlock t data m rest htodo howner =>
    refine h.update ?_
    have htidy := h t
    rw [htodo] at htidy
    exact htidy.unlock_inv

/-! ### Threads that hang -/

/-- **Threads that hang stay so.** The outer mutex is never unlocked again. -/
theorem Hangs.step (h : Hangs s) (hs : step thread prog act s = some s') : Hangs s' := by
  obtain ⟨t, t', m, hne, hinner, hneeds, houter, hahead⟩ := h
  cases moves_of_step hs with
  | call c hnil =>
    refine ⟨t, t', m, hne, hinner, update_cases hneeds fun heq => ?_, houter,
      update_cases hahead fun heq => ?_⟩
    · rw [← heq, hnil] at hneeds
      exact hneeds.elim
    · rw [← heq, hnil] at hahead
      exact hahead.elim
  | lockOuter u data walk rest htodo hfree =>
    rw [hfree] at houter
    cases houter
  | unlockOuter u data rest htodo howner =>
    obtain rfl := Option.some.inj (howner.symm.trans houter)
    rw [htodo] at hahead
    exact hahead.elim
  | lock u data m' rest htodo hfree =>
    have hm : m' ≠ m := by
      rintro rfl
      rw [hfree] at hinner
      cases hinner
    refine ⟨t, t', m, hne, ?_, update_cases hneeds fun heq => ?_, houter,
      update_cases hahead fun heq => ?_⟩
    · exact (Function.update_of_ne hm.symm ..).trans hinner
    · rw [← heq, htodo] at hneeds
      exact hneeds
    · rw [← heq, htodo] at hahead
      exact (ahead_lock hm).mp hahead
  | unlock u data m' rest htodo howner =>
    have hm : m' ≠ m := by
      rintro rfl
      obtain rfl := Option.some.inj (howner.symm.trans hinner)
      rw [htodo] at hneeds
      exact hneeds.1 rfl
    refine ⟨t, t', m, hne, ?_, update_cases hneeds fun heq => ?_, houter,
      update_cases hahead fun heq => ?_⟩
    · exact (Function.update_of_ne hm.symm ..).trans hinner
    · rw [← heq, htodo] at hneeds
      exact hneeds.2
    · rw [← heq, htodo] at hahead
      exact hahead

/-- **A step that is clear makes no thread hang.** -/
theorem not_hangs_step (htidy : AllTidy s) (h : ¬ Hangs s)
    (hs : step thread prog act s = some s') (hc : Clear thread prog act s) : ¬ Hangs s' := by
  rintro ⟨t, t', m, hne, hinner, hneeds, houter, hahead⟩
  cases moves_of_step hs with
  | call c hnil =>
    by_cases heq' : t' = thread c
    · exact htidy.outer_ne hnil (heq' ▸ houter)
    · simp only [Function.update_of_ne heq'] at hahead
      by_cases heq : t = thread c
      · subst heq
        simp only [Function.update_self] at hneeds
        exact hc m hinner hneeds t' houter heq' hahead
      · simp only [Function.update_of_ne heq] at hneeds
        exact h ⟨t, t', m, hne, hinner, hneeds, houter, hahead⟩
  | lockOuter u data walk rest htodo hfree =>
    obtain rfl := Option.some.inj houter
    simp only [Function.update_self] at hahead
    simp only [Function.update_of_ne hne] at hneeds
    exact hc walk rest htodo t m hne hinner hneeds hahead
  | unlockOuter => cases houter
  | lock u data m' rest htodo hfree =>
    by_cases hm : m' = m
    · -- what has been locked without the outer mutex is unlocked before that is locked
      subst hm
      simp only [Function.update_self, Option.some.injEq] at hinner
      subst hinner
      simp only [Function.update_self] at hneeds
      have hu := htidy u
      rw [htodo, decide_eq_false (by rw [houter]; simpa using hne.symm)] at hu
      cases hu with
      | lockWithout _ hnot => exact hnot hneeds
    · have hinner' : s.inner m = some t := (Function.update_of_ne (Ne.symm hm) ..).symm.trans hinner
      refine h ⟨t, t', m, hne, hinner', of_update_cases hneeds fun hneeds => ?_, houter,
        of_update_cases hahead fun hahead => ?_⟩
      · rw [htodo]
        exact hneeds
      · rw [htodo]
        exact Or.inr hahead
  | unlock u data m' rest htodo howner =>
    have hm : m ≠ m' := by
      rintro rfl
      simp only [Function.update_self, reduceCtorEq] at hinner
    have hinner' : s.inner m = some t := (Function.update_of_ne hm ..).symm.trans hinner
    refine h ⟨t, t', m, hne, hinner', of_update_cases hneeds fun hneeds => ?_, houter,
      of_update_cases hahead fun hahead => ?_⟩
    · rw [htodo]
      exact ⟨hm.symm, hneeds⟩
    · rw [htodo]
      exact hahead

/-- A step that is not clear makes two threads hang. -/
theorem clear_of_not_hangs (hs : step thread prog act s = some s') (h : ¬ Hangs s') :
    Clear thread prog act s := by
  cases moves_of_step hs with
  | call c hnil =>
    intro m hinner hneeds t houter hne hahead
    refine h ⟨thread c, t, m, hne.symm, hinner, ?_, houter, ?_⟩
    · simpa only [Function.update_self] using hneeds
    · simpa only [Function.update_of_ne hne] using hahead
  | lockOuter t data walk rest htodo hfree =>
    intro walk' rest' htodo' t' m hne hinner hneeds hahead
    rw [htodo'] at htodo
    obtain ⟨hop, rfl⟩ := List.cons.inj htodo
    obtain rfl := Op.lockOuter.inj hop
    refine h ⟨t', t, m, hne, hinner, ?_, rfl, ?_⟩
    · simpa only [Function.update_of_ne hne] using hneeds
    · simpa only [Function.update_self] using hahead
  | unlockOuter t data rest htodo | lock t data m rest htodo | unlock t data m rest htodo =>
    intro walk' rest' htodo'
    rw [htodo'] at htodo
    cases htodo

/-- **Which steps make threads hang.** -/
theorem hangs_iff (hprog : ∀ c, Tidy false (prog c)) {acts : List (Action ι τ δ)}
    (hrun : Run.run (step thread prog) acts start = some s) :
    (∀ before after u, acts = before ++ after → Run.run (step thread prog) before start = some u →
      ¬ Hangs u) ↔ Run.Meets (step thread prog) (Clear thread prog) acts start := by
  have hstart : AllTidy (start : State τ κ δ) ∧ ¬ Hangs (start : State τ κ δ) := by
    refine ⟨fun _ => .nil, ?_⟩
    rintro ⟨t, t', m, -, hinner, -⟩
    cases hinner
  exact (Run.meets_iff (a := fun _ _ => True) (p := fun u : State τ κ δ => AllTidy u ∧ ¬ Hangs u)
    (fun _ h => h.2) (fun _ _ _ _ h hs hc => ⟨h.1.step hprog hs, not_hangs_step h.1 h.2 hs hc⟩)
    (fun _ _ _ _ _ hs hq => clear_of_not_hangs hs hq) (Run.meets_of_forall fun _ _ => trivial)
    hstart hrun).symm

/-- **No cyclic wait.** -/
theorem not_cyclicWait (hprog : ∀ c, Tidy false (prog c)) {acts : List (Action ι τ δ)}
    (hclear : Run.Meets (step thread prog) (Clear thread prog) acts start)
    (hrun : Run.run (step thread prog) acts start = some s) : ¬ CyclicWait s := fun hwait =>
  (hangs_iff hprog hrun).mpr hclear acts [] s (List.append_nil acts).symm hrun hwait.hangs

end Mutex
