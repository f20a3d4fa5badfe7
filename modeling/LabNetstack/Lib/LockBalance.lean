import LabNetstack.Lib.Mutex
import Mathlib.Order.BooleanAlgebra.Set

/-!
# What a call returns with

The way of one call through its locks, taken alone: `Returns` says which mutexes a thread holds when
the call is done that began it with some. A call is balanced if these are the same. Threads whose
calls all are hold nothing while they are in none, whatever the others do (`Settled.run`); and then
a call that finds every mutex free is done by itself (`Returns.finishes`).

## Main results

* `Settled.run` — threads that are in no call hold no mutex
* `Returns.finishes` — a call that has a way to its end can take it when nobody else holds a mutex
-/

namespace Mutex

variable {ι τ κ δ : Type} {m : κ} {t : τ} {ops rest : List (Op κ δ)} {walk : δ → List (Op κ δ)}
  {held held' : Set (Option κ)} {seen : List δ} {data : δ}

/-- The thread that has `ops` to do and holds `held` is done with `held'`, when it sees `seen` behind
the outer mutex, which is `none`. No mutex is locked by who holds it, or unlocked by who does not. -/
inductive Returns : List (Op κ δ) → Set (Option κ) → List δ → Set (Option κ) → Prop
  | nil {held : Set (Option κ)} : Returns [] held [] held
  | lockOuter {walk : δ → List (Op κ δ)} {rest : List (Op κ δ)} {held held' : Set (Option κ)}
      {data : δ} {seen : List δ} (hfree : none ∉ held)
      (h : Returns (walk data ++ rest) (insert none held) seen held') :
      Returns (.lockOuter walk :: rest) held (data :: seen) held'
  | unlockOuter {rest : List (Op κ δ)} {held held' : Set (Option κ)} {seen : List δ}
      (howner : none ∈ held) (h : Returns rest (held \ {none}) seen held') :
      Returns (.unlockOuter :: rest) held seen held'
  | lock {m : κ} {rest : List (Op κ δ)} {held held' : Set (Option κ)} {seen : List δ}
      (hfree : some m ∉ held) (h : Returns rest (insert (some m) held) seen held') :
      Returns (.lock m :: rest) held seen held'
  | unlock {m : κ} {rest : List (Op κ δ)} {held held' : Set (Option κ)} {seen : List δ}
      (howner : some m ∈ held) (h : Returns rest (held \ {some m}) seen held') :
      Returns (.unlock m :: rest) held seen held'

@[simp] theorem returns_nil : Returns ([] : List (Op κ δ)) held seen held' ↔
    seen = [] ∧ held' = held := by
  constructor
  · intro h
    cases h with
    | nil => exact ⟨rfl, rfl⟩
  · rintro ⟨rfl, rfl⟩
    exact .nil

@[simp] theorem returns_lockOuter : Returns (.lockOuter walk :: rest) held seen held' ↔
    none ∉ held ∧ ∃ data seen', seen = data :: seen' ∧
      Returns (walk data ++ rest) (insert none held) seen' held' := by
  constructor
  · intro h
    cases h with
    | lockOuter hfree h => exact ⟨hfree, _, _, rfl, h⟩
  · rintro ⟨hfree, data, seen', rfl, h⟩
    exact .lockOuter hfree h

@[simp] theorem returns_unlockOuter : Returns (.unlockOuter :: rest) held seen held' ↔
    none ∈ held ∧ Returns rest (held \ {none}) seen held' := by
  constructor
  · intro h
    cases h with
    | unlockOuter howner h => exact ⟨howner, h⟩
  · rintro ⟨howner, h⟩
    exact .unlockOuter howner h

@[simp] theorem returns_lock : Returns (.lock m :: rest) held seen held' ↔
    some m ∉ held ∧ Returns rest (insert (some m) held) seen held' := by
  constructor
  · intro h
    cases h with
    | lock hfree h => exact ⟨hfree, h⟩
  · rintro ⟨hfree, h⟩
    exact .lock hfree h

@[simp] theorem returns_unlock : Returns (.unlock m :: rest) held seen held' ↔
    some m ∈ held ∧ Returns rest (held \ {some m}) seen held' := by
  constructor
  · intro h
    cases h with
    | unlock howner h => exact ⟨howner, h⟩
  · rintro ⟨howner, h⟩
    exact .unlock howner h

/-- What is locked and unlocked at once. -/
theorem returns_lock_unlock : Returns (.lock m :: .unlock m :: rest) held seen held' ↔
    some m ∉ held ∧ Returns rest held seen held' := by
  rw [returns_lock, returns_unlock]
  refine and_congr_right fun hfree => ?_
  rw [Set.insert_sdiff_self_of_notMem hfree]
  exact and_iff_right (Set.mem_insert _ _)

/-- The outer mutex is unlocked by who has locked it. -/
theorem returns_unlockOuter_insert (hfree : none ∉ held) :
    Returns (.unlockOuter :: rest) (insert none held) seen held' ↔
      Returns rest held seen held' := by
  rw [returns_unlockOuter, Set.insert_sdiff_self_of_notMem hfree]
  exact and_iff_right (Set.mem_insert _ _)

/-- What a walk locks before it unlocks the outer mutex is kept. -/
theorem returns_lock_unlockOuter (hfree : none ∉ held) :
    Returns (.lock m :: .unlockOuter :: rest) (insert none held) seen held' ↔
      some m ∉ held ∧ Returns rest (insert (some m) held) seen held' := by
  rw [returns_lock, Set.insert_comm, returns_unlockOuter_insert]
  · simp
  · simpa using hfree

theorem returns_unlock_insert (hfree : some m ∉ held) :
    Returns (.unlock m :: rest) (insert (some m) held) seen held' ↔
      Returns rest held seen held' := by
  rw [returns_unlock, Set.insert_sdiff_self_of_notMem hfree]
  exact and_iff_right (Set.mem_insert _ _)

/-! ### All threads -/

variable {s s' : State τ κ δ}

/-- What a thread holds. -/
def Owned (s : State τ κ δ) (t : τ) : Set (Option κ) :=
  {lock | lock.elim (s.outer = some t) fun m => s.inner m = some t}

@[simp] theorem none_mem_owned : none ∈ Owned s t ↔ s.outer = some t := Iff.rfl

@[simp] theorem some_mem_owned : some m ∈ Owned s t ↔ s.inner m = some t := Iff.rfl

/-- Threads that are in no call hold no mutex. -/
def Settled (s : State τ κ δ) : Prop := ∀ t, s.todo t = [] → Owned s t = ∅

/-- When no thread is in a call, every mutex is free. -/
theorem Settled.free (h : Settled s) (hidle : ∀ t, s.todo t = []) :
    s.outer = none ∧ ∀ m, s.inner m = none := by
  constructor
  · rw [Option.eq_none_iff_forall_ne_some]
    intro t howner
    exact (h t (hidle t)).subset (show none ∈ Owned s t from howner)
  · intro m
    rw [Option.eq_none_iff_forall_ne_some]
    intro t howner
    exact (h t (hidle t)).subset (show some m ∈ Owned s t from howner)

variable {todo : τ → List (Op κ δ)}

theorem owned_lockOuter (t : τ) :
    Owned ⟨some t, s.inner, todo⟩ t = insert none (Owned s t) := by
  ext lock
  cases lock with
  | none => simp
  | some m => simp

theorem owned_unlockOuter (t : τ) : Owned ⟨none, s.inner, todo⟩ t = Owned s t \ {none} := by
  ext lock
  cases lock with
  | none => simp
  | some m => simp

/-- What another thread does. -/
theorem owned_other {outer : Option τ} {inner : κ → Option τ}
    (houter : outer = some t ↔ s.outer = some t)
    (hinner : ∀ m, inner m = some t ↔ s.inner m = some t) :
    Owned ⟨outer, inner, todo⟩ t = Owned s t := by
  ext lock
  cases lock with
  | none => exact houter
  | some m => exact hinner m

variable {leaks : List (Op κ δ) → δ → Prop}

/-- The condition on a step: the call does not see what makes it keep a mutex. -/
def Avoids (leaks : List (Op κ δ) → δ → Prop) : Action ι τ δ → State τ κ δ → Prop
  | .call _, _ => True
  | .next t data, s => ¬ leaks (s.todo t) data

/-- However a thread gets to the end of what it has to do, it holds nothing then. -/
def Settling (leaks : List (Op κ δ) → δ → Prop) (s : State τ κ δ) : Prop :=
  ∀ t seen held', Returns (s.todo t) (Owned s t) seen held' →
    (∀ data ∈ seen.head?, ¬ leaks (s.todo t) data) → held' = ∅

theorem Settling.settled (h : Settling leaks s) : Settled s := by
  intro t hnil
  refine h t [] (Owned s t) ?_ (by simp)
  rw [hnil]
  exact .nil

/-- **One step** of a thread, which is all that the others see of it. -/
theorem Settling.update [DecidableEq τ] (h : Settling leaks s) (t : τ) {outer : Option τ}
    {inner : κ → Option τ}
    (houter : ∀ t', t' ≠ t → (outer = some t' ↔ s.outer = some t'))
    (hinner : ∀ t', t' ≠ t → ∀ m, (inner m = some t' ↔ s.inner m = some t'))
    (hops : ∀ seen held', Returns ops (Owned ⟨outer, inner, Function.update s.todo t ops⟩ t) seen
      held' → (∀ data ∈ seen.head?, ¬ leaks ops data) → held' = ∅) :
    Settling leaks ⟨outer, inner, Function.update s.todo t ops⟩ := by
  intro t' seen held' hreturns havoid
  by_cases heq : t' = t
  · subst heq
    simp only [Function.update_self] at hreturns havoid
    exact hops seen held' hreturns havoid
  · simp only [Function.update_of_ne heq] at hreturns havoid
    rw [owned_other (houter t' heq) (hinner t' heq)] at hreturns
    exact h t' seen held' hreturns havoid

variable [DecidableEq κ]

theorem owned_lock (m : κ) :
    Owned ⟨s.outer, Function.update s.inner m (some t), todo⟩ t = insert (some m) (Owned s t) := by
  ext lock
  cases lock with
  | none => simp
  | some m' =>
    by_cases heq : m' = m
    · subst heq
      simp
    · simp [heq]

theorem owned_unlock (m : κ) :
    Owned ⟨s.outer, Function.update s.inner m none, todo⟩ t = Owned s t \ {some m} := by
  ext lock
  cases lock with
  | none => simp
  | some m' =>
    by_cases heq : m' = m
    · subst heq
      simp
    · simp [heq]

variable [DecidableEq τ] {thread : ι → τ} {prog : ι → List (Op κ δ)} {act : Action ι τ δ}

/-- **One step.** -/
theorem Settling.step
    (hleaks : ∀ ops data, leaks ops data → ∃ walk rest, ops = .lockOuter walk :: rest)
    (hprog : ∀ c seen held', Returns (prog c) ∅ seen held' →
      (∀ data ∈ seen.head?, ¬ leaks (prog c) data) → held' = ∅)
    (h : Settling leaks s) (hs : Mutex.step thread prog act s = some s')
    (hc : Avoids leaks act s) : Settling leaks s' := by
  have hinside : ∀ {ops data}, (∀ walk rest, ops ≠ .lockOuter walk :: rest) → ¬ leaks ops data := by
    intro ops data hne hleak
    obtain ⟨walk, rest, heq⟩ := hleaks ops data hleak
    exact hne walk rest heq
  cases moves_of_step hs with
  | call c hnil =>
    refine h.update (thread c) (fun _ _ => Iff.rfl) (fun _ _ _ => Iff.rfl) ?_
    rw [owned_other Iff.rfl fun _ => Iff.rfl, h.settled (thread c) hnil]
    exact hprog c
  | lockOuter t data walk rest htodo hfree =>
    refine h.update t (fun t' hne => ?_) (fun _ _ _ => Iff.rfl) fun seen held' hreturns _ => ?_
    · rw [hfree]
      simp [hne.symm]
    · rw [owned_lockOuter] at hreturns
      refine h t (data :: seen) held' ?_ fun data' hdata' => ?_
      · rw [htodo]
        exact .lockOuter (by simp [hfree]) hreturns
      · obtain rfl := Option.some.inj hdata'
        exact hc
  | unlockOuter t data rest htodo howner =>
    refine h.update t (fun t' hne => ?_) (fun _ _ _ => Iff.rfl) fun seen held' hreturns _ => ?_
    · rw [howner]
      simp [hne.symm]
    · rw [owned_unlockOuter] at hreturns
      refine h t seen held' ?_ fun data' _ => hinside (by simp [htodo])
      rw [htodo]
      exact .unlockOuter howner hreturns
  | lock t data m rest htodo hfree =>
    refine h.update t (fun _ _ => Iff.rfl) (fun t' hne m' => ?_) fun seen held' hreturns _ => ?_
    · by_cases heq : m' = m
      · subst heq
        simp [hfree, hne.symm]
      · rw [Function.update_of_ne heq]
    · rw [owned_lock] at hreturns
      refine h t seen held' ?_ fun data' _ => hinside (by simp [htodo])
      rw [htodo]
      exact .lock (by simp [hfree]) hreturns
  | unlock t data m rest htodo howner =>
    refine h.update t (fun _ _ => Iff.rfl) (fun t' hne m' => ?_) fun seen held' hreturns _ => ?_
    · by_cases heq : m' = m
      · subst heq
        simp [howner, hne.symm]
      · rw [Function.update_of_ne heq]
    · rw [owned_unlock] at hreturns
      refine h t seen held' ?_ fun data' _ => hinside (by simp [htodo])
      rw [htodo]
      exact .unlock howner hreturns

/-- **Threads that are in no call hold no mutex**, all along a run in which no call sees what makes
it keep one. -/
theorem Settled.run
    (hleaks : ∀ ops data, leaks ops data → ∃ walk rest, ops = .lockOuter walk :: rest)
    (hprog : ∀ c seen held', Returns (prog c) ∅ seen held' →
      (∀ data ∈ seen.head?, ¬ leaks (prog c) data) → held' = ∅)
    {acts : List (Action ι τ δ)} (hc : Run.Meets (step thread prog) (Avoids leaks) acts start)
    (hrun : Run.run (step thread prog) acts start = some s) : Settled s := by
  have hstart : Settling leaks (start : State τ κ δ) := by
    intro t seen held' hreturns _
    rw [(returns_nil.mp hreturns).2]
    ext lock
    cases lock with
    | none => simp [start]
    | some m => simp [start]
  exact (Run.invariant_of_meets (p := Settling leaks)
    (fun _ _ _ hc h hs => h.step hleaks hprog hs hc) hstart hc hrun).settled

/-! ### One thread alone -/

/-- No other thread holds a mutex. -/
structure Alone (s : State τ κ δ) (t : τ) : Prop where
  outer : ∀ t' ∈ s.outer, t' = t
  inner : ∀ m, ∀ t' ∈ s.inner m, t' = t

/-- The thread gets to the end of what it has to do, and holds `held'` then. Behind the outer mutex
it sees nothing but `seen`. -/
def Finishes (thread : ι → τ) (prog : ι → List (Op κ δ)) (t : τ) (seen : List δ)
    (held' : Set (Option κ)) (s : State τ κ δ) : Prop :=
  ∃ found : List δ, (∀ data ∈ found, data ∈ seen) ∧
    ∃ s', Run.run (step thread prog) (found.map (.next t)) s = some s' ∧ s'.todo t = [] ∧
      Owned s' t = held'

theorem Finishes.mono {seen' : List δ} (h : Finishes thread prog t seen held' s)
    (hsub : seen ⊆ seen') : Finishes thread prog t seen' held' s := by
  obtain ⟨found, hfound, hdone⟩ := h
  exact ⟨found, fun data hmem => hsub (hfound data hmem), hdone⟩

theorem Finishes.cons {seen' : List δ} (h : Finishes thread prog t seen' held' s') (data : δ)
    (hs : step thread prog (.next t data) s = some s') (hdata : data ∈ seen)
    (hsub : seen' ⊆ seen) : Finishes thread prog t seen held' s := by
  obtain ⟨found, hfound, s₁, hrun, hdone⟩ := h
  refine ⟨data :: found, ?_, s₁, ?_, hdone⟩
  · intro data' hmem
    rcases List.mem_cons.mp hmem with rfl | hmem
    · exact hdata
    · exact hsub (hfound data' hmem)
  · rw [List.map_cons, Run.run_cons_some hs, hrun]

/-- **A call that has a way to its end** can take it. -/
theorem Returns.finishes (h : Returns ops held seen held') (data₀ : δ) (halone : Alone s t)
    (htodo : s.todo t = ops) (howned : Owned s t = held) :
    Finishes thread prog t (data₀ :: seen) held' s := by
  induction h generalizing s with
  | nil => exact ⟨[], by simp, s, rfl, htodo, howned⟩
  | @lockOuter walk rest held held' data seen hfree h ih =>
    have houter : s.outer = none := by
      rw [Option.eq_none_iff_forall_ne_some]
      intro t' howner
      obtain rfl := halone.outer t' howner
      exact hfree (howned ▸ howner)
    have hrest : Finishes thread prog t (data₀ :: seen) held' { s with
        outer := some t, todo := Function.update s.todo t (walk data ++ rest) } := by
      refine ih ⟨by simp, halone.inner⟩ (Function.update_self ..) ?_
      rw [owned_lockOuter, howned]
    exact hrest.cons data (by simp only [step, htodo, houter, if_true]) (by simp)
      (by simp)
  | @unlockOuter rest held held' seen howner h ih =>
    have houter : s.outer = some t := by rwa [← howned] at howner
    have hrest : Finishes thread prog t (data₀ :: seen) held' { s with
        outer := none, todo := Function.update s.todo t rest } := by
      refine ih ⟨by simp, halone.inner⟩ (Function.update_self ..) ?_
      rw [owned_unlockOuter, howned]
    exact hrest.cons data₀ (by simp only [step, htodo, houter, if_true]) (by simp)
      (List.Subset.refl _)
  | @lock m rest held held' seen hfree h ih =>
    have hinner : s.inner m = none := by
      rw [Option.eq_none_iff_forall_ne_some]
      intro t' howner
      obtain rfl := halone.inner m t' howner
      exact hfree (howned ▸ howner)
    have hrest : Finishes thread prog t (data₀ :: seen) held' { s with
        inner := Function.update s.inner m (some t)
        todo := Function.update s.todo t rest } := by
      refine ih ⟨halone.outer, fun m' t' hmem => ?_⟩ (Function.update_self ..) ?_
      · by_cases heq : m' = m
        · subst heq
          simpa using hmem.symm
        · exact halone.inner m' t' (by simpa [heq] using hmem)
      · rw [owned_lock, howned]
    exact hrest.cons data₀ (by simp only [step, htodo, hinner, if_true]) (by simp)
      (List.Subset.refl _)
  | @unlock m rest held held' seen howner h ih =>
    have hinner : s.inner m = some t := by rwa [← howned] at howner
    have hrest : Finishes thread prog t (data₀ :: seen) held' { s with
        inner := Function.update s.inner m none
        todo := Function.update s.todo t rest } := by
      refine ih ⟨halone.outer, fun m' t' hmem => ?_⟩ (Function.update_self ..) ?_
      · by_cases heq : m' = m
        · subst heq
          simp at hmem
        · exact halone.inner m' t' (by simpa [heq] using hmem)
      · rw [owned_unlock, howned]
    exact hrest.cons data₀ (by simp only [step, htodo, hinner, if_true]) (by simp)
      (List.Subset.refl _)

end Mutex
