import Mathlib.Data.List.Nodup
import Mathlib.Logic.Function.Basic

/-!
# Linked lists in memory

Nodes at addresses, each with a pointer to the next. `Chain` says which nodes are passed on the way
from one pointer to another; a change of a node outside the chain leaves it alone, a change of what
a node carries leaves its shape, and a node can be hung behind the last.

A walk over a list has no bound of its own; `search` is given the number of steps it may take.

## Main results

* `search_eq` — a walk finds the first node that it looks for
* `Chain.update`, `Chain.push`, `Chain.unlink` — a node changes, is put behind the last, is taken out
-/

namespace LinkedList

variable {A ν : Type} {next : ν → Option A} {heap heap' : A → Option ν}
  {cells xs ys : List (A × ν)} {p q : Option A} {a b : A} {node node' : ν}

/-- From `p` one comes over these nodes to `q`. -/
def Chain (next : ν → Option A) (heap : A → Option ν) :
    Option A → List (A × ν) → Option A → Prop
  | p, [], q => p = q
  | p, (a, node) :: cells, q =>
    p = some a ∧ heap a = some node ∧ Chain next heap (next node) cells q

/-- The nodes that are passed. -/
theorem Chain.mem (h : Chain next heap p cells q) : ∀ c ∈ cells, heap c.1 = some c.2 := by
  induction cells generalizing p with
  | nil => simp
  | cons c cells ih =>
    obtain ⟨-, hmem, hrest⟩ := h
    exact List.forall_mem_cons.mpr ⟨hmem, ih hrest⟩

theorem chain_append : Chain next heap p (xs ++ ys) q ↔
    ∃ middle, Chain next heap p xs middle ∧ Chain next heap middle ys q := by
  induction xs generalizing p with
  | nil => exact ⟨fun h => ⟨p, rfl, h⟩, fun ⟨middle, heq, h⟩ => heq ▸ h⟩
  | cons c xs ih =>
    simp only [List.cons_append, Chain, ih]
    constructor
    · rintro ⟨hp, hmem, middle, hxs, hys⟩
      exact ⟨middle, ⟨hp, hmem, hxs⟩, hys⟩
    · rintro ⟨middle, ⟨hp, hmem, hxs⟩, hys⟩
      exact ⟨hp, hmem, middle, hxs, hys⟩

/-- What is not passed may change. -/
theorem Chain.congr (h : Chain next heap p cells q)
    (hsame : ∀ c ∈ cells, heap' c.1 = heap c.1) : Chain next heap' p cells q := by
  induction cells generalizing p with
  | nil => exact h
  | cons c cells ih =>
    obtain ⟨hp, hmem, hrest⟩ := h
    obtain ⟨hfirst, hsame⟩ := List.forall_mem_cons.mp hsame
    exact ⟨hp, hfirst.trans hmem, ih hrest hsame⟩

/-- A pointer in the chain is to a node that comes later, or out of it. -/
theorem Chain.next_mem (h : Chain next heap p cells q) :
    ∀ c ∈ cells, next c.2 = q ∨ ∃ c' ∈ cells.tail, next c.2 = some c'.1 := by
  induction cells generalizing p with
  | nil => simp
  | cons c cells ih =>
    obtain ⟨-, -, hrest⟩ := h
    intro c' hc'
    rcases List.mem_cons.mp hc' with rfl | hc'
    · cases cells with
      | nil => exact Or.inl hrest
      | cons d cells => exact Or.inr ⟨d, List.mem_cons_self .., hrest.1⟩
    · exact (ih hrest c' hc').imp id fun ⟨d, hd, hnext⟩ => ⟨d, List.mem_of_mem_tail hd, hnext⟩

theorem Chain.next_ne (h : Chain next heap p cells none) (hb : b ∉ cells.tail.map Prod.fst) :
    ∀ c ∈ cells, next c.2 ≠ some b := by
  intro c hc hsame
  rcases h.next_mem c hc with hnone | ⟨c', hc', hsome⟩
  · rw [hsame] at hnone
    cases hnone
  · rw [hsame] at hsome
    obtain rfl := Option.some.inj hsome
    exact hb (List.mem_map_of_mem hc')

/-! ### Walks -/

/-- The first node that is looked for, or the end; `none` after too many steps, and for a pointer to
nowhere. -/
def search (next : ν → Option A) (heap : A → Option ν) (found : ν → Bool) :
    ℕ → Option A → Option (Option A)
  | _, none => some none
  | 0, some _ => none
  | n + 1, some a =>
    match heap a with
    | none => none
    | some node => if found node then some (some a) else search next heap found n (next node)

/-- **A walk**, with steps enough. -/
theorem search_eq (h : Chain next heap p cells none) (found : ν → Bool) {n : ℕ}
    (hn : cells.length ≤ n) :
    search next heap found n p = some ((cells.find? fun c => found c.2).map Prod.fst) := by
  induction cells generalizing p n with
  | nil =>
    obtain rfl : p = none := h
    cases n with
    | zero => rfl
    | succ n => rfl
  | cons c cells ih =>
    obtain ⟨rfl, hmem, hrest⟩ := h
    cases n with
    | zero => exact absurd hn (Nat.not_succ_le_zero _)
    | succ n =>
      rw [search, hmem]
      simp only [List.find?_cons]
      cases hfound : found c.2 with
      | true => rfl
      | false =>
        simp only [Bool.false_eq_true, if_false]
        exact ih hrest (Nat.le_of_succ_le_succ hn)

/-! ### Changes -/

variable [DecidableEq A]

theorem Chain.frame (h : Chain next heap p cells q) (hb : b ∉ cells.map Prod.fst) :
    Chain next (Function.update heap b (some node)) p cells q := by
  refine h.congr fun c hc => Function.update_of_ne ?_ ..
  rintro rfl
  exact hb (List.mem_map_of_mem hc)

/-- **A node changes**, but not its pointer. -/
theorem Chain.update (h : Chain next heap p cells q) (hb : heap b = some node)
    (hnext : next node' = next node) : Chain next (Function.update heap b (some node')) p
      (cells.map fun c => if c.1 = b then (b, node') else c) q := by
  induction cells generalizing p with
  | nil => exact h
  | cons c cells ih =>
    obtain ⟨hp, hmem, hrest⟩ := h
    rw [List.map_cons]
    split_ifs with heq
    · have hnode : c.2 = node := by
        rw [heq, hb] at hmem
        exact (Option.some.inj hmem).symm
      refine ⟨heq ▸ hp, Function.update_self .., ?_⟩
      rw [hnext, ← hnode]
      exact ih hrest
    · exact ⟨hp, (Function.update_of_ne heq ..).trans hmem, ih hrest⟩

/-- **A node is hung behind the last.** -/
theorem Chain.push {last last' new : ν} (h : Chain next heap p (cells ++ [(a, last)]) none)
    (hnodup : ((cells ++ [(a, last)]).map Prod.fst).Nodup) (hfresh : heap b = none)
    (hlast : next last' = some b) (hnew : next new = none) :
    Chain next (Function.update (Function.update heap b (some new)) a (some last')) p
      (cells ++ [(a, last'), (b, new)]) none := by
  have hne : ∀ c ∈ cells ++ [(a, last)], b ≠ c.1 := by
    rintro c hc rfl
    rw [h.mem c hc] at hfresh
    cases hfresh
  have hb : b ∉ cells.map Prod.fst := by
    intro hin
    obtain ⟨c, hc, heq⟩ := List.mem_map.mp hin
    exact hne c (List.mem_append_left _ hc) heq.symm
  have hab : b ≠ a := hne (a, last) (by simp)
  have ha : a ∉ cells.map Prod.fst := by
    rw [List.map_append, List.nodup_append] at hnodup
    exact fun hin => hnodup.2.2 a hin a (by simp) rfl
  obtain ⟨middle, hcells, hp, -, -⟩ := chain_append.mp h
  refine chain_append.mpr ⟨middle, (hcells.frame hb).frame ha, hp, Function.update_self .., hlast,
    ?_, hnew⟩
  rw [Function.update_of_ne hab, Function.update_self]

/-- **A node is taken out**, and its memory given back. -/
theorem Chain.unlink {prev prev' freed : ν}
    (h : Chain next heap p (xs ++ (a, prev) :: (b, freed) :: ys) q)
    (hnodup : ((xs ++ (a, prev) :: (b, freed) :: ys).map Prod.fst).Nodup)
    (hprev : next prev' = next freed) :
    Chain next (Function.update (Function.update heap a (some prev')) b none) p
      (xs ++ (a, prev') :: ys) q := by
  obtain ⟨middle, hxs, hp, -, -, -, hys⟩ := chain_append.mp h
  rw [List.map_append, List.map_cons, List.map_cons, List.nodup_append] at hnodup
  obtain ⟨-, hpair, hapart⟩ := hnodup
  obtain ⟨ha, hb⟩ := List.nodup_cons.mp hpair
  obtain ⟨hb, -⟩ := List.nodup_cons.mp hb
  have hother : ∀ c : A × ν, c.1 ≠ a → c.1 ≠ b →
      Function.update (Function.update heap a (some prev')) b none c.1 = heap c.1 :=
    fun c hca hcb => by rw [Function.update_of_ne hcb, Function.update_of_ne hca]
  refine chain_append.mpr ⟨middle, hxs.congr fun c hc => ?_, hp, ?_, ?_⟩
  · have hc : c.1 ∈ xs.map Prod.fst := List.mem_map_of_mem hc
    exact hother c (hapart _ hc a (by simp)) (hapart _ hc b (by simp))
  · have hab : a ≠ b := fun heq => ha (heq ▸ List.mem_cons_self ..)
    rw [Function.update_of_ne hab, Function.update_self]
  · rw [hprev]
    refine hys.congr fun c hc => ?_
    have hc : c.1 ∈ ys.map Prod.fst := List.mem_map_of_mem hc
    exact hother c (fun heq => ha (List.mem_cons_of_mem _ (heq ▸ hc))) fun heq => hb (heq ▸ hc)

end LinkedList
