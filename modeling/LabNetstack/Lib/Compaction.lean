import Mathlib.Data.List.Basic

/-!
# Compacting an array in place

A loop that reads an array from front to back, and writes what it keeps to the front of the same
array. The write never gets ahead of the read, so what is still to be read is as it was: the loop
computes what a fold over the elements would, with the list of what is kept as its accumulator.

## Main results

* `Compacting.push`, `Compacting.replace`, `Compacting.skip` — what the body of such a loop may do
* `Compacting.loop` — the loop is a fold
-/

namespace Compaction

variable {α : Type*}

/-- `xs[k] = x`, with no result outside of the array. -/
def write? (xs : List α) (k : ℕ) (x : α) : Option (List α) :=
  if k < xs.length then some (xs.set k x) else none

theorem write?_of_lt {xs : List α} {k : ℕ} (h : k < xs.length) (x : α) :
    write? xs k x = some (xs.set k x) := if_pos h

/-- In the middle of the loop: `kept` at the front, `rest` to be read from `i` on, and between them
what was left behind. -/
def Compacting (xs kept rest : List α) (i : ℕ) : Prop :=
  ∃ behind, xs = kept ++ behind ++ rest ∧ kept.length + behind.length = i

namespace Compacting

variable {xs kept rest : List α} {x : α} {i : ℕ}

theorem start (xs kept rest : List α) (h : xs = kept ++ rest) :
    Compacting xs kept rest kept.length :=
  ⟨[], by rw [List.append_nil, h], rfl⟩

theorem getElem? (h : Compacting xs kept (x :: rest) i) : xs[i]? = some x := by
  obtain ⟨behind, rfl, rfl⟩ := h
  rw [← List.length_append, List.getElem?_append_right (Nat.le_refl _), Nat.sub_self,
    List.getElem?_cons_zero]

theorem getElem?_kept (h : Compacting xs (kept ++ [x]) rest i) : xs[kept.length]? = some x := by
  obtain ⟨behind, rfl, -⟩ := h
  rw [List.append_assoc, List.append_assoc, List.getElem?_append_right (Nat.le_refl _),
    Nat.sub_self]
  rfl

theorem take (h : Compacting xs kept rest i) : xs.take kept.length = kept := by
  obtain ⟨behind, rfl, -⟩ := h
  rw [List.append_assoc, List.take_left]

/-- The element is left behind. -/
theorem skip (h : Compacting xs kept (x :: rest) i) : Compacting xs kept rest (i + 1) := by
  obtain ⟨behind, rfl, rfl⟩ := h
  refine ⟨behind ++ [x], ?_, ?_⟩
  · simp only [List.append_assoc, List.cons_append, List.nil_append]
  · rw [List.length_append, List.length_singleton]
    omega

/-- The element is written behind what is kept, if need be over itself. -/
theorem push (h : Compacting xs kept (x :: rest) i) :
    ∃ xs', write? xs kept.length x = some xs' ∧ Compacting xs' (kept ++ [x]) rest (i + 1) := by
  obtain ⟨behind, rfl, rfl⟩ := h
  refine ⟨_, write?_of_lt (by simp only [List.length_append, List.length_cons]; omega) x, ?_⟩
  rw [List.append_assoc, List.set_append_right _ _ (Nat.le_refl _), Nat.sub_self]
  cases behind with
  | nil =>
    refine ⟨[], ?_, ?_⟩
    · simp only [List.nil_append, List.set_cons_zero, List.append_assoc, List.cons_append]
    · rw [List.length_append]
      rfl
  | cons y behind =>
    refine ⟨behind ++ [x], ?_, ?_⟩
    · simp only [List.cons_append, List.set_cons_zero, List.append_assoc, List.nil_append]
    · simp only [List.length_append, List.length_cons, List.length_nil]
      omega

/-- The element takes the place of the last that was kept. -/
theorem replace {last : α} (h : Compacting xs (kept ++ [last]) (x :: rest) i) :
    ∃ xs', write? xs kept.length x = some xs' ∧ Compacting xs' (kept ++ [x]) rest (i + 1) := by
  obtain ⟨behind, rfl, rfl⟩ := h
  refine ⟨_, write?_of_lt (by simp only [List.length_append, List.length_cons]; omega) x, ?_⟩
  rw [List.append_assoc, List.append_assoc, List.set_append_right _ _ (Nat.le_refl _), Nat.sub_self]
  refine ⟨behind ++ [x], ?_, ?_⟩
  · simp only [List.cons_append, List.set_cons_zero, List.append_assoc, List.nil_append]
  · simp only [List.length_append, List.length_cons, List.length_nil]
    omega

/-- **The loop.** If the body does to the array what `f` does to what is kept, while `p` holds of
that, all of it is a fold. Behind `rest` there may be something that is not read. -/
theorem loop {body : List α × ℕ → ℕ → Option (List α × ℕ)} {f : List α → α → List α}
    {p : List α → Prop}
    (hbody : ∀ xs kept x rest i, p kept → Compacting xs kept (x :: rest) i →
      ∃ xs', body (xs, kept.length) i = some (xs', (f kept x).length) ∧
        Compacting xs' (f kept x) rest (i + 1) ∧ p (f kept x))
    {tail : List α} (hp : p kept) (h : Compacting xs kept (rest ++ tail) i) :
    ∃ xs', (List.range' i rest.length).foldlM body (xs, kept.length) =
        some (xs', (rest.foldl f kept).length) ∧
      Compacting xs' (rest.foldl f kept) tail (i + rest.length) ∧ p (rest.foldl f kept) := by
  induction rest generalizing xs kept i with
  | nil => exact ⟨xs, rfl, h, hp⟩
  | cons x rest ih =>
    obtain ⟨xs₁, hfirst, h₁, hp₁⟩ := hbody xs kept x (rest ++ tail) i hp h
    obtain ⟨xs₂, hrest, h₂, hp₂⟩ := ih hp₁ h₁
    refine ⟨xs₂, ?_, ?_, hp₂⟩
    · rw [List.length_cons, List.range'_succ, List.foldlM_cons, hfirst]
      exact hrest
    · rw [List.length_cons, ← Nat.succ_add_eq_add_succ]
      exact h₂

end Compacting

end Compaction
