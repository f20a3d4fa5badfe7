import Mathlib.Data.Fintype.Pigeonhole
import Mathlib.Data.Nat.SuccPred
import Mathlib.Order.SuccPred.Relation

/-!
# Counted steps of a relation

`Steps r n a b` is a way of `n` steps from `a` to `b`. A way can be made as long as one likes if it
leads to a cycle, and in a finite type only then: one that is as long as there are elements passes
one of them twice.

## Main results

* `exists_steps_of_cycle`, `exists_cycle_of_steps` — long ways and cycles
-/

namespace CountedSteps

open Relation

variable {α : Type*} {r : α → α → Prop} {a b c : α} {m n : ℕ}

/-- From `a` to `b` in `n` steps. -/
def Steps (r : α → α → Prop) : ℕ → α → α → Prop
  | 0, a, b => a = b
  | n + 1, a, b => ∃ c, Steps r n a c ∧ r c b

/-- The way of the first `m` steps. -/
theorem Steps.of_le (h : Steps r n a b) (hle : m ≤ n) : ∃ c, Steps r m a c := by
  induction n generalizing b with
  | zero => exact ⟨b, (Nat.le_zero.mp hle) ▸ h⟩
  | succ n ih =>
    obtain rfl | hlt := Nat.eq_or_lt_of_le hle
    · exact ⟨b, h⟩
    · obtain ⟨c, hc, -⟩ := h
      exact ih hc (Nat.le_of_lt_succ hlt)

/-- The first step apart. -/
theorem Steps.head (hab : r a b) (h : Steps r n b c) : Steps r (n + 1) a c := by
  induction n generalizing c with
  | zero =>
    obtain rfl : b = c := h
    exact ⟨a, rfl, hab⟩
  | succ n ih =>
    obtain ⟨d, hd, hdc⟩ := h
    exact ⟨d, ih hd, hdc⟩

/-- The places that are passed. -/
theorem Steps.exists_places (h : Steps r n a b) :
    ∃ f : ℕ → α, f 0 = a ∧ f n = b ∧ ∀ i < n, r (f i) (f (i + 1)) := by
  induction n generalizing b with
  | zero => exact ⟨fun _ => a, rfl, h, fun i hi => absurd hi (Nat.not_lt_zero i)⟩
  | succ n ih =>
    obtain ⟨c, hc, hcb⟩ := h
    obtain ⟨f, hfirst, hlast, hf⟩ := ih hc
    refine ⟨Function.update f (n + 1) b, ?_, Function.update_self .., fun i hi => ?_⟩
    · rw [Function.update_of_ne (Nat.succ_ne_zero n).symm, hfirst]
    · rw [Function.update_of_ne hi.ne]
      obtain rfl | hlt := Nat.eq_or_lt_of_le (Nat.le_of_lt_succ hi)
      · rw [Function.update_self, hlast]
        exact hcb
      · rw [Function.update_of_ne (Nat.succ_lt_succ hlt).ne]
        exact hf i hlt

/-- **A cycle** makes ways of any length. -/
theorem exists_steps_of_cycle (hreach : ReflTransGen r a c) (hcycle : TransGen r c c) (n : ℕ) :
    ∃ b, Steps r n a b := by
  induction n generalizing a with
  | zero => exact ⟨a, rfl⟩
  | succ n ih =>
    obtain ⟨d, hd, hreach'⟩ : ∃ d, r a d ∧ ReflTransGen r d c := by
      rcases hreach.cases_head with rfl | hstep
      · exact TransGen.head'_iff.mp hcycle
      · exact hstep
    obtain ⟨b, hb⟩ := ih hreach'
    exact ⟨b, hb.head hd⟩

/-- **A way as long as there are elements** leads to a cycle. -/
theorem exists_cycle_of_steps [Fintype α] (h : Steps r n a b) (hcard : Fintype.card α ≤ n) :
    ∃ c, ReflTransGen r a c ∧ TransGen r c c := by
  obtain ⟨f, rfl, -, hf⟩ := h.exists_places
  have hreach : ∀ i j, i ≤ j → j ≤ n → ReflTransGen r (f i) (f j) := by
    intro i j hij hj
    refine (reflTransGen_of_succ_of_le (fun i j => r (f i) (f j)) (fun k hk => ?_) hij).lift f
      fun _ _ h => h
    exact hf k (hk.2.trans_le hj)
  have hsteps : ∀ i j, i < j → j ≤ n → TransGen r (f i) (f j) := by
    intro i j hij hj
    refine (transGen_of_succ_of_lt (fun i j => r (f i) (f j)) (fun k hk => ?_) hij).lift f
      fun _ _ h => h
    exact hf k (hk.2.trans_le hj)
  obtain ⟨i, j, hne, hsame⟩ := Fintype.exists_ne_map_eq_of_card_lt (fun i : Fin (n + 1) => f i)
    (by rw [Fintype.card_fin]; exact Nat.lt_succ_of_le hcard)
  wlog hij : i < j generalizing i j
  · exact this j i hne.symm hsame.symm (lt_of_le_of_ne (not_lt.mp hij) hne.symm)
  have hcycle := hsteps i j hij (Nat.le_of_lt_succ j.isLt)
  rw [← hsame] at hcycle
  exact ⟨f i, hreach 0 i (Nat.zero_le _) (Nat.le_of_lt_succ i.isLt), hcycle⟩

end CountedSteps
