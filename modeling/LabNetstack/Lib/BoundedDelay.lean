import Mathlib.Data.Nat.Basic

/-!
# Iterations with bounded delay

Nodes that come to know more and more. Each revises what it knows at times of its own, and from what
the others have known a while before; nobody waits for anybody else. As long as every node revises
often enough and nothing that is used is too old, all nodes get from level to level together.

## Main results

* `BoundedDelay.level_of_le` — the nodes reach level `n` within `n` times a revision and its delay
-/

namespace BoundedDelay

variable {ι : Type*} {revises : ℕ → ι → Prop} {level : ℕ → ℕ → ι → Prop} {T N W D : ℕ}

/-- What has been reached by a revision stays: either nothing is revised, or a later revision
reaches it again. -/
theorem level_of_revised {n t' : ℕ} {v : ι}
    (hkeep : ∀ t, t < N → ¬ revises t v → level n t v → level n (t + 1) v)
    (hlater : ∀ t, t' ≤ t → t < N → revises t v → level n (t + 1) v)
    (hrevises : revises t' v) {t : ℕ} (hfrom : t' + 1 ≤ t) (ht : t ≤ N) : level n t v := by
  induction t, hfrom using Nat.le_induction with
  | base => exact hlater t' le_rfl ht hrevises
  | succ t hfrom ih =>
    by_cases hrev : revises t v
    · exact hlater t (by omega) ht hrev
    · exact hkeep t ht hrev (ih (by omega))

/-- **Levels in bounded time.** From time `T` to time `N` every node revises within any `W` steps. A
revision while everybody has been at level `n` for `D` steps leads to level `n + 1`, and between two
revisions a node stays where it is. -/
theorem level_of_le
    (hoften : ∀ v t, T ≤ t → t + W ≤ N → ∃ t', t ≤ t' ∧ t' < t + W ∧ revises t' v)
    (hzero : ∀ t v, t ≤ N → level 0 t v)
    (hkeep : ∀ n t v, t < N → ¬ revises t v → level n t v → level n (t + 1) v)
    (hrevise : ∀ n t v, T ≤ t → t < N → revises t v →
      (∀ u r, r ≤ t → t ≤ r + D → level n r u) → level (n + 1) (t + 1) v)
    (n : ℕ) {t : ℕ} (v : ι) (ht : t ≤ N) (hn : T + n * (W + D) ≤ t) : level n t v := by
  induction n generalizing t v with
  | zero => exact hzero t v ht
  | succ n ih =>
    rw [Nat.succ_mul] at hn
    obtain ⟨t', hfrom, hto, hrevises⟩ := hoften v (t - W) (by omega) (by omega)
    -- whatever is revised from then on is revised on level `n`
    have hlater : ∀ s, t' ≤ s → s < N → revises s v → level (n + 1) (s + 1) v := by
      intro s hs hsN hrev
      refine hrevise n s v (by omega) hsN hrev fun u r hr hold => ?_
      exact ih u (by omega) (by omega)
    exact level_of_revised (fun s => hkeep (n + 1) s v) hlater hrevises (by omega) ht

end BoundedDelay
