import Mathlib.Data.Nat.Find
import Mathlib.Order.Bounds.Basic
import Mathlib.Algebra.Order.Group.Nat

/-!
# Distance vectors

Nodes that own names, and hear each other over some relation. Each node keeps a table of pairs of a
name and a distance; in a round it takes, for each name, the least of zero (if it owns the name) and
one more than any distance it hears, and forgets what is more than a limit away.

Nothing is assumed about the tables at the start. Whatever they hold, an entry that has no node
behind it grows by one in every round, so that it has passed the limit when as many rounds are over.

## Main results

* `Step.genuine`, `Step.reached` — what one round adds to what is known of the tables
* `Rounds.eq_hopDist` — after more rounds than the limit the tables hold the hop distances
-/

namespace DistanceVector

variable {ι α : Type*} (hears : ι → ι → Prop) (owns : ι → α → Prop) (limit : ℕ)

/-! ### Hop distance -/

/-- A path of `k` hops from a node to one that owns the name. -/
inductive Path (a : α) : ι → ℕ → Prop
  | here {v : ι} (h : owns v a) : Path a v 0
  | hop {v u : ι} {k : ℕ} (h : hears v u) (p : Path a u k) : Path a v (k + 1)

/-- The hop distance is the length of a shortest path. -/
def IsHopDist (v : ι) (a : α) (k : ℕ) : Prop := IsLeast {k | Path hears owns a v k} k

theorem isHopDist_zero_iff {hears : ι → ι → Prop} {owns : ι → α → Prop} {v : ι} {a : α} :
    IsHopDist hears owns v a 0 ↔ owns v a := by
  constructor
  · rintro ⟨hpath, -⟩
    cases hpath with
    | here hown => exact hown
  · exact fun hown => ⟨.here hown, fun _ _ => Nat.zero_le _⟩

/-- A node that is any distance away does not own the name. -/
theorem IsHopDist.not_owns {hears : ι → ι → Prop} {owns : ι → α → Prop} {v : ι} {a : α} {k : ℕ}
    (h : IsHopDist hears owns v a (k + 1)) : ¬ owns v a :=
  fun hown => absurd (h.2 (.here hown)) (Nat.not_succ_le_zero k)

/-! ### Rounds -/

/-- The tables of all nodes: which names each has, at which distances. -/
abbrev Tables (ι α : Type*) := ι → α → ℕ → Prop

/-- The distances that a node can choose from. -/
def Offered (T : Tables ι α) (v : ι) (a : α) (k : ℕ) : Prop :=
  (k = 0 ∧ owns v a) ∨ ∃ u j, hears v u ∧ T u a j ∧ k = j + 1

/-- A round: the nearest of what is offered, unless it is too far away. -/
def Step (T T' : Tables ι α) : Prop :=
  ∀ v a k, T' v a k ↔ k ≤ limit ∧ IsLeast {k | Offered hears owns T v a k} k

/-- `n` rounds. -/
inductive Rounds (T : Tables ι α) : ℕ → Tables ι α → Prop
  | zero : Rounds T 0 T
  | succ {n : ℕ} {T' T'' : Tables ι α} (h : Rounds T n T') (hs : Step hears owns limit T' T'') :
      Rounds T (n + 1) T''

/-- After `n` rounds: a distance below `n` is the length of a path. -/
def Genuine (n : ℕ) (T : Tables ι α) : Prop :=
  ∀ v a k, T v a k → k < n → Path hears owns a v k

/-- After `n` rounds: what is less than `n` hops away is in the table, at most that far away. -/
def Reached (n : ℕ) (T : Tables ι α) : Prop :=
  ∀ v a k, Path hears owns a v k → k < n → k ≤ limit → ∃ j ≤ k, T v a j

variable {hears owns limit} {T T' : Tables ι α} {n : ℕ}

theorem Step.genuine (hs : Step hears owns limit T T') (h : Genuine hears owns n T) :
    Genuine hears owns (n + 1) T' := by
  intro v a k hk hlt
  obtain ⟨-, hoff, -⟩ := (hs v a k).mp hk
  rcases hoff with ⟨rfl, hown⟩ | ⟨u, j, hvu, hj, rfl⟩
  · exact .here hown
  · exact .hop hvu (h u a j hj (by omega))

/-- Something is chosen when anything near enough is offered. -/
theorem Step.exists_of_offered (hs : Step hears owns limit T T') {v : ι} {a : α} {k : ℕ}
    (hoff : Offered hears owns T v a k) (hk : k ≤ limit) : ∃ j ≤ k, T' v a j := by
  classical
  have hex : ∃ k, Offered hears owns T v a k := ⟨k, hoff⟩
  have hmin : Nat.find hex ≤ k := Nat.find_min' hex hoff
  exact ⟨Nat.find hex, hmin, (hs v a _).mpr ⟨hmin.trans hk, Nat.find_spec hex,
    fun _ hj => Nat.find_min' hex hj⟩⟩

theorem Step.reached (hs : Step hears owns limit T T') (h : Reached hears owns limit n T) :
    Reached hears owns limit (n + 1) T' := by
  intro v a k hpath hlt hk
  cases hpath with
  | here hown => exact hs.exists_of_offered (Or.inl ⟨rfl, hown⟩) hk
  | @hop _ u k hvu hpath =>
    obtain ⟨j, hj, hT⟩ := h u a k hpath (by omega) (by omega)
    obtain ⟨i, hi, hT'⟩ := hs.exists_of_offered (Or.inr ⟨u, j, hvu, hT, rfl⟩) (by omega)
    exact ⟨i, by omega, hT'⟩

theorem Rounds.genuine (h : Rounds hears owns limit T n T') : Genuine hears owns n T' := by
  induction h with
  | zero => exact fun _ _ _ _ hlt => absurd hlt (Nat.not_lt_zero _)
  | succ _ hs ih => exact hs.genuine ih

theorem Rounds.reached (h : Rounds hears owns limit T n T') : Reached hears owns limit n T' := by
  induction h with
  | zero => exact fun _ _ _ _ hlt => absurd hlt (Nat.not_lt_zero _)
  | succ _ hs ih => exact hs.reached ih

/-- After a round, no distance is above the limit, and a name has only one. -/
theorem Step.le_limit (hs : Step hears owns limit T T') {v : ι} {a : α} {k : ℕ} (h : T' v a k) :
    k ≤ limit := ((hs v a k).mp h).1

theorem Step.unique (hs : Step hears owns limit T T') {v : ι} {a : α} {j k : ℕ} (hj : T' v a j)
    (hk : T' v a k) : j = k := ((hs v a j).mp hj).2.unique ((hs v a k).mp hk).2

/-- **Self-stabilisation.** After more rounds than the limit the tables hold exactly the names that
are at most that far away, each at its hop distance. -/
theorem Rounds.eq_hopDist (h : Rounds hears owns limit T n T') (hn : limit < n) (v : ι) (a : α)
    (k : ℕ) : T' v a k ↔ k ≤ limit ∧ IsHopDist hears owns v a k := by
  obtain ⟨m, rfl⟩ : ∃ m, n = m + 1 := ⟨n - 1, by omega⟩
  have hgenuine := h.genuine
  have hreached := h.reached
  cases h with
  | succ _ hs =>
    constructor
    · intro hk
      have hle := hs.le_limit hk
      have hpath := hgenuine v a k hk (by omega)
      refine ⟨hle, hpath, fun j hj => ?_⟩
      by_contra hlt
      obtain ⟨i, hi, hT⟩ := hreached v a j hj (by omega) (by omega)
      have := hs.unique hT hk
      omega
    · rintro ⟨hle, hpath, hmin⟩
      obtain ⟨j, hj, hT⟩ := hreached v a k hpath (by omega) hle
      have hkj : k ≤ j := hmin (hgenuine v a j hT (by omega))
      rwa [le_antisymm hkj hj]

end DistanceVector
