import Mathlib.Data.BitVec
import Mathlib.Data.Nat.ModEq

/-!
# One's-complement sums

Words of `w` bits are added so that a carry out of the top comes in again at the bottom. A machine
that has no such addition takes the plain sum in a wider register, and folds the upper part of it
onto the lower. Both are sums modulo `2 ^ w - 1`, with two names for zero, and which of the two
comes out is known as well: `0` only if nothing but zeros was added.

## Main results

* `modEq_sum`, `sum_eq_zero_iff` — what the sum is
* `eq_sum_of_fold` — folding the plain sum until it fits gives the same
* `fold_fold_lt` — and if the register has no more than twice the bits, it fits after two folds
* `sum_complement` — a word that holds the complement of the sum of the others makes it all ones
-/

namespace OnesComplement

variable {w : ℕ}

/-! ### Words -/

def add (x y : BitVec w) : BitVec w :=
  if x.toNat + y.toNat < 2 ^ w then x + y else x + y + 1

def sum (ws : List (BitVec w)) : BitVec w := ws.foldl add 0

/-- The upper part on top of the lower. -/
def fold (w n : ℕ) : ℕ := n % 2 ^ w + n / 2 ^ w

/-! ### Residues -/

theorem two_pow_modEq (w : ℕ) : 2 ^ w ≡ 1 [MOD 2 ^ w - 1] := by
  have hpos : 1 ≤ 2 ^ w := Nat.one_le_two_pow
  exact ((Nat.modEq_iff_dvd' hpos).mpr dvd_rfl).symm

theorem fold_modEq (w n : ℕ) : fold w n ≡ n [MOD 2 ^ w - 1] := by
  have hupper : n / 2 ^ w ≡ 2 ^ w * (n / 2 ^ w) [MOD 2 ^ w - 1] := by
    simpa using ((two_pow_modEq w).mul_right (n / 2 ^ w)).symm
  calc fold w n ≡ n % 2 ^ w + 2 ^ w * (n / 2 ^ w) [MOD 2 ^ w - 1] := hupper.add_left _
    _ = n := Nat.mod_add_div ..

theorem fold_eq_zero_iff (w n : ℕ) : fold w n = 0 ↔ n = 0 := by
  have hsplit := Nat.mod_add_div n (2 ^ w)
  rw [fold, Nat.add_eq_zero_iff]
  constructor
  · rintro ⟨hlower, hupper⟩
    rw [hlower, hupper, Nat.mul_zero] at hsplit
    exact hsplit.symm
  · rintro rfl
    exact ⟨Nat.zero_mod _, Nat.zero_div _⟩

/-- A number that fits is known by its residue, but for the two names of zero. -/
theorem eq_of_modEq {m n : ℕ} (hm : m < 2 ^ w) (hn : n < 2 ^ w) (h : m ≡ n [MOD 2 ^ w - 1])
    (hzero : m = 0 ↔ n = 0) : m = n := by
  wlog hle : m ≤ n generalizing m n
  · exact (this hn hm h.symm hzero.symm (Nat.le_of_not_le hle)).symm
  obtain ⟨k, hk⟩ := (Nat.modEq_iff_dvd' hle).mp h
  rcases k with _ | k
  · omega
  · -- a whole period apart: `m` is `0` and `n` is not
    have hperiod : 2 ^ w - 1 ≤ n - m := by
      rw [hk]
      exact Nat.le_mul_of_pos_right _ (Nat.succ_pos k)
    have : m = 0 := by omega
    omega

theorem toNat_add (x y : BitVec w) : (add x y).toNat = fold w (x.toNat + y.toNat) := by
  have hx := x.isLt
  have hy := y.isLt
  rw [add, fold]
  split_ifs with hcarry
  · rw [BitVec.toNat_add, Nat.div_eq_of_lt hcarry, Nat.add_zero]
  · have hdiv : (x.toNat + y.toNat) / 2 ^ w = 1 :=
      Nat.div_eq_of_lt_le (by omega) (by omega)
    have hmod : (x.toNat + y.toNat) % 2 ^ w = x.toNat + y.toNat - 2 ^ w := by
      rw [Nat.mod_eq_sub_mod (by omega), Nat.mod_eq_of_lt (by omega)]
    rw [BitVec.toNat_add, BitVec.toNat_add, BitVec.ofNat_eq_ofNat, BitVec.toNat_ofNat, hmod, hdiv,
      Nat.mod_eq_of_lt (show 1 < 2 ^ w by omega), Nat.mod_eq_of_lt (by omega)]

theorem toNat_foldl_add (ws : List (BitVec w)) (acc : BitVec w) :
    (ws.foldl add acc).toNat ≡ acc.toNat + (ws.map BitVec.toNat).sum [MOD 2 ^ w - 1] ∧
      ((ws.foldl add acc).toNat = 0 ↔ acc.toNat + (ws.map BitVec.toNat).sum = 0) := by
  induction ws generalizing acc with
  | nil => exact ⟨rfl, Iff.rfl⟩
  | cons x ws ih =>
    obtain ⟨hmod, hzero⟩ := ih (add acc x)
    rw [toNat_add] at hmod hzero
    rw [List.foldl_cons, List.map_cons, List.sum_cons, ← Nat.add_assoc]
    refine ⟨hmod.trans ((fold_modEq ..).add_right _), hzero.trans ?_⟩
    rw [Nat.add_eq_zero_iff, fold_eq_zero_iff, ← Nat.add_eq_zero_iff]

/-- **The sum.** Its residue is that of the plain sum -/
theorem modEq_sum (ws : List (BitVec w)) :
    (sum ws).toNat ≡ (ws.map BitVec.toNat).sum [MOD 2 ^ w - 1] := by
  simpa [sum] using (toNat_foldl_add ws 0).1

/-- and of the two names of zero it is `0` only for zeros. -/
theorem sum_eq_zero_iff (ws : List (BitVec w)) :
    (sum ws).toNat = 0 ↔ (ws.map BitVec.toNat).sum = 0 := by
  simpa [sum] using (toNat_foldl_add ws 0).2

/-! ### Folding -/

/-- A number that has been folded until it fits. -/
theorem eq_sum_of_fold {ws : List (BitVec w)} {n : ℕ} (hlt : n < 2 ^ w)
    (hmod : n ≡ (ws.map BitVec.toNat).sum [MOD 2 ^ w - 1])
    (hzero : n = 0 ↔ (ws.map BitVec.toNat).sum = 0) : n = (sum ws).toNat :=
  eq_of_modEq hlt (sum ws).isLt (hmod.trans (modEq_sum ws).symm)
    (hzero.trans (sum_eq_zero_iff ws).symm)

/-- A second fold has a carry of one to deal with, and finds the room for it. -/
theorem fold_fold_lt {n : ℕ} (h : n < 2 ^ w * 2 ^ w) : fold w (fold w n) < 2 ^ w := by
  have hpos : 0 < 2 ^ w := Nat.two_pow_pos w
  have hlower : n % 2 ^ w < 2 ^ w := Nat.mod_lt _ hpos
  have hupper : n / 2 ^ w < 2 ^ w := Nat.div_lt_of_lt_mul h
  generalize hm : fold w n = m
  rw [fold] at hm
  by_cases hfits : m < 2 ^ w
  · rw [fold, Nat.mod_eq_of_lt hfits, Nat.div_eq_of_lt hfits]
    exact hfits
  · have hdiv : m / 2 ^ w = 1 := Nat.div_eq_of_lt_le (by omega) (by omega)
    have hmod : m % 2 ^ w = m - 2 ^ w := by
      rw [Nat.mod_eq_sub_mod (by omega), Nat.mod_eq_of_lt (by omega)]
    rw [fold, hdiv, hmod]
    omega

/-! ### The check word -/

/-- **The check verifies.** Where a zero stood the complement of the sum makes the sum all ones. -/
theorem sum_complement (hw : 0 < w) (xs ys : List (BitVec w)) :
    sum (xs ++ ~~~ sum (xs ++ 0 :: ys) :: ys) = BitVec.allOnes w := by
  generalize hs : sum (xs ++ 0 :: ys) = s
  have hslt := s.isLt
  have hone : 1 < 2 ^ w := Nat.one_lt_two_pow hw.ne'
  have hnot : (~~~ s).toNat = 2 ^ w - 1 - s.toNat := BitVec.toNat_not
  have hplain : ((xs ++ ~~~ s :: ys).map BitVec.toNat).sum =
      ((xs ++ 0 :: ys).map BitVec.toNat).sum + (~~~ s).toNat := by
    simp only [List.map_append, List.map_cons, List.sum_append, List.sum_cons,
      BitVec.ofNat_eq_ofNat, BitVec.toNat_zero]
    omega
  have hmod := modEq_sum (xs ++ 0 :: ys)
  have hzero := sum_eq_zero_iff (xs ++ 0 :: ys)
  rw [hs] at hmod hzero
  refine BitVec.eq_of_toNat_eq (eq_sum_of_fold (BitVec.isLt _) ?_ ?_).symm
  · calc (BitVec.allOnes w).toNat = s.toNat + (~~~ s).toNat := by
          rw [BitVec.toNat_allOnes, hnot]
          omega
      _ ≡ ((xs ++ 0 :: ys).map BitVec.toNat).sum + (~~~ s).toNat [MOD 2 ^ w - 1] :=
          hmod.add_right _
      _ = _ := hplain.symm
  · -- neither side is zero: if the plain sum is, its complement is all ones
    rw [BitVec.toNat_allOnes, hplain]
    omega

end OnesComplement
