import Mathlib.Data.BitVec
import Mathlib.Tactic.Ring

/-!
# Counters kept modulo a power of two

A program that counts forever in a `w`-bit word keeps only the residue of an unbounded counter.
Two counters whose distance is below `2 ^ w` can still be compared and subtracted through their
residues, and that is all a ring index or a sequence number is ever used for. This file collects
the facts in that form: on the left the machine word, on the right the unbounded counter.

## Main results

* `ofNat_inj_of_le` — residues of two close counters are equal only if the counters are
* `toNat_ofNat_sub` — the distance of two close counters, read off their residues
* `toNat_room` — the free space of a ring of `2 ^ w` cells that keeps one cell empty
-/

namespace WrapCounter

variable {w : ℕ}

/-- Residues of two counters less than `2 ^ w` apart agree only when the counters do. -/
theorem ofNat_inj_of_le {x y : ℕ} (hxy : x ≤ y) (hd : y < x + 2 ^ w) :
    BitVec.ofNat w x = BitVec.ofNat w y ↔ x = y := by
  constructor
  · intro h
    have hmod : x % 2 ^ w = y % 2 ^ w := by simpa using congrArg BitVec.toNat h
    have hdvd : 2 ^ w ∣ y - x := (Nat.modEq_iff_dvd' hxy).mp hmod
    have hzero : y - x = 0 := Nat.eq_zero_of_dvd_of_lt hdvd (by omega)
    omega
  · rintro rfl
    rfl

theorem ofNat_sub_ofNat {x y : ℕ} (hyx : y ≤ x) :
    BitVec.ofNat w x - BitVec.ofNat w y = BitVec.ofNat w (x - y) := by
  obtain ⟨k, rfl⟩ := Nat.exists_eq_add_of_le hyx
  rw [Nat.add_sub_cancel_left, BitVec.ofNat_add, BitVec.add_comm, BitVec.add_sub_cancel]

theorem toNat_ofNat_sub {x y : ℕ} (hyx : y ≤ x) (hd : x < y + 2 ^ w) :
    (BitVec.ofNat w x - BitVec.ofNat w y).toNat = x - y := by
  rw [ofNat_sub_ofNat hyx, BitVec.toNat_ofNat, Nat.mod_eq_of_lt (by omega)]

/-- `back - 1 - front` is the number of free cells of a ring holding `front - back` items, one
cell being kept empty so that a full ring and an empty one differ. -/
theorem toNat_room {back front : ℕ} (hle : back ≤ front) (hcap : front ≤ back + (2 ^ w - 1)) :
    (BitVec.ofNat w back - 1 - BitVec.ofNat w front).toNat = back + (2 ^ w - 1) - front := by
  have hpow : 0 < 2 ^ w := Nat.two_pow_pos w
  obtain ⟨k, rfl⟩ := Nat.exists_eq_add_of_le hle
  have hneg : BitVec.ofNat w back - 1 - BitVec.ofNat w (back + k)
      = BitVec.ofNat w (2 ^ w - 1 - k) := by
    have hsum : BitVec.ofNat w (2 ^ w - 1 - k) + BitVec.ofNat w k + 1 = 0 := by
      have h1 : BitVec.ofNat w 1 = 1 := rfl
      rw [← h1, ← BitVec.ofNat_add, ← BitVec.ofNat_add,
        show 2 ^ w - 1 - k + k + 1 = 2 ^ w by omega]
      exact BitVec.eq_of_toNat_eq (by
        rw [BitVec.toNat_ofNat, Nat.mod_self]
        exact BitVec.toNat_zero.symm)
    rw [BitVec.ofNat_add]
    grind
  rw [hneg, BitVec.toNat_ofNat, Nat.mod_eq_of_lt (by omega)]
  omega

/-- The low `v` bits of a `w`-bit counter are the same counter kept in `v` bits. -/
theorem setWidth_ofNat_sub {v : ℕ} (hvw : v ≤ w) {x y : ℕ} (hyx : y ≤ x) :
    BitVec.setWidth v (BitVec.ofNat w x - BitVec.ofNat w y) = BitVec.ofNat v (x - y) := by
  rw [ofNat_sub_ofNat hyx, BitVec.setWidth_ofNat_of_le hvw]

theorem add_ofNat_sub {x y : ℕ} (hyx : y ≤ x) :
    BitVec.ofNat w y + BitVec.ofNat w (x - y) = BitVec.ofNat w x := by
  rw [← BitVec.ofNat_add, show y + (x - y) = x by omega]

end WrapCounter
