import Mathlib.Data.BitVec
import LabNetstack.Lib.Layout

/-!
# Bytes and byte order

The stack runs on little-endian hosts, so `htons` and `htonl` swap bytes and are their own
inverses. Header fields are kept as the structs keep them, in network order; the two functions
stand wherever the C code calls them. Lengths are mostly `uint16_t`.
-/

namespace LabNetstack

open Layout

abbrev Byte := BitVec 8

abbrev IPAddr := BitVec 32

/-- The integer types of the structs. -/
def uint8 : Struct (BitVec 8) := .uint 8 1 le_rfl

def uint16 : Struct (BitVec 16) := .uint 16 2 le_rfl

def uint32 : Struct (BitVec 32) := .uint 32 4 le_rfl

def uint64 : Struct (BitVec 64) := .uint 64 8 le_rfl

def htons (x : BitVec 16) : BitVec 16 := x.extractLsb' 0 8 ++ x.extractLsb' 8 8

def htonl (x : BitVec 32) : BitVec 32 :=
  x.extractLsb' 0 8 ++ x.extractLsb' 8 8 ++ x.extractLsb' 16 8 ++ x.extractLsb' 24 8

def ntohs (x : BitVec 16) : BitVec 16 := htons x

def ntohl (x : BitVec 32) : BitVec 32 := htonl x

@[simp] theorem htons_htons (x : BitVec 16) : htons (htons x) = x := by
  refine BitVec.eq_of_getLsbD_eq fun i hi => ?_
  simp only [htons, BitVec.getLsbD_append, BitVec.getLsbD_extractLsb']
  grind

@[simp] theorem htonl_htonl (x : BitVec 32) : htonl (htonl x) = x := by
  refine BitVec.eq_of_getLsbD_eq fun i hi => ?_
  simp only [htonl, BitVec.getLsbD_append, BitVec.getLsbD_extractLsb']
  grind

/-! ### Lengths in 16 bits -/

/-- The size of a copy is the smaller of what is asked for and what there is. -/
theorem toNat_clamp {space : BitVec 16} {n : ℕ} :
    (if n > space.toNat then space else BitVec.ofNat 16 n).toNat = min n space.toNat := by
  split_ifs with h
  · omega
  · rw [BitVec.toNat_ofNat, Nat.mod_eq_of_lt (by omega)]
    omega

theorem zero_lt_iff_toNat (x : BitVec 16) : 0 < x ↔ 0 < x.toNat := by
  rw [BitVec.lt_def]
  rfl

/-- A comparison of two 16-bit lengths picks the smaller one. -/
theorem toNat_ite_lt (x y : BitVec 16) :
    (if x < y then x else y).toNat = min x.toNat y.toNat := by
  split_ifs with h
  · rw [BitVec.lt_def] at h
    omega
  · rw [BitVec.lt_def] at h
    omega

end LabNetstack
