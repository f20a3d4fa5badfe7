import Mathlib.Data.BitVec
import Mathlib.Data.List.GetD
import Mathlib.Logic.Equiv.Defs
import Mathlib.Tactic.Ring

/-!
# Structs in memory

A C program that reads a struct through a pointer, or copies one into a buffer, relies on the
layout of its fields: so many bytes for each, least significant byte first. A `Struct` packs the
two directions with the fact that they agree; `uint`, `array`, `padding`, `pair` and
`iso` build the layout of a struct from those of its fields.

Reading past the end of the buffer is undefined in C: `Struct.read?` and `Struct.readArray?` have
no result there.

## Main results

* `Struct.read?_append` — a struct is read back, whatever stands behind it
* `Struct.readArray?_flatMap` — and so is an array of structs
-/

namespace Layout

abbrev Bytes := List (BitVec 8)

/-! ### Words -/

/-- The `n` bytes of `x`, least significant first. -/
def store : ℕ → ℕ → Bytes
  | 0, _ => []
  | n + 1, x => BitVec.ofNat 8 x :: store n (x / 256)

/-- The number that these bytes are the bytes of. -/
def load : Bytes → ℕ
  | [] => 0
  | b :: bs => b.toNat + 256 * load bs

@[simp] theorem length_store (n x : ℕ) : (store n x).length = n := by
  induction n generalizing x with
  | zero => rfl
  | succ n ih => rw [store, List.length_cons, ih]

theorem load_store (n x : ℕ) : load (store n x) = x % 256 ^ n := by
  induction n generalizing x with
  | zero => rw [store, load, pow_zero, Nat.mod_one]
  | succ n ih =>
    rw [store, load, ih, BitVec.toNat_ofNat, show 2 ^ 8 = 256 from rfl, pow_succ',
      Nat.mod_mul (a := 256)]

/-! ### Structs -/

/-- How the values of `α` lie in memory. -/
structure Struct (α : Type*) where
  size : ℕ
  bytes : α → Bytes
  read : Bytes → α
  length_bytes : ∀ x, (bytes x).length = size
  read_append : ∀ x rest, read (bytes x ++ rest) = x

namespace Struct

variable {α β : Type*} (l : Struct α)

theorem drop_append (x : α) (rest : Bytes) : (l.bytes x ++ rest).drop l.size = rest := by
  rw [← l.length_bytes x, List.drop_left]

theorem bytes_injective : Function.Injective l.bytes := by
  intro x y h
  rw [← l.read_append x [], h, l.read_append y []]

/-- An unsigned integer of `w` bits in `n` bytes. -/
def uint (w n : ℕ) (hw : w ≤ 8 * n) : Struct (BitVec w) where
  size := n
  bytes x := store n x.toNat
  read bs := BitVec.ofNat w (load (bs.take n))
  length_bytes x := length_store ..
  read_append x rest := by
    have hlt : x.toNat < 256 ^ n := by
      rw [show 256 = 2 ^ 8 from rfl, ← pow_mul]
      exact Nat.lt_of_lt_of_le x.isLt (Nat.pow_le_pow_right (by decide) hw)
    rw [List.take_append_of_le_length (length_store ..).ge,
      List.take_of_length_le (length_store ..).le, load_store, Nat.mod_eq_of_lt hlt,
      BitVec.ofNat_toNat, BitVec.setWidth_eq]

/-- What stands behind an integer is not looked at. -/
theorem uint_read_append {w n : ℕ} (hw : w ≤ 8 * n) {bs : Bytes} (h : n ≤ bs.length)
    (rest : Bytes) : (uint w n hw).read (bs ++ rest) = (uint w n hw).read bs := by
  change BitVec.ofNat w (load ((bs ++ rest).take n)) = BitVec.ofNat w (load (bs.take n))
  rw [List.take_append_of_le_length h]

/-- An array of `n` bytes. -/
def array (n : ℕ) : Struct (Vector (BitVec 8) n) where
  size := n
  bytes v := v.toList
  read bs := Vector.ofFn fun i => bs.getD i 0
  length_bytes v := v.length_toList
  read_append v rest := by
    refine Vector.ext fun i hi => ?_
    have hlen : i < v.toList.length := by rw [Vector.length_toList]; exact hi
    rw [Vector.getElem_ofFn, List.getD_append _ _ _ _ hlen, List.getD_eq_getElem _ _ hlen,
      Vector.getElem_toList]

/-- `n` bytes that nobody reads. -/
def padding (n : ℕ) : Struct Unit where
  size := n
  bytes _ := List.replicate n 0
  read _ := ()
  length_bytes _ := List.length_replicate
  read_append _ _ := rfl

/-- One field, and the fields behind it. -/
def pair (l : Struct α) (m : Struct β) : Struct (α × β) where
  size := l.size + m.size
  bytes x := l.bytes x.1 ++ m.bytes x.2
  read bs := (l.read bs, m.read (bs.drop l.size))
  length_bytes x := by rw [List.length_append, l.length_bytes, m.length_bytes]
  read_append x rest := by
    rw [List.append_assoc, l.read_append, l.drop_append, m.read_append]

/-- The fields under the names of a struct. -/
def iso (l : Struct α) (e : α ≃ β) : Struct β where
  size := l.size
  bytes x := l.bytes (e.symm x)
  read bs := e (l.read bs)
  length_bytes x := l.length_bytes _
  read_append x rest := by rw [l.read_append, Equiv.apply_symm_apply]

/-! ### Reading through a pointer -/

/-- The struct at the start of `bs`. -/
def read? (bs : Bytes) : Option α := if l.size ≤ bs.length then some (l.read bs) else none

/-- The first `n` elements of the array at the start of `bs`. -/
def readArray (n : ℕ) (bs : Bytes) : List α :=
  (List.range n).map fun i => l.read (bs.drop (l.size * i))

def readArray? (n : ℕ) (bs : Bytes) : Option (List α) :=
  if l.size * n ≤ bs.length then some (l.readArray n bs) else none

theorem read?_append (x : α) (rest : Bytes) : l.read? (l.bytes x ++ rest) = some x := by
  rw [read?, if_pos (by rw [List.length_append, l.length_bytes]; omega), l.read_append]

/-- The array in two parts. -/
theorem readArray_add (m n : ℕ) (bs : Bytes) :
    l.readArray (m + n) bs = l.readArray m bs ++ l.readArray n (bs.drop (l.size * m)) := by
  rw [readArray, List.range_add, List.map_append, List.map_map]
  refine congrArg (l.readArray m bs ++ ·) (List.map_congr_left fun i _ => ?_)
  rw [Function.comp_apply, List.drop_drop, Nat.mul_add]

theorem length_flatMap (xs : List α) : (xs.flatMap l.bytes).length = l.size * xs.length := by
  induction xs with
  | nil => rfl
  | cons x xs ih =>
    rw [List.flatMap_cons, List.length_append, l.length_bytes, ih, List.length_cons]
    ring

theorem readArray_flatMap (xs : List α) (rest : Bytes) :
    l.readArray xs.length (xs.flatMap l.bytes ++ rest) = xs := by
  induction xs with
  | nil => rfl
  | cons x xs ih =>
    rw [List.flatMap_cons, List.append_assoc, readArray, List.length_cons, List.range_succ_eq_map,
      List.map_cons, List.map_map, Nat.mul_zero, List.drop_zero, l.read_append]
    refine congrArg (x :: ·) (Eq.trans (List.map_congr_left fun i _ => ?_) ih)
    rw [Function.comp_apply, Nat.mul_succ, Nat.add_comm, ← List.drop_drop, l.drop_append]

/-- An array that has been copied out is read back. -/
theorem readArray?_flatMap (xs : List α) (rest : Bytes) :
    l.readArray? xs.length (xs.flatMap l.bytes ++ rest) = some xs := by
  rw [readArray?, if_pos (by rw [List.length_append, l.length_flatMap]; omega),
    l.readArray_flatMap]

end Struct

end Layout
