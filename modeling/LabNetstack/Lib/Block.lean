import Mathlib.Data.List.Basic

/-!
# Blocks of allocated memory

A block is the list of its bytes. A write that leaves it has no result, and `realloc` keeps as much
as the old size and the new one have in common; what the rest holds is up to the allocator.
-/

namespace Block

variable {α : Type*}

/-- Copy `bs` to the place `off`. -/
def poke? (block : List α) (off : ℕ) (bs : List α) : Option (List α) :=
  if off + bs.length ≤ block.length then
    some (block.take off ++ (bs ++ block.drop (off + bs.length)))
  else none

/-- A block of that size; `junk` is what its new part holds. -/
def realloc (junk : ℕ → α) (block : List α) (size : ℕ) : List α :=
  (List.range size).map fun i => block[i]?.getD (junk i)

variable {block bs : List α} {off : ℕ}

theorem poke?_outside (h : block.length < off + bs.length) : poke? block off bs = none :=
  if_neg (Nat.not_le_of_lt h)

/-- One field is replaced by another of its size. -/
theorem poke?_field {front old : List α} (hoff : off = front.length)
    (hold : old.length = bs.length) (rest : List α) :
    poke? (front ++ (old ++ rest)) off bs = some (front ++ (bs ++ rest)) := by
  have hfits : off + bs.length ≤ (front ++ (old ++ rest)).length := by
    rw [List.length_append, List.length_append, hoff, hold]
    omega
  rw [poke?, if_pos hfits, hoff, List.take_left, List.drop_length_add_append, ← hold,
    List.drop_left]

@[simp] theorem length_realloc (junk : ℕ → α) (block : List α) (size : ℕ) :
    (realloc junk block size).length = size := by
  rw [realloc, List.length_map, List.length_range]

end Block
