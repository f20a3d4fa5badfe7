import Mathlib.Data.List.Basic
import Mathlib.Tactic.Ring

/-!
# A queue laid out in circular memory

A linear block of `size` cells used as a ring: item number `i` of an unbounded stream lives in
cell `i % size`. Copies in and out of the ring run off the end of the block at most once, so a
program does them in two pieces. `storeWrap`, `loadWrap` and `loadBetween` are the three ways of
writing that split; `Holds` is what they are for, and the lemmas say that a stored piece extends
what the ring holds and that a load returns it.

Stream positions are unbounded throughout: only the cell index is reduced modulo `size`.
-/

namespace RingMemory

variable {α : Type*}

/-- A block of memory, cell by cell. -/
abbrev Mem (α : Type*) := ℕ → α

/-- Read `n` consecutive cells from `off`. -/
def load (m : Mem α) (off n : ℕ) : List α := (List.range n).map fun k => m (off + k)

/-- Overwrite consecutive cells from `off` with `bs`. -/
def store (m : Mem α) (off : ℕ) (bs : List α) : Mem α :=
  fun i => if off ≤ i then bs[i - off]?.getD (m i) else m i

@[simp] theorem length_load (m : Mem α) (off n : ℕ) : (load m off n).length = n := by
  simp [load]

theorem getElem_load (m : Mem α) (off n k : ℕ) (hk : k < (load m off n).length) :
    (load m off n)[k] = m (off + k) := by
  simp [load]

@[simp] theorem load_zero (m : Mem α) (off : ℕ) : load m off 0 = [] := rfl

/-- Cells `start, start + 1, …` (modulo `size`) hold `bs`, in order. -/
def Holds (size : ℕ) (m : Mem α) (start : ℕ) (bs : List α) : Prop :=
  ∀ k (hk : k < bs.length), m ((start + k) % size) = bs[k]

variable {size start n : ℕ} {m : Mem α} {bs xs ys : List α}

@[simp] theorem holds_nil : Holds size m start [] := fun _ hk => absurd hk (Nat.not_lt_zero _)

theorem Holds.drop (h : Holds size m start bs) (n : ℕ) :
    Holds size m (start + n) (bs.drop n) := by
  intro k hk
  rw [List.length_drop] at hk
  rw [List.getElem_drop, Nat.add_assoc]
  exact h (n + k) (by omega)

theorem Holds.take (h : Holds size m start bs) (n : ℕ) : Holds size m start (bs.take n) := by
  intro k hk
  rw [List.getElem_take]
  exact h k (by rw [List.length_take] at hk; omega)

theorem Holds.head? (h : Holds size m start bs) (hne : bs ≠ []) :
    bs.head? = some (m (start % size)) := by
  have hfirst := h 0 (List.length_pos_of_ne_nil hne)
  rw [Nat.add_zero] at hfirst
  rw [List.head?_eq_getElem?, List.getElem?_eq_getElem, hfirst]

/-! ### Copying in -/

/-- Copy `bs` into the ring at cell `pos`, in two pieces when it runs off the end. -/
def storeWrap (size : ℕ) (m : Mem α) (pos : ℕ) (bs : List α) : Mem α :=
  if pos + bs.length ≤ size then store m pos bs
  else store (store m pos (bs.take (size - pos))) 0 (bs.drop (size - pos))

/-- Cell `pos + k` of the ring receives the `k`-th copied item. -/
theorem storeWrap_apply_of_lt {pos k : ℕ} (hpos : pos < size) (hlen : bs.length ≤ size)
    (hk : k < bs.length) : storeWrap size m pos bs ((pos + k) % size) = bs[k] := by
  rw [storeWrap]
  split_ifs with hfit
  · rw [Nat.mod_eq_of_lt (by omega), store, if_pos (by omega), Nat.add_sub_cancel_left,
      List.getElem?_eq_getElem hk, Option.getD_some]
  · rcases Nat.lt_or_ge (pos + k) size with hlow | hhigh
    · -- the piece before the end of the block
      rw [Nat.mod_eq_of_lt hlow, store, if_pos (Nat.zero_le _), Nat.sub_zero,
        List.getElem?_eq_none (by rw [List.length_drop]; omega), Option.getD_none, store,
        if_pos (by omega), Nat.add_sub_cancel_left,
        List.getElem?_eq_getElem (by rw [List.length_take]; omega), Option.getD_some,
        List.getElem_take]
    · -- the piece at its beginning
      rw [show (pos + k) % size = pos + k - size from by
          rw [Nat.mod_eq_sub_mod hhigh, Nat.mod_eq_of_lt (by omega)],
        store, if_pos (Nat.zero_le _), Nat.sub_zero,
        List.getElem?_eq_getElem (by rw [List.length_drop]; omega), Option.getD_some,
        List.getElem_drop]
      congr 1
      omega

/-- Cells outside the copied stretch keep their contents. -/
theorem storeWrap_apply_of_ge {pos k : ℕ} (hpos : pos < size) (hge : bs.length ≤ k)
    (hk : k < size) :
    storeWrap size m pos bs ((pos + k) % size) = m ((pos + k) % size) := by
  rw [storeWrap]
  split_ifs with hfit
  · rcases Nat.lt_or_ge (pos + k) size with hlow | hhigh
    · rw [Nat.mod_eq_of_lt hlow, store, if_pos (by omega), Nat.add_sub_cancel_left,
        List.getElem?_eq_none hge, Option.getD_none]
    · rw [Nat.mod_eq_sub_mod hhigh, Nat.mod_eq_of_lt (by omega), store, if_neg (by omega)]
  · have hhigh : size ≤ pos + k := by omega
    rw [Nat.mod_eq_sub_mod hhigh, Nat.mod_eq_of_lt (by omega), store, if_pos (Nat.zero_le _),
      Nat.sub_zero, List.getElem?_eq_none (by rw [List.length_drop]; omega), Option.getD_none,
      store, if_neg (by omega)]

/-- **Enqueue.** Copying `ys` in right behind `xs` leaves a ring that holds `xs ++ ys`. -/
theorem Holds.storeWrap (h : Holds size m start xs) (ys : List α) (hsize : 0 < size)
    (hcap : xs.length + ys.length ≤ size) :
    Holds size (RingMemory.storeWrap size m ((start + xs.length) % size) ys) start (xs ++ ys) := by
  have hpos : (start + xs.length) % size < size := Nat.mod_lt _ hsize
  intro k hk
  rw [List.length_append] at hk
  rcases Nat.lt_or_ge k xs.length with hold | hnew
  · -- an old item sits `size - xs.length + k` cells past the write position, beyond `ys`
    have hcell : (start + k) % size
        = ((start + xs.length) % size + (size - xs.length + k)) % size := by
      rw [Nat.mod_add_mod, show start + xs.length + (size - xs.length + k) = start + k + size by
        omega, Nat.add_mod_right]
    rw [hcell, storeWrap_apply_of_ge hpos (by omega) (by omega), ← hcell,
      List.getElem_append_left hold]
    exact h k hold
  · have hcell : (start + k) % size
        = ((start + xs.length) % size + (k - xs.length)) % size := by
      rw [Nat.mod_add_mod, show start + xs.length + (k - xs.length) = start + k by omega]
    rw [hcell, storeWrap_apply_of_lt hpos (by omega) (by omega),
      List.getElem_append_right hnew]

/-! ### Copying out -/

/-- Copy `n` items out of the ring from cell `pos`, in two pieces when they run off the end. -/
def loadWrap (size : ℕ) (m : Mem α) (pos n : ℕ) : List α :=
  if pos + n ≤ size then load m pos n
  else load m pos (size - pos) ++ load m 0 (n - (size - pos))

/-- Copy out everything between two cells of the ring, the split being decided by their order. -/
def loadBetween (size : ℕ) (m : Mem α) (first last : ℕ) : List α :=
  if first ≤ last then load m first (last - first)
  else load m first (size - first) ++ load m 0 last

theorem length_loadWrap {pos : ℕ} (hpos : pos ≤ size) :
    (loadWrap size m pos n).length = n := by
  rw [loadWrap]
  split_ifs with hfit
  · simp
  · simp only [List.length_append, length_load]
    omega

theorem getElem_loadWrap {pos k : ℕ} (hpos : pos < size) (hn : n ≤ size)
    (hk : k < (loadWrap size m pos n).length) :
    (loadWrap size m pos n)[k] = m ((pos + k) % size) := by
  have hkn : k < n := by rwa [length_loadWrap hpos.le] at hk
  simp only [loadWrap]
  split_ifs with hfit
  · rw [getElem_load, Nat.mod_eq_of_lt (by omega)]
  · rcases Nat.lt_or_ge (pos + k) size with hlow | hhigh
    · rw [List.getElem_append_left (by rw [length_load]; omega), getElem_load,
        Nat.mod_eq_of_lt hlow]
    · rw [List.getElem_append_right (by rw [length_load]; omega), getElem_load, length_load,
        Nat.mod_eq_sub_mod hhigh, Nat.mod_eq_of_lt (by omega)]
      congr 1
      omega

/-- **Dequeue.** Loading from where the ring starts returns what it holds. -/
theorem Holds.loadWrap (h : Holds size m start bs) (hsize : 0 < size) (hn : n ≤ bs.length)
    (hcap : n ≤ size) : RingMemory.loadWrap size m (start % size) n = bs.take n := by
  have hpos : start % size < size := Nat.mod_lt _ hsize
  apply List.ext_getElem
  · rw [length_loadWrap hpos.le, List.length_take]
    omega
  · intro k hk hk'
    rw [getElem_loadWrap hpos hcap, List.getElem_take, Nat.mod_add_mod]
    exact h k (by rw [List.length_take] at hk'; omega)

/-- The two splits agree when fewer than `size` items lie between the cells. -/
theorem loadBetween_eq_loadWrap (hsize : 0 < size) (hn : n < size) :
    loadBetween size m (start % size) ((start + n) % size)
      = loadWrap size m (start % size) n := by
  have hpos : start % size < size := Nat.mod_lt _ hsize
  rw [loadBetween, loadWrap, ← Nat.mod_add_mod start size n]
  generalize start % size = pos at hpos
  rcases Nat.lt_or_ge (pos + n) size with hlow | hhigh
  · rw [Nat.mod_eq_of_lt hlow, if_pos (by omega), if_pos (by omega), Nat.add_sub_cancel_left]
  · rw [Nat.mod_eq_sub_mod hhigh, Nat.mod_eq_of_lt (by omega), if_neg (by omega)]
    split_ifs with hfit
    · -- the stretch ends exactly at the end of the block
      rw [show pos + n - size = 0 by omega, show n = size - pos by omega]
      simp
    · rw [show n - (size - pos) = pos + n - size by omega]

end RingMemory
