import LabNetstack.Transport.MainThread

/-!
# What a ring contains

The bytes between two pointers of a ring, for any position of the pointers. A copy into the ring
behind them appends, a copy out of the ring in front of them takes, as long as the copy is no longer
than the room or the contents; and the two differences of the pointers always add up to all cells
but one.

## Main results

* `ring_copyIn`, `ring_take`, `ring_drop` — the ring as a queue
* `toNat_room_add` — its room and its length
-/

namespace LabNetstack

open RingMemory

/-- The cells `back, …, front - 1` of a ring, round the end of the buffer. -/
def ring (buffer : Mem Byte) (back front : BitVec 16) : List Byte :=
  copyOut buffer back (front - back)

variable {buffer : Mem Byte} {back front n : BitVec 16} {bs data : List Byte}

theorem toNat_lt_bufferSize (p : BitVec 16) : p.toNat < bufferSize := p.isLt

theorem ring_eq_loadWrap :
    ring buffer back front = loadWrap bufferSize buffer back.toNat (front - back).toNat :=
  copyOut_eq_loadWrap ..

@[simp] theorem length_ring : (ring buffer back front).length = (front - back).toNat := by
  rw [ring_eq_loadWrap, length_loadWrap (toNat_lt_bufferSize back).le]

theorem ring_eq_nil_iff : ring buffer back front = [] ↔ front = back := by
  rw [← List.length_eq_zero_iff, length_ring]
  constructor
  · intro hzero
    have := back.isLt
    have := front.isLt
    refine BitVec.eq_of_toNat_eq ?_
    rw [BitVec.toNat_sub] at hzero
    omega
  · rintro rfl
    rw [BitVec.sub_self]
    rfl

/-- A ring contains what its cells hold. -/
theorem holds_ring : Holds bufferSize buffer back.toNat (ring buffer back front) := by
  intro k hk
  have hlt : k < (loadWrap bufferSize buffer back.toNat (front - back).toNat).length := by
    rwa [← ring_eq_loadWrap]
  have hcell := getElem_loadWrap (toNat_lt_bufferSize back) (toNat_lt_bufferSize (front - back)).le
    hlt
  rw [← hcell]
  congr 1
  exact ring_eq_loadWrap.symm

theorem ring_eq_of_holds (hold : Holds bufferSize buffer back.toNat bs)
    (hlen : bs.length = (front - back).toNat) : ring buffer back front = bs := by
  have hload := hold.loadWrap (by decide) hlen.ge (toNat_lt_bufferSize (front - back)).le
  rwa [Nat.mod_eq_of_lt (toNat_lt_bufferSize back), List.take_of_length_le hlen.le,
    ← ring_eq_loadWrap] at hload

/-! ### Distances between the pointers -/

/-- One cell is kept empty. -/
theorem toNat_room_add (back front : BitVec 16) :
    (back - 1 - front).toNat + (front - back).toNat = 65535 := by
  have := back.isLt
  have := front.isLt
  have hone : (1 : BitVec 16).toNat = 1 := rfl
  simp only [BitVec.toNat_sub, hone]
  omega

theorem toNat_front_add (h : (front - back).toNat + n.toNat < 2 ^ 16) :
    (front + n - back).toNat = (front - back).toNat + n.toNat := by
  have := back.isLt
  have := front.isLt
  have := n.isLt
  simp only [BitVec.toNat_sub, BitVec.toNat_add] at h ⊢
  omega

theorem toNat_back_add (h : n.toNat ≤ (front - back).toNat) :
    (front - (back + n)).toNat = (front - back).toNat - n.toNat := by
  have := back.isLt
  have := front.isLt
  have := n.isLt
  simp only [BitVec.toNat_sub, BitVec.toNat_add] at h ⊢
  omega

/-- Three pointers in a row. -/
theorem toNat_sub_add {mid : BitVec 16} (h : (front - mid).toNat ≤ (front - back).toNat) :
    (mid - back).toNat + (front - mid).toNat = (front - back).toNat := by
  have := back.isLt
  have := mid.isLt
  have := front.isLt
  simp only [BitVec.toNat_sub] at h ⊢
  omega

theorem add_toNat_mod (back front : BitVec 16) :
    (back.toNat + (front - back).toNat) % bufferSize = front.toNat := by
  have := back.isLt
  have := front.isLt
  simp only [BitVec.toNat_sub, bufferSize]
  omega

/-! ### The ring as a queue -/

/-- **Enqueue.** -/
theorem ring_copyIn (hlen : n.toNat ≤ data.length) (hroom : n.toNat ≤ (back - 1 - front).toNat) :
    ring (copyIn buffer front data n) back (front + n)
      = ring buffer back front ++ data.take n.toNat := by
  have hfree := toNat_room_add back front
  have hfit : (ring buffer back front).length + (data.take n.toNat).length ≤ bufferSize := by
    rw [length_ring, List.length_take, Nat.min_eq_left hlen, show bufferSize = 65536 from rfl]
    omega
  have hold := (@holds_ring buffer back front).storeWrap
    (data.take n.toNat) (by decide) hfit
  rw [length_ring, add_toNat_mod, ← copyIn_eq_storeWrap hlen] at hold
  refine ring_eq_of_holds hold ?_
  rw [List.length_append, length_ring, List.length_take, Nat.min_eq_left hlen,
    toNat_front_add (by omega)]

/-- The first bytes of a ring. -/
theorem ring_take (hn : n.toNat ≤ (front - back).toNat) :
    copyOut buffer back n = (ring buffer back front).take n.toNat := by
  have hload := (@holds_ring buffer back front).loadWrap (by decide)
    (length_ring ▸ hn) (toNat_lt_bufferSize n).le
  rwa [Nat.mod_eq_of_lt (toNat_lt_bufferSize back), ← copyOut_eq_loadWrap] at hload

theorem ring_take_eq (hn : n.toNat ≤ (front - back).toNat) :
    ring buffer back (back + n) = (ring buffer back front).take n.toNat := by
  have hsub : back + n - back = n := by
    rw [BitVec.add_comm, BitVec.add_sub_cancel]
  rw [ring, hsub, ring_take hn]

/-- **Dequeue.** -/
theorem ring_drop (hn : n.toNat ≤ (front - back).toNat) :
    ring buffer (back + n) front = (ring buffer back front).drop n.toNat := by
  refine ring_eq_of_holds ?_ (by rw [List.length_drop, length_ring, toNat_back_add hn])
  intro k hk
  rw [← (holds_ring.drop n.toNat) k hk]
  congr 1
  rw [BitVec.toNat_add, show bufferSize = 2 ^ 16 from rfl, Nat.mod_add_mod]

/-- The split by the order of the two ends copies the same bytes. -/
theorem copyOutBetween_eq_ring : copyOutBetween buffer back front = ring buffer back front := by
  have hpos := Nat.mod_eq_of_lt (toNat_lt_bufferSize back)
  have hload := @loadBetween_eq_loadWrap _ bufferSize back.toNat _ buffer (by decide)
    (toNat_lt_bufferSize (front - back))
  rwa [add_toNat_mod, hpos, ← copyOutBetween_eq_loadBetween, ← ring_eq_loadWrap] at hload

end LabNetstack
