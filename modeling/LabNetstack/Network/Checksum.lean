import LabNetstack.Lib.OnesComplement
import LabNetstack.Network.IPPacket

/-!
# The header checksum

`calcCheck` adds ten words of sixteen bits in a register of thirty-two, folds it twice, and returns
the complement. The register has twice the bits of a word, so two folds are enough whatever was
added, and what comes out is the one's-complement sum. `createIpHeader` calls it on a header
whose check field is zero, so that with the check in place the words add up to all ones.

## Main results

* `toNat_foldedCheck` — the folds leave the one's-complement sum
* `createIpHeader_verifies` — a header that was created passes the check of its receiver
-/

namespace LabNetstack

open Layout OnesComplement

/-! ### The accumulator -/

/-- The words before the folds. -/
def addedCheck (p : List Byte) : BitVec 32 :=
  (uint16.readArray 10 p).foldl (fun check w => check + w.setWidth 32) 0

/-- `check = (check & 0xffff) + (check >> 16)`. -/
def foldCheck (check : BitVec 32) : BitVec 32 :=
  (check &&& 0xffff#32) + (check >>> 16)

/-- The accumulator of `calcCheck` after the second fold. -/
def foldedCheck (p : List Byte) : BitVec 32 := foldCheck (foldCheck (addedCheck p))

theorem calcCheck_eq (p : List Byte) : calcCheck p = ~~~(foldedCheck p).setWidth 16 := rfl

theorem toNat_foldCheck (check : BitVec 32) : (foldCheck check).toNat = fold 16 check.toNat := by
  have hlt := check.isLt
  have hlower : (check &&& 0xffff#32).toNat = check.toNat % 2 ^ 16 := by
    rw [BitVec.toNat_and]
    exact Nat.and_two_pow_sub_one_eq_mod _ 16
  have hupper : (check >>> 16).toNat = check.toNat / 2 ^ 16 := by
    rw [BitVec.toNat_ushiftRight, Nat.shiftRight_eq_div_pow]
  rw [foldCheck, BitVec.toNat_add, hlower, hupper, fold, Nat.mod_eq_of_lt (by omega)]

theorem toNat_foldl_check (ws : List (BitVec 16)) (check : BitVec 32) :
    (ws.foldl (fun check w => check + w.setWidth 32) check).toNat =
      (check.toNat + (ws.map BitVec.toNat).sum) % 2 ^ 32 := by
  induction ws generalizing check with
  | nil => exact (Nat.mod_eq_of_lt check.isLt).symm
  | cons x ws ih =>
    have hx : (x.setWidth 32).toNat = x.toNat := by
      rw [BitVec.toNat_setWidth, Nat.mod_eq_of_lt (by omega)]
    rw [List.foldl_cons, ih, BitVec.toNat_add, hx, List.map_cons, List.sum_cons, Nat.mod_add_mod,
      Nat.add_assoc]

theorem sum_words_le (ws : List (BitVec 16)) : (ws.map BitVec.toNat).sum ≤ ws.length * 65535 := by
  induction ws with
  | nil => exact le_rfl
  | cons x ws ih =>
    have hx := x.isLt
    rw [List.map_cons, List.sum_cons, List.length_cons]
    omega

/-- Ten words do not reach the top of the register. -/
theorem toNat_addedCheck (p : List Byte) :
    (addedCheck p).toNat = ((uint16.readArray 10 p).map BitVec.toNat).sum := by
  have hlen : (uint16.readArray 10 p).length = 10 := by
    rw [Struct.readArray, List.length_map, List.length_range]
  have hle := sum_words_le (uint16.readArray 10 p)
  rw [hlen] at hle
  rw [addedCheck, toNat_foldl_check, BitVec.ofNat_eq_ofNat, BitVec.toNat_zero, Nat.zero_add,
    Nat.mod_eq_of_lt (by omega)]

theorem foldedCheck_lt (p : List Byte) : (foldedCheck p).toNat < 2 ^ 16 := by
  rw [foldedCheck, toNat_foldCheck, toNat_foldCheck]
  exact fold_fold_lt (addedCheck p).isLt

/-- **What is folded** is the one's-complement sum of the words. -/
theorem toNat_foldedCheck (p : List Byte) :
    (foldedCheck p).toNat = (sum (uint16.readArray 10 p)).toNat := by
  have hfolds : (foldedCheck p).toNat =
      fold 16 (fold 16 ((uint16.readArray 10 p).map BitVec.toNat).sum) := by
    rw [foldedCheck, toNat_foldCheck, toNat_foldCheck, toNat_addedCheck]
  refine eq_sum_of_fold (foldedCheck_lt p) ?_ ?_
  · rw [hfolds]
    exact (fold_modEq ..).trans (fold_modEq ..)
  · rw [hfolds, fold_eq_zero_iff, fold_eq_zero_iff]

theorem calcCheck_eq_sum (p : List Byte) : calcCheck p = ~~~ sum (uint16.readArray 10 p) := by
  have hsum : (foldedCheck p).setWidth 16 = sum (uint16.readArray 10 p) := by
    apply BitVec.eq_of_toNat_eq
    rw [BitVec.toNat_setWidth, Nat.mod_eq_of_lt (foldedCheck_lt p), toNat_foldedCheck]
  rw [calcCheck_eq, hsum]

/-! ### The header -/

/-- The ten words of a header, as they lie in memory. -/
def headerWords (h : IpHeader) : List (BitVec 16) := uint16.readArray 10 (IpHeader.layout.bytes h)

/-- The check is the sixth of them, and the others do not depend on it. -/
theorem headerWords_check (h : IpHeader) :
    ∃ xs ys, ∀ check, headerWords { h with check := check } = xs ++ check :: ys := by
  let front := uint8.bytes h.verHdrlen ++ (uint8.bytes h.service ++ (uint16.bytes h.len ++
    (uint16.bytes h.id ++ (uint16.bytes h.flagOffset ++ (uint8.bytes h.ttl ++
      uint8.bytes h.protocol)))))
  let back := uint32.bytes h.src ++ uint32.bytes h.dst
  have hfront : front.length = 10 := rfl
  refine ⟨uint16.readArray 5 front, uint16.readArray 4 back, fun check => ?_⟩
  have hbytes : IpHeader.layout.bytes { h with check := check } =
      front ++ (uint16.bytes check ++ back) := rfl
  have hdrop : (front ++ (uint16.bytes check ++ back)).drop 10 = uint16.bytes check ++ back :=
    List.drop_left' hfront
  have hwords : uint16.readArray 5 (front ++ (uint16.bytes check ++ back)) =
      uint16.readArray 5 front := by
    refine List.map_congr_left fun i hi => ?_
    have hi := List.mem_range.mp hi
    rw [show uint16.size = 2 from rfl, List.drop_append_of_le_length (by omega)]
    exact Struct.uint_read_append _ (by rw [List.length_drop]; omega) _
  have hrest : uint16.readArray 5 (uint16.bytes check ++ back) =
      check :: uint16.readArray 4 back := by
    have hone : uint16.readArray 1 (uint16.bytes check ++ back) = [check] :=
      congrArg (fun x => [x]) (uint16.read_append check back)
    rw [uint16.readArray_add 1 4, hone, Nat.mul_one, uint16.drop_append, List.singleton_append]
  rw [headerWords, hbytes, uint16.readArray_add 5 5, hwords, show uint16.size * 5 = 10 from rfl,
    hdrop, hrest]

/-- The check is put into a header that had a zero there. -/
theorem createIpHeader_eq (version : BitVec 8) (len id : BitVec 16) (ttl protocol : BitVec 8)
    (src dst : IPAddr) :
    ∃ h : IpHeader, h.check = 0 ∧ createIpHeader version len id ttl protocol src dst =
      { h with check := calcCheck (IpHeader.layout.bytes h) } :=
  ⟨_, rfl, rfl⟩

/-- **The checksum verifies.** Check included, the words of a header that was created add up to all
ones; and no ten words leave a carry after the second fold. -/
theorem createIpHeader_verifies (version : BitVec 8) (len id : BitVec 16) (ttl protocol : BitVec 8)
    (src dst : IPAddr) :
    sum (headerWords (createIpHeader version len id ttl protocol src dst)) = 0xffff ∧
      ∀ p : List Byte, calcCheck p = ~~~(foldedCheck p).setWidth 16 ∧
        (foldedCheck p).toNat < 2 ^ 16 := by
  refine ⟨?_, fun p => ⟨calcCheck_eq p, foldedCheck_lt p⟩⟩
  obtain ⟨h, hzero, hcreate⟩ := createIpHeader_eq version len id ttl protocol src dst
  obtain ⟨xs, ys, hwords⟩ := headerWords_check h
  have hbefore : headerWords h = xs ++ 0 :: ys := by
    rw [← hwords 0, ← hzero]
  have hcheck : calcCheck (IpHeader.layout.bytes h) = ~~~ sum (xs ++ 0 :: ys) := by
    rw [calcCheck_eq_sum, ← hbefore, headerWords]
  rw [hcreate, hwords, hcheck]
  exact sum_complement (by decide) xs ys

end LabNetstack
