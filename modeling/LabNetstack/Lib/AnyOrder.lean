import LabNetstack.Lib.StopAndWait

/-!
# Stop and wait in any order

The two ends of `StopAndWait` over a network that keeps nothing in order: whatever has been sent
may arrive at any time, any number of times, or never. So there are no channels here, only what has
been sent so far in each direction.

Of the ends this keeps all that `Inv` says of them; of each message, what does not depend on its
place. An old segment does not continue the stream, and an old acknowledgement that still names the
end of what was sent has at worst a right edge that the receiver has moved on from: none of them
does harm.

## Main results

* `Loose.transmit`, `Loose.repeatCurrent`, `Loose.finish`, `Loose.onAck`, `Loose.onSegment`,
  `Loose.write`, `Loose.take` — every step keeps the invariant, whatever arrives
-/

namespace StopAndWait

variable {α : Type*}

/-- What is known of every segment that was ever sent. -/
structure SegmentSent (s : Sender α) (m : Segment α) : Prop where
  seq_le : m.seq ≤ s.acked
  items : m.bytes <+: s.written.drop m.seq
  whole : m.seq = s.acked → m.bytes ≠ [] → m.seq + m.bytes.length = s.sent
  fin : m.fin = true → m.bytes = [] ∧ s.fin = true ∧ m.seq = s.acked

/-- What is known of every acknowledgement that was ever sent. -/
structure AckSent (cap : ℕ) (r : Receiver α) (a : Ack) : Prop where
  num_le : a.num ≤ r.accepted.length
  win_le : a.win ≤ cap
  edge : a.num + a.win ≤ r.taken + cap
  fin : a.fin = true → r.fin = true ∧ a.num = r.accepted.length

/-- The invariant of one direction: both ends, and everything that was ever sent. -/
structure Loose (cap mss : ℕ) (s : Sender α) (r : Receiver α) (fwd : List (Segment α))
    (bwd : List Ack) : Prop where
  ends : Inv cap mss s r [] []
  fwd_sent : ∀ m ∈ fwd, SegmentSent s m
  bwd_sent : ∀ a ∈ bwd, AckSent cap r a

variable {cap mss : ℕ} {s : Sender α} {r : Receiver α} {fwd : List (Segment α)} {bwd : List Ack}

/-! ### One message -/

/-- A segment that is not too old, on its own. -/
theorem SegmentSent.inv {m : Segment α} (hm : SegmentSent s m) (h : Inv cap mss s r [] [])
    (hrecent : r.accepted.length ≤ m.seq + mss) : Inv cap mss s r [m] [] :=
  { h with
    fwd_sorted := List.pairwise_singleton ..
    fwd_ok := by
      rintro m' hm'
      obtain rfl := List.mem_singleton.mp hm'
      exact ⟨hm.seq_le, hrecent, hm.items, hm.whole, fun hf => ⟨(hm.fin hf).1, (hm.fin hf).2.1⟩⟩ }

/-- An acknowledgement of something that is not acknowledged yet, on its own. -/
theorem AckSent.inv {a : Ack} (ha : AckSent cap r a) (h : Inv cap mss s r [] [])
    (hacked : s.acked ≤ a.num) : Inv cap mss s r [] [a] :=
  { h with
    bwd_sorted := List.pairwise_singleton ..
    bwd_ok := by
      rintro a' ha'
      obtain rfl := List.mem_singleton.mp ha'
      exact ⟨hacked, ha.num_le, ha.win_le, ha.edge, fun hf => (ha.fin hf).1⟩ }

namespace Loose

/-- The answer to the final marker is never taken for the acknowledgement of data, however old it
is. -/
theorem ack_eq_sent_iff (h : Loose cap mss s r fwd bwd) {a : Ack} (ha : a ∈ bwd) :
    a.value = s.sent ↔ a.fin = false ∧ a.num = s.sent := by
  cases hfin : a.fin with
  | false => simp [Ack.value, hfin]
  | true =>
    obtain ⟨hrecv, hnum⟩ := (h.bwd_sent a ha).fin hfin
    obtain ⟨hsent, -, hacc, -⟩ := h.ends.complete (h.ends.fin_recv hrecv)
    simp only [Ack.value, hfin, Bool.toNat_true, Bool.true_eq_false, false_and, iff_false]
    omega

/-- Numbers that arrive are not ahead of what was sent, but for the final marker. -/
theorem value_le (h : Loose cap mss s r fwd bwd) {a : Ack} (ha : a ∈ bwd) :
    a.value ≤ s.sent + 1 := by
  have hnum := (h.bwd_sent a ha).num_le
  have hacc := h.ends.acc_le
  have hfin := Bool.toNat_le a.fin
  rw [Ack.value]
  omega

/-- **A segment that continues the stream** starts where the outstanding items start, and fits. -/
theorem fits (h : Loose cap mss s r fwd bwd) {m : Segment α} (hm : m ∈ fwd)
    (hseq : m.seq = r.accepted.length) (hne : m.bytes ≠ []) :
    r.accepted.length + m.bytes.length = s.sent ∧ m.bytes.length ≤ r.free cap :=
  ((h.fwd_sent m hm).inv h.ends (by omega)).fits (List.mem_cons_self ..) hseq hne

/-! ### The sender's steps -/

theorem push_fwd (h : Loose cap mss s r fwd bwd) {m : Segment α} (hm : SegmentSent s m) :
    Loose cap mss s r (fwd ++ [m]) bwd where
  ends := h.ends
  fwd_sent m' hm' := by
    rcases List.mem_append.mp hm' with hold | hnew
    · exact h.fwd_sent m' hold
    · exact List.mem_singleton.mp hnew ▸ hm
  bwd_sent := h.bwd_sent

theorem push_bwd (h : Loose cap mss s r fwd bwd) {fin : Bool} (hfin : fin = true → r.fin = true) :
    Loose cap mss s r fwd (bwd ++ [r.ack cap fin]) where
  ends := h.ends
  fwd_sent := h.fwd_sent
  bwd_sent a ha := by
    rcases List.mem_append.mp ha with hold | hnew
    · exact h.bwd_sent a hold
    · have hok := (h.ends.push_bwd hfin).bwd_ok a hnew
      obtain rfl := List.mem_singleton.mp hnew
      exact ⟨hok.num_le, hok.win_le, hok.edge, fun hf => ⟨hok.fin hf, rfl⟩⟩

theorem write (h : Loose cap mss s r fwd bwd) (hopen : s.fin = false) {bs : List α}
    (hroom : s.written.length + bs.length ≤ s.acked + cap) :
    Loose cap mss (s.write bs) r fwd bwd where
  ends := h.ends.write hopen hroom
  fwd_sent m hm :=
    { h.fwd_sent m hm with
      items := by
        have hseq : m.seq ≤ s.written.length :=
          (h.fwd_sent m hm).seq_le.trans (h.ends.acked_le_sent.trans h.ends.sent_le)
        rw [Sender.write, List.drop_append_of_le_length hseq]
        exact (h.fwd_sent m hm).items.trans (List.prefix_append ..) }
  bwd_sent := h.bwd_sent

theorem repeatCurrent (h : Loose cap mss s r fwd bwd) :
    Loose cap mss s r (fwd ++ [s.current]) bwd := by
  refine h.push_fwd ⟨le_rfl, Sender.pending_isPrefix, ?_, ?_⟩
  · intro _ _
    have := h.ends.length_pending
    have := h.ends.acked_le_sent
    simp only [Sender.seq_current, Sender.bytes_current]
    omega
  · simp

theorem transmit (h : Loose cap mss s r fwd bwd) (hidle : s.sent = s.acked) {n : ℕ} (hpos : 0 < n)
    (hmss : n ≤ mss) (hwin : n ≤ s.window) (havail : s.sent + n ≤ s.written.length) :
    Loose cap mss (s.transmit n) r (fwd ++ [(s.transmit n).current]) bwd := by
  refine repeatCurrent ⟨?_, fun m hm => ?_, h.bwd_sent⟩
  · exact (h.ends.transmit hidle hpos hmss hwin havail).degrades_fwd (.lose [] _ [])
  · exact
      { h.fwd_sent m hm with
        whole := fun hseq hne => by
          -- an idle sender has never sent an item of its current position
          have hw := (h.fwd_sent m hm).whole hseq hne
          have hlen := List.length_pos_of_ne_nil hne
          simp only [Sender.transmit] at hseq
          omega }

theorem finish (h : Loose cap mss s r fwd bwd) (hdrained : s.acked = s.written.length) :
    Loose cap mss s.finish r (fwd ++ [s.finish.finSegment]) bwd := by
  have hfin : Loose cap mss s.finish r fwd bwd :=
    { ends := (h.ends.finish hdrained).degrades_fwd (.lose [] _ [])
      fwd_sent := fun m hm => { h.fwd_sent m hm with
        fin := fun hf => ⟨((h.fwd_sent m hm).fin hf).1, rfl, ((h.fwd_sent m hm).fin hf).2.2⟩ }
      bwd_sent := h.bwd_sent }
  exact hfin.push_fwd ⟨le_rfl, List.nil_prefix, by simp [Sender.finSegment],
    fun _ => ⟨rfl, rfl, rfl⟩⟩

/-- **Any acknowledgement** arrives, for the first time or again. -/
theorem onAck (h : Loose cap mss s r fwd bwd) {a : Ack} (ha : a ∈ bwd) :
    Loose cap mss (s.onAck a) r fwd bwd := by
  by_cases hval : a.value = s.sent
  swap
  · rwa [Sender.onAck, if_neg hval]
  have hnum := ((h.ack_eq_sent_iff ha).mp hval).2
  have hacked := h.ends.acked_le_sent
  have hends := ((h.bwd_sent a ha).inv h.ends (by omega)).onAck
  rw [Sender.onAck, if_pos hval] at hends ⊢
  refine ⟨hends, fun m hm => ?_, h.bwd_sent⟩
  have hm' := h.fwd_sent m hm
  have hle := hm'.seq_le
  refine ⟨by simp only; omega, hm'.items, fun hseq hne => ?_, fun hf => ?_⟩
  · simp only at hseq
    exact hm'.whole (by omega) hne
  · obtain ⟨hnil, hsfin, hseq⟩ := hm'.fin hf
    obtain ⟨-, hsame, -⟩ := h.ends.complete hsfin
    exact ⟨hnil, hsfin, by simp only; omega⟩

/-! ### The receiver's steps -/

theorem take (h : Loose cap mss s r fwd bwd) {n : ℕ} (hn : r.taken + n ≤ r.accepted.length) :
    Loose cap mss s (r.take n) fwd bwd where
  ends := h.ends.take hn
  fwd_sent := h.fwd_sent
  bwd_sent a ha :=
    { h.bwd_sent a ha with
      edge := by
        have := (h.bwd_sent a ha).edge
        simp only [Receiver.take]
        omega }

/-- **Any segment** arrives, for the first time or again. -/
theorem onSegment (h : Loose cap mss s r fwd bwd) {m : Segment α} (hm : m ∈ fwd) :
    Loose cap mss s (r.onSegment cap m).1 fwd (bwd ++ (r.onSegment cap m).2.toList) := by
  have hm' := h.fwd_sent m hm
  rw [Receiver.onSegment]
  split_ifs with hfin hseq
  · have hends := (hm'.inv h.ends (by
      have hacc := (h.ends.complete (hm'.fin hfin).2.1).2
      have hseq := (hm'.fin hfin).2.2
      have hsent := (h.ends.complete (hm'.fin hfin).2.1).1
      omega)).onSegment
    rw [Receiver.onSegment, if_pos hfin] at hends
    have hmark : Loose cap mss s { r with fin := true } fwd bwd :=
      { ends := hends.degrades_bwd (.lose [] _ [])
        fwd_sent := h.fwd_sent
        bwd_sent := fun a ha => { h.bwd_sent a ha with
          fin := fun hf => ⟨rfl, ((h.bwd_sent a ha).fin hf).2⟩ } }
    exact hmark.push_bwd fun _ => rfl
  · refine push_bwd ?_ (by simp)
    by_cases hne : m.bytes = []
    · simpa [Receiver.accept, hne] using h
    have hends := (hm'.inv h.ends (by omega)).accept hseq hne
    refine ⟨hends, h.fwd_sent, fun a ha => ?_⟩
    refine { h.bwd_sent a ha with
      num_le := (h.bwd_sent a ha).num_le.trans (by simp [Receiver.accept])
      fin := fun hf => ?_ }
    -- behind the final marker there is nothing to accept
    obtain ⟨-, -, hacc, -⟩ := h.ends.complete (h.ends.fin_recv ((h.bwd_sent a ha).fin hf).1)
    have hnil := hm'.items
    rw [hseq, hacc, List.drop_length, List.prefix_nil] at hnil
    exact absurd hnil hne
  · simpa using h

/-- Both ends fresh. -/
theorem start (r₀ : Receiver α) (hr : r₀ = ⟨[], 0, false⟩) :
    Loose cap mss (⟨[], 0, 0, cap, false⟩ : Sender α) r₀ [] [] :=
  ⟨.start r₀ hr, by simp, by simp⟩

end Loose

end StopAndWait
