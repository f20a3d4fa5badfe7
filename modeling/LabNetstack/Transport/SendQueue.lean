import LabNetstack.Transport.Threads

/-!
# The send ring of one writer

With a single thread in `writeLab` the size of a copy always still fits when it is made: between
the computation and the copy only acknowledgements can come in, and they make room. So for one
writer the send ring is an unbounded queue, whatever the peer sends.

## Main results

* `Threads.send_queue` — the send ring of a socket with one writer
-/

namespace LabNetstack

open RingMemory

namespace Threads

/-- The thread that takes a step in `writeLab`. -/
def Action.writer : Action → Option ℕ
  | .writeLab i _ | .lookWrite i | .copyWrite i => some i
  | _ => none

/-- No thread but `i` is in `writeLab`. -/
def OneWriter (i : ℕ) (act : Action) : Prop := ∀ j ∈ act.writer, j = i

instance (i : ℕ) (act : Action) : Decidable (OneWriter i act) :=
  inferInstanceAs (Decidable (∀ j ∈ act.writer, j = i))

/-- The send ring as a queue of the bytes that are written and not acknowledged. -/
structure SendQueue (s : Threads) : Prop where
  seqNum : s.socket.seqNum.setWidth 16 = s.socket.ackBack
  outstanding_le :
    s.socket.outstanding.toNat ≤ min 1024 (s.socket.sendFront - s.socket.ackBack).toNat
  acked_le : s.acked ≤ s.written.length
  holds : s.socket.unacked = s.written.drop s.acked
  /-- What is sent again is what has been sent last. -/
  resends : s.socket.sendBack ≠ s.socket.ackBack → ∀ nowtime,
    ∀ packet ∈ (asyncSendTCPPacket nowtime s.socket).2, s.transmitted.getLast? = some packet.data
  /-- The assertion of the acknowledgement branch. -/
  asserts : ∀ ackNum window, (acceptAck s.socket ackNum window).isSome

variable {s s' : Threads} {act : Action} {i : ℕ}

theorem WriteOk.sendQueue (h : s.WriteOk) : s.SendQueue where
  seqNum := h.aligned
  outstanding_le := by
    have hinFlight := h.length_inFlight
    have hunacked := h.length_unacked
    have hunsent := h.length_unsent
    have hsent := h.sent_le
    rw [Socket.inFlight, length_ring] at hinFlight
    rw [Socket.unacked, length_ring] at hunacked
    rw [Socket.outstanding]
    omega
  acked_le := h.kept.acked_le
  holds := h.unacked
  resends hout nowtime packet hpacket := by
    obtain ⟨-, ⟨-, hdata⟩ | ⟨hidle, -⟩⟩ := Socket.tick_cases nowtime s.socket
    · rw [h.last hout, hdata packet hpacket]
    · exact absurd hidle hout
  asserts := Solo.acceptAck_isSome h.aligned

/-! ### One writer -/

/-- Nothing that has been written is unwritten, and no acknowledgement is taken back. -/
theorem step_history (hs : step act s = some s') :
    s.written <+: s'.written ∧ s.acked ≤ s'.acked := by
  cases moves_of_step hs with
  | copyWrite i buf n hphase => exact ⟨List.prefix_append .., le_rfl⟩
  | segment packet k out hlen hk => exact ⟨List.prefix_rfl, Nat.le_add_right ..⟩
  | refused | writeLab | lookWrite | readLab | lookRead | copyRead | close | tick =>
    exact ⟨List.prefix_rfl, le_rfl⟩

/-- Only `i` is in `writeLab`, and the size it has computed still fits. -/
structure Sole (i : ℕ) (s : Threads) : Prop where
  idle : ∀ j, j ≠ i → s.writers j = .idle
  fits : (s.writers i).size ≤ s.socket.sendRoom

theorem Sole.fitsWrite (h : Sole i s) (hone : OneWriter i act) : FitsWrite act s := by
  cases act with
  | copyWrite j =>
    obtain rfl := hone j rfl
    exact h.fits
  | writeLab | lookWrite | readLab | lookRead | copyRead | close | tick | segment => trivial

/-- The one writer goes on to another phase. -/
theorem Sole.update (h : Sole i s) {phase : Phase (List Byte)}
    (hwriters : s'.writers = Function.update s.writers i phase)
    (hfits : phase.size ≤ s'.socket.sendRoom) : Sole i s' where
  idle j hj := by
    rw [hwriters, Function.update_of_ne hj]
    exact h.idle j hj
  fits := by
    rw [hwriters, Function.update_self]
    exact hfits

/-- **One writer.** What the others do only makes room. -/
theorem Sole.step (h : Sole i s) (hok : s.WriteOk) (hone : OneWriter i act)
    (hs : step act s = some s') : Sole i s' := by
  -- as long as nothing is written the room does not shrink
  have hmore : s'.written = s.written → s'.writers = s.writers → Sole i s' := by
    intro hwritten hwriters
    have hok' := hok.step (h.fitsWrite hone) hs
    have hlen := hok.length_unacked
    have hlen' := hok'.length_unacked
    have hroom := s.socket.length_unacked_add
    have hroom' := s'.socket.length_unacked_add
    have hacked := (step_history hs).2
    have hfits := h.fits
    rw [hwritten] at hlen'
    refine ⟨by rw [hwriters]; exact h.idle, ?_⟩
    rw [hwriters]
    omega
  cases moves_of_step hs with
  | writeLab j buf =>
    obtain rfl := hone j rfl
    exact h.update rfl (Nat.zero_le _)
  | lookWrite j phase hphase =>
    obtain rfl := hone j rfl
    refine h.update rfl ?_
    rcases Phase.size_look hphase with hzero | ⟨buf, hsize⟩
    · rw [hzero]
      exact Nat.zero_le _
    · rw [hsize, sendByte, toNat_clamp]
      exact Nat.min_le_right ..
  | copyWrite j buf n hphase =>
    obtain rfl := hone j rfl
    exact h.update rfl (Nat.zero_le _)
  | refused | readLab | lookRead | copyRead | close | tick | segment => exact hmore rfl rfl

/-- A run with one writer. -/
theorem sole_run {acts : List Action} (hone : ∀ act ∈ acts, OneWriter i act)
    (hrun : Run.run step acts s = some s') (h : s.WriteOk ∧ Sole i s) : s'.WriteOk ∧ Sole i s' :=
  Run.Leads.invariant (q := fun t => t.WriteOk ∧ Sole i t)
    (fun _ _ _ hact ht hs => ⟨ht.1.step (ht.2.fitsWrite hact) hs, ht.2.step ht.1 hact hs⟩)
    ⟨acts, hone, hrun⟩ h

/-- **The send ring.** With one writer, any peer and any number of readers, the send ring is a
queue of what has been written and is not acknowledged. What stays unacknowledged stays as it is. -/
theorem send_queue {k : Socket} (hk : Solo.Connected k) {acts : List Action}
    (hone : ∀ act ∈ acts, OneWriter i act) (hrun : Run.run step acts (start k) = some s) :
    s.SendQueue ∧ ∀ more s', (∀ act ∈ more, OneWriter i act) → Run.run step more s = some s' →
      s.acked ≤ s'.acked ∧ s.socket.unacked.drop (s'.acked - s.acked) <+: s'.socket.unacked := by
  have hstart : (start k).WriteOk ∧ Sole i (start k) :=
    ⟨(start_ok hk).write, fun _ _ => rfl, Nat.zero_le _⟩
  have hs := sole_run hone hrun hstart
  refine ⟨hs.1.sendQueue, fun more s' hmore hrun' => ?_⟩
  have hs' := sole_run hmore hrun' hs
  obtain ⟨⟨later, hlater⟩, hacked⟩ : s.written <+: s'.written ∧ s.acked ≤ s'.acked := by
    refine Run.invariant (p := fun t => s.written <+: t.written ∧ s.acked ≤ t.acked) ?_
      ⟨List.prefix_rfl, le_rfl⟩ hrun'
    intro act t t' ht hstep
    obtain ⟨hpre, hle⟩ := step_history hstep
    exact ⟨ht.1.trans hpre, ht.2.trans hle⟩
  refine ⟨hacked, ?_⟩
  rw [hs.1.unacked, hs'.1.unacked, List.drop_drop, Nat.add_sub_cancel' hacked, ← hlater]
  exact List.IsPrefix.drop (List.prefix_append ..) _

/-- A byte is written and sent. -/
def firstSegment : List Action :=
  [.writeLab 0 [7], .lookWrite 0, .copyWrite 0, .tick 1]

theorem send_queue_firstSegment :
    let s := (Run.run step firstSegment (start Solo.answeredClient)).get (by decide)
    s.SendQueue :=
  (send_queue (i := 0) Solo.connected_answeredClient (by decide)
    (Option.some_get (x := Run.run step firstSegment (start Solo.answeredClient))
      (by decide)).symm).1

end Threads

end LabNetstack
