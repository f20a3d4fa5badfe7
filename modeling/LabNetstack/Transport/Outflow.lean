import LabNetstack.Transport.Intake

/-!
# What an open socket sends

The send side of a socket, for any position of the pointers: its ring is cut in two by `sendBack`,
into what is in flight and what has not been sent. A round of the timer repeats the one or takes
the next segment from the other; an acknowledgement that is accepted drops the first.

## Main results

* `Socket.tick_cases` — a round of the timer
* `Socket.segment_cases` — the send side after a segment
-/

namespace LabNetstack

open RingMemory

namespace Socket

variable {k k' : Socket}

/-- The send ring's contents: the bytes written and not acknowledged yet. -/
def unacked (k : Socket) : List Byte := ring k.writeBuffer k.ackBack k.sendFront

/-- The bytes written and not sent yet. -/
def unsent (k : Socket) : List Byte := ring k.writeBuffer k.sendBack k.sendFront

/-- The bytes sent and not acknowledged yet. -/
def inFlight (k : Socket) : List Byte := ring k.writeBuffer k.ackBack k.sendBack

/-- The free space of the send ring. -/
def sendRoom (k : Socket) : ℕ := (k.ackBack - 1 - k.sendFront).toNat

theorem length_unacked_add (k : Socket) : k.unacked.length + k.sendRoom = 65535 := by
  rw [unacked, sendRoom, length_ring, Nat.add_comm, toNat_room_add]

theorem inFlight_eq_nil_iff : k.inFlight = [] ↔ k.sendBack = k.ackBack := ring_eq_nil_iff

/-! ### The timer -/

/-- The segment that is chosen. -/
theorem chooseSegment_cases (now : ℕ) (k : Socket) :
    (∃ t, chooseSegment now k = ({ k with resendTime := t }, none)) ∨
      (∃ t, chooseSegment now k = ({ k with resendTime := t }, some (k.ackBack, k.sendBack))) ∨
      k.sendBack = k.ackBack ∧ ∃ (t : ℕ) (len : BitVec 16), 0 < len.toNat ∧ len.toNat ≤ 1024 ∧
        len.toNat ≤ (k.sendFront - k.sendBack).toNat ∧ chooseSegment now k =
          ({ k with sendBack := k.sendBack + len, resendTime := t },
            some (k.sendBack, k.sendBack + len)) := by
  have hlen := toNat_ite_lt (k.sendFront - k.sendBack) (k.ackFront - k.sendBack)
  simp only [chooseSegment]
  generalize (if k.sendFront - k.sendBack < k.ackFront - k.sendBack then k.sendFront - k.sendBack
    else k.ackFront - k.sendBack) = len at hlen
  have hclamp := toNat_ite_lt maxTCPLen len
  generalize (if maxTCPLen < len then maxTCPLen else len) = clamped at hclamp
  split_ifs with hout htimer hwindow htimer hpos
  · exact Or.inr (Or.inl ⟨_, rfl⟩)
  · exact Or.inl ⟨_, rfl⟩
  · exact Or.inr (Or.inl ⟨_, rfl⟩)
  · exact Or.inl ⟨_, rfl⟩
  · refine Or.inr (Or.inr ⟨not_not.mp hout, _, clamped, ?_, ?_, ?_, rfl⟩)
    all_goals
      rw [zero_lt_iff_toNat] at hpos
      rw [show maxTCPLen.toNat = 1024 from rfl] at hclamp
      omega
  · exact Or.inl ⟨_, rfl⟩

/-- The `FIN` carries no data, and is sent only with nothing in flight. -/
theorem data_sendFin (now : ℕ) (k : Socket) :
    ∀ packet ∈ (sendFin now k).2, packet.data = [] ∧ k.sendBack = k.ackBack := by
  simp only [sendFin]
  split_ifs with hidle
  · intro packet hpacket
    rw [List.mem_singleton.mp hpacket]
    exact ⟨rfl, hidle.1.symm⟩
  all_goals simp

/-- **A round of the timer.** What is in flight is sent again, or the next segment is taken from
what has not been sent. -/
theorem tick_cases (now : ℕ) (k : Socket) :
    (asyncSendTCPPacket now k).1 = { k with
      sendBack := (asyncSendTCPPacket now k).1.sendBack
      resendTime := (asyncSendTCPPacket now k).1.resendTime
      clstate := (asyncSendTCPPacket now k).1.clstate } ∧
    (((asyncSendTCPPacket now k).1.sendBack = k.sendBack ∧
        ∀ packet ∈ (asyncSendTCPPacket now k).2, packet.data = k.inFlight) ∨
      (k.sendBack = k.ackBack ∧ ∃ len : BitVec 16, 0 < len.toNat ∧ len.toNat ≤ 1024 ∧
        len.toNat ≤ k.unsent.length ∧ (asyncSendTCPPacket now k).1.sendBack = k.sendBack + len ∧
        (asyncSendTCPPacket now k).2.map TCPPacket.data = [k.unsent.take len.toNat])) := by
  rw [asyncSendTCPPacket]
  split_ifs
  · exact ⟨rfl, Or.inl ⟨rfl, by simp⟩⟩
  · simp only
    rcases chooseSegment_cases now k with ⟨t, h⟩ | ⟨t, h⟩ | ⟨hidle, t, len, hpos, hmss, hlen, h⟩
    · rw [show sendSegment now k = ({ k with resendTime := t }, []) by rw [sendSegment, h],
        sendFin_frame]
      refine ⟨rfl, Or.inl ⟨rfl, fun packet hpacket => ?_⟩⟩
      obtain ⟨hdata, hback⟩ := data_sendFin now { k with resendTime := t } packet hpacket
      have hnil : k.inFlight = [] := inFlight_eq_nil_iff.mpr hback
      rw [hdata, hnil]
    · obtain ⟨packet₀, hpacket₀, hsegment⟩ : ∃ packet : TCPPacket, packet.data = k.inFlight ∧
          sendSegment now k = ({ k with resendTime := t }, [packet]) :=
        ⟨_, copyOutBetween_eq_ring, by rw [sendSegment, h]⟩
      rw [hsegment, sendFin_frame]
      refine ⟨rfl, Or.inl ⟨rfl, fun packet hpacket => ?_⟩⟩
      rcases List.mem_cons.mp hpacket with rfl | hfin
      · exact hpacket₀
      · obtain ⟨hdata, hback⟩ := data_sendFin now { k with resendTime := t } packet hfin
        have hnil : k.inFlight = [] := inFlight_eq_nil_iff.mpr hback
        rw [hdata, hnil]
    · obtain ⟨packet₀, hpacket₀, hsegment⟩ : ∃ packet : TCPPacket,
          packet.data = k.unsent.take len.toNat ∧ sendSegment now k
            = ({ k with sendBack := k.sendBack + len, resendTime := t }, [packet]) :=
        ⟨_, copyOutBetween_eq_ring.trans (ring_take_eq hlen), by rw [sendSegment, h]⟩
      rw [hsegment, sendFin_frame]
      refine ⟨rfl, Or.inr ⟨hidle, len, hpos, hmss, by rw [unsent, length_ring]; exact hlen,
        rfl, ?_⟩⟩
      -- what has just been sent is in flight, so there is no `FIN`
      have hnofin :
          (sendFin now { k with sendBack := k.sendBack + len, resendTime := t }).2 = [] := by
        rw [List.eq_nil_iff_forall_not_mem]
        intro packet hpacket
        have hback : k.sendBack + len = k.ackBack := (data_sendFin now _ packet hpacket).2
        rw [← hidle] at hback
        have hzero : len = 0 := BitVec.add_right_eq_self.mp hback
        rw [hzero] at hpos
        exact absurd hpos (by decide)
      rw [hnofin]
      simp [hpacket₀]

end Socket

/-! ### Segments -/

namespace Socket

variable {k k' : Socket} {packet : TCPPacket} {out : List TCPPacket}

/-- No segment changes what has been written. -/
theorem handleTCPMain_writeBuffer (h : handleTCPMain k packet = some (k', out)) :
    k'.writeBuffer = k.writeBuffer := by
  rw [handleTCPMain] at h
  split at h
  · obtain ⟨rfl, -⟩ := Prod.mk.inj (Option.some.inj h)
    rfl
  · simp only [TCPHandleSyssent] at h
    split_ifs at h
    all_goals
      obtain ⟨rfl, -⟩ := Prod.mk.inj (Option.some.inj h)
      rfl
  · simp only [TCPHandleSysrecv] at h
    split_ifs at h
    all_goals
      obtain ⟨rfl, -⟩ := Prod.mk.inj (Option.some.inj h)
      rfl
  · obtain ⟨k₁, dataAnswer, hack, hdata, -⟩ := established_eq_some_iff.mp h
    rw [handleData_eq hdata, handleFin_eq, handleAck_eq hack]
  · cases h

/-- **The send side after a segment.** Nothing changes, or all that is in flight is acknowledged. -/
theorem segment_cases (hstate : k.state = .establisted ∨ k.state = .closed)
    (h : handleTCPMain k packet = some (k', out)) :
    k'.sendBack = k.sendBack ∧ k'.sendFront = k.sendFront ∧
      (k'.ackBack = k.ackBack ∨ k'.ackBack = k.sendBack) := by
  obtain ⟨-, hside | ⟨-, -, -, hside⟩⟩ := Solo.handleTCPMain_cases hstate h
  · exact ⟨congrArg SendSide.sendBack hside, congrArg SendSide.sendFront hside,
      Or.inl (congrArg SendSide.ackBack hside)⟩
  · exact ⟨congrArg SendSide.sendBack hside, congrArg SendSide.sendFront hside,
      Or.inr (congrArg SendSide.ackBack hside)⟩

end Socket

end LabNetstack
