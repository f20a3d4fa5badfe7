import LabNetstack.Lib.Run
import LabNetstack.Lib.WrapCounter
import LabNetstack.Transport.MainThread

/-!
# Which acknowledgements move the sender

One socket on its own, and a network that may deliver any segment at any time: delayed, repeated,
reordered or forged. The sender should move only for the number behind the last byte it has sent.
The handler compares the low 16 bits of the number with `sendBack`, then takes over all 32: a
number that is wrong in the upper half is accepted.

The bytes put on the wire are counted without wrap-around, next to the socket.

## Main results

* `Solo.ack_law` — the exact condition on a segment, and what follows for runs that meet it
* `Solo.not_ack_law` — an acknowledgement 64 KiB ahead moves the sender
-/

namespace LabNetstack

open WrapCounter

/-! ### What the blocks of the handler leave alone -/

/-- The fields of the send side that an acknowledgement may touch. -/
structure SendSide where
  ackBack : BitVec 16
  ackFront : BitVec 16
  sendBack : BitVec 16
  sendFront : BitVec 16
  seqNum : BitVec 32
deriving DecidableEq

namespace Socket

variable {k k' : Socket}

def sendSide (k : Socket) : SendSide := ⟨k.ackBack, k.ackFront, k.sendBack, k.sendFront, k.seqNum⟩

/-- `sendBack - ackBack`, the number of bytes sent and not acknowledged. -/
def outstanding (k : Socket) : BitVec 16 := k.sendBack - k.ackBack

theorem closeOnAck_frame (k : Socket) :
    (closeOnAck k).sendSide = k.sendSide ∧
      ((closeOnAck k).state = k.state ∨ (closeOnAck k).state = .closed) := by
  simp only [closeOnAck]
  split_ifs <;> simp [sendSide]

theorem handleFin_frame (k : Socket) (tcpHeader : TCPHeader) :
    (handleFin k tcpHeader).1.sendSide = k.sendSide ∧
      (handleFin k tcpHeader).1.state = k.state := by
  rw [handleFin]
  split_ifs <;> exact ⟨rfl, rfl⟩

theorem handleData_frame {data : List Byte} {tcpHeader : TCPHeader} {out : List TCPPacket}
    (h : handleData k data tcpHeader = some (k', out)) :
    k'.sendSide = k.sendSide ∧ k'.state = k.state := by
  simp only [handleData] at h
  split_ifs at h
  all_goals
    obtain ⟨rfl, -⟩ := Prod.mk.inj (Option.some.inj h)
    exact ⟨rfl, rfl⟩

theorem acceptAck_state {ackNum : BitVec 32} {window : BitVec 16}
    (h : acceptAck k ackNum window = some k') : k'.state = k.state := by
  simp only [acceptAck] at h
  split_ifs at h
  all_goals rw [← Option.some.inj h]

/-- The send side after a segment is decided by the acknowledgement branch. -/
theorem established_frame {packet : TCPPacket} {out : List TCPPacket}
    (h : TCPHandleEstablished k packet = some (k', out)) :
    (k'.state = k.state ∨ k'.state = .closed) ∧
      if packet.tcpHeader.ctrl &&& ctAck ≠ 0 then
        ∃ k₁, acceptAck k (htonl packet.tcpHeader.ackNum) (htons packet.tcpHeader.window)
          = some k₁ ∧ k'.sendSide = k₁.sendSide
      else k'.sendSide = k.sendSide := by
  simp only [TCPHandleEstablished, handleAck] at h
  split_ifs at h ⊢ with hack
  · cases hacc : acceptAck k (htonl packet.tcpHeader.ackNum) (htons packet.tcpHeader.window) with
    | none => simp [hacc] at h
    | some k₁ =>
      simp only [hacc, Option.map_some] at h
      split at h
      · cases h
      · next k₂ out₂ hdata =>
        obtain ⟨rfl, -⟩ := Prod.mk.inj (Option.some.inj h)
        obtain ⟨hside, hstate⟩ := handleData_frame hdata
        obtain ⟨hside', hstate'⟩ := handleFin_frame (closeOnAck k₁) { packet.tcpHeader with
          seqNum := htonl packet.tcpHeader.seqNum
          ackNum := htonl packet.tcpHeader.ackNum
          window := htons packet.tcpHeader.window }
        obtain ⟨hside'', hstate''⟩ := closeOnAck_frame k₁
        refine ⟨?_, k₁, rfl, by rw [hside, hside', hside'']⟩
        rw [hstate, hstate', ← acceptAck_state hacc]
        exact hstate''
  · simp only at h
    split at h
    · cases h
    · next k₂ out₂ hdata =>
      obtain ⟨rfl, -⟩ := Prod.mk.inj (Option.some.inj h)
      obtain ⟨hside, hstate⟩ := handleData_frame hdata
      obtain ⟨hside', hstate'⟩ := handleFin_frame k { packet.tcpHeader with
        seqNum := htonl packet.tcpHeader.seqNum
        ackNum := htonl packet.tcpHeader.ackNum
        window := htons packet.tcpHeader.window }
      exact ⟨Or.inl (hstate.trans hstate'), hside.trans hside'⟩

/-! ### What the other operations leave alone -/

theorem writeLab_frame {buf : List Byte} {n : ℤ} (h : writeLab k buf = some (n, k')) :
    k' = { k with writeBuffer := k'.writeBuffer, sendFront := k'.sendFront } := by
  rw [writeLab] at h
  split_ifs at h
  all_goals
    obtain ⟨-, rfl⟩ := Prod.mk.inj (Option.some.inj h)
    rfl

theorem readLab_frame {nbyte : ℕ} {bytes : List Byte} (h : readLab k nbyte = some (bytes, k')) :
    k' = { k with recvBack := k'.recvBack } := by
  rw [readLab] at h
  split_ifs at h
  all_goals
    obtain ⟨-, rfl⟩ := Prod.mk.inj (Option.some.inj h)
    rfl

theorem chooseSegment_frame (now : ℕ) (k : Socket) :
    (chooseSegment now k).1
        = { k with resendTime := (chooseSegment now k).1.resendTime } ∨
      k.sendBack = k.ackBack ∧ ∃ len : BitVec 16, (chooseSegment now k).1
        = { k with sendBack := k.sendBack + len, resendTime := now + resendInterval } := by
  simp only [chooseSegment]
  generalize (if k.sendFront - k.sendBack < k.ackFront - k.sendBack then k.sendFront - k.sendBack
    else k.ackFront - k.sendBack) = len
  generalize (if maxTCPLen < len then maxTCPLen else len) = clamped
  split_ifs with hout htimer hwindow htimer hpos
  · exact Or.inl rfl
  · exact Or.inl rfl
  · exact Or.inl rfl
  · exact Or.inl rfl
  · exact Or.inr ⟨not_not.mp hout, clamped, rfl⟩
  · exact Or.inl rfl

theorem sendSegment_fst (now : ℕ) (k : Socket) :
    (sendSegment now k).1 = (chooseSegment now k).1 := by
  rw [sendSegment]
  rcases chooseSegment now k with ⟨k', - | ⟨first, last⟩⟩ <;> rfl

theorem sendFin_frame (now : ℕ) (k : Socket) :
    (sendFin now k).1 = { k with
      clstate := (sendFin now k).1.clstate
      resendTime := (sendFin now k).1.resendTime } := by
  simp only [sendFin]
  split_ifs <;> rfl

/-- A tick only ever moves `sendBack`, and only when nothing is outstanding. -/
theorem asyncSendTCPPacket_frame (now : ℕ) (k : Socket) :
    (asyncSendTCPPacket now k).1.ackBack = k.ackBack ∧
      (asyncSendTCPPacket now k).1.seqNum = k.seqNum ∧
      (asyncSendTCPPacket now k).1.state = k.state ∧
      ((asyncSendTCPPacket now k).1.sendBack = k.sendBack ∨ k.sendBack = k.ackBack) := by
  rw [asyncSendTCPPacket]
  split_ifs
  · exact ⟨rfl, rfl, rfl, Or.inl rfl⟩
  · simp only
    rw [sendFin_frame, sendSegment_fst]
    rcases chooseSegment_frame now k with h | ⟨hidle, len, h⟩
    · rw [h]
      exact ⟨rfl, rfl, rfl, Or.inl rfl⟩
    · rw [h]
      exact ⟨rfl, rfl, rfl, Or.inr hidle⟩

end Socket

/-! ### One socket and an arbitrary network -/

/-- A socket, and how many bytes it has put on the wire so far. -/
structure Solo where
  socket : Socket
  sent : ℕ

namespace Solo

inductive Action
  | write (buf : List Byte)
  | read (nbyte : ℕ)
  | close
  | tick (nowtime : ℕ)
  | segment (packet : TCPPacket)

def step : Action → Solo → Option Solo
  | .write buf, s => (writeLab s.socket buf).map fun (_, k) => { s with socket := k }
  | .read nbyte, s => (readLab s.socket nbyte).map fun (_, k) => { s with socket := k }
  | .close, s => some { s with socket := closeLab s.socket }
  | .tick nowtime, s =>
    let k := (asyncSendTCPPacket nowtime s.socket).1
    some ⟨k, s.sent + (k.sendBack - s.socket.sendBack).toNat⟩
  | .segment packet, s => (handleTCPMain s.socket packet).map fun (k, _) => { s with socket := k }

/-- A socket that has just become `ESTABLISHED`, on either side and whatever the segments of the
handshake were. -/
inductive Connected : Socket → Prop
  | client (socket : Socket) (port desport : Port) (device desaddr : IPAddr) (packet : TCPPacket)
      (h : (TCPHandleSyssent (connectLab socket port device desaddr desport).1 packet).1.state
        = .establisted) :
      Connected (TCPHandleSyssent (connectLab socket port device desaddr desport).1 packet).1
  | server (listener connectSocket child : Socket) (syn synAck packet : TCPPacket)
      (hchild : TCPHandleListen listener connectSocket syn = some (child, synAck))
      (h : (TCPHandleSysrecv child packet).1.state = .establisted) :
      Connected (TCPHandleSysrecv child packet).1

def Reachable (s : Solo) : Prop :=
  ∃ k acts, Connected k ∧ Run.run step acts ⟨k, 0⟩ = some s

theorem Connected.fresh {k : Socket} (h : Connected k) :
    k.state = .establisted ∧ k.sendBack = 0 ∧ k.ackBack = 0 ∧ k.seqNum = 0 ∧ k.sendFront = 0 ∧
      k.recvFront = 0 ∧ k.recvBack = 0 := by
  have hone : (-1 : BitVec 32) + 1 = 0 := by decide
  cases h with
  | client socket port desport device desaddr packet h =>
    have hstate : (connectLab socket port device desaddr desport).1.state = .sysSent := rfl
    have hseq : (connectLab socket port device desaddr desport).1.seqNum = -1 := rfl
    generalize (connectLab socket port device desaddr desport).1 = k₀ at h hstate hseq
    simp only [TCPHandleSyssent] at h ⊢
    split_ifs at h ⊢
    · exact ⟨rfl, rfl, rfl, by rw [hseq, hone], rfl, rfl, rfl⟩
    · simp [hstate] at h
  | server listener connectSocket child syn synAck packet hchild h =>
    obtain ⟨hstate, hseq⟩ : child.state = .sysRecv ∧ child.seqNum = -1 := by
      simp only [TCPHandleListen] at hchild
      split_ifs at hchild
      all_goals
        obtain ⟨rfl, -⟩ := Prod.mk.inj (Option.some.inj hchild)
        exact ⟨rfl, rfl⟩
    simp only [TCPHandleSysrecv] at h ⊢
    split_ifs at h ⊢
    · exact ⟨rfl, rfl, rfl, by rw [hseq, hone], rfl, rfl, rfl⟩
    · simp [hstate] at h

/-! ### The law for one segment -/

/-- The number behind the last byte that has been sent. -/
def lastSent (k : Socket) : BitVec 32 := k.seqNum + k.outstanding.setWidth 32

/-- Only the number behind the last byte sent may move the sender. -/
def AckLaw (k : Socket) (packet : TCPPacket) (k' : Socket) : Prop :=
  htonl packet.tcpHeader.ackNum ≠ lastSent k → k'.sendSide = k.sendSide

/-- An acknowledgement number that agrees with `sendBack` in the low 16 bits is right in the upper
16 bits too. -/
def HighBitsRight (k : Socket) (packet : TCPPacket) : Prop :=
  (htonl packet.tcpHeader.ackNum).setWidth 16 = k.sendBack →
    htonl packet.tcpHeader.ackNum = lastSent k

instance (k : Socket) (packet : TCPPacket) : Decidable (HighBitsRight k packet) :=
  inferInstanceAs (Decidable (_ → _))

/-- `ackBack` is kept in step with the low half of `seqNum`. -/
def Aligned (k : Socket) : Prop := k.seqNum.setWidth 16 = k.ackBack

theorem acceptAck_of_ne {k : Socket} {ackNum : BitVec 32} {window : BitVec 16}
    (h : ackNum.setWidth 16 ≠ k.sendBack) : acceptAck k ackNum window = some k := by
  simp only [acceptAck, if_neg h]

theorem acceptAck_of_eq {k k₁ : Socket} {ackNum : BitVec 32} {window : BitVec 16}
    (h : ackNum.setWidth 16 = k.sendBack) (hacc : acceptAck k ackNum window = some k₁) :
    k₁ = { k with ackBack := k.sendBack, ackFront := k.sendBack + window, seqNum := ackNum } := by
  simp only [acceptAck, if_pos h] at hacc
  split_ifs at hacc with hassert
  rw [← Option.some.inj hacc, hassert, h]

theorem ackLaw_iff {k k' : Socket} {packet : TCPPacket} {out : List TCPPacket}
    (hrun : TCPHandleEstablished k packet = some (k', out))
    (hack : packet.tcpHeader.ctrl &&& ctAck ≠ 0) :
    AckLaw k packet k' ↔ HighBitsRight k packet := by
  have hframe := (Socket.established_frame hrun).2
  rw [if_pos hack] at hframe
  obtain ⟨k₁, hacc, hside⟩ := hframe
  by_cases hlow : (htonl packet.tcpHeader.ackNum).setWidth 16 = k.sendBack
  · have hk₁ := acceptAck_of_eq hlow hacc
    constructor
    · intro hlaw _
      by_contra hne
      -- nothing moved, so that the number is `seqNum` itself and nothing is outstanding
      have hsame := hlaw hne
      rw [hside, hk₁] at hsame
      have hseq : htonl packet.tcpHeader.ackNum = k.seqNum := congrArg SendSide.seqNum hsame
      have hback : k.sendBack = k.ackBack := congrArg SendSide.ackBack hsame
      refine hne ?_
      rw [lastSent, Socket.outstanding, hback, BitVec.sub_self, hseq]
      simp
    · exact fun hright hne => absurd (hright hlow) hne
  · rw [acceptAck_of_ne hlow] at hacc
    refine iff_of_true (fun _ => ?_) (fun h => absurd h hlow)
    rw [hside, ← Option.some.inj hacc]

/-! ### Runs -/

/-- What every network leaves in place. -/
def Sound (s : Solo) : Prop :=
  Aligned s.socket ∧ (s.socket.state = .establisted ∨ s.socket.state = .closed)

/-- `handleTCPMain` on an open or a closed socket: the flags aside, either nothing of the send
side moves, or the segment is an acknowledgement that is accepted. -/
theorem handleTCPMain_cases {k k' : Socket} {packet : TCPPacket} {out : List TCPPacket}
    (hstate : k.state = .establisted ∨ k.state = .closed)
    (h : handleTCPMain k packet = some (k', out)) :
    (k'.state = .establisted ∨ k'.state = .closed) ∧
      (k'.sendSide = k.sendSide ∨
        k.state = .establisted ∧ packet.tcpHeader.ctrl &&& ctAck ≠ 0 ∧
        (htonl packet.tcpHeader.ackNum).setWidth 16 = k.sendBack ∧
        k'.sendSide = { k.sendSide with
          ackBack := k.sendBack
          ackFront := k.sendBack + htons packet.tcpHeader.window
          seqNum := htonl packet.tcpHeader.ackNum }) := by
  rcases hstate with hstate | hstate
  · simp only [handleTCPMain, hstate] at h
    obtain ⟨hstate', hside⟩ := Socket.established_frame h
    refine ⟨hstate ▸ hstate', ?_⟩
    split_ifs at hside with hack
    · obtain ⟨k₁, hacc, hside⟩ := hside
      by_cases hlow : (htonl packet.tcpHeader.ackNum).setWidth 16 = k.sendBack
      · rw [acceptAck_of_eq hlow hacc] at hside
        exact Or.inr ⟨hstate, hack, hlow, hside⟩
      · rw [acceptAck_of_ne hlow] at hacc
        exact Or.inl (by rw [hside, ← Option.some.inj hacc])
    · exact Or.inl hside
  · simp only [handleTCPMain, hstate, TCPHandleClosed] at h
    obtain ⟨rfl, -⟩ := Prod.mk.inj (Option.some.inj h)
    exact ⟨Or.inr hstate, Or.inl rfl⟩

theorem Sound.step {s s' : Solo} {act : Action} (h : s.Sound) (hs : step act s = some s') :
    s'.Sound := by
  obtain ⟨halign, hstate⟩ := h
  cases act with
  | write buf =>
    obtain ⟨⟨n, k⟩, hk, rfl⟩ := Option.map_eq_some_iff.mp hs
    rw [Socket.writeLab_frame hk]
    exact ⟨halign, hstate⟩
  | read nbyte =>
    obtain ⟨⟨bytes, k⟩, hk, rfl⟩ := Option.map_eq_some_iff.mp hs
    rw [Socket.readLab_frame hk]
    exact ⟨halign, hstate⟩
  | close =>
    obtain rfl := Option.some.inj hs
    exact ⟨halign, hstate⟩
  | tick now =>
    obtain rfl := Option.some.inj hs
    obtain ⟨hback, hseq, hst, -⟩ := Socket.asyncSendTCPPacket_frame now s.socket
    exact ⟨by rw [Aligned, hseq, hback]; exact halign, by rw [hst]; exact hstate⟩
  | segment packet =>
    obtain ⟨⟨k, out⟩, hk, rfl⟩ := Option.map_eq_some_iff.mp hs
    obtain ⟨hstate', hside | ⟨-, -, hlow, hside⟩⟩ := handleTCPMain_cases hstate hk
    · refine ⟨?_, hstate'⟩
      rw [Aligned, show k.seqNum = s.socket.seqNum from congrArg SendSide.seqNum hside,
        show k.ackBack = s.socket.ackBack from congrArg SendSide.ackBack hside]
      exact halign
    · refine ⟨?_, hstate'⟩
      rw [Aligned, show k.seqNum = _ from congrArg SendSide.seqNum hside,
        show k.ackBack = _ from congrArg SendSide.ackBack hside]
      exact hlow

theorem Reachable.sound {s : Solo} (h : s.Reachable) : s.Sound := by
  obtain ⟨k, acts, hk, hrun⟩ := h
  obtain ⟨hstate, -, hback, hseq, -⟩ := hk.fresh
  refine Run.invariant (fun _ _ _ => Sound.step) ⟨?_, Or.inl hstate⟩ hrun
  rw [Aligned, hseq, hback]
  rfl

/-- The assertion of the acknowledgement branch holds of an aligned socket. -/
theorem acceptAck_isSome {k : Socket} (hk : Aligned k) (ackNum : BitVec 32) (window : BitVec 16) :
    (acceptAck k ackNum window).isSome := by
  have hassert : k.ackBack + (ackNum - k.seqNum).setWidth 16 = ackNum.setWidth 16 := by
    rw [← hk]
    refine BitVec.eq_of_toNat_eq ?_
    have := k.seqNum.isLt
    have := ackNum.isLt
    simp only [BitVec.toNat_add, BitVec.toNat_setWidth, BitVec.toNat_sub]
    omega
  simp only [acceptAck]
  split_ifs <;> rfl

/-- How many bytes have been acknowledged, by the count of those sent. -/
def acked (s : Solo) : ℕ := s.sent - s.socket.outstanding.toNat

/-- The counters of the socket against the count of the bytes sent. -/
structure Ledger (s : Solo) : Prop where
  le : s.socket.outstanding.toNat ≤ s.sent
  seqNum : s.socket.seqNum = BitVec.ofNat 32 s.acked
  state : s.socket.state = .establisted ∨ s.socket.state = .closed

/-- The condition on a step: an acknowledgement that reaches an open socket is right in its upper
half when it is right in its lower half. -/
def HighBits : Action → Solo → Prop
  | .segment packet, s => s.socket.state = .establisted → packet.tcpHeader.ctrl &&& ctAck ≠ 0 →
      HighBitsRight s.socket packet
  | _, _ => True

instance : ∀ act s, Decidable (HighBits act s)
  | .segment _, _ => inferInstanceAs (Decidable (_ → _ → _))
  | .write _, _ | .read _, _ | .close, _ | .tick _, _ => .isTrue trivial

/-- A step that meets the condition keeps the books, and never takes an acknowledgement back. -/
theorem Ledger.step {s s' : Solo} {act : Action} (h : s.Ledger) (hc : HighBits act s)
    (hs : step act s = some s') : s'.Ledger ∧ s.acked ≤ s'.acked := by
  have hkeep : ∀ k : Socket, k.outstanding = s.socket.outstanding → k.seqNum = s.socket.seqNum →
      (k.state = .establisted ∨ k.state = .closed) →
      Ledger { s with socket := k } ∧ s.acked ≤ acked { s with socket := k } := by
    intro k hout hseq hstate
    have hacked : acked { s with socket := k } = s.acked := by rw [acked, acked, hout]
    exact ⟨⟨by rw [hout]; exact h.le, by rw [hacked]; exact hseq.trans h.seqNum, hstate⟩,
      hacked.ge⟩
  cases act with
  | write buf =>
    obtain ⟨⟨n, k⟩, hk, rfl⟩ := Option.map_eq_some_iff.mp hs
    have hframe := Socket.writeLab_frame hk
    exact hkeep k (by rw [hframe]; rfl) (by rw [hframe]) (by rw [hframe]; exact h.state)
  | read nbyte =>
    obtain ⟨⟨bytes, k⟩, hk, rfl⟩ := Option.map_eq_some_iff.mp hs
    have hframe := Socket.readLab_frame hk
    exact hkeep k (by rw [hframe]; rfl) (by rw [hframe]) (by rw [hframe]; exact h.state)
  | close =>
    obtain rfl := Option.some.inj hs
    exact hkeep _ rfl rfl h.state
  | tick now =>
    obtain rfl := Option.some.inj hs
    obtain ⟨hback, hseq, hst, hsent⟩ := Socket.asyncSendTCPPacket_frame now s.socket
    generalize (asyncSendTCPPacket now s.socket).1 = k at hback hseq hst hsent ⊢
    have hle := h.le
    have hcount : k.outstanding.toNat ≤ s.sent + (k.sendBack - s.socket.sendBack).toNat ∧
        acked ⟨k, s.sent + (k.sendBack - s.socket.sendBack).toNat⟩ = s.acked := by
      simp only [acked, Socket.outstanding, hback] at hle ⊢
      rcases hsent with hsame | hidle
      · rw [hsame, BitVec.sub_self]
        exact ⟨hle, rfl⟩
      · rw [hidle, BitVec.sub_self, BitVec.toNat_zero]
        omega
    refine ⟨⟨hcount.1, ?_, hst ▸ h.state⟩, hcount.2.ge⟩
    rw [hcount.2, hseq, h.seqNum]
  | segment packet =>
    obtain ⟨⟨k, out⟩, hk, rfl⟩ := Option.map_eq_some_iff.mp hs
    obtain ⟨hstate', hside | ⟨hopen, hack, hlow, hside⟩⟩ := handleTCPMain_cases h.state hk
    · have hsend : k.sendBack = s.socket.sendBack := congrArg SendSide.sendBack hside
      have hback : k.ackBack = s.socket.ackBack := congrArg SendSide.ackBack hside
      exact hkeep k (by rw [Socket.outstanding, hsend, hback]; rfl)
        (congrArg SendSide.seqNum hside) hstate'
    · -- the acknowledgement is accepted, and it is the number behind the last byte sent
      have hright := hc hopen hack hlow
      have hsend : k.sendBack = s.socket.sendBack := congrArg SendSide.sendBack hside
      have hback : k.ackBack = s.socket.sendBack := congrArg SendSide.ackBack hside
      have hnone : k.outstanding.toNat = 0 := by
        rw [Socket.outstanding, hsend, hback, BitVec.sub_self, BitVec.toNat_zero]
      have hacked : acked { s with socket := k } = s.sent := by
        rw [acked, hnone, Nat.sub_zero]
      refine ⟨⟨by rw [hnone]; exact Nat.zero_le _, ?_, hstate'⟩, ?_⟩
      · rw [hacked, show k.seqNum = _ from congrArg SendSide.seqNum hside]
        simp only
        rw [hright, lastSent, h.seqNum, acked, ← BitVec.ofNat_toNat, ← BitVec.ofNat_add,
          Nat.sub_add_cancel h.le]
      · rw [hacked]
        exact Nat.sub_le ..

/-- **Which acknowledgements move the sender.** On a reachable open socket the assertion of the
acknowledgement branch holds, and the law is kept exactly for the segments whose number, if it
agrees with `sendBack` in the low 16 bits, is right in the upper 16 bits too. In a run that only
delivers such acknowledgements `seqNum` counts the acknowledged bytes: it never moves back, and
never passes the last byte sent. -/
theorem ack_law {k : Socket} {acts : List Action} {s : Solo} (hk : Connected k)
    (hrun : Run.run step acts ⟨k, 0⟩ = some s) :
    (s.socket.state = .establisted → ∀ packet : TCPPacket, packet.tcpHeader.ctrl &&& ctAck ≠ 0 →
      (acceptAck s.socket (htonl packet.tcpHeader.ackNum) (htons packet.tcpHeader.window)).isSome ∧
      ∀ k' out, TCPHandleEstablished s.socket packet = some (k', out) →
        (AckLaw s.socket packet k' ↔ HighBitsRight s.socket packet)) ∧
    ∀ (more : List Action) (s' : Solo), Run.Meets step HighBits (acts ++ more) ⟨k, 0⟩ →
      Run.run step more s = some s' →
      s.socket.seqNum = BitVec.ofNat 32 s.acked ∧ s'.socket.seqNum = BitVec.ofNat 32 s'.acked ∧
        s.acked ≤ s'.acked ∧ s'.acked ≤ s'.sent := by
  have hreach : s.Reachable := ⟨k, acts, hk, hrun⟩
  refine ⟨fun _ packet hack => ⟨acceptAck_isSome hreach.sound.1 _ _, fun k' out hhandle =>
    ackLaw_iff hhandle hack⟩, ?_⟩
  intro more s' hmeets hmore
  obtain ⟨hstate, hsend, hback, hseq, -⟩ := hk.fresh
  have hnone : k.outstanding.toNat = 0 := by
    rw [Socket.outstanding, hsend, hback, BitVec.sub_self, BitVec.toNat_zero]
  have hstart : Ledger ⟨k, 0⟩ := ⟨hnone.le, by rw [acked, hnone]; exact hseq, Or.inl hstate⟩
  obtain ⟨hmeets, hmeets'⟩ := Run.meets_append hmeets hrun
  have hledger : s.Ledger :=
    Run.invariant_of_meets (fun act t t' hc ht hs => (ht.step hc hs).1) hstart hmeets hrun
  have hlater : s'.Ledger ∧ s.acked ≤ s'.acked := by
    refine Run.invariant_of_meets (p := fun t => t.Ledger ∧ s.acked ≤ t.acked) ?_
      ⟨hledger, le_rfl⟩ hmeets' hmore
    intro act t t' hc ht hs
    obtain ⟨hl, hmono⟩ := ht.1.step hc hs
    exact ⟨hl, ht.2.trans hmono⟩
  exact ⟨hledger.seqNum, hlater.1.seqNum, hlater.2, Nat.sub_le ..⟩

/-- An acknowledgement, on its own. -/
def pureAck (ackNum : BitVec 32) : TCPPacket :=
  ⟨0, 0, createTCPHeader 0 0 0 ackNum ctAck 0xffff, []⟩

/-- A client whose `SYN` has been answered. -/
def answeredClient : Socket :=
  (TCPHandleSyssent (connectLab (allocSocket 0 (fun _ => 0) fun _ => 0) 0 0 0 0).1
    ⟨0, 0, createTCPHeader 0 0 0 0 (ctSyn ||| ctAck) 0xffff, []⟩).1

theorem connected_answeredClient : Connected answeredClient := .client _ _ _ _ _ _ (by decide)

theorem reachable_answeredClient : Reachable ⟨answeredClient, 0⟩ :=
  ⟨answeredClient, [], connected_answeredClient, rfl⟩

/-- Two bytes go out, and are acknowledged. -/
def acknowledged : List Action := [.write [1, 2], .tick 1, .segment (pureAck 2)]

theorem ack_law_acknowledged :
    let s := (Run.run step acknowledged ⟨answeredClient, 0⟩).get (by decide)
    s.socket.seqNum = BitVec.ofNat 32 s.acked ∧ s.acked ≤ s.sent :=
  have h := (ack_law connected_answeredClient
    (Option.some_get (x := Run.run step acknowledged ⟨answeredClient, 0⟩) (by decide)).symm).2 []
    _ (by decide) rfl
  ⟨h.1, h.2.2.2⟩

/-- The number of an acknowledgement need only be right modulo 64 KiB. -/
theorem not_ack_law :
    ¬ ∀ s : Solo, s.Reachable → s.socket.state = .establisted → ∀ packet : TCPPacket,
      packet.tcpHeader.ctrl &&& ctAck ≠ 0 →
      ∀ k' out, TCPHandleEstablished s.socket packet = some (k', out) →
        AckLaw s.socket packet k' := by
  intro hlaw
  have hsome : (TCPHandleEstablished answeredClient (pureAck 65536)).isSome := by decide
  have hmoved := hlaw ⟨answeredClient, 0⟩ reachable_answeredClient (by decide) (pureAck 65536)
    (by decide) _ _ (Option.some_get hsome).symm (by decide)
  exact absurd (congrArg SendSide.seqNum hmoved) (by decide)

end Solo

end LabNetstack
