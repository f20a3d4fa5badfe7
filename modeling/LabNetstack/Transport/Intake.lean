import LabNetstack.Transport.AckLaw
import LabNetstack.Transport.Rings

/-!
# What an open socket takes from a segment

The receive side of `TCPHandleEstablished`, for any segment and any position of the pointers. A
segment with the expected number is taken as a whole and answered; of one that is longer than the
free space the handler computes how much would fit, and then asserts that all of it does.

## Main results

* `established_recv` — what a segment does to the receive ring, and what is answered
* `established_closed_iff` — which segments close the socket
* `Solo.Reachable.segment_survives_iff` — which segments abort the process
-/

namespace LabNetstack

open RingMemory

namespace Socket

/-- The receive ring's contents: the bytes accepted and not read yet. -/
def unread (k : Socket) : List Byte := ring k.readBuffer k.recvBack k.recvFront

/-- The free space of the receive ring. -/
def recvRoom (k : Socket) : ℕ := (k.recvBack - 1 - k.recvFront).toNat

/-- The fields of the receive side. -/
structure RecvSide where
  readBuffer : Mem Byte
  recvFront : BitVec 16
  recvBack : BitVec 16
  ackNum : BitVec 32

def recvSide (k : Socket) : RecvSide := ⟨k.readBuffer, k.recvFront, k.recvBack, k.ackNum⟩

end Socket

/-- The segment carries the number that the socket expects. -/
def TCPPacket.InSequence (packet : TCPPacket) (k : Socket) : Prop :=
  htonl packet.tcpHeader.seqNum = k.ackNum
deriving Decidable

/-- The segment is not in sequence, or fits the free space. -/
def TCPPacket.Fits (packet : TCPPacket) (k : Socket) : Prop :=
  packet.InSequence k → packet.data.length ≤ k.recvRoom

instance (packet : TCPPacket) (k : Socket) : Decidable (packet.Fits k) :=
  inferInstanceAs (Decidable (_ → _))

/-- The segment acknowledges the `FIN` of the socket, and nothing else is missing for its close. -/
def TCPPacket.Closes (packet : TCPPacket) (k : Socket) : Prop :=
  packet.IsAck ∧ k.hasFlag CLOSEState.finSent ∧
    (k.clstate ||| CLOSEState.ackRecv) &&& CLOSEState.close = CLOSEState.close
deriving Decidable

/-- What an open socket takes from a segment. -/
def TCPPacket.payload (packet : TCPPacket) (k : Socket) : List Byte :=
  if packet.InSequence k then packet.data else []

/-- An acknowledgement of everything that `k` has accepted, with all of its free space. -/
structure TCPPacket.Reports (packet : TCPPacket) (k : Socket) : Prop where
  isAck : packet.IsAck
  ackNum : htonl packet.tcpHeader.ackNum = k.ackNum
  window : (htons packet.tcpHeader.window).toNat = 65535 - k.unread.length

variable {k k' : Socket} {packet : TCPPacket} {out : List TCPPacket}

theorem length_unread_add (k : Socket) : k.unread.length + k.recvRoom = 65535 := by
  rw [Socket.unread, Socket.recvRoom, length_ring, Nat.add_comm, toNat_room_add]

theorem reports_replyAck (k : Socket) : (replyAck k k.ackNum).Reports k where
  isAck := (by decide : ctAck &&& ctAck ≠ 0)
  ackNum := htonl_htonl _
  window := by
    have hroom := length_unread_add k
    have hwindow : htons (replyAck k k.ackNum).tcpHeader.window = k.recvBack - 1 - k.recvFront :=
      htons_htons _
    rw [hwindow]
    exact (Nat.sub_eq_of_eq_add (by rw [Nat.add_comm]; exact hroom.symm)).symm

/-! ### The data branch -/

/-- `k'` is `k` with `data` taken behind what it had accepted. -/
structure Accepts (k : Socket) (data : List Byte) (k' : Socket) : Prop where
  recvBack : k'.recvBack = k.recvBack
  recvFront : k'.recvFront = k.recvFront + BitVec.ofNat 16 data.length
  ackNum : k'.ackNum = k.ackNum + BitVec.ofNat 32 data.length
  unread : k'.unread = k.unread ++ data

theorem accepts_nil (h : k'.recvSide = k.recvSide) : Accepts k [] k' where
  recvBack := congrArg Socket.RecvSide.recvBack h
  recvFront := by
    rw [show k'.recvFront = k.recvFront from congrArg Socket.RecvSide.recvFront h]
    exact (BitVec.add_zero _).symm
  ackNum := by
    rw [show k'.ackNum = k.ackNum from congrArg Socket.RecvSide.ackNum h]
    exact (BitVec.add_zero _).symm
  unread := by
    rw [List.append_nil]
    exact congrArg (fun side => ring side.readBuffer side.recvBack side.recvFront) h

theorem Accepts.congr_left {k₀ : Socket} {data : List Byte} (h : Accepts k data k')
    (hside : k.recvSide = k₀.recvSide) : Accepts k₀ data k' := by
  have hnil := accepts_nil (k := k₀) hside
  exact ⟨h.recvBack.trans hnil.recvBack,
    by rw [h.recvFront, show k.recvFront = k₀.recvFront from
      congrArg Socket.RecvSide.recvFront hside],
    by rw [h.ackNum, show k.ackNum = k₀.ackNum from congrArg Socket.RecvSide.ackNum hside],
    by rw [h.unread, hnil.unread, List.append_nil]⟩

section Data

variable {data : List Byte} {tcpHeader : TCPHeader}

/-- The truncated length, against the length. -/
theorem validLen_eq_iff (hlen : data.length < 2 ^ 16) :
    (if k.recvBack - 1 - k.recvFront < BitVec.ofNat 16 data.length then k.recvBack - 1 - k.recvFront
      else BitVec.ofNat 16 data.length) = BitVec.ofNat 16 data.length ↔
      data.length ≤ k.recvRoom := by
  rw [← BitVec.toNat_inj, toNat_ite_lt, BitVec.toNat_ofNat, Nat.mod_eq_of_lt hlen, Socket.recvRoom]
  omega

theorem handleData_abort (hlen : data.length < 2 ^ 16) (hpos : 0 < data.length)
    (hseq : tcpHeader.seqNum = k.ackNum) (hlong : k.recvRoom < data.length) :
    handleData k data tcpHeader = none := by
  have hassert := mt (validLen_eq_iff hlen).mp (Nat.not_le.mpr hlong)
  simp only [handleData, if_pos (And.intro hpos hseq), if_neg hassert]

theorem handleData_take (hlen : data.length < 2 ^ 16) (hpos : 0 < data.length)
    (hseq : tcpHeader.seqNum = k.ackNum) (hfits : data.length ≤ k.recvRoom) :
    ∃ k', handleData k data tcpHeader = some (k', [replyAck k' k'.ackNum]) ∧ Accepts k data k' := by
  have hassert := (validLen_eq_iff hlen).mpr hfits
  have hn : (BitVec.ofNat 16 data.length).toNat = data.length := by
    rw [BitVec.toNat_ofNat, Nat.mod_eq_of_lt hlen]
  simp only [handleData, if_pos (And.intro hpos hseq), if_pos hassert]
  refine ⟨_, rfl, rfl, by rw [hassert], ?_, ?_⟩
  · simp only [hassert]
    rw [hseq, BitVec.setWidth_ofNat_of_le_of_lt (by decide) hlen]
  · have hring := @ring_copyIn k.readBuffer k.recvBack k.recvFront _ _ hn.le (hn.le.trans hfits)
    rw [hn, List.take_length] at hring
    rw [hassert]
    exact hring

theorem handleData_ignore (h : ¬ (0 < data.length ∧ tcpHeader.seqNum = k.ackNum)) :
    handleData k data tcpHeader
      = some (k, if tcpHeader.ctrl = 0 ∧ tcpHeader.seqNum = k.ackNum then [replyAck k k.ackNum]
        else []) := by
  rw [handleData, if_neg h]
  split_ifs <;> rfl

/-- **The data branch.** -/
theorem handleData_recv (hlen : data.length < 2 ^ 16)
    (h : handleData k data tcpHeader = some (k', out)) :
    (tcpHeader.seqNum = k.ackNum → data.length ≤ k.recvRoom) ∧
      Accepts k (if tcpHeader.seqNum = k.ackNum then data else []) k' ∧
      (tcpHeader.seqNum ≠ k.ackNum → k' = k) ∧
      out = if tcpHeader.seqNum = k.ackNum ∧ (0 < data.length ∨ tcpHeader.ctrl = 0)
        then [replyAck k' k'.ackNum] else [] := by
  by_cases hdata : 0 < data.length ∧ tcpHeader.seqNum = k.ackNum
  · obtain ⟨hpos, hseq⟩ := hdata
    by_cases hfits : data.length ≤ k.recvRoom
    · obtain ⟨k₁, hrun, haccepts⟩ := handleData_take hlen hpos hseq hfits
      obtain ⟨rfl, rfl⟩ := Prod.mk.inj (Option.some.inj (h.symm.trans hrun))
      rw [if_pos hseq, if_pos ⟨hseq, Or.inl hpos⟩]
      exact ⟨fun _ => hfits, haccepts, fun hne => absurd hseq hne, rfl⟩
    · rw [handleData_abort hlen hpos hseq (Nat.not_le.mp hfits)] at h
      cases h
  · have hnil : tcpHeader.seqNum = k.ackNum → data = [] := fun hseq =>
      List.length_eq_zero_iff.mp (Nat.le_zero.mp (Nat.not_lt.mp fun hpos => hdata ⟨hpos, hseq⟩))
    rw [handleData_ignore hdata] at h
    obtain ⟨rfl, rfl⟩ := Prod.mk.inj (Option.some.inj h)
    refine ⟨fun hseq => by rw [hnil hseq]; exact Nat.zero_le _, ?_, fun _ => rfl, ?_⟩
    · split_ifs with hseq
      · rw [hnil hseq]
        exact accepts_nil rfl
      · exact accepts_nil rfl
    · by_cases hseq : tcpHeader.seqNum = k.ackNum
      · simp [hseq, hnil hseq]
      · simp [hseq]

theorem isSome_handleData (hlen : data.length < 2 ^ 16) :
    (handleData k data tcpHeader).isSome ↔
      (tcpHeader.seqNum = k.ackNum → data.length ≤ k.recvRoom) := by
  constructor
  · intro hsome
    obtain ⟨⟨k', out⟩, h⟩ := Option.isSome_iff_exists.mp hsome
    exact (handleData_recv hlen h).1
  · intro hfits
    by_cases hdata : 0 < data.length ∧ tcpHeader.seqNum = k.ackNum
    · obtain ⟨k', hrun, -⟩ := handleData_take hlen hdata.1 hdata.2 (hfits hdata.2)
      rw [hrun, Option.isSome_some]
    · rw [handleData_ignore hdata, Option.isSome_some]

end Data

/-! ### The whole handler -/

section Handler

variable {tcpHeader : TCPHeader}

theorem acceptAck_clstate {ackNum : BitVec 32} {window : BitVec 16}
    (h : acceptAck k ackNum window = some k') : k'.clstate = k.clstate := by
  simp only [acceptAck] at h
  split_ifs at h
  all_goals rw [← Option.some.inj h]

theorem handleAck_eq (h : handleAck k tcpHeader = some k') : k' = { k with
    ackBack := k'.ackBack
    ackFront := k'.ackFront
    seqNum := k'.seqNum
    clstate := k'.clstate
    isConnection := k'.isConnection
    state := k'.state } := by
  have hclose : ∀ k₁ : Socket, closeOnAck k₁ = { k₁ with
      clstate := (closeOnAck k₁).clstate
      isConnection := (closeOnAck k₁).isConnection
      state := (closeOnAck k₁).state } := by
    intro k₁
    simp only [closeOnAck]
    split_ifs <;> rfl
  rw [handleAck] at h
  split_ifs at h with hack
  · obtain ⟨k₁, h₁, rfl⟩ := Option.map_eq_some_iff.mp h
    rw [hclose]
    simp only [acceptAck] at h₁
    split_ifs at h₁
    all_goals
      obtain rfl := Option.some.inj h₁
      rfl
  · obtain rfl := Option.some.inj h
    rfl

theorem handleFin_eq (k : Socket) (tcpHeader : TCPHeader) :
    (handleFin k tcpHeader).1 = { k with clstate := (handleFin k tcpHeader).1.clstate } := by
  simp only [handleFin]
  split_ifs <;> rfl

theorem handleData_eq {data : List Byte} (h : handleData k data tcpHeader = some (k', out)) :
    k' = { k with
      readBuffer := k'.readBuffer
      ackNum := k'.ackNum
      recvFront := k'.recvFront } := by
  simp only [handleData] at h
  split_ifs at h
  all_goals
    obtain ⟨rfl, -⟩ := Prod.mk.inj (Option.some.inj h)
    rfl

theorem handleAck_recvSide (h : handleAck k tcpHeader = some k') : k'.recvSide = k.recvSide := by
  rw [handleAck_eq h]
  rfl

theorem handleFin_recvSide (k : Socket) (tcpHeader : TCPHeader) :
    (handleFin k tcpHeader).1.recvSide = k.recvSide := by
  rw [handleFin_eq]
  rfl

theorem length_handleFin (k : Socket) (tcpHeader : TCPHeader) :
    (handleFin k tcpHeader).2.length = if tcpHeader.ctrl &&& ctFin ≠ 0 then 1 else 0 := by
  simp only [handleFin]
  split_ifs <;> rfl

/-- The header as the handler looks at it, in host order. -/
def TCPPacket.hostHeader (packet : TCPPacket) : TCPHeader := { packet.tcpHeader with
  seqNum := htonl packet.tcpHeader.seqNum
  ackNum := htonl packet.tcpHeader.ackNum
  window := htons packet.tcpHeader.window }

/-- The handler, block by block. -/
theorem established_eq_some_iff : TCPHandleEstablished k packet = some (k', out) ↔
    ∃ k₁ dataAnswer, handleAck k packet.hostHeader = some k₁ ∧
      handleData (handleFin k₁ packet.hostHeader).1 packet.data packet.hostHeader
        = some (k', dataAnswer) ∧ out = (handleFin k₁ packet.hostHeader).2 ++ dataAnswer := by
  constructor
  · intro h
    simp only [TCPHandleEstablished] at h
    split at h
    · cases h
    next k₁ hack =>
      split at h
      · cases h
      next k₂ dataAnswer hdata =>
        obtain ⟨rfl, rfl⟩ := Prod.mk.inj (Option.some.inj h)
        exact ⟨k₁, dataAnswer, hack, hdata, rfl⟩
  · rintro ⟨k₁, dataAnswer, hack, hdata, rfl⟩
    simp only [TCPPacket.hostHeader] at hack hdata ⊢
    simp only [TCPHandleEstablished, hack, hdata]

/-- **The receive side of the handler.** -/
theorem established_recv (hlen : packet.data.length < 2 ^ 16)
    (h : TCPHandleEstablished k packet = some (k', out)) :
    packet.Fits k ∧ Accepts k (packet.payload k) k' ∧
      (¬ packet.InSequence k → k'.recvSide = k.recvSide) ∧
      out.drop (if packet.IsFin then 1 else 0)
        = if packet.InSequence k ∧ (0 < packet.data.length ∨ packet.tcpHeader.ctrl = 0)
          then [replyAck k' k'.ackNum] else [] := by
  obtain ⟨k₁, dataAnswer, hack, hdata, rfl⟩ := established_eq_some_iff.mp h
  have hside := (handleFin_recvSide k₁ packet.hostHeader).trans (handleAck_recvSide hack)
  have hfin : (handleFin k₁ packet.hostHeader).2.length = if packet.IsFin then 1 else 0 :=
    length_handleFin k₁ packet.hostHeader
  generalize (handleFin k₁ packet.hostHeader).1 = k₂ at hdata hside
  have hnum : k₂.ackNum = k.ackNum := congrArg Socket.RecvSide.ackNum hside
  have hroom : k₂.recvRoom = k.recvRoom :=
    congrArg (fun side => (side.recvBack - 1 - side.recvFront).toNat) hside
  obtain ⟨hfits, haccepts, hkeep, hout⟩ := handleData_recv hlen hdata
  rw [hnum] at hfits haccepts hkeep hout
  rw [hroom] at hfits
  refine ⟨hfits, haccepts.congr_left hside, fun hother => ?_, ?_⟩
  · rw [hkeep hother, hside]
  · rw [List.drop_append_of_le_length hfin.ge, List.drop_of_length_le hfin.le, hout]
    rfl

/-- Without an acknowledgement a socket does not close. -/
theorem established_state (h : TCPHandleEstablished k packet = some (k', out))
    (hack : ¬ packet.IsAck) : k'.state = k.state := by
  obtain ⟨k₁, dataAnswer, hrun, hdata, -⟩ := established_eq_some_iff.mp h
  have hnone : ¬ packet.hostHeader.ctrl &&& ctAck ≠ 0 := hack
  rw [handleAck, if_neg hnone] at hrun
  obtain rfl := Option.some.inj hrun
  rw [(Socket.handleData_frame hdata).2, (Socket.handleFin_frame k packet.hostHeader).2]

theorem closeOnAck_state (hopen : k.state ≠ .closed) : (closeOnAck k).state = .closed ↔
    k.hasFlag CLOSEState.finSent ∧
      (k.clstate ||| CLOSEState.ackRecv) &&& CLOSEState.close = CLOSEState.close := by
  simp only [closeOnAck]
  by_cases hsent : k.hasFlag CLOSEState.finSent
  · simp only [hsent, if_true, true_and]
    split_ifs with hall
    · exact iff_of_true rfl hall
    · exact iff_of_false hopen hall
  · -- without a `FIN` of its own the flags are not complete
    have hnot : k.clstate &&& CLOSEState.close ≠ CLOSEState.close := by
      intro hall
      have hbit : k.clstate &&& CLOSEState.finSent = CLOSEState.finSent := by
        rw [show CLOSEState.finSent = CLOSEState.close &&& CLOSEState.finSent from rfl,
          ← BitVec.and_assoc, hall]
      rw [Socket.hasFlag, hbit] at hsent
      exact hsent rfl
    simp only [hsent, Bool.false_eq_true, if_false, if_neg hnot, false_and, iff_false]
    exact hopen

/-- **Which segments close a socket.** -/
theorem established_closed_iff (h : TCPHandleEstablished k packet = some (k', out))
    (hopen : k.state = .establisted) : k'.state = .closed ↔ packet.Closes k := by
  have hne : k.state ≠ .closed := by
    rw [hopen]
    decide
  by_cases hisAck : packet.IsAck
  · obtain ⟨k₁, dataAnswer, hack, hdata, -⟩ := established_eq_some_iff.mp h
    have hctrl : packet.hostHeader.ctrl &&& ctAck ≠ 0 := hisAck
    rw [handleAck, if_pos hctrl] at hack
    obtain ⟨k₀, hacc, rfl⟩ := Option.map_eq_some_iff.mp hack
    have hstate : k₀.state = k.state := Socket.acceptAck_state hacc
    have hclstate : k₀.clstate = k.clstate := acceptAck_clstate hacc
    rw [(Socket.handleData_frame hdata).2, (Socket.handleFin_frame _ packet.hostHeader).2,
      closeOnAck_state (hstate ▸ hne), Socket.hasFlag, hclstate, TCPPacket.Closes]
    exact (and_iff_right hisAck).symm
  · rw [established_state h hisAck]
    exact iff_of_false hne fun hcloses => hisAck hcloses.1

/-- The handler is only ever left by the assertion on the length. -/
theorem isSome_established (hk : Solo.Aligned k) (hlen : packet.data.length < 2 ^ 16) :
    (TCPHandleEstablished k packet).isSome ↔ packet.Fits k := by
  constructor
  · intro hsome
    obtain ⟨⟨k', out⟩, h⟩ := Option.isSome_iff_exists.mp hsome
    exact (established_recv hlen h).1
  · intro hfits
    obtain ⟨k₁, hack⟩ : ∃ k₁, handleAck k packet.hostHeader = some k₁ := by
      rw [handleAck]
      split_ifs
      · obtain ⟨k₁, h₁⟩ := Option.isSome_iff_exists.mp (Solo.acceptAck_isSome hk
          packet.hostHeader.ackNum packet.hostHeader.window)
        exact ⟨_, by rw [h₁, Option.map_some]⟩
      · exact ⟨k, rfl⟩
    have hside := (handleFin_recvSide k₁ packet.hostHeader).trans (handleAck_recvSide hack)
    have hnum : (handleFin k₁ packet.hostHeader).1.ackNum = k.ackNum :=
      congrArg Socket.RecvSide.ackNum hside
    have hroom : (handleFin k₁ packet.hostHeader).1.recvRoom = k.recvRoom :=
      congrArg (fun side => (side.recvBack - 1 - side.recvFront).toNat) hside
    have hdata : (handleData (handleFin k₁ packet.hostHeader).1 packet.data
        packet.hostHeader).isSome := by
      rw [isSome_handleData hlen, hnum, hroom]
      exact hfits
    obtain ⟨⟨k', dataAnswer⟩, hrun⟩ := Option.isSome_iff_exists.mp hdata
    rw [established_eq_some_iff.mpr ⟨k₁, dataAnswer, hack, hrun, rfl⟩, Option.isSome_some]

end Handler

/-! ### Which segments abort the process -/

/-- The handler completes; of a segment in sequence it takes as many bytes as there is room for, and
answers with what it has accepted. -/
def Survives (k : Socket) (packet : TCPPacket) : Prop :=
  ∃ k' out, TCPHandleEstablished k packet = some (k', out) ∧
    (packet.InSequence k → 0 < packet.data.length →
      k'.unread = k.unread ++ packet.data.take (min k.recvRoom packet.data.length) ∧
      k'.ackNum = k.ackNum + BitVec.ofNat 32 (min k.recvRoom packet.data.length) ∧
      ∃ answer ∈ out, answer.Reports k')

theorem survives_iff (hk : Solo.Aligned k) (hlen : packet.data.length < 2 ^ 16) :
    Survives k packet ↔ packet.Fits k := by
  constructor
  · rintro ⟨k', out, h, -⟩
    exact (established_recv hlen h).1
  · intro hfits
    obtain ⟨⟨k', out⟩, h⟩ := Option.isSome_iff_exists.mp ((isSome_established hk hlen).mpr hfits)
    obtain ⟨-, haccepts, -, hout⟩ := established_recv hlen h
    refine ⟨k', out, h, fun hseq hpos => ?_⟩
    have hpayload : packet.payload k = packet.data := if_pos hseq
    rw [hpayload] at haccepts
    rw [Nat.min_eq_right (hfits hseq), List.take_length]
    refine ⟨haccepts.unread, haccepts.ackNum, replyAck k' k'.ackNum, ?_, reports_replyAck k'⟩
    have hanswer := hout.trans (if_pos ⟨hseq, Or.inl hpos⟩)
    exact List.mem_of_mem_drop (hanswer ▸ List.mem_singleton_self _)

namespace Solo

/-- **Which segments abort the process.** On a reachable socket the handler completes, and truncates
a segment that is too long, exactly for the segments that are not in sequence or do not have to be
truncated. -/
theorem Reachable.segment_survives_iff {s : Solo} (h : s.Reachable) (packet : TCPPacket)
    (hlen : packet.data.length ≤ 65535) : Survives s.socket packet ↔ packet.Fits s.socket :=
  LabNetstack.survives_iff h.sound.1 (Nat.lt_succ_of_le hlen)

/-- A segment with data. -/
def dataSegment (seqNum : BitVec 32) (data : List Byte) : TCPPacket :=
  ⟨0, 0, createTCPHeader 0 0 seqNum 0 0 0xffff, data⟩

theorem segment_survives_iff_answeredClient :
    Survives answeredClient (dataSegment 1 [7]) ↔ (dataSegment 1 [7]).Fits answeredClient :=
  reachable_answeredClient.segment_survives_iff (dataSegment 1 [7]) (by decide)

/-- A peer can fill the ring. -/
theorem exists_full : ∃ s : Solo, s.Reachable ∧ s.socket.state = .establisted ∧
    s.socket.recvRoom = 0 ∧ s.socket.ackNum = 65536 := by
  obtain ⟨packet, hpacket⟩ : ∃ packet, packet = dataSegment 1 (List.replicate 65535 0) := ⟨_, rfl⟩
  have hdata : packet.data.length = 65535 := by rw [hpacket]; exact List.length_replicate ..
  have hseq : packet.InSequence answeredClient := by
    rw [hpacket]
    exact (by decide : htonl (htonl 1) = answeredClient.ackNum)
  have hopen : answeredClient.state = .establisted := by decide
  have hroom : answeredClient.recvRoom = 65535 := by decide
  obtain ⟨⟨k', out⟩, hrun⟩ := Option.isSome_iff_exists.mp
    ((@isSome_established _ packet reachable_answeredClient.sound.1 (by omega)).mpr
      fun _ => hdata.le.trans hroom.ge)
  obtain ⟨-, haccepts, -⟩ := established_recv (by omega) hrun
  rw [TCPPacket.payload, if_pos hseq] at haccepts
  refine ⟨⟨k', 0⟩, ⟨answeredClient, [.segment packet], connected_answeredClient, ?_⟩, ?_, ?_, ?_⟩
  · have hmain : handleTCPMain answeredClient packet = some (k', out) := by
      rw [handleTCPMain, hopen]
      exact hrun
    exact Run.run_cons_some (by rw [step, hmain, Option.map_some]) []
  · rw [established_state hrun (by rw [hpacket]; decide), hopen]
  · have hfull := length_unread_add k'
    rw [haccepts.unread, List.length_append] at hfull
    show k'.recvRoom = 0
    omega
  · rw [haccepts.ackNum, hdata]
    decide

/-- A probe of one byte aborts a process whose ring is full. -/
theorem not_segment_survives : ¬ ∀ s : Solo, s.Reachable → s.socket.state = .establisted →
    ∀ packet : TCPPacket, packet.data.length ≤ 65535 → Survives s.socket packet := by
  intro hclaim
  obtain ⟨s, hreach, hopen, hroom, hnum⟩ := exists_full
  have hfits := (LabNetstack.survives_iff hreach.sound.1 (by decide)).mp
    (hclaim s hreach hopen (dataSegment 65536 [7]) (by decide))
  have hseq : (dataSegment 65536 [7]).InSequence s.socket := by
    rw [TCPPacket.InSequence, hnum]
    decide
  have hle := hfits hseq
  rw [hroom] at hle
  exact absurd hle (by decide)

end Solo

end LabNetstack
