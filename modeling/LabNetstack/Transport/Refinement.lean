import LabNetstack.Lib.WrapCounter
import LabNetstack.Transport.Duplex

/-!
# A socket stands for an end of the connection

`Socket.Rep` says when a socket stands for an end of the connection: its 16-bit pointers and its
32-bit numbers are the residues of the unbounded counters, its rings hold the bytes between them,
and its flags are packed into `clstate`. `TCPPacket.Rep` says the same of a segment.

Every function of the transport layer preserves the correspondence, as long as the counters are as
close to each other as the invariant of the connection says they are; that is where each
comparison of two residues becomes a comparison of the counters themselves.

## Main results

* `Socket.Rep.writeLab`, `Socket.Rep.readLab` — the application's calls
* `Socket.Rep.asyncSendTCPPacket` — a round of the timer
* `Socket.Rep.handleTCPMain` — the delivery of a segment
-/

namespace LabNetstack

open RingMemory WrapCounter StopAndWait

/-! ### The close flags -/

/-- `clstate`, from the four facts it records. -/
def packClose (call finSent finRecv ackRecv : Bool) : CLOSEState :=
  (if call then CLOSEState.call else 0) ||| (if finSent then CLOSEState.finSent else 0)
    ||| (if finRecv then CLOSEState.finRecv ||| CLOSEState.ackSent else 0)
    ||| (if ackRecv then CLOSEState.ackRecv else 0)

section packClose

variable (c f r k : Bool)

@[simp] theorem packClose_test_call : (packClose c f r k &&& CLOSEState.call != 0) = c := by
  revert c f r k
  decide

@[simp] theorem packClose_test_finSent : (packClose c f r k &&& CLOSEState.finSent != 0) = f := by
  revert c f r k
  decide

@[simp] theorem packClose_test_finRecv : (packClose c f r k &&& CLOSEState.finRecv != 0) = r := by
  revert c f r k
  decide

@[simp] theorem packClose_test_ackSent : (packClose c f r k &&& CLOSEState.ackSent != 0) = r := by
  revert c f r k
  decide

@[simp] theorem packClose_test_ackRecv : (packClose c f r k &&& CLOSEState.ackRecv != 0) = k := by
  revert c f r k
  decide

theorem packClose_or_call : packClose c f r k ||| CLOSEState.call = packClose true f r k := by
  revert c f r k
  decide

theorem packClose_or_finSent : packClose c f r k ||| CLOSEState.finSent = packClose c true r k := by
  revert c f r k
  decide

theorem packClose_or_finRecv :
    packClose c f r k ||| CLOSEState.finRecv ||| CLOSEState.ackSent = packClose c f true k := by
  revert c f r k
  decide

theorem packClose_or_ackRecv : packClose c f r k ||| CLOSEState.ackRecv = packClose c f r true := by
  revert c f r k
  decide

theorem packClose_close :
    packClose c f r k &&& CLOSEState.close = CLOSEState.close ↔ f = true ∧ r = true ∧ k = true := by
  revert c f r k
  decide

theorem packClose_eq_all :
    packClose c f r k = CLOSEState.all ↔ c = true ∧ f = true ∧ r = true ∧ k = true := by
  revert c f r k
  decide

end packClose

/-! ### The correspondence -/

/-- A socket stands for an end of the connection. -/
structure Socket.Rep (k : Socket) (p : Peer) : Prop where
  state : k.state = if p.closed then .closed else .establisted
  isConnection : k.isConnection = !p.closed
  clstate : k.clstate = packClose p.call p.snd.fin p.rcv.fin p.ackRecv
  sendFront : k.sendFront = BitVec.ofNat 16 p.snd.written.length
  sendBack : k.sendBack = BitVec.ofNat 16 p.snd.sent
  ackBack : k.ackBack = BitVec.ofNat 16 p.snd.acked
  ackFront : k.ackFront = BitVec.ofNat 16 (p.snd.acked + p.snd.window)
  seqNum : k.seqNum = BitVec.ofNat 32 p.snd.acked
  recvFront : k.recvFront = BitVec.ofNat 16 p.rcv.accepted.length
  recvBack : k.recvBack = BitVec.ofNat 16 p.rcv.taken
  ackNum : k.ackNum = BitVec.ofNat 32 p.rcv.accepted.length
  resendTime : k.resendTime = p.timer
  writeRing : Holds bufferSize k.writeBuffer p.snd.acked (p.snd.written.drop p.snd.acked)
  readRing : Holds bufferSize k.readBuffer p.rcv.taken (p.rcv.accepted.drop p.rcv.taken)

/-- A TCP segment stands for a message. -/
inductive TCPPacket.Rep (packet : TCPPacket) : Msg → Prop
  | seg (m : Segment Byte) (ctrl : packet.tcpHeader.ctrl = if m.fin then ctFin else 0)
      (seqNum : htonl packet.tcpHeader.seqNum = BitVec.ofNat 32 m.seq)
      (data : packet.data = m.bytes) : Rep packet (.seg m)
  | ack (a : Ack) (ackBit : packet.tcpHeader.ctrl &&& ctAck ≠ 0)
      (finBit : packet.tcpHeader.ctrl &&& ctFin = 0)
      (ackNum : htonl packet.tcpHeader.ackNum = BitVec.ofNat 32 a.value)
      (window : htons packet.tcpHeader.window = BitVec.ofNat 16 a.win)
      (data : packet.data = []) : Rep packet (.ack a)

/-- What the invariant of the connection says about one end, as far as the width of its counters
is concerned. -/
structure Peer.Bounded (p : Peer) : Prop where
  acked_le_sent : p.snd.acked ≤ p.snd.sent
  sent_le : p.snd.sent ≤ p.snd.written.length
  sent_le_mss : p.snd.sent ≤ p.snd.acked + mss
  ring_le : p.snd.written.length ≤ p.snd.acked + cap
  window_le : p.snd.window ≤ cap
  taken_le : p.rcv.taken ≤ p.rcv.accepted.length
  unread_le : p.rcv.accepted.length ≤ p.rcv.taken + cap

theorem Duo.Inv.bounded {d : Duo} (h : d.Inv) (x : Side) : (d.peer x).Bounded := by
  have hsnd := h.dir x
  have hrcv := h.dir x.other
  rw [Duo.Dir, Side.other_other] at hrcv
  exact ⟨hsnd.acked_le_sent, hsnd.sent_le, hsnd.sent_le_mss, hsnd.ring_le, hsnd.window_le,
    hrcv.taken_le, hrcv.unread_le⟩

namespace Socket.Rep

variable {k : Socket} {p : Peer}

theorem hasFlag_call (h : k.Rep p) : k.hasFlag CLOSEState.call = p.call := by
  rw [Socket.hasFlag, h.clstate, packClose_test_call]

theorem hasFlag_finSent (h : k.Rep p) : k.hasFlag CLOSEState.finSent = p.snd.fin := by
  rw [Socket.hasFlag, h.clstate, packClose_test_finSent]

theorem hasFlag_finRecv (h : k.Rep p) : k.hasFlag CLOSEState.finRecv = p.rcv.fin := by
  rw [Socket.hasFlag, h.clstate, packClose_test_finRecv]

theorem hasFlag_ackSent (h : k.Rep p) : k.hasFlag CLOSEState.ackSent = p.rcv.fin := by
  rw [Socket.hasFlag, h.clstate, packClose_test_ackSent]

theorem hasFlag_ackRecv (h : k.Rep p) : k.hasFlag CLOSEState.ackRecv = p.ackRecv := by
  rw [Socket.hasFlag, h.clstate, packClose_test_ackRecv]

theorem state_eq_closed_iff (h : k.Rep p) : k.state = .closed ↔ p.closed = true := by
  rw [h.state]
  cases p.closed <;> simp

/-- The wait loop of `closeLab` only ends with both `FIN`s sent and an acknowledgement seen. -/
theorem finished_of_exits (h : k.Rep p) (hp : Duo.FlagsOk p) (hexits : closeLabExits k = true) :
    p.snd.fin = true ∧ p.rcv.fin = true ∧ p.ackRecv = true := by
  simp only [closeLabExits, Bool.or_eq_true, beq_iff_eq, h.state_eq_closed_iff, h.clstate,
    packClose_eq_all] at hexits
  exact hexits.elim And.right hp.closed_fin

/-- Free space of the receive ring. -/
theorem toNat_free (h : k.Rep p) (hp : p.Bounded) :
    (k.recvBack - 1 - k.recvFront).toNat = p.rcv.free cap := by
  rw [h.recvBack, h.recvFront, toNat_room hp.taken_le hp.unread_le]
  rfl

/-- Free space of the send ring. -/
theorem toNat_sendSpace (h : k.Rep p) (hp : p.Bounded) :
    (k.ackBack - 1 - k.sendFront).toNat = p.snd.acked + cap - p.snd.written.length := by
  rw [h.ackBack, h.sendFront, toNat_room (hp.acked_le_sent.trans hp.sent_le) hp.ring_le]
  rfl

theorem toNat_unread (h : k.Rep p) (hp : p.Bounded) :
    (k.recvFront - k.recvBack).toNat = p.rcv.accepted.length - p.rcv.taken := by
  have hle := hp.unread_le
  have hcap : cap < 2 ^ 16 := by decide
  rw [h.recvBack, h.recvFront, toNat_ofNat_sub hp.taken_le (by omega)]

end Socket.Rep

/-- What a ring holds past its start, after `bs` has been copied in behind it. -/
theorem holds_copyIn {buffer : Mem Byte} {start : ℕ} {stream data : List Byte} {len : BitVec 16}
    (hold : Holds bufferSize buffer start (stream.drop start)) (hstart : start ≤ stream.length)
    (hlen : len.toNat ≤ data.length) (hroom : stream.length + len.toNat ≤ start + cap) :
    Holds bufferSize (copyIn buffer (BitVec.ofNat 16 stream.length) data len) start
      ((stream ++ data.take len.toNat).drop start) := by
  have hcap : cap < bufferSize := by decide
  have hadd := hold.storeWrap (data.take len.toNat) (by decide) (by
    rw [List.length_drop, List.length_take]
    omega)
  rw [List.length_drop, Nat.add_sub_cancel' hstart] at hadd
  rwa [copyIn_eq_storeWrap hlen, BitVec.toNat_ofNat, List.drop_append_of_le_length hstart]

/-- What the copy out of a ring returns. -/
theorem copyOut_eq_take {buffer : Mem Byte} {start : ℕ} {bs : List Byte} {len : BitVec 16}
    (hold : Holds bufferSize buffer start bs) (hlen : len.toNat ≤ bs.length) :
    copyOut buffer (BitVec.ofNat 16 start) len = bs.take len.toNat := by
  rw [copyOut_eq_loadWrap, BitVec.toNat_ofNat]
  exact hold.loadWrap (by decide) hlen len.isLt.le

theorem copyOutBetween_eq_take {buffer : Mem Byte} {start n : ℕ} {bs : List Byte}
    (hold : Holds bufferSize buffer start bs) (hlen : n ≤ bs.length) (hn : n < bufferSize) :
    copyOutBetween buffer (BitVec.ofNat 16 start) (BitVec.ofNat 16 (start + n)) = bs.take n := by
  rw [copyOutBetween_eq_loadBetween, BitVec.toNat_ofNat, BitVec.toNat_ofNat]
  exact (loadBetween_eq_loadWrap (by decide) hn).trans (hold.loadWrap (by decide) hlen hn.le)

/-! ### The calls of the application -/

namespace Socket.Rep

variable {k : Socket} {p : Peer}

theorem writeRefused_iff (h : k.Rep p) : writeRefused k = (p.closed || p.rcv.fin) := by
  have hmask : TCPState.establisted.toBits &&& CLOSEState.call = 0 := by decide
  rw [writeRefused, h.hasFlag_finRecv, h.state]
  cases p.closed <;> simp [hmask]

/-- The copy of `writeLab`. -/
theorem writeCommit (h : k.Rep p) (hp : p.Bounded) {buf : List Byte} {len : BitVec 16}
    (hlen : len.toNat ≤ buf.length)
    (hroom : p.snd.written.length + len.toNat ≤ p.snd.acked + cap) :
    (LabNetstack.writeCommit k buf len).Rep
      { p with snd := p.snd.write (buf.take len.toNat) } := by
  have hfront : k.sendFront + len =
    BitVec.ofNat 16 (p.snd.written ++ buf.take len.toNat).length := by
    rw [h.sendFront, List.length_append, List.length_take, Nat.min_eq_left hlen,
      BitVec.ofNat_add, BitVec.ofNat_toNat, BitVec.setWidth_eq]
  have hring := holds_copyIn h.writeRing (hp.acked_le_sent.trans hp.sent_le) hlen hroom
  rw [← h.sendFront] at hring
  exact { h with sendFront := hfront, writeRing := hring }

/-- `writeLab` returns exactly when the connection does, with the same bytes accepted. -/
theorem writeLab (h : k.Rep p) (hp : p.Bounded) (buf : List Byte) :
    Option.Rel (fun (r : ℤ × Socket) q => r.2.Rep q ∧ q.rcv = p.rcv ∧
      q.snd.written = p.snd.written ++ buf.take r.1.toNat) (LabNetstack.writeLab k buf)
      (p.write buf) := by
  have hsize : (sendByte k buf.length).toNat
      = min buf.length (p.snd.acked + cap - p.snd.written.length) := by
    rw [sendByte, toNat_clamp, h.toNat_sendSpace hp]
  have hpos_iff := zero_lt_iff_toNat (sendByte k buf.length)
  simp only [LabNetstack.writeLab, h.writeRefused_iff, Peer.write, ← hsize, hpos_iff,
    h.state_eq_closed_iff]
  split_ifs with hrefused hpos hclosed
  · exact .some ⟨h, rfl, by simp⟩
  · exact .some ⟨h.writeCommit hp (by omega) (by have := hp.ring_le; omega), rfl, rfl⟩
  · simp [hclosed] at hrefused
  · exact .none

/-- The copy of `readLab`. -/
theorem readCommit (h : k.Rep p) (len : BitVec 16)
    (hlen : p.rcv.taken + len.toNat ≤ p.rcv.accepted.length) :
    (LabNetstack.readCommit k len).1 = (p.rcv.accepted.drop p.rcv.taken).take len.toNat ∧
      (LabNetstack.readCommit k len).2.Rep { p with rcv := p.rcv.take len.toNat } := by
  constructor
  · rw [LabNetstack.readCommit, h.recvBack]
    exact copyOut_eq_take h.readRing (by rw [List.length_drop]; omega)
  · have hback : k.recvBack + len = BitVec.ofNat 16 (p.rcv.taken + len.toNat) := by
      rw [h.recvBack, BitVec.ofNat_add, BitVec.ofNat_toNat, BitVec.setWidth_eq]
    have hring := h.readRing.drop len.toNat
    rw [List.drop_drop] at hring
    exact { h with recvBack := hback, readRing := hring }

theorem readLab (h : k.Rep p) (hp : p.Bounded) (nbyte : ℕ) :
    Option.Rel (fun (r : List Byte × Socket) q => r.2.Rep q ∧ q.snd = p.snd ∧
      q.rcv.accepted.take q.rcv.taken = p.rcv.accepted.take p.rcv.taken ++ r.1)
      (LabNetstack.readLab k nbyte) (p.read nbyte) := by
  have hsize : (recvByte k nbyte).toNat
      = min nbyte (p.rcv.accepted.length - p.rcv.taken) := by
    rw [recvByte, toNat_clamp, h.toNat_unread hp]
  have hpos_iff := zero_lt_iff_toNat (recvByte k nbyte)
  simp only [LabNetstack.readLab, Peer.read, ← hsize, hpos_iff, h.state_eq_closed_iff]
  split_ifs with hpos hclosed
  · have htaken := hp.taken_le
    obtain ⟨hbytes, hrep⟩ := h.readCommit (recvByte k nbyte) (by omega)
    refine .some ⟨hrep, rfl, ?_⟩
    rw [hbytes]
    exact List.take_add
  · exact .some ⟨h, rfl, by simp⟩
  · exact .none

theorem closeLab (h : k.Rep p) : (LabNetstack.closeLab k).Rep { p with call := true } := by
  have hcl : k.clstate ||| CLOSEState.call
      = packClose true p.snd.fin p.rcv.fin p.ackRecv := by
    rw [h.clstate, packClose_or_call]
  exact { h with clstate := hcl }

end Socket.Rep

/-! ### The timer -/

theorem ofNat_add_toNat (n : ℕ) (len : BitVec 16) :
    BitVec.ofNat 16 n + len = BitVec.ofNat 16 (n + len.toNat) := by
  rw [BitVec.ofNat_add, BitVec.ofNat_toNat, BitVec.setWidth_eq]

namespace Socket.Rep

variable {k : Socket} {p : Peer}

theorem outstanding_iff (h : k.Rep p) (hp : p.Bounded) :
    k.sendBack ≠ k.ackBack ↔ p.snd.sent ≠ p.snd.acked := by
  have hmss := hp.sent_le_mss
  have hsmall : mss < 2 ^ 16 := by decide
  rw [h.sendBack, h.ackBack, Ne, eq_comm, ofNat_inj_of_le hp.acked_le_sent (by omega), eq_comm]

theorem drained_iff (h : k.Rep p) (hp : p.Bounded) :
    k.ackBack = k.sendBack ∧ k.sendBack = k.sendFront ↔
      p.snd.acked = p.snd.sent ∧ p.snd.sent = p.snd.written.length := by
  have hmss := hp.sent_le_mss
  have hack := hp.acked_le_sent
  have hsent := hp.sent_le
  have hring := hp.ring_le
  have hsmall : mss < 2 ^ 16 := by decide
  have hcap : cap < 2 ^ 16 := by decide
  rw [h.sendBack, h.ackBack, h.sendFront, ofNat_inj_of_le hack (by omega),
    ofNat_inj_of_le hsent (by omega)]

theorem zeroWindow_iff (h : k.Rep p) (hp : p.Bounded) :
    k.ackBack = k.ackFront ↔ p.snd.window = 0 := by
  have hwin := hp.window_le
  have hcap : cap < 2 ^ 16 := by decide
  rw [h.ackBack, h.ackFront, ofNat_inj_of_le (Nat.le_add_right ..) (by omega)]
  omega

/-- The stretch to send, when there is one to repeat or a window to probe. -/
theorem chooseSegment_repeat (h : k.Rep p) (hp : p.Bounded) (now : ℕ)
    (hrepeat : p.snd.sent ≠ p.snd.acked ∨ p.snd.window = 0) :
    chooseSegment now k = if k.resendTime < now then
      ({ k with resendTime := now + resendInterval }, some (k.ackBack, k.sendBack))
      else (k, none) := by
  rw [← h.outstanding_iff hp, ← h.zeroWindow_iff hp] at hrepeat
  rw [chooseSegment]
  by_cases hout : k.sendBack ≠ k.ackBack
  · rw [if_pos hout]
  · rw [if_neg hout, if_pos (hrepeat.resolve_left hout)]

/-- The stretch to send otherwise: as much as there is, fits the window and fits a segment. -/
theorem chooseSegment_next (h : k.Rep p) (hp : p.Bounded) (now : ℕ)
    (hidle : p.snd.sent = p.snd.acked) (hwin : p.snd.window ≠ 0) {n : ℕ}
    (hn : n = min (min (p.snd.written.length - p.snd.sent) p.snd.window) mss) :
    chooseSegment now k = if 0 < n then
      ({ k with sendBack := BitVec.ofNat 16 (p.snd.sent + n), resendTime := now + resendInterval },
        some (k.sendBack, BitVec.ofNat 16 (p.snd.sent + n)))
      else (k, none) := by
  have hring := hp.ring_le
  have hwle := hp.window_le
  have hcap : cap < 2 ^ 16 := by decide
  have hlen₁ : (k.sendFront - k.sendBack).toNat = p.snd.written.length - p.snd.sent := by
    rw [h.sendFront, h.sendBack, toNat_ofNat_sub hp.sent_le (by omega)]
  have hlen₂ : (k.ackFront - k.sendBack).toNat = p.snd.window := by
    rw [h.ackFront, h.sendBack, toNat_ofNat_sub (by omega) (by omega)]
    omega
  have hlen := toNat_ite_lt (k.sendFront - k.sendBack) (k.ackFront - k.sendBack)
  rw [hlen₁, hlen₂] at hlen
  have hmss : maxTCPLen.toNat = mss := rfl
  simp only [chooseSegment]
  rw [if_neg ((h.outstanding_iff hp).not.mpr (not_not_intro hidle)),
    if_neg ((h.zeroWindow_iff hp).not.mpr hwin)]
  generalize (if k.sendFront - k.sendBack < k.ackFront - k.sendBack then k.sendFront - k.sendBack
    else k.ackFront - k.sendBack) = len at hlen
  have hclamp := toNat_ite_lt maxTCPLen len
  rw [hlen, hmss, Nat.min_comm, ← hn] at hclamp
  have hpos : 0 < len ↔ 0 < n := by
    rw [zero_lt_iff_toNat, hlen]
    have : 0 < mss := by decide
    omega
  simp only [hpos, h.sendBack, ofNat_add_toNat, hclamp]

/-- The segment of a stretch of the send ring. -/
theorem segment (h : k.Rep p) {ctrl : BitVec 8} (fin : Bool) (window : BitVec 16)
    (hctrl : ctrl = if fin then ctFin else 0) (bytes : List Byte) :
    (sendTCPPacket (createTCPHeader k.srcport k.desport k.seqNum k.ackNum ctrl window) k
      bytes).Rep (.seg ⟨p.snd.acked, bytes, fin⟩) :=
  .seg _ hctrl (by simp [sendTCPPacket, createTCPHeader, h.seqNum]) rfl

theorem sendSegment (h : k.Rep p) (hp : p.Bounded) (now : ℕ) :
    (LabNetstack.sendSegment now k).1.Rep (p.sendSegment now).1 ∧
      List.Forall₂ TCPPacket.Rep (LabNetstack.sendSegment now k).2 (p.sendSegment now).2 := by
  have hmss := hp.sent_le_mss
  have hsmall : mss < bufferSize := by decide
  simp only [LabNetstack.sendSegment, Peer.sendSegment]
  split_ifs with hrepeat htimer hpos
  · have hbytes := copyOutBetween_eq_take (n := p.snd.sent - p.snd.acked) h.writeRing
      (by rw [List.length_drop]; have := hp.sent_le; omega) (by omega)
    rw [Nat.add_sub_cancel' hp.acked_le_sent, ← h.ackBack, ← h.sendBack] at hbytes
    rw [h.chooseSegment_repeat hp now hrepeat, if_pos (h.resendTime ▸ htimer)]
    simp only
    rw [hbytes]
    have hrep : Socket.Rep { k with resendTime := now + resendInterval }
        { p with timer := now + resendInterval } := { h with resendTime := rfl }
    exact ⟨hrep, .cons (hrep.segment false _ rfl _) .nil⟩
  · rw [h.chooseSegment_repeat hp now hrepeat, if_neg (h.resendTime ▸ htimer)]
    exact ⟨h, .nil⟩
  · obtain ⟨hidle, hwin⟩ := not_or.mp hrepeat
    rw [h.chooseSegment_next hp now (not_not.mp hidle) hwin rfl, if_pos hpos]
    generalize hn : min (min (p.snd.written.length - p.snd.sent) p.snd.window) mss = n at hpos
    have hbytes := copyOutBetween_eq_take (n := n) h.writeRing
      (by rw [List.length_drop]; omega) (by omega)
    rw [← not_not.mp hidle, ← h.sendBack] at hbytes
    simp only
    rw [hbytes]
    have hrep : Socket.Rep
        { k with
          sendBack := BitVec.ofNat 16 (p.snd.sent + n)
          resendTime := now + resendInterval }
        { p with snd := p.snd.transmit n, timer := now + resendInterval } :=
      { h with sendBack := rfl, resendTime := rfl }
    have hpending : (p.snd.transmit n).pending = (p.snd.written.drop p.snd.sent).take n := by
      rw [Sender.pending, Sender.transmit, not_not.mp hidle, Nat.add_sub_cancel_left]
    rw [Sender.current, hpending]
    exact ⟨hrep, .cons (hrep.segment false _ rfl _) .nil⟩
  · obtain ⟨hidle, hwin⟩ := not_or.mp hrepeat
    rw [h.chooseSegment_next hp now (not_not.mp hidle) hwin rfl, if_neg hpos]
    exact ⟨h, .nil⟩

theorem sendFin (h : k.Rep p) (hp : p.Bounded) (now : ℕ) :
    (LabNetstack.sendFin now k).1.Rep (p.sendFin now).1 ∧
      List.Forall₂ TCPPacket.Rep (LabNetstack.sendFin now k).2 (p.sendFin now).2 := by
  simp only [LabNetstack.sendFin, Peer.sendFin, h.drained_iff hp, h.hasFlag_finRecv,
    h.hasFlag_ackSent, h.hasFlag_call, h.hasFlag_finSent, h.hasFlag_ackRecv, h.resendTime,
    Bool.and_self]
  split_ifs with hdrained hcause hagain
  · have hcl : k.clstate ||| CLOSEState.finSent = packClose p.call true p.rcv.fin p.ackRecv := by
      rw [h.clstate, packClose_or_finSent]
    have hrep : Socket.Rep
        { k with
          clstate := k.clstate ||| CLOSEState.finSent
          resendTime := now + finInterval }
        { p with snd := p.snd.finish, timer := now + finInterval } :=
      { h with clstate := hcl, resendTime := rfl }
    exact ⟨hrep, .cons (hrep.segment true _ rfl _) .nil⟩
  all_goals exact ⟨h, .nil⟩

end Socket.Rep

/-- The first half of a tick keeps the counters close. -/
theorem Peer.Bounded.sendSegment {p q : Peer} {now : ℕ} {out : List Msg} (hp : p.Bounded)
    (h : p.sendSegment now = (q, out)) : q.Bounded := by
  rcases Peer.sendSegment_cases h with
    ⟨rfl, -⟩ | ⟨-, -, rfl, -⟩ | ⟨n, hidle, -, hmss, -, havail, rfl, -⟩
  · exact hp
  · exact ⟨hp.acked_le_sent, hp.sent_le, hp.sent_le_mss, hp.ring_le, hp.window_le, hp.taken_le,
      hp.unread_le⟩
  · refine ⟨?_, havail, ?_, hp.ring_le, hp.window_le, hp.taken_le, hp.unread_le⟩
    all_goals
      simp only [Sender.transmit]
      omega

theorem Socket.Rep.asyncSendTCPPacket {k : Socket} {p : Peer} (h : k.Rep p) (hp : p.Bounded)
    (now : ℕ) :
    (LabNetstack.asyncSendTCPPacket now k).1.Rep (p.tick now).1 ∧
      List.Forall₂ TCPPacket.Rep (LabNetstack.asyncSendTCPPacket now k).2 (p.tick now).2 := by
  rw [LabNetstack.asyncSendTCPPacket, h.isConnection, Bool.not_not, Peer.tick]
  split_ifs with hclosed
  · exact ⟨h, .nil⟩
  · obtain ⟨hrep, hout⟩ := h.sendSegment hp now
    obtain ⟨hrep', hout'⟩ := hrep.sendFin (hp.sendSegment rfl) now
    exact ⟨hrep', List.rel_append hout hout'⟩

/-! ### The handlers -/

/-- What the invariant says about a message and the end it is about to reach. -/
def Peer.Admits (p : Peer) : Msg → Prop
  | .seg m => m.seq ≤ p.rcv.accepted.length ∧ p.rcv.accepted.length ≤ m.seq + mss ∧
      (m.fin = true → m.bytes = []) ∧
      (m.seq = p.rcv.accepted.length → m.bytes.length ≤ p.rcv.free cap)
  | .ack a => p.snd.acked ≤ a.value ∧ a.value ≤ p.snd.sent + 1

theorem Duo.Inv.admits {d : Duo} (h : d.Inv) {x : Side} {m : Msg} (hm : m ∈ d.chan x) :
    (d.peer x.other).Admits m := by
  have hdir := h.dir x
  have hother := h.dir x.other
  rw [Duo.Dir, Side.other_other] at hother
  cases m with
  | seg m =>
    have hmem := Msg.mem_segs.mpr hm
    have hok := hdir.fwd_ok m hmem
    refine ⟨hok.seq_le.trans hdir.acked_le, hok.recent, fun hf => (hok.fin hf).1, fun hseq => ?_⟩
    by_cases hne : m.bytes = []
    · simp [hne]
    · exact (hdir.fits hmem hseq hne).2
  | ack a =>
    obtain ⟨hlo, hhi⟩ := hother.ack_num_cases (Msg.mem_acks.mpr hm)
    have hfin : a.fin.toNat ≤ 1 := Bool.toNat_le a.fin
    constructor <;> simp only [Ack.value] <;> omega

namespace Socket.Rep

variable {k : Socket} {p : Peer}

/-- The send side of an acknowledgement; the assertion never fails. -/
theorem acceptAck (h : k.Rep p) (hp : p.Bounded) {a : Ack} (hlo : p.snd.acked ≤ a.value)
    (hhi : a.value ≤ p.snd.sent + 1) :
    ∃ k', LabNetstack.acceptAck k (BitVec.ofNat 32 a.value) (BitVec.ofNat 16 a.win) = some k' ∧
      k'.Rep { p with snd := p.snd.onAck a } ∧ k'.clstate = k.clstate := by
  have hmss := hp.sent_le_mss
  have hsmall : mss + 1 < 2 ^ 16 := by decide
  have hlow : BitVec.setWidth 16 (BitVec.ofNat 32 a.value) = BitVec.ofNat 16 a.value :=
    BitVec.setWidth_ofNat_of_le (by decide) _
  -- the low 16 bits decide, because the number is close to the counter they are compared with
  have htest : BitVec.ofNat 16 a.value = k.sendBack ↔ a.value = p.snd.sent := by
    rw [h.sendBack]
    rcases Nat.le_total a.value p.snd.sent with hle | hle
    · exact ofNat_inj_of_le hle (by omega)
    · rw [eq_comm, ofNat_inj_of_le hle (by omega), eq_comm]
  have hdiff : BitVec.setWidth 16 (BitVec.ofNat 32 a.value - k.seqNum)
      = BitVec.ofNat 16 (a.value - p.snd.acked) := by
    rw [h.seqNum, setWidth_ofNat_sub (by decide) hlo]
  have hback : k.ackBack + BitVec.ofNat 16 (a.value - p.snd.acked) = BitVec.ofNat 16 a.value := by
    rw [h.ackBack, add_ofNat_sub hlo]
  simp only [LabNetstack.acceptAck, hlow, htest, hdiff, hback, if_true]
  rw [Sender.onAck]
  split_ifs with hval
  · have hring := h.writeRing.drop (a.value - p.snd.acked)
    rw [List.drop_drop, Nat.add_sub_cancel' hlo] at hring
    exact ⟨_, rfl, { h with
      ackBack := rfl
      ackFront := by rw [BitVec.ofNat_add]
      seqNum := rfl
      writeRing := hring }, rfl⟩
  · exact ⟨k, rfl, h, rfl⟩

/-- The close flags after an acknowledgement. -/
theorem closeOnAck (h : k.Rep p) (hopen : p.closed = false) :
    (LabNetstack.closeOnAck k).Rep
      { p with ackRecv := p.ackRecv || p.snd.fin, closed := p.snd.fin && p.rcv.fin } := by
  have hflag : (if k.hasFlag CLOSEState.finSent then
      { k with clstate := k.clstate ||| CLOSEState.ackRecv } else k).Rep
      { p with ackRecv := p.ackRecv || p.snd.fin } := by
    rw [h.hasFlag_finSent]
    cases hfin : p.snd.fin with
    | false => simpa [hfin] using h
    | true =>
      have hcl : k.clstate ||| CLOSEState.ackRecv
          = packClose p.call p.snd.fin p.rcv.fin true := by
        rw [h.clstate, packClose_or_ackRecv]
      simpa [hfin] using ({ h with clstate := hcl } : Socket.Rep
        { k with clstate := k.clstate ||| CLOSEState.ackRecv } { p with ackRecv := true })
  rw [LabNetstack.closeOnAck]
  generalize (if k.hasFlag CLOSEState.finSent then
      { k with clstate := k.clstate ||| CLOSEState.ackRecv } else k) = k' at hflag
  have hclose : k'.clstate &&& CLOSEState.close = CLOSEState.close ↔
      (p.snd.fin && p.rcv.fin) = true := by
    rw [hflag.clstate, packClose_close, Bool.and_eq_true]
    constructor
    · exact fun hc => ⟨hc.1, hc.2.1⟩
    · exact fun hc => ⟨hc.1, hc.2, by simp [hc.1]⟩
  simp only [hclose]
  split_ifs with hdone
  · exact { hflag with state := by rw [hdone]; rfl, isConnection := by rw [hdone]; rfl }
  · have hfalse : (p.snd.fin && p.rcv.fin) = false := by simpa using hdone
    rw [hfalse, ← hopen]
    exact hflag

/-- The acknowledgement that the handlers answer with. -/
theorem replyAck (h : k.Rep p) (hp : p.Bounded) (fin : Bool) {ackNum : BitVec 32}
    (hnum : ackNum = BitVec.ofNat 32 (p.rcv.ack cap fin).value) :
    (LabNetstack.replyAck k ackNum).Rep (.ack (p.rcv.ack cap fin)) := by
  have hwin : k.recvBack - 1 - k.recvFront = BitVec.ofNat 16 (p.rcv.free cap) :=
    BitVec.eq_of_toNat_eq (by
      rw [h.toNat_free hp, BitVec.toNat_ofNat, Nat.mod_eq_of_lt]
      rw [← h.toNat_free hp]
      exact BitVec.isLt _)
  have hack : ctAck &&& ctAck ≠ 0 := by decide
  have hfin : ctAck &&& ctFin = 0 := by decide
  exact .ack _ hack hfin ((htonl_htonl _).trans hnum) ((htons_htons _).trans hwin) rfl

/-- The data branch, for a segment without flags; the assertion never fails. -/
theorem handleData (h : k.Rep p) (hp : p.Bounded) {m : Segment Byte} (tcpHeader : TCPHeader)
    (hm : p.Admits (.seg m)) (hfin : m.fin = false) (hctrl : tcpHeader.ctrl = 0)
    (hseq : tcpHeader.seqNum = BitVec.ofNat 32 m.seq) :
    ∃ k' out, LabNetstack.handleData k m.bytes tcpHeader = some (k', out) ∧
      k'.Rep { p with rcv := (p.rcv.onSegment cap m).1 } ∧
      List.Forall₂ TCPPacket.Rep out ((p.rcv.onSegment cap m).2.map .ack).toList := by
  obtain ⟨hle, hrecent, -, hfits⟩ := hm
  have hsmall : mss < 2 ^ 32 := by decide
  have hnext : BitVec.ofNat 32 m.seq = k.ackNum ↔ m.seq = p.rcv.accepted.length := by
    rw [h.ackNum, ofNat_inj_of_le hle (by omega)]
  simp only [LabNetstack.handleData, hseq, hctrl, hnext, true_and]
  rw [Receiver.onSegment, hfin, if_neg Bool.false_ne_true]
  by_cases hcont : m.seq = p.rcv.accepted.length
  · simp only [hcont, if_true, and_true]
    by_cases hdata : 0 < m.bytes.length
    · have hlen : m.bytes.length ≤ p.rcv.free cap := hfits hcont
      have hroom := h.toNat_free hp
      have hlt := (k.recvBack - 1 - k.recvFront).isLt
      have hreceived : (BitVec.ofNat 16 m.bytes.length).toNat = m.bytes.length := by
        rw [BitVec.toNat_ofNat, Nat.mod_eq_of_lt (by omega)]
      have hvalid : ¬ k.recvBack - 1 - k.recvFront < BitVec.ofNat 16 m.bytes.length := by
        rw [BitVec.lt_def, hreceived]
        omega
      rw [if_pos hdata, if_neg hvalid, if_pos rfl]
      have hring := holds_copyIn h.readRing hp.taken_le hreceived.le (by
        have := hp.unread_le
        simp only [Receiver.free] at hlen
        omega)
      rw [hreceived, List.take_length, ← h.recvFront] at hring
      have hrep : Socket.Rep
          { k with
            readBuffer := copyIn k.readBuffer k.recvFront m.bytes (BitVec.ofNat 16 m.bytes.length)
            ackNum := BitVec.ofNat 32 p.rcv.accepted.length
              + (BitVec.ofNat 16 m.bytes.length).setWidth 32
            recvFront := k.recvFront + BitVec.ofNat 16 m.bytes.length }
          { p with rcv := p.rcv.accept m.bytes } :=
        { h with
          recvFront := by
            rw [h.recvFront, ← BitVec.ofNat_add, Receiver.accept, List.length_append]
          ackNum := by
            rw [Receiver.accept, List.length_append, BitVec.ofNat_add]
            exact BitVec.eq_of_toNat_eq (by simp; omega)
          readRing := hring }
      have hbounded : Peer.Bounded { p with rcv := p.rcv.accept m.bytes } :=
        { hp with
          taken_le := hp.taken_le.trans (by simp [Receiver.accept])
          unread_le := by
            have := hp.unread_le
            simp only [Receiver.free] at hlen
            simp only [Receiver.accept, List.length_append]
            omega }
      exact ⟨_, _, rfl, hrep, .cons (hrep.replyAck hbounded false hrep.ackNum) .nil⟩
    · have hnil : m.bytes = [] := List.eq_nil_of_length_eq_zero (by omega)
      have hsame : p.rcv.accept [] = p.rcv := by simp [Receiver.accept]
      rw [if_neg hdata, hnil, hsame]
      exact ⟨_, _, rfl, h, .cons (h.replyAck hp false h.ackNum) .nil⟩
  · simp only [hcont, and_false, if_false]
    exact ⟨_, _, rfl, h, .nil⟩

/-- `TCPHandleEstablished` on a segment of the stream, a probe or a `FIN`. -/
theorem establishedSeg (h : k.Rep p) (hp : p.Bounded) {packet : TCPPacket} {m : Segment Byte}
    (hm : p.Admits (.seg m)) (hctrl : packet.tcpHeader.ctrl = if m.fin then ctFin else 0)
    (hseq : htonl packet.tcpHeader.seqNum = BitVec.ofNat 32 m.seq)
    (hdata : packet.data = m.bytes) :
    ∃ k' out, TCPHandleEstablished k packet = some (k', out) ∧
      k'.Rep { p with rcv := (p.rcv.onSegment cap m).1 } ∧
      List.Forall₂ TCPPacket.Rep out ((p.rcv.onSegment cap m).2.map .ack).toList := by
  have hnoack : packet.tcpHeader.ctrl &&& ctAck = 0 := by
    rw [hctrl]
    cases m.fin <;> decide
  simp only [TCPHandleEstablished, handleAck, hnoack, ne_eq, not_true_eq_false, if_false]
  cases hfin : m.fin with
  | false =>
    rw [hfin] at hctrl
    have hnofin : packet.tcpHeader.ctrl &&& ctFin = 0 := by
      rw [hctrl]
      decide
    obtain ⟨k', out, hrun, hrep, hout⟩ := h.handleData hp { packet.tcpHeader with
        seqNum := htonl packet.tcpHeader.seqNum
        ackNum := htonl packet.tcpHeader.ackNum
        window := htons packet.tcpHeader.window } hm hfin hctrl hseq
    simp only [handleFin, hnofin, ne_eq, not_true_eq_false, if_false, hdata, hrun]
    exact ⟨_, _, rfl, hrep, hout⟩
  | true =>
    rw [hfin] at hctrl
    have hfinbit : packet.tcpHeader.ctrl &&& ctFin ≠ 0 := by
      rw [hctrl]
      decide
    have hctrl0 : packet.tcpHeader.ctrl ≠ 0 := by
      rw [hctrl]
      decide
    have hcl : k.clstate ||| CLOSEState.finRecv ||| CLOSEState.ackSent
        = packClose p.call p.snd.fin true p.ackRecv := by
      rw [h.clstate, packClose_or_finRecv]
    have hrep : Socket.Rep
        { k with clstate := k.clstate ||| CLOSEState.finRecv ||| CLOSEState.ackSent }
        { p with rcv := { p.rcv with fin := true } } := { h with clstate := hcl }
    have hbounded : Peer.Bounded { p with rcv := { p.rcv with fin := true } } := { hp with }
    have hnum : k.ackNum + 1
        = BitVec.ofNat 32 (Receiver.ack cap { p.rcv with fin := true } true).value := by
      rw [h.ackNum]
      exact (BitVec.ofNat_add ..).symm
    simp only [handleFin, hfinbit, ne_eq, not_false_eq_true, if_true, hdata, hm.2.2.1 hfin,
      LabNetstack.handleData, List.length_nil, Nat.lt_irrefl, false_and, if_false, hctrl0,
      Receiver.onSegment, hfin]
    exact ⟨_, _, rfl, hrep, .cons (hrep.replyAck hbounded true hnum) .nil⟩

/-- `TCPHandleEstablished` on an acknowledgement. -/
theorem establishedAck (h : k.Rep p) (hp : p.Bounded) (hopen : p.closed = false)
    {packet : TCPPacket} {a : Ack} (ha : p.Admits (.ack a))
    (hackBit : packet.tcpHeader.ctrl &&& ctAck ≠ 0) (hfinBit : packet.tcpHeader.ctrl &&& ctFin = 0)
    (hnum : htonl packet.tcpHeader.ackNum = BitVec.ofNat 32 a.value)
    (hwin : htons packet.tcpHeader.window = BitVec.ofNat 16 a.win) (hdata : packet.data = []) :
    ∃ k', TCPHandleEstablished k packet = some (k', []) ∧
      k'.Rep { p with
        snd := p.snd.onAck a
        ackRecv := p.ackRecv || p.snd.fin
        closed := p.snd.fin && p.rcv.fin } := by
  obtain ⟨k₁, hrun, hrep, -⟩ := h.acceptAck hp ha.1 ha.2
  have hctrl0 : packet.tcpHeader.ctrl ≠ 0 := by
    intro hzero
    rw [hzero] at hackBit
    exact hackBit (by decide)
  have hrep' := hrep.closeOnAck hopen
  simp only [Sender.fin_onAck] at hrep'
  refine ⟨_, ?_, hrep'⟩
  simp only [TCPHandleEstablished, handleAck, hnum, hwin, hrun, Option.map_some, handleFin,
    hfinBit, hdata, LabNetstack.handleData, List.length_nil, Nat.lt_irrefl, hctrl0, ne_eq,
    not_true_eq_false, if_false, false_and, List.append_nil]
  rw [if_pos hackBit]

/-- Delivery of a message. -/
theorem handleTCPMain (h : k.Rep p) (hp : p.Bounded) {packet : TCPPacket} {m : Msg}
    (hm : packet.Rep m) (hadmits : p.Admits m) :
    ∃ k' out, LabNetstack.handleTCPMain k packet = some (k', out) ∧ k'.Rep (p.handle m).1 ∧
      List.Forall₂ TCPPacket.Rep out (p.handle m).2.toList := by
  cases hclosed : p.closed with
  | true =>
    have hstate : k.state = .closed := h.state_eq_closed_iff.mpr hclosed
    refine ⟨k, [], by simp [LabNetstack.handleTCPMain, hstate, TCPHandleClosed], ?_, ?_⟩
    all_goals cases m <;> simp [Peer.handle, hclosed, h]
  | false =>
    have hstate : k.state = .establisted := by simp [h.state, hclosed]
    simp only [LabNetstack.handleTCPMain, hstate]
    cases hm with
    | seg m hctrl hseq hdata =>
      obtain ⟨k', out, hrun, hrep, hout⟩ := h.establishedSeg hp hadmits hctrl hseq hdata
      exact ⟨k', out, hrun, by simpa [Peer.handle, hclosed] using hrep,
        by simpa [Peer.handle, hclosed] using hout⟩
    | ack a hackBit hfinBit hnum hwin hdata =>
      obtain ⟨k', hrun, hrep⟩ := h.establishedAck hp hclosed hadmits hackBit hfinBit hnum hwin hdata
      exact ⟨k', [], hrun, by simpa [Peer.handle, hclosed] using hrep,
        by simp [Peer.handle, hclosed]⟩

end Socket.Rep

end LabNetstack
