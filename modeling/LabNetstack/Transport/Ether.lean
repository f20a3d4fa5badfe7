import LabNetstack.Lib.AnyOrder
import LabNetstack.Transport.Closing
import LabNetstack.Transport.Stream

/-!
# A network that keeps nothing in order

The channels of `Sys` keep the order of what they carry. An IP network does not: a segment may be
overtaken by any number of others, and turn up again long after it has been answered. Here every
segment that was ever sent may be delivered at any time, as often as the network likes, or never;
what `chan x` holds is all that `x` has sent so far.

The numbers that a segment bears tell an old one from the next as long as they have not come round:
that takes 2³² bytes for a segment, but only 64 KiB for an acknowledgement, of whose number the
handler compares the lower half. So the stream is safe as long as neither side has written more.

## Main results

* `Duo.Loose.step` — the connection keeps its invariant, whatever is delivered
* `Ether.step_rel` — and the sockets stand for it, as long as the numbers have not come round
* `Ether.Reachable.stream` — what is read is a prefix of what was written, and nothing aborts
-/

namespace LabNetstack

open StopAndWait WrapCounter

/-- An action that does not touch the channels: a call of an application, or a tick. -/
def Action.Own : Action → Prop
  | .write _ _ => True
  | .read _ _ => True
  | .close _ => True
  | .tick _ _ => True
  | _ => False

instance : DecidablePred Action.Own := fun act => by
  cases act <;> unfold Action.Own <;> infer_instance

namespace Ether

inductive Event
  | own (act : Action)
  | deliver (x : Side) (i : ℕ)
deriving DecidableEq

/-- The `i`-th segment that `x` has sent reaches the other side, and stays where it is. -/
def deliver (x : Side) (i : ℕ) (s : Sys) : Option Sys :=
  match (s.chan x)[i]? with
  | none => none
  | some packet =>
    (handleTCPMain (s.socket x.other) packet).map fun (socket, out) => s.send x.other socket out

def step : Event → Sys → Option Sys
  | .own act, s => if act.Own then Sys.step act s else none
  | .deliver x i, s => deliver x i s

/-- What a run from the end of some handshake leads to. Its last two segments have been sent. -/
def Reachable (s : Sys) : Prop :=
  ∃ (h : Handshake) (events : List Event), (h.start 1 1).bind (Run.run step events) = some s

end Ether

/-! ### The connection -/

namespace Duo

variable {d d' : Duo} {x : Side}

def etherDeliver (x : Side) (i : ℕ) (d : Duo) : Option Duo :=
  match (d.chan x)[i]? with
  | none => none
  | some m =>
    let (p, answer) := (d.peer x.other).handle m
    some (d.send x.other p answer.toList)

def etherStep : Ether.Event → Duo → Option Duo
  | .own act, d => if act.Own then Duo.step act d else none
  | .deliver x i, d => d.etherDeliver x i

/-- The direction from `x` to the other side, in which everything that was sent may still come. -/
def LooseDir (d : Duo) (x : Side) : Prop :=
  StopAndWait.Loose cap mss (d.peer x).snd (d.peer x.other).rcv (Msg.segs (d.chan x))
    (Msg.acks (d.chan x.other))

structure Loose (d : Duo) : Prop where
  dir : ∀ x, d.LooseDir x
  flags : ∀ x, FlagsOk (d.peer x)

namespace Loose

theorem dir_other (h : d.Loose) (x : Side) :
    StopAndWait.Loose cap mss (d.peer x.other).snd (d.peer x).rcv (Msg.segs (d.chan x.other))
      (Msg.acks (d.chan x)) := by
  have hother := h.dir x.other
  rwa [LooseDir, Side.other_other] at hother

theorem of_sides (x : Side) (hx : d.LooseDir x) (hy : d.LooseDir x.other)
    (fx : FlagsOk (d.peer x)) (fy : FlagsOk (d.peer x.other)) : d.Loose :=
  ⟨Side.forall_of_other x hx hy, Side.forall_of_other (p := fun z => FlagsOk (d.peer z)) x fx fy⟩

/-- Replacing one end, and adding to what it has sent. -/
theorem send (h : d.Loose) {p : Peer} {out : List Msg}
    (hsnd : StopAndWait.Loose cap mss p.snd (d.peer x.other).rcv
      (Msg.segs (d.chan x) ++ Msg.segs out) (Msg.acks (d.chan x.other)))
    (hrcv : StopAndWait.Loose cap mss (d.peer x.other).snd p.rcv (Msg.segs (d.chan x.other))
      (Msg.acks (d.chan x) ++ Msg.acks out))
    (hp : FlagsOk p) : (d.send x p out).Loose := by
  rw [send_eq]
  refine .of_sides x ?_ ?_ ?_ ?_
  · simpa [LooseDir] using hsnd
  · simpa [LooseDir] using hrcv
  · simpa using hp
  · simpa using h.flags x.other

theorem setPeer (h : d.Loose) {p : Peer}
    (hsnd : StopAndWait.Loose cap mss p.snd (d.peer x.other).rcv (Msg.segs (d.chan x))
      (Msg.acks (d.chan x.other)))
    (hrcv : StopAndWait.Loose cap mss (d.peer x.other).snd p.rcv (Msg.segs (d.chan x.other))
      (Msg.acks (d.chan x)))
    (hp : FlagsOk p) : (d.setPeer x p).Loose := by
  refine .of_sides x ?_ ?_ ?_ ?_
  · simpa [LooseDir] using hsnd
  · simpa [LooseDir] using hrcv
  · simpa using hp
  · simpa using h.flags x.other

theorem bounded (h : d.Loose) (x : Side) : (d.peer x).Bounded := by
  have hsnd := (h.dir x).ends
  have hrcv := (h.dir_other x).ends
  exact ⟨hsnd.acked_le_sent, hsnd.sent_le, hsnd.sent_le_mss, hsnd.ring_le, hsnd.window_le,
    hrcv.taken_le, hrcv.unread_le⟩

theorem write (h : d.Loose) {buf : List Byte} (hcall : (d.peer x).call = false) {p : Peer}
    (hp : (d.peer x).write buf = some p) : (d.setPeer x p).Loose := by
  simp only [Peer.write] at hp
  split_ifs at hp with hrefused hpos
  · obtain rfl := Option.some.inj hp
    exact h.setPeer (h.dir x) (h.dir_other x) (h.flags x)
  · obtain rfl := Option.some.inj hp
    have hopen : (d.peer x).snd.fin = false := by
      by_contra hfin
      have := (h.flags x).fin_cause (by simpa using hfin)
      simp_all
    refine h.setPeer ((h.dir x).write hopen ?_) (h.dir_other x)
      ⟨(h.flags x).fin_cause, (h.flags x).ackRecv_fin, (h.flags x).closed_fin⟩
    have := (h.dir x).ends.ring_le
    rw [List.length_take]
    omega

theorem read (h : d.Loose) {nbyte : ℕ} {p : Peer} (hp : (d.peer x).read nbyte = some p) :
    (d.setPeer x p).Loose := by
  simp only [Peer.read] at hp
  split_ifs at hp with hpos hclosed
  · obtain rfl := Option.some.inj hp
    refine h.setPeer (h.dir x) ((h.dir_other x).take ?_)
      ⟨(h.flags x).fin_cause, (h.flags x).ackRecv_fin, (h.flags x).closed_fin⟩
    have := (h.dir_other x).ends.taken_le
    omega
  · obtain rfl := Option.some.inj hp
    exact h.setPeer (h.dir x) (h.dir_other x) (h.flags x)

theorem close (h : d.Loose) (x : Side) :
    (d.setPeer x { d.peer x with call := true }).Loose :=
  h.setPeer (h.dir x) (h.dir_other x)
    ⟨fun _ => Or.inl rfl, (h.flags x).ackRecv_fin, (h.flags x).closed_fin⟩

end Loose

end Duo

/-- A tick keeps the direction it sends in. -/
theorem Peer.tick_loose {p : Peer} {now : ℕ} {r : Receiver Byte} {fwd : List (Segment Byte)}
    {bwd : List Ack} (hinv : StopAndWait.Loose cap mss p.snd r fwd bwd) :
    StopAndWait.Loose cap mss (p.tick now).1.snd r (fwd ++ Msg.segs (p.tick now).2) bwd := by
  rcases h : p.tick now with ⟨q, out⟩
  rcases tick_cases h with ⟨-, rfl, rfl⟩ | ⟨-, p', out₁, out₂, h₁, h₂, rfl⟩
  · simpa using hinv
  · have hseg : StopAndWait.Loose cap mss p'.snd r (fwd ++ Msg.segs out₁) bwd := by
      rcases sendSegment_cases h₁ with ⟨rfl, rfl⟩ | ⟨-, -, rfl, rfl⟩ |
        ⟨n, hidle, hpos, hmss, hwin, havail, rfl, rfl⟩
      · simpa using hinv
      · exact hinv.repeatCurrent
      · exact hinv.transmit hidle hpos hmss hwin havail
    rw [Msg.segs_append, ← List.append_assoc]
    rcases sendFin_cases h₂ with ⟨rfl, rfl⟩ | ⟨hdrained, -, -, rfl, rfl⟩
    · simpa using hseg
    · exact hseg.finish hdrained

theorem Peer.fin_of_tick {p : Peer} (now : ℕ) (hfin : p.snd.fin = true) :
    (p.tick now).1.snd.fin = true := by
  rcases h : p.tick now with ⟨q, out⟩
  rcases tick_cases h with ⟨-, rfl, -⟩ | ⟨-, p', out₁, out₂, h₁, h₂, -⟩
  · exact hfin
  · have hseg : p'.snd.fin = true := by
      rcases sendSegment_cases h₁ with ⟨rfl, -⟩ | ⟨-, -, rfl, -⟩ | ⟨n, -, -, -, -, -, rfl, -⟩
      all_goals exact hfin
    rcases sendFin_cases h₂ with ⟨rfl, -⟩ | ⟨-, -, -, rfl, -⟩
    · exact hseg
    · rfl

namespace Duo.Loose

variable {d d' : Duo} {x : Side}

theorem tick (h : d.Loose) (now : ℕ) :
    (d.send x ((d.peer x).tick now).1 ((d.peer x).tick now).2).Loose := by
  obtain ⟨hrcv, -, -, -, hacks⟩ := Peer.tick_frame (d.peer x) now
  refine h.send (Peer.tick_loose (h.dir x)) ?_ (Peer.tick_flags (h.flags x))
  rw [hrcv, hacks, List.append_nil]
  exact h.dir_other x

/-- Whatever has been sent to the peer may be handed to it. -/
theorem handle (h : d.Loose) {m : Msg} (hm : m ∈ d.chan x) :
    (d.send x.other ((d.peer x.other).handle m).1 ((d.peer x.other).handle m).2.toList).Loose := by
  have hflags := Peer.handle_flags m (h.flags x.other)
  have hdir := h.dir x
  have hother := h.dir_other x
  rw [LooseDir] at hdir
  cases m with
  | seg m =>
    obtain ⟨hsnd, -, -, -, hsegs⟩ := Peer.handle_seg_frame (d.peer x.other) m
    refine h.send ?_ ?_ hflags
    · rw [hsnd, hsegs, List.append_nil, Side.other_other]
      exact hother
    · rw [Side.other_other]
      simp only [Peer.handle]
      split_ifs with hclosed
      · simpa using hdir
      · simpa using hdir.onSegment (Msg.mem_segs.mpr hm)
  | ack a =>
    obtain ⟨hrcv, -, -, hnone⟩ := Peer.handle_ack_frame (d.peer x.other) a
    refine h.send ?_ ?_ hflags
    · rw [hnone, Side.other_other]
      simp only [Peer.handle]
      split_ifs with hclosed
      · simpa using hother
      · simpa using hother.onAck (Msg.mem_acks.mpr hm)
    · rw [hrcv, hnone, Side.other_other]
      simpa using hdir

/-- **Every event keeps the invariant**, in whatever order the segments come. -/
theorem step (h : d.Loose) {event : Ether.Event} (hd : etherStep event d = some d') :
    d'.Loose := by
  cases event with
  | own act =>
    rw [etherStep] at hd
    split_ifs at hd with hown
    cases act with
    | write x buf =>
      simp only [Duo.step] at hd
      split_ifs at hd with hcall
      obtain ⟨p, hp, rfl⟩ := Option.map_eq_some_iff.mp hd
      exact h.write (by simpa using hcall) hp
    | read x nbyte =>
      obtain ⟨p, hp, rfl⟩ := Option.map_eq_some_iff.mp hd
      exact h.read hp
    | close x =>
      obtain rfl := Option.some.inj hd
      exact h.close x
    | tick x now =>
      obtain rfl := Option.some.inj hd
      exact h.tick now
    | deliver x => exact hown.elim
    | lose x i => exact hown.elim
    | repeatAt x i => exact hown.elim
  | deliver x i =>
    simp only [etherStep, etherDeliver] at hd
    split at hd
    · cases hd
    · next m hi =>
      obtain rfl := Option.some.inj hd
      exact h.handle (List.mem_of_getElem? hi)

end Duo.Loose

/-! ### Until somebody closes -/

namespace Duo

variable {d d' : Duo} {x : Side}

/-- Neither application has called `closeLab`, and no `FIN` has been sent. -/
structure Open (d : Duo) : Prop where
  call : ∀ x, (d.peer x).call = false
  fin : ∀ x, (d.peer x).snd.fin = false

theorem open_start (wa wb : ℕ) : (start wa wb).Open :=
  ⟨fun x => by cases x <;> rfl, fun x => by cases x <;> rfl⟩

namespace Open

theorem rcv_fin (ho : d.Open) (h : d.Loose) (x : Side) : (d.peer x).rcv.fin = false := by
  by_contra hfin
  have hsent := (h.dir_other x).ends.fin_recv (by simpa using hfin)
  rw [ho.fin] at hsent
  cases hsent

theorem closed (ho : d.Open) (h : d.Loose) (x : Side) : (d.peer x).closed = false := by
  by_contra hclosed
  have hsent := ((h.flags x).closed_fin (by simpa using hclosed)).1
  rw [ho.fin] at hsent
  cases hsent

theorem setPeer (ho : d.Open) {p : Peer} (hcall : p.call = false) (hfin : p.snd.fin = false) :
    (d.setPeer x p).Open := by
  refine ⟨Side.forall_of_other x ?_ ?_, Side.forall_of_other x ?_ ?_⟩
  · rwa [peer_setPeer_self]
  · rw [peer_setPeer_other]
    exact ho.call _
  · rwa [peer_setPeer_self]
  · rw [peer_setPeer_other]
    exact ho.fin _

theorem send (ho : d.Open) {p : Peer} {out : List Msg} (hcall : p.call = false)
    (hfin : p.snd.fin = false) : (d.send x p out).Open :=
  ⟨(ho.setPeer hcall hfin).call, (ho.setPeer hcall hfin).fin⟩

/-- **It takes a call of `closeLab`** before anything else of the closing handshake happens. -/
theorem step (ho : d.Open) (h : d.Loose) {event : Ether.Event} (hd : etherStep event d = some d')
    (hclose : ∀ x, event ≠ .own (.close x)) : d'.Open := by
  cases event with
  | own act =>
    rw [etherStep] at hd
    split_ifs at hd with hown
    cases act with
    | write x buf =>
      simp only [Duo.step] at hd
      split_ifs at hd
      obtain ⟨p, hp, rfl⟩ := Option.map_eq_some_iff.mp hd
      rw [Peer.write_frame hp]
      exact ho.setPeer (ho.call x) (ho.fin x)
    | read x nbyte =>
      obtain ⟨p, hp, rfl⟩ := Option.map_eq_some_iff.mp hd
      rw [Peer.read_frame hp]
      exact ho.setPeer (ho.call x) (ho.fin x)
    | close x => exact absurd rfl (hclose x)
    | tick x now =>
      obtain rfl := Option.some.inj hd
      obtain ⟨-, hcall, -⟩ := Peer.tick_frame (d.peer x) now
      exact ho.send (hcall.trans (ho.call x))
        (Peer.tick_unfinished (ho.fin x) (Or.inr ⟨ho.rcv_fin h x, ho.call x⟩))
    | deliver x => exact hown.elim
    | lose x i => exact hown.elim
    | repeatAt x i => exact hown.elim
  | deliver x i =>
    simp only [etherStep, etherDeliver] at hd
    split at hd
    · cases hd
    · next m hi =>
      obtain rfl := Option.some.inj hd
      obtain ⟨-, -, hcall⟩ := Peer.handle_keeps (p := d.peer x.other) m
      refine ho.send (hcall.trans (ho.call _)) ?_
      cases m with
      | seg m => rw [(Peer.handle_seg_frame (d.peer x.other) m).1, ho.fin]
      | ack a => rw [(Peer.handle_ack_frame (d.peer x.other) a).2.2.1, ho.fin]

end Open

/-- **A `FIN` is not taken back.** -/
theorem fin_of_step {event : Ether.Event} (hd : etherStep event d = some d')
    (hfin : (d.peer x).snd.fin = true) : (d'.peer x).snd.fin = true := by
  have hset : ∀ y p, ((d.peer y).snd.fin = true → p.snd.fin = true) →
      ((d.setPeer y p).peer x).snd.fin = true := by
    intro y p hp
    rcases Side.eq_or_eq_other y x with rfl | rfl
    · rw [peer_setPeer_self]
      exact hp hfin
    · rwa [peer_setPeer_other]
  cases event with
  | own act =>
    rw [etherStep] at hd
    split_ifs at hd with hown
    cases act with
    | write y buf =>
      simp only [Duo.step] at hd
      split_ifs at hd
      obtain ⟨p, hp, rfl⟩ := Option.map_eq_some_iff.mp hd
      exact hset y p fun h => by rwa [Peer.write_frame hp]
    | read y nbyte =>
      obtain ⟨p, hp, rfl⟩ := Option.map_eq_some_iff.mp hd
      exact hset y p fun h => by rwa [Peer.read_frame hp]
    | close y =>
      obtain rfl := Option.some.inj hd
      exact hset y _ id
    | tick y now =>
      obtain rfl := Option.some.inj hd
      exact hset y _ (Peer.fin_of_tick now)
    | deliver y => exact hown.elim
    | lose y i => exact hown.elim
    | repeatAt y i => exact hown.elim
  | deliver y i =>
    simp only [etherStep, etherDeliver] at hd
    split at hd
    · cases hd
    · next m hi =>
      obtain rfl := Option.some.inj hd
      refine hset y.other _ fun h => ?_
      cases m with
      | seg m => rwa [(Peer.handle_seg_frame (d.peer y.other) m).1]
      | ack a => rwa [(Peer.handle_ack_frame (d.peer y.other) a).2.2.1]

end Duo

/-! ### The sockets -/

/-- Neither number has come round since the message was sent. -/
def Peer.Recent (p : Peer) : Msg → Prop
  | .seg m => m.seq ≤ p.rcv.accepted.length ∧ p.rcv.accepted.length < m.seq + 2 ^ 32 ∧
      (m.fin = true → m.bytes = [] ∧ p.rcv.accepted.length ≤ m.seq + mss) ∧
      (m.seq = p.rcv.accepted.length → m.bytes.length ≤ p.rcv.free cap)
  | .ack a => a.value ≤ p.snd.sent + 1 ∧ p.snd.sent < a.value + 2 ^ 16

/-- In a short connection everything is recent. -/
theorem Duo.Loose.recent {d : Duo} (h : d.Loose)
    (hshort : ∀ x, (d.peer x).snd.written.length < 2 ^ 16) {x : Side} {m : Msg}
    (hm : m ∈ d.chan x) : (d.peer x.other).Recent m := by
  have hdir := h.dir x
  have hother := h.dir_other x
  rw [LooseDir] at hdir
  have hwritten := hshort x
  have hacc := hdir.ends.accepted_isPrefix.length_le
  cases m with
  | seg m =>
    have hmem := Msg.mem_segs.mpr hm
    have hsent := hdir.fwd_sent m hmem
    refine ⟨hsent.seq_le.trans hdir.ends.acked_le, by omega, fun hf => ?_, fun hseq => ?_⟩
    · obtain ⟨hnil, hfin, hseq⟩ := hsent.fin hf
      obtain ⟨hall, hacked, hlen, -⟩ := hdir.ends.complete hfin
      exact ⟨hnil, by omega⟩
    · by_cases hne : m.bytes = []
      · simp [hne]
      · exact (hdir.fits hmem hseq hne).2
  | ack a =>
    have hsent := hother.ends.sent_le
    have hwritten' := hshort x.other
    exact ⟨hother.value_le (Msg.mem_acks.mpr hm), by omega⟩

namespace Socket.Rep

variable {k : Socket} {p : Peer}

/-- What the ring holds is what has not been read. -/
theorem copyOut_unread (h : k.Rep p) (hp : p.Bounded) :
    copyOut k.readBuffer k.recvBack (k.recvFront - k.recvBack) =
      p.rcv.accepted.drop p.rcv.taken := by
  have hcount := h.toNat_unread hp
  rw [h.recvBack, copyOut_eq_take h.readRing]
  · rw [← h.recvBack, hcount, ← List.length_drop, List.take_length]
  · rw [← h.recvBack, hcount, List.length_drop]

/-- An acknowledgement of what has been acknowledged before does nothing. -/
theorem acceptAck_old (h : k.Rep p) (hp : p.Bounded) {a : Ack} (hold : a.value < p.snd.acked)
    (hrecent : p.snd.sent < a.value + 2 ^ 16) (window : BitVec 16) :
    LabNetstack.acceptAck k (BitVec.ofNat 32 a.value) window = some k ∧ p.snd.onAck a = p.snd := by
  have hacked := hp.acked_le_sent
  have hlow : BitVec.setWidth 16 (BitVec.ofNat 32 a.value) = BitVec.ofNat 16 a.value :=
    BitVec.setWidth_ofNat_of_le (by decide) _
  have htest : ¬ BitVec.ofNat 16 a.value = k.sendBack := by
    rw [h.sendBack, ofNat_inj_of_le (by omega) (by omega)]
    omega
  refine ⟨?_, if_neg (by omega)⟩
  simp only [LabNetstack.acceptAck, hlow, if_neg htest]

theorem establishedAck_old (h : k.Rep p) (hp : p.Bounded) (hopen : p.closed = false)
    {packet : TCPPacket} {a : Ack} (hold : a.value < p.snd.acked)
    (hrecent : p.snd.sent < a.value + 2 ^ 16)
    (hackBit : packet.tcpHeader.ctrl &&& ctAck ≠ 0) (hfinBit : packet.tcpHeader.ctrl &&& ctFin = 0)
    (hnum : htonl packet.tcpHeader.ackNum = BitVec.ofNat 32 a.value) (hdata : packet.data = []) :
    ∃ k', TCPHandleEstablished k packet = some (k', []) ∧
      k'.Rep { p with
        snd := p.snd.onAck a
        ackRecv := p.ackRecv || p.snd.fin
        closed := p.snd.fin && p.rcv.fin } := by
  obtain ⟨hrun, hsame⟩ := h.acceptAck_old hp hold hrecent (htons packet.tcpHeader.window)
  have hctrl0 : packet.tcpHeader.ctrl ≠ 0 := by
    intro hzero
    rw [hzero] at hackBit
    exact hackBit (by decide)
  rw [hsame]
  refine ⟨_, ?_, h.closeOnAck hopen⟩
  simp only [TCPHandleEstablished, handleAck, hnum, hrun, Option.map_some, handleFin,
    hfinBit, hdata, LabNetstack.handleData, List.length_nil, Nat.lt_irrefl, hctrl0, ne_eq,
    not_true_eq_false, if_false, false_and, List.append_nil]
  rw [if_pos hackBit]

/-- A segment of what has been taken before is dropped. -/
theorem establishedSeg_old (h : k.Rep p) {packet : TCPPacket} {m : Segment Byte}
    (hfin : m.fin = false) (hold : m.seq < p.rcv.accepted.length)
    (hrecent : p.rcv.accepted.length < m.seq + 2 ^ 32)
    (hctrl : packet.tcpHeader.ctrl = if m.fin then ctFin else 0)
    (hseq : htonl packet.tcpHeader.seqNum = BitVec.ofNat 32 m.seq) :
    TCPHandleEstablished k packet = some (k, []) := by
  have hnext : ¬ BitVec.ofNat 32 m.seq = k.ackNum := by
    rw [h.ackNum, ofNat_inj_of_le hold.le hrecent]
    omega
  rw [hfin] at hctrl
  have hnoack : packet.tcpHeader.ctrl &&& ctAck = 0 := by
    rw [hctrl]
    decide
  have hnofin : packet.tcpHeader.ctrl &&& ctFin = 0 := by
    rw [hctrl]
    decide
  simp only [TCPHandleEstablished, handleAck, handleFin, LabNetstack.handleData, hnoack, hnofin,
    hseq, hnext, ne_eq, not_true_eq_false, if_false, and_false, List.append_nil]

/-- Delivery of a message, however old it is. -/
theorem handleTCPMain_recent (h : k.Rep p) (hp : p.Bounded) {packet : TCPPacket} {m : Msg}
    (hm : packet.Rep m) (hrecent : p.Recent m) :
    ∃ k' out, LabNetstack.handleTCPMain k packet = some (k', out) ∧ k'.Rep (p.handle m).1 ∧
      List.Forall₂ TCPPacket.Rep out (p.handle m).2.toList := by
  by_cases hadmits : p.Admits m
  · exact h.handleTCPMain hp hm hadmits
  cases hclosed : p.closed with
  | true =>
    have hstate : k.state = .closed := h.state_eq_closed_iff.mpr hclosed
    refine ⟨k, [], by simp [LabNetstack.handleTCPMain, hstate, TCPHandleClosed], ?_, ?_⟩
    all_goals cases m <;> simp [Peer.handle, hclosed, h]
  | false =>
    have hstate : k.state = .establisted := by simp [h.state, hclosed]
    simp only [LabNetstack.handleTCPMain, hstate]
    cases hm with
    | seg m hctrl hseq hdata =>
      obtain ⟨hle, hwrap, hfin, hfits⟩ := hrecent
      have hold : m.fin = false ∧ m.seq < p.rcv.accepted.length := by
        by_contra hno
        refine hadmits ⟨hle, ?_, fun hf => (hfin hf).1, hfits⟩
        cases hf : m.fin with
        | true => exact (hfin hf).2
        | false =>
          have := not_and.mp hno hf
          omega
      have hsame : p.handle (.seg m) = (p, none) := by
        rw [Peer.handle, if_neg (by simp [hclosed]), Receiver.onSegment, if_neg (by simp [hold.1]),
          if_neg hold.2.ne]
        rfl
      rw [hsame]
      exact ⟨k, [], h.establishedSeg_old hold.1 hold.2 hwrap hctrl hseq, h, .nil⟩
    | ack a hackBit hfinBit hnum hwin hdata =>
      have hold : a.value < p.snd.acked := by
        by_contra hno
        exact hadmits ⟨by omega, hrecent.1⟩
      obtain ⟨k', hrun, hrep⟩ :=
        h.establishedAck_old hp hclosed hold hrecent.2 hackBit hfinBit hnum hdata
      exact ⟨k', [], hrun, by simpa [Peer.handle, hclosed] using hrep,
        by simp [Peer.handle, hclosed]⟩

end Socket.Rep

/-! ### The system -/

namespace Ether

variable {s s' : Sys} {d : Duo} {x : Side}

/-- What has been written stays written. -/
theorem written_isPrefix {event : Event} (h : step event s = some s') (x : Side) :
    s.written x <+: s'.written x := by
  cases event with
  | own act =>
    rw [step] at h
    split_ifs at h with hown
    cases act with
    | write y buf =>
      simp only [Sys.step] at h
      split_ifs at h
      obtain ⟨⟨n, k⟩, -, rfl⟩ := Option.map_eq_some_iff.mp h
      rcases Side.eq_or_eq_other y x with rfl | rfl
      · simp
      · simp
    | read y nbyte =>
      obtain ⟨⟨bytes, k⟩, -, rfl⟩ := Option.map_eq_some_iff.mp h
      exact List.prefix_refl _
    | close y => exact Option.some.inj h ▸ List.prefix_refl _
    | tick y now => exact Option.some.inj h ▸ List.prefix_refl _
    | deliver y => exact hown.elim
    | lose y i => exact hown.elim
    | repeatAt y i => exact hown.elim
  | deliver y i =>
    simp only [step, deliver] at h
    split at h
    · cases h
    · obtain ⟨⟨k, out⟩, -, rfl⟩ := Option.map_eq_some_iff.mp h
      exact List.prefix_refl _

/-- An own action of one side. -/
theorem own_rel (h : s.Rep d) (hinv : d.Loose) {act : Action} (hown : act.Own) :
    Option.Rel Sys.Rep (Sys.step act s) (Duo.step act d) := by
  cases act with
  | write x buf =>
    simp only [Sys.step, Duo.step, (h.socket x).hasFlag_call]
    split_ifs
    · exact .none
    · have hwrite := (h.socket x).writeLab (hinv.bounded x) buf
      generalize writeLab (s.socket x) buf = o, (d.peer x).write buf = o' at hwrite
      cases hwrite with
      | none => exact .none
      | some hstep =>
        obtain ⟨hk, hrcv, hw⟩ := hstep
        refine .some (h.setSocket hk ?_ ?_ (by simp) rfl)
        · rw [Function.update_self, hw, h.written x]
        · rw [hrcv, h.returned x]
  | read x nbyte =>
    have hread := (h.socket x).readLab (hinv.bounded x) nbyte
    simp only [Sys.step, Duo.step]
    generalize readLab (s.socket x) nbyte = o, (d.peer x).read nbyte = o' at hread
    cases hread with
    | none => exact .none
    | some hstep =>
      obtain ⟨hk, hsnd, hr⟩ := hstep
      refine .some (h.setSocket hk ?_ ?_ rfl (by simp))
      · rw [hsnd, h.written x]
      · rw [Function.update_self, hr, h.returned x]
  | close x =>
    exact .some (h.setSocket (h.socket x).closeLab (h.written x) (h.returned x) rfl rfl)
  | tick x now =>
    obtain ⟨hk, hout⟩ := (h.socket x).asyncSendTCPPacket (hinv.bounded x) now
    have hrcv : ((d.peer x).tick now).1.rcv.accepted.take ((d.peer x).tick now).1.rcv.taken
        = (d.peer x).rcv.accepted.take (d.peer x).rcv.taken := by
      rw [(Peer.tick_frame (d.peer x) now).1]
    exact .some (h.send hk hout (Peer.tick_written _ now) hrcv)
  | deliver x => exact hown.elim
  | lose x i => exact hown.elim
  | repeatAt x i => exact hown.elim

/-- A delivery, in a connection that is still short. -/
theorem deliver_rel (h : s.Rep d) (hinv : d.Loose)
    (hshort : ∀ x, (s.written x).length < 2 ^ 16) (x : Side) (i : ℕ) :
    Option.Rel Sys.Rep (deliver x i s) (d.etherDeliver x i) := by
  have hchan : Option.Rel TCPPacket.Rep (s.chan x)[i]? (d.chan x)[i]? := by
    have hall := h.chan x
    generalize s.chan x = l, d.chan x = l' at hall
    induction hall generalizing i with
    | nil => exact .none
    | cons hfirst _ ih =>
      cases i with
      | zero => exact .some hfirst
      | succ i => exact ih i
  rw [deliver, Duo.etherDeliver]
  generalize hi : (d.chan x)[i]? = o' at hchan
  generalize (s.chan x)[i]? = o at hchan
  cases hchan with
  | none => exact .none
  | @some packet m hm =>
    have hrecent := hinv.recent (fun y => h.written y ▸ hshort y) (List.mem_of_getElem? hi)
    obtain ⟨k', out, hrun, hk, hout⟩ :=
      (h.socket x.other).handleTCPMain_recent (hinv.bounded x.other) hm hrecent
    obtain ⟨hw, hr⟩ := Peer.handle_history m (hinv.bounded x.other)
    simp only [hrun, Option.map_some]
    exact .some (h.send hk hout hw hr)

/-- **The refinement**, as long as the connection is short. -/
theorem step_rel (h : s.Rep d) (hinv : d.Loose) (hshort : ∀ x, (s.written x).length < 2 ^ 16)
    (event : Event) : Option.Rel Sys.Rep (step event s) (Duo.etherStep event d) := by
  cases event with
  | own act =>
    rw [step, Duo.etherStep]
    split_ifs with hown
    · exact own_rel h hinv hown
    · exact .none
  | deliver x i => exact deliver_rel h hinv hshort x i

/-- A system that stands for a connection with the invariant. -/
def Refines (s : Sys) (d : Duo) : Prop := s.Rep d ∧ d.Loose

theorem Refines.step (h : Refines s d) (hshort : ∀ x, (s.written x).length < 2 ^ 16)
    {event : Event} (hstep : Ether.step event s = some s') : ∃ d', Refines s' d' := by
  obtain ⟨d', hd', hrep⟩ := Run.rel_some_left (step_rel h.1 h.2 hshort event) hstep
  exact ⟨d', hrep, h.2.step hd'⟩

/-- Both of the segments that the handshake leaves behind may come again. -/
theorem loose_start (i j : ℕ) : (Duo.start i j).Loose := by
  have hinv := Duo.start_inv i j
  have hack : AckSent cap Peer.start.rcv startAck :=
    ⟨le_rfl, le_rfl, le_rfl, fun hf => absurd hf Bool.false_ne_true⟩
  have hall : ∀ y, ∀ m ∈ (Duo.start i j).chan y, m = .ack startAck := by
    intro y m hm
    cases y <;> exact List.eq_of_mem_replicate hm
  refine ⟨fun x => ⟨?_, fun m hm => ?_, fun a ha => ?_⟩, hinv.flags⟩
  · exact .start _ rfl
  · exact absurd (hall x _ (Msg.mem_segs.mp hm)) (by simp)
  · obtain rfl := Msg.ack.inj (hall x.other _ (Msg.mem_acks.mp ha))
    exact hack

theorem Reachable.refines (h : Reachable s) (hshort : ∀ x, (s.written x).length < 2 ^ 16) :
    ∃ d, Refines s d := by
  obtain ⟨hs, events, hrun⟩ := h
  obtain ⟨s₀, hstart, hrep⟩ := hs.start_rep 1 1
  rw [hstart] at hrun
  have hkeep : ∀ (event : Event) (t t' : Sys),
      ((∀ x, (t.written x).length < 2 ^ 16) → ∃ d, Refines t d) → step event t = some t' →
        (∀ x, (t'.written x).length < 2 ^ 16) → ∃ d, Refines t' d := by
    intro event t t' ht hstep hshort
    have hshort' : ∀ x, (t.written x).length < 2 ^ 16 :=
      fun x => ((written_isPrefix hstep x).length_le).trans_lt (hshort x)
    obtain ⟨d, hd⟩ := ht hshort'
    exact hd.step hshort' hstep
  exact Run.invariant (p := fun t : Sys => (∀ x, (t.written x).length < 2 ^ 16) →
    ∃ d, Refines t d) hkeep (fun _ => ⟨_, hrep, loose_start 1 1⟩) hrun hshort

/-- Once the sender has sent its `FIN`, the other side has everything. -/
theorem Refines.complete (h : Refines s d) {x : Side} (hfin : (d.peer x).snd.fin = true) :
    s.Complete x := by
  obtain ⟨-, -, hlen, hall⟩ := (h.2.dir x).ends.complete hfin
  have hk := h.1.socket x.other
  have hunread : s.unread x.other =
      (d.peer x.other).rcv.accepted.drop (d.peer x.other).rcv.taken :=
    hk.copyOut_unread (h.2.bounded x.other)
  refine ⟨?_, ?_⟩
  · rw [hk.ackNum, h.1.written x, hlen]
  · rw [h.1.returned x.other, hunread, List.take_append_drop, h.1.written x, hall]

/-- **A short connection is safe in any order.** As long as neither side has written 64 KiB, what
has been read is a prefix of what was written; every segment that was ever sent can be delivered,
so that no assertion fails; and closing loses nothing. -/
theorem Reachable.stream (h : Reachable s) (hshort : ∀ x, (s.written x).length < 2 ^ 16)
    (x : Side) :
    s.returned x.other <+: s.written x ∧
    (∀ i < (s.chan x).length, ∃ s', step (.deliver x i) s = some s') ∧
    ((s.socket x.other).hasFlag CLOSEState.finRecv = true → s.Complete x) ∧
    (closeLabExits (s.socket x) = true → s.Complete x) := by
  obtain ⟨d, hd⟩ := h.refines hshort
  have hk := hd.1.socket x
  have hflags := hd.2.flags x
  refine ⟨?_, fun i hi => ?_, fun hfinRecv => ?_, fun hexit => ?_⟩
  · rw [hd.1.returned x.other, hd.1.written x]
    exact (List.take_prefix ..).trans (hd.2.dir x).ends.accepted_isPrefix
  · have hlength := (hd.1.chan x).length_eq
    have hsome : ∃ d', Duo.etherStep (.deliver x i) d = some d' :=
      ⟨_, by rw [Duo.etherStep, Duo.etherDeliver, List.getElem?_eq_getElem (hlength ▸ hi)]⟩
    obtain ⟨d', hsome⟩ := hsome
    obtain ⟨s', hs', -⟩ := Run.rel_some_right (step_rel hd.1 hd.2 hshort (.deliver x i)) hsome
    exact ⟨s', hs'⟩
  · rw [(hd.1.socket x.other).hasFlag_finRecv] at hfinRecv
    exact hd.complete ((hd.2.dir x).ends.fin_recv hfinRecv)
  · exact hd.complete (hk.finished_of_exits hflags hexit).1

/-- Two segments, of which the first comes again behind the second, and so does its answer. -/
def overtaken : List Event :=
  [.own (.write .a [1, 2, 3]), .own (.tick .a 1), .deliver .a 1, .deliver .b 1,
    .own (.write .a [4, 5]), .own (.tick .a 2), .deliver .a 2, .deliver .a 1, .deliver .b 1,
    .deliver .b 0, .own (.read .b 4)]

theorem stream_overtaken : ∃ s, Reachable s ∧ s.returned .b = [1, 2, 3, 4] ∧
    s.returned .b <+: s.written .a ∧
    (∀ i < (s.chan .a).length, ∃ s', step (.deliver .a i) s = some s') ∧
    ((s.socket .b).hasFlag CLOSEState.finRecv = true → s.Complete .a) ∧
    (closeLabExits (s.socket .a) = true → s.Complete .a) := by
  have hrun : ∃ s, (Handshake.zero.start 1 1).bind (Run.run step overtaken) = some s ∧
      s.returned .b = [1, 2, 3, 4] ∧ s.written .a = [1, 2, 3, 4, 5] ∧ s.written .b = [] :=
    ⟨_, rfl, by decide, rfl, rfl⟩
  obtain ⟨s, hrun, hreturned, ha, hb⟩ := hrun
  have hreach : Reachable s := ⟨Handshake.zero, overtaken, hrun⟩
  have hshort : ∀ x, (s.written x).length < 2 ^ 16 :=
    Side.forall_of_other .a (by rw [ha]; decide)
      (by rw [show Side.a.other = .b from rfl, hb]; decide)
  exact ⟨s, hreach, hreturned, hreach.stream hshort .a⟩

end Ether

end LabNetstack
