import LabNetstack.Transport.Delivery
import LabNetstack.Transport.SystemRefinement

/-!
# Who may acknowledge a `FIN`

`CL_ACK_RECV` is meant to say that the peer has the `FIN`: the answer to a `FIN` carries one more
than the number of bytes accepted, and once the flag is set the `FIN` is not sent again. But the
handler sets it on any acknowledgement that arrives after the `FIN` has left, so one of earlier
data that is still in flight sets it too.

## Main results

* `Sys.ackRecv_truthful` — the flag is right in every run in which only answers to the `FIN` are
  delivered to a side that waits for one
* `Sys.not_ackRecv_truthful` — it is not right in every run
-/

namespace LabNetstack

open WrapCounter StopAndWait

namespace Duo

variable {d d' : Duo} {x : Side} {act : Action}

/-- `CL_ACK_RECV` is only set when the other side has the `FIN`. -/
def Truthful (d : Duo) : Prop :=
  ∀ x, (d.peer x).ackRecv = true → (d.peer x.other).rcv.fin = true

/-- Only a delivery touches the two flags. -/
theorem flags_of_not_deliver (hd : Duo.step act d = some d') (hact : ∀ z, act ≠ .deliver z) :
    ∀ x, (d'.peer x).ackRecv = (d.peer x).ackRecv ∧ (d'.peer x).rcv.fin = (d.peer x).rcv.fin := by
  have hset : ∀ z (p : Peer), p.ackRecv = (d.peer z).ackRecv → p.rcv.fin = (d.peer z).rcv.fin →
      ∀ x, ((d.setPeer z p).peer x).ackRecv = (d.peer x).ackRecv ∧
        ((d.setPeer z p).peer x).rcv.fin = (d.peer x).rcv.fin := by
    intro z p hack hfin
    exact Side.forall_of_other z (by simpa using ⟨hack, hfin⟩) (by simp)
  cases act with
  | write z buf =>
    simp only [Duo.step] at hd
    split_ifs at hd
    obtain ⟨q, hq, rfl⟩ := Option.map_eq_some_iff.mp hd
    rw [Peer.write_frame hq]
    exact hset z _ rfl rfl
  | read z nbyte =>
    simp only [Duo.step] at hd
    obtain ⟨q, hq, rfl⟩ := Option.map_eq_some_iff.mp hd
    rw [Peer.read_frame hq]
    exact hset z _ rfl rfl
  | close z =>
    obtain rfl := Option.some.inj hd
    exact hset z _ rfl rfl
  | tick z now =>
    obtain rfl := Option.some.inj hd
    obtain ⟨hrcv, -, hack, -, -⟩ := Peer.tick_frame (d.peer z) now
    exact hset z _ hack (congrArg Receiver.fin hrcv)
  | deliver z => exact absurd rfl (hact z)
  | lose z i =>
    obtain rfl := Option.some.inj hd
    exact fun x => ⟨rfl, rfl⟩
  | repeatAt z i =>
    obtain rfl := Option.some.inj hd
    exact fun x => ⟨rfl, rfl⟩

/-- The answer to a `FIN` is the only acknowledgement that counts one further than the stream. -/
theorem Inv.fin_of_value (h : d.Inv) {a : Ack} (ha : Msg.ack a ∈ d.chan x.other)
    (hfin : (d.peer x).snd.fin = true) (hval : a.value = (d.peer x).snd.acked + 1) :
    (d.peer x.other).rcv.fin = true := by
  have hdir := h.dir x
  rw [Dir] at hdir
  have hmem := Msg.mem_acks.mpr ha
  obtain ⟨hlo, hhi⟩ := hdir.ack_num_cases hmem
  have hacked := (hdir.complete hfin).2.1
  refine (hdir.bwd_ok a hmem).fin ?_
  cases hf : a.fin with
  | false =>
    simp only [Ack.value, hf, Bool.toNat_false] at hval
    omega
  | true => rfl

/-- What has to hold of an acknowledgement that is delivered to `x`. -/
def AcksFin (d : Duo) (x : Side) : Prop :=
  ∀ a rest, d.chan x.other = .ack a :: rest → (d.peer x).closed = false →
    (d.peer x).snd.fin = true → (d.peer x).ackRecv = false → a.value = (d.peer x).snd.acked + 1

/-- A step keeps the flag truthful when it delivers only genuine answers. -/
theorem Truthful.step (h : d.Truthful) (hinv : d.Inv)
    (hgenuine : ∀ x, act = .deliver x.other → d.AcksFin x) (hd : Duo.step act d = some d') :
    d'.Truthful := by
  by_cases hact : ∃ z, act = .deliver z
  · obtain ⟨z, rfl⟩ := hact
    obtain ⟨m, rest, hchan, hrest, hsame, hpeer, -⟩ := deliver_cases hd
    have hkeep : (d.peer z.other).rcv.fin = true → (d'.peer z.other).rcv.fin = true := by
      rw [hpeer]
      exact Peer.handle_rcv_fin m
    refine Side.forall_of_other (p := fun x => (d'.peer x).ackRecv = true →
      (d'.peer x.other).rcv.fin = true) z ?_ ?_
    · rw [hsame]
      exact fun hack => hkeep (h z hack)
    · rw [Side.other_other, hsame]
      intro hack
      rw [hpeer] at hack
      cases m with
      | seg m =>
        rw [(Peer.handle_seg_frame (d.peer z.other) m).2.2.1] at hack
        simpa using h z.other hack
      | ack a =>
        by_cases hold : (d.peer z.other).ackRecv = true
        · simpa using h z.other hold
        · have hclosed : (d.peer z.other).closed = false := by
            by_contra hc
            exact hold ((hinv.flags z.other).closed_fin (by simpa using hc)).2.2
          have hold' : (d.peer z.other).ackRecv = false := by simpa using hold
          simp only [Peer.handle, hclosed, hold', Bool.false_eq_true, if_false,
            Bool.false_or] at hack
          have hval := hgenuine z.other (by rw [Side.other_other]) a rest
            (by rw [Side.other_other]; exact hchan) hclosed hack hold'
          simpa using hinv.fin_of_value (x := z.other)
            (by rw [Side.other_other, hchan]; exact List.mem_cons_self ..) hack hval
  · have hflags := flags_of_not_deliver hd fun z hz => hact ⟨z, hz⟩
    intro x hack
    rw [(hflags x.other).2]
    exact h x ((hflags x).1 ▸ hack)

end Duo

namespace Sys

variable {s : Sys} {d : Duo} {x : Side}

/-- An acknowledgement that the action delivers to an `ESTABLISHED` socket, which has sent its
`FIN` and still waits for the answer, is that answer: it counts the `FIN`. -/
def AcksFin : Action → Sys → Prop
  | .deliver y, s => ∀ packet ∈ (s.chan y).head?,
      packet.tcpHeader.ctrl &&& ctAck ≠ 0 → (s.socket y.other).state = .establisted →
      (s.socket y.other).hasFlag CLOSEState.finSent = true →
      (s.socket y.other).hasFlag CLOSEState.ackRecv = false →
      htonl packet.tcpHeader.ackNum = (s.socket y.other).seqNum + 1
  | _, _ => True

instance : ∀ act s, Decidable (AcksFin act s)
  | .deliver y, s => inferInstanceAs (Decidable (∀ packet ∈ (s.chan y).head?, _))
  | .write .., _ | .read .., _ | .close _, _ | .tick .., _ | .lose .., _ | .repeatAt .., _ =>
    .isTrue trivial

theorem acksFin_duo (h : Refines s d) (hs : AcksFin (.deliver x.other) s) : d.AcksFin x := by
  intro a rest hchan hclosed hfin hack
  have hk := h.1.socket x
  have hdir := h.2.dir x
  have hrel := h.1.chan x.other
  rw [hchan] at hrel
  obtain ⟨packet, rest', hm, -, hs'⟩ := List.forall₂_cons_right_iff.mp hrel
  have hmem : a ∈ Msg.acks (d.chan x.other) := by simp [hchan]
  cases hm with
  | ack _ hackBit _ hnum =>
    simp only [AcksFin, Side.other_other] at hs
    have hval := hs packet (by rw [hs']; rfl) hackBit (by simp [hk.state, hclosed])
      (by rw [hk.hasFlag_finSent, hfin]) (by rw [hk.hasFlag_ackRecv, hack])
    obtain ⟨hlo, hhi⟩ := hdir.ack_num_cases hmem
    have hacked := (hdir.complete hfin).2.1
    have hafin : a.fin.toNat ≤ 1 := Bool.toNat_le a.fin
    have hvalue : a.value = a.num + a.fin.toNat := rfl
    rw [hnum, hk.seqNum, show (1 : BitVec 32) = BitVec.ofNat 32 1 from rfl, ← BitVec.ofNat_add,
      ofNat_inj_of_le (by omega) (by omega)] at hval
    exact hval

/-- **`CL_ACK_RECV` is truthful** in every run in which a side that waits for the answer to its
`FIN` is delivered no other acknowledgement. -/
theorem ackRecv_truthful {h : Handshake} {i j : ℕ} {s : Sys} {acts : List Action}
    (hgenuine : ∀ s₀ ∈ h.start i j, Run.Meets Sys.step AcksFin acts s₀)
    (hrun : h.run i j acts = some s) (x : Side)
    (hack : (s.socket x).hasFlag CLOSEState.ackRecv = true) :
    (s.socket x.other).hasFlag CLOSEState.finRecv = true := by
  obtain ⟨s₀, hstart, hrep⟩ := h.start_rep i j
  rw [Handshake.run, hstart] at hrun
  have hinv : ∃ d, Refines s d ∧ d.Truthful := by
    refine Run.invariant_of_meets (p := fun t => ∃ d, Refines t d ∧ d.Truthful) ?_
      ⟨Duo.start i j, ⟨hrep, Duo.start_inv i j⟩, fun _ hf => absurd hf Bool.false_ne_true⟩
      (hgenuine s₀ hstart) hrun
    rintro act t t' hc ⟨d, hd, htrue⟩ hstep
    obtain ⟨d', hstep', hd'⟩ := Run.rel_some_left (hd.step act) hstep
    refine ⟨d', hd', htrue.step hd.2 (fun x hact => acksFin_duo hd ?_) hstep'⟩
    rwa [← hact]
  obtain ⟨d, hd, htrue⟩ := hinv
  rw [(hd.1.socket x.other).hasFlag_finRecv]
  exact htrue x (by rw [← (hd.1.socket x).hasFlag_ackRecv, hack])

/-- One side closes; its `FIN` arrives, and then the answer to it. -/
def answeredFin : List Action := [.close .a, .tick .a 1, .deliver .a, .deliver .b]

theorem ackRecv_truthful_answeredFin :
    (((Handshake.zero.run 0 0 answeredFin).get (by decide)).socket .b).hasFlag CLOSEState.finRecv
      = true :=
  @ackRecv_truthful Handshake.zero 0 0 _ answeredFin (by decide) (Option.some_get _).symm .a
    (by decide)

/-- The acknowledgement of a byte is repeated; the repetition arrives when the `FIN` is lost. -/
def staleAck : List Action :=
  [.write .a [1], .tick .a 1, .deliver .a, .repeatAt .b 0, .deliver .b, .close .a, .tick .a 2,
    .lose .a 0, .deliver .b]

/-- The flag is not truthful in every reachable state. -/
theorem not_ackRecv_truthful :
    ¬ ∀ s : Sys, s.Reachable → ∀ x, (s.socket x).hasFlag CLOSEState.ackRecv = true →
      (s.socket x.other).hasFlag CLOSEState.finRecv = true := by
  intro hclaim
  have hfin := hclaim _ (@reachable_get Handshake.zero 0 0 staleAck (by decide)) .a (by decide)
  exact absurd hfin (by decide)

end Sys

end LabNetstack
