import LabNetstack.Transport.SystemRefinement

/-!
# The byte stream is safe

What holds in every reachable state of two connected sockets, whatever the channels lose or repeat
and however far the counters have wrapped.

## Main results

* `Sys.Reachable.returned_prefix_written` — what one side has read is a prefix of what the other
  has written
* `Sys.Reachable.segment_fits` — the segment that the receiver is about to take fits its ring
* `Sys.Reachable.close_complete` — a side that has seen the `FIN`, or whose peer may stop waiting
  in `closeLab`, has everything
-/

namespace LabNetstack

open RingMemory WrapCounter StopAndWait

namespace Sys

variable {s : Sys}

/-- **End-to-end safety.** -/
theorem Reachable.returned_prefix_written (h : s.Reachable) (x : Side) :
    s.returned x.other <+: s.written x := by
  obtain ⟨d, hrep, hinv⟩ := h.duo
  rw [hrep.returned x.other, hrep.written x]
  exact (List.take_prefix ..).trans (hinv.dir x).accepted_isPrefix

/-- Three bytes are written and sent; two of them are read. -/
def firstExchange : List Action := [.write .a [1, 2, 3], .tick .a 1, .deliver .a, .read .b 2]

theorem returned_prefix_written_firstExchange :
    ((Handshake.zero.run 0 0 firstExchange).get (by decide)).returned .b
      <+: ((Handshake.zero.run 0 0 firstExchange).get (by decide)).written .a :=
  (reachable_get (by decide)).returned_prefix_written .a

example : ((Handshake.zero.run 0 0 firstExchange).map fun s => (s.returned .b, s.written .a))
    = some ([1, 2], [1, 2, 3]) := by decide

/-! ### Flow control -/

/-- The free space of the receive ring, as `TCPHandleEstablished` computes it. -/
def freeSpace (s : Sys) (x : Side) : ℕ :=
  ((s.socket x).recvBack - 1 - (s.socket x).recvFront).toNat

/-- The position behind the last byte that `x` has put on the wire. -/
def sentSeq (s : Sys) (x : Side) : BitVec 32 :=
  (s.socket x).seqNum + ((s.socket x).sendBack - (s.socket x).ackBack).setWidth 32

theorem freeSpace_eq {d : Duo} (h : Refines s d) (x : Side) :
    s.freeSpace x = (d.peer x).rcv.free cap :=
  (h.1.socket x).toNat_free (h.2.bounded x)

theorem sentSeq_eq {d : Duo} (h : Refines s d) (x : Side) :
    s.sentSeq x = BitVec.ofNat 32 (d.peer x).snd.sent := by
  have hk := h.1.socket x
  have hp := h.2.bounded x
  have hmss := hp.sent_le_mss
  have hsmall : mss < 2 ^ 16 := by decide
  have hdiff : ((s.socket x).sendBack - (s.socket x).ackBack).toNat
      = (d.peer x).snd.sent - (d.peer x).snd.acked := by
    rw [hk.sendBack, hk.ackBack, toNat_ofNat_sub hp.acked_le_sent (by omega)]
  have hwide : ((s.socket x).sendBack - (s.socket x).ackBack).setWidth 32
      = BitVec.ofNat 32 ((d.peer x).snd.sent - (d.peer x).snd.acked) :=
    BitVec.eq_of_toNat_eq (by simp [hdiff])
  rw [sentSeq, hwide, hk.seqNum, add_ofNat_sub hp.acked_le_sent]

/-- **Flow control.** When a segment that continues the stream reaches the receiver, it fits the
receive ring, so that the handler does not abort; and what is on the wire beyond what has been
accepted never passes the right edge of the receive ring. -/
theorem Reachable.segment_fits (h : s.Reachable) (x : Side) :
    (∀ packet rest, s.chan x = packet :: rest →
      (htonl packet.tcpHeader.seqNum = (s.socket x.other).ackNum → 0 < packet.data.length →
        packet.data.length ≤ s.freeSpace x.other) ∧
      (handleTCPMain (s.socket x.other) packet).isSome) ∧
    (s.sentSeq x - (s.socket x.other).ackNum).toNat ≤ s.freeSpace x.other := by
  obtain ⟨d, hd⟩ := h.duo
  have hinv := hd.2
  have hdir := hinv.dir x
  have hk := hd.1.socket x.other
  rw [Duo.Dir] at hdir
  refine ⟨fun packet rest hhead => ?_, ?_⟩
  · have hchan := hd.1.chan x
    rw [hhead] at hchan
    obtain ⟨m, rest', hm, -, hd'⟩ := List.forall₂_cons_left_iff.mp hchan
    have hmem : m ∈ d.chan x := hd' ▸ List.mem_cons_self ..
    have hadmits := hinv.admits hmem
    obtain ⟨k', out, hrun, -⟩ := hk.handleTCPMain (hinv.bounded x.other) hm hadmits
    refine ⟨fun hseq hdata => ?_, by rw [hrun]; rfl⟩
    rw [freeSpace_eq hd]
    cases hm with
    | ack a _ _ _ _ hnil => simp [hnil] at hdata
    | seg m hctrl hseqNum hbytes =>
      obtain ⟨hle, hrecent, -, hfits⟩ := hadmits
      have hsmall : mss < 2 ^ 32 := by decide
      rw [hseqNum, hk.ackNum, ofNat_inj_of_le hle (by omega)] at hseq
      rw [hbytes]
      exact hfits hseq
  · have hacc := hdir.acc_le
    have hwin := hdir.in_window
    have hedge := hdir.edge
    have hcap : cap < 2 ^ 32 := by decide
    have hunread := hdir.taken_le
    rw [sentSeq_eq hd, hk.ackNum, toNat_ofNat_sub hacc (by omega), freeSpace_eq hd, Receiver.free]
    omega

theorem segment_fits_firstExchange :
    let s := (Handshake.zero.run 0 0 (firstExchange.take 2)).get (by decide)
    (∀ packet rest, s.chan .a = packet :: rest →
      (htonl packet.tcpHeader.seqNum = (s.socket .b).ackNum → 0 < packet.data.length →
        packet.data.length ≤ s.freeSpace .b) ∧
      (handleTCPMain (s.socket .b) packet).isSome) ∧
    (s.sentSeq .a - (s.socket .b).ackNum).toNat ≤ s.freeSpace .b :=
  (reachable_get (by decide)).segment_fits .a

/-! ### Closing -/

/-- The bytes that have been accepted and not been read. -/
def unread (s : Sys) (x : Side) : List Byte :=
  copyOut (s.socket x).readBuffer (s.socket x).recvBack
    ((s.socket x).recvFront - (s.socket x).recvBack)

/-- Everything written at `x` is on the other side, read or waiting in the receive ring. -/
def Complete (s : Sys) (x : Side) : Prop :=
  (s.socket x.other).ackNum = BitVec.ofNat 32 (s.written x).length ∧
    s.returned x.other ++ s.unread x.other = s.written x

theorem unread_eq {d : Duo} (h : Refines s d) (x : Side) :
    s.unread x = (d.peer x).rcv.accepted.drop (d.peer x).rcv.taken := by
  have hk := h.1.socket x
  have hlen := hk.toNat_unread (h.2.bounded x)
  rw [unread, hk.recvBack, copyOut_eq_take hk.readRing]
  · rw [← hk.recvBack, hlen, ← List.length_drop, List.take_length]
  · rw [← hk.recvBack, hlen, List.length_drop]

/-- Once the sender has sent its `FIN`, the other side has everything. -/
theorem complete_of_fin {d : Duo} (h : Refines s d) {x : Side}
    (hfin : (d.peer x).snd.fin = true) : s.Complete x := by
  obtain ⟨-, -, hlen, hall⟩ := (h.2.dir x).complete hfin
  refine ⟨?_, ?_⟩
  · rw [(h.1.socket x.other).ackNum, h.1.written x, hlen]
  · rw [h.1.returned x.other, unread_eq h, List.take_append_drop, h.1.written x, hall]

/-- **Closing loses nothing.** A side that has recorded the `FIN` has everything that was written
on the other; and so has the peer of a side whose wait loop in `closeLab` may end. -/
theorem Reachable.close_complete (h : s.Reachable) (x : Side) :
    ((s.socket x.other).hasFlag CLOSEState.finRecv = true → s.Complete x) ∧
      (closeLabExits (s.socket x) = true → s.Complete x) := by
  obtain ⟨d, hd⟩ := h.duo
  have hk := hd.1.socket x
  have hflags := hd.2.flags x
  constructor
  · intro hfinRecv
    rw [(hd.1.socket x.other).hasFlag_finRecv] at hfinRecv
    exact complete_of_fin hd ((hd.2.dir x).fin_recv hfinRecv)
  · intro hexit
    exact complete_of_fin hd (hk.finished_of_exits hflags hexit).1

/-- One side writes and closes, and the other closes when it is told. -/
def firstClose : List Action :=
  [.write .a [1, 2, 3], .tick .a 1, .deliver .a, .deliver .b, .close .a, .tick .a 2, .deliver .a,
    .tick .b 2, .deliver .b, .deliver .b]

theorem close_complete_firstClose :
    let s := (Handshake.zero.run 0 0 firstClose).get (by decide)
    ((s.socket .b).hasFlag CLOSEState.finRecv = true → s.Complete .a) ∧
      (closeLabExits (s.socket .a) = true → s.Complete .a) :=
  (reachable_get (by decide)).close_complete .a

example : (Handshake.zero.run 0 0 firstClose).all fun s =>
    closeLabExits (s.socket .a) && (s.socket .b).hasFlag CLOSEState.finRecv := by decide

end Sys

end LabNetstack
