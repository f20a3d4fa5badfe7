import LabNetstack.Transport.Duplex

/-!
# Delivering what is in flight

One delivery, seen from outside, and the rule for delivering everything that is in one channel:
what every single delivery preserves holds at the end, when the channel is empty.

## Main results

* `Duo.deliver_cases` — what a delivery changes
* `Duo.flush_rule` — delivering a whole channel
* `Duo.Wedged.deliver`, `Duo.Wedged.tick` — a sender whose acknowledgement is lost stays as it is
-/

namespace LabNetstack

open StopAndWait

/-! ### A tick with something outstanding -/

namespace Peer

variable {p : Peer} {now : ℕ}

/-- The `FIN` waits while something is outstanding. -/
theorem sendFin_outstanding (hout : p.snd.sent ≠ p.snd.acked) : p.sendFin now = (p, []) := by
  rw [sendFin, if_neg fun h => hout h.1.symm]

theorem sendSegment_resend (hout : p.snd.sent ≠ p.snd.acked) (htimer : p.timer < now) :
    p.sendSegment now = ({ p with timer := now + resendInterval }, [.seg p.snd.current]) := by
  rw [sendSegment, if_pos (Or.inl hout), if_pos htimer]

theorem tick_outstanding (hout : p.snd.sent ≠ p.snd.acked) : (p.tick now).1.snd = p.snd := by
  rcases h : p.tick now with ⟨q, out⟩
  rcases tick_cases h with ⟨-, rfl, -⟩ | ⟨-, p', out₁, out₂, h₁, h₂, -⟩
  · rfl
  · have hsnd : p'.snd = p.snd := by
      rcases sendSegment_cases h₁ with ⟨rfl, -⟩ | ⟨-, -, rfl, -⟩ | ⟨n, hidle, -⟩
      · rfl
      · rfl
      · exact absurd hidle hout
    rw [sendFin_outstanding (hsnd ▸ hout)] at h₂
    rw [← (Prod.mk.inj h₂).1, hsnd]

/-- When the timer has run out, the outstanding segment is sent again. -/
theorem tick_resend (hclosed : p.closed = false) (hout : p.snd.sent ≠ p.snd.acked)
    (htimer : p.timer < now) :
    p.tick now = ({ p with timer := now + resendInterval }, [.seg p.snd.current]) := by
  have hfin : ({ p with timer := now + resendInterval } : Peer).sendFin now
      = ({ p with timer := now + resendInterval }, []) := sendFin_outstanding hout
  rw [tick, if_neg (by simp [hclosed]), sendSegment_resend hout htimer]
  simp only [hfin, List.append_nil]

/-- A zero window is probed when the timer has run out. -/
theorem tick_probe (hclosed : p.closed = false) (hwindow : p.snd.window = 0)
    (hunsent : p.snd.sent ≠ p.snd.written.length) (htimer : p.timer < now) :
    p.tick now = ({ p with timer := now + resendInterval }, [.seg p.snd.current]) := by
  have hfin : ({ p with timer := now + resendInterval } : Peer).sendFin now
      = ({ p with timer := now + resendInterval }, []) := by
    rw [sendFin, if_neg fun h => hunsent h.2]
  rw [tick, if_neg (by simp [hclosed]), sendSegment, if_pos (Or.inr hwindow), if_pos htimer]
  simp only [hfin, List.append_nil]

/-- With a window and something to send, the next bytes leave. -/
theorem tick_next (now : ℕ) (hclosed : p.closed = false) (hidle : p.snd.sent = p.snd.acked)
    (hwindow : p.snd.window ≠ 0) {n : ℕ} (hpos : 0 < n)
    (hn : n = min (min (p.snd.written.length - p.snd.sent) p.snd.window) mss) :
    p.tick now = ({ p with snd := p.snd.transmit n, timer := now + resendInterval },
      [.seg (p.snd.transmit n).current]) := by
  have hfin : ({ p with snd := p.snd.transmit n, timer := now + resendInterval } : Peer).sendFin now
      = ({ p with snd := p.snd.transmit n, timer := now + resendInterval }, []) :=
    sendFin_outstanding (by simp only [Sender.transmit]; omega)
  rw [tick, if_neg (by simp [hclosed]), sendSegment, if_neg (by simp [hidle, hwindow])]
  simp only [← hn, if_pos hpos, hfin, List.append_nil]

/-! ### What an open end does with a segment -/

variable {m : Segment Byte}

theorem tick_closed (h : p.closed = true) (now : ℕ) : p.tick now = (p, []) := if_pos h

theorem handle_closed (m : Msg) (h : p.closed = true) : p.handle m = (p, none) := by
  cases m with
  | seg m => rw [handle, if_pos h]
  | ack a => rw [handle, if_pos h]

/-- An end only ever answers with acknowledgements. -/
theorem segs_handle (p : Peer) (m : Msg) : Msg.segs (p.handle m).2.toList = [] := by
  cases m with
  | seg m => exact (handle_seg_frame p m).2.2.2.2
  | ack a => rw [(handle_ack_frame p a).2.2.2]; rfl

/-- A segment that does not continue the stream changes nothing and is not answered. -/
theorem handle_stale (hfin : m.fin = false) (hseq : m.seq ≠ p.rcv.accepted.length) :
    p.handle (.seg m) = (p, none) := by
  simp only [handle, Receiver.onSegment, hfin, hseq, Bool.false_eq_true, if_false]
  split_ifs <;> rfl

theorem handle_next (hclosed : p.closed = false) (hfin : m.fin = false)
    (hseq : m.seq = p.rcv.accepted.length) :
    p.handle (.seg m) = ({ p with rcv := p.rcv.accept m.bytes },
      some (.ack ((p.rcv.accept m.bytes).ack cap false))) := by
  rw [handle, hclosed, if_neg Bool.false_ne_true, Receiver.onSegment, if_neg (by simp [hfin]),
    if_pos hseq]
  rfl

theorem handle_fin (hclosed : p.closed = false) (hfin : m.fin = true) :
    p.handle (.seg m) = ({ p with rcv := { p.rcv with fin := true } },
      some (.ack (({ p.rcv with fin := true } : Receiver Byte).ack cap true))) := by
  rw [handle, hclosed, if_neg Bool.false_ne_true, Receiver.onSegment, if_pos hfin]
  rfl

end Peer

namespace Duo

variable {d d' : Duo} {x : Side}

/-- What a delivery changes: the two channels, and the end that is delivered to. -/
theorem deliver_cases (h : d.deliver x = some d') :
    ∃ m rest, d.chan x = m :: rest ∧ d'.chan x = rest ∧ d'.peer x = d.peer x ∧
      d'.peer x.other = ((d.peer x.other).handle m).1 ∧
      d'.chan x.other = d.chan x.other ++ ((d.peer x.other).handle m).2.toList := by
  cases hchan : d.chan x with
  | nil => simp [Duo.deliver, hchan] at h
  | cons m rest =>
    simp only [Duo.deliver, hchan, Option.some.injEq] at h
    subst h
    exact ⟨m, rest, rfl, by simp [send_eq], by simp [send_eq], by simp [send_eq],
      by simp [send_eq]⟩

/-- What a tick changes: the end that ticks, and its channel. -/
theorem tick_cases {now : ℕ} (h : step (.tick x now) d = some d') :
    d'.peer x = ((d.peer x).tick now).1 ∧ d'.peer x.other = d.peer x.other ∧
      d'.chan x = d.chan x ++ ((d.peer x).tick now).2 ∧ d'.chan x.other = d.chan x.other := by
  obtain rfl := Option.some.inj h
  exact ⟨Function.update_self .., Function.update_of_ne (Side.other_ne x) ..,
    Function.update_self .., Function.update_of_ne (Side.other_ne x) ..⟩

theorem deliver_isSome {m : Msg} {rest : List Msg} (h : d.chan x = m :: rest) :
    ∃ d', d.deliver x = some d' := by
  simp [Duo.deliver, h]

/-- A delivery towards `x` adds no segments to what `x` has in flight. -/
theorem segs_deliver (hsegs : Msg.segs (d.chan x) = []) (hd : d.deliver x.other = some d') :
    Msg.segs (d'.chan x) = [] := by
  obtain ⟨m, rest, -, -, -, -, hout⟩ := deliver_cases hd
  rw [Side.other_other] at hout
  rw [hout, Msg.segs_append, hsegs, Peer.segs_handle, List.append_nil]

/-- Acknowledgements are delivered without an answer. -/
theorem unanswered_deliver (hsegs : Msg.segs (d.chan x) = []) (hother : d.chan x.other = [])
    (hd : d.deliver x = some d') : Msg.segs (d'.chan x) = [] ∧ d'.chan x.other = [] := by
  obtain ⟨m, rest, hchan, hrest, -, -, hout⟩ := deliver_cases hd
  rw [hchan] at hsegs
  cases m with
  | seg m => simp at hsegs
  | ack a =>
    rw [Msg.segs_cons_ack] at hsegs
    rw [hrest, hout, hother, (Peer.handle_ack_frame _ a).2.2.2]
    exact ⟨hsegs, rfl⟩

/-- Deliver everything that `x` has in flight, in order. -/
def flush (x : Side) (d : Duo) : Option Duo :=
  Run.run step (List.replicate (d.chan x).length (.deliver x)) d

/-- **Delivering a channel.** What every delivery preserves holds once the channel is empty. -/
theorem flush_rule {P : Duo → Prop} (hP : ∀ d d', P d → d.deliver x = some d' → P d')
    (hd : P d) : ∃ d', d.flush x = some d' ∧ d'.chan x = [] ∧ P d' := by
  induction hlen : (d.chan x).length generalizing d with
  | zero =>
    have hnil : d.chan x = [] := List.eq_nil_of_length_eq_zero hlen
    exact ⟨d, by simp [flush, hnil], hnil, hd⟩
  | succ n ih =>
    obtain ⟨m, rest, hchan⟩ := List.exists_cons_of_length_eq_add_one hlen
    obtain ⟨d₁, h₁⟩ := deliver_isSome hchan
    obtain ⟨m', rest', hchan', hrest, -⟩ := deliver_cases h₁
    obtain ⟨rfl, rfl⟩ := List.cons.inj (hchan.symm.trans hchan')
    have hn : (d₁.chan x).length = n := by
      rw [hrest]
      simpa [hchan] using hlen
    obtain ⟨d', h', hnil, hd'⟩ := ih (hP d d₁ hd h₁) hn
    refine ⟨d', ?_, hnil, hd'⟩
    rw [flush, hn] at h'
    rw [flush, hlen, List.replicate_succ, Run.run_cons, step, h₁]
    exact h'

/-! ### A lost acknowledgement -/

/-- The receiver has taken what `x` has outstanding, and no acknowledgement of it is in flight. -/
structure Wedged (d : Duo) (x : Side) : Prop where
  outstanding : (d.peer x).snd.sent ≠ (d.peer x).snd.acked
  taken : (d.peer x.other).rcv.accepted.length = (d.peer x).snd.sent
  unanswered : ∀ a ∈ Msg.acks (d.chan x.other), a.value ≠ (d.peer x).snd.sent

/-- As long as the `FIN` is not out, neither end has closed. -/
theorem Inv.open_of_fin (h : d.Inv) (hfin : (d.peer x).snd.fin = false) :
    (d.peer x).closed = false ∧ (d.peer x.other).closed = false := by
  constructor
  · by_contra hc
    simp [((h.flags x).closed_fin (by simpa using hc)).1] at hfin
  · by_contra hc
    have := (h.dir x).fin_recv ((h.flags x.other).closed_fin (by simpa using hc)).2.1
    simp [this] at hfin

/-- With something outstanding there is no `FIN`, so that neither end has closed. -/
theorem Inv.open_of_outstanding (h : d.Inv)
    (hout : (d.peer x).snd.sent ≠ (d.peer x).snd.acked) :
    (d.peer x).snd.fin = false ∧ (d.peer x).closed = false ∧ (d.peer x.other).closed = false := by
  have hfin : (d.peer x).snd.fin = false := by
    by_contra hf
    exact hout ((h.dir x).complete (by simpa using hf)).2.1.symm
  exact ⟨hfin, h.open_of_fin hfin⟩

/-- A segment from before the receiver's position changes nothing there and is not answered. -/
theorem Inv.handle_old (h : d.Inv) {m : Segment Byte} (hm : Msg.seg m ∈ d.chan x)
    (hopen : (d.peer x).snd.fin = false)
    (hold : (d.peer x).snd.acked < (d.peer x.other).rcv.accepted.length) :
    (d.peer x.other).handle (.seg m) = (d.peer x.other, none) := by
  have hok := (h.dir x).fwd_ok m (Msg.mem_segs.mpr hm)
  have hfin : m.fin = false := by
    by_contra hf
    simp [(hok.fin (by simpa using hf)).2] at hopen
  have hseq : m.seq ≠ (d.peer x.other).rcv.accepted.length := by
    have := hok.seq_le
    omega
  exact Peer.handle_stale hfin hseq

namespace Wedged

/-- Delivering from either end leaves a wedged sender wedged. -/
theorem deliver (h : d.Wedged x) (hinv : d.Inv) {z : Side} (hd : d.deliver z = some d') :
    d'.Wedged x := by
  obtain ⟨hfin, hopen, -⟩ := hinv.open_of_outstanding h.outstanding
  obtain ⟨m, rest, hchan, hrest, hsame, hpeer, hout⟩ := deliver_cases hd
  rcases Side.eq_or_eq_other x z with rfl | rfl
  · -- towards the receiver: only old segments, and acknowledgements for the other direction
    cases m with
    | seg m =>
      have hold := (hinv.dir z).acked_le
      have hne := h.outstanding
      have htaken := h.taken
      rw [hinv.handle_old (hchan ▸ List.mem_cons_self ..) hfin (by omega)] at hpeer hout
      exact ⟨by rw [hsame]; exact h.outstanding, by rw [hsame, hpeer]; exact h.taken,
        by rw [hsame, hout]; simpa using h.unanswered⟩
    | ack a =>
      obtain ⟨hrcv, -, -, hnone⟩ := Peer.handle_ack_frame (d.peer z.other) a
      rw [hnone] at hout
      exact ⟨by rw [hsame]; exact h.outstanding, by rw [hsame, hpeer, hrcv]; exact h.taken,
        by rw [hsame, hout]; simpa using h.unanswered⟩
  · -- towards the sender: none of the acknowledgements is the awaited one
    rw [Side.other_other] at hpeer hout
    have hrest' : ∀ a ∈ Msg.acks rest, a.value ≠ (d.peer x).snd.sent := by
      intro a ha
      refine h.unanswered a ?_
      rw [hchan, Msg.mem_acks] at *
      exact List.mem_cons_of_mem _ ha
    have hsnd : (d'.peer x).snd = (d.peer x).snd := by
      rw [hpeer]
      cases m with
      | seg m => exact (Peer.handle_seg_frame (d.peer x) m).1
      | ack a =>
        have hne : a.value ≠ (d.peer x).snd.sent := h.unanswered a (by simp [hchan])
        simp [Peer.handle, hopen, Sender.onAck, hne]
    exact ⟨by rw [hsnd]; exact h.outstanding, by rw [hsnd, hsame]; exact h.taken,
      by rw [hsnd, hrest]; exact hrest'⟩

/-- So does a tick of either end. -/
theorem tick (h : d.Wedged x) {z : Side} {now : ℕ} (hd : step (.tick z now) d = some d') :
    d'.Wedged x := by
  obtain ⟨hpeer, hsame, hchan, hother⟩ := tick_cases hd
  obtain ⟨hrcv, -, -, -, hacks⟩ := Peer.tick_frame (d.peer z) now
  rcases Side.eq_or_eq_other x z with rfl | rfl
  · have hsnd : (d'.peer z).snd = (d.peer z).snd := by
      rw [hpeer]
      exact Peer.tick_outstanding h.outstanding
    exact ⟨by rw [hsnd]; exact h.outstanding, by rw [hsnd, hsame]; exact h.taken,
      by rw [hsnd, hother]; exact h.unanswered⟩
  · rw [Side.other_other] at hsame hother
    exact ⟨by rw [hsame]; exact h.outstanding, by rw [hsame, hpeer, hrcv]; exact h.taken,
      by rw [hsame, hchan, Msg.acks_append, hacks, List.append_nil]; exact h.unanswered⟩

end Wedged

/-! ### An acknowledgement on its way -/

/-- Nothing of what `x` has outstanding is lost: it will be acknowledged when everything in flight
has arrived. -/
structure Flowing (d : Duo) (x : Side) : Prop where
  unfinished : (d.peer x).snd.fin = false
  flowing : StopAndWait.Flowing (d.peer x).snd (d.peer x.other).rcv (Msg.segs (d.chan x))
    (Msg.acks (d.chan x.other))

namespace Flowing

/-- In the end nothing is outstanding; acknowledgements for the other direction do not matter. -/
theorem idle (h : d.Flowing x) (hinv : d.Inv) (hsegs : Msg.segs (d.chan x) = [])
    (hother : d.chan x.other = []) : (d.peer x).snd.sent = (d.peer x).snd.acked := by
  have hdir := hinv.dir x
  have hflow := h.flowing
  rw [Dir, hsegs, hother] at hdir
  rw [hsegs, hother] at hflow
  exact hflow.idle hdir

/-- Delivering from either end keeps it so. -/
theorem deliver (h : d.Flowing x) (hinv : d.Inv) {z : Side} (hd : d.deliver z = some d') :
    d'.Flowing x := by
  obtain ⟨hfin, hflow⟩ := h
  obtain ⟨hopen, hopen'⟩ := hinv.open_of_fin hfin
  have hdir := hinv.dir x
  rw [Dir] at hdir
  obtain ⟨m, rest, hchan, hrest, hsame, hpeer, hout⟩ := deliver_cases hd
  rcases Side.eq_or_eq_other x z with rfl | rfl
  · cases m with
    | seg m =>
      rw [hchan, Msg.segs_cons_seg] at hflow hdir
      have hrcv : ((d.peer z.other).handle (.seg m)).1.rcv
          = ((d.peer z.other).rcv.onSegment cap m).1 := by
        rw [Peer.handle, if_neg (by simp [hopen'])]
      have hacks : Msg.acks ((d.peer z.other).handle (.seg m)).2.toList
          = ((d.peer z.other).rcv.onSegment cap m).2.toList := by
        rw [Peer.handle, if_neg (by simp [hopen']), Msg.acks_map_ack]
      refine ⟨by rw [hsame, hfin], ?_⟩
      rw [hsame, hpeer, hrest, hout, Msg.acks_append, hrcv, hacks]
      exact hflow.onSegment hdir
    | ack a =>
      obtain ⟨hrcv, -, -, hnone⟩ := Peer.handle_ack_frame (d.peer z.other) a
      rw [hchan, Msg.segs_cons_ack] at hflow
      refine ⟨by rw [hsame, hfin], ?_⟩
      rw [hsame, hpeer, hrcv, hrest, hout, hnone, Option.toList_none, List.append_nil]
      exact hflow
  · rw [Side.other_other] at *
    cases m with
    | seg m =>
      have hsnd := (Peer.handle_seg_frame (d.peer x) m).1
      rw [hchan, Msg.acks_cons_seg] at hflow
      refine ⟨by rw [hpeer, hsnd, hfin], ?_⟩
      rw [hpeer, hsnd, hsame, hrest, hout, Msg.segs_append, Peer.segs_handle, List.append_nil]
      exact hflow
    | ack a =>
      have hsnd : ((d.peer x).handle (.ack a)).1.snd = (d.peer x).snd.onAck a := by
        rw [Peer.handle, if_neg (by simp [hopen])]
      rw [hchan, Msg.acks_cons_ack] at hflow
      refine ⟨by rw [hpeer, hsnd, Sender.fin_onAck, hfin], ?_⟩
      rw [hpeer, hsnd, hsame, hrest, hout, Msg.segs_append, Peer.segs_handle, List.append_nil]
      exact hflow.onAck

end Flowing

end Duo

end LabNetstack
