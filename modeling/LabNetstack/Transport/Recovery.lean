import LabNetstack.Transport.Round
import LabNetstack.Transport.Stream

/-!
# Retransmission and the zero window

What a round of the timer and the deliveries after it achieve.

A retransmission is only answered by a receiver that has not taken the segment yet: a repetition
of a segment that was taken is dropped without a word. So the sender gets over the loss of a
segment, but not over the loss of an acknowledgement.

A probe of a zero window is always answered, because both ends stand at the same position.

## Main results

* `Sys.Reachable.recovers_iff` — when a retransmission and its answers clear what is outstanding
* `Sys.Reachable.probe_reopens` — a probe reopens the window, and the sender goes on
-/

namespace LabNetstack

open WrapCounter StopAndWait

theorem Refines.flush {s : Sys} {d : Duo} (h : Refines s d) (x : Side) :
    Option.Rel Refines (s.flush x) (d.flush x) := by
  rw [Sys.flush, Duo.flush, (h.1.chan x).length_eq]
  exact h.run _

namespace Duo

variable {d d' : Duo} {x : Side}

/-! ### The retransmission -/

/-- When the timer fires for a sender that is not wedged, nothing is lost any more. -/
theorem Inv.flowing_tick (h : d.Inv) (hout : (d.peer x).snd.sent ≠ (d.peer x).snd.acked) {now : ℕ}
    (htimer : (d.peer x).timer < now) (hwedged : ¬ d.Wedged x)
    (hd : Duo.step (.tick x now) d = some d') : d'.Flowing x := by
  obtain ⟨hfin, hopen, -⟩ := h.open_of_outstanding hout
  obtain ⟨hpeer, hsame, hchan, hother⟩ := tick_cases hd
  rw [Peer.tick_resend hopen hout htimer] at hpeer hchan
  refine ⟨by rw [hpeer]; exact hfin, ?_⟩
  rw [hpeer, hsame, hchan, hother]
  refine ⟨fun _ _ => by simp, fun _ hacc => ?_⟩
  by_contra hnone
  exact hwedged ⟨hout, hacc, fun a ha hval => hnone ⟨a, ha, hval⟩⟩

/-- A retransmission and everything in flight after it clear what is outstanding, unless the
sender is wedged. -/
theorem Inv.recovers (h : d.Inv) (hout : (d.peer x).snd.sent ≠ (d.peer x).snd.acked) {now : ℕ}
    (htimer : (d.peer x).timer < now) (hwedged : ¬ d.Wedged x) :
    ∃ d₁ d₂ d₃, Duo.step (.tick x now) d = some d₁ ∧ d₁.flush x = some d₂ ∧
      d₂.flush x.other = some d₃ ∧ (d₃.peer x).snd.sent = (d₃.peer x).snd.acked := by
  obtain ⟨d₁, h₁⟩ : ∃ d₁, Duo.step (.tick x now) d = some d₁ := ⟨_, rfl⟩
  -- towards the receiver, and then towards the sender; what is answered then does not matter
  obtain ⟨d₂, h₂, hempty₂, hinv₂, hflow₂⟩ := flush_rule (P := fun e => e.Inv ∧ e.Flowing x)
    (fun _ _ he hd => ⟨he.1.deliver hd, he.2.deliver he.1 hd⟩)
    ⟨h.step h₁, h.flowing_tick hout htimer hwedged h₁⟩
  obtain ⟨d₃, h₃, hempty₃, hinv₃, hflow₃, hsegs₃⟩ := flush_rule
    (P := fun e => e.Inv ∧ e.Flowing x ∧ Msg.segs (e.chan x) = [])
    (fun _ _ he hd => ⟨he.1.deliver hd, he.2.1.deliver he.1 hd, segs_deliver he.2.2 hd⟩)
    ⟨hinv₂, hflow₂, by rw [hempty₂, Msg.segs_nil]⟩
  exact ⟨d₁, d₂, d₃, h₁, h₂, h₃, hflow₃.idle hinv₃ hsegs₃ hempty₃⟩

/-- A wedged sender stays as it is. -/
theorem Wedged.stays (hw : d.Wedged x) (h : d.Inv) (now : ℕ) :
    ∃ d₁ d₂ d₃, Duo.step (.tick x now) d = some d₁ ∧ d₁.flush x = some d₂ ∧
      d₂.flush x.other = some d₃ ∧ d₃.Wedged x := by
  obtain ⟨d₁, h₁⟩ : ∃ d₁, Duo.step (.tick x now) d = some d₁ := ⟨_, rfl⟩
  have hstep : ∀ z (e e' : Duo), e.Inv ∧ e.Wedged x → e.deliver z = some e' →
      e'.Inv ∧ e'.Wedged x := fun z e e' he hd => ⟨he.1.deliver hd, he.2.deliver he.1 hd⟩
  obtain ⟨d₂, h₂, -, hd₂⟩ := flush_rule (x := x) (hstep x) ⟨h.step h₁, hw.tick h₁⟩
  obtain ⟨d₃, h₃, -, hd₃⟩ := flush_rule (x := x.other) (hstep x.other) hd₂
  exact ⟨d₁, d₂, d₃, h₁, h₂, h₃, hd₃.2⟩

/-! ### The probe -/

/-- A probe of a zero window and its answer show the sender the free space, and it goes on. -/
theorem Inv.probe (h : d.Inv) (hquiet : d.Quiet)
    (hidle : (d.peer x).snd.sent = (d.peer x).snd.acked) (hwindow : (d.peer x).snd.window = 0)
    (hunsent : (d.peer x).snd.sent ≠ (d.peer x).snd.written.length)
    (hfree : 0 < (d.peer x.other).rcv.free cap) {now : ℕ} (htimer : (d.peer x).timer < now)
    (later : ℕ) :
    ∃ d' n, Run.run Duo.step [.tick x now, .deliver x, .deliver x.other, .tick x later] d =
      some d' ∧
      0 < n ∧ n ≤ (d.peer x.other).rcv.free cap ∧
      (d.peer x).snd.sent + n ≤ (d.peer x).snd.written.length ∧
      d'.chan x = [.seg ⟨(d.peer x).snd.sent,
        ((d.peer x).snd.written.drop (d.peer x).snd.sent).take n,
        false⟩] ∧ (d'.peer x).snd.sent = (d.peer x).snd.sent + n := by
  have hdir := h.dir x
  rw [Dir] at hdir
  have hsent := hdir.sent_le
  have hfin : (d.peer x).snd.fin = false := by
    by_contra hf
    exact hunsent (hdir.complete (by simpa using hf)).1
  have hopen := (h.open_of_fin hfin).1
  -- the probe and its answer
  obtain ⟨d₁, hrun₁, hdrains, hsnd₁⟩ := h.round hquiet hfin (hdir.acc_eq_of_idle hidle)
    (Peer.tick_probe hopen hwindow hunsent htimer) rfl
  have hnil : (d.peer x).snd.pending = [] := by simp [Sender.pending, hidle]
  have hsame : (d.peer x.other).rcv.accept [] = (d.peer x.other).rcv := by simp [Receiver.accept]
  simp only [hnil, hsame] at hsnd₁
  have hopen₁ : (d₁.peer x).closed = false := by rw [hdrains.sender]; exact hopen
  -- the next bytes
  obtain ⟨d₂, h₂⟩ : ∃ d₂, Duo.step (.tick x later) d₁ = some d₂ := ⟨_, rfl⟩
  obtain ⟨hpeer₂, -, hchan₂, -⟩ := tick_cases h₂
  obtain ⟨n, hn⟩ : ∃ n, n = min (min ((d₁.peer x).snd.written.length - (d₁.peer x).snd.sent)
      (d₁.peer x).snd.window) mss := ⟨_, rfl⟩
  have hbounds : 0 < n ∧ n ≤ (d.peer x.other).rcv.free cap ∧
      (d.peer x).snd.sent + n ≤ (d.peer x).snd.written.length := by
    have hmss : 0 < mss := by decide
    simp only [hsnd₁] at hn
    omega
  rw [Peer.tick_next later hopen₁ (by rw [hsnd₁]) (by rw [hsnd₁]; exact hfree.ne') hbounds.1 hn]
    at hpeer₂ hchan₂
  refine ⟨d₂, n, ?_, hbounds.1, hbounds.2.1, hbounds.2.2, ?_, ?_⟩
  · exact Run.run_trans hrun₁ (by rw [Run.run_cons_some h₂, Run.run_nil])
  · rw [hchan₂, hdrains.quiet, hsnd₁]
    simp [Sender.current, Sender.pending, Sender.transmit]
  · rw [hpeer₂, hsnd₁]
    rfl

end Duo

namespace Sys

variable {s : Sys} {x : Side}

/-- `x` lets its timer fire, then everything it has in flight is delivered, and then everything
the other side has. -/
def retransmit (x : Side) (now : ℕ) (s : Sys) : Option Sys :=
  (step (.tick x now) s).bind fun s₁ => (s₁.flush x).bind fun s₂ => s₂.flush x.other

/-- An acknowledgement of everything that `x` has sent is in flight. -/
def AckInFlight (s : Sys) (x : Side) : Prop :=
  ∃ packet ∈ s.chan x.other,
    packet.tcpHeader.ctrl &&& ctAck ≠ 0 ∧ htonl packet.tcpHeader.ackNum = s.sentSeq x

theorem ackInFlight_iff {d : Duo} (h : Refines s d) :
    s.AckInFlight x ↔ ∃ a ∈ Msg.acks (d.chan x.other), a.value = (d.peer x).snd.sent := by
  have hdir := h.2.dir x
  have hlo := hdir.sent_le_mss
  have hsmall : mss + 1 < 2 ^ 32 := by decide
  rw [AckInFlight, Channel.exists_mem_iff (h.1.chan x.other)
    (q := fun m => ∃ a, m = .ack a ∧ a.value = (d.peer x).snd.sent)]
  · constructor
    · rintro ⟨m, hm, a, rfl, hval⟩
      exact ⟨a, Msg.mem_acks.mpr hm, hval⟩
    · rintro ⟨a, ha, hval⟩
      exact ⟨.ack a, Msg.mem_acks.mp ha, a, rfl, hval⟩
  · intro packet m hm hrep
    cases hrep with
    | seg m hctrl =>
      have hno : packet.tcpHeader.ctrl &&& ctAck = 0 := by
        rw [hctrl]
        cases m.fin <;> decide
      simp [hno]
    | ack a hackBit _ hnum =>
      obtain ⟨hle, hge⟩ := hdir.ack_num_cases (Msg.mem_acks.mpr hm)
      have hfin : a.fin.toNat ≤ 1 := Bool.toNat_le a.fin
      have hval : a.value = a.num + a.fin.toNat := rfl
      have hnumiff : BitVec.ofNat 32 a.value = BitVec.ofNat 32 (d.peer x).snd.sent ↔
          a.value = (d.peer x).snd.sent := by
        rcases Nat.le_total a.value (d.peer x).snd.sent with hle' | hle'
        · exact ofNat_inj_of_le hle' (by omega)
        · rw [eq_comm, ofNat_inj_of_le hle' (by omega), eq_comm]
      rw [hnum, sentSeq_eq h, hnumiff]
      constructor
      · exact fun hp => ⟨a, rfl, hp.2⟩
      · rintro ⟨b, hb, hvalb⟩
        rw [Msg.ack.inj hb]
        exact ⟨hackBit, hvalb⟩

/-- When the sender is wedged, read off the sockets and the channel. -/
theorem not_wedged_iff {d : Duo} (h : Refines s d)
    (hout : (d.peer x).snd.sent ≠ (d.peer x).snd.acked) :
    ¬ d.Wedged x ↔ (s.socket x.other).ackNum = (s.socket x).seqNum ∨ s.AckInFlight x := by
  have hdir := h.2.dir x
  rw [Duo.Dir] at hdir
  have hmss := hdir.sent_le_mss
  have hacc := hdir.acc_le
  have hsmall : mss < 2 ^ 32 := by decide
  have hnum : (s.socket x.other).ackNum = (s.socket x).seqNum ↔
      (d.peer x.other).rcv.accepted.length = (d.peer x).snd.acked := by
    rw [(h.1.socket x.other).ackNum, (h.1.socket x).seqNum, eq_comm,
      ofNat_inj_of_le hdir.acked_le (by omega), eq_comm]
  rw [hnum, ackInFlight_iff h]
  constructor
  · intro hnot
    refine hdir.acc_cases.imp id fun htaken => ?_
    by_contra hnone
    exact hnot ⟨hout, htaken, fun a ha hval => hnone ⟨a, ha, hval⟩⟩
  · rintro (hbehind | ⟨a, ha, hval⟩) hw
    · exact hout (hw.taken.symm.trans hbehind)
    · exact hw.unanswered a ha hval

/-- **Retransmission.** When the timer of a sender with something outstanding fires and all that
is in flight is delivered, the sender is done with it exactly when the receiver had not taken the
segment yet or an acknowledgement of it was still in flight. -/
theorem Reachable.recovers_iff (h : s.Reachable) {now : ℕ}
    (hout : (s.socket x).sendBack ≠ (s.socket x).ackBack)
    (htimer : (s.socket x).resendTime < now) :
    ∃ s', s.retransmit x now = some s' ∧
      ((s'.socket x).ackBack = (s'.socket x).sendBack ↔
        (s.socket x.other).ackNum = (s.socket x).seqNum ∨ s.AckInFlight x) := by
  obtain ⟨d, hd⟩ := h.duo
  have hk := hd.1.socket x
  rw [hk.outstanding_iff (hd.2.bounded x)] at hout
  rw [hk.resendTime] at htimer
  rw [← not_wedged_iff hd hout]
  obtain ⟨d₁, d₂, d₃, h₁, h₂, h₃, hiff⟩ : ∃ d₁ d₂ d₃, Duo.step (.tick x now) d = some d₁ ∧
      d₁.flush x = some d₂ ∧ d₂.flush x.other = some d₃ ∧
      ((d₃.peer x).snd.sent = (d₃.peer x).snd.acked ↔ ¬ d.Wedged x) := by
    by_cases hw : d.Wedged x
    · obtain ⟨d₁, d₂, d₃, h₁, h₂, h₃, hw'⟩ := hw.stays hd.2 now
      exact ⟨d₁, d₂, d₃, h₁, h₂, h₃, iff_of_false hw'.outstanding (not_not_intro hw)⟩
    · obtain ⟨d₁, d₂, d₃, h₁, h₂, h₃, hdone⟩ := hd.2.recovers hout htimer hw
      exact ⟨d₁, d₂, d₃, h₁, h₂, h₃, iff_of_true hdone hw⟩
  obtain ⟨s₁, hs₁, hd₁⟩ := Run.rel_some_right (hd.step (.tick x now)) h₁
  obtain ⟨s₂, hs₂, hd₂⟩ := Run.rel_some_right (hd₁.flush x) h₂
  obtain ⟨s₃, hs₃, hd₃⟩ := Run.rel_some_right (hd₂.flush x.other) h₃
  refine ⟨s₃, ?_, ?_⟩
  · rw [retransmit, hs₁, Option.bind_some, hs₂, Option.bind_some, hs₃]
  · have hout₃ := (hd₃.1.socket x).outstanding_iff (hd₃.2.bounded x)
    rw [← hiff, eq_comm, ← not_iff_not]
    exact hout₃

/-- One byte is sent and the segment is lost. -/
def lostSegment : List Action := [.write .a [1], .tick .a 1, .lose .a 0]

theorem recovers_iff_lostSegment :
    let s := (Handshake.zero.run 0 0 lostSegment).get (by decide)
    ∃ s', s.retransmit .a 1000000000 = some s' ∧
      ((s'.socket .a).ackBack = (s'.socket .a).sendBack ↔
        (s.socket .b).ackNum = (s.socket .a).seqNum ∨ s.AckInFlight .a) :=
  (reachable_get (by decide)).recovers_iff (by decide) (by decide)

/-- One byte is sent and arrives, and the acknowledgement is lost. -/
def lostAck : List Action := [.write .a [1], .tick .a 1, .deliver .a, .lose .b 0]

/-- A retransmission does not recover from the loss of an acknowledgement. -/
theorem not_recovers_lostAck :
    ¬ ∀ (s : Sys), s.Reachable → ∀ (x : Side) (now : ℕ),
      (s.socket x).state = .establisted → (s.socket x.other).state = .establisted →
      (s.socket x).sendBack ≠ (s.socket x).ackBack → (s.socket x).resendTime < now →
      ∃ s', s.retransmit x now = some s' ∧ (s'.socket x).ackBack = (s'.socket x).sendBack := by
  intro hclaim
  obtain ⟨s', hs', hdone⟩ := hclaim _
    (@reachable_get Handshake.zero 0 0 lostAck (by decide)) .a
    1000000000 (by decide) (by decide) (by decide) (by decide)
  have hstuck : (((Handshake.zero.run 0 0 lostAck).get (by decide)).retransmit .a
      1000000000).all fun s' => (s'.socket .a).ackBack ≠ (s'.socket .a).sendBack := by decide
  rw [hs'] at hstuck
  exact absurd hdone (by simpa using hstuck)

/-! ### The zero window -/

/-- Everything in flight is lost. -/
def drained (s : Sys) : Sys := { s with chan := fun _ => [] }

theorem run_lose_all (s : Sys) (x : Side) :
    s.run (List.replicate (s.chan x).length (.lose x 0))
      = some { s with chan := Function.update s.chan x [] } := by
  induction hn : (s.chan x).length generalizing s with
  | zero =>
    have hnil := List.eq_nil_of_length_eq_zero hn
    simp [Sys.run, ← hnil]
  | succ n ih =>
    obtain ⟨packet, rest, hchan⟩ := List.exists_cons_of_length_eq_add_one hn
    have hlose : step (.lose x 0) s = some { s with chan := Function.update s.chan x rest } := by
      simp [step, Channel.lose, hchan]
    have hrest := ih { s with chan := Function.update s.chan x rest }
      (by simpa [hchan] using hn)
    rw [Sys.run, List.replicate_succ, Run.run_cons_some hlose]
    simpa [Sys.run] using hrest

theorem Reachable.drained (h : s.Reachable) : s.drained.Reachable := by
  have hboth := (h.run (run_lose_all s .a)).run (run_lose_all _ .b)
  have hchan : Function.update (Function.update s.chan .a []) .b [] = fun _ => [] := by
    funext z
    cases z <;> rfl
  simpa [Sys.drained, hchan] using hboth

/-- A run of the connection can be run by the system. -/
theorem reachable_of_duo {i j : ℕ} {acts : List Action} {d : Duo}
    (hrun : Run.run Duo.step acts (Duo.start i j) = some d) :
    ∃ s : Sys, s.Reachable ∧ Refines s d := by
  obtain ⟨s₀, hstart, hrep⟩ := Handshake.zero.start_rep i j
  have hrel : Refines s₀ (Duo.start i j) := ⟨hrep, Duo.start_inv i j⟩
  obtain ⟨s, hs, hd⟩ := Run.rel_some_right (hrel.run acts) hrun
  exact ⟨s, ⟨Handshake.zero, i, j, acts, by rw [Handshake.run, hstart]; exact hs⟩, hd⟩

/-- A whole ring has been written on one side, and taken over by the other. -/
theorem exists_fullPeer : ∃ acts d, Run.run Duo.step acts (Duo.start 0 0) = some d ∧
    ((d.peer .a).closed = false ∧ (d.peer .a).call = false ∧ (d.peer .a).rcv.fin = false) ∧
    (d.peer .a).snd.written.length = cap ∧ (d.peer .a).snd.acked = cap ∧
    (d.peer .a).snd.sent = cap ∧ (d.peer .a).snd.window = 0 ∧
    (d.peer .b).rcv.accepted.length = cap ∧ (d.peer .b).rcv.taken = 0 := by
  have hlen : (List.replicate cap (0 : Byte)).length = cap := List.length_replicate
  have hcap : 0 < cap := by decide
  obtain ⟨d₁, h₁, hd₁⟩ : ∃ d₁, Duo.step (.write .a (List.replicate cap 0)) (Duo.start 0 0) =
    some d₁ ∧
      d₁ = (Duo.start 0 0).setPeer .a { Peer.start with
        snd := Peer.start.snd.write (List.replicate cap 0) } := by
    refine ⟨_, ?_, rfl⟩
    have hwrite := Peer.start.write_eq (List.replicate cap 0) rfl rfl (by omega)
      (by rw [hlen]; rfl)
    simp only [Duo.step, Duo.start, hwrite, Option.map_some]
    rfl
  have hinv₁ := (Duo.start_inv 0 0).step h₁
  have hquiet₁ : d₁.Quiet := by
    rw [hd₁]
    exact Side.forall_of_other (p := fun z => (Duo.start 0 0).chan z = []) .a rfl rfl
  obtain ⟨d₂, hdrains, hdone⟩ := hinv₁.drain (x := .a) hquiet₁ (by rw [hd₁]; rfl)
    (by rw [hd₁]; exact hlen.le) (by rw [hd₁]; rfl)
  have hdir₂ := (hinv₁.leads hdrains.leads).dir .a
  rw [Duo.Dir] at hdir₂
  have hwritten : (d₂.peer .a).snd.written.length = cap := by
    rw [hdrains.sender, hd₁]
    exact hlen
  have hacked : (d₂.peer .a).snd.acked = cap := by
    rw [hdone, hd₁]
    exact hlen
  have htaken : (d₂.peer Side.a.other).rcv.taken = 0 := by
    rw [hdrains.receiver, hd₁]
    rfl
  have hsent : (d₂.peer .a).snd.sent = cap := by
    have := hdir₂.acked_le_sent
    have := hdir₂.sent_le
    omega
  have hacc := hdir₂.acc_eq_of_idle (hsent.trans hacked.symm)
  have hedge := hdir₂.edge
  obtain ⟨acts, -, hrun⟩ := hdrains.leads
  refine ⟨.write .a (List.replicate cap 0) :: acts, d₂, (Run.run_cons_some h₁ acts).trans hrun, ?_,
    hwritten, hacked, hsent, by omega, hacc.trans hacked, htaken⟩
  rw [hdrains.sender, hd₁]
  exact ⟨rfl, rfl, rfl⟩

/-- A full receive ring, of which one byte has been read, and a sender that has one more byte and has
not heard of it. -/
theorem exists_fullRing : ∃ s : Sys, s.Reachable ∧
    (s.socket .a).sendBack = (s.socket .a).ackBack ∧
    (s.socket .a).ackFront = (s.socket .a).ackBack ∧
    (s.socket .a).sendFront ≠ (s.socket .a).sendBack ∧ 0 < s.freeSpace .b := by
  have hcap : 0 < cap := by decide
  obtain ⟨acts, d, hrun, hopen, hwritten, hacked, hsent, hwindow, hacc, htaken⟩ := exists_fullPeer
  have hwrites : Duo.step (.write .a [1]) d
      = some (d.setPeer .a { d.peer .a with snd := (d.peer .a).snd.write [1] }) := by
    have hwrite := (d.peer .a).write_eq [1] hopen.1 hopen.2.2 Nat.one_pos (by
      rw [hacked, hwritten]
      exact Nat.add_le_add_left hcap cap)
    simp only [Duo.step, hopen.2.1, hwrite, Bool.false_eq_true, if_false, Option.map_some]
  have hreads : Duo.step (.read .b 1)
    (d.setPeer .a { d.peer .a with snd := (d.peer .a).snd.write [1] })
      = some ((d.setPeer .a { d.peer .a with snd := (d.peer .a).snd.write [1] }).setPeer .b
        { d.peer .b with rcv := (d.peer .b).rcv.take 1 }) := by
    have hb : (d.setPeer .a { d.peer .a with snd := (d.peer .a).snd.write [1] }).peer .b
        = d.peer .b := Duo.peer_setPeer_other (x := .a)
    have hread := Peer.read_eq (p := d.peer .b) Nat.one_pos (by omega)
    simp only [Duo.step, hb, hread, Option.map_some]
  obtain ⟨s, hs, hd⟩ := @reachable_of_duo 0 0 _ _ (Run.run_trans hrun
    (by rw [Run.run_cons_some hwrites, Run.run_cons_some hreads, Run.run_nil]))
  have ha := Duo.peer_setPeer_other (d := d.setPeer .a { d.peer .a with
    snd := (d.peer .a).snd.write [1] }) (x := .b) (p := { d.peer .b with
    rcv := (d.peer .b).rcv.take 1 })
  rw [show Side.b.other = .a from rfl, Duo.peer_setPeer_self] at ha
  have hk := hd.1.socket .a
  have hp := hd.2.bounded .a
  rw [ha] at hk hp
  refine ⟨s, hs, ?_, ?_, ?_, ?_⟩
  · rw [hk.sendBack, hk.ackBack]
    exact congrArg _ (hsent.trans hacked.symm)
  · exact ((hk.zeroWindow_iff hp).mpr hwindow).symm
  · intro heq
    have hlast := (hk.drained_iff hp).mp ⟨?_, heq.symm⟩
    · have := hlast.2
      simp only [Sender.write, List.length_append, List.length_singleton] at this
      omega
    · rw [hk.sendBack, hk.ackBack]
      exact congrArg _ (hacked.trans hsent.symm)
  · rw [freeSpace_eq hd, Duo.peer_setPeer_self, Receiver.free]
    simp only [Receiver.take]
    omega

/-- **The zero window.** A probe and its answer reopen the window when the receiver has room, and
the next tick sends bytes that were never sent before, no more than there is room for. -/
theorem Reachable.probe_reopens (h : s.Reachable) {now : ℕ}
    (hidle : (s.socket x).sendBack = (s.socket x).ackBack)
    (hwindow : (s.socket x).ackFront = (s.socket x).ackBack)
    (hunsent : (s.socket x).sendFront ≠ (s.socket x).sendBack)
    (hfree : 0 < s.freeSpace x.other) (htimer : (s.socket x).resendTime < now) (later : ℕ) :
    ∃ s' packet, s.drained.run [.tick x now, .deliver x, .deliver x.other, .tick x later] =
      some s' ∧
      s'.chan x = [packet] ∧ htonl packet.tcpHeader.seqNum = s.sentSeq x ∧
      0 < packet.data.length ∧ packet.data.length ≤ s.freeSpace x.other ∧
      (s'.socket x).sendBack = (s.socket x).sendBack + BitVec.ofNat 16 packet.data.length := by
  obtain ⟨d, hd⟩ := h.drained.duo
  have hk : (s.socket x).Rep (d.peer x) := hd.1.socket x
  have hp := hd.2.bounded x
  have hidle' := not_not.mp ((hk.outstanding_iff hp).not.mp (not_not_intro hidle))
  have hunsent' : (d.peer x).snd.sent ≠ (d.peer x).snd.written.length := fun heq =>
    hunsent ((hk.drained_iff hp).mpr ⟨hidle'.symm, heq⟩).2.symm
  have hquiet : d.Quiet := fun z => List.forall₂_nil_left_iff.mp (hd.1.chan z)
  have hroom : s.freeSpace x.other = (d.peer x.other).rcv.free cap := freeSpace_eq hd x.other
  have hseq : s.sentSeq x = BitVec.ofNat 32 (d.peer x).snd.sent := sentSeq_eq hd x
  rw [hroom] at hfree ⊢
  obtain ⟨d', n, hrun, hpos, hle, hsent, hchan, hback⟩ :=
    hd.2.probe hquiet hidle' ((hk.zeroWindow_iff hp).mp hwindow.symm) hunsent' hfree
      (hk.resendTime ▸ htimer) later
  obtain ⟨s', hrun', hd'⟩ := Run.rel_some_right (hd.run _) hrun
  have hchan' := hd'.1.chan x
  rw [hchan] at hchan'
  obtain ⟨packet, rest, hm, hrest, hs'⟩ := List.forall₂_cons_right_iff.mp hchan'
  rw [List.forall₂_nil_right_iff.mp hrest] at hs'
  cases hm with
  | seg _ _ hseqNum hdata =>
    have hlen : packet.data.length = n := by
      rw [hdata, List.length_take, List.length_drop]
      omega
    refine ⟨s', packet, hrun', hs', by rw [hseqNum, hseq], by omega, by omega, ?_⟩
    rw [(hd'.1.socket x).sendBack, hback, hk.sendBack, hlen, BitVec.ofNat_add]

theorem probe_reopens_fullRing : ∃ s : Sys, ∃ s' packet,
    s.drained.run [.tick .a ((s.socket .a).resendTime + 1), .deliver .a, .deliver .b, .tick .a 0]
      = some s' ∧
    s'.chan .a = [packet] ∧ htonl packet.tcpHeader.seqNum = s.sentSeq .a ∧
    0 < packet.data.length ∧ packet.data.length ≤ s.freeSpace .b ∧
    (s'.socket .a).sendBack = (s.socket .a).sendBack + BitVec.ofNat 16 packet.data.length := by
  obtain ⟨s, hs, hidle, hwindow, hunsent, hfree⟩ := exists_fullRing
  exact ⟨s, hs.probe_reopens hidle hwindow hunsent hfree (Nat.lt_succ_self _) 0⟩

end Sys

end LabNetstack
