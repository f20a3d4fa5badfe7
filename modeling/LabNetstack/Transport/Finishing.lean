import LabNetstack.Transport.Closing

/-!
# The way out of `closeLab`

Where none of the five dead ends is met, the closing handshake can be finished. Both timers fire
where something may be lost, everything in flight is delivered, and then the two ends that have not
done so yet send what they have left and hang up, one after the other.

## Main results

* `Duo.Inv.hangUp` — an end that can send all it has finishes its direction
* `Duo.Inv.finishes_iff` — an end whose application has closed can finish exactly when it is not
  in a dead end
-/

namespace LabNetstack

open StopAndWait

namespace Peer

variable {p : Peer}

/-- The first `FIN` does not wait for the timer. -/
theorem tick_fin (hclosed : p.closed = false) (hfin : p.snd.fin = false)
    (hidle : p.snd.acked = p.snd.sent) (hdrained : p.snd.sent = p.snd.written.length)
    (hcause : p.rcv.fin = true ∨ p.call = true) :
    p.tick 0 = ({ p with snd := p.snd.finish, timer := finInterval },
      [.seg p.snd.finish.finSegment]) := by
  have hseg : p.sendSegment 0 = (p, []) := by
    simp only [sendSegment]
    split_ifs with hold htimer hpos
    · exact absurd htimer (Nat.not_lt_zero _)
    · rfl
    · omega
    · rfl
  have hsend : p.sendFin 0 = ({ p with snd := p.snd.finish, timer := finInterval },
      [.seg p.snd.finish.finSegment]) := by
    rw [sendFin, if_pos ⟨hidle, hdrained⟩, if_pos (by simpa using hcause), if_pos (by simp [hfin]),
      Nat.zero_add]
  rw [tick, if_neg (by simp [hclosed]), hseg]
  simp only [hsend, List.nil_append]

/-- The timer sends the `FIN` again, unless a zero window takes it for a probe. -/
theorem tick_again {now : ℕ} (hclosed : p.closed = false) (hfin : p.snd.fin = true)
    (hidle : p.snd.acked = p.snd.sent) (hdrained : p.snd.sent = p.snd.written.length)
    (hcause : p.rcv.fin = true ∨ p.call = true) (hack : p.ackRecv = false)
    (htimer : p.timer < now) :
    p.tick now = if p.snd.window = 0 then
        ({ p with timer := now + resendInterval }, [.seg p.snd.current])
      else ({ p with timer := now + finInterval }, [.seg p.snd.finSegment]) := by
  have hkeep : p.snd.finish = p.snd := by rw [Sender.finish, ← hfin]
  rw [tick, if_neg (by simp [hclosed])]
  split_ifs with hwindow
  · have hsend : ({ p with timer := now + resendInterval } : Peer).sendFin now
        = ({ p with timer := now + resendInterval }, []) := by
      rw [sendFin, if_pos ⟨hidle, hdrained⟩, if_pos (by simpa using hcause), if_neg]
      simp [hfin, hack]
    rw [sendSegment, if_pos (Or.inr hwindow), if_pos htimer]
    simp only [hsend, List.append_nil]
  · have hseg : p.sendSegment now = (p, []) := by
      simp only [sendSegment]
      rw [if_neg (by omega), if_neg (by omega)]
    have hsend : p.sendFin now
        = ({ p with timer := now + finInterval }, [.seg p.snd.finSegment]) := by
      rw [sendFin, if_pos ⟨hidle, hdrained⟩, if_pos (by simpa using hcause),
        if_pos (by simp [hack, htimer]), hkeep]
    rw [hseg]
    simp only [hsend, List.nil_append]

/-- What a firing timer sends where something may be lost: the outstanding segment, or the `FIN`,
or at least something that is answered. -/
structure Resends (p : Peer) (out : List Msg) : Prop where
  data : p.snd.fin = false → p.snd.sent ≠ p.snd.acked → .seg p.snd.current ∈ out
  fin : p.snd.fin = true → p.ackRecv = false → ∃ m : Segment Byte, out = [.seg m] ∧
    (m.fin = true ∨ m.seq = p.snd.acked) ∧ (p.snd.window ≠ 0 → m.fin = true)

end Peer

namespace Duo

variable {d d' : Duo} {x z : Side}

/-! ### Hanging up -/

/-- The `FIN` of a sender that has nothing left, and its answer. -/
theorem Inv.finRound (h : d.Inv) (hquiet : d.Quiet) (hfin : (d.peer x).snd.fin = false)
    (hdrained : (d.peer x).snd.acked = (d.peer x).snd.written.length)
    (hcause : (d.peer x).rcv.fin = true ∨ (d.peer x).call = true) :
    ∃ d', d.Leads d' ∧ d'.Quiet ∧ (d'.peer x).snd.fin = true ∧ (d'.peer x).ackRecv = true ∧
      (d'.peer x).rcv = (d.peer x).rcv ∧
      d'.peer x.other = { d.peer x.other with
        rcv := { (d.peer x.other).rcv with fin := true } } := by
  obtain ⟨hopen, hopen'⟩ := h.open_of_fin hfin
  have hle := (h.dir x).acked_le_sent
  have hsent := (h.dir x).sent_le
  have htick := Peer.tick_fin hopen hfin (by omega) (by omega) hcause
  obtain ⟨d₃, hrun, hquiet₃, hpeer₃, hother₃⟩ :=
    hquiet.exchange htick (Peer.handle_fin hopen' rfl)
  refine ⟨d₃, ⟨_, by simp [Action.Automatic], hrun⟩, hquiet₃, ?_, ?_, ?_, hother₃⟩
  · rw [hpeer₃, (Peer.handle_ack_frame _ _).2.2.1]
    rfl
  · rw [hpeer₃, Peer.handle, if_neg (by simp [hopen])]
    simp [Sender.finish]
  · rw [hpeer₃, (Peer.handle_ack_frame _ _).1]

/-- **Hanging up.** An end that has the room sends everything, then its `FIN`, and is answered. -/
theorem Inv.hangUp (h : d.Inv) (hquiet : d.Quiet) (hfin : (d.peer x).snd.fin = false)
    (hidle : (d.peer x).snd.sent = (d.peer x).snd.acked)
    (hroom : (d.peer x).snd.written.length ≤ (d.peer x.other).rcv.taken + cap)
    (hcause : (d.peer x).rcv.fin = true ∨ (d.peer x).call = true) :
    ∃ d', d.Leads d' ∧ d'.Quiet ∧ (d'.peer x).snd.fin = true ∧ (d'.peer x).ackRecv = true ∧
      (d'.peer x).rcv = (d.peer x).rcv ∧
      d'.peer x.other = { d.peer x.other with
        rcv := { (d.peer x.other).rcv with
          accepted := (d'.peer x.other).rcv.accepted
          fin := true } } := by
  obtain ⟨d₁, hdrains, hdone⟩ := h.drain hquiet hfin hroom ((h.dir x).acc_eq_of_idle hidle)
  obtain ⟨d₂, hleads, hquiet₂, hfin₂, hack₂, hrcv₂, hother₂⟩ :=
    (h.leads hdrains.leads).finRound hdrains.quiet (x := x) (by rw [hdrains.sender]; exact hfin)
      (by rw [hdone, hdrains.sender]) (by rw [hdrains.sender]; exact hcause)
  refine ⟨d₂, hdrains.leads.trans hleads, hquiet₂, hfin₂, hack₂, ?_, ?_⟩
  · rw [hrcv₂, hdrains.sender]
  · rw [hother₂, hdrains.receiver]

/-! ### Where everything is still to come -/

/-- Something that the other side answers is on its way to it, and it will still be open. -/
def Answerable (d : Duo) (x : Side) : Prop :=
  (∃ a, Msg.ack a ∈ d.chan x.other) ∨
    ((d.peer x.other).closed = false ∧
      (∃ m : Segment Byte, Msg.seg m ∈ d.chan x ∧
        (m.fin = true ∨ m.seq = (d.peer x.other).rcv.accepted.length)) ∧
      ((d.peer x.other).snd.fin = true → (d.peer x.other).rcv.fin = true →
        ¬ AckFirst (d.peer x.other).rcv.accepted.length (d.chan x)))

/-- The `FIN` of the other side is on its way to `x`, or nothing keeps it from being sent. -/
def Expected (d : Duo) (x : Side) : Prop :=
  (∃ m : Segment Byte, Msg.seg m ∈ d.chan x.other ∧ m.fin = true) ∨
    (d.Flowing x.other ∧ (d.peer x.other).snd.written.length ≤ (d.peer x).rcv.taken + cap ∧
      ((d.peer x.other).call = true ∨ (d.peer x.other).rcv.fin = true ∨
        (∃ m : Segment Byte, Msg.seg m ∈ d.chan x ∧ m.fin = true) ∨ (d.peer x).snd.fin = false))

/-- Without further losses `x` will be finished. -/
structure Promising (d : Duo) (x : Side) : Prop where
  inv : d.Inv
  call : (d.peer x).call = true
  sent : (d.Flowing x ∧ (d.peer x).snd.written.length ≤ (d.peer x.other).rcv.taken + cap) ∨
    ((d.peer x).snd.fin = true ∧ ((d.peer x).ackRecv = true ∨ d.Answerable x))
  received : (d.peer x).rcv.fin = true ∨ d.Expected x

/-- An end that is open answers a segment that asks for it. -/
theorem handle_asks {p : Peer} {m : Segment Byte} (hopen : p.closed = false)
    (hm : m.fin = true ∨ m.seq = p.rcv.accepted.length) :
    ∃ a, (p.handle (.seg m)).2 = some (.ack a) := by
  cases hfin : m.fin with
  | true => exact ⟨_, by rw [Peer.handle_fin hopen hfin]⟩
  | false =>
    have hseq : m.seq = p.rcv.accepted.length := hm.resolve_left (by simp [hfin])
    exact ⟨_, by rw [Peer.handle_next hopen hfin hseq]⟩

/-- What comes behind a segment that asks for an answer is too late. -/
theorem AckFirst.before {n : ℕ} {m : Segment Byte} {l l' : List Msg}
    (hm : m.fin = true ∨ m.seq = n) (h : AckFirst n (l ++ .seg m :: l')) : AckFirst n l := by
  induction l with
  | nil =>
    obtain ⟨hfin, hseq, -⟩ := h
    exact hm.elim (fun hf => by simp [hfin] at hf) hseq
  | cons m₀ l ih =>
    cases m₀ with
    | ack a => trivial
    | seg m₀ => exact ⟨h.1, h.2.1, ih h.2.2⟩

theorem Answerable.deliver (h : d.Answerable x) (hinv : d.Inv) (hfin : (d.peer x).snd.fin = true)
    (hack : (d.peer x).ackRecv = false) (hd : d.deliver z = some d') :
    (d'.peer x).ackRecv = true ∨ d'.Answerable x := by
  obtain ⟨m, rest, hchan, hrest, hsame, hpeer, hout⟩ := deliver_cases hd
  have hopen : (d.peer x).closed = false := by
    by_contra hc
    have := ((hinv.flags x).closed_fin (by simpa using hc)).2.2
    simp [hack] at this
  rcases Side.eq_or_eq_other z x with rfl | rfl
  · refine Or.inr ?_
    rcases h with ⟨a, ha⟩ | ⟨hopen', ⟨m', hmem, hasks⟩, hfirst⟩
    · exact Or.inl ⟨a, by rw [hout]; exact List.mem_append_left _ ha⟩
    rw [hchan] at hmem hfirst
    cases m with
    | ack a =>
      -- the other side only closes when it has nothing left to wait for
      have hwaits : ((d.peer x.other).snd.fin && (d.peer x.other).rcv.fin) = false := by
        by_contra hboth
        obtain ⟨hf, hr⟩ := Bool.and_eq_true_iff.mp (by simpa using hboth)
        exact hfirst hf hr trivial
      obtain ⟨hrcv, -, hsndFin, -⟩ := Peer.handle_ack_frame (d.peer x.other) a
      rw [← hpeer] at hrcv hsndFin
      refine Or.inr ⟨?_, ⟨m', ?_, by rw [hrcv]; exact hasks⟩, fun hf hr => ?_⟩
      · rw [hpeer, Peer.handle, if_neg (by simp [hopen'])]
        exact hwaits
      · rw [hrest]
        exact (List.mem_cons.mp hmem).resolve_left (by simp)
      · rw [hsndFin] at hf
        rw [hrcv] at hr
        simp [hf, hr] at hwaits
    | seg m =>
      by_cases hm : m.fin = true ∨ m.seq = (d.peer x.other).rcv.accepted.length
      · obtain ⟨a, ha⟩ := handle_asks hopen' hm
        exact Or.inl ⟨a, by rw [hout, ha]; simp⟩
      · have hstale : m.fin = false ∧ m.seq ≠ (d.peer x.other).rcv.accepted.length := by
          simpa [not_or] using hm
        replace hpeer : d'.peer x.other = d.peer x.other := by
          rw [hpeer, Peer.handle_stale hstale.1 hstale.2]
        rw [← hpeer] at hopen' hasks hfirst hstale
        refine Or.inr ⟨hopen', ⟨m', ?_, hasks⟩, fun hf hr hafter => hfirst hf hr ?_⟩
        · rw [hrest]
          refine (List.mem_cons.mp hmem).resolve_left fun heq => hm ?_
          rw [← Msg.seg.inj heq, ← hpeer]
          exact hasks
        · exact ⟨hstale.1, hstale.2, hrest ▸ hafter⟩
  · rw [Answerable, Side.other_other] at *
    rcases h with ⟨a, ha⟩ | ⟨hopen', ⟨m', hmem, hasks⟩, hfirst⟩
    · rw [hchan] at ha
      cases m with
      | ack b =>
        refine Or.inl ?_
        rw [hpeer, Peer.handle, if_neg (by simp [hopen])]
        simp [hfin]
      | seg m =>
        refine Or.inr (Or.inl ⟨a, ?_⟩)
        rw [hrest]
        exact (List.mem_cons.mp ha).resolve_left (by simp)
    · rw [hsame, hout]
      refine Or.inr (Or.inr ⟨hopen', ⟨m', List.mem_append_left _ hmem, hasks⟩,
        fun hf hr hafter => ?_⟩)
      obtain ⟨l₁, l₂, hl⟩ := List.append_of_mem hmem
      rw [hl, List.append_assoc, List.cons_append] at hafter
      exact hfirst hf hr (hl ▸ (hafter.before hasks).append _)

/-- A `FIN` received stays received. -/
theorem deliver_rcv_fin (hd : d.deliver z = some d') (hfin : (d.peer x).rcv.fin = true) :
    (d'.peer x).rcv.fin = true := by
  obtain ⟨m, rest, -, -, hsame, hpeer, -⟩ := deliver_cases hd
  rcases Side.eq_or_eq_other z x with rfl | rfl
  · rw [hsame, hfin]
  · rw [hpeer]
    exact Peer.handle_rcv_fin m hfin

theorem deliver_ackRecv (hd : d.deliver z = some d') (hack : (d.peer x).ackRecv = true) :
    (d'.peer x).ackRecv = true := by
  obtain ⟨m, rest, -, -, hsame, hpeer, -⟩ := deliver_cases hd
  rcases Side.eq_or_eq_other z x with rfl | rfl
  · rw [hsame, hack]
  · rw [hpeer]
    cases m with
    | seg m => rw [(Peer.handle_seg_frame _ m).2.2.1, hack]
    | ack a =>
      rw [Peer.handle]
      split_ifs
      · exact hack
      · simp [hack]

/-- A `FIN` in flight stays in flight until it arrives. -/
theorem Inv.fin_deliver (hinv : d.Inv) (hd : d.deliver z = some d')
    (h : ∃ m : Segment Byte, Msg.seg m ∈ d.chan x ∧ m.fin = true) :
    (d'.peer x.other).rcv.fin = true ∨
      ∃ m : Segment Byte, Msg.seg m ∈ d'.chan x ∧ m.fin = true := by
  obtain ⟨m', hmem, hfin⟩ := h
  obtain ⟨m, rest, hchan, hrest, hsame, hpeer, hout⟩ := deliver_cases hd
  rcases Side.eq_or_eq_other z x with rfl | rfl
  · rw [hchan] at hmem
    rcases List.mem_cons.mp hmem with rfl | hmem
    · refine Or.inl ?_
      rw [hpeer]
      cases hclosed : (d.peer x.other).closed with
      | true => exact Peer.handle_rcv_fin _ ((hinv.flags x.other).closed_fin hclosed).2.1
      | false => rw [Peer.handle_fin hclosed hfin]
    · exact Or.inr ⟨m', by rw [hrest]; exact hmem, hfin⟩
  · exact Or.inr ⟨m', by rw [hout]; exact List.mem_append_left _ hmem, hfin⟩

theorem Expected.deliver (h : d.Expected x) (hinv : d.Inv) (hd : d.deliver z = some d') :
    (d'.peer x).rcv.fin = true ∨ d'.Expected x := by
  rcases h with hfin | ⟨hflow, hroom, hcause⟩
  · have := hinv.fin_deliver hd hfin
    rw [Side.other_other] at this
    exact this.imp_right Or.inl
  · refine Or.inr (Or.inr ⟨hflow.deliver hinv hd, ?_, ?_⟩)
    · rw [(deliver_history hd x.other).1,
        (deliver_history hd x).2.1]
      exact hroom
    · rcases hcause with hcall | hrcv | hfin | hopen
      · exact Or.inl (by rw [(deliver_history hd x.other).2.2, hcall])
      · exact Or.inr (Or.inl (deliver_rcv_fin hd hrcv))
      · exact Or.inr ((hinv.fin_deliver hd hfin).imp_right Or.inl)
      · exact Or.inr (Or.inr (Or.inr (by rw [deliver_snd_fin hd, hopen])))

/-- No delivery breaks the promise. -/
theorem Promising.deliver (h : d.Promising x) (hd : d.deliver z = some d') : d'.Promising x where
  inv := h.inv.deliver hd
  call := by rw [(deliver_history hd x).2.2, h.call]
  sent := by
    rcases h.sent with ⟨hflow, hroom⟩ | ⟨hfin, hack⟩
    · refine Or.inl ⟨hflow.deliver h.inv hd, ?_⟩
      rw [(deliver_history hd x).1,
        (deliver_history hd x.other).2.1]
      exact hroom
    · refine Or.inr ⟨by rw [deliver_snd_fin hd, hfin], ?_⟩
      cases hnot : (d.peer x).ackRecv with
      | true => exact Or.inl (deliver_ackRecv hd hnot)
      | false => exact (hack.resolve_left (by simp [hnot])).deliver h.inv hfin hnot hd
  received := by
    rcases h.received with hfin | hexp
    · exact Or.inl (deliver_rcv_fin hd hfin)
    · exact hexp.deliver h.inv hd

/-- **From a promise to the end.** -/
theorem Promising.finishes (h : d.Promising x) : ∃ d', d.Leads d' ∧ (d'.peer x).Finished := by
  obtain ⟨d₁, hleads₁, hquiet₁, h₁⟩ := exists_quiet (fun _ _ _ => Promising.deliver) h x
  have hsegs : ∀ z, Msg.segs (d₁.chan z) = [] := fun z => by rw [hquiet₁ z, Msg.segs_nil]
  -- first `x` hangs up
  obtain ⟨d₂, hleads₂, hquiet₂, hfin₂, hack₂, hrcv₂, hother₂⟩ : ∃ d₂, d₁.Leads d₂ ∧ d₂.Quiet ∧
      (d₂.peer x).snd.fin = true ∧ (d₂.peer x).ackRecv = true ∧
      (d₂.peer x).rcv = (d₁.peer x).rcv ∧
      ((d₂.peer x.other).snd = (d₁.peer x.other).snd ∧
        (d₂.peer x.other).call = (d₁.peer x.other).call ∧
        ((d₁.peer x.other).rcv.fin = true ∨ (d₁.peer x).snd.fin = false →
          (d₂.peer x.other).rcv.fin = true)) := by
    rcases h₁.sent with ⟨hflow, hroom⟩ | ⟨hfin, hack⟩
    · obtain ⟨d₂, hleads₂, hquiet₂, hfin₂, hack₂, hrcv₂, hother₂⟩ := h₁.inv.hangUp hquiet₁
        hflow.unfinished (hflow.idle h₁.inv (hsegs x) (hquiet₁ x.other)) hroom (Or.inr h₁.call)
      exact ⟨d₂, hleads₂, hquiet₂, hfin₂, hack₂, hrcv₂,
        by rw [hother₂]; exact ⟨rfl, rfl, fun _ => rfl⟩⟩
    · refine ⟨d₁, .refl d₁, hquiet₁, hfin, hack.resolve_right ?_, rfl, rfl, rfl, ?_⟩
      · rintro (⟨a, ha⟩ | ⟨-, ⟨m, hm, -⟩, -⟩)
        · simp [hquiet₁ x.other] at ha
        · simp [hquiet₁ x] at hm
      · exact fun hor => hor.resolve_right (by simp [hfin])
  have hinv₂ := h₁.inv.leads hleads₂
  -- then the other side
  rcases h₁.received with hfin | hfin | ⟨hflow, hroom, hcause⟩
  · exact ⟨d₂, hleads₁.trans hleads₂, hfin₂, by rw [hrcv₂]; exact hfin, hack₂⟩
  · obtain ⟨m, hm, -⟩ := hfin
    simp [hquiet₁ x.other] at hm
  · have hidle := hflow.idle h₁.inv (hsegs x.other) (hquiet₁ _)
    have hcause₂ : (d₂.peer x.other).rcv.fin = true ∨ (d₂.peer x.other).call = true := by
      rcases hcause with hcall | hrcv | ⟨m, hm, -⟩ | hopen
      · exact Or.inr (by rw [hother₂.2.1, hcall])
      · exact Or.inl (hother₂.2.2 (Or.inl hrcv))
      · simp [hquiet₁ x] at hm
      · exact Or.inl (hother₂.2.2 (Or.inr hopen))
    obtain ⟨d₃, hleads₃, -, -, -, -, hother₃⟩ := hinv₂.hangUp (x := x.other) hquiet₂
      (by rw [hother₂.1]; exact hflow.unfinished) (by rw [hother₂.1]; exact hidle)
      (by rw [hother₂.1, Side.other_other, hrcv₂]; exact hroom) hcause₂
    rw [Side.other_other] at hother₃
    refine ⟨d₃, hleads₁.trans (hleads₂.trans hleads₃), ?_⟩
    rw [hother₃]
    exact ⟨hfin₂, rfl, hack₂⟩

/-! ### Where no dead end is met -/

/-- The timer of `z` fires, unless there is nothing to be sent again. -/
theorem Inv.wake (h : d.Inv) (z : Side) : ∃ d' t out, d.Leads d' ∧
    d'.peer z = { d.peer z with timer := t } ∧ d'.peer z.other = d.peer z.other ∧
    d'.chan z = d.chan z ++ out ∧ d'.chan z.other = d.chan z.other ∧ (d.peer z).Resends out := by
  have hlate := Nat.lt_succ_self (d.peer z).timer
  by_cases hdata : (d.peer z).snd.fin = false ∧ (d.peer z).snd.sent ≠ (d.peer z).snd.acked
  · obtain ⟨d₁, h₁⟩ : ∃ d₁, Duo.step (.tick z ((d.peer z).timer + 1)) d = some d₁ := ⟨_, rfl⟩
    obtain ⟨hpeer, hsame, hchan, hother⟩ := tick_cases h₁
    rw [Peer.tick_resend (h.open_of_fin hdata.1).1 hdata.2 hlate] at hpeer hchan
    refine ⟨d₁, _, _, .single (i := .tick ..) trivial h₁, hpeer, hsame, hchan, hother, ?_, ?_⟩
    · exact fun _ _ => List.mem_singleton.mpr rfl
    · exact fun hfin => by simp [hdata.1] at hfin
  by_cases hfin : (d.peer z).snd.fin = true ∧ (d.peer z).ackRecv = false
  · obtain ⟨hsent, hidle, -, -⟩ := (h.dir z).complete hfin.1
    have hopen : (d.peer z).closed = false := by
      by_contra hc
      have := ((h.flags z).closed_fin (by simpa using hc)).2.2
      simp [hfin.2] at this
    obtain ⟨d₁, h₁⟩ : ∃ d₁, Duo.step (.tick z ((d.peer z).timer + 1)) d = some d₁ := ⟨_, rfl⟩
    obtain ⟨hpeer, hsame, hchan, hother⟩ := tick_cases h₁
    rw [Peer.tick_again hopen hfin.1 hidle hsent ((h.flags z).fin_cause hfin.1).symm hfin.2 hlate]
      at hpeer hchan
    split_ifs at hpeer hchan with hwindow
    · refine ⟨d₁, _, _, .single (i := .tick ..) trivial h₁, hpeer, hsame, hchan, hother, ?_, ?_⟩
      · exact fun hno => by simp [hfin.1] at hno
      · exact fun _ _ => ⟨_, rfl, Or.inr rfl, fun hne => absurd hwindow hne⟩
    · refine ⟨d₁, _, _, .single (i := .tick ..) trivial h₁, hpeer, hsame, hchan, hother, ?_, ?_⟩
      · exact fun hno => by simp [hfin.1] at hno
      · exact fun _ _ => ⟨_, rfl, Or.inl rfl, fun _ => rfl⟩
  · refine ⟨d, _, [], .refl d, rfl, rfl, (List.append_nil _).symm, rfl, ?_, ?_⟩
    · exact fun hf hout => absurd ⟨hf, hout⟩ hdata
    · exact fun hf hack => absurd ⟨hf, hack⟩ hfin

theorem not_blocked (h : ¬ d.Blocked x) (hfin : (d.peer x).snd.fin = false) :
    ¬ d.Wedged x ∧ (d.peer x).snd.written.length ≤ (d.peer x.other).rcv.taken + cap := by
  rw [Blocked, not_and_or, not_or, not_lt] at h
  exact h.resolve_left (not_not_intro hfin)

/-- With the outstanding segment sent again, a sender that is not wedged has lost nothing. -/
theorem flowing_of_resends {out : List Msg} (hfin : (d.peer x).snd.fin = false)
    (hwedged : ¬ d.Wedged x) (hout : (d.peer x).Resends out)
    (hsnd : (d'.peer x).snd = (d.peer x).snd) (hrcv : (d'.peer x.other).rcv = (d.peer x.other).rcv)
    (hchan : d'.chan x = d.chan x ++ out)
    (hacks : ∀ a ∈ Msg.acks (d.chan x.other), a ∈ Msg.acks (d'.chan x.other)) : d'.Flowing x := by
  refine ⟨by rw [hsnd, hfin], ?_⟩
  rw [hsnd, hrcv, hchan]
  refine ⟨fun hne _ => ?_, fun hne hacc => ?_⟩
  · exact Msg.mem_segs.mpr (List.mem_append_right _ (hout.data hfin hne))
  · by_contra hnone
    exact hwedged ⟨hne, hacc, fun a ha hval => hnone ⟨a, hacks a ha, hval⟩⟩

/-- A `FIN` that is not lost is in flight once the timer has fired. -/
theorem fin_of_resends {out : List Msg} (hnot : ¬ d.FinLost x) (hfin : (d.peer x).snd.fin = true)
    (hrcv : (d.peer x.other).rcv.fin = false) (hout : (d.peer x).Resends out) :
    ∃ m : Segment Byte, Msg.seg m ∈ d.chan x ++ out ∧ m.fin = true := by
  by_cases hmem : ∀ m ∈ Msg.segs (d.chan x), m.fin = false
  · have hquiet : ¬ ((d.peer x).ackRecv = true ∨ (d.peer x).snd.window = 0) :=
      fun hquiet => hnot ⟨hfin, hquiet, hmem, hrcv⟩
    rw [not_or, Bool.not_eq_true] at hquiet
    obtain ⟨m, rfl, -, hm⟩ := hout.fin hfin hquiet.1
    exact ⟨m, List.mem_append_right _ (List.mem_singleton.mpr rfl), hm hquiet.2⟩
  · obtain ⟨m, hm, hmfin⟩ := not_forall₂.mp hmem
    exact ⟨m, List.mem_append_left _ (Msg.mem_segs.mp hm), by simpa using hmfin⟩

/-- **Outside the dead ends** everything is promising once both timers have fired. -/
theorem Inv.promising (h : d.Inv) (hcall : (d.peer x).call = true) (hnot : ¬ d.Stuck x) :
    ∃ d', d.Leads d' ∧ d'.Promising x := by
  simp only [Stuck, not_or] at hnot
  obtain ⟨hblocked, hblocked', hlost, hunprompted, hunanswered⟩ := hnot
  obtain ⟨d₁, t₁, out₁, hleads₁, hpeer₁, hsame₁, hchan₁, hother₁, hout₁⟩ := h.wake x.other
  obtain ⟨d₂, t₂, out₂, hleads₂, hpeer₂, hsame₂, hchan₂, hother₂, hout₂⟩ := (h.leads hleads₁).wake x
  rw [Side.other_other] at hsame₁ hother₁
  rw [hsame₁] at hpeer₂ hout₂
  rw [hpeer₁] at hsame₂
  rw [hother₁] at hchan₂
  rw [hchan₁] at hother₂
  have hleads := hleads₁.trans hleads₂
  refine ⟨d₂, hleads, h.leads hleads, by rw [hpeer₂]; exact hcall, ?_, ?_⟩
  · cases hfin : (d.peer x).snd.fin with
    | false =>
      obtain ⟨hwedged, hroom⟩ := not_blocked hblocked hfin
      refine Or.inl ⟨flowing_of_resends hfin hwedged hout₂ (by rw [hpeer₂]) (by rw [hsame₂]) hchan₂
        ?_, ?_⟩
      · intro a ha
        rw [hother₂, Msg.acks_append]
        exact List.mem_append_left _ ha
      · rw [hpeer₂, hsame₂]
        exact hroom
    | true =>
      refine Or.inr ⟨by rw [hpeer₂]; exact hfin, ?_⟩
      cases hack : (d.peer x).ackRecv with
      | true => exact Or.inl (by rw [hpeer₂]; exact hack)
      | false =>
        refine Or.inr ?_
        obtain ⟨m, rfl, hm, -⟩ := hout₂.fin hfin hack
        by_cases hnone : Msg.acks (d.chan x.other) = []
        · have hsilent : ¬ ((d.peer x.other).closed = true ∨ ((d.peer x.other).snd.fin = true ∧
              (d.peer x.other).rcv.fin = true ∧
              AckFirst (d.peer x.other).rcv.accepted.length (d.chan x))) :=
            fun hwhy => hunanswered ⟨hfin, hack, hnone, hwhy⟩
          rw [not_or, Bool.not_eq_true] at hsilent
          obtain ⟨hsent, hidle, hacc, -⟩ := (h.dir x).complete hfin
          have hasks : m.fin = true ∨ m.seq = (d.peer x.other).rcv.accepted.length :=
            hm.imp_right fun hseq => by omega
          rw [Answerable, hsame₂, hchan₂]
          refine Or.inr ⟨hsilent.1, ⟨m, List.mem_append_right _ (List.mem_singleton.mpr rfl),
            hasks⟩, ?_⟩
          exact fun hf hr hfirst => hsilent.2 ⟨hf, hr, hfirst.before hasks⟩
        · obtain ⟨a, ha⟩ := List.exists_mem_of_ne_nil _ hnone
          exact Or.inl ⟨a, by rw [hother₂]; exact List.mem_append_left _ (Msg.mem_acks.mp ha)⟩
  · cases hrcv : (d.peer x).rcv.fin with
    | true => exact Or.inl (by rw [hpeer₂]; exact hrcv)
    | false =>
      refine Or.inr ?_
      cases hfin' : (d.peer x.other).snd.fin with
      | true =>
        refine Or.inl ?_
        rw [hother₂]
        exact fin_of_resends hlost hfin' (by rw [Side.other_other]; exact hrcv) hout₁
      | false =>
        obtain ⟨hwedged, hroom⟩ := not_blocked hblocked' hfin'
        rw [Side.other_other] at hroom
        refine Or.inr ⟨flowing_of_resends hfin' hwedged hout₁ (by rw [hsame₂])
          (by rw [Side.other_other, hpeer₂]) hother₂ ?_, ?_, ?_⟩
        · intro a ha
          rw [Side.other_other] at *
          rw [hchan₂, Msg.acks_append]
          exact List.mem_append_left _ ha
        · rw [hsame₂, hpeer₂]
          exact hroom
        · rw [hsame₂, hpeer₂, hchan₂]
          by_cases hcall' : (d.peer x.other).call = true
          · exact Or.inl hcall'
          by_cases hrcv' : (d.peer x.other).rcv.fin = true
          · exact Or.inr (Or.inl hrcv')
          by_cases hfin : (d.peer x).snd.fin = true
          · refine Or.inr (Or.inr (Or.inl (fin_of_resends ?_ hfin (by simpa using hrcv') hout₂)))
            exact fun hlost' => hunprompted ⟨hfin', by simpa using hcall', hlost'⟩
          · exact Or.inr (Or.inr (Or.inr (by simpa using hfin)))

/-- **Who can finish.** With the application's close, the timers and the loss-free channels lead an
end to the last of its close flags exactly when it is not in a dead end. -/
theorem Inv.finishes_iff (h : d.Inv) (hcall : (d.peer x).call = true) :
    (∃ d', d.Leads d' ∧ (d'.peer x).Finished) ↔ ¬ d.Stuck x := by
  constructor
  · rintro ⟨d', hleads, hfinished⟩ hstuck
    exact (hstuck.leads h hleads).not_finished (h.leads hleads) hfinished
  · intro hnot
    obtain ⟨d₁, hleads₁, h₁⟩ := h.promising hcall hnot
    obtain ⟨d₂, hleads₂, h₂⟩ := h₁.finishes
    exact ⟨d₂, hleads₁.trans hleads₂, h₂⟩

end Duo

end LabNetstack
