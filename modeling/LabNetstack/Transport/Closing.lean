import LabNetstack.Transport.Round
import LabNetstack.Transport.SystemRefinement

/-!
# Dead ends of the closing handshake

`closeLab` waits until its end has sent its `FIN`, has received one and has seen an acknowledgement
after its own. None of the three is ever taken back, so what can go wrong is that one of them never
comes. Five things stand in the way, and each of them lasts: neither the timers nor the deliveries
that are still to come change it.

## Main results

* `Duo.Stuck.step` — no tick and no delivery leads out of a dead end
* `Duo.Stuck.not_finished` — and a dead end is not the end
-/

namespace LabNetstack

open StopAndWait

/-- The close flags are complete, but for the application's own. -/
def Peer.Finished (p : Peer) : Prop := p.snd.fin = true ∧ p.rcv.fin = true ∧ p.ackRecv = true

namespace Peer

variable {p : Peer} {now : ℕ}

/-- What a tick does to the sender's `FIN`, when nothing entitles it to one. -/
theorem tick_unfinished (hfin : p.snd.fin = false)
    (hno : p.snd.acked ≠ p.snd.written.length ∨ (p.rcv.fin = false ∧ p.call = false)) :
    (p.tick now).1.snd.fin = false := by
  rcases h : p.tick now with ⟨q, out⟩
  rcases tick_cases h with ⟨-, rfl, -⟩ | ⟨-, p', out₁, out₂, h₁, h₂, -⟩
  · exact hfin
  · have hseg : p'.snd.fin = p.snd.fin ∧ p'.snd.acked = p.snd.acked ∧
        p'.snd.written = p.snd.written ∧ p'.rcv = p.rcv ∧ p'.call = p.call := by
      rcases sendSegment_cases h₁ with ⟨rfl, -⟩ | ⟨-, -, rfl, -⟩ | ⟨n, -, -, -, -, -, rfl, -⟩
      all_goals exact ⟨rfl, rfl, rfl, rfl, rfl⟩
    obtain ⟨hfin', hacked, hwritten, hrcv, hcall⟩ := hseg
    rcases sendFin_cases h₂ with ⟨rfl, -⟩ | ⟨hdrained, hcause, -, rfl, -⟩
    · exact hfin'.trans hfin
    · rw [hacked, hwritten] at hdrained
      rw [hrcv, hcall] at hcause
      rcases hno with hno | ⟨hrcvFin, hnocall⟩
      · exact absurd hdrained hno
      · simp [hrcvFin, hnocall] at hcause

/-- Once the `FIN` is out, a tick leaves the sender alone; and it does not send the `FIN` again
after an acknowledgement, nor with a zero window, whose probe takes the timer for itself. -/
theorem tick_finished (hfin : p.snd.fin = true) (hdrained : p.snd.sent = p.snd.written.length)
    (hidle : p.snd.acked = p.snd.sent) :
    (p.tick now).1.snd = p.snd ∧
      (p.ackRecv = true ∨ p.snd.window = 0 → ∀ m ∈ Msg.segs (p.tick now).2, m.fin = false) := by
  rcases h : p.tick now with ⟨q, out⟩
  rcases tick_cases h with ⟨-, rfl, rfl⟩ | ⟨-, p', out₁, out₂, h₁, h₂, rfl⟩
  · exact ⟨rfl, by simp⟩
  · have hseg : p'.snd = p.snd ∧ p'.ackRecv = p.ackRecv ∧ (∀ m ∈ Msg.segs out₁, m.fin = false) ∧
        (p.snd.window = 0 → now ≤ p'.timer) := by
      rcases sendSegment_cases h₁ with ⟨rfl, rfl⟩ | ⟨-, -, rfl, rfl⟩ |
        ⟨n, -, hpos, -, -, hroom, -, -⟩
      · refine ⟨rfl, rfl, by simp, fun hwindow => ?_⟩
        by_contra htimer
        rw [sendSegment, if_pos (Or.inr hwindow), if_pos (Nat.lt_of_not_le htimer)] at h₁
        simp at h₁
      · exact ⟨rfl, rfl, by simp, fun _ => Nat.le_add_right ..⟩
      · omega
    obtain ⟨hsnd, hack, hout₁, htimer⟩ := hseg
    rcases sendFin_cases h₂ with ⟨rfl, rfl⟩ | ⟨-, -, hagain, rfl, rfl⟩
    · exact ⟨hsnd, fun _ => by simpa using hout₁⟩
    · have hkeep : p'.snd.finish = p.snd := by
        rw [hsnd, Sender.finish, ← hfin]
      refine ⟨hkeep, fun hquiet => ?_⟩
      obtain ⟨hnoack, hlate⟩ := hagain (by rw [hsnd, hfin])
      rcases hquiet with hquiet | hquiet
      · rw [hack, hquiet] at hnoack
        cases hnoack
      · have := htimer hquiet
        omega

/-- A delivery writes nothing, reads nothing and closes nothing. -/
theorem handle_keeps (m : Msg) : (p.handle m).1.snd.written = p.snd.written ∧
    (p.handle m).1.rcv.taken = p.rcv.taken ∧ (p.handle m).1.call = p.call := by
  cases m with
  | seg m =>
    obtain ⟨hsnd, hcall, -⟩ := handle_seg_frame p m
    refine ⟨by rw [hsnd], ?_, hcall⟩
    simp only [handle, Receiver.onSegment]
    split_ifs <;> rfl
  | ack a =>
    obtain ⟨hrcv, hcall, -⟩ := handle_ack_frame p a
    refine ⟨?_, by rw [hrcv], hcall⟩
    simp only [handle, Sender.onAck]
    split_ifs <;> rfl

/-- With both `FIN`s over, any acknowledgement closes. -/
theorem closed_handle_ack (a : Ack) (hsnd : p.snd.fin = true) (hrcv : p.rcv.fin = true) :
    (p.handle (.ack a)).1.closed = true := by
  rw [handle]
  split_ifs with hclosed
  · exact hclosed
  · simp only [hsnd, hrcv, Bool.and_self]

/-- Only a `FIN` makes a `FIN` received. -/
theorem handle_rcv_fin_of_not {m : Segment Byte} (hm : m.fin = false) :
    (p.handle (.seg m)).1.rcv.fin = p.rcv.fin := by
  simp only [handle, Receiver.onSegment, hm, Bool.false_eq_true, if_false]
  split_ifs <;> rfl

/-- An acknowledgement that opens the window again also stops the `FIN`. -/
theorem handle_quiet (m : Msg) (hfin : p.snd.fin = true)
    (h : p.ackRecv = true ∨ p.snd.window = 0) :
    (p.handle m).1.ackRecv = true ∨ (p.handle m).1.snd.window = 0 := by
  cases m with
  | seg m =>
    obtain ⟨hsnd, -, hack, -⟩ := handle_seg_frame p m
    rwa [hsnd, hack]
  | ack a =>
    simp only [handle]
    split_ifs
    · exact h
    · exact Or.inl (by simp [hfin])

end Peer

namespace Duo

variable {d d' : Duo} {x z : Side} {act : Action}

/-! ### The five dead ends -/

/-- `x` cannot get everything acknowledged, and so never sends its `FIN`: an acknowledgement is
lost, or the application on the other side leaves too little room. -/
def Blocked (d : Duo) (x : Side) : Prop :=
  (d.peer x).snd.fin = false ∧
    (d.Wedged x ∨ (d.peer x.other).rcv.taken + cap < (d.peer x).snd.written.length)

/-- The `FIN` of `x` is lost for good: it is not sent again after any acknowledgement, nor with a
zero window. -/
def FinLost (d : Duo) (x : Side) : Prop :=
  (d.peer x).snd.fin = true ∧ ((d.peer x).ackRecv = true ∨ (d.peer x).snd.window = 0) ∧
    (∀ m ∈ Msg.segs (d.chan x), m.fin = false) ∧ (d.peer x.other).rcv.fin = false

/-- The other side has no reason to close, and will not get one from `x`. -/
def Unprompted (d : Duo) (x : Side) : Prop :=
  (d.peer x.other).snd.fin = false ∧ (d.peer x.other).call = false ∧ d.FinLost x

/-- An end that has accepted `n` bytes is delivered an acknowledgement before anything it would
answer. -/
def AckFirst (n : ℕ) : List Msg → Prop
  | [] => False
  | .ack _ :: _ => True
  | .seg m :: l => m.fin = false ∧ m.seq ≠ n ∧ AckFirst n l

/-- No acknowledgement will come after the `FIN` of `x`: none is on its way, and the other side is
closed, or closes before it answers anything. -/
def Unanswered (d : Duo) (x : Side) : Prop :=
  (d.peer x).snd.fin = true ∧ (d.peer x).ackRecv = false ∧ Msg.acks (d.chan x.other) = [] ∧
    ((d.peer x.other).closed = true ∨
      ((d.peer x.other).snd.fin = true ∧ (d.peer x.other).rcv.fin = true ∧
        AckFirst (d.peer x.other).rcv.accepted.length (d.chan x)))

/-- `x` will never be finished. -/
def Stuck (d : Duo) (x : Side) : Prop :=
  d.Blocked x ∨ d.Blocked x.other ∨ d.FinLost x.other ∨ d.Unprompted x ∨ d.Unanswered x

/-! ### Each of them lasts -/

/-- The timers and the channels write nothing, read nothing and close nothing. -/
theorem step_history (hact : act.Automatic) (hd : step act d = some d') (x : Side) :
    (d'.peer x).snd.written = (d.peer x).snd.written ∧
      (d'.peer x).rcv.taken = (d.peer x).rcv.taken ∧ (d'.peer x).call = (d.peer x).call := by
  cases act with
  | tick z now =>
    obtain ⟨hpeer, hsame, -, -⟩ := tick_cases hd
    obtain ⟨hrcv, hcall, -⟩ := Peer.tick_frame (d.peer z) now
    refine Side.forall_of_other (p := fun x => (d'.peer x).snd.written = (d.peer x).snd.written ∧
      (d'.peer x).rcv.taken = (d.peer x).rcv.taken ∧ (d'.peer x).call = (d.peer x).call) z ?_ ?_ x
    · rw [hpeer, hrcv, hcall]
      exact ⟨Peer.tick_written (d.peer z) now, rfl, rfl⟩
    · rw [hsame]
      exact ⟨rfl, rfl, rfl⟩
  | deliver z =>
    obtain ⟨m, rest, -, -, hsame, hpeer, -⟩ := deliver_cases hd
    refine Side.forall_of_other (p := fun x => (d'.peer x).snd.written = (d.peer x).snd.written ∧
      (d'.peer x).rcv.taken = (d.peer x).rcv.taken ∧ (d'.peer x).call = (d.peer x).call) z ?_ ?_ x
    · rw [hsame]
      exact ⟨rfl, rfl, rfl⟩
    · rw [hpeer]
      exact Peer.handle_keeps m
  | write | read | close | lose | repeatAt => exact hact.elim

theorem deliver_history (hd : d.deliver z = some d') (x : Side) :
    (d'.peer x).snd.written = (d.peer x).snd.written ∧
      (d'.peer x).rcv.taken = (d.peer x).rcv.taken ∧ (d'.peer x).call = (d.peer x).call :=
  @step_history d d' (.deliver z) trivial hd x

theorem Leads.history (h : d.Leads d') (x : Side) :
    (d'.peer x).snd.written = (d.peer x).snd.written ∧
      (d'.peer x).rcv.taken = (d.peer x).rcv.taken ∧ (d'.peer x).call = (d.peer x).call := by
  refine Run.Leads.invariant (q := fun e => (e.peer x).snd.written = (d.peer x).snd.written ∧
    (e.peer x).rcv.taken = (d.peer x).rcv.taken ∧ (e.peer x).call = (d.peer x).call) ?_ h
    ⟨rfl, rfl, rfl⟩
  intro act e e' hact hsame hstep
  obtain ⟨hwritten, htaken, hcall⟩ := step_history hact hstep x
  exact ⟨hwritten.trans hsame.1, htaken.trans hsame.2.1, hcall.trans hsame.2.2⟩

/-- Deliveries to an end do not touch the `FIN` it has sent. -/
theorem deliver_snd_fin (hd : d.deliver z = some d') (x : Side) :
    (d'.peer x).snd.fin = (d.peer x).snd.fin := by
  obtain ⟨m, rest, -, -, hsame, hpeer, -⟩ := deliver_cases hd
  refine Side.forall_of_other (p := fun x => (d'.peer x).snd.fin = (d.peer x).snd.fin) z ?_ ?_ x
  · rw [hsame]
  · rw [hpeer]
    cases m with
    | seg m => rw [(Peer.handle_seg_frame (d.peer z.other) m).1]
    | ack a => exact (Peer.handle_ack_frame (d.peer z.other) a).2.2.1

theorem Blocked.step (h : d.Blocked x) (hinv : d.Inv) (hact : act.Automatic)
    (hd : Duo.step act d = some d') : d'.Blocked x := by
  have hdir := hinv.dir x
  rw [Dir] at hdir
  obtain ⟨hfin, hwhy⟩ := h
  have hundrained : (d.peer x).snd.acked ≠ (d.peer x).snd.written.length := by
    have := hdir.acked_le
    have := hdir.acked_le_sent
    have := hdir.sent_le
    have := hdir.unread_le
    rcases hwhy with hw | hroom
    · have := hw.outstanding
      omega
    · omega
  refine ⟨?_, ?_⟩
  · cases act with
    | tick z now =>
      obtain ⟨hpeer, hsame, -, -⟩ := tick_cases hd
      rcases Side.eq_or_eq_other z x with rfl | rfl
      · rw [hpeer]
        exact Peer.tick_unfinished hfin (Or.inl hundrained)
      · rw [hsame]
        exact hfin
    | deliver z => rw [deliver_snd_fin hd, hfin]
    | write | read | close | lose | repeatAt => exact hact.elim
  · rcases hwhy with hw | hroom
    · refine Or.inl ?_
      cases act with
      | tick z now => exact hw.tick hd
      | deliver z => exact hw.deliver hinv hd
      | write | read | close | lose | repeatAt => exact hact.elim
    · refine Or.inr ?_
      rw [(step_history hact hd x).1, (step_history hact hd x.other).2.1]
      exact hroom

theorem FinLost.step (h : d.FinLost x) (hinv : d.Inv) (hact : act.Automatic)
    (hd : Duo.step act d = some d') : d'.FinLost x := by
  obtain ⟨hfin, hquiet, hnone, hrcv⟩ := h
  obtain ⟨hsent, hidle, -, -⟩ := (hinv.dir x).complete hfin
  cases act with
  | tick z now =>
    obtain ⟨hpeer, hsame, hchan, hother⟩ := tick_cases hd
    obtain ⟨hrcv', -, hack, -, -⟩ := Peer.tick_frame (d.peer z) now
    rcases Side.eq_or_eq_other z x with rfl | rfl
    · obtain ⟨hsnd, hsegs⟩ := @Peer.tick_finished _ now hfin hsent hidle
      refine ⟨by rw [hpeer, hsnd]; exact hfin, by rw [hpeer, hsnd, hack]; exact hquiet, ?_,
        by rw [hsame]; exact hrcv⟩
      intro m hm
      rw [hchan, Msg.segs_append] at hm
      exact (List.mem_append.mp hm).elim (hnone m) (hsegs hquiet m)
    · rw [Side.other_other] at hrcv
      exact ⟨by rw [hsame]; exact hfin, by rw [hsame]; exact hquiet, by rw [hother]; exact hnone,
        by rw [Side.other_other, hpeer, hrcv']; exact hrcv⟩
  | deliver z =>
    obtain ⟨m, rest, hchan, hrest, hsame, hpeer, hout⟩ := deliver_cases hd
    rcases Side.eq_or_eq_other z x with rfl | rfl
    · -- towards the receiver: no `FIN` arrives
      refine ⟨by rw [hsame]; exact hfin, by rw [hsame]; exact hquiet, ?_, ?_⟩
      · intro m' hm'
        refine hnone m' ?_
        rw [hchan, Msg.mem_segs] at *
        rw [hrest] at hm'
        exact List.mem_cons_of_mem _ hm'
      · rw [hpeer]
        cases m with
        | seg m =>
          rw [Peer.handle_rcv_fin_of_not (hnone m (by simp [hchan])), hrcv]
        | ack a => rw [(Peer.handle_ack_frame _ a).1, hrcv]
    · -- towards the sender: an acknowledgement only makes it worse
      rw [Side.other_other] at hrcv
      refine ⟨by rw [deliver_snd_fin hd, hfin], ?_, ?_, by rw [Side.other_other, hsame, hrcv]⟩
      · rw [hpeer]
        exact Peer.handle_quiet m hfin hquiet
      · rw [hout, Msg.segs_append, Peer.segs_handle, List.append_nil]
        exact hnone
  | write | read | close | lose | repeatAt => exact hact.elim

theorem Unprompted.step (h : d.Unprompted x) (hinv : d.Inv) (hact : act.Automatic)
    (hd : Duo.step act d = some d') : d'.Unprompted x := by
  obtain ⟨hfin, hcall, hlost⟩ := h
  refine ⟨?_, by rw [(step_history hact hd x.other).2.2, hcall], hlost.step hinv hact hd⟩
  cases act with
  | tick z now =>
    obtain ⟨hpeer, hsame, -, -⟩ := tick_cases hd
    rcases Side.eq_or_eq_other z x with rfl | rfl
    · rw [hsame, hfin]
    · have hrcv := hlost.2.2.2
      rw [Side.other_other] at *
      rw [hpeer]
      exact Peer.tick_unfinished hfin (Or.inr ⟨hrcv, hcall⟩)
  | deliver z => rw [deliver_snd_fin hd, hfin]
  | write | read | close | lose | repeatAt => exact hact.elim

theorem AckFirst.append {n : ℕ} {l : List Msg} (h : AckFirst n l) (l' : List Msg) :
    AckFirst n (l ++ l') := by
  induction l with
  | nil => exact h.elim
  | cons m l ih =>
    cases m with
    | ack a => trivial
    | seg m => exact ⟨h.1, h.2.1, ih h.2.2⟩

theorem Unanswered.step (h : d.Unanswered x) (hinv : d.Inv) (hact : act.Automatic)
    (hd : Duo.step act d = some d') : d'.Unanswered x := by
  obtain ⟨hfin, hack, hnone, hwhy⟩ := h
  cases act with
  | tick z now =>
    obtain ⟨hpeer, hsame, hchan, hother⟩ := tick_cases hd
    obtain ⟨hrcv, -, hackRecv, hclosed, hacks⟩ := Peer.tick_frame (d.peer z) now
    -- an end that has sent its `FIN` keeps its sender as it is
    have hsnd : (d.peer z).snd.fin = true → (d'.peer z).snd = (d.peer z).snd := fun hf => by
      obtain ⟨hsent, hidle, -, -⟩ := (hinv.dir z).complete hf
      rw [hpeer, (Peer.tick_finished hf hsent hidle).1]
    rcases Side.eq_or_eq_other z x with rfl | rfl
    · refine ⟨by rw [hsnd hfin, hfin], by rw [hpeer, hackRecv, hack], by rw [hother, hnone], ?_⟩
      rw [hsame, hchan]
      exact hwhy.imp_right fun hw => ⟨hw.1, hw.2.1, hw.2.2.append _⟩
    · rw [Side.other_other] at *
      refine ⟨by rw [hsame, hfin], by rw [hsame, hack], ?_, ?_⟩
      · rw [Side.other_other, hchan, Msg.acks_append, hnone, hacks, List.append_nil]
      · rw [Side.other_other, hother]
        refine hwhy.imp (fun hc => by rw [hpeer, hclosed, hc]) fun hw => ?_
        rw [hsnd hw.1]
        rw [hpeer, hrcv]
        exact hw
  | deliver z =>
    obtain ⟨m, rest, hchan, hrest, hsame, hpeer, hout⟩ := deliver_cases hd
    rcases Side.eq_or_eq_other z x with rfl | rfl
    · -- towards the other side: it closes, or is closed, or does not answer
      have hsilent : ((d.peer x.other).handle m).2 = none ∧
          ((d'.peer x.other).closed = true ∨ ((d'.peer x.other).snd.fin = true ∧
            (d'.peer x.other).rcv.fin = true ∧
            AckFirst (d'.peer x.other).rcv.accepted.length rest)) := by
        rw [hpeer]
        rcases hwhy with hclosed | ⟨hsndFin, hrcvFin, hfirst⟩
        · rw [Peer.handle_closed m hclosed]
          exact ⟨rfl, Or.inl hclosed⟩
        · rw [hchan] at hfirst
          cases m with
          | ack a => exact ⟨(Peer.handle_ack_frame _ a).2.2.2,
              Or.inl (Peer.closed_handle_ack a hsndFin hrcvFin)⟩
          | seg m =>
            rw [Peer.handle_stale hfirst.1 hfirst.2.1]
            exact ⟨rfl, Or.inr ⟨hsndFin, hrcvFin, hfirst.2.2⟩⟩
      refine ⟨by rw [hsame, hfin], by rw [hsame, hack], ?_, by rw [hrest]; exact hsilent.2⟩
      rw [hout, hsilent.1, Option.toList_none, List.append_nil, hnone]
    · -- towards `x`: there is no acknowledgement to deliver
      rw [Side.other_other] at *
      cases m with
      | ack a => simp [hchan] at hnone
      | seg m =>
        obtain ⟨hsnd, -, hackRecv, -, -⟩ := Peer.handle_seg_frame (d.peer z.other) m
        rw [← hpeer] at hsnd hackRecv
        rw [hchan, Msg.acks_cons_seg] at hnone
        refine ⟨by rw [hsnd, hfin], by rw [hackRecv, hack],
          by rw [Side.other_other, hrest, hnone], ?_⟩
        rw [Side.other_other, hsame, hout]
        exact hwhy.imp_right fun hw => ⟨hw.1, hw.2.1, hw.2.2.append _⟩
  | write | read | close | lose | repeatAt => exact hact.elim

/-- **No way out.** -/
theorem Stuck.step (h : d.Stuck x) (hinv : d.Inv) (hact : act.Automatic)
    (hd : Duo.step act d = some d') : d'.Stuck x := by
  rcases h with h | h | h | h | h
  · exact Or.inl (h.step hinv hact hd)
  · exact Or.inr (Or.inl (h.step hinv hact hd))
  · exact Or.inr (Or.inr (Or.inl (h.step hinv hact hd)))
  · exact Or.inr (Or.inr (Or.inr (Or.inl (h.step hinv hact hd))))
  · exact Or.inr (Or.inr (Or.inr (Or.inr (h.step hinv hact hd))))

theorem Stuck.deliver (h : d.Stuck x) (hinv : d.Inv) (hd : d.deliver z = some d') : d'.Stuck x :=
  @Stuck.step d d' x (.deliver z) h hinv trivial hd

/-- And nothing more comes of any number of steps. -/
theorem Stuck.leads (h : d.Stuck x) (hinv : d.Inv) (hleads : d.Leads d') : d'.Stuck x :=
  (Run.Leads.invariant (q := fun d => d.Stuck x ∧ d.Inv)
    (fun _ _ _ hact hq hd => ⟨hq.1.step hq.2 hact hd, hq.2.step hd⟩) hleads ⟨h, hinv⟩).1

theorem Stuck.not_finished (h : d.Stuck x) (hinv : d.Inv) : ¬ (d.peer x).Finished := by
  rintro ⟨hsnd, hrcv, hack⟩
  have hrecv := (hinv.dir x.other).fin_recv
  rw [Side.other_other] at hrecv
  rcases h with h | h | h | h | h
  · simp [h.1] at hsnd
  · have := h.1
    simp [hrecv hrcv] at this
  · have := h.2.2.2
    rw [Side.other_other] at this
    simp [this] at hrcv
  · have := h.1
    simp [hrecv hrcv] at this
  · simp [h.2.1] at hack

end Duo

end LabNetstack
