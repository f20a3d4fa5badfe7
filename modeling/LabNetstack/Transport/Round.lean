import LabNetstack.Transport.Delivery

/-!
# Rounds

A round takes the connection from one quiet state, with nothing in flight, to the next: the timer
of one end fires, the segment it sends is delivered, and so is the answer. Round after round an
open sender gets rid of everything its receiver has room for.

## Main results

* `Duo.exists_quiet` — everything in flight can be delivered
* `Duo.Inv.round` — what a round does
* `Duo.Inv.drain` — a sender whose remaining bytes fit the receiver gets all of them acknowledged
-/

namespace LabNetstack

open StopAndWait

namespace Duo

variable {d d' : Duo} {x : Side}

/-- Nothing is in flight. -/
def Quiet (d : Duo) : Prop := ∀ z, d.chan z = []

/-- The timer and the channels lead from one state to the other. -/
def Leads : Duo → Duo → Prop := Run.Leads step Action.Automatic

theorem Inv.leads (h : d.Inv) (hl : d.Leads d') : d'.Inv :=
  Run.Leads.invariant (fun _ _ _ _ => Inv.step) hl h

theorem leads_flush (h : d.flush x = some d') : d.Leads d' :=
  ⟨_, fun act hact => by rw [List.eq_of_mem_replicate hact]; trivial, h⟩

/-- **Waiting for quiet.** Three flushes deliver everything, since what is sent towards `x` in the
second is never answered; what every delivery preserves holds then. -/
theorem exists_quiet {P : Duo → Prop} (hP : ∀ z d d', P d → d.deliver z = some d' → P d')
    (hd : P d) (x : Side) : ∃ d', d.Leads d' ∧ d'.Quiet ∧ P d' := by
  obtain ⟨d₁, h₁, hempty₁, hd₁⟩ := flush_rule (x := x) (hP x) hd
  obtain ⟨d₂, h₂, hempty₂, hd₂, hsegs₂⟩ := flush_rule (x := x.other)
    (P := fun e => P e ∧ Msg.segs (e.chan x) = [])
    (fun e e' he hstep => ⟨hP _ e e' he.1 hstep, segs_deliver he.2 hstep⟩)
    ⟨hd₁, by rw [hempty₁, Msg.segs_nil]⟩
  obtain ⟨d₃, h₃, hempty₃, hd₃, -, hother₃⟩ := flush_rule (x := x)
    (P := fun e => P e ∧ Msg.segs (e.chan x) = [] ∧ e.chan x.other = [])
    (fun e e' he hstep => ⟨hP _ e e' he.1 hstep, unanswered_deliver he.2.1 he.2.2 hstep⟩)
    ⟨hd₂, hsegs₂, hempty₂⟩
  exact ⟨d₃, (leads_flush h₁).trans ((leads_flush h₂).trans (leads_flush h₃)),
    Side.forall_of_other x hempty₃ hother₃, hd₃⟩

/-- **An exchange.** The segment that a tick sends arrives and is answered, and the answer
arrives. -/
theorem Quiet.exchange (hquiet : d.Quiet) {now : ℕ} {q r : Peer} {m : Segment Byte} {a : Ack}
    (htick : (d.peer x).tick now = (q, [.seg m]))
    (hanswer : (d.peer x.other).handle (.seg m) = (r, some (.ack a))) :
    ∃ d', Run.run Duo.step [.tick x now, .deliver x, .deliver x.other] d = some d' ∧ d'.Quiet ∧
      d'.peer x = (q.handle (.ack a)).1 ∧ d'.peer x.other = r := by
  -- the segment leaves
  obtain ⟨d₁, h₁⟩ : ∃ d₁, Duo.step (.tick x now) d = some d₁ := ⟨_, rfl⟩
  obtain ⟨hpeer₁, hsame₁, hchan₁, hother₁⟩ := tick_cases h₁
  rw [htick] at hpeer₁ hchan₁
  rw [hquiet, List.nil_append] at hchan₁
  rw [hquiet] at hother₁
  -- it arrives and is answered
  obtain ⟨d₂, h₂⟩ := deliver_isSome hchan₁
  obtain ⟨m', rest, hm, hrest₂, hsame₂, hpeer₂, hout₂⟩ := deliver_cases h₂
  obtain ⟨rfl, rfl⟩ := List.cons.inj (hchan₁.symm.trans hm)
  rw [hsame₁, hanswer] at hpeer₂ hout₂
  rw [hother₁, List.nil_append] at hout₂
  -- the answer arrives
  obtain ⟨d₃, h₃⟩ := deliver_isSome hout₂
  obtain ⟨m', rest, hm, hrest₃, hsame₃, hpeer₃, hout₃⟩ := deliver_cases h₃
  obtain ⟨rfl, rfl⟩ := List.cons.inj (hout₂.symm.trans hm)
  rw [Side.other_other, hsame₂, hpeer₁] at hpeer₃ hout₃
  have h₂' : Duo.step (.deliver x) d₁ = some d₂ := h₂
  have h₃' : Duo.step (.deliver x.other) d₂ = some d₃ := h₃
  refine ⟨d₃, ?_, Side.forall_of_other x ?_ hrest₃, hpeer₃, by rw [hsame₃, hpeer₂]⟩
  · rw [Run.run_cons_some h₁, Run.run_cons_some h₂', Run.run_cons_some h₃', Run.run_nil]
  · rw [hout₃, hrest₂, (Peer.handle_ack_frame q _).2.2.2]
    rfl

/-- From `d`, rounds of `x` lead to the quiet state `d'`: they change nothing but the progress of
the sender and what the receiver has accepted. -/
structure Drains (x : Side) (d d' : Duo) : Prop where
  leads : d.Leads d'
  quiet : d'.Quiet
  sender : d'.peer x = { d.peer x with
    snd := { (d.peer x).snd with
      acked := (d'.peer x).snd.acked
      sent := (d'.peer x).snd.sent
      window := (d'.peer x).snd.window }
    timer := (d'.peer x).timer }
  receiver : d'.peer x.other = { d.peer x.other with
    rcv := { (d.peer x.other).rcv with accepted := (d'.peer x.other).rcv.accepted } }

theorem Drains.refl (hquiet : d.Quiet) : Drains x d d := ⟨.refl d, hquiet, rfl, rfl⟩

theorem Drains.trans {d₁ d₂ d₃ : Duo} (h : Drains x d₁ d₂) (h' : Drains x d₂ d₃) :
    Drains x d₁ d₃ where
  leads := h.leads.trans h'.leads
  quiet := h'.quiet
  sender := by rw [h'.sender, h.sender]
  receiver := by rw [h'.receiver, h.receiver]

/-- **A round.** The tick sends what `q` has outstanding; the receiver stands at its start. -/
theorem Inv.round (h : d.Inv) (hquiet : d.Quiet) (hfin : (d.peer x).snd.fin = false)
    (hbehind : (d.peer x.other).rcv.accepted.length = (d.peer x).snd.acked) {now : ℕ} {q : Peer}
    (htick : (d.peer x).tick now = (q, [.seg q.snd.current]))
    (hq : q = { d.peer x with
      snd := { (d.peer x).snd with sent := q.snd.sent }
      timer := q.timer }) :
    ∃ d', Run.run Duo.step [.tick x now, .deliver x, .deliver x.other] d = some d' ∧
      Drains x d d' ∧
      (d'.peer x).snd = { q.snd with
        acked := q.snd.sent
        window := ((d.peer x.other).rcv.accept q.snd.pending).free cap } := by
  have hacked : q.snd.acked = (d.peer x).snd.acked := by rw [hq]
  have hqfin : q.snd.fin = false := by rw [hq]; exact hfin
  -- the invariant when the segment has left
  obtain ⟨d₁, h₁⟩ : ∃ d₁, Duo.step (.tick x now) d = some d₁ := ⟨_, rfl⟩
  obtain ⟨hpeer₁, hsame₁, -, -⟩ := tick_cases h₁
  rw [htick] at hpeer₁
  simp only at hpeer₁
  have hinv₁ := h.step h₁
  have hdir₁ := hinv₁.dir x
  rw [Dir, hpeer₁, hsame₁] at hdir₁
  obtain ⟨hopen, hopen'⟩ := hinv₁.open_of_fin (x := x) (by rw [hpeer₁]; exact hqfin)
  rw [hpeer₁] at hopen
  rw [hsame₁] at hopen'
  have hlength := hdir₁.length_pending
  have hle := hdir₁.acked_le_sent
  -- it is what the receiver waits for
  have hanswer := Peer.handle_next hopen' (m := q.snd.current) rfl (by rw [hbehind, ← hacked]; rfl)
  simp only [Sender.bytes_current] at hanswer
  obtain ⟨d₃, hrun, hquiet₃, hpeer₃, hother₃⟩ := hquiet.exchange htick hanswer
  have hval : (((d.peer x.other).rcv.accept q.snd.pending).ack cap false).value = q.snd.sent := by
    simp only [Ack.value, Receiver.ack, Receiver.accept, List.length_append, Bool.toNat_false]
    omega
  have hend : d₃.peer x = { q with snd := { q.snd with
      acked := q.snd.sent
      window := ((d.peer x.other).rcv.accept q.snd.pending).free cap } } := by
    rw [hpeer₃, Peer.handle, if_neg (by simp [hopen])]
    simp only [Sender.onAck, hval, if_true, hqfin, Bool.or_false, Bool.false_and]
    rw [← hopen]
    rfl
  refine ⟨d₃, hrun, ⟨⟨_, ?_, hrun⟩, hquiet₃, ?_, ?_⟩, by rw [hend]⟩
  · simp [Action.Automatic]
  · rw [hend]
    simp only
    rw [hq]
  · rw [hother₃]
    rfl

/-! ### Draining -/

/-- The bytes still to be acknowledged, and whether the window has to be reopened first. -/
def backlog (d : Duo) (x : Side) : ℕ :=
  2 * ((d.peer x).snd.written.length - (d.peer x).snd.acked)
    + if (d.peer x).snd.window = 0 then 1 else 0

/-- A round of an open sender that has something left. -/
theorem Inv.progress (h : d.Inv) (hquiet : d.Quiet) (hfin : (d.peer x).snd.fin = false)
    (hroom : (d.peer x).snd.written.length ≤ (d.peer x.other).rcv.taken + cap)
    (hbehind : (d.peer x.other).rcv.accepted.length = (d.peer x).snd.acked)
    (hmore : (d.peer x).snd.acked < (d.peer x).snd.written.length) :
    ∃ d', Drains x d d' ∧ (d'.peer x).snd.sent = (d'.peer x).snd.acked ∧
      d'.backlog x < d.backlog x := by
  have hopen := (h.open_of_fin hfin).1
  have hle := (h.dir x).acked_le_sent
  have hlate := Nat.lt_succ_self (d.peer x).timer
  by_cases hout : (d.peer x).snd.sent = (d.peer x).snd.acked
  · by_cases hwindow : (d.peer x).snd.window = 0
    · -- a probe
      obtain ⟨d', -, hdrains, hx⟩ := h.round hquiet hfin hbehind
        (Peer.tick_probe hopen hwindow (by omega) hlate) rfl
      refine ⟨d', hdrains, by rw [hx], ?_⟩
      have hnil : (d.peer x).snd.pending = [] := by simp [Sender.pending, hout]
      have hfree : (d.peer x.other).rcv.free cap ≠ 0 := by
        rw [Receiver.free]
        omega
      have hsame : (d.peer x.other).rcv.accept [] = (d.peer x.other).rcv := by
        simp [Receiver.accept]
      simp only [backlog, hx, hnil, hsame, hwindow, if_neg hfree, hout, if_true]
      omega
    · -- the next bytes
      obtain ⟨n, hn⟩ : ∃ n, n = min (min ((d.peer x).snd.written.length - (d.peer x).snd.sent)
        (d.peer x).snd.window) mss := ⟨_, rfl⟩
      have hmss : 0 < mss := by decide
      have hpos : 0 < n := by omega
      obtain ⟨d', -, hdrains, hx⟩ := h.round hquiet hfin hbehind
        (Peer.tick_next (d.peer x).timer hopen hout hwindow hpos hn) rfl
      refine ⟨d', hdrains, by rw [hx], ?_⟩
      simp only [backlog, hx, Sender.transmit, hout]
      split_ifs <;> omega
  · -- what is outstanding
    obtain ⟨d', -, hdrains, hx⟩ := h.round hquiet hfin hbehind
      (Peer.tick_resend hopen hout hlate) rfl
    refine ⟨d', hdrains, by rw [hx], ?_⟩
    simp only [backlog, hx]
    split_ifs <;> omega

/-- **Draining.** A sender whose remaining bytes fit the receiver gets everything acknowledged. -/
theorem Inv.drain (h : d.Inv) (hquiet : d.Quiet) (hfin : (d.peer x).snd.fin = false)
    (hroom : (d.peer x).snd.written.length ≤ (d.peer x.other).rcv.taken + cap)
    (hbehind : (d.peer x.other).rcv.accepted.length = (d.peer x).snd.acked) :
    ∃ d', Drains x d d' ∧ (d'.peer x).snd.acked = (d.peer x).snd.written.length := by
  induction hn : d.backlog x using Nat.strongRecOn generalizing d with
  | ind n ih =>
    by_cases hmore : (d.peer x).snd.acked < (d.peer x).snd.written.length
    · obtain ⟨d₁, hd₁, hidle, hless⟩ := h.progress hquiet hfin hroom hbehind hmore
      have hinv₁ := h.leads hd₁.leads
      have hwritten : (d₁.peer x).snd.written = (d.peer x).snd.written := by rw [hd₁.sender]
      obtain ⟨d', hd', hdone⟩ := ih _ (hn ▸ hless) hinv₁ hd₁.quiet (by rw [hd₁.sender]; exact hfin)
        (by rw [hwritten, hd₁.receiver]; exact hroom) ((hinv₁.dir x).acc_eq_of_idle hidle) rfl
      exact ⟨d', hd₁.trans hd', hdone.trans (by rw [hwritten])⟩
    · have := (h.dir x).acked_le_sent.trans (h.dir x).sent_le
      exact ⟨d, .refl hquiet, by omega⟩

end Duo

end LabNetstack
