import LabNetstack.Transport.WriteClose

/-!
# The order of the last two segments

A socket that has sent its `FIN` still waits for two segments, the answer to it and the `FIN` of the
peer, and they may come in either order. Only the branch for acknowledgements looks whether the
close is complete. So when the `FIN` comes last all flags are set, and the socket stays
`ST_ESTABLISTED` until some further acknowledgement comes in.

## Main results

* `Threads.close_order` — the two orders never end alike; in which runs all flags mean `ST_CLOSED`
-/

namespace LabNetstack

namespace Socket

variable {k k' k₁ k₂ : Socket} {packet ack fin : TCPPacket} {out : List TCPPacket}

/-- The segments of a list, one after the other. -/
def receive (packet : TCPPacket) (k : Socket) : Option Socket :=
  (handleTCPMain k packet).map Prod.fst

/-- State, close flags and `isConnection` are the same. -/
def EndsAlike (k₁ k₂ : Socket) : Prop :=
  k₁.state = k₂.state ∧ k₁.clstate = k₂.clstate ∧ k₁.isConnection = k₂.isConnection
deriving Decidable

/-- All four flags of a close mean that the socket is closed. -/
def Complete (k : Socket) : Prop :=
  k.clstate &&& CLOSEState.close = CLOSEState.close → k.state = .closed ∧ k.isConnection = false

/-- Which segments close a socket, flag by flag. -/
theorem closes_iff : packet.Closes k ↔ packet.IsAck ∧ k.hasFlag CLOSEState.finSent ∧
    k.hasFlag CLOSEState.ackSent ∧ k.hasFlag CLOSEState.finRecv := by
  let k₁ : Socket := { k with clstate := k.clstate ||| CLOSEState.ackRecv }
  have hflag : ∀ flag, k₁.hasFlag flag = (k.hasFlag flag || CLOSEState.ackRecv &&& flag != 0) :=
    hasFlag_or rfl
  have hclose : k₁.clstate &&& CLOSEState.close = CLOSEState.close ↔ _ := close_iff
  rw [hflag, hflag, hflag, hflag] at hclose
  rw [TCPPacket.Closes, hclose]
  have hbits : (CLOSEState.ackRecv &&& CLOSEState.finSent != 0) = false ∧
      (CLOSEState.ackRecv &&& CLOSEState.ackSent != 0) = false ∧
      (CLOSEState.ackRecv &&& CLOSEState.finRecv != 0) = false ∧
      (CLOSEState.ackRecv &&& CLOSEState.ackRecv != 0) = true := by decide
  rw [hbits.1, hbits.2.1, hbits.2.2.1, hbits.2.2.2]
  simp only [Bool.or_false, Bool.or_true, and_true]
  exact and_congr_right fun _ => and_self_left

theorem receive_established (hopen : k.state = .establisted) (h : receive packet k = some k') :
    k'.clstate = k.clstate ||| packet.sets k ∧ (k'.state = .closed ↔ packet.Closes k) ∧
      (k'.state = .establisted ∨ k'.state = .closed) := by
  obtain ⟨⟨k'', out⟩, hrun, rfl⟩ := Option.map_eq_some_iff.mp h
  rw [handleTCPMain, hopen] at hrun
  obtain ⟨hclstate, hstate⟩ := established_flags hrun
  refine ⟨hclstate, established_closed_iff hrun hopen, ?_⟩
  exact hstate.imp (fun hsame => hsame.1.trans hopen) And.left

/-- **The two orders.** With the answer last the socket is closed, with the `FIN` last it is not. -/
theorem states_of_orders (hopen : k.state = .establisted) (hsent : k.hasFlag CLOSEState.finSent)
    (hrecv : k.hasFlag CLOSEState.finRecv = false) (hack : ack.IsAck) (hnofin : ¬ ack.IsFin)
    (hfin : fin.IsFin) (h₁ : Run.run receive [ack, fin] k = some k₁)
    (h₂ : Run.run receive [fin, ack] k = some k₂) :
    k₁.state = .establisted ∧ k₂.state = .closed := by
  obtain ⟨ka, ha, h₁⟩ := Option.bind_eq_some_iff.mp h₁
  obtain ⟨kf, hf, h₂⟩ := Option.bind_eq_some_iff.mp h₂
  have hnot : ∀ packet : TCPPacket, ¬ packet.Closes k := by
    intro packet hcloses
    rw [closes_iff, hrecv] at hcloses
    exact absurd hcloses.2.2.2 Bool.false_ne_true
  obtain ⟨hcla, hca, hsa⟩ := receive_established hopen ha
  obtain ⟨hclf, hcf, hsf⟩ := receive_established hopen hf
  have hfa := segmentFlags hcla
  have hff := segmentFlags hclf
  have hopena := hsa.resolve_right (hca.not.mpr (hnot ack))
  have hopenf := hsf.resolve_right (hcf.not.mpr (hnot fin))
  constructor
  · obtain ⟨k₁', h₁', h₁⟩ := Option.bind_eq_some_iff.mp h₁
    obtain rfl := Option.some.inj h₁
    obtain ⟨-, hc, hs⟩ := receive_established hopena h₁'
    refine hs.resolve_right (hc.not.mpr fun hcloses => ?_)
    rw [closes_iff, hfa.finRecv, hrecv, decide_eq_false hnofin] at hcloses
    exact absurd hcloses.2.2.2 Bool.false_ne_true
  · obtain ⟨k₂', h₂', h₂⟩ := Option.bind_eq_some_iff.mp h₂
    obtain rfl := Option.some.inj h₂
    obtain ⟨-, hc, -⟩ := receive_established hopenf h₂'
    refine hc.mpr (closes_iff.mpr ⟨hack, ?_, ?_, ?_⟩)
    · rw [hff.finSent, hsent]
    · rw [hff.ackSent, decide_eq_true hfin, Bool.or_true]
    · rw [hff.finRecv, decide_eq_true hfin, Bool.or_true]

end Socket

namespace Threads

variable {s s' : Threads} {act : Action}

/-- The condition on a step: the `FIN` of the peer does not reach an open socket that has sent its
own and has the answer to it, or is given one by the same segment. -/
def FinFirst : Action → Threads → Prop
  | .segment packet, s => s.socket.state = .establisted → packet.IsFin →
    s.socket.hasFlag CLOSEState.finSent → s.socket.hasFlag CLOSEState.finRecv ∨
      (s.socket.hasFlag CLOSEState.ackRecv = false ∧ ¬ packet.IsAck)
  | _, _ => True

/-- What is so of every state of a run in which each `FIN` comes first. -/
structure OrderOk (s : Threads) : Prop where
  flags : s.socket.FlagsOk
  complete : s.socket.Complete

/-- Only the rest of the socket has changed. -/
theorem complete_congr {k k' : Socket} (h : k.Complete) (hclstate : k'.clstate = k.clstate)
    (hstate : k'.state = k.state) (hconn : k'.isConnection = k.isConnection) : k'.Complete := by
  rw [Socket.Complete, hclstate, hstate, hconn]
  exact h

/-- A segment that leaves an open socket open. -/
theorem complete_segment {k k' : Socket} {packet : TCPPacket} {out : List TCPPacket}
    (hflags : k.FlagsOk) (h : k.Complete) (hopen : k.state = .establisted)
    (hrun : TCPHandleEstablished k packet = some (k', out)) :
    k'.Complete ↔ (packet.IsFin → k.hasFlag CLOSEState.finSent → k.hasFlag CLOSEState.finRecv ∨
      (k.hasFlag CLOSEState.ackRecv = false ∧ ¬ packet.IsAck)) := by
  obtain ⟨hclstate, hstate⟩ := established_flags hrun
  have hcloses := established_closed_iff hrun hopen
  have hset := segmentFlags hclstate
  rw [Socket.closes_iff, hflags.paired, and_self] at hcloses
  -- the four flags of `k`, and the two bits of the segment
  have hbefore : ¬ (k.hasFlag CLOSEState.finSent ∧ k.hasFlag CLOSEState.finRecv ∧
      k.hasFlag CLOSEState.ackRecv) := by
    rintro ⟨hsent, hrecv, hack⟩
    have hclosed := (h (Socket.close_iff.mpr ⟨hsent, hflags.paired ▸ hrecv, hrecv, hack⟩)).1
    rw [hopen] at hclosed
    cases hclosed
  have hopen' : k'.state = .closed → k'.isConnection = false := by
    intro hclosed
    rcases hstate with ⟨hsame, -⟩ | ⟨-, hconn⟩
    · rw [hsame, hopen] at hclosed
      cases hclosed
    · exact hconn
  have hcomplete : k'.Complete ↔ (k'.clstate &&& CLOSEState.close = CLOSEState.close →
      k'.state = .closed) :=
    ⟨fun hk' hall => (hk' hall).1, fun hk' hall => ⟨hk' hall, hopen' (hk' hall)⟩⟩
  rw [hcomplete, Socket.close_iff, hset.finSent, hset.ackSent, hset.finRecv, hset.ackRecv,
    hflags.paired, hcloses]
  simp only [Bool.or_eq_true, Bool.and_eq_true, decide_eq_true_eq]
  constructor
  · intro hall hfin hsent
    by_cases hrecv : k.hasFlag CLOSEState.finRecv
    · exact Or.inl hrecv
    · -- then the socket is not closed, so one of the four is still missing
      refine Or.inr ⟨?_, fun hack => hrecv ?_⟩
      · by_contra hack
        rw [Bool.not_eq_false] at hack
        exact hrecv (hall ⟨hsent, Or.inr hfin, Or.inr hfin, Or.inl hack⟩).2.2
      · exact (hall ⟨hsent, Or.inr hfin, Or.inr hfin, Or.inr ⟨hack, hsent⟩⟩).2.2
  · rintro hfirst ⟨hsent, hrecv, -, hack⟩
    have hrecv' : k.hasFlag CLOSEState.finRecv := by
      rcases hrecv with hrecv | hfin
      · exact hrecv
      · rcases hfirst hfin hsent with hrecv | ⟨hnone, hnot⟩
        · exact hrecv
        · rcases hack with hack | hack
          · rw [hnone] at hack
            exact absurd hack Bool.false_ne_true
          · exact absurd hack.1 hnot
    rcases hack with hack | hack
    · exact absurd ⟨hsent, hrecv', hack⟩ hbefore
    · exact ⟨hack.1, hsent, hrecv'⟩

/-- **One step.** -/
theorem OrderOk.step_iff (h : s.OrderOk) (hs : step act s = some s') :
    FinFirst act s ↔ s'.socket.Complete := by
  cases moves_of_step hs with
  | refused | writeLab | lookWrite | readLab | lookRead => exact iff_of_true trivial h.complete
  | copyWrite | copyRead =>
    exact iff_of_true trivial (complete_congr h.complete rfl rfl rfl)
  | close =>
    refine iff_of_true trivial fun hall => h.complete ?_
    have hflag : ∀ flag, (closeLab s.socket).hasFlag flag
        = (s.socket.hasFlag flag || CLOSEState.call &&& flag != 0) := Socket.hasFlag_or rfl
    rw [Socket.close_iff] at hall ⊢
    simp only at hall
    rw [hflag, hflag, hflag, hflag] at hall
    simpa [CLOSEState.call, CLOSEState.finSent, CLOSEState.finRecv, CLOSEState.ackSent,
      CLOSEState.ackRecv] using hall
  | tick nowtime =>
    refine iff_of_true trivial ?_
    have hframe := (Socket.tick_cases nowtime s.socket).1
    rcases Socket.tick_flags nowtime s.socket with ⟨hclstate, -⟩ | ⟨hdue, hclstate⟩
    · exact complete_congr h.complete hclstate (by rw [hframe]) (by rw [hframe])
    · -- who has an answer to its `FIN` has sent it before
      intro hall
      rw [Socket.close_iff, Socket.hasFlag_or hclstate, Socket.hasFlag_or hclstate,
        Socket.hasFlag_or hclstate, Socket.hasFlag_or hclstate] at hall
      simp only [Bool.or_eq_true] at hall
      obtain ⟨-, hackSent, hrecv, hack⟩ := hall
      have hack' := hack.resolve_right (by decide)
      have hclosed := (h.complete (Socket.close_iff.mpr ⟨h.flags.answered hack',
        hackSent.resolve_right (by decide), hrecv.resolve_right (by decide), hack'⟩)).1
      rw [h.flags.isConnection hdue.1] at hclosed
      cases hclosed
  | segment packet k out hlen hk =>
    rcases handleTCPMain_flags hk with ⟨hopen, hrun⟩ | ⟨hopen, rfl⟩ | ⟨hearly, hclstate, hopen, -⟩
    · rw [complete_segment h.flags h.complete hopen hrun, FinFirst]
      exact imp_iff_right hopen
    · exact iff_of_true (fun hopen' => absurd hopen' hopen) h.complete
    · refine iff_of_true (fun hopen' => ?_) fun hall => ?_
      · rcases hearly with hearly | hearly <;> rw [hearly] at hopen' <;> cases hopen'
      · rw [Socket.close_iff, Socket.hasFlag_congr hclstate, (h.flags.early hearly).1] at hall
        exact absurd hall.1 Bool.false_ne_true

theorem start_orderOk {k : Socket} (hk : k.Fresh) : (start k).OrderOk := by
  refine ⟨hk.flagsOk, fun hall => ?_⟩
  have hclstate : (start k).socket.clstate = 0 := hk.clstate
  rw [hclstate] at hall
  exact absurd hall (by decide)

/-- **The order of the last two segments.** An open socket that has sent its `FIN` and not received
one never ends alike in the two orders. All along a run the four flags of a close mean that the
socket is closed exactly if each `FIN` reaches it before the answer to its own. -/
theorem close_order {k₀ : Socket} {acts : List Action} (hfresh : k₀.Fresh)
    (hrun : Run.run step acts (start k₀) = some s) :
    (∀ (k k₁ k₂ : Socket) (ack fin : TCPPacket), k.state = .establisted →
      k.hasFlag CLOSEState.call → k.hasFlag CLOSEState.finSent → k.Drained →
      k.hasFlag CLOSEState.finRecv = false → ack.IsAck → ¬ ack.IsFin → fin.IsFin →
      Run.run Socket.receive [ack, fin] k = some k₁ →
      Run.run Socket.receive [fin, ack] k = some k₂ → ¬ Socket.EndsAlike k₁ k₂) ∧
    ((∀ before after t, acts = before ++ after → Run.run step before (start k₀) = some t →
      t.socket.Complete) ↔ Run.Meets step FinFirst acts (start k₀)) := by
  refine ⟨fun k k₁ k₂ ack fin hopen _ hsent _ hrecv hack hnofin hfin h₁ h₂ halike => ?_, ?_⟩
  · obtain ⟨hstate₁, hstate₂⟩ :=
      Socket.states_of_orders hopen hsent hrecv hack hnofin hfin h₁ h₂
    rw [Socket.EndsAlike, hstate₁, hstate₂] at halike
    exact absurd halike.1 (by decide)
  · exact (Run.meets_iff (a := fun _ _ => True) (p := OrderOk) (fun _ => OrderOk.complete)
      (fun _ _ _ _ h hs hc => ⟨h.flags.step hs, (h.step_iff hs).mp hc⟩)
      (fun _ _ _ _ h hs hq => (h.step_iff hs).mpr hq) (Run.meets_of_forall fun _ _ => trivial)
      (start_orderOk hfresh) hrun).symm

/-- The `FIN` of the peer. -/
def peerFin : TCPPacket := ⟨0, 0, createTCPHeader 0 0 1 0 ctFin 0xffff, []⟩

/-- A client that has sent its `FIN`. -/
def finishedClient : Socket :=
  ((Run.run step [.close, .tick 1] (start Solo.answeredClient)).get (by decide)).socket

/-- The `FIN` of the peer comes last. -/
def finLast : List Action := [.close, .tick 1, .segment (Solo.pureAck 1), .segment peerFin]

theorem close_order_finishedClient :
    ¬ Socket.EndsAlike
        ((Run.run Socket.receive [Solo.pureAck 1, peerFin] finishedClient).get (by decide))
        ((Run.run Socket.receive [peerFin, Solo.pureAck 1] finishedClient).get (by decide)) ∧
      ((∀ before after t, finLast = before ++ after →
        Run.run step before (start Solo.answeredClient) = some t → t.socket.Complete) ↔
        Run.Meets step FinFirst finLast (start Solo.answeredClient)) := by
  obtain ⟨horders, hruns⟩ := close_order fresh_answeredClient
    (Option.some_get (x := Run.run step finLast (start Solo.answeredClient)) (by decide)).symm
  exact ⟨horders finishedClient _ _ (Solo.pureAck 1) peerFin (by decide) (by decide) (by decide)
    ⟨by decide, by decide⟩ (by decide) (by decide) (by decide) (by decide)
    (Option.some_get _).symm (Option.some_get _).symm, hruns⟩

/-- The two orders do not end alike, and a socket with all four flags need not be closed. -/
theorem not_close_order :
    (¬ ∀ (k k₁ k₂ : Socket) (ack fin : TCPPacket), k.state = .establisted →
      k.hasFlag CLOSEState.call → k.hasFlag CLOSEState.finSent → k.Drained →
      k.hasFlag CLOSEState.finRecv = false → ack.IsAck → ¬ ack.IsFin → fin.IsFin →
      Run.run Socket.receive [ack, fin] k = some k₁ →
      Run.run Socket.receive [fin, ack] k = some k₂ → Socket.EndsAlike k₁ k₂) ∧
    ¬ ∀ (k : Socket) (acts : List Action) (s : Threads), k.Fresh →
      Run.run step acts (start k) = some s → s.socket.Complete := by
  constructor
  · intro hclaim
    have halike := hclaim finishedClient
      ((Run.run Socket.receive [Solo.pureAck 1, peerFin] finishedClient).get (by decide))
      ((Run.run Socket.receive [peerFin, Solo.pureAck 1] finishedClient).get (by decide))
      (Solo.pureAck 1) peerFin (by decide) (by decide) (by decide) ⟨by decide, by decide⟩
      (by decide) (by decide) (by decide) (by decide) (Option.some_get _).symm
      (Option.some_get _).symm
    exact absurd halike (by decide)
  · intro hclaim
    let s := (Run.run step finLast (start Solo.answeredClient)).get (by decide)
    have hcomplete : s.socket.Complete := hclaim Solo.answeredClient finLast s fresh_answeredClient
      (Option.some_get _).symm
    exact absurd (hcomplete (by decide)).1 (by decide)

end Threads

end LabNetstack
