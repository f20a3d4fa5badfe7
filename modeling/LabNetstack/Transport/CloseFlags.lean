import LabNetstack.Transport.Threads

/-!
# The close flags

What the timer and the segments do to `clstate`. The timer only ever sets `CL_FIN_SENT`, when the
`FIN` is due; a segment sets `CL_ACK_RECV` in the branch for acknowledgements, which is also the
only place where the socket is closed, and the other two flags in the branch for a `FIN` behind it.

## Main results

* `Socket.tick_flags` — what a round of the timer does to the flags
* `established_flags` — what a segment does to the flags of an open socket
* `Socket.FlagsOk.step` — what holds of the flags and the state all along a run
-/

namespace LabNetstack

/-! ### Flags as bits -/

namespace CLOSEState

variable {c d flag : CLOSEState} {i : ℕ}

theorem or_and_ne : ((c ||| d) &&& flag != 0) = (c &&& flag != 0 || d &&& flag != 0) := by
  have hzero : (c ||| d) &&& flag = 0 ↔ c &&& flag = 0 ∧ d &&& flag = 0 := by
    rw [BitVec.and_comm, BitVec.and_or_distrib_left, BitVec.and_comm, BitVec.and_comm flag]
    exact BitVec.or_eq_zero_iff
  rw [Bool.eq_iff_iff, Bool.or_eq_true]
  simp only [bne_iff_ne, ne_eq, hzero]
  exact Classical.not_and_iff_not_or_not

theorem ite_and_ne {p : Prop} [Decidable p] :
    ((if p then c else 0) &&& flag != 0) = (decide p && (c &&& flag != 0)) := by
  split_ifs with hp
  · rw [decide_eq_true hp, Bool.true_and]
  · rw [decide_eq_false hp, Bool.false_and, BitVec.and_comm]
    exact bne_eq_false_iff_eq.mpr BitVec.and_zero

theorem and_flag (hflag : flag = BitVec.twoPow 32 i) :
    c &&& flag = if c.getLsbD i then flag else 0 := by
  rw [hflag, BitVec.and_twoPow]
  rfl

theorem close_eq : close = finSent ||| ackSent ||| finRecv ||| ackRecv := by decide

end CLOSEState

namespace Socket

variable {k k' : Socket} {flag set : CLOSEState}

/-- What is left of a flag when others are set. -/
theorem hasFlag_or (h : k'.clstate = k.clstate ||| set) (flag : CLOSEState) :
    k'.hasFlag flag = (k.hasFlag flag || set &&& flag != 0) := by
  rw [hasFlag, h, CLOSEState.or_and_ne]
  rfl

theorem hasFlag_congr (h : k'.clstate = k.clstate) (flag : CLOSEState) :
    k'.hasFlag flag = k.hasFlag flag := by
  rw [hasFlag, hasFlag, h]

/-- All four flags of a close. -/
theorem close_iff : k.clstate &&& CLOSEState.close = CLOSEState.close ↔
    k.hasFlag CLOSEState.finSent ∧ k.hasFlag CLOSEState.ackSent ∧ k.hasFlag CLOSEState.finRecv ∧
      k.hasFlag CLOSEState.ackRecv := by
  constructor
  · intro h
    have hpart : ∀ flag : CLOSEState, (CLOSEState.close &&& flag != 0) → k.hasFlag flag := by
      intro flag hflag
      rw [← h, BitVec.and_assoc, BitVec.and_comm CLOSEState.close, ← BitVec.and_assoc] at hflag
      rw [hasFlag, bne_iff_ne]
      intro hzero
      rw [hzero] at hflag
      exact absurd hflag (by decide)
    exact ⟨hpart _ (by decide), hpart _ (by decide), hpart _ (by decide), hpart _ (by decide)⟩
  · rintro ⟨hfinSent, hackSent, hfinRecv, hackRecv⟩
    have hpart : ∀ (i : ℕ) (flag : CLOSEState), flag = BitVec.twoPow 32 i → k.hasFlag flag →
        k.clstate &&& flag = flag := by
      intro i flag hi hflag
      rw [hasFlag, bne_iff_ne, CLOSEState.and_flag hi] at hflag
      rw [CLOSEState.and_flag hi]
      split_ifs at hflag ⊢ with hbit
      · rfl
      · exact absurd rfl hflag
    rw [CLOSEState.close_eq, BitVec.and_or_distrib_left, BitVec.and_or_distrib_left,
      BitVec.and_or_distrib_left, hpart 1 _ (by decide) hfinSent, hpart 2 _ (by decide) hackSent,
      hpart 3 _ (by decide) hfinRecv, hpart 4 _ (by decide) hackRecv]

/-! ### The timer -/

/-- Everything is sent and acknowledged, and one of the two reasons for a `FIN` is there. -/
def FinDue (k : Socket) : Prop :=
  k.isConnection ∧ k.ackBack = k.sendBack ∧ k.sendBack = k.sendFront ∧
    (k.hasFlag CLOSEState.finRecv && k.hasFlag CLOSEState.ackSent || k.hasFlag CLOSEState.call)
deriving Decidable

theorem sendFin_flags (now : ℕ) (hconn : k.isConnection) :
    ((sendFin now k).1.clstate = k.clstate ∧ (k.FinDue → k.hasFlag CLOSEState.finSent)) ∨
      (k.FinDue ∧ (sendFin now k).1.clstate = k.clstate ||| CLOSEState.finSent) := by
  simp only [sendFin]
  split_ifs with hidle hreason hsend
  · exact Or.inr ⟨⟨hconn, hidle.1, hidle.2, hreason⟩, rfl⟩
  · refine Or.inl ⟨rfl, fun _ => ?_⟩
    by_contra hnot
    rw [Bool.not_eq_true] at hnot
    exact hsend (by rw [hnot]; rfl)
  · exact Or.inl ⟨rfl, fun hdue => absurd hdue.2.2.2 hreason⟩
  · exact Or.inl ⟨rfl, fun hdue => absurd ⟨hdue.2.1, hdue.2.2.1⟩ hidle⟩

/-- **What a round of the timer does to the flags.** -/
theorem tick_flags (now : ℕ) (k : Socket) :
    ((asyncSendTCPPacket now k).1.clstate = k.clstate ∧
        (k.FinDue → k.hasFlag CLOSEState.finSent)) ∨
      (k.FinDue ∧ (asyncSendTCPPacket now k).1.clstate = k.clstate ||| CLOSEState.finSent) := by
  rw [asyncSendTCPPacket]
  by_cases hconn : k.isConnection
  · rw [if_neg (by simpa using hconn)]
    have hsegment := sendSegment_fst now k
    -- a segment that takes new bytes leaves nothing due
    have hcase : (sendSegment now k).1.clstate = k.clstate ∧
        (sendSegment now k).1.isConnection = k.isConnection ∧
        ((sendSegment now k).1.FinDue ↔ k.FinDue) := by
      rcases chooseSegment_cases now k with ⟨t, h⟩ | ⟨t, h⟩ | ⟨hidle, t, len, hpos, -, hlen, h⟩
      · rw [hsegment, h]
        exact ⟨rfl, rfl, Iff.rfl⟩
      · rw [hsegment, h]
        exact ⟨rfl, rfl, Iff.rfl⟩
      · rw [hsegment, h]
        refine ⟨rfl, rfl, iff_of_false ?_ ?_⟩
        · rintro ⟨-, hback, -⟩
          simp only at hback
          rw [hidle] at hback
          have hzero : len = 0 := BitVec.add_right_eq_self.mp hback.symm
          rw [hzero] at hpos
          exact absurd hpos (by decide)
        · rintro ⟨-, -, hfront, -⟩
          rw [hfront, BitVec.sub_self, BitVec.toNat_zero] at hlen
          omega
    obtain ⟨hclstate, hsame, hdue⟩ := hcase
    rcases sendFin_flags now (k := (sendSegment now k).1) (hsame.trans hconn) with h | h
    · refine Or.inl ⟨h.1.trans hclstate, fun hk => ?_⟩
      rw [← hasFlag_congr hclstate]
      exact h.2 (hdue.mpr hk)
    · exact Or.inr ⟨hdue.mp h.1, by rw [← hclstate]; exact h.2⟩
  · rw [if_pos (by simpa using hconn)]
    exact Or.inl ⟨rfl, fun hdue => absurd hdue.1 hconn⟩

end Socket

/-! ### Segments -/

section Segments

variable {k k' : Socket} {packet : TCPPacket} {out : List TCPPacket}

/-- The flags that a segment sets. -/
def TCPPacket.sets (packet : TCPPacket) (k : Socket) : CLOSEState :=
  (if packet.IsAck ∧ k.hasFlag CLOSEState.finSent then CLOSEState.ackRecv else 0) |||
    (if packet.IsFin then CLOSEState.finRecv ||| CLOSEState.ackSent else 0)

theorem closeOnAck_clstate (k : Socket) : (closeOnAck k).clstate =
    k.clstate ||| if k.hasFlag CLOSEState.finSent then CLOSEState.ackRecv else 0 := by
  simp only [closeOnAck]
  split_ifs
  · rfl
  · rfl
  · exact BitVec.or_zero.symm
  · exact BitVec.or_zero.symm

theorem handleFin_clstate (k : Socket) (tcpHeader : TCPHeader) :
    (handleFin k tcpHeader).1.clstate = k.clstate |||
      if tcpHeader.ctrl &&& ctFin ≠ 0 then CLOSEState.finRecv ||| CLOSEState.ackSent else 0 := by
  simp only [handleFin]
  split_ifs
  · exact BitVec.or_assoc ..
  · exact BitVec.or_zero.symm

theorem closeOnAck_isConnection (k : Socket) :
    (closeOnAck k).state = k.state ∧ (closeOnAck k).isConnection = k.isConnection ∨
      (closeOnAck k).state = .closed ∧ (closeOnAck k).isConnection = false := by
  simp only [closeOnAck]
  split_ifs
  · exact Or.inr ⟨rfl, rfl⟩
  · exact Or.inl ⟨rfl, rfl⟩
  · exact Or.inr ⟨rfl, rfl⟩
  · exact Or.inl ⟨rfl, rfl⟩

theorem acceptAck_isConnection {ackNum : BitVec 32} {window : BitVec 16}
    (h : acceptAck k ackNum window = some k') : k'.isConnection = k.isConnection := by
  simp only [acceptAck] at h
  split_ifs at h
  all_goals rw [← Option.some.inj h]

/-- **What a segment does to the flags** of an open socket. -/
theorem established_flags (h : TCPHandleEstablished k packet = some (k', out)) :
    k'.clstate = k.clstate ||| packet.sets k ∧
      (k'.state = k.state ∧ k'.isConnection = k.isConnection ∨
        k'.state = .closed ∧ k'.isConnection = false) := by
  obtain ⟨k₁, dataAnswer, hack, hdata, -⟩ := established_eq_some_iff.mp h
  have hclstate : k'.clstate = (handleFin k₁ packet.hostHeader).1.clstate := by
    rw [handleData_eq hdata]
  have hconn : k'.isConnection = k₁.isConnection := by
    rw [handleData_eq hdata, handleFin_eq]
  have hstate : k'.state = k₁.state := by
    rw [handleData_eq hdata, handleFin_eq]
  rw [hclstate, handleFin_clstate, hconn, hstate]
  rw [handleAck] at hack
  split_ifs at hack with hisAck
  · obtain ⟨k₀, hk₀, rfl⟩ := Option.map_eq_some_iff.mp hack
    have hack' : packet.IsAck := hisAck
    have hflag : k₀.hasFlag CLOSEState.finSent = k.hasFlag CLOSEState.finSent :=
      Socket.hasFlag_congr (acceptAck_clstate hk₀) _
    refine ⟨?_, ?_⟩
    · rw [closeOnAck_clstate, acceptAck_clstate hk₀, hflag, TCPPacket.sets, BitVec.or_assoc]
      simp only [hack', true_and]
      rfl
    · rw [← Socket.acceptAck_state hk₀, ← acceptAck_isConnection hk₀]
      exact closeOnAck_isConnection k₀
  · obtain rfl := Option.some.inj hack
    have hack' : ¬ packet.IsAck := hisAck
    refine ⟨?_, Or.inl ⟨rfl, rfl⟩⟩
    rw [TCPPacket.sets]
    simp only [hack', false_and, if_false]
    exact congrArg (k.clstate ||| ·) BitVec.zero_or.symm

/-- The flags one by one. -/
structure SegmentFlags (k : Socket) (packet : TCPPacket) (k' : Socket) : Prop where
  call : k'.hasFlag CLOSEState.call = k.hasFlag CLOSEState.call
  finSent : k'.hasFlag CLOSEState.finSent = k.hasFlag CLOSEState.finSent
  finRecv : k'.hasFlag CLOSEState.finRecv = (k.hasFlag CLOSEState.finRecv || packet.IsFin)
  ackSent : k'.hasFlag CLOSEState.ackSent = (k.hasFlag CLOSEState.ackSent || packet.IsFin)
  ackRecv : k'.hasFlag CLOSEState.ackRecv =
    (k.hasFlag CLOSEState.ackRecv || (packet.IsAck && k.hasFlag CLOSEState.finSent))

theorem segmentFlags (h : k'.clstate = k.clstate ||| packet.sets k) : SegmentFlags k packet k' := by
  have hset : ∀ flag, k'.hasFlag flag = (k.hasFlag flag ||
      ((packet.IsAck && k.hasFlag CLOSEState.finSent) && (CLOSEState.ackRecv &&& flag != 0) ||
        packet.IsFin && ((CLOSEState.finRecv ||| CLOSEState.ackSent) &&& flag != 0))) := by
    intro flag
    rw [Socket.hasFlag_or h, TCPPacket.sets]
    rw [CLOSEState.or_and_ne, CLOSEState.ite_and_ne, CLOSEState.ite_and_ne, Bool.decide_and,
      Bool.decide_coe]
  constructor
  all_goals
    rw [hset]
    simp [CLOSEState.call, CLOSEState.finSent, CLOSEState.finRecv, CLOSEState.ackSent,
      CLOSEState.ackRecv]

/-- **What a segment does to a socket**, by the state it finds. -/
theorem handleTCPMain_flags (h : handleTCPMain k packet = some (k', out)) :
    k.state = .establisted ∧ TCPHandleEstablished k packet = some (k', out) ∨
      k.state ≠ .establisted ∧ k' = k ∨
      (k.state = .sysSent ∨ k.state = .sysRecv) ∧ k'.clstate = k.clstate ∧
        k'.state = .establisted ∧ k'.isConnection = true := by
  rw [handleTCPMain] at h
  split at h
  next hstate =>
    obtain ⟨rfl, -⟩ := Prod.mk.inj (Option.some.inj h)
    exact Or.inr (Or.inl ⟨by rw [hstate]; decide, rfl⟩)
  next hstate =>
    simp only [TCPHandleSyssent] at h
    split_ifs at h
    all_goals obtain ⟨rfl, -⟩ := Prod.mk.inj (Option.some.inj h)
    · exact Or.inr (Or.inr ⟨Or.inl hstate, rfl, rfl, rfl⟩)
    · exact Or.inr (Or.inl ⟨by rw [hstate]; decide, rfl⟩)
  next hstate =>
    simp only [TCPHandleSysrecv] at h
    split_ifs at h
    all_goals obtain ⟨rfl, -⟩ := Prod.mk.inj (Option.some.inj h)
    · exact Or.inr (Or.inr ⟨Or.inr hstate, rfl, rfl, rfl⟩)
    · exact Or.inr (Or.inl ⟨by rw [hstate]; decide, rfl⟩)
  next hstate => exact Or.inl ⟨hstate, h⟩
  next => cases h

end Segments

/-! ### Runs -/

namespace Socket

variable {k k' : Socket} {packet : TCPPacket} {out : List TCPPacket}

/-- A socket whose connection is being opened, or has just been, and of which nothing has been
closed yet. -/
structure Fresh (k : Socket) : Prop where
  clstate : k.clstate = 0
  state : k.state = .sysSent ∨ k.state = .sysRecv ∨ k.state = .establisted
  isConnection : k.isConnection → k.state = .establisted

/-- What the flags and the state have to do with each other. -/
structure FlagsOk (k : Socket) : Prop where
  state : (k.state = .sysSent ∨ k.state = .sysRecv) ∨ k.state = .establisted ∨ k.state = .closed
  isConnection : k.isConnection → k.state = .establisted
  early : k.state = .sysSent ∨ k.state = .sysRecv →
    k.hasFlag CLOSEState.finSent = false ∧ k.hasFlag CLOSEState.finRecv = false
  paired : k.hasFlag CLOSEState.ackSent = k.hasFlag CLOSEState.finRecv
  answered : k.hasFlag CLOSEState.ackRecv → k.hasFlag CLOSEState.finSent

theorem Fresh.flagsOk (h : k.Fresh) : k.FlagsOk := by
  have hnone : ∀ flag, k.hasFlag flag = false := by
    intro flag
    rw [hasFlag, h.clstate]
    exact bne_eq_false_iff_eq.mpr BitVec.zero_and
  refine ⟨?_, h.isConnection, fun _ => ⟨hnone _, hnone _⟩, by rw [hnone, hnone], fun hflag => ?_⟩
  · rcases h.state with hstate | hstate | hstate
    · exact Or.inl (Or.inl hstate)
    · exact Or.inl (Or.inr hstate)
    · exact Or.inr (Or.inl hstate)
  · rw [hnone] at hflag
    exact absurd hflag Bool.false_ne_true

namespace FlagsOk

/-- Only the rest of the socket has changed. -/
theorem congr (h : k.FlagsOk) (hclstate : k'.clstate = k.clstate) (hstate : k'.state = k.state)
    (hconn : k'.isConnection = k.isConnection) : k'.FlagsOk := by
  have hflag := hasFlag_congr hclstate
  exact ⟨hstate ▸ h.state, hstate ▸ hconn ▸ h.isConnection,
    by rw [hstate, hflag, hflag]; exact h.early, by rw [hflag, hflag]; exact h.paired,
    by rw [hflag, hflag]; exact h.answered⟩

theorem closeLab (h : k.FlagsOk) : (LabNetstack.closeLab k).FlagsOk := by
  have hflag : ∀ flag, (LabNetstack.closeLab k).hasFlag flag
      = (k.hasFlag flag || CLOSEState.call &&& flag != 0) := hasFlag_or rfl
  refine ⟨h.state, h.isConnection, fun hearly => ?_, ?_, fun hack => ?_⟩
  · rw [hflag, hflag, (h.early hearly).1, (h.early hearly).2]
    decide
  · rw [hflag, hflag, h.paired]
    rfl
  · rw [hflag] at hack ⊢
    rw [h.answered (by simpa [CLOSEState.call, CLOSEState.ackRecv] using hack)]
    rfl

theorem tick (h : k.FlagsOk) (now : ℕ) : (asyncSendTCPPacket now k).1.FlagsOk := by
  have hframe := (tick_cases now k).1
  have hstate : (asyncSendTCPPacket now k).1.state = k.state := by rw [hframe]
  have hconn : (asyncSendTCPPacket now k).1.isConnection = k.isConnection := by rw [hframe]
  rcases tick_flags now k with ⟨hclstate, -⟩ | ⟨hdue, hclstate⟩
  · exact h.congr hclstate hstate hconn
  · have hopen := h.isConnection hdue.1
    refine ⟨hstate ▸ h.state, hstate ▸ hconn ▸ h.isConnection, fun hearly => ?_, ?_, fun _ => ?_⟩
    · rw [hstate, hopen] at hearly
      exact absurd hearly (by decide)
    · rw [hasFlag_or hclstate, hasFlag_or hclstate, h.paired]
      rfl
    · rw [hasFlag_or hclstate, Bool.or_eq_true]
      exact Or.inr (by decide)

theorem segment (h : k.FlagsOk) (hk : handleTCPMain k packet = some (k', out)) : k'.FlagsOk := by
  rcases handleTCPMain_flags hk with ⟨hopen, hrun⟩ | ⟨-, rfl⟩ | ⟨hearly, hclstate, hopen, -⟩
  · obtain ⟨hclstate, hstate⟩ := established_flags hrun
    have hflags := segmentFlags hclstate
    have hstate' : k'.state = .establisted ∨ k'.state = .closed :=
      hstate.imp (fun hsame => hsame.1.trans hopen) And.left
    refine ⟨Or.inr hstate', fun hconn => ?_, fun hearly => ?_, ?_, fun hack => ?_⟩
    · rcases hstate with ⟨hsame, -⟩ | ⟨-, hnone⟩
      · exact hsame.trans hopen
      · rw [hnone] at hconn
        exact absurd hconn Bool.false_ne_true
    · rcases hearly with hearly | hearly <;> rw [hearly] at hstate' <;>
        exact absurd hstate' (by decide)
    · rw [hflags.ackSent, hflags.finRecv, h.paired]
    · rw [hflags.ackRecv, Bool.or_eq_true, Bool.and_eq_true] at hack
      rw [hflags.finSent]
      exact hack.elim h.answered And.right
  · exact h
  · have hflag := hasFlag_congr hclstate
    refine ⟨Or.inr (Or.inl hopen), fun _ => hopen, fun hearly' => ?_, ?_, ?_⟩
    · rw [hflag, hflag]
      exact h.early hearly
    · rw [hflag, hflag]
      exact h.paired
    · rw [hflag, hflag]
      exact h.answered

/-- **Flags and state** go together, whatever the threads and the peer do. -/
theorem step {s s' : Threads} {act : Threads.Action} (h : s.socket.FlagsOk)
    (hs : Threads.step act s = some s') : s'.socket.FlagsOk := by
  cases Threads.moves_of_step hs with
  | refused | writeLab | lookWrite | readLab | lookRead => exact h
  | copyWrite | copyRead => exact h.congr rfl rfl rfl
  | close => exact h.closeLab
  | tick nowtime => exact h.tick nowtime
  | segment packet k out hlen hk => exact h.segment hk

end FlagsOk

end Socket

end LabNetstack
