import LabNetstack.Transport.CloseFlags

/-!
# Writing after the close

Once `closeLab` has been called nothing should be written any more, and nothing should leave behind
the `FIN`. The entry check of `writeLab` means to see to this; but the flag `CL_CALL`, which
`closeLab` sets in `clstate`, is looked for in `state`, where `ST_ESTABLISTED` never has it. And a
call that has passed the check may come to its copy much later. What does keep a socket shut is the
`FIN` of the peer: `CL_FIN_RECV` is looked for where it is.

## Main results

* `Threads.sealed_iff` — in which runs nothing is written after the close, and nothing is sent after
  the `FIN`
-/

namespace LabNetstack

namespace Socket

/-- `closeLab` has been called, or the `FIN` has been sent. -/
def Closing (k : Socket) : Prop := k.hasFlag CLOSEState.call ∨ k.hasFlag CLOSEState.finSent

/-- No call of `writeLab` passes its entry check any more. -/
def Shut (k : Socket) : Prop := k.state = .closed ∨ k.hasFlag CLOSEState.finRecv

instance (k : Socket) : Decidable k.Shut := inferInstanceAs (Decidable (_ ∨ _))

/-- Everything written has been sent and acknowledged. -/
def Drained (k : Socket) : Prop := k.ackBack = k.sendBack ∧ k.sendBack = k.sendFront

variable {k k' : Socket}

theorem FinDue.drained (h : k.FinDue) : k.Drained := ⟨h.2.1, h.2.2.1⟩

theorem Shut.writeRefused (h : k.Shut) : writeRefused k = true := by
  rw [LabNetstack.writeRefused, Bool.or_eq_true, Bool.or_eq_true]
  rcases h with hclosed | hfin
  · rw [hclosed]
    exact Or.inl (Or.inl (by decide))
  · exact Or.inr hfin

theorem writeRefused_of_open (hopen : k.state = .establisted)
    (hfin : k.hasFlag CLOSEState.finRecv = false) : LabNetstack.writeRefused k = false := by
  rw [LabNetstack.writeRefused, hopen, hfin]
  decide

/-- A timer that finds nothing to send leaves the send ring as it is. -/
theorem Drained.tick (h : k.Drained) (now : ℕ) : (asyncSendTCPPacket now k).1.Drained ∧
    (asyncSendTCPPacket now k).1.sendFront = k.sendFront ∧
    ∀ packet ∈ (asyncSendTCPPacket now k).2, packet.data = [] := by
  obtain ⟨hframe, ⟨hback, hdata⟩ | ⟨-, len, hpos, -, hlen, -⟩⟩ := tick_cases now k
  · have hfront : (asyncSendTCPPacket now k).1.sendFront = k.sendFront := by rw [hframe]
    have hack : (asyncSendTCPPacket now k).1.ackBack = k.ackBack := by rw [hframe]
    refine ⟨⟨?_, ?_⟩, hfront, fun packet hpacket => ?_⟩
    · rw [hack, hback, h.1]
    · rw [hback, hfront, h.2]
    · rw [hdata packet hpacket]
      exact inFlight_eq_nil_iff.mpr h.1.symm
  · have hnil : k.unsent = [] := ring_eq_nil_iff.mpr h.2.symm
    rw [hnil, List.length_nil] at hlen
    omega

end Socket

/-- A call of `writeLab` that will not copy anything into a drained ring. -/
def Phase.Harmless : Phase (List Byte) → Prop
  | .idle => True
  | .measuring buf | .testing buf => buf = []
  | .copying _ _ => False

namespace Threads

variable {s s' : Threads} {act : Action} {i : ℕ}

/-- Nothing is written after the close, and nothing is sent behind the `FIN`, in this state and all
that can be reached from it. -/
structure Sealed (s : Threads) : Prop where
  refused : s.socket.Closing → ∀ more s' i buf, Run.run step more s = some s' →
    s'.writers i = .idle → step (.writeLab i buf) s' = some s'
  sendFront : s.socket.hasFlag CLOSEState.finSent → ∀ more s', Run.run step more s = some s' →
    s'.socket.sendFront = s.socket.sendFront
  silent : s.socket.hasFlag CLOSEState.finSent → ∀ more s' nowtime,
    Run.run step more s = some s' → ∀ packet ∈ (asyncSendTCPPacket nowtime s'.socket).2,
      packet.data = []

/-- The condition on a step: `closeLab` is called when the socket is shut already, and the `FIN` is
sent when no thread is in `writeLab` that may still copy. -/
def SealsShut : Action → Threads → Prop
  | .close, s => s.socket.Shut
  | .tick _, s => s.socket.FinDue → s.socket.hasFlag CLOSEState.finSent = false →
    ∀ i, (s.writers i).Harmless
  | _, _ => True

/-! ### Single steps -/

/-- A call of `writeLab` is refused, or begins. -/
theorem step_writeLab {buf : List Byte} (hs : step (.writeLab i buf) s = some s') :
    s' = s ∨ writeRefused s.socket = false ∧
      s' = { s with writers := Function.update s.writers i (.measuring buf) } := by
  simp only [step] at hs
  split at hs
  · split_ifs at hs with hrefused
    · exact Or.inl (Option.some.inj hs).symm
    · exact Or.inr ⟨by simpa using hrefused, (Option.some.inj hs).symm⟩
  · cases hs

theorem writeLab_of_idle {buf : List Byte} (hidle : s.writers i = .idle) :
    step (.writeLab i buf) s = some s ↔ writeRefused s.socket = true := by
  simp only [step, hidle]
  split_ifs with hrefused
  · exact iff_of_true rfl hrefused
  · refine iff_of_false (fun heq => ?_) hrefused
    have hwriters : Function.update s.writers i (.measuring buf) i = s.writers i :=
      congrFun (congrArg Threads.writers (Option.some.inj heq)) i
    rw [Function.update_self, hidle] at hwriters
    cases hwriters

/-- A socket that is shut stays shut. -/
theorem shut_step (h : s.socket.Shut) (hs : step act s = some s') : s'.socket.Shut := by
  cases moves_of_step hs with
  | refused | writeLab | lookWrite | readLab | lookRead | copyWrite | copyRead => exact h
  | close =>
    refine h.imp id fun hfin => ?_
    rw [Socket.hasFlag_or rfl, hfin]
    rfl
  | tick nowtime =>
    have hframe := (Socket.tick_cases nowtime s.socket).1
    refine h.imp (fun hclosed => ?_) fun hfin => ?_
    · simp only
      rw [hframe]
      exact hclosed
    · rcases Socket.tick_flags nowtime s.socket with ⟨hclstate, -⟩ | ⟨-, hclstate⟩
      · rw [Socket.hasFlag_congr hclstate]
        exact hfin
      · rw [Socket.hasFlag_or hclstate, hfin]
        rfl
  | segment packet k out hlen hk =>
    rcases handleTCPMain_flags hk with ⟨hopen, hrun⟩ | ⟨-, rfl⟩ | ⟨hearly, hclstate, -⟩
    · obtain ⟨hclstate, hstate⟩ := established_flags hrun
      rcases h with hclosed | hfin
      · rw [hopen] at hclosed
        cases hclosed
      · refine Or.inr ?_
        rw [(segmentFlags hclstate).finRecv, hfin]
        rfl
    · exact h
    · refine Or.inr ?_
      rw [Socket.hasFlag_congr hclstate]
      rcases h with hclosed | hfin
      · rcases hearly with hearly | hearly <;> rw [hearly] at hclosed <;> cases hclosed
      · exact hfin

/-- Who changes the flags. -/
theorem clstate_step (hs : step act s = some s') :
    s'.socket.clstate = s.socket.clstate ∨
      (act = .close ∧ s'.socket.clstate = s.socket.clstate ||| CLOSEState.call) ∨
      ((∃ nowtime, act = .tick nowtime) ∧ s.socket.FinDue ∧
        s'.socket.clstate = s.socket.clstate ||| CLOSEState.finSent) ∨
      ∃ packet, SegmentFlags s.socket packet s'.socket := by
  cases moves_of_step hs with
  | refused | writeLab | lookWrite | readLab | lookRead | copyWrite | copyRead => exact Or.inl rfl
  | close => exact Or.inr (Or.inl ⟨rfl, rfl⟩)
  | tick nowtime =>
    rcases Socket.tick_flags nowtime s.socket with ⟨hclstate, -⟩ | ⟨hdue, hclstate⟩
    · exact Or.inl hclstate
    · exact Or.inr (Or.inr (Or.inl ⟨⟨nowtime, rfl⟩, hdue, hclstate⟩))
  | segment packet k out hlen hk =>
    rcases handleTCPMain_flags hk with ⟨-, hrun⟩ | ⟨-, rfl⟩ | ⟨-, hclstate, -⟩
    · exact Or.inr (Or.inr (Or.inr ⟨packet, segmentFlags (established_flags hrun).1⟩))
    · exact Or.inl rfl
    · exact Or.inl hclstate

/-- Who sets `CL_CALL`. -/
theorem call_step (hcall : s'.socket.hasFlag CLOSEState.call) (hs : step act s = some s') :
    s.socket.hasFlag CLOSEState.call ∨ act = .close := by
  rcases clstate_step hs with hclstate | ⟨hact, -⟩ | ⟨-, -, hclstate⟩ | ⟨packet, hflags⟩
  · rw [Socket.hasFlag_congr hclstate] at hcall
    exact Or.inl hcall
  · exact Or.inr hact
  · rw [Socket.hasFlag_or hclstate, Bool.or_eq_true] at hcall
    exact Or.inl (hcall.resolve_right (by decide))
  · rw [hflags.call] at hcall
    exact Or.inl hcall

/-- Who sends the `FIN`. -/
theorem finSent_step (hfin : s'.socket.hasFlag CLOSEState.finSent) (hs : step act s = some s') :
    s.socket.hasFlag CLOSEState.finSent ∨
      ((∃ nowtime, act = .tick nowtime) ∧ s.socket.FinDue) := by
  rcases clstate_step hs with hclstate | ⟨-, hclstate⟩ | ⟨htick, hdue, -⟩ | ⟨packet, hflags⟩
  · rw [Socket.hasFlag_congr hclstate] at hfin
    exact Or.inl hfin
  · rw [Socket.hasFlag_or hclstate, Bool.or_eq_true] at hfin
    exact Or.inl (hfin.resolve_right (by decide))
  · exact Or.inr ⟨htick, hdue⟩
  · rw [hflags.finSent] at hfin
    exact Or.inl hfin

/-! ### After the `FIN` -/

/-- Nothing is left to be sent, and nobody is left to write. -/
structure Quiet (s : Threads) : Prop where
  flags : s.socket.FlagsOk
  shut : s.socket.Shut
  drained : s.socket.Drained
  harmless : ∀ i, (s.writers i).Harmless

/-- The phase that a thread goes on to, in a drained ring. -/
theorem harmless_look {phase phase' : Phase (List Byte)} {closed : Bool} (k : Socket)
    (h : phase.Harmless)
    (hlook : phase.look (fun buf => sendByte k buf.length) closed = some phase') :
    phase'.Harmless := by
  cases phase with
  | measuring buf =>
    have hnil : buf = [] := h
    have hzero : ¬ 0 < sendByte k buf.length := by
      rw [zero_lt_iff_toNat, sendByte, toNat_clamp, hnil, List.length_nil, Nat.zero_min]
      exact lt_irrefl 0
    rw [Phase.look, if_neg hzero] at hlook
    exact Option.some.inj hlook ▸ hnil
  | testing buf =>
    have hnil : buf = [] := h
    rw [Phase.look, Option.some.injEq] at hlook
    split_ifs at hlook
    · exact hlook ▸ trivial
    · exact hlook ▸ hnil
  | idle | copying => cases hlook

theorem forall_harmless_update {f : ℕ → Phase (List Byte)} {phase : Phase (List Byte)}
    (hf : ∀ j, (f j).Harmless) (hphase : phase.Harmless) (i : ℕ) :
    ∀ j, (Function.update f i phase j).Harmless := by
  intro j
  by_cases heq : j = i
  · subst heq
    rw [Function.update_self]
    exact hphase
  · rw [Function.update_of_ne heq]
    exact hf j

/-- **After the `FIN`.** Whatever happens then, nothing is written. -/
theorem Quiet.step (h : s.Quiet) (hs : step act s = some s') :
    s'.Quiet ∧ s'.socket.sendFront = s.socket.sendFront := by
  have hflags := h.flags.step hs
  have hshut := shut_step h.shut hs
  cases act with
  | writeLab i buf =>
    rcases step_writeLab hs with rfl | ⟨hallowed, -⟩
    · exact ⟨h, rfl⟩
    · rw [h.shut.writeRefused] at hallowed
      cases hallowed
  | lookWrite i =>
    obtain ⟨phase, hphase, rfl⟩ := Option.map_eq_some_iff.mp hs
    exact ⟨⟨hflags, hshut, h.drained,
      forall_harmless_update h.harmless (harmless_look _ (h.harmless i) hphase) i⟩, rfl⟩
  | copyWrite i =>
    cases moves_of_step hs with
    | copyWrite i buf n hphase =>
      have hharmless := h.harmless i
      rw [hphase] at hharmless
      exact hharmless.elim
  | tick nowtime =>
    obtain rfl := Option.some.inj hs
    obtain ⟨hdrained, hfront, -⟩ := h.drained.tick nowtime
    exact ⟨⟨hflags, hshut, hdrained, h.harmless⟩, hfront⟩
  | segment packet =>
    cases moves_of_step hs with
    | segment packet k out hlen hk =>
      have hdone : k.Drained ∧ k.sendFront = s.socket.sendFront := by
        rcases h.flags.state with hearly | hopen
        · -- a connection that is still being opened has no flags
          rcases h.shut with hclosed | hfin
          · rcases hearly with hearly | hearly <;> rw [hearly] at hclosed <;> cases hclosed
          · rw [(h.flags.early hearly).2] at hfin
            exact absurd hfin Bool.false_ne_true
        · obtain ⟨hback, hfront, hack⟩ := Socket.segment_cases hopen hk
          refine ⟨⟨?_, by rw [hback, hfront]; exact h.drained.2⟩, hfront⟩
          rw [hback]
          rcases hack with hack | hack
          · exact hack.trans h.drained.1
          · exact hack
      exact ⟨⟨hflags, hshut, hdone.1, h.harmless⟩, hdone.2⟩
  | readLab | lookRead | copyRead =>
    cases moves_of_step hs with
    | _ => exact ⟨⟨hflags, hshut, h.drained, h.harmless⟩, rfl⟩
  | close =>
    obtain rfl := Option.some.inj hs
    exact ⟨⟨hflags, hshut, h.drained, h.harmless⟩, rfl⟩

theorem Quiet.run {acts : List Action} (h : s.Quiet)
    (hrun : Run.run Threads.step acts s = some s') :
    s'.Quiet ∧ s'.socket.sendFront = s.socket.sendFront := by
  refine Run.invariant (p := fun t => t.Quiet ∧ t.socket.sendFront = s.socket.sendFront)
    (fun act t t' ht hs => ?_) ⟨h, rfl⟩ hrun
  obtain ⟨hquiet, hfront⟩ := ht.1.step hs
  exact ⟨hquiet, hfront.trans ht.2⟩

/-! ### Exactly when -/

/-- What is so of every state, as long as the socket is only closed when it is shut. -/
structure SealOk (s : Threads) : Prop where
  flags : s.socket.FlagsOk
  sizes : ∀ i buf n, s.writers i = .copying buf n → 0 < n.toNat
  few : ∃ n, ∀ i, n ≤ i → s.writers i = .idle
  closing : s.socket.Closing → s.socket.Shut
  finished : s.socket.hasFlag CLOSEState.finSent → s.Quiet

theorem SealOk.isSealed (h : s.SealOk) : s.Sealed where
  refused hclosing more s' i buf hrun hidle := by
    have hshut : s'.socket.Shut :=
      Run.invariant (p := fun t => t.socket.Shut) (fun _ _ _ => shut_step) (h.closing hclosing) hrun
    exact (writeLab_of_idle hidle).mpr hshut.writeRefused
  sendFront hfin _ _ hrun := ((h.finished hfin).run hrun).2
  silent hfin _ _ nowtime hrun := (((h.finished hfin).run hrun).1.drained.tick nowtime).2.2

/-- Only finitely many threads are in a call. -/
theorem few_update (h : ∃ n, ∀ i, n ≤ i → s.writers i = .idle) (i : ℕ) (phase : Phase (List Byte)) :
    ∃ n, ∀ j, n ≤ j → Function.update s.writers i phase j = .idle := by
  obtain ⟨n, hn⟩ := h
  refine ⟨max n (i + 1), fun j hj => ?_⟩
  rw [Function.update_of_ne (by omega)]
  exact hn j (by omega)

theorem SealOk.sizes_step (h : s.SealOk) (hs : step act s = some s') :
    ∀ i buf n, s'.writers i = .copying buf n → 0 < n.toNat := by
  cases moves_of_step hs with
  | writeLab i buf | copyWrite i buf n hphase =>
    exact Phase.forall_update h.sizes fun _ _ hp => by cases hp
  | lookWrite i phase hphase =>
    refine Phase.forall_update h.sizes fun buf n hp => ?_
    subst hp
    cases hwriter : s.writers i with
    | measuring buf' =>
      rw [hwriter, Phase.look, Option.some.injEq] at hphase
      split_ifs at hphase with hpos
      obtain ⟨rfl, rfl⟩ := Phase.copying.inj hphase
      exact (zero_lt_iff_toNat _).mp hpos
    | testing buf' =>
      rw [hwriter, Phase.look, Option.some.injEq] at hphase
      split_ifs at hphase
    | idle | copying =>
      rw [hwriter] at hphase
      cases hphase
  | refused | readLab | lookRead | copyRead | close | tick | segment => exact h.sizes

theorem SealOk.few_step (h : s.SealOk) (hs : step act s = some s') :
    ∃ n, ∀ i, n ≤ i → s'.writers i = .idle := by
  cases moves_of_step hs with
  | writeLab i buf | copyWrite i buf n hphase => exact few_update h.few i _
  | lookWrite i phase hphase => exact few_update h.few i phase
  | refused | readLab | lookRead | copyRead | close | tick | segment => exact h.few

/-- **One step.** -/
theorem SealOk.step (h : s.SealOk) (hs : Threads.step act s = some s') (hc : SealsShut act s) :
    s'.SealOk := by
  have hflags := h.flags.step hs
  have hclosing : s'.socket.Closing → s'.socket.Shut := by
    intro hclosing
    refine shut_step ?_ hs
    rcases hclosing with hcall | hfin
    · rcases call_step hcall hs with hbefore | rfl
      · exact h.closing (Or.inl hbefore)
      · exact hc
    · rcases finSent_step hfin hs with hbefore | ⟨-, hdue⟩
      · exact h.closing (Or.inr hbefore)
      · have hreason := hdue.2.2.2
        rw [Bool.or_eq_true, Bool.and_eq_true] at hreason
        rcases hreason with hfin | hcall
        · exact Or.inr hfin.1
        · exact h.closing (Or.inl hcall)
  refine ⟨hflags, h.sizes_step hs, h.few_step hs, hclosing, fun hfin => ?_⟩
  by_cases hbefore : s.socket.hasFlag CLOSEState.finSent
  · exact ((h.finished hbefore).step hs).1
  · rcases finSent_step hfin hs with hbefore' | ⟨⟨nowtime, rfl⟩, hdue⟩
    · exact absurd hbefore' hbefore
    · obtain rfl := Option.some.inj hs
      exact ⟨hflags, hclosing (Or.inr hfin), (hdue.drained.tick nowtime).1,
        hc hdue (by simpa using hbefore)⟩

/-- A peer's answer to a `SYN`, which is an acknowledgement too. -/
def synAckSegment : TCPPacket := ⟨0, 0, createTCPHeader 0 0 0 0 (ctSyn ||| ctAck) 0xffff, []⟩

/-- A socket that is not shut can still become one that is written to. -/
theorem exists_open (h : s.socket.FlagsOk) (hshut : ¬ s.socket.Shut) :
    ∃ more s', Run.run step more s = some s' ∧ s'.socket.state = .establisted ∧
      s'.socket.hasFlag CLOSEState.finRecv = false ∧ s'.writers = s.writers := by
  obtain ⟨hclosed, hfin⟩ := not_or.mp hshut
  rw [Bool.not_eq_true] at hfin
  rcases h.state with hearly | hopen | hclosed'
  · obtain ⟨k, out, hk, hstate, hclstate⟩ : ∃ k out,
        handleTCPMain s.socket synAckSegment = some (k, out) ∧ k.state = .establisted ∧
          k.clstate = s.socket.clstate := by
      rcases hearly with hstate | hstate
      · rw [handleTCPMain, hstate]
        exact ⟨_, _, rfl, rfl, rfl⟩
      · rw [handleTCPMain, hstate]
        exact ⟨_, _, rfl, rfl, rfl⟩
    obtain ⟨t, hstep, hsocket, hwriters⟩ : ∃ t, step (.segment synAckSegment) s = some t ∧
        t.socket = k ∧ t.writers = s.writers := by
      rw [step, if_pos (by decide), hk]
      exact ⟨_, rfl, rfl, rfl⟩
    refine ⟨[.segment synAckSegment], t, Run.run_cons_some hstep [], hsocket ▸ hstate, ?_, hwriters⟩
    rw [hsocket, Socket.hasFlag_congr hclstate]
    exact hfin
  · exact ⟨[], s, rfl, hopen, hfin, rfl⟩
  · exact absurd hclosed' hclosed

/-- What `lookWrite` finds in a drained ring. -/
theorem sendByte_pos {k : Socket} (h : k.Drained) {buf : List Byte} (hbuf : buf ≠ []) :
    0 < sendByte k buf.length := by
  have hroom : (k.ackBack - 1 - k.sendFront).toNat = 65535 := by
    rw [h.1, h.2, BitVec.sub_sub, BitVec.add_comm, ← BitVec.sub_sub, BitVec.sub_self]
    decide
  have hpos := List.length_pos_iff.mpr hbuf
  rw [zero_lt_iff_toNat, sendByte, toNat_clamp, hroom]
  omega

/-- A thread that may still copy can do so. -/
theorem exists_copy (hsizes : ∀ i buf n, s.writers i = .copying buf n → 0 < n.toNat)
    (hopen : s.socket.state = .establisted) (hdrained : s.socket.Drained)
    (hharm : ¬ (s.writers i).Harmless) :
    ∃ more s', Run.run step more s = some s' ∧ s'.socket.sendFront ≠ s.socket.sendFront := by
  -- the copy itself
  have hcopy : ∀ t : Threads, t.socket = s.socket → ∀ buf n, t.writers i = .copying buf n →
      0 < n.toNat → ∃ t', step (.copyWrite i) t = some t' ∧
        t'.socket.sendFront ≠ s.socket.sendFront := by
    intro t hsocket buf n hphase hpos
    refine ⟨_, by simp only [step, hphase]; rfl, fun heq => ?_⟩
    simp only [writeCommit, hsocket] at heq
    have hzero : n = 0 := BitVec.add_right_eq_self.mp heq
    rw [hzero] at hpos
    exact absurd hpos (by decide)
  -- the look that leads to it
  have hlook : ∀ t : Threads, t.socket = s.socket → ∀ buf, t.writers i = .measuring buf →
      buf ≠ [] → ∃ t' t'', step (.lookWrite i) t = some t' ∧ step (.copyWrite i) t' = some t'' ∧
        t''.socket.sendFront ≠ s.socket.sendFront := by
    intro t hsocket buf hphase hbuf
    have hpos := sendByte_pos hdrained hbuf
    have hstep : step (.lookWrite i) t = some { t with
        writers := Function.update t.writers i (.copying buf (sendByte s.socket buf.length)) } := by
      rw [step, hphase, hsocket, Phase.look, if_pos hpos, Option.map_some]
    obtain ⟨t', hcopy', hfront⟩ := hcopy { t with
      writers := Function.update t.writers i (.copying buf (sendByte s.socket buf.length)) } hsocket
      buf (sendByte s.socket buf.length) (Function.update_self ..) ((zero_lt_iff_toNat _).mp hpos)
    exact ⟨_, t', hstep, hcopy', hfront⟩
  cases hphase : s.writers i with
  | idle =>
    rw [hphase] at hharm
    exact absurd trivial hharm
  | measuring buf =>
    rw [hphase] at hharm
    obtain ⟨t, t', hs, hs', hfront⟩ := hlook s rfl buf hphase hharm
    exact ⟨[.lookWrite i, .copyWrite i], t',
      (Run.run_cons_some hs _).trans (Run.run_cons_some hs' []), hfront⟩
  | testing buf =>
    rw [hphase] at hharm
    have hstep : step (.lookWrite i) s = some { s with
        writers := Function.update s.writers i (.measuring buf) } := by
      have hnot : ¬ decide (s.socket.state = .closed) = true := by
        rw [hopen]
        decide
      rw [step, hphase, Phase.look, if_neg hnot, Option.map_some]
    obtain ⟨t, t', hs, hs', hfront⟩ := hlook { s with
      writers := Function.update s.writers i (.measuring buf) } rfl buf (Function.update_self ..)
      hharm
    exact ⟨[.lookWrite i, .lookWrite i, .copyWrite i], t', (Run.run_cons_some hstep _).trans
      ((Run.run_cons_some hs _).trans (Run.run_cons_some hs' [])), hfront⟩
  | copying buf n =>
    obtain ⟨t, hs, hfront⟩ := hcopy s rfl buf n hphase (hsizes i buf n hphase)
    exact ⟨[.copyWrite i], t, Run.run_cons_some hs [], hfront⟩

/-- A close of a socket that is not shut lets a later call write, and a `FIN` that is sent too early
is followed by a copy. -/
theorem SealOk.sealsShut (h : s.SealOk) (hs : Threads.step act s = some s') (hsealed : s'.Sealed) :
    SealsShut act s := by
  cases moves_of_step hs with
  | close =>
    by_contra hshut
    have hclosing : (closeLab s.socket).Closing := by
      refine Or.inl ?_
      rw [Socket.hasFlag_or rfl, Bool.or_eq_true]
      exact Or.inr (by decide)
    have hshut' : ¬ (closeLab s.socket).Shut := by
      rw [Socket.Shut, Socket.hasFlag_or (k := s.socket) rfl, Bool.or_eq_true]
      rintro (hclosed | hfin | hcall)
      · exact hshut (Or.inl hclosed)
      · exact hshut (Or.inr hfin)
      · exact absurd hcall (by decide)
    obtain ⟨more, t, hrun, hopen, hfin, hwriters⟩ :=
      exists_open (s := { s with socket := closeLab s.socket }) h.flags.closeLab hshut'
    obtain ⟨n, hn⟩ := h.few
    have hidle : t.writers n = .idle := by
      rw [hwriters]
      exact hn n le_rfl
    have hrefused := (writeLab_of_idle hidle).mp (hsealed.refused hclosing more t n [] hrun hidle)
    rw [Socket.writeRefused_of_open hopen hfin] at hrefused
    cases hrefused
  | tick nowtime =>
    intro hdue hfin j
    by_contra hharm
    have hopen : (asyncSendTCPPacket nowtime s.socket).1.state = .establisted := by
      rw [(Socket.tick_cases nowtime s.socket).1]
      exact h.flags.isConnection hdue.1
    have hsent : (asyncSendTCPPacket nowtime s.socket).1.hasFlag CLOSEState.finSent := by
      rcases Socket.tick_flags nowtime s.socket with ⟨-, hbefore⟩ | ⟨-, hclstate⟩
      · rw [hbefore hdue] at hfin
        cases hfin
      · rw [Socket.hasFlag_or hclstate, Bool.or_eq_true]
        exact Or.inr (by decide)
    obtain ⟨more, t, hrun, hfront⟩ := exists_copy (h.sizes_step hs) hopen
      (hdue.drained.tick nowtime).1 hharm
    exact hfront (hsealed.sendFront hsent more t hrun)
  | refused | writeLab | lookWrite | copyWrite | readLab | lookRead | copyRead | segment => trivial

theorem start_sealOk {k : Socket} (hk : k.Fresh) : (start k).SealOk := by
  have hnone : ∀ flag, k.hasFlag flag = false := by
    intro flag
    rw [Socket.hasFlag, hk.clstate]
    exact bne_eq_false_iff_eq.mpr BitVec.zero_and
  refine ⟨hk.flagsOk, fun i buf n hidle => ?_, ⟨0, fun _ _ => rfl⟩, ?_, fun hfin => ?_⟩
  · cases hidle
  · rintro (hcall | hfin)
    · exact absurd ((hnone _).symm.trans hcall) Bool.false_ne_true
    · exact absurd ((hnone _).symm.trans hfin) Bool.false_ne_true
  · exact absurd ((hnone _).symm.trans hfin) Bool.false_ne_true

/-- **Writing after the close.** All along a run of any number of threads nothing is written after
the close, and nothing is sent behind the `FIN`, exactly if `closeLab` is only called when the `FIN`
of the peer is there or the socket is closed already, and no `FIN` is sent while a thread that has
passed the entry check of `writeLab` may still copy. -/
theorem sealed_iff {k : Socket} (hk : k.Fresh) {acts : List Action}
    (hrun : Run.run step acts (start k) = some s) :
    (∀ before after t, acts = before ++ after → Run.run step before (start k) = some t →
      t.Sealed) ↔ Run.Meets step SealsShut acts (start k) :=
  (Run.meets_iff (a := fun _ _ => True) (p := SealOk) (fun _ => SealOk.isSealed)
    (fun _ _ _ _ h => h.step) (fun _ _ _ _ h => h.sealsShut)
    (Run.meets_of_forall fun _ _ => trivial) (start_sealOk hk) hrun).symm

theorem fresh_answeredClient : Solo.answeredClient.Fresh :=
  ⟨by decide, by decide, by decide⟩

/-- A byte is written; the peer closes, and then the application. -/
def answerClose : List Action :=
  [.writeLab 0 [7], .lookWrite 0, .copyWrite 0,
    .segment ⟨0, 0, createTCPHeader 0 0 1 0 ctFin 0xffff, []⟩, .close]

theorem sealed_iff_answerClose :
    (∀ before after t, answerClose = before ++ after →
      Run.run step before (start Solo.answeredClient) = some t → t.Sealed) ↔
    Run.Meets step SealsShut answerClose (start Solo.answeredClient) :=
  sealed_iff fresh_answeredClient
    (Option.some_get (x := Run.run step answerClose (start Solo.answeredClient)) (by decide)).symm

/-- A socket that has been closed is written to. -/
theorem not_sealed : ¬ ∀ (k : Socket) (acts : List Action) (s : Threads), k.Fresh →
    Run.run step acts (start k) = some s → s.Sealed := by
  intro hclaim
  let s := (Run.run step [.close] (start Solo.answeredClient)).get (by decide)
  have hsealed : s.Sealed := hclaim Solo.answeredClient [.close] s fresh_answeredClient
    (Option.some_get _).symm
  have hback : step (.writeLab 0 [7]) s = some s :=
    hsealed.refused (Or.inl (by decide)) [] s 0 [7] rfl rfl
  have hrefused : writeRefused s.socket = true := (writeLab_of_idle rfl).mp hback
  exact absurd hrefused (by decide)

end Threads

end LabNetstack
