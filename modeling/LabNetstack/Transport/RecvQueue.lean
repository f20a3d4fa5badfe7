import LabNetstack.Transport.Threads

/-!
# The receive ring of one reader

With a single thread in `readLab` the size of a copy is always still there when it is made, since
segments only append. The receive ring is then a queue of what has arrived in sequence. Its front
moves with `ackNum`, from wherever the numbers of the peer began.

## Main results

* `Threads.recv_queue` — the receive ring of a socket with one reader
-/

namespace LabNetstack

open RingMemory

namespace Threads

/-- The thread that takes a step in `readLab`. -/
def Action.reader : Action → Option ℕ
  | .readLab i _ | .lookRead i | .copyRead i => some i
  | _ => none

/-- No thread but `i` is in `readLab`. -/
def OneReader (i : ℕ) (act : Action) : Prop := ∀ j ∈ act.reader, j = i

instance (i : ℕ) (act : Action) : Decidable (OneReader i act) :=
  inferInstanceAs (Decidable (∀ j ∈ act.reader, j = i))

/-- The receive ring as a queue of what has arrived in sequence and has not been read; `ackNum` was
`first` when the socket was connected. -/
structure RecvQueue (first : BitVec 32) (s : Threads) : Prop where
  kept : s.returned ++ s.socket.unread = s.received
  inStep : (s.socket.ackNum - first).setWidth 16 = s.socket.recvFront
  aligned_iff : s.socket.ackNum.setWidth 16 = s.socket.recvFront ↔ first.setWidth 16 = 0
  /-- A segment with another number changes nothing. -/
  others : ∀ packet k out, packet.data.length < 2 ^ 16 →
    handleTCPMain s.socket packet = some (k, out) → ¬ packet.InSequence s.socket →
    k.recvSide = s.socket.recvSide
  /-- A segment that has been taken changes nothing when it is delivered again. -/
  again : ∀ packet k out k' out', 0 < packet.data.length → packet.data.length < 2 ^ 16 →
    handleTCPMain s.socket packet = some (k, out) → packet.InSequence s.socket →
    handleTCPMain k packet = some (k', out') → k'.recvSide = k.recvSide
  /-- Data and probes are answered with what has been accepted and with the free space. -/
  answers : ∀ packet k out, packet.data.length < 2 ^ 16 →
    handleTCPMain s.socket packet = some (k, out) →
    ∀ answer ∈ out.drop (if packet.IsFin then 1 else 0), answer.Reports k

variable {s s' : Threads} {act : Action} {i : ℕ} {first : BitVec 32} {k k' : Socket}
  {packet : TCPPacket} {out out' : List TCPPacket}

/-! ### One segment -/

/-- The receive side of an open or closed socket after a segment. -/
theorem handleTCPMain_recv (hstate : k.state = .establisted ∨ k.state = .closed)
    (hlen : packet.data.length < 2 ^ 16) (h : handleTCPMain k packet = some (k', out)) :
    Accepts k (if k.state = .establisted then packet.payload k else []) k' ∧
      (¬ packet.InSequence k → k'.recvSide = k.recvSide) ∧
      ∀ answer ∈ out.drop (if packet.IsFin then 1 else 0), answer.Reports k' := by
  rcases hstate with hopen | hclosed
  · rw [handleTCPMain, hopen] at h
    obtain ⟨-, haccepts, hothers, hout⟩ := established_recv hlen h
    refine ⟨by rw [if_pos hopen]; exact haccepts, hothers, fun answer hanswer => ?_⟩
    rw [hout] at hanswer
    split_ifs at hanswer
    · rw [List.mem_singleton.mp hanswer]
      exact reports_replyAck k'
    · simp at hanswer
  · rw [handleTCPMain, hclosed] at h
    obtain ⟨rfl, rfl⟩ := Prod.mk.inj (Option.some.inj h)
    refine ⟨?_, fun _ => rfl, by simp⟩
    rw [if_neg (by rw [hclosed]; decide)]
    exact accepts_nil rfl

/-- A socket that has taken a segment expects another number. -/
theorem not_inSequence_again (hlen : packet.data.length < 2 ^ 16) (hpos : 0 < packet.data.length)
    (hseq : packet.InSequence k) (haccepts : Accepts k packet.data k') :
    ¬ packet.InSequence k' := by
  intro hagain
  have hsame : k.ackNum + BitVec.ofNat 32 packet.data.length = k.ackNum := by
    rw [← haccepts.ackNum, ← hagain, hseq]
  have hzero := congrArg BitVec.toNat (BitVec.add_right_eq_self.mp hsame)
  rw [BitVec.toNat_ofNat, Nat.mod_eq_of_lt (by omega)] at hzero
  exact hpos.ne' hzero

theorem recvSide_again (hstate : k.state = .establisted ∨ k.state = .closed)
    (hlen : packet.data.length < 2 ^ 16) (hpos : 0 < packet.data.length)
    (hseq : packet.InSequence k) (h : handleTCPMain k packet = some (k', out)) {k'' : Socket}
    (h' : handleTCPMain k' packet = some (k'', out')) : k''.recvSide = k'.recvSide := by
  have hstate' := (Solo.handleTCPMain_cases hstate h).1
  obtain ⟨haccepts, -, -⟩ := handleTCPMain_recv hstate hlen h
  rcases hstate with hopen | hclosed
  · rw [if_pos hopen, TCPPacket.payload, if_pos hseq] at haccepts
    exact (handleTCPMain_recv hstate' hlen h').2.1 (not_inSequence_again hlen hpos hseq haccepts)
  · rw [handleTCPMain, hclosed] at h
    obtain ⟨rfl, -⟩ := Prod.mk.inj (Option.some.inj h)
    rw [handleTCPMain, hclosed] at h'
    obtain ⟨rfl, -⟩ := Prod.mk.inj (Option.some.inj h')
    rfl

/-- `ackNum` and the front of the ring move together. -/
def InStep (first : BitVec 32) (k : Socket) : Prop := (k.ackNum - first).setWidth 16 = k.recvFront

theorem InStep.accepts (h : InStep first k) {data : List Byte} (haccepts : Accepts k data k') :
    InStep first k' := by
  have hlow : ∀ a b c : BitVec 32, (a + b - c).setWidth 16
      = (a - c).setWidth 16 + b.setWidth 16 := by
    intro a b c
    refine BitVec.eq_of_toNat_eq ?_
    have := a.isLt
    have := b.isLt
    have := c.isLt
    simp only [BitVec.toNat_setWidth, BitVec.toNat_sub, BitVec.toNat_add]
    omega
  rw [InStep, haccepts.ackNum, haccepts.recvFront, hlow, h, BitVec.setWidth_ofNat_of_le (by decide)]

theorem InStep.aligned_iff (h : InStep first k) :
    k.ackNum.setWidth 16 = k.recvFront ↔ first.setWidth 16 = 0 := by
  have hnum := k.ackNum.isLt
  have hfirst := first.isLt
  have hzero : (0 : BitVec 16).toNat = 0 := rfl
  rw [← h, ← BitVec.toNat_inj, ← BitVec.toNat_inj, hzero]
  simp only [BitVec.toNat_setWidth, BitVec.toNat_sub]
  omega

theorem InStep.step (h : InStep first s.socket)
    (hstate : s.socket.state = .establisted ∨ s.socket.state = .closed)
    (hs : Threads.step act s = some s') : InStep first s'.socket := by
  cases moves_of_step hs with
  | tick nowtime =>
    have heq := (Socket.tick_cases nowtime s.socket).1
    simp only
    rw [InStep, heq]
    exact h
  | segment packet k out hlen hk => exact h.accepts (handleTCPMain_recv hstate hlen hk).1
  | refused | writeLab | lookWrite | copyWrite | readLab | lookRead | copyRead | close => exact h

/-! ### One reader -/

/-- What has been received stays, and is returned only by a copy. -/
theorem step_received (hs : step act s = some s') :
    s.received <+: s'.received ∧ ((∀ i, act ≠ .copyRead i) → s'.returned = s.returned) := by
  cases moves_of_step hs with
  | copyRead i nbyte n hphase => exact ⟨List.prefix_rfl, fun hne => absurd rfl (hne i)⟩
  | segment packet k out hlen hk => exact ⟨List.prefix_append .., fun _ => rfl⟩
  | refused | writeLab | lookWrite | copyWrite | readLab | lookRead | close | tick =>
    exact ⟨List.prefix_rfl, fun _ => rfl⟩

/-- Only `i` is in `readLab`, and the size it has computed is still there. -/
structure SoleReader (i : ℕ) (s : Threads) : Prop where
  idle : ∀ j, j ≠ i → s.readers j = .idle
  fits : (s.readers i).size ≤ s.socket.unread.length

theorem SoleReader.fitsRead (h : SoleReader i s) (hone : OneReader i act) : FitsRead act s := by
  cases act with
  | copyRead j =>
    obtain rfl := hone j rfl
    exact h.fits
  | writeLab | lookWrite | copyWrite | readLab | lookRead | close | tick | segment => trivial

/-- The one reader goes on to another phase. -/
theorem SoleReader.update (h : SoleReader i s) {phase : Phase ℕ}
    (hreaders : s'.readers = Function.update s.readers i phase)
    (hfits : phase.size ≤ s'.socket.unread.length) : SoleReader i s' where
  idle j hj := by
    rw [hreaders, Function.update_of_ne hj]
    exact h.idle j hj
  fits := by
    rw [hreaders, Function.update_self]
    exact hfits

/-- **One reader.** What the others do only appends. -/
theorem SoleReader.step (h : SoleReader i s) (hok : s.ReadOk) (hone : OneReader i act)
    (hs : Threads.step act s = some s') : SoleReader i s' := by
  -- as long as nothing is returned the contents do not shrink
  have hmore : (∀ j, act ≠ .copyRead j) → s'.readers = s.readers → SoleReader i s' := by
    intro hne hreaders
    have hlen := congrArg List.length hok.kept
    have hlen' := congrArg List.length (hok.step (h.fitsRead hone) hs).kept
    obtain ⟨hpre, hreturned⟩ := step_received hs
    have hle := hpre.length_le
    have hfits := h.fits
    rw [List.length_append] at hlen hlen'
    rw [hreturned hne] at hlen'
    refine ⟨by rw [hreaders]; exact h.idle, ?_⟩
    rw [hreaders]
    omega
  cases moves_of_step hs with
  | readLab j nbyte =>
    obtain rfl := hone j rfl
    exact h.update rfl (Nat.zero_le _)
  | lookRead j phase hphase =>
    obtain rfl := hone j rfl
    refine h.update rfl ?_
    rcases Phase.size_look hphase with hzero | ⟨nbyte, hsize⟩
    · rw [hzero]
      exact Nat.zero_le _
    · rw [hsize, recvByte, toNat_clamp, Socket.unread, length_ring]
      exact Nat.min_le_right ..
  | copyRead j nbyte n hphase =>
    obtain rfl := hone j rfl
    exact h.update rfl (Nat.zero_le _)
  | refused | writeLab | lookWrite | copyWrite | close | tick | segment =>
    exact hmore (fun _ => by simp) rfl

/-- What a run with one reader keeps. -/
structure ReaderOk (first : BitVec 32) (i : ℕ) (s : Threads) : Prop where
  read : s.ReadOk
  sole : SoleReader i s
  inStep : InStep first s.socket

theorem ReaderOk.step (h : ReaderOk first i s) (hone : OneReader i act)
    (hs : Threads.step act s = some s') : ReaderOk first i s' :=
  ⟨h.read.step (h.sole.fitsRead hone) hs, h.sole.step h.read hone hs, h.inStep.step h.read.state hs⟩

theorem start_readerOk (hk : Solo.Connected k) : ReaderOk k.ackNum i (start k) := by
  refine ⟨(start_ok hk).read, ⟨fun _ _ => rfl, Nat.zero_le _⟩, ?_⟩
  obtain ⟨-, -, -, -, -, hfront, -⟩ := hk.fresh
  show InStep k.ackNum k
  rw [InStep, hfront, BitVec.sub_self]
  rfl

theorem ReaderOk.recvQueue (h : ReaderOk first i s) : s.RecvQueue first where
  kept := h.read.kept
  inStep := h.inStep
  aligned_iff := h.inStep.aligned_iff
  others _ _ _ hlen hk := (handleTCPMain_recv h.read.state hlen hk).2.1
  again _ _ _ _ _ hpos hlen hk hseq hk' := recvSide_again h.read.state hlen hpos hseq hk hk'
  answers _ _ _ hlen hk := (handleTCPMain_recv h.read.state hlen hk).2.2

/-- **The receive ring.** With one reader, any peer and any number of writers, the receive ring is a
queue of what has arrived in sequence. `ackNum` keeps the distance from the front of the ring that
the handshake has given it. -/
theorem recv_queue (hk : Solo.Connected k) {acts : List Action}
    (hone : ∀ act ∈ acts, OneReader i act) (hrun : Run.run step acts (start k) = some s) :
    s.RecvQueue k.ackNum :=
  ReaderOk.recvQueue (Run.Leads.invariant (q := ReaderOk k.ackNum i)
    (fun _ _ _ hact ht hs => ht.step hact hs) ⟨acts, hone, hrun⟩ (start_readerOk hk))

/-- One byte arrives, and is read. -/
def firstRead : List Action :=
  [.segment (Solo.dataSegment 1 [7]), .readLab 0 1, .lookRead 0, .copyRead 0]

theorem recv_queue_firstRead :
    let s := (Run.run step firstRead (start Solo.answeredClient)).get (by decide)
    s.RecvQueue Solo.answeredClient.ackNum :=
  recv_queue (i := 0) Solo.connected_answeredClient (by decide)
    (Option.some_get (x := Run.run step firstRead (start Solo.answeredClient)) (by decide)).symm

/-- A peer may begin with any number. -/
theorem not_recvFront : ¬ ∀ (k : Socket) (acts : List Action) (s : Threads), Solo.Connected k →
    (∀ act ∈ acts, OneReader 0 act) → Run.run step acts (start k) = some s →
    s.socket.ackNum.setWidth 16 = s.socket.recvFront := by
  intro hclaim
  exact absurd (hclaim Solo.answeredClient [] _ Solo.connected_answeredClient (by simp) rfl)
    (by decide)

end Threads

end LabNetstack
