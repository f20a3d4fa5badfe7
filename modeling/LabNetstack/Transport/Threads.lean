import LabNetstack.Transport.Outflow

/-!
# Many threads on one socket

`readLab` and `writeLab` as their atomic steps. A call computes the size of its copy without the
lock, over and over until there is something to copy; only the copy itself is locked. Between the
two every other thread may take its steps, and the loop thread its rounds and segments, which are
atomic since they hold the lock.

The bytes that the calls report, those that leave for the first time and those that arrive in
sequence are recorded next to the socket, in the order of the locked copies.

## Main results

* `Threads.WriteOk.step`, `Threads.ReadOk.step` — what a step keeps in order, if the size of its
  copy still fits
* `Threads.correct_iff_fits` — in which runs nothing is overwritten, lost or returned twice
-/

namespace LabNetstack

open RingMemory

/-- Where a thread stands in `readLab` or `writeLab`. -/
inductive Phase (α : Type)
  | idle
  /-- In the wait loop, about to compute the size of the copy. -/
  | measuring (a : α)
  /-- The size was zero; about to look whether the socket is closed. -/
  | testing (a : α)
  /-- Out of the wait loop with a size, about to take the lock. -/
  | copying (a : α) (n : BitVec 16)

namespace Phase

variable {α : Type}

/-- The next step of a thread in the wait loop. Out of it, or in none, it takes no such step. -/
def look (size : α → BitVec 16) (closed : Bool) : Phase α → Option (Phase α)
  | .measuring a => some (if 0 < size a then .copying a (size a) else .testing a)
  | .testing a => some (if closed then .idle else .measuring a)
  | .idle | .copying _ _ => none

/-- The size that a thread is about to copy, or zero. -/
def size : Phase α → ℕ
  | .copying _ n => n.toNat
  | .idle | .measuring _ | .testing _ => 0

variable {phase phase' : Phase α} {f : ℕ → Phase α} {i j : ℕ} {a : α} {n : BitVec 16}

/-- A thread leaves the wait loop with the size that it has just computed. -/
theorem look_copying {size : α → BitVec 16} {closed : Bool}
    (h : phase.look size closed = some (.copying a n)) : n = size a := by
  cases phase with
  | measuring b =>
    rw [look, Option.some.injEq] at h
    split_ifs at h
    obtain ⟨rfl, rfl⟩ := Phase.copying.inj h
    rfl
  | testing b =>
    rw [look, Option.some.injEq] at h
    split_ifs at h
  | idle | copying => cases h

theorem size_look {size : α → BitVec 16} {closed : Bool}
    (h : phase.look size closed = some phase') :
    phase'.size = 0 ∨ ∃ a, phase'.size = (size a).toNat := by
  cases phase' with
  | copying a n => exact Or.inr ⟨a, by rw [Phase.size, look_copying h]⟩
  | idle | measuring | testing => exact Or.inl rfl

/-- What is so of the copies of all threads stays so when one thread goes on to another phase. -/
theorem forall_update {p : α → BitVec 16 → Prop} (hf : ∀ j a n, f j = .copying a n → p a n)
    (hp : ∀ a n, phase = .copying a n → p a n) :
    ∀ j a n, Function.update f i phase j = .copying a n → p a n := by
  intro j a n hj
  by_cases heq : j = i
  · subst heq
    rw [Function.update_self] at hj
    exact hp a n hj
  · rw [Function.update_of_ne heq] at hj
    exact hf j a n hj

end Phase

/-- A socket, the threads that have been given its descriptor, and what has become of the bytes. -/
structure Threads where
  socket : Socket
  writers : ℕ → Phase (List Byte)
  readers : ℕ → Phase ℕ
  /-- The bytes that the calls of `writeLab` have reported as written. -/
  written : List Byte
  /-- How many of them have been acknowledged. -/
  acked : ℕ
  /-- The data of every segment that is not a repetition. -/
  transmitted : List (List Byte)
  /-- The data of the segments that arrived in sequence, as long as the socket was open. -/
  received : List Byte
  /-- The bytes that the calls of `readLab` have returned. -/
  returned : List Byte

namespace Threads

inductive Action
  | writeLab (i : ℕ) (buf : List Byte)
  | lookWrite (i : ℕ)
  | copyWrite (i : ℕ)
  | readLab (i nbyte : ℕ)
  | lookRead (i : ℕ)
  | copyRead (i : ℕ)
  | close
  | tick (nowtime : ℕ)
  | segment (packet : TCPPacket)

/-- The threads of the application, of which `writeLab` may be refused, and the loop thread. The
length of a packet has 16 bits. -/
def step : Action → Threads → Option Threads
  | .writeLab i buf, s =>
    match s.writers i with
    | .idle =>
      if writeRefused s.socket then some s
      else some { s with writers := Function.update s.writers i (.measuring buf) }
    | _ => none
  | .lookWrite i, s =>
    ((s.writers i).look (fun buf => sendByte s.socket buf.length)
      (decide (s.socket.state = .closed))).map fun phase =>
        { s with writers := Function.update s.writers i phase }
  | .copyWrite i, s =>
    match s.writers i with
    | .copying buf n => some { s with
        socket := writeCommit s.socket buf n
        writers := Function.update s.writers i .idle
        written := s.written ++ buf.take n.toNat }
    | _ => none
  | .readLab i nbyte, s =>
    match s.readers i with
    | .idle => some { s with readers := Function.update s.readers i (.measuring nbyte) }
    | _ => none
  | .lookRead i, s =>
    ((s.readers i).look (recvByte s.socket) (decide (s.socket.state = .closed))).map fun phase =>
      { s with readers := Function.update s.readers i phase }
  | .copyRead i, s =>
    match s.readers i with
    | .copying _ n => some { s with
        socket := (readCommit s.socket n).2
        readers := Function.update s.readers i .idle
        returned := s.returned ++ (readCommit s.socket n).1 }
    | _ => none
  | .close, s => some { s with socket := closeLab s.socket }
  | .tick nowtime, s =>
    let (k, out) := asyncSendTCPPacket nowtime s.socket
    some { s with
      socket := k
      transmitted := if k.sendBack = s.socket.sendBack then s.transmitted
        else s.transmitted ++ out.map TCPPacket.data }
  | .segment packet, s =>
    if packet.data.length < 2 ^ 16 then
      (handleTCPMain s.socket packet).map fun (k, _) => { s with
        socket := k
        acked := s.acked + (k.ackBack - s.socket.ackBack).toNat
        received := s.received ++
          if s.socket.state = .establisted then packet.payload s.socket else [] }
    else none

/-- A socket that has just been connected, and nobody in a call. -/
def start (k : Socket) : Threads := ⟨k, fun _ => .idle, fun _ => .idle, [], 0, [], [], []⟩

variable {s s' : Threads} {act : Action}

/-- What a step does, action by action. -/
inductive Moves (s : Threads) : Action → Threads → Prop
  | refused (i : ℕ) (buf : List Byte) : Moves s (.writeLab i buf) s
  | writeLab (i : ℕ) (buf : List Byte) : Moves s (.writeLab i buf)
      { s with writers := Function.update s.writers i (.measuring buf) }
  | lookWrite (i : ℕ) (phase : Phase (List Byte))
      (h : (s.writers i).look (fun buf => sendByte s.socket buf.length)
        (decide (s.socket.state = .closed)) = some phase) :
      Moves s (.lookWrite i) { s with writers := Function.update s.writers i phase }
  | copyWrite (i : ℕ) (buf : List Byte) (n : BitVec 16) (h : s.writers i = .copying buf n) :
      Moves s (.copyWrite i) { s with
        socket := writeCommit s.socket buf n
        writers := Function.update s.writers i .idle
        written := s.written ++ buf.take n.toNat }
  | readLab (i nbyte : ℕ) : Moves s (.readLab i nbyte)
      { s with readers := Function.update s.readers i (.measuring nbyte) }
  | lookRead (i : ℕ) (phase : Phase ℕ)
      (h : (s.readers i).look (recvByte s.socket) (decide (s.socket.state = .closed))
        = some phase) :
      Moves s (.lookRead i) { s with readers := Function.update s.readers i phase }
  | copyRead (i nbyte : ℕ) (n : BitVec 16) (h : s.readers i = .copying nbyte n) :
      Moves s (.copyRead i) { s with
        socket := (readCommit s.socket n).2
        readers := Function.update s.readers i .idle
        returned := s.returned ++ (readCommit s.socket n).1 }
  | close : Moves s .close { s with socket := closeLab s.socket }
  | tick (nowtime : ℕ) : Moves s (.tick nowtime) { s with
      socket := (asyncSendTCPPacket nowtime s.socket).1
      transmitted :=
        if (asyncSendTCPPacket nowtime s.socket).1.sendBack = s.socket.sendBack then s.transmitted
        else s.transmitted ++ (asyncSendTCPPacket nowtime s.socket).2.map TCPPacket.data }
  | segment (packet : TCPPacket) (k : Socket) (out : List TCPPacket)
      (hlen : packet.data.length < 2 ^ 16) (h : handleTCPMain s.socket packet = some (k, out)) :
      Moves s (.segment packet) { s with
        socket := k
        acked := s.acked + (k.ackBack - s.socket.ackBack).toNat
        received := s.received ++
          if s.socket.state = .establisted then packet.payload s.socket else [] }

theorem moves_of_step (hs : step act s = some s') : Moves s act s' := by
  cases act with
  | writeLab i buf =>
    simp only [step] at hs
    split at hs
    · split_ifs at hs
      · exact Option.some.inj hs ▸ .refused i buf
      · exact Option.some.inj hs ▸ .writeLab i buf
    · cases hs
  | lookWrite i =>
    obtain ⟨phase, hphase, rfl⟩ := Option.map_eq_some_iff.mp hs
    exact .lookWrite i phase hphase
  | copyWrite i =>
    simp only [step] at hs
    split at hs
    · next buf n hphase => exact Option.some.inj hs ▸ .copyWrite i buf n hphase
    · cases hs
  | readLab i nbyte =>
    simp only [step] at hs
    split at hs
    · exact Option.some.inj hs ▸ .readLab i nbyte
    · cases hs
  | lookRead i =>
    obtain ⟨phase, hphase, rfl⟩ := Option.map_eq_some_iff.mp hs
    exact .lookRead i phase hphase
  | copyRead i =>
    simp only [step] at hs
    split at hs
    · next nbyte n hphase => exact Option.some.inj hs ▸ .copyRead i nbyte n hphase
    · cases hs
  | close => exact Option.some.inj hs ▸ .close
  | tick nowtime => exact Option.some.inj hs ▸ .tick nowtime
  | segment packet =>
    by_cases hlen : packet.data.length < 2 ^ 16
    · rw [step, if_pos hlen] at hs
      obtain ⟨⟨k, out⟩, hk, rfl⟩ := Option.map_eq_some_iff.mp hs
      exact .segment packet k out hlen hk
    · rw [step, if_neg hlen] at hs
      cases hs

/-! ### What is kept in order -/

/-- Nothing unacknowledged is overwritten, and what has been reported as written leaves once, and in
order. -/
structure WritesKept (s : Threads) : Prop where
  acked_le : s.acked ≤ s.written.length
  room : s.written.length ≤ s.acked + 65535
  unacked : s.socket.unacked = s.written.drop s.acked
  transmitted : s.transmitted.flatten ++ s.socket.unsent = s.written

/-- Nothing received is lost or returned twice. -/
def ReadsKept (s : Threads) : Prop := s.returned ++ s.socket.unread = s.received

/-- Both streams are in order. -/
structure Correct (s : Threads) : Prop where
  writes : s.WritesKept
  reads : s.ReadsKept

/-- The size of a locked copy into the send ring still fits. -/
def FitsWrite : Action → Threads → Prop
  | .copyWrite i, s => (s.writers i).size ≤ s.socket.sendRoom
  | _, _ => True

/-- The size of a locked copy out of the receive ring is still there. -/
def FitsRead : Action → Threads → Prop
  | .copyRead i, s => (s.readers i).size ≤ s.socket.unread.length
  | _, _ => True

instance : ∀ act s, Decidable (FitsWrite act s)
  | .copyWrite i, s => inferInstanceAs (Decidable ((s.writers i).size ≤ s.socket.sendRoom))
  | .writeLab .., _ | .lookWrite _, _ | .readLab .., _ | .lookRead _, _ | .copyRead _, _
  | .close, _ | .tick _, _ | .segment _, _ => .isTrue trivial

instance : ∀ act s, Decidable (FitsRead act s)
  | .copyRead i, s => inferInstanceAs (Decidable ((s.readers i).size ≤ s.socket.unread.length))
  | .writeLab .., _ | .lookWrite _, _ | .copyWrite _, _ | .readLab .., _ | .lookRead _, _
  | .close, _ | .tick _, _ | .segment _, _ => .isTrue trivial

/-- The condition on a step: the size of a locked copy still fits. -/
def Fits (act : Action) (s : Threads) : Prop := FitsWrite act s ∧ FitsRead act s
deriving Decidable

/-- The send side, with what its order rests on: at most one segment is in flight, the last one that
has been sent, and `ackBack` keeps step with `seqNum`. -/
structure WriteOk (s : Threads) : Prop where
  state : s.socket.state = .establisted ∨ s.socket.state = .closed
  aligned : Solo.Aligned s.socket
  unacked : s.socket.unacked = s.written.drop s.acked
  transmitted : s.transmitted.flatten ++ s.socket.unsent = s.written
  acked_le : s.acked ≤ s.transmitted.flatten.length
  sent_le : s.transmitted.flatten.length ≤ s.acked + 1024
  last : s.socket.sendBack ≠ s.socket.ackBack → s.transmitted.getLast? = some s.socket.inFlight
  sizes : ∀ i buf n, s.writers i = .copying buf n → n.toNat ≤ buf.length

theorem WriteOk.length_unacked (h : s.WriteOk) :
    s.socket.unacked.length + s.acked = s.written.length := by
  have hsent := congrArg List.length h.transmitted
  have hle := h.acked_le
  rw [List.length_append] at hsent
  rw [h.unacked, List.length_drop]
  omega

theorem WriteOk.kept (h : s.WriteOk) : s.WritesKept := by
  have hlen := h.length_unacked
  have hroom := s.socket.length_unacked_add
  exact ⟨by omega, by omega, h.unacked, h.transmitted⟩

/-- How far the three pointers of the send ring are apart. -/
theorem WriteOk.length_unsent (h : s.WriteOk) :
    s.socket.unsent.length + s.transmitted.flatten.length = s.written.length := by
  rw [← h.transmitted, List.length_append, Nat.add_comm]

theorem WriteOk.length_inFlight (h : s.WriteOk) :
    s.socket.inFlight.length + s.acked = s.transmitted.flatten.length := by
  have hunacked := h.length_unacked
  have hunsent := h.length_unsent
  have hle := h.acked_le
  simp only [Socket.unacked, Socket.unsent, Socket.inFlight, length_ring] at hunacked hunsent ⊢
  have hrow := @toNat_sub_add s.socket.ackBack s.socket.sendFront s.socket.sendBack (by omega)
  omega

/-- **A copy into the send ring.** -/
theorem WriteOk.copy (h : s.WriteOk) {i : ℕ} {buf : List Byte} {n : BitVec 16}
    (hphase : s.writers i = .copying buf n) (hfits : n.toNat ≤ s.socket.sendRoom) :
    WriteOk { s with
      socket := writeCommit s.socket buf n
      writers := Function.update s.writers i .idle
      written := s.written ++ buf.take n.toNat } := by
  have hlen := h.sizes i buf n hphase
  have hunacked := h.length_unacked
  have hunsent := h.length_unsent
  have hinFlight := h.length_inFlight
  have hunacked' : (writeCommit s.socket buf n).unacked = s.socket.unacked ++ buf.take n.toNat :=
    ring_copyIn hlen hfits
  have hunsent' : (writeCommit s.socket buf n).unsent = s.socket.unsent ++ buf.take n.toNat := by
    refine @ring_copyIn _ s.socket.sendBack _ _ _ hlen ?_
    have hroom := toNat_room_add s.socket.sendBack s.socket.sendFront
    have hroom' := s.socket.length_unacked_add
    rw [Socket.unsent, length_ring] at hunsent
    omega
  have hinFlight' : (writeCommit s.socket buf n).inFlight = s.socket.inFlight := by
    have hcopy : ∀ k : Socket, k.inFlight.length ≤ k.unacked.length →
        k.inFlight = k.unacked.take k.inFlight.length := by
      intro k hle
      rw [Socket.inFlight, Socket.unacked, length_ring, length_ring] at hle
      rw [Socket.inFlight, length_ring]
      exact ring_take hle
    have hsame : (writeCommit s.socket buf n).inFlight.length = s.socket.inFlight.length := by
      rw [Socket.inFlight, Socket.inFlight, length_ring, length_ring]
      rfl
    rw [hcopy _ (by rw [hsame, hunacked', List.length_append]; omega), hsame, hunacked',
      List.take_append_of_le_length (by omega), ← hcopy _ (by omega)]
  refine ⟨h.state, h.aligned, ?_, ?_, h.acked_le, h.sent_le, fun hout => ?_, ?_⟩
  · simp only
    rw [hunacked', h.unacked, List.drop_append_of_le_length (by omega)]
  · simp only
    rw [hunsent', ← List.append_assoc, h.transmitted]
  · simp only
    rw [hinFlight']
    exact h.last hout
  · exact Phase.forall_update h.sizes fun _ _ hidle => by cases hidle

/-- **The timer.** -/
theorem WriteOk.tick (h : s.WriteOk) (nowtime : ℕ) : WriteOk { s with
    socket := (asyncSendTCPPacket nowtime s.socket).1
    transmitted :=
      if (asyncSendTCPPacket nowtime s.socket).1.sendBack = s.socket.sendBack then s.transmitted
      else s.transmitted ++ (asyncSendTCPPacket nowtime s.socket).2.map TCPPacket.data } := by
  obtain ⟨heq, hcases⟩ := Socket.tick_cases nowtime s.socket
  generalize asyncSendTCPPacket nowtime s.socket = r at heq hcases
  obtain ⟨k, out⟩ := r
  simp only at heq hcases ⊢
  have hbuffer : k.writeBuffer = s.socket.writeBuffer := by rw [heq]
  have hfront : k.sendFront = s.socket.sendFront := by rw [heq]
  have hack : k.ackBack = s.socket.ackBack := by rw [heq]
  have hunacked : k.unacked = s.socket.unacked := by
    rw [Socket.unacked, hbuffer, hfront, hack, Socket.unacked]
  have hstate : k.state = .establisted ∨ k.state = .closed := by
    rw [heq]
    exact h.state
  have haligned : Solo.Aligned k := by
    rw [heq]
    exact h.aligned
  rcases hcases with ⟨hback, -⟩ | ⟨hidle, len, hpos, hmss, hlen, hback, hdata⟩
  · have hinFlight : k.inFlight = s.socket.inFlight := by
      rw [Socket.inFlight, hbuffer, hback, hack, Socket.inFlight]
    rw [if_pos hback]
    refine ⟨hstate, haligned, hunacked.trans h.unacked, ?_, h.acked_le, h.sent_le, fun hout => ?_,
      h.sizes⟩
    · rw [Socket.unsent, hbuffer, hfront, hback]
      exact h.transmitted
    · rw [hinFlight]
      rw [hback, hack] at hout
      exact h.last hout
  · -- the next segment
    have hne : k.sendBack ≠ s.socket.sendBack := by
      intro hsame
      have hzero : len = 0 := BitVec.add_right_eq_self.mp (hback.symm.trans hsame)
      rw [hzero] at hpos
      exact absurd hpos (by decide)
    have hlen' : len.toNat ≤ (s.socket.sendFront - s.socket.sendBack).toNat := by
      rwa [Socket.unsent, length_ring] at hlen
    have hunsent : k.unsent = s.socket.unsent.drop len.toNat := by
      rw [Socket.unsent, hbuffer, hfront, hback]
      exact ring_drop hlen'
    have hnone : s.socket.inFlight.length = 0 := by
      rw [Socket.inFlight_eq_nil_iff.mpr hidle, List.length_nil]
    have hsent := h.length_inFlight
    have hflat : (s.transmitted ++ out.map TCPPacket.data).flatten
        = s.transmitted.flatten ++ s.socket.unsent.take len.toNat := by
      rw [hdata, List.flatten_append, List.flatten_singleton]
    rw [if_neg hne]
    refine ⟨hstate, haligned, hunacked.trans h.unacked, ?_, ?_, ?_, fun _ => ?_, h.sizes⟩
    · simp only
      rw [hflat, hunsent, List.append_assoc, List.take_append_drop, h.transmitted]
    · simp only
      rw [hflat, List.length_append]
      exact h.acked_le.trans (Nat.le_add_right ..)
    · simp only
      rw [hflat, List.length_append, List.length_take]
      omega
    · simp only
      rw [hdata, List.getLast?_concat, Socket.inFlight, hbuffer, hback, hack, ← hidle,
        ring_take_eq hlen', Socket.unsent]

/-- **A segment.** -/
theorem WriteOk.segment (h : s.WriteOk) {packet : TCPPacket} {k : Socket} {out : List TCPPacket}
    (hk : handleTCPMain s.socket packet = some (k, out)) (received : List Byte) : WriteOk { s with
      socket := k
      acked := s.acked + (k.ackBack - s.socket.ackBack).toNat
      received := received } := by
  have hsound : Solo.Sound ⟨k, 0⟩ := by
    refine @Solo.Sound.step ⟨s.socket, 0⟩ ⟨k, 0⟩ (.segment packet) ⟨h.aligned, h.state⟩ ?_
    rw [Solo.step, hk, Option.map_some]
  obtain ⟨hback, hfront, hack⟩ := Socket.segment_cases h.state hk
  have hbuffer := Socket.handleTCPMain_writeBuffer hk
  have hunsent : k.unsent = s.socket.unsent := by
    rw [Socket.unsent, hbuffer, hback, hfront, Socket.unsent]
  have htransmitted : s.transmitted.flatten ++ k.unsent = s.written := by
    rw [hunsent, h.transmitted]
  rcases hack with hack | hack
  · have hnone : (k.ackBack - s.socket.ackBack).toNat = 0 := by
      rw [hack, BitVec.sub_self, BitVec.toNat_zero]
    rw [hnone, Nat.add_zero]
    refine ⟨hsound.2, hsound.1, ?_, htransmitted, h.acked_le, h.sent_le, fun hout => ?_, h.sizes⟩
    · rw [Socket.unacked, hbuffer, hack, hfront]
      exact h.unacked
    · rw [hback, hack] at hout
      rw [Socket.inFlight, hbuffer, hback, hack]
      exact h.last hout
  · -- everything in flight is acknowledged
    have hall : s.acked + (k.ackBack - s.socket.ackBack).toNat = s.transmitted.flatten.length := by
      rw [← h.length_inFlight, Socket.inFlight, length_ring, hack, Nat.add_comm]
    rw [hall]
    refine ⟨hsound.2, hsound.1, ?_, htransmitted, le_rfl, Nat.le_add_right .., fun hout => ?_,
      h.sizes⟩
    · rw [Socket.unacked, hack, ← hback, ← Socket.unsent, hunsent, ← h.transmitted]
      exact List.drop_left.symm
    · exact absurd (hback.trans hack.symm) hout

/-- **The send side.** -/
theorem WriteOk.step (h : s.WriteOk) (hc : FitsWrite act s) (hs : step act s = some s') :
    s'.WriteOk := by
  cases moves_of_step hs with
  | refused i buf => exact h
  | writeLab i buf =>
    exact { h with sizes := Phase.forall_update h.sizes fun _ _ hp => by cases hp }
  | lookWrite i phase hphase =>
    refine { h with sizes := Phase.forall_update h.sizes fun buf n hp => ?_ }
    subst hp
    rw [Phase.look_copying hphase, sendByte, toNat_clamp]
    exact Nat.min_le_left ..
  | copyWrite i buf n hphase =>
    rw [FitsWrite, hphase] at hc
    exact h.copy hphase hc
  | readLab | lookRead | copyRead | close => exact { h with }
  | tick nowtime => exact h.tick nowtime
  | segment packet k out hlen hk => exact h.segment hk _

/-! ### The receive side -/

/-- The receive side, on an open or a closed socket. -/
structure ReadOk (s : Threads) : Prop where
  state : s.socket.state = .establisted ∨ s.socket.state = .closed
  kept : s.ReadsKept

/-- **A copy out of the receive ring.** -/
theorem ReadOk.copy (h : s.ReadOk) {i : ℕ} {n : BitVec 16}
    (hfits : n.toNat ≤ s.socket.unread.length) :
    ReadOk { s with
      socket := (readCommit s.socket n).2
      readers := Function.update s.readers i .idle
      returned := s.returned ++ (readCommit s.socket n).1 } := by
  rw [Socket.unread, length_ring] at hfits
  have hbytes : (readCommit s.socket n).1 = s.socket.unread.take n.toNat := ring_take hfits
  have hrest : (readCommit s.socket n).2.unread = s.socket.unread.drop n.toNat := ring_drop hfits
  refine ⟨h.state, ?_⟩
  rw [ReadsKept, hrest, hbytes, List.append_assoc, List.take_append_drop]
  exact h.kept

theorem ReadOk.segment (h : s.ReadOk) {packet : TCPPacket} {k : Socket} {out : List TCPPacket}
    (hlen : packet.data.length < 2 ^ 16) (hk : handleTCPMain s.socket packet = some (k, out))
    (acked : ℕ) : ReadOk { s with
      socket := k
      acked := acked
      received := s.received ++
        if s.socket.state = .establisted then packet.payload s.socket else [] } := by
  have hkept := h.kept
  refine ⟨(Solo.handleTCPMain_cases h.state hk).1, ?_⟩
  rcases h.state with hstate | hstate
  · rw [handleTCPMain, hstate] at hk
    obtain ⟨-, haccepts, -⟩ := established_recv hlen hk
    rw [ReadsKept] at hkept ⊢
    simp only
    rw [if_pos hstate, haccepts.unread, ← List.append_assoc, hkept]
  · rw [handleTCPMain, hstate] at hk
    obtain ⟨rfl, -⟩ := Prod.mk.inj (Option.some.inj hk)
    have hopen : s.socket.state ≠ .establisted := by
      rw [hstate]
      decide
    rw [ReadsKept, if_neg hopen, List.append_nil]
    exact hkept

/-- **The receive side.** -/
theorem ReadOk.step (h : s.ReadOk) (hc : FitsRead act s) (hs : step act s = some s') :
    s'.ReadOk := by
  cases moves_of_step hs with
  | copyRead i nbyte n hphase =>
    rw [FitsRead, hphase] at hc
    exact h.copy hc
  | tick nowtime =>
    have heq := (Socket.tick_cases nowtime s.socket).1
    have hunread : (asyncSendTCPPacket nowtime s.socket).1.unread = s.socket.unread := by
      rw [heq]
      rfl
    refine ⟨?_, ?_⟩
    · simp only
      rw [heq]
      exact h.state
    · rw [ReadsKept, hunread]
      exact h.kept
  | segment packet k out hlen hk => exact h.segment hlen hk _
  | refused | writeLab | lookWrite | copyWrite | readLab | lookRead | close =>
    exact ⟨h.state, h.kept⟩

/-! ### Exactly when -/

/-- Both sides. -/
structure Ok (s : Threads) : Prop where
  write : s.WriteOk
  read : s.ReadOk

theorem Ok.correct (h : s.Ok) : s.Correct := ⟨h.write.kept, h.read.kept⟩

theorem Ok.step (h : s.Ok) (hs : step act s = some s') (hc : Fits act s) : s'.Ok :=
  ⟨h.write.step hc.1 hs, h.read.step hc.2 hs⟩

/-- A copy that does not fit overwrites what is not acknowledged, or returns what has not
arrived. -/
theorem Ok.fits (h : s.Ok) (hs : Threads.step act s = some s') (hcorrect : s'.Correct) :
    Fits act s := by
  cases moves_of_step hs with
  | copyWrite i buf n hphase =>
    have hroom : (s.written ++ buf.take n.toNat).length ≤ s.acked + 65535 := hcorrect.writes.room
    have hlen := h.write.sizes i buf n hphase
    have hunacked := h.write.length_unacked
    have hfree := s.socket.length_unacked_add
    rw [List.length_append, List.length_take, Nat.min_eq_left hlen] at hroom
    refine ⟨?_, trivial⟩
    rw [FitsWrite, hphase, Phase.size]
    omega
  | copyRead i nbyte n hphase =>
    have hreads := congrArg List.length hcorrect.reads
    have hbefore := congrArg List.length h.read.kept
    have hcopy : (readCommit s.socket n).1.length = n.toNat := length_copyOut ..
    simp only [List.length_append, hcopy] at hreads hbefore
    refine ⟨trivial, ?_⟩
    rw [FitsRead, hphase, Phase.size]
    omega
  | refused | writeLab | lookWrite | readLab | lookRead | close | tick | segment =>
    exact ⟨trivial, trivial⟩

theorem start_ok {k : Socket} (hk : Solo.Connected k) : (start k).Ok := by
  obtain ⟨hstate, hback, hack, hseq, hfront, hrecvFront, hrecvBack⟩ := hk.fresh
  have hunacked : k.unacked = [] := ring_eq_nil_iff.mpr (hfront.trans hack.symm)
  have hunsent : k.unsent = [] := ring_eq_nil_iff.mpr (hfront.trans hback.symm)
  have hunread : k.unread = [] := ring_eq_nil_iff.mpr (hrecvFront.trans hrecvBack.symm)
  refine ⟨⟨Or.inl hstate, ?_, hunacked, hunsent, le_rfl, Nat.zero_le _, fun hout => ?_, ?_⟩,
    ⟨Or.inl hstate, hunread⟩⟩
  · show Solo.Aligned k
    rw [Solo.Aligned, hseq, hack]
    rfl
  · exact absurd (hback.trans hack.symm) hout
  · intro i buf n hidle
    cases hidle

/-- **Concurrent callers.** All along a run of any number of threads no unacknowledged byte is
overwritten, everything that is reported as written is sent once and in order, and everything
received is returned once and in order, exactly if every locked copy still fits when it is made. -/
theorem correct_iff_fits {k : Socket} (hk : Solo.Connected k) {acts : List Action} {s : Threads}
    (hrun : Run.run step acts (start k) = some s) :
    (∀ before after t, acts = before ++ after → Run.run step before (start k) = some t →
      t.Correct) ↔ Run.Meets step Fits acts (start k) :=
  (Run.meets_iff (a := fun _ _ => True) (p := Ok) (fun _ => Ok.correct)
    (fun _ _ _ _ h => h.step) (fun _ _ _ _ h => h.fits) (Run.meets_of_forall fun _ _ => trivial)
    (start_ok hk) hrun).symm

/-- Two threads read and two write. Each has the size of its copy before the other has copied. -/
def shared : List Action :=
  [.segment (Solo.dataSegment 1 [7, 8]), .readLab 0 1, .readLab 1 1, .lookRead 0, .lookRead 1,
    .writeLab 0 [1, 2], .writeLab 1 [3], .lookWrite 0, .lookWrite 1, .copyRead 1, .copyWrite 1,
    .tick 1, .copyWrite 0, .copyRead 0]

theorem correct_iff_fits_shared : Run.Meets step Fits shared (start Solo.answeredClient) ∧
    ∀ before after t, shared = before ++ after →
      Run.run step before (start Solo.answeredClient) = some t → t.Correct := by
  have hfits : Run.Meets step Fits shared (start Solo.answeredClient) := by decide
  have hrun := Option.some_get (x := Run.run step shared (start Solo.answeredClient)) (by decide)
  exact ⟨hfits, (correct_iff_fits Solo.connected_answeredClient hrun.symm).mpr hfits⟩

/-- One byte arrives, and two threads see it before either copies it. -/
def racingReads : List Action :=
  [.segment (Solo.dataSegment 1 [7]), .readLab 0 1, .readLab 1 1, .lookRead 0, .lookRead 1,
    .copyRead 0, .copyRead 1]

/-- Two callers can be given the same byte. -/
theorem not_correct : ¬ ∀ (k : Socket) (acts : List Action) (s : Threads), Solo.Connected k →
    Run.run step acts (start k) = some s → s.Correct := by
  intro hclaim
  let s := (Run.run step racingReads (start Solo.answeredClient)).get (by decide)
  have hreads : s.returned ++ s.socket.unread = s.received :=
    (hclaim Solo.answeredClient racingReads s Solo.connected_answeredClient
      (Option.some_get _).symm).reads
  have hlen : s.returned.length ≤ s.received.length := by
    rw [← hreads, List.length_append]
    exact Nat.le_add_right ..
  exact absurd hlen (by decide)

end Threads

end LabNetstack
