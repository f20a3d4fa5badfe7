import LabNetstack.Transport.Refinement

/-!
# The system refines the unbounded connection

`Sys.Rep` puts the correspondences of the two sockets and of the two channels together, and adds
the histories. Every action of the system is answered by the same action of the connection, so
what is proved about `Duo` holds of every reachable state of `Sys`.

## Main results

* `Sys.step_rel` — an action is possible in `Sys` exactly when it is in `Duo`, and the states it
  leads to correspond
* `Sys.Reachable.duo` — a reachable state of the system stands for a connection that satisfies the
  invariant
-/

namespace LabNetstack

open StopAndWait

/-! ### Histories -/

namespace Peer

variable {p : Peer}

theorem tick_written (p : Peer) (now : ℕ) : (p.tick now).1.snd.written = p.snd.written := by
  rcases h : p.tick now with ⟨q, out⟩
  rcases tick_cases h with ⟨-, rfl, -⟩ | ⟨-, p', out₁, out₂, h₁, h₂, -⟩
  · rfl
  · have hseg : p'.snd.written = p.snd.written := by
      rcases sendSegment_cases h₁ with ⟨rfl, -⟩ | ⟨-, -, rfl, -⟩ | ⟨n, -, -, -, -, -, rfl, -⟩
      all_goals rfl
    rcases sendFin_cases h₂ with ⟨rfl, -⟩ | ⟨-, -, -, rfl, -⟩
    all_goals exact hseg

/-- A delivery changes neither what was written nor what was returned. -/
theorem handle_history (m : Msg) (hp : p.Bounded) :
    (p.handle m).1.snd.written = p.snd.written ∧
      (p.handle m).1.rcv.accepted.take (p.handle m).1.rcv.taken
        = p.rcv.accepted.take p.rcv.taken := by
  cases m with
  | ack a =>
    simp only [handle]
    split_ifs
    · exact ⟨rfl, rfl⟩
    · refine ⟨?_, rfl⟩
      simp only [Sender.onAck]
      split <;> rfl
  | seg m =>
    simp only [handle]
    split_ifs
    · exact ⟨rfl, rfl⟩
    · refine ⟨rfl, ?_⟩
      simp only [Receiver.onSegment]
      split_ifs
      · rfl
      · exact List.take_append_of_le_length hp.taken_le
      · rfl

end Peer

/-! ### The step -/

/-- The two systems correspond, and so do their histories. -/
structure Sys.Rep (s : Sys) (d : Duo) : Prop where
  socket : ∀ x, (s.socket x).Rep (d.peer x)
  chan : ∀ x, List.Forall₂ TCPPacket.Rep (s.chan x) (d.chan x)
  written : ∀ x, s.written x = (d.peer x).snd.written
  returned : ∀ x, s.returned x = (d.peer x).rcv.accepted.take (d.peer x).rcv.taken

namespace Sys.Rep

variable {s : Sys} {d : Duo} {x : Side}

/-- Replacing a socket, together with the histories of its side. -/
theorem setSocket (h : s.Rep d) {k : Socket} {p : Peer} {w r : Side → List Byte} (hk : k.Rep p)
    (hw : w x = p.snd.written) (hr : r x = p.rcv.accepted.take p.rcv.taken)
    (hw' : w x.other = s.written x.other) (hr' : r x.other = s.returned x.other) :
    Sys.Rep ⟨Function.update s.socket x k, s.chan, w, r⟩ (d.setPeer x p) where
  socket := Side.forall_of_other x (by simpa using hk) (by simpa using h.socket x.other)
  chan := h.chan
  written := Side.forall_of_other x (by simpa using hw)
    (by simpa using hw'.trans (h.written x.other))
  returned := Side.forall_of_other x (by simpa using hr)
    (by simpa using hr'.trans (h.returned x.other))

theorem setChan (h : s.Rep d) {l : List TCPPacket} {l' : List Msg}
    (hl : List.Forall₂ TCPPacket.Rep l l') :
    Sys.Rep { s with chan := Function.update s.chan x l } (d.setChan x l') where
  socket := h.socket
  chan := Side.forall_of_other x (by simpa using hl) (by simpa using h.chan x.other)
  written := h.written
  returned := h.returned

/-- Replacing a socket whose histories stay, and adding to its channel. -/
theorem send (h : s.Rep d) {k : Socket} {p : Peer} {out : List TCPPacket} {out' : List Msg}
    (hk : k.Rep p) (hout : List.Forall₂ TCPPacket.Rep out out')
    (hw : p.snd.written = (d.peer x).snd.written)
    (hr : p.rcv.accepted.take p.rcv.taken
      = (d.peer x).rcv.accepted.take (d.peer x).rcv.taken) :
    (s.send x k out).Rep (d.send x p out') :=
  (h.setSocket hk ((h.written x).trans hw.symm) ((h.returned x).trans hr.symm) rfl rfl).setChan
    (List.rel_append (h.chan x) hout)

theorem deliver (h : s.Rep d) (hinv : d.Inv) :
    Option.Rel Sys.Rep (s.deliver x) (d.deliver x) := by
  have hchan := h.chan x
  rw [Sys.deliver, Duo.deliver]
  generalize hl' : d.chan x = l' at hchan
  generalize s.chan x = l at hchan
  cases hchan with
  | nil => exact .none
  | @cons packet m rest rest' hm hrest =>
    have hadmits := hinv.admits (hl' ▸ List.mem_cons_self ..)
    obtain ⟨k', out, hrun, hk, hout⟩ :=
      (h.socket x.other).handleTCPMain (hinv.bounded x.other) hm hadmits
    obtain ⟨hw, hr⟩ := Peer.handle_history m (hinv.bounded x.other)
    simp only [hrun, Option.map_some]
    exact .some ((h.setChan hrest).send hk hout hw hr)

end Sys.Rep

/-- **The refinement.** An action is possible in the system exactly when it is possible in the
connection, and then the states that follow correspond. -/
theorem Sys.step_rel (act : Action) {s : Sys} {d : Duo} (h : s.Rep d) (hinv : d.Inv) :
    Option.Rel Sys.Rep (Sys.step act s) (Duo.step act d) := by
  cases act with
  | write x buf =>
    simp only [Sys.step, Duo.step, (h.socket x).hasFlag_call]
    split_ifs
    · exact .none
    · have hwrite := (h.socket x).writeLab (hinv.bounded x) buf
      generalize writeLab (s.socket x) buf = o, (d.peer x).write buf = o' at hwrite
      cases hwrite with
      | none => exact .none
      | some hstep =>
        obtain ⟨hk, hrcv, hw⟩ := hstep
        refine .some (h.setSocket hk ?_ ?_ (by simp) rfl)
        · rw [Function.update_self, hw, h.written x]
        · rw [hrcv, h.returned x]
  | read x nbyte =>
    have hread := (h.socket x).readLab (hinv.bounded x) nbyte
    simp only [Sys.step, Duo.step]
    generalize readLab (s.socket x) nbyte = o, (d.peer x).read nbyte = o' at hread
    cases hread with
    | none => exact .none
    | some hstep =>
      obtain ⟨hk, hsnd, hr⟩ := hstep
      refine .some (h.setSocket hk ?_ ?_ rfl (by simp))
      · rw [hsnd, h.written x]
      · rw [Function.update_self, hr, h.returned x]
  | close x =>
    exact .some (h.setSocket (h.socket x).closeLab (h.written x) (h.returned x) rfl rfl)
  | tick x now =>
    obtain ⟨hk, hout⟩ := (h.socket x).asyncSendTCPPacket (hinv.bounded x) now
    have hrcv : ((d.peer x).tick now).1.rcv.accepted.take ((d.peer x).tick now).1.rcv.taken
        = (d.peer x).rcv.accepted.take (d.peer x).rcv.taken := by
      rw [(Peer.tick_frame (d.peer x) now).1]
    exact .some (h.send hk hout (Peer.tick_written _ now) hrcv)
  | deliver x => exact h.deliver hinv
  | lose x i => exact .some (h.setChan (Channel.forall₂_lose i (h.chan x)))
  | repeatAt x i => exact .some (h.setChan (Channel.forall₂_repeatAt i (h.chan x)))

/-! ### From the handshake on -/

/-- Nothing sent, nothing received, and the window of 65535 bytes that the handshake announces. -/
def Peer.start : Peer := ⟨⟨[], 0, 0, cap, false⟩, ⟨[], 0, false⟩, false, false, false, 0⟩

/-- The acknowledgement that a repetition of a handshake segment amounts to. -/
def startAck : Ack := ⟨0, cap, false⟩

def Duo.start (i j : ℕ) : Duo where
  peer := fun _ => Peer.start
  chan := fun | .a => List.replicate i (.ack startAck) | .b => List.replicate j (.ack startAck)

theorem Duo.start_inv (i j : ℕ) : (Duo.start i j).Inv := by
  have hdir : ∀ n, StopAndWait.Inv cap mss Peer.start.snd Peer.start.rcv []
      (Msg.acks (List.replicate n (.ack startAck))) := by
    intro n
    have hacks : Msg.acks (List.replicate n (.ack startAck)) = List.replicate n startAck :=
      List.filterMap_replicate_of_some rfl
    have hfresh : StopAndWait.Inv cap mss Peer.start.snd Peer.start.rcv [] [] := .start _ rfl
    rw [hacks]
    exact
      { hfresh with
        bwd_sorted := List.pairwise_replicate.mpr (Or.inr le_rfl)
        bwd_ok := fun a ha => by
          rw [List.eq_of_mem_replicate ha]
          exact ⟨le_rfl, le_rfl, le_rfl, le_rfl, fun hf => absurd hf Bool.false_ne_true⟩ }
  have hsegs : ∀ n, Msg.segs (List.replicate n (.ack startAck)) = [] := by
    intro n
    rw [Msg.segs, List.filterMap_replicate_of_none rfl]
  have hflags : Duo.FlagsOk Peer.start :=
    ⟨fun hf => absurd hf Bool.false_ne_true, fun hf => absurd hf Bool.false_ne_true,
      fun hf => absurd hf Bool.false_ne_true⟩
  refine .of_sides .a ?_ ?_ hflags hflags
  · rw [Dir, show Msg.segs ((Duo.start i j).chan .a) = [] from hsegs i]
    exact hdir j
  · rw [Dir, show Msg.segs ((Duo.start i j).chan Side.a.other) = [] from hsegs j]
    exact hdir i

/-- A socket as either handler of the last two handshake segments leaves it. -/
theorem Socket.rep_start {k : Socket} (hstate : k.state = .establisted)
    (hconn : k.isConnection = true) (hcl : k.clstate = 0) (hfront : k.sendFront = 0)
    (hback : k.sendBack = 0) (hackBack : k.ackBack = 0) (hackFront : k.ackFront = -1)
    (hseq : k.seqNum = 0) (hrecvFront : k.recvFront = 0) (hrecvBack : k.recvBack = 0)
    (hack : k.ackNum = 0) (htime : k.resendTime = 0) : k.Rep Peer.start where
  state := hstate
  isConnection := hconn
  clstate := hcl
  sendFront := hfront
  sendBack := hback
  ackBack := hackBack
  ackFront := hackFront
  seqNum := hseq
  recvFront := hrecvFront
  recvBack := hrecvBack
  ackNum := hack
  resendTime := htime
  writeRing := RingMemory.holds_nil
  readRing := RingMemory.holds_nil

/-- The handshake always completes, in a state that stands for a fresh connection. -/
theorem Handshake.start_rep (h : Handshake) (i j : ℕ) :
    ∃ s₀, h.start i j = some s₀ ∧ s₀.Rep (Duo.start i j) := by
  have hsyn : ctSyn &&& ctSyn ≠ 0 := by decide
  have hsynAck : (ctSyn ||| ctAck) &&& ctSyn ≠ 0 ∧ (ctSyn ||| ctAck) &&& ctAck ≠ 0 := by decide
  have hsynAckFin : (ctSyn ||| ctAck) &&& ctFin = 0 := by decide
  have hack : ctAck &&& ctAck ≠ 0 := by decide
  have hackFin : ctAck &&& ctFin = 0 := by decide
  have hone : (-1 : BitVec 32) + 1 = 0 := by decide
  have hnum : htonl (htonl (-1)) + 1 = 0 := by decide
  have hnum' : htonl (htonl (htonl (htonl (-1)) + 1)) = BitVec.ofNat 32 startAck.value := by decide
  have hwin : htons (htons 0xffff) = BitVec.ofNat 16 startAck.win := by decide
  simp only [Handshake.start, connectLab, TCPHandleListen, TCPHandleSyssent, TCPHandleSysrecv,
    sendTCPPacket, createTCPHeader, hsyn, hsynAck, hack, ntohl, ne_eq, not_false_eq_true, and_self,
    if_true]
  refine ⟨_, rfl, ?_, ?_, fun _ => rfl, fun _ => rfl⟩
  · refine Side.forall_of_other .a ?_ ?_
    · exact Socket.rep_start rfl rfl rfl rfl rfl rfl rfl hone rfl rfl hnum rfl
    · exact Socket.rep_start rfl rfl rfl rfl rfl rfl rfl hone rfl rfl hnum rfl
  · refine Side.forall_of_other .a ?_ ?_
    · exact Channel.forall₂_replicate i (.ack _ hack hackFin hnum' hwin rfl)
    · exact Channel.forall₂_replicate j (.ack _ hsynAck.2 hsynAckFin hnum' hwin rfl)

/-- Two systems that correspond, of which the invariant is known. -/
def Refines (s : Sys) (d : Duo) : Prop := s.Rep d ∧ d.Inv

theorem Refines.step (act : Action) {s : Sys} {d : Duo} (h : Refines s d) :
    Option.Rel Refines (Sys.step act s) (Duo.step act d) := by
  have hrel := Sys.step_rel act h.1 h.2
  generalize ho : Sys.step act s = o, ho' : Duo.step act d = o' at hrel
  cases hrel with
  | none => exact .none
  | some hrep => exact .some ⟨hrep, h.2.step ho'⟩

theorem Refines.run (acts : List Action) {s : Sys} {d : Duo} (h : Refines s d) :
    Option.Rel Refines (s.run acts) (Run.run Duo.step acts d) :=
  Run.run_rel (fun act _ _ => Refines.step act) acts h

/-- **A reachable state of the system stands for a connection that satisfies the invariant.** -/
theorem Sys.Reachable.duo {s : Sys} (h : s.Reachable) : ∃ d, Refines s d := by
  obtain ⟨hs, i, j, acts, hrun⟩ := h
  obtain ⟨s₀, hstart, hrep⟩ := hs.start_rep i j
  rw [Handshake.run, hstart] at hrun
  have hrel : Refines s₀ (Duo.start i j) := ⟨hrep, Duo.start_inv i j⟩
  obtain ⟨d, -, hd⟩ := Run.rel_some_left (hrel.run acts) hrun
  exact ⟨d, hd⟩

end LabNetstack
