import LabNetstack.Lib.StopAndWait
import LabNetstack.Transport.TwoEndpoint

/-!
# The connection with unbounded counters

What the two sockets of a connection are for, without rings, words and wrap-around: each end is a
sender and a receiver of a byte stream, plus the state of the closing handshake. `Duo` has the
same actions as `Sys` and answers each of them the way the code does, on natural numbers and lists.

The two directions of a connection share nothing but the order of the segments in the channels.
Everything that is sent towards a receiver, data, probes and the `FIN`, belongs to one direction,
and the acknowledgements in the same channel belong to the other. So the invariant of the whole is
that of stop-and-wait, twice, and a little about the flags.

## Main results

* `Duo.Inv.step` — every action keeps the invariant
-/

namespace LabNetstack

open StopAndWait

/-- A ring of 64 KiB keeps one cell empty. -/
def cap : ℕ := 65535

/-- `MAX_TCP_LEN`, as a number. -/
def mss : ℕ := 1024

/-- One end of the connection. `FIN` received and its acknowledgement sent always go together, so
`rcv.fin` stands for both. -/
structure Peer where
  snd : Sender Byte
  rcv : Receiver Byte
  call : Bool
  ackRecv : Bool
  closed : Bool
  timer : ℕ

/-- A segment in flight. -/
inductive Msg
  | seg (m : Segment Byte)
  | ack (a : Ack)
deriving DecidableEq

namespace Msg

def seg? : Msg → Option (Segment Byte)
  | seg m => some m
  | ack _ => none

def ack? : Msg → Option Ack
  | seg _ => none
  | ack a => some a

/-- The part of a channel that belongs to the sender's own direction. -/
def segs (l : List Msg) : List (Segment Byte) := l.filterMap seg?

/-- The part of a channel that belongs to the opposite direction. -/
def acks (l : List Msg) : List Ack := l.filterMap ack?

@[simp] theorem segs_nil : segs [] = [] := rfl

@[simp] theorem acks_nil : acks [] = [] := rfl

@[simp] theorem segs_append (l l' : List Msg) : segs (l ++ l') = segs l ++ segs l' :=
  List.filterMap_append

@[simp] theorem acks_append (l l' : List Msg) : acks (l ++ l') = acks l ++ acks l' :=
  List.filterMap_append

@[simp] theorem segs_cons_seg (m : Segment Byte) (l : List Msg) :
    segs (seg m :: l) = m :: segs l := rfl

@[simp] theorem segs_cons_ack (a : Ack) (l : List Msg) : segs (ack a :: l) = segs l := rfl

@[simp] theorem acks_cons_seg (m : Segment Byte) (l : List Msg) : acks (seg m :: l) = acks l := rfl

@[simp] theorem acks_cons_ack (a : Ack) (l : List Msg) : acks (ack a :: l) = a :: acks l := rfl

@[simp] theorem segs_map_ack (o : Option Ack) : segs (o.map ack).toList = [] := by
  cases o <;> rfl

@[simp] theorem acks_map_ack (o : Option Ack) : acks (o.map ack).toList = o.toList := by
  cases o <;> rfl

theorem degrades_segs {l l' : List Msg} (h : Channel.Degrades l l') :
    Channel.Degrades (segs l) (segs l') := h.filterMap seg?

theorem degrades_acks {l l' : List Msg} (h : Channel.Degrades l l') :
    Channel.Degrades (acks l) (acks l') := h.filterMap ack?

theorem mem_segs {m : Segment Byte} {l : List Msg} : m ∈ segs l ↔ seg m ∈ l := by
  rw [segs, List.mem_filterMap]
  constructor
  · rintro ⟨m' | a, hmem, hm⟩
    · rwa [← Option.some.inj hm]
    · cases hm
  · exact fun h => ⟨seg m, h, rfl⟩

theorem mem_acks {a : Ack} {l : List Msg} : a ∈ acks l ↔ ack a ∈ l := by
  rw [acks, List.mem_filterMap]
  constructor
  · rintro ⟨m | a', hmem, ha⟩
    · cases ha
    · rwa [← Option.some.inj ha]
  · exact fun h => ⟨ack a, h, rfl⟩

end Msg

/-! ### One end -/

namespace Peer

variable (p : Peer)

/-- `writeLab`. -/
def write (buf : List Byte) : Option Peer :=
  if p.closed || p.rcv.fin then some p
  else
    let n := min buf.length (p.snd.acked + cap - p.snd.written.length)
    if 0 < n then some { p with snd := p.snd.write (buf.take n) } else none

/-- `readLab`. -/
def read (nbyte : ℕ) : Option Peer :=
  let n := min nbyte (p.rcv.accepted.length - p.rcv.taken)
  if 0 < n then some { p with rcv := p.rcv.take n }
  else if p.closed then some p
  else none

/-- The first half of a tick: repeat, probe, or send the next bytes. -/
def sendSegment (nowtime : ℕ) : Peer × List Msg :=
  if p.snd.sent ≠ p.snd.acked ∨ p.snd.window = 0 then
    if p.timer < nowtime then
      ({ p with timer := nowtime + resendInterval }, [.seg p.snd.current])
    else (p, [])
  else
    let n := min (min (p.snd.written.length - p.snd.sent) p.snd.window) mss
    if 0 < n then
      ({ p with snd := p.snd.transmit n, timer := nowtime + resendInterval },
        [.seg (p.snd.transmit n).current])
    else (p, [])

/-- The second half of a tick: the `FIN`, once everything is acknowledged. -/
def sendFin (nowtime : ℕ) : Peer × List Msg :=
  if p.snd.acked = p.snd.sent ∧ p.snd.sent = p.snd.written.length then
    if p.rcv.fin || p.call then
      if !p.snd.fin || !p.ackRecv && decide (p.timer < nowtime) then
        ({ p with snd := p.snd.finish, timer := nowtime + finInterval },
          [.seg p.snd.finish.finSegment])
      else (p, [])
    else (p, [])
  else (p, [])

/-- `asyncSendTCPPacket`. -/
def tick (nowtime : ℕ) : Peer × List Msg :=
  if p.closed then (p, [])
  else
    let (p, segment) := p.sendSegment nowtime
    let (p, fin) := p.sendFin nowtime
    (p, segment ++ fin)

/-- `TCPHandleEstablished`, and `TCPHandleClosed` once the connection is closed. -/
def handle : Msg → Peer × Option Msg
  | .ack a =>
    if p.closed then (p, none)
    else
      ({ p with
        snd := p.snd.onAck a
        ackRecv := p.ackRecv || p.snd.fin
        closed := p.snd.fin && p.rcv.fin }, none)
  | .seg m =>
    if p.closed then (p, none)
    else
      let (rcv, answer) := p.rcv.onSegment cap m
      ({ p with rcv := rcv }, answer.map .ack)

end Peer

/-! ### Both ends -/

/-- Two ends and what is in flight from each. -/
structure Duo where
  peer : Side → Peer
  chan : Side → List Msg

namespace Duo

variable (d : Duo)

def send (x : Side) (p : Peer) (out : List Msg) : Duo where
  peer := Function.update d.peer x p
  chan := Function.update d.chan x (d.chan x ++ out)

def setPeer (x : Side) (p : Peer) : Duo := { d with peer := Function.update d.peer x p }

def setChan (x : Side) (l : List Msg) : Duo := { d with chan := Function.update d.chan x l }

/-- The oldest message sent by `x` reaches the other side. -/
def deliver (x : Side) : Option Duo :=
  match d.chan x with
  | [] => none
  | m :: rest =>
    let (p, answer) := (d.peer x.other).handle m
    some ((d.setChan x rest).send x.other p answer.toList)

def step : Action → Duo → Option Duo
  | .write x buf, d =>
    if (d.peer x).call then none else ((d.peer x).write buf).map (d.setPeer x)
  | .read x nbyte, d => ((d.peer x).read nbyte).map (d.setPeer x)
  | .close x, d => some (d.setPeer x { d.peer x with call := true })
  | .tick x nowtime, d =>
    let (p, out) := (d.peer x).tick nowtime
    some (d.send x p out)
  | .deliver x, d => d.deliver x
  | .lose x i, d => some (d.setChan x (Channel.lose i (d.chan x)))
  | .repeatAt x i, d => some (d.setChan x (Channel.repeatAt i (d.chan x)))

section Fields

variable {d} {x y : Side} {p : Peer} {out l : List Msg}

@[simp] theorem peer_setPeer_self : (d.setPeer x p).peer x = p := Function.update_self ..

@[simp] theorem peer_setPeer_other : (d.setPeer x p).peer x.other = d.peer x.other :=
  Function.update_of_ne (Side.other_ne x) ..

@[simp] theorem peer_setPeer_other' : (d.setPeer x.other p).peer x = d.peer x :=
  Function.update_of_ne (Side.ne_other x) ..

@[simp] theorem chan_setPeer : (d.setPeer x p).chan = d.chan := rfl

@[simp] theorem chan_setChan_self : (d.setChan x l).chan x = l := Function.update_self ..

@[simp] theorem chan_setChan_other : (d.setChan x l).chan x.other = d.chan x.other :=
  Function.update_of_ne (Side.other_ne x) ..

@[simp] theorem chan_setChan_other' : (d.setChan x.other l).chan x = d.chan x :=
  Function.update_of_ne (Side.ne_other x) ..

@[simp] theorem peer_setChan : (d.setChan x l).peer = d.peer := rfl

theorem send_eq : d.send x p out = (d.setPeer x p).setChan x (d.chan x ++ out) := rfl

end Fields

/-! ### The invariant -/

/-- The direction from `x` to the other side. -/
def Dir (d : Duo) (x : Side) : Prop :=
  StopAndWait.Inv cap mss (d.peer x).snd (d.peer x.other).rcv (Msg.segs (d.chan x))
    (Msg.acks (d.chan x.other))

/-- How the flags of one end depend on each other. -/
structure FlagsOk (p : Peer) : Prop where
  /-- A `FIN` is only sent after the application has closed, or in answer to one. -/
  fin_cause : p.snd.fin = true → p.call = true ∨ p.rcv.fin = true
  ackRecv_fin : p.ackRecv = true → p.snd.fin = true
  closed_fin : p.closed = true → p.snd.fin = true ∧ p.rcv.fin = true ∧ p.ackRecv = true

structure Inv (d : Duo) : Prop where
  dir : ∀ x, d.Dir x
  flags : ∀ x, FlagsOk (d.peer x)

end Duo

/-! ### What one end can do -/

namespace Peer

variable {p q : Peer} {out : List Msg} {now : ℕ}

/-- A write that fits goes in whole. -/
theorem write_eq (p : Peer) (buf : List Byte) (hclosed : p.closed = false)
    (hfin : p.rcv.fin = false)
    (hpos : 0 < buf.length) (hroom : p.snd.written.length + buf.length ≤ p.snd.acked + cap) :
    p.write buf = some { p with snd := p.snd.write buf } := by
  have hmin : min buf.length (p.snd.acked + cap - p.snd.written.length) = buf.length := by omega
  simp only [write, hclosed, hfin, hmin, if_pos hpos, List.take_length, Bool.or_self,
    Bool.false_eq_true, if_false]

/-- So does a read of what is there. -/
theorem read_eq {n : ℕ} (hpos : 0 < n) (hn : p.rcv.taken + n ≤ p.rcv.accepted.length) :
    p.read n = some { p with rcv := p.rcv.take n } := by
  have hmin : min n (p.rcv.accepted.length - p.rcv.taken) = n := by omega
  simp only [read, hmin, if_pos hpos]

/-- A write changes what is written, and nothing else. -/
theorem write_frame {buf : List Byte} (h : p.write buf = some q) :
    q = { p with snd := { p.snd with written := q.snd.written } } := by
  simp only [write] at h
  split_ifs at h
  all_goals
    obtain rfl := Option.some.inj h
    rfl

theorem read_frame {n : ℕ} (h : p.read n = some q) :
    q = { p with rcv := { p.rcv with taken := q.rcv.taken } } := by
  simp only [read] at h
  split_ifs at h
  all_goals
    obtain rfl := Option.some.inj h
    rfl

/-- The three outcomes of the first half of a tick. -/
theorem sendSegment_cases (h : p.sendSegment now = (q, out)) :
    (q = p ∧ out = []) ∨
    ((p.snd.sent ≠ p.snd.acked ∨ p.snd.window = 0) ∧ p.timer < now ∧
      q = { p with timer := now + resendInterval } ∧ out = [.seg p.snd.current]) ∨
    (∃ n, p.snd.sent = p.snd.acked ∧ 0 < n ∧ n ≤ mss ∧ n ≤ p.snd.window ∧
      p.snd.sent + n ≤ p.snd.written.length ∧
      q = { p with snd := p.snd.transmit n, timer := now + resendInterval } ∧
      out = [.seg (p.snd.transmit n).current]) := by
  simp only [sendSegment] at h
  split_ifs at h with hold htimer hpos
  · obtain ⟨rfl, rfl⟩ := Prod.mk.inj h
    exact Or.inr (Or.inl ⟨hold, htimer, rfl, rfl⟩)
  · obtain ⟨rfl, rfl⟩ := Prod.mk.inj h
    exact Or.inl ⟨rfl, rfl⟩
  · obtain ⟨rfl, rfl⟩ := Prod.mk.inj h
    refine Or.inr (Or.inr ⟨_, ?_, hpos, ?_, ?_, ?_, rfl, rfl⟩) <;> omega
  · obtain ⟨rfl, rfl⟩ := Prod.mk.inj h
    exact Or.inl ⟨rfl, rfl⟩

/-- The two outcomes of the second half. -/
theorem sendFin_cases (h : p.sendFin now = (q, out)) :
    (q = p ∧ out = []) ∨
    (p.snd.acked = p.snd.written.length ∧ (p.rcv.fin = true ∨ p.call = true) ∧
      (p.snd.fin = true → p.ackRecv = false ∧ p.timer < now) ∧
      q = { p with snd := p.snd.finish, timer := now + finInterval } ∧
      out = [.seg p.snd.finish.finSegment]) := by
  rw [sendFin] at h
  split_ifs at h with hdrained hcause hagain
  · obtain ⟨rfl, rfl⟩ := Prod.mk.inj h
    refine Or.inr ⟨hdrained.1.trans hdrained.2, by simpa using hcause, ?_, rfl, rfl⟩
    intro hfin
    simpa [hfin] using hagain
  all_goals
    obtain ⟨rfl, rfl⟩ := Prod.mk.inj h
    exact Or.inl ⟨rfl, rfl⟩

/-- A tick is one outcome of each half. -/
theorem tick_cases (h : p.tick now = (q, out)) :
    (p.closed = true ∧ q = p ∧ out = []) ∨
    (p.closed = false ∧ ∃ p' out₁ out₂, p.sendSegment now = (p', out₁) ∧
      p'.sendFin now = (q, out₂) ∧ out = out₁ ++ out₂) := by
  rw [tick] at h
  split_ifs at h with hclosed
  · obtain ⟨rfl, rfl⟩ := Prod.mk.inj h
    exact Or.inl ⟨hclosed, rfl, rfl⟩
  · obtain ⟨rfl, rfl⟩ := Prod.mk.inj h
    exact Or.inr ⟨by simpa using hclosed, _, _, _, rfl, rfl, rfl⟩

/-- A tick leaves the receiver and the application's close alone and sends no acknowledgement. -/
theorem tick_frame (p : Peer) (now : ℕ) :
    (p.tick now).1.rcv = p.rcv ∧ (p.tick now).1.call = p.call ∧
      (p.tick now).1.ackRecv = p.ackRecv ∧ (p.tick now).1.closed = p.closed ∧
      Msg.acks (p.tick now).2 = [] := by
  rcases h : p.tick now with ⟨q, out⟩
  rcases tick_cases h with ⟨-, rfl, rfl⟩ | ⟨-, p', out₁, out₂, h₁, h₂, rfl⟩
  · exact ⟨rfl, rfl, rfl, rfl, rfl⟩
  · have hseg : p'.rcv = p.rcv ∧ p'.call = p.call ∧ p'.ackRecv = p.ackRecv ∧
        p'.closed = p.closed ∧ Msg.acks out₁ = [] := by
      rcases sendSegment_cases h₁ with ⟨rfl, rfl⟩ | ⟨-, -, rfl, rfl⟩ | ⟨n, -, -, -, -, -, rfl, rfl⟩
      all_goals exact ⟨rfl, rfl, rfl, rfl, rfl⟩
    have hfin : q.rcv = p'.rcv ∧ q.call = p'.call ∧ q.ackRecv = p'.ackRecv ∧
        q.closed = p'.closed ∧ Msg.acks out₂ = [] := by
      rcases sendFin_cases h₂ with ⟨rfl, rfl⟩ | ⟨-, -, -, rfl, rfl⟩
      all_goals exact ⟨rfl, rfl, rfl, rfl, rfl⟩
    obtain ⟨a₁, b₁, c₁, e₁, f₁⟩ := hseg
    obtain ⟨a₂, b₂, c₂, e₂, f₂⟩ := hfin
    exact ⟨a₂.trans a₁, b₂.trans b₁, c₂.trans c₁, e₂.trans e₁, by simp [f₁, f₂]⟩

variable {r : Receiver Byte} {fwd : List (Segment Byte)} {bwd : List Ack}

/-- A tick keeps the direction it sends in. -/
theorem tick_inv (hinv : StopAndWait.Inv cap mss p.snd r fwd bwd) :
    StopAndWait.Inv cap mss (p.tick now).1.snd r (fwd ++ Msg.segs (p.tick now).2) bwd := by
  rcases h : p.tick now with ⟨q, out⟩
  rcases tick_cases h with ⟨-, rfl, rfl⟩ | ⟨-, p', out₁, out₂, h₁, h₂, rfl⟩
  · simpa using hinv
  · have hseg : StopAndWait.Inv cap mss p'.snd r (fwd ++ Msg.segs out₁) bwd := by
      rcases sendSegment_cases h₁ with ⟨rfl, rfl⟩ | ⟨-, -, rfl, rfl⟩ |
        ⟨n, hidle, hpos, hmss, hwin, havail, rfl, rfl⟩
      · simpa using hinv
      · exact hinv.repeatCurrent
      · exact hinv.transmit hidle hpos hmss hwin havail
    rw [Msg.segs_append, ← List.append_assoc]
    rcases sendFin_cases h₂ with ⟨rfl, rfl⟩ | ⟨hdrained, -, -, rfl, rfl⟩
    · simpa using hseg
    · exact hseg.finish hdrained

theorem tick_flags (hp : Duo.FlagsOk p) : Duo.FlagsOk (p.tick now).1 := by
  rcases h : p.tick now with ⟨q, out⟩
  rcases tick_cases h with ⟨-, rfl, rfl⟩ | ⟨-, p', out₁, out₂, h₁, h₂, rfl⟩
  · exact hp
  · have hseg : Duo.FlagsOk p' := by
      rcases sendSegment_cases h₁ with ⟨rfl, rfl⟩ | ⟨-, -, rfl, rfl⟩ | ⟨n, -, -, -, -, -, rfl, rfl⟩
      all_goals exact ⟨hp.fin_cause, hp.ackRecv_fin, hp.closed_fin⟩
    rcases sendFin_cases h₂ with ⟨rfl, rfl⟩ | ⟨-, hcause, -, rfl, rfl⟩
    · exact hseg
    · exact ⟨fun _ => hcause.symm, fun _ => rfl,
        fun hc => ⟨rfl, (hseg.closed_fin hc).2.1, (hseg.closed_fin hc).2.2⟩⟩

/-- A segment only concerns the receiver. -/
theorem handle_seg_frame (p : Peer) (m : Segment Byte) :
    (p.handle (.seg m)).1.snd = p.snd ∧ (p.handle (.seg m)).1.call = p.call ∧
      (p.handle (.seg m)).1.ackRecv = p.ackRecv ∧ (p.handle (.seg m)).1.closed = p.closed ∧
      Msg.segs (p.handle (.seg m)).2.toList = [] := by
  simp only [handle]
  split_ifs <;> simp

/-- An acknowledgement only concerns the sender, and is never answered. -/
theorem handle_ack_frame (p : Peer) (a : Ack) :
    (p.handle (.ack a)).1.rcv = p.rcv ∧ (p.handle (.ack a)).1.call = p.call ∧
      (p.handle (.ack a)).1.snd.fin = p.snd.fin ∧ (p.handle (.ack a)).2 = none := by
  simp only [handle]
  split_ifs <;> simp

theorem handle_seg_inv {s : Sender Byte} {m : Segment Byte}
    (hinv : StopAndWait.Inv cap mss s p.rcv (m :: fwd) bwd) :
    StopAndWait.Inv cap mss s (p.handle (.seg m)).1.rcv fwd
      (bwd ++ Msg.acks (p.handle (.seg m)).2.toList) := by
  simp only [handle]
  split_ifs with hclosed
  · simpa using hinv.degrades_fwd (Channel.degrades_tail m fwd)
  · simpa using hinv.onSegment

theorem handle_ack_inv {a : Ack} (hinv : StopAndWait.Inv cap mss p.snd r fwd (a :: bwd)) :
    StopAndWait.Inv cap mss (p.handle (.ack a)).1.snd r fwd bwd := by
  simp only [handle]
  split_ifs with hclosed
  · exact hinv.degrades_bwd (Channel.degrades_tail a bwd)
  · exact hinv.onAck

/-- A `FIN` once received stays received. -/
theorem handle_rcv_fin (m : Msg) (h : p.rcv.fin = true) : (p.handle m).1.rcv.fin = true := by
  cases m with
  | seg m =>
    simp only [handle]
    split_ifs
    · exact h
    · exact Receiver.fin_onSegment_of_fin _ h
  | ack a =>
    rw [(handle_ack_frame p a).1]
    exact h

theorem handle_flags (m : Msg) (hp : Duo.FlagsOk p) : Duo.FlagsOk (p.handle m).1 := by
  cases m with
  | seg m =>
    obtain ⟨hsnd, hcall, hack, hclosed, -⟩ := handle_seg_frame p m
    refine ⟨?_, ?_, ?_⟩
    · rw [hsnd, hcall]
      exact fun hf => (hp.fin_cause hf).imp id (handle_rcv_fin _)
    · rw [hsnd, hack]
      exact hp.ackRecv_fin
    · rw [hsnd, hack, hclosed]
      exact fun hc => ⟨(hp.closed_fin hc).1, handle_rcv_fin _ (hp.closed_fin hc).2.1,
        (hp.closed_fin hc).2.2⟩
  | ack a =>
    simp only [handle]
    split_ifs with hclosed
    · exact hp
    · refine ⟨?_, ?_, ?_⟩
      · simpa using hp.fin_cause
      · simp only [Bool.or_eq_true, Sender.fin_onAck]
        exact fun hc => hc.elim hp.ackRecv_fin id
      · simp only [Bool.and_eq_true, Sender.fin_onAck, Bool.or_eq_true]
        exact fun hc => ⟨hc.1, hc.2, Or.inr hc.1⟩

end Peer

/-! ### Every action keeps the invariant -/

namespace Duo

variable {d d' : Duo} {x : Side}

theorem Inv.of_sides (x : Side) (hx : d.Dir x) (hy : d.Dir x.other) (fx : FlagsOk (d.peer x))
    (fy : FlagsOk (d.peer x.other)) : d.Inv :=
  ⟨Side.forall_of_other x hx hy, Side.forall_of_other (p := fun z => FlagsOk (d.peer z)) x fx fy⟩

/-- Replacing one end by another that keeps both directions. -/
theorem Inv.setPeer (h : d.Inv) {p : Peer}
    (hsnd : StopAndWait.Inv cap mss p.snd (d.peer x.other).rcv (Msg.segs (d.chan x))
      (Msg.acks (d.chan x.other)))
    (hrcv : StopAndWait.Inv cap mss (d.peer x.other).snd p.rcv (Msg.segs (d.chan x.other))
      (Msg.acks (d.chan x)))
    (hp : FlagsOk p) : (d.setPeer x p).Inv := by
  refine .of_sides x ?_ ?_ ?_ ?_
  · simpa [Dir] using hsnd
  · simpa [Dir] using hrcv
  · simpa using hp
  · simpa using h.flags x.other

theorem Inv.setChan (h : d.Inv) {l : List Msg} (hl : Channel.Degrades (d.chan x) l) :
    (d.setChan x l).Inv := by
  refine .of_sides x ?_ ?_ ?_ ?_
  · simpa [Dir] using (h.dir x).degrades_fwd (Msg.degrades_segs hl)
  · have hother := h.dir x.other
    rw [Dir, Side.other_other] at hother
    simpa [Dir] using hother.degrades_bwd (Msg.degrades_acks hl)
  · simpa using h.flags x
  · simpa using h.flags x.other

theorem Inv.write (h : d.Inv) {buf : List Byte} (hcall : (d.peer x).call = false) {p : Peer}
    (hp : (d.peer x).write buf = some p) : (d.setPeer x p).Inv := by
  have hdir := h.dir x
  have hother := h.dir x.other
  rw [Dir, Side.other_other] at hother
  simp only [Peer.write] at hp
  split_ifs at hp with hrefused hpos
  · obtain rfl := Option.some.inj hp
    exact h.setPeer hdir hother (h.flags x)
  · obtain rfl := Option.some.inj hp
    have hopen : (d.peer x).snd.fin = false := by
      by_contra hfin
      have := (h.flags x).fin_cause (by simpa using hfin)
      simp_all
    refine h.setPeer (hdir.write hopen ?_) hother
      ⟨(h.flags x).fin_cause, (h.flags x).ackRecv_fin, (h.flags x).closed_fin⟩
    have := hdir.ring_le
    rw [List.length_take]
    omega

theorem Inv.read (h : d.Inv) {nbyte : ℕ} {p : Peer} (hp : (d.peer x).read nbyte = some p) :
    (d.setPeer x p).Inv := by
  have hdir := h.dir x
  have hother := h.dir x.other
  rw [Dir, Side.other_other] at hother
  simp only [Peer.read] at hp
  split_ifs at hp with hpos hclosed
  · obtain rfl := Option.some.inj hp
    refine h.setPeer hdir (hother.take ?_)
      ⟨(h.flags x).fin_cause, (h.flags x).ackRecv_fin, (h.flags x).closed_fin⟩
    have := hother.taken_le
    omega
  · obtain rfl := Option.some.inj hp
    exact h.setPeer hdir hother (h.flags x)

theorem Inv.close (h : d.Inv) : (d.setPeer x { d.peer x with call := true }).Inv := by
  have hother := h.dir x.other
  rw [Dir, Side.other_other] at hother
  exact h.setPeer (h.dir x) hother
    ⟨fun _ => Or.inl rfl, (h.flags x).ackRecv_fin, (h.flags x).closed_fin⟩

theorem Inv.tick (h : d.Inv) (now : ℕ) :
    (d.send x ((d.peer x).tick now).1 ((d.peer x).tick now).2).Inv := by
  obtain ⟨hrcv, -, -, -, hacks⟩ := Peer.tick_frame (d.peer x) now
  have hother := h.dir x.other
  rw [Dir, Side.other_other] at hother
  rw [send_eq]
  refine .of_sides x ?_ ?_ ?_ ?_
  · simpa [Dir] using Peer.tick_inv (h.dir x)
  · simpa [Dir, hrcv, hacks] using hother
  · simpa using Peer.tick_flags (h.flags x)
  · simpa using h.flags x.other

/-- Delivering the oldest message of `x`. -/
theorem Inv.deliver (h : d.Inv) (hd : d.deliver x = some d') : d'.Inv := by
  have hdir := h.dir x
  have hother := h.dir x.other
  have hflags := h.flags x.other
  rw [Dir] at hdir
  rw [Dir, Side.other_other] at hother
  cases hchan : d.chan x with
  | nil => simp [Duo.deliver, hchan] at hd
  | cons m rest =>
    rw [hchan] at hdir hother
    simp only [Duo.deliver, hchan, Option.some.injEq] at hd
    subst hd
    rw [send_eq]
    have hqflags := Peer.handle_flags m hflags
    cases m with
    | seg m =>
      obtain ⟨hsnd, -, -, -, hsegs⟩ := Peer.handle_seg_frame (d.peer x.other) m
      simp only [Msg.segs_cons_seg, Msg.acks_cons_seg] at hdir hother
      refine .of_sides x ?_ ?_ ?_ ?_
      · simpa [Dir] using Peer.handle_seg_inv hdir
      · simpa [Dir, hsnd, hsegs] using hother
      · simpa using h.flags x
      · simpa using hqflags
    | ack a =>
      obtain ⟨hrcv, -, -, hnone⟩ := Peer.handle_ack_frame (d.peer x.other) a
      simp only [Msg.segs_cons_ack, Msg.acks_cons_ack] at hdir hother
      refine .of_sides x ?_ ?_ ?_ ?_
      · simpa [Dir, hrcv, hnone] using hdir
      · simpa [Dir, hnone] using Peer.handle_ack_inv hother
      · simpa using h.flags x
      · simpa using hqflags

/-- **Every action keeps the invariant.** -/
theorem Inv.step {act : Action} (h : d.Inv) (hd : Duo.step act d = some d') : d'.Inv := by
  cases act with
  | write x buf =>
    simp only [Duo.step] at hd
    split_ifs at hd with hcall
    obtain ⟨p, hp, rfl⟩ := Option.map_eq_some_iff.mp hd
    exact h.write (by simpa using hcall) hp
  | read x nbyte =>
    obtain ⟨p, hp, rfl⟩ := Option.map_eq_some_iff.mp hd
    exact h.read hp
  | close x =>
    obtain rfl := Option.some.inj hd
    exact h.close
  | tick x now =>
    obtain rfl := Option.some.inj hd
    exact h.tick now
  | deliver x => exact h.deliver hd
  | lose x i =>
    obtain rfl := Option.some.inj hd
    exact h.setChan (Channel.degrades_lose i _)
  | repeatAt x i =>
    obtain rfl := Option.some.inj hd
    exact h.setChan (Channel.degrades_repeatAt i _)

end Duo

end LabNetstack
