import LabNetstack.Lib.Channel
import LabNetstack.Lib.Run
import LabNetstack.Transport.MainThread
import Mathlib.Logic.Function.Basic

/-!
# Two connected sockets

The system the transport layer is part of: the two sockets of one connection, and the segments in
flight between them. The channels keep the order of what they carry; they may lose any segment,
and they may repeat one in place.

`Sys.step` performs one action: a call of an application (`writeLab` and `readLab` as one step
each), one round of `asyncSendTCPPacket` over the socket, the delivery of the oldest segment of a
channel to `handleTCPMain`, or a fault of a channel. An action is impossible, `none`, when a call
is still waiting, when there is nothing to deliver, and when the process aborts.

The applications keep to one rule: nothing is written after `closeLab`.

A run starts where the handshake leaves the two sockets. Repetitions of the last two handshake
segments may still be in flight.
-/

namespace LabNetstack

open RingMemory

/-- The two ends: `a` called `connectLab`, `b` was created by the listening socket. -/
inductive Side
  | a
  | b
deriving DecidableEq

namespace Side

def other : Side → Side
  | a => b
  | b => a

@[simp] theorem other_other (x : Side) : x.other.other = x := by cases x <;> rfl

@[simp] theorem other_ne (x : Side) : x.other ≠ x := by cases x <;> decide

@[simp] theorem ne_other (x : Side) : x ≠ x.other := by cases x <;> decide

theorem eq_or_eq_other (x y : Side) : y = x ∨ y = x.other := by cases x <;> cases y <;> decide

/-- What holds of a side and of the other holds of both. -/
theorem forall_of_other {p : Side → Prop} (x : Side) (hx : p x) (hy : p x.other) : ∀ z, p z := by
  intro z
  rcases eq_or_eq_other x z with rfl | rfl
  · exact hx
  · exact hy

end Side

/-- What can happen next. -/
inductive Action
  | write (x : Side) (buf : List Byte)
  | read (x : Side) (nbyte : ℕ)
  | close (x : Side)
  | tick (x : Side) (nowtime : ℕ)
  | deliver (x : Side)
  | lose (x : Side) (i : ℕ)
  | repeatAt (x : Side) (i : ℕ)
deriving DecidableEq

/-- The timer and the channels, without the applications and without faults. -/
def Action.Automatic : Action → Prop
  | .tick _ _ => True
  | .deliver _ => True
  | _ => False

/-- The state of the system. `chan x` is in flight from `x`; `written x` is everything `writeLab`
has accepted at `x`, `returned x` everything `readLab` has returned there. -/
structure Sys where
  socket : Side → Socket
  chan : Side → List TCPPacket
  written : Side → List Byte
  returned : Side → List Byte

namespace Sys

variable (s : Sys)

/-- `x` hands segments to its channel. -/
def send (x : Side) (socket : Socket) (out : List TCPPacket) : Sys :=
  { s with
    socket := Function.update s.socket x socket
    chan := Function.update s.chan x (s.chan x ++ out) }

/-- The oldest segment sent by `x` reaches the other side. -/
def deliver (x : Side) : Option Sys :=
  match s.chan x with
  | [] => none
  | packet :: rest =>
    (handleTCPMain (s.socket x.other) packet).map fun (socket, out) =>
      { s with chan := Function.update s.chan x rest }.send x.other socket out

def step : Action → Sys → Option Sys
  | .write x buf, s =>
    if (s.socket x).hasFlag CLOSEState.call then none
    else (writeLab (s.socket x) buf).map fun (n, socket) =>
      { s with
        socket := Function.update s.socket x socket
        written := Function.update s.written x (s.written x ++ buf.take n.toNat) }
  | .read x nbyte, s =>
    (readLab (s.socket x) nbyte).map fun (bytes, socket) =>
      { s with
        socket := Function.update s.socket x socket
        returned := Function.update s.returned x (s.returned x ++ bytes) }
  | .close x, s =>
    some { s with socket := Function.update s.socket x (closeLab (s.socket x)) }
  | .tick x nowtime, s =>
    let (socket, out) := asyncSendTCPPacket nowtime (s.socket x)
    some (s.send x socket out)
  | .deliver x, s => s.deliver x
  | .lose x i, s =>
    some { s with chan := Function.update s.chan x (Channel.lose i (s.chan x)) }
  | .repeatAt x i, s =>
    some { s with chan := Function.update s.chan x (Channel.repeatAt i (s.chan x)) }

/-- A run of the system. -/
def run : List Action → Sys → Option Sys := Run.run step

/-- Deliver everything that `x` has in flight, in order. -/
def flush (x : Side) (s : Sys) : Option Sys :=
  s.run (List.replicate (s.chan x).length (.deliver x))

end Sys

/-! ### The handshake -/

/-- The choices a handshake leaves open: descriptors, addresses and ports, and the unspecified
contents of the four buffers. -/
structure Handshake where
  clientFd : ℤ
  listenFd : ℤ
  childFd : ℤ
  clientAddr : IPAddr
  clientPort : Port
  device : IPAddr
  ephemeral : Port
  listenAddr : IPAddr
  serverAddr : IPAddr
  serverPort : Port
  clientRead : Mem Byte
  clientWrite : Mem Byte
  childRead : Mem Byte
  childWrite : Mem Byte

namespace Handshake

variable (h : Handshake)

/-- The client's socket after `socketLab` and `bindLab`. -/
def client : Socket :=
  { allocSocket h.clientFd h.clientRead h.clientWrite with
    srcaddr := h.clientAddr
    srcport := h.clientPort }

/-- The server's socket after `socketLab`, `bindLab` and `listenLab`. -/
def listener : Socket :=
  { allocSocket h.listenFd h.childRead h.childWrite with
    srcaddr := h.listenAddr
    srcport := h.serverPort
    state := .listen }

/-- `connectLab`, `TCPHandleListen`, `TCPHandleSyssent` and `TCPHandleSysrecv` in turn. Of the
handshake segments, `i` copies of the last and `j` copies of the one before are left behind. -/
def start (i j : ℕ) : Option Sys :=
  let (client, syn) := connectLab h.client h.ephemeral h.device h.serverAddr h.serverPort
  match TCPHandleListen h.listener (allocSocket h.childFd h.childRead h.childWrite) syn with
  | none => none
  | some (child, synAck) =>
    match TCPHandleSyssent client synAck with
    | (client, [ack]) =>
      let (server, _) := TCPHandleSysrecv child ack
      some
        { socket := fun | .a => client | .b => server
          chan := fun | .a => List.replicate i ack | .b => List.replicate j synAck
          written := fun _ => []
          returned := fun _ => [] }
    | _ => none

/-- A handshake followed by a run. -/
def run (i j : ℕ) (acts : List Action) : Option Sys := (h.start i j).bind (Sys.run acts)

/-- The handshake in which every choice is zero. -/
def zero : Handshake :=
  ⟨0, 0, 0, 0, 0, 0, 0, 0, 0, 0, fun _ => 0, fun _ => 0, fun _ => 0, fun _ => 0⟩

end Handshake

/-- The states of the system: what some run from the end of some handshake leads to. -/
def Sys.Reachable (s : Sys) : Prop :=
  ∃ (h : Handshake) (i j : ℕ) (acts : List Action), h.run i j acts = some s

theorem Sys.reachable_get {h : Handshake} {i j : ℕ} {acts : List Action}
    (hs : (h.run i j acts).isSome) : ((h.run i j acts).get hs).Reachable :=
  ⟨h, i, j, acts, (Option.some_get hs).symm⟩

theorem Sys.Reachable.run {s s' : Sys} {acts : List Action} (h : s.Reachable)
    (hrun : s.run acts = some s') : s'.Reachable := by
  obtain ⟨hs, i, j, acts₀, hrun₀⟩ := h
  refine ⟨hs, i, j, acts₀ ++ acts, ?_⟩
  obtain ⟨s₀, hstart, hrun₀⟩ := Option.bind_eq_some_iff.mp hrun₀
  rw [Handshake.run, hstart]
  exact Run.run_trans hrun₀ hrun

end LabNetstack
