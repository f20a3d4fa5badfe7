import LabNetstack.Stack.Connection
import LabNetstack.Transport.Stages

/-!
# A connection from its first segment

`Connection` takes a connection from where the handshake has left it. Here it is followed from the
call of `connectLab` on, with everything that the other sockets, the other hosts and the network do
in the meantime. Either end may still wait: the client for the answer to its `SYN`, the server for
the acknowledgement of that answer. Until the `SYN` has come through, the server's end is not there
at all.

An end that waits has no bytes in its rings, reads nothing and writes nothing, and its timer does
not run; so between the two ends of `Ether` it is a fresh end to which nothing happens. What it is
handed without getting connected is lost on it, which the network might have done as well. Nor does
`closeLab` return at an end that waits, so that nobody frees its socket.

Nothing is known of old segments but that there are none: a segment that bears the numbers of the
connection and has been sent before `connectLab` would be taken for one of its own.

## Main results

* `Connection.Joins.call`, `Connection.Joins.deliver` — one step of one of the hosts
* `Connection.Joins.agree` — the server's end gets connected only when the client's has been
* `Connection.Joins.reliable` — what is known of the two ends
-/

namespace LabNetstack

open RingMemory StopAndWait

/-! ### Sockets that wait -/

/-- A socket that has not been part of a connection. -/
structure Socket.Unused (k : Socket) : Prop where
  isConnection : k.isConnection = false
  clstate : k.clstate = 0
  empty : k.recvFront = k.recvBack
  resendTime : k.resendTime = 0

/-- What the handlers of the handshake rely on. -/
structure Socket.Pending (k : Socket) (state : TCPState) : Prop extends k.Unused where
  state : k.state = state
  seqNum : k.seqNum = -1
  ackNum : k.ackNum = 0

/-- The socket waits for the handshake to go on; `closeLab` may have been called on it. -/
def Socket.Awaits (k : Socket) (state : TCPState) (call : Bool) : Prop :=
  ∃ k₀ : Socket, k₀.Pending state ∧ k = k₀.withCall call

/-- A `SYN` has the sequence number `-1`. -/
def TCPPacket.Numbered (packet : TCPPacket) : Prop :=
  packet.IsSyn → ntohl packet.tcpHeader.seqNum = -1

section Socket

variable {k k' : Socket} {state : TCPState} {call : Bool} {packet : TCPPacket}
  {out : List TCPPacket}

theorem Socket.Unused.connectLab (h : k.Unused) (port : Port) (device addr : IPAddr)
    (desport : Port) : (LabNetstack.connectLab k port device addr desport).1.Pending .sysSent :=
  ⟨⟨h.isConnection, h.clstate, h.empty, h.resendTime⟩, rfl, rfl, rfl⟩

theorem isOpening_connectLab (port : Port) (device addr : IPAddr) (desport : Port) :
    (LabNetstack.connectLab k port device addr desport).2.IsOpening :=
  ⟨rfl, rfl⟩

namespace Socket.Awaits

theorem isConnection (h : k.Awaits state call) : k.isConnection = false := by
  obtain ⟨k₀, hfresh, rfl⟩ := h
  rw [Config.isConnection_withCall]
  exact hfresh.isConnection

theorem state_eq (h : k.Awaits state call) : k.state = state := by
  obtain ⟨k₀, hfresh, rfl⟩ := h
  rw [Config.state_withCall]
  exact hfresh.state

theorem empty (h : k.Awaits state call) : k.recvFront = k.recvBack := by
  obtain ⟨k₀, hfresh, rfl⟩ := h
  cases call <;> exact hfresh.empty

theorem hasFlag_finRecv (h : k.Awaits state call) : k.hasFlag CLOSEState.finRecv = false := by
  obtain ⟨k₀, hfresh, rfl⟩ := h
  cases call <;> simp only [Socket.hasFlag, Socket.withCall, LabNetstack.closeLab, hfresh.clstate,
    if_true, Bool.false_eq_true, if_false] <;> decide

/-- The wait loop of `closeLab` goes on. -/
theorem closeLabExits (h : k.Awaits state call) (hstate : state ≠ .closed) :
    LabNetstack.closeLabExits k = false := by
  obtain ⟨k₀, hfresh, rfl⟩ := h
  exact closeLabExits_withCall (hfresh.state ▸ hstate) hfresh.clstate call

/-- A round of the timer. -/
theorem tick (h : k.Awaits state call) (now : ℕ) : asyncSendTCPPacket now k = (k, []) :=
  asyncSendTCPPacket_of_not h.isConnection now

/-- Nothing can be written. -/
theorem writeLab (h : k.Awaits state call) (hstate : state ≠ .establisted) (buf : List Byte) :
    LabNetstack.writeLab k buf = some (-1, k) := by
  have hrefused : writeRefused k = true := by simp [writeRefused, h.state_eq, hstate]
  rw [LabNetstack.writeLab, if_pos hrefused]

/-- Nothing can be read. -/
theorem readLab (h : k.Awaits state call) (hstate : state ≠ .closed) (nbyte : ℕ) :
    LabNetstack.readLab k nbyte = none := by
  have hspace : k.recvFront - k.recvBack = 0 := sub_eq_zero.mpr h.empty
  have hnone : ¬ 0 < recvByte k nbyte := by
    rw [recvByte, hspace]
    split_ifs with hn
    · simp
    · rw [show nbyte = 0 by simpa using hn]
      simp
  rw [LabNetstack.readLab, if_neg hnone, if_neg (by rwa [h.state_eq])]

theorem closeLab (h : k.Awaits state call) : (LabNetstack.closeLab k).Awaits state true := by
  obtain ⟨k₀, hfresh, rfl⟩ := h
  exact ⟨k₀, hfresh, closeLab_withCall k₀ call⟩

/-- What `acceptLab` changes does not matter. -/
theorem accept (h : k.Awaits state call) : { k with parentListenFd := 0 }.Awaits state call := by
  obtain ⟨k₀, hfresh, rfl⟩ := h
  refine ⟨{ k₀ with parentListenFd := 0 }, ⟨⟨hfresh.isConnection, hfresh.clstate, hfresh.empty,
    hfresh.resendTime⟩, hfresh.state, hfresh.seqNum, hfresh.ackNum⟩, ?_⟩
  cases call <;> rfl

/-- **The client's end.** The answer to the `SYN` connects it; all else is lost on it. -/
theorem handle_sysSent (h : k.Awaits .sysSent call) (hnumbered : packet.Numbered)
    (hrun : handleTCPMain k packet = some (k', out)) :
    (k' = k ∧ out = []) ∨
      (k'.Rep (Peer.started call) ∧ ∃ ack, out = [ack] ∧ ack.Rep (.ack startAck)) := by
  have hstate := h.state_eq
  obtain ⟨k₀, hfresh, rfl⟩ := h
  simp only [handleTCPMain, hstate, Config.TCPHandleSyssent_withCall, Option.some.injEq,
    Prod.mk.injEq] at hrun
  obtain ⟨rfl, rfl⟩ := hrun
  rw [TCPHandleSyssent]
  split_ifs with hanswer
  · have hnum : ntohl packet.tcpHeader.seqNum + 1 = 0 := by
      rw [hnumbered hanswer.1]
      decide
    have hone : k₀.seqNum + 1 = 0 := by
      rw [hfresh.seqNum]
      decide
    refine Or.inr ⟨Config.rep_withCall ?_ call, _, rfl, .ack startAck ?_ ?_ ?_ ?_ rfl⟩
    · exact Socket.rep_start rfl rfl hfresh.clstate rfl rfl rfl rfl hone rfl rfl hnum
        hfresh.resendTime
    · exact (by decide : ctAck &&& ctAck ≠ 0)
    · exact (by decide : ctAck &&& ctFin = 0)
    · change htonl (htonl (ntohl packet.tcpHeader.seqNum + 1)) = _
      rw [hnum]
      decide
    · exact (by decide : htons (htons 0xffff) = BitVec.ofNat 16 startAck.win)
  · exact Or.inl ⟨rfl, rfl⟩

/-- **The server's end.** An acknowledgement connects it; all else is lost on it. -/
theorem handle_sysRecv (h : k.Awaits .sysRecv call)
    (hrun : handleTCPMain k packet = some (k', out)) :
    out = [] ∧ (k' = k ∨ packet.IsAck ∧ k'.Rep (Peer.started call)) := by
  have hstate := h.state_eq
  obtain ⟨k₀, hfresh, rfl⟩ := h
  simp only [handleTCPMain, hstate, Config.TCPHandleSysrecv_withCall, Option.some.injEq,
    Prod.mk.injEq] at hrun
  obtain ⟨rfl, rfl⟩ := hrun
  rw [TCPHandleSysrecv]
  split_ifs with hack
  · have hone : k₀.seqNum + 1 = 0 := by
      rw [hfresh.seqNum]
      decide
    refine ⟨rfl, Or.inr ⟨hack, Config.rep_withCall ?_ call⟩⟩
    exact Socket.rep_start rfl rfl hfresh.clstate rfl rfl rfl rfl hone rfl rfl hfresh.ackNum
      hfresh.resendTime
  · exact ⟨rfl, Or.inl rfl⟩

end Socket.Awaits

end Socket

namespace Process

variable {p p' : Process} {act : Action} {list list' : SocketList} {packet : TCPPacket}
  {out : List TCPPacket} {readMem writeMem : Mem Byte}

/-- **A segment creates a socket that waits**, and that has answered, or no socket at all. -/
theorem child_or_fds (hnumbered : packet.Numbered)
    (h : list.handleTCPMain readMem writeMem packet = some (list', out)) :
    (list'.sockets.map Socket.fd = list.sockets.map Socket.fd) ∨
      ∃ child answer, list'.sockets = list.sockets ++ [child] ∧ out = [answer] ∧
        child.fd = list.nextFd ∧ child.Pending .sysRecv ∧ answer.Rep (.ack startAck) := by
  rcases handleTCPMain_cases h with ⟨rfl, -⟩ | ⟨it, child, answer, haccept, rfl, rfl⟩ |
    ⟨it, it', -, -, -, rfl⟩
  · exact Or.inl rfl
  · obtain ⟨hsyn, rfl, rfl⟩ := TCPHandleListen_eq_some haccept
    have hnum : ntohl packet.tcpHeader.seqNum + 1 = 0 := by
      rw [hnumbered hsyn]
      decide
    refine Or.inr ⟨_, _, rfl, rfl, rfl, ⟨⟨rfl, rfl, rfl, rfl⟩, rfl, rfl, hnum⟩, ?_⟩
    refine .ack startAck ?_ ?_ ?_ ?_ rfl
    · exact (by decide : (ctSyn ||| ctAck) &&& ctAck ≠ 0)
    · exact (by decide : (ctSyn ||| ctAck) &&& ctFin = 0)
    · change htonl (htonl (ntohl packet.tcpHeader.seqNum + 1)) = _
      rw [hnum]
      decide
    · exact (by decide : htons (htons 0xffff) = BitVec.ofNat 16 startAck.win)
  · exact Or.inl (SocketList.fds_update list it')

/-- **Every `SYN` that is sent has the same number.** -/
theorem sent_numbered (hpacket : packet ∈ p.sent act) : packet.Numbered := by
  have hnoSyn : packet.tcpHeader.ctrl &&& ctSyn = 0 → packet.Numbered :=
    fun hnone hsyn => absurd hnone hsyn
  have hnumber : ntohl (htonl (-1)) = -1 := by decide
  cases act with
  | connectLab fd addr port =>
    simp only [sent] at hpacket
    split at hpacket
    · cases hpacket
    · obtain rfl := List.mem_singleton.mp hpacket
      exact fun _ => hnumber
  | tick now =>
    simp only [sent, SocketList.asyncSendTCPPacket, List.flatMap_map, List.mem_flatMap] at hpacket
    obtain ⟨k, -, hpacket⟩ := hpacket
    exact hnoSyn ((identity_asyncSendTCPPacket now k).2 packet hpacket).noSyn
  | segment readMem writeMem packet' =>
    simp only [sent] at hpacket
    split at hpacket
    · cases hpacket
    next list out hlist =>
      rcases handleTCPMain_cases hlist with ⟨-, rfl⟩ | ⟨it, child, answer, haccept, -, rfl⟩ |
        ⟨it, it', -, -, hrun, -⟩
      · cases hpacket
      · obtain ⟨-, -, rfl⟩ := TCPHandleListen_eq_some haccept
        obtain rfl := List.mem_singleton.mp hpacket
        exact fun _ => hnumber
      · exact hnoSyn ((identity_handleTCPMain hrun).2 packet hpacket).noSyn
  | _ => cases hpacket

end Process

/-- The call of `connectLab`: the socket waits, and its `SYN` has been sent. -/
theorem Upper.step_connectLab {upper upper' : Upper} {fd : ℤ} {addr : IPAddr} {port : Port}
    {k : Socket} (hstep : upper.step (.connectLab fd addr port) = some upper')
    (hk : upper.process.list.findSocket fd = some k) (hunused : k.Unused) :
    ∃ k' syn, upper'.process.list = upper.process.list.update k' ∧
      upper'.process.closing = upper.process.closing ∧ upper'.sent = upper.sent ++ [syn] ∧
      k'.Pending .sysSent ∧ k'.fd = k.fd ∧ syn.IsOpening ∧ syn.tuple = k'.tuple.swap := by
  let res := (if k.srcport = 0 then getPort upper.process.port else (0, upper.process.port)).1
  let connected := connectLab k res upper.process.device addr port
  have hprocess := Upper.step_process hstep
  simp only [Process.step, Process.onSocket, hk, Option.some.injEq] at hprocess
  refine ⟨connected.1, connected.2, (congrArg Process.list hprocess).symm,
    (congrArg Process.closing hprocess).symm, ?_, hunused.connectLab .., rfl,
    isOpening_connectLab .., rfl⟩
  rw [Upper.step_sent hstep]
  simp only [Process.sent, hk]
  rfl

theorem Duo.peer_send_other (d : Duo) (x : Side) (p : Peer) (out : List Msg) :
    (d.send x p out).peer x.other = d.peer x.other := by
  rw [Duo.send_eq, Duo.peer_setChan, Duo.peer_setPeer_other]

/-! ### Ends that wait -/

namespace Connection

variable {ι : Type*} (c : Connection ι)

/-- Nobody else has the numbers, nor the descriptors. -/
def Separate (up : ι → Upper) : Prop :=
  ∀ v, ∀ k ∈ (up v).process.list.sockets, ∀ x, k.tuple = c.tuple x ↔ v = c.node x ∧ k.fd = c.fd x

instance [Fintype ι] [DecidableEq ι] (up : ι → Upper) : Decidable (c.Separate up) :=
  inferInstanceAs (Decidable (∀ v, ∀ k ∈ (up v).process.list.sockets, ∀ x,
    k.tuple = c.tuple x ↔ v = c.node x ∧ k.fd = c.fd x))

/-- The state in which an end waits for the handshake to go on. -/
def waitState : Side → TCPState
  | .a => .sysSent
  | .b => .sysRecv

/-- The socket of the end waits, and stands for a fresh end. -/
def Waiting (x : Side) (list : SocketList) (p : Peer) : Prop :=
  ∃ k ∈ list.sockets, k.fd = c.fd x ∧ k.tuple = c.tuple x ∧
    ∃ call, k.Awaits (waitState x) call ∧ p = Peer.started call

/-- The server's end has not been created. -/
def Missing (x : Side) (list : SocketList) (p : Peer) : Prop :=
  x = .b ∧ (∀ k ∈ list.sockets, k.fd ≠ c.fd x) ∧ p = Peer.start

/-- How far an end has got. Before it is connected, nobody is about to free its socket. -/
inductive Stands (x : Side) (process : Process) (p : Peer) : Prop
  | missing (h : c.Missing x process.list p) (hclosing : c.fd x ∉ process.closing)
  | waiting (h : c.Waiting x process.list p) (hclosing : c.fd x ∉ process.closing)
  | settled (h : c.Settled x process p)

/-- If the end has been connected, it still is. -/
def Unfreed (x : Side) (process : Process) (p : Peer) : Prop :=
  c.Settled x process p → c.Connected x process.list p

/-- What lasts at an end: an end that has been connected, and its socket until it is freed. -/
structure Lasts (x : Side) (frees : Prop) (process process' : Process) (p p' : Peer) : Prop where
  settled : c.Settled x process p → c.Settled x process' p'
  unfreed : ¬ frees → c.Unfreed x process p → c.Unfreed x process' p'

/-- The two ends, however far they have got. The server's end is connected after the client's, since
it takes an acknowledgement from a client that has been. -/
structure Joins (up : ι → Upper) (d : Duo) : Prop extends c.Carried c.Stands up d where
  numbered : ∀ v, ∀ packet ∈ (up v).sent, packet.Numbered
  answers : ∀ x, .ack startAck ∈ d.chan x
  unanswered : c.Waiting .a (up (c.node .a)).process.list (d.peer .a) →
    ¬ c.Settled .b (up (c.node .b)).process (d.peer .b) ∧
      ∀ v, ∀ packet ∈ (up v).sent, packet.tuple = c.tuple .b → packet.IsOpening

/-- A client that can call `connectLab`, and numbers that nobody has used. -/
structure Planned (up : ι → Upper) : Prop where
  client : ∃ k ∈ (up (c.node .a)).process.list.sockets, k.fd = c.fd .a ∧ k.Unused
  free : ∀ v, ∀ k ∈ (up v).process.list.sockets, ∀ x, k.tuple ≠ c.tuple x
  unsent : ∀ v, ∀ packet ∈ (up v).sent, ∀ x, packet.tuple ≠ c.tuple x
  written : ∀ x, (up (c.node x)).written (c.fd x) = []
  returned : ∀ x, (up (c.node x)).returned (c.fd x) = []
  closing : ∀ x, c.fd x ∉ (up (c.node x)).process.closing

/-- What the applications can rely on. -/
structure Reliable (up : ι → Upper) : Prop where
  /-- If the server's end has got through the handshake, so has the client's. -/
  agree : ∀ k k', (up (c.node .b)).process.list.findSocket (c.fd .b) = some k →
    (up (c.node .a)).process.list.findSocket (c.fd .a) = some k' →
    k.state ≠ .sysRecv → k'.state ≠ .sysSent
  inOrder : ∀ x, (up (c.node x.other)).returned (c.fd x.other) <+:
    (up (c.node x)).written (c.fd x)
  /-- An end that has seen the `FIN` has all that was written; and so it has when `closeLab` has
  returned at the other. -/
  complete : ∀ x k, (up (c.node x.other)).process.list.findSocket (c.fd x.other) = some k →
    k.hasFlag CLOSEState.finRecv = true ∨ c.Over up x →
    (up (c.node x.other)).returned (c.fd x.other) ++
        copyOut k.readBuffer k.recvBack (k.recvFront - k.recvBack) =
      (up (c.node x)).written (c.fd x)
  /-- No assertion fails, whatever has been sent comes in. -/
  takes : ∀ x k, (up (c.node x)).process.list.findSocket (c.fd x) = some k →
    ∀ u, ∀ packet ∈ (up u).sent, packet.tuple = c.tuple x → (handleTCPMain k packet).isSome

variable {c} {up : ι → Upper} {d : Duo} {v : ι} {x y : Side} {host upper : Upper}
  {action : Process.Action} {packet : TCPPacket} {k : Socket} {p q : Peer} {out : List Msg}
  {list : SocketList} {readMem writeMem : Mem Byte}

theorem Separate.exclusive (h : c.Separate up) : c.Exclusive up :=
  fun v k hk x hnumbers => (h v k hk x).mp hnumbers

theorem Separate.tuple (h : c.Separate up) (hk : k ∈ (up (c.node x)).process.list.sockets)
    (hfd : k.fd = c.fd x) : k.tuple = c.tuple x :=
  (h (c.node x) k hk x).mpr ⟨rfl, hfd⟩

theorem not_isAck_of_isOpening (h : packet.IsOpening) : ¬ packet.IsAck := by
  rw [TCPPacket.IsAck, h.1]
  decide

/-- An end does not wait any more once it is connected. -/
theorem Connected.not_waiting (h : c.Connected x list p) (hordered : Process.Ordered list) :
    ¬ c.Waiting x list q := by
  rintro ⟨k', hk', hfd', -, call, hawaits, -⟩
  obtain ⟨k, hk, hfd, -, hrep⟩ := h
  obtain rfl := hordered.eq_of_fd hk hk' (hfd.trans hfd'.symm)
  have hstate := hrep.state.symm.trans hawaits.state_eq
  revert hstate
  cases x <;> split_ifs <;> decide

theorem Settled.not_waiting {process : Process} (h : c.Settled x process p)
    (hordered : Process.Ordered process.list) : ¬ c.Waiting x process.list q := by
  cases h with
  | connected h => exact h.not_waiting hordered
  | gone hgone =>
    rintro ⟨k, hk, hfd, -⟩
    exact hgone.1 k hk hfd

theorem Missing.not_settled {process : Process} (h : c.Missing x process.list p) :
    ¬ c.Settled x process p := by
  obtain ⟨-, hnone, rfl⟩ := h
  rintro (⟨⟨k, hk, hfd, -⟩, -⟩ | ⟨-, hfin⟩)
  · exact hnone k hk hfd
  · cases hfin

/-- As long as `closeLab` would have to wait, nobody gets to free the socket. -/
theorem not_closing_step (hclosing : c.fd x ∉ host.process.closing)
    (hstep : host.step action = some upper)
    (hwaits : ∀ k, host.process.list.findSocket (c.fd x) = some k → closeLabExits k = false) :
    c.fd x ∉ upper.process.closing := by
  intro hmem
  rcases Process.closing_of_step (Upper.step_process hstep) hmem with hold | ⟨k, hk, hexits⟩
  · exact hclosing hold
  · rw [hwaits k hk] at hexits
    cases hexits

namespace Lasts

variable {process process' : Process} {frees frees' : Prop}

theorem refl : c.Lasts x frees process process p p := ⟨id, fun _ => id⟩

theorem mono (h : c.Lasts x frees process process' p q) (himp : frees → frees') :
    c.Lasts x frees' process process' p q :=
  ⟨h.settled, fun hnot => h.unfreed fun hfrees => hnot (himp hfrees)⟩

/-- An end that was not connected may be so now. -/
theorem of_not (hbefore : ¬ c.Settled x process p) (hafter : c.Unfreed x process' q) :
    c.Lasts x frees process process' p q :=
  ⟨fun h => absurd h hbefore, fun _ _ => hafter⟩

/-- What is known of the end that acts is known of both. -/
theorem set [DecidableEq ι] (frees : Side → Prop)
    (h : c.Lasts x (frees x) (up (c.node x)).process upper.process (d.peer x) p) (out : List Msg)
    (y : Side) : c.Lasts y (frees y) (up (c.node y)).process
      (Function.update up (c.node x) upper (c.node y)).process (d.peer y)
      ((d.send x p out).peer y) := by
  rcases Side.eq_or_eq_other x y with rfl | rfl
  · rw [Function.update_self]
    simpa [Duo.send_eq] using h
  · rw [Function.update_of_ne fun heq => Side.other_ne x (node_inj heq), Duo.peer_send_other]
    exact refl

end Lasts

/-! ### What happens to an end that waits -/

namespace Waiting

theorem closeLabExits (hend : c.Waiting x list p) (hordered : Process.Ordered list)
    (hk : list.findSocket (c.fd x) = some k) : closeLabExits k = false := by
  obtain ⟨k₀, hk₀, hfd, -, call, hawaits, -⟩ := hend
  obtain ⟨hmem, hfd'⟩ := Process.findSocket_some hk
  obtain rfl := hordered.eq_of_fd hk₀ hmem (hfd.trans hfd'.symm)
  exact hawaits.closeLabExits (by cases x <;> decide)

/-- A call that is not about the end. -/
theorem spared (hend : c.Waiting x host.process.list p)
    (hordered : Process.Ordered host.process.list) (hstep : host.step action = some upper)
    (hact : action.Spares (c.fd x)) : c.Waiting x upper.process.list p := by
  obtain ⟨k, hk, hfd, htuple, call, hawaits, hp⟩ := hend
  rcases Process.mem_step hordered (Upper.step_process hstep) hk (hfd ▸ hact) with hmem | hmem
  · exact ⟨k, hmem, hfd, htuple, call, hawaits, hp⟩
  · exact ⟨_, hmem, hfd, htuple, call, hawaits.accept, hp⟩

/-- **A call on the host of the end.** The end still waits. -/
theorem call (hend : c.Waiting x host.process.list (d.peer x))
    (hordered : Process.Ordered host.process.list) (hloose : d.Loose)
    (hex : c.ExclusiveAt x upper.process.list)
    (hallows : c.Allows (c.node x) host.process action)
    (hclosing : c.fd x ∉ host.process.closing) (hstep : host.step action = some upper) :
    ∃ p, c.Waiting x upper.process.list p ∧ c.Silent x host action upper ∧
      c.Turn x host action upper d p [] := by
  have hspared : action.Spares (c.fd x) → ∃ p, c.Waiting x upper.process.list p ∧
      c.Silent x host action upper ∧ c.Turn x host action upper d p [] :=
    fun hact => ⟨_, hend.spared hordered hstep hact, .of_spares hact, .spared hloose hact⟩
  obtain ⟨k, hk, hfd, htuple, call, hawaits, hp⟩ := hend
  have hfind : host.process.list.findSocket (c.fd x) = some k := hfd ▸ hordered.findSocket hk
  have hprocess := Upper.step_process hstep
  have hwait : waitState x ≠ .establisted ∧ waitState x ≠ .closed := by cases x <;> decide
  cases action with
  | socketLab | acceptLab | leaveCloseLab => exact hspared trivial
  | bindLab | listenLab | connectLab => exact hspared (hallows x rfl)
  | freeSocket fd =>
    refine hspared fun heq => ?_
    subst heq
    rw [Process.step, if_neg hclosing] at hprocess
    cases hprocess
  | segment => exact hallows.elim
  | tick now =>
    have hsilent : c.Silent x host (.tick now) upper := by
      intro packet hpacket hnumbers _ _ _ _ _
      have hmem := Turn.of_tick hordered hex hstep hk hfd hpacket hnumbers
      rw [hawaits.tick] at hmem
      cases hmem
    refine ⟨_, ⟨k, ?_, hfd, htuple, call, hawaits, hp⟩, hsilent, .of_silent hloose hsilent rfl rfl⟩
    rw [← Option.some.inj hprocess]
    exact Process.mem_asyncSendTCPPacket.mpr ⟨k, hk, by rw [hawaits.tick]⟩
  | writeLab fd buf =>
    by_cases hown : fd = c.fd x
    swap
    · exact hspared hown
    subst hown
    have hrun := hawaits.writeLab hwait.1 buf
    have hwrote : host.process.wrote (c.fd x) (.writeLab (c.fd x) buf) = [] := by
      simp only [Process.wrote, hfind, Option.bind_some, hrun, if_true]
      rfl
    simp only [Process.step, Process.onSocket, hfind, hrun, Option.map_some,
      Option.some.injEq] at hprocess
    refine ⟨_, ⟨k, ?_, hfd, htuple, call, hawaits, hp⟩, .of_nil rfl,
      .of_silent hloose (.of_nil rfl) hwrote rfl⟩
    rw [← hprocess]
    exact Process.mem_update_self hk rfl
  | readLab fd nbyte =>
    by_cases hown : fd = c.fd x
    swap
    · exact hspared hown
    subst hown
    simp only [Process.step, Process.onSocket, hfind, hawaits.readLab hwait.2, Option.map_none,
      reduceCtorEq] at hprocess
  | closeLab fd =>
    by_cases hown : fd = c.fd x
    swap
    · exact hspared hown
    subst hown
    simp only [Process.step, Process.onSocket, hfind, Option.some.injEq] at hprocess
    refine ⟨{ d.peer x with call := true }, ⟨LabNetstack.closeLab k, ?_, hfd, htuple, true,
      hawaits.closeLab, by rw [hp]; rfl⟩, .of_nil rfl, .quiet rfl (List.append_nil _)
      (List.append_nil _) (hloose.close x) (.event (.own (.close x)) _ rfl ?_)⟩
    · rw [← hprocess]
      exact Process.mem_update_self hk rfl
    · intro y hy
      cases hy
      exact ⟨rfl, rfl⟩

/-- **A segment on the host of the end.** The end still waits and has sent nothing, or is
connected. -/
theorem deliver (hend : c.Waiting x host.process.list (d.peer x))
    (hordered : Process.Ordered host.process.list) (hloose : d.Loose)
    (hanswers : .ack startAck ∈ d.chan x) (hex : c.ExclusiveAt x upper.process.list)
    (hnumbered : packet.Numbered)
    (hstep : host.step (.segment readMem writeMem packet) = some upper) :
    c.Turn x host (.segment readMem writeMem packet) upper d (d.peer x) [] ∧
      ((c.Waiting x upper.process.list (d.peer x) ∧
          c.Silent x host (.segment readMem writeMem packet) upper) ∨
        (c.Connected x upper.process.list (d.peer x) ∧
          (x = .b → packet.tuple = c.tuple x ∧ packet.IsAck))) := by
  obtain ⟨k, hk, hfd, htuple, call, hawaits, hp⟩ := hend
  by_cases hown : host.process.list.matchSocket packet = some k
  swap
  · have hother : ∀ it, host.process.list.matchSocket packet = some it → it.fd ≠ c.fd x := by
      intro it hit hitFd
      obtain rfl := hordered.eq_of_fd (Process.mem_of_matchSocket hit) hk (hitFd.trans hfd.symm)
      exact hown hit
    have hsilent : c.Silent x host (.segment readMem writeMem packet) upper :=
      .of_other hex hstep (hfd ▸ (hordered.lt k hk).ne) hother
    refine ⟨.of_silent hloose hsilent rfl rfl, Or.inl ⟨⟨k, ?_, hfd, htuple, call, hawaits, hp⟩,
      hsilent⟩⟩
    exact Process.mem_segment (Upper.step_process hstep) hk fun it hit => hfd ▸ hother it hit
  have hopen : k.state ≠ .listen := by
    rw [hawaits.state_eq]
    cases x <;> decide
  have hnumbers : packet.tuple = c.tuple x := htuple ▸ Process.tuple_of_matchSocket hown hopen
  obtain ⟨⟨k', packets⟩, hmain⟩ : ∃ r, handleTCPMain k packet = some r := by
    rw [handleTCPMain, hawaits.state_eq]
    cases x <;> exact ⟨_, rfl⟩
  obtain ⟨hlist, hanswer⟩ := Process.segment_of_match hown hopen hmain (Upper.step_process hstep)
  have hid := (identity_handleTCPMain hmain).1
  have hfd' : k'.fd = k.fd := congrArg Identity.fd hid
  have hmem : k' ∈ upper.process.list.sockets := by
    rw [hlist]
    exact Process.mem_update_self hk hfd'
  -- a segment that is lost on the end
  have hlost : k' = k → packets = [] →
      c.Turn x host (.segment readMem writeMem packet) upper d (d.peer x) [] ∧
        c.Waiting x upper.process.list (d.peer x) ∧
          c.Silent x host (.segment readMem writeMem packet) upper := by
    rintro rfl rfl
    exact ⟨.of_silent hloose (.of_nil hanswer) rfl rfl,
      ⟨k', hmem, hfd, htuple, call, hawaits, hp⟩, .of_nil hanswer⟩
  have hconnected : k'.Rep (Peer.started call) → c.Connected x upper.process.list (d.peer x) :=
    fun hrep => ⟨k', hmem, hfd'.trans hfd, (Socket.tuple_of_identity hid).trans htuple, hp ▸ hrep⟩
  cases x with
  | a =>
    rcases hawaits.handle_sysSent hnumbered hmain with ⟨hsame, hnone⟩ | ⟨hrep, ack, hout, hack⟩
    · obtain ⟨hturn, hlost⟩ := hlost hsame hnone
      exact ⟨hturn, Or.inl hlost⟩
    · refine ⟨⟨?_, List.append_nil _, List.append_nil _, ?_, ?_⟩,
        Or.inr ⟨hconnected hrep, fun hside => by cases hside⟩⟩
      · intro answer hmem' _ _ _ _ _ _
        rw [hanswer, hout] at hmem'
        obtain rfl := List.mem_singleton.mp hmem'
        exact ⟨_, by simpa [Duo.send_eq] using hanswers, hack⟩
      · rwa [d.send_self]
      · rw [d.send_self]
        exact .idle
  | b =>
    obtain ⟨hnone, hsame | ⟨hack, hrep⟩⟩ := hawaits.handle_sysRecv hmain
    · obtain ⟨hturn, hlost⟩ := hlost hsame hnone
      exact ⟨hturn, Or.inl hlost⟩
    · exact ⟨.of_silent hloose (.of_nil (hanswer.trans hnone)) rfl rfl,
        Or.inr ⟨hconnected hrep, fun _ => ⟨hnumbers, hack⟩⟩⟩

end Waiting

/-! ### What happens where the server's end will be -/

/-- Whatever else gets a descriptor has other numbers than the end. -/
theorem tuple_allocSocket_ne (hsep : c.Separate up) {fd : ℤ} {readBuf writeBuf : Mem Byte}
    (hk : allocSocket fd readBuf writeBuf ∈ (up (c.node x)).process.list.sockets) :
    (allocSocket fd readBuf writeBuf).tuple ≠ c.tuple x := by
  intro hnumbers
  -- all numbers are zero, so that both ends bear the same
  have hother : (allocSocket fd readBuf writeBuf).tuple = c.tuple x.other := by
    rw [tuple_other, ← hnumbers]
    rfl
  exact Side.ne_other x (node_inj ((hsep _ _ hk x.other).mp hother).1)

namespace Missing

/-- **A call on the host** does not create the end. -/
theorem call [DecidableEq ι] (hend : c.Missing x (up (c.node x)).process.list (d.peer x))
    (hloose : d.Loose) (hsep : c.Separate (Function.update up (c.node x) upper))
    (hstep : (up (c.node x)).step action = some upper)
    (hcall : ∀ readMem writeMem packet, action ≠ .segment readMem writeMem packet) :
    c.Missing x upper.process.list (d.peer x) ∧
      c.Turn x (up (c.node x)) action upper d (d.peer x) [] := by
  obtain ⟨hside, hnone, hp⟩ := hend
  have hfind := Process.findSocket_eq_none hnone
  have hprocess := Upper.step_process hstep
  have hafter : ∀ k ∈ upper.process.list.sockets, k.fd ≠ c.fd x := by
    intro k hk hfd
    have hmem : k ∈ (Function.update up (c.node x) upper (c.node x)).process.list.sockets := by
      rwa [Function.update_self]
    have hnumbers := hsep.tuple hmem hfd
    rcases Process.fd_or_new hprocess hk with hold | ⟨readBuf, writeBuf, rfl⟩ | ⟨_, _, _, hsegment⟩
    · obtain ⟨k₀, hk₀, hfd₀⟩ := List.mem_map.mp hold
      exact hnone k₀ hk₀ (hfd₀.trans hfd)
    · exact tuple_allocSocket_ne hsep hmem hnumbers
    · exact hcall _ _ _ hsegment
  exact ⟨⟨hside, hafter, hp⟩, .of_silent hloose (.of_none hafter)
    (Process.wrote_of_none hfind action) (Process.got_of_none hfind action)⟩

/-- **A segment on the host** may create the end, which answers and waits. -/
theorem deliver (hend : c.Missing x host.process.list (d.peer x)) (hloose : d.Loose)
    (hanswers : .ack startAck ∈ d.chan x)
    (htuple : ∀ k ∈ upper.process.list.sockets, k.fd = c.fd x → k.tuple = c.tuple x)
    (hnumbered : packet.Numbered)
    (hstep : host.step (.segment readMem writeMem packet) = some upper) :
    c.Turn x host (.segment readMem writeMem packet) upper d (d.peer x) [] ∧
      (c.Missing x upper.process.list (d.peer x) ∨ c.Waiting x upper.process.list (d.peer x)) := by
  obtain ⟨hside, hnone, hp⟩ := hend
  obtain ⟨⟨list, answers⟩, hlist, hupper⟩ := Option.map_eq_some_iff.mp (Upper.step_process hstep)
  have hafter : upper.process.list = list := (congrArg Process.list hupper).symm
  by_cases hmissing : ∀ k ∈ list.sockets, k.fd ≠ c.fd x
  · exact ⟨.of_silent hloose (.of_none (hafter ▸ hmissing)) rfl rfl,
      Or.inl ⟨hside, hafter ▸ hmissing, hp⟩⟩
  obtain ⟨k, hk, hfd⟩ : ∃ k ∈ list.sockets, k.fd = c.fd x := by
    simpa using hmissing
  rcases Process.child_or_fds hnumbered hlist with hfds | ⟨child, answer, hsockets, hout, -, hfresh,
    hanswer⟩
  · obtain ⟨k₀, hk₀, hfd₀⟩ := List.mem_map.mp (hfds ▸ List.mem_map_of_mem (f := Socket.fd) hk)
    exact absurd (hfd₀.trans hfd) (hnone k₀ hk₀)
  · -- it is the new one
    have hnew : k = child := by
      rw [hsockets] at hk
      rcases List.mem_append.mp hk with hold | hnew
      · exact absurd hfd (hnone k hold)
      · exact List.mem_singleton.mp hnew
    subst hnew
    have hmem : k ∈ upper.process.list.sockets := hafter ▸ hk
    refine ⟨⟨?_, List.append_nil _, List.append_nil _, ?_, ?_⟩, Or.inr ⟨k, hmem, hfd,
      htuple k hmem hfd, false, ?_, hp⟩⟩
    · intro packet' hpacket' _ _ _ _ _ _
      simp only [Process.sent, hlist, hout, List.mem_singleton] at hpacket'
      exact ⟨_, by simpa [Duo.send_eq] using hanswers, hpacket' ▸ hanswer⟩
    · rwa [d.send_self]
    · rw [d.send_self]
      exact .idle
    · rw [hside]
      exact ⟨k, hfresh, rfl⟩

end Missing

/-! ### Both ends, however far they have got -/

theorem numbered_step [DecidableEq ι] (h : ∀ v, ∀ packet ∈ (up v).sent, packet.Numbered)
    (hstep : (up v).step action = some upper) (w : ι) :
    ∀ packet ∈ (Function.update up v upper w).sent, packet.Numbered := by
  intro packet hpacket
  by_cases hw : w = v
  · subst hw
    rw [Function.update_self, Upper.step_sent hstep] at hpacket
    rcases List.mem_append.mp hpacket with hold | hnew
    · exact h w packet hold
    · exact Process.sent_numbered hnew
  · rw [Function.update_of_ne hw] at hpacket
    exact h w packet hpacket

namespace Joins

variable [DecidableEq ι]

omit [DecidableEq ι] in
/-- The descriptors of the host stay in order. -/
theorem ordered_step (h : c.Joins up d) (hstep : (up v).step action = some upper) :
    Process.Ordered upper.process.list :=
  (h.ordered v).step rfl (Upper.step_process hstep)

/-- A client's end that is silent has sent nothing but its `SYN`. -/
theorem isOpening_step (hold : ∀ w, ∀ packet ∈ (up w).sent, packet.tuple = c.tuple .b →
      packet.IsOpening)
    (hex : c.Exclusive (Function.update up v upper)) (hstep : (up v).step action = some upper)
    (hsilent : v = c.node .a → c.Silent .a (up v) action upper) (w : ι) :
    ∀ packet ∈ (Function.update up v upper w).sent, packet.tuple = c.tuple .b →
      packet.IsOpening := by
  intro packet hpacket hnumbers
  by_cases hw : w = v
  · subst hw
    rw [Function.update_self] at hpacket
    rcases sent_new (y := .a) hex hstep hpacket hnumbers with
      hbefore | ⟨hnode, hnew, k, hk, hfrom, hfd, hact⟩
    · exact hold w packet hbefore hnumbers
    · exact absurd hact (hsilent hnode packet hnew hnumbers k hk hfrom hfd)
  · rw [Function.update_of_ne hw] at hpacket
    exact hold w packet hpacket hnumbers

/-- A host that has neither of the ends. -/
theorem elsewhere (h : c.Joins up d) (hv : ∀ x, v ≠ c.node x)
    (hex : c.Exclusive (Function.update up v upper)) (hstep : (up v).step action = some upper) :
    c.Joins (Function.update up v upper) d where
  toCarried := h.toCarried.elsewhere hv hex hstep
  numbered := numbered_step h.numbered hstep
  answers := h.answers
  unanswered := by
    rw [Function.update_of_ne (hv .a).symm, Function.update_of_ne (hv .b).symm]
    intro hwaiting
    obtain ⟨hnot, hopening⟩ := h.unanswered hwaiting
    exact ⟨hnot, isOpening_step hopening hex hstep fun hnode => absurd hnode (hv .a)⟩

/-- **The host of an end.** A client that waits has waited before, and said nothing; and while it
waits, the server is not connected. -/
theorem set (h : c.Joins up d) (hex : c.Exclusive (Function.update up (c.node x) upper))
    (hstep : (up (c.node x)).step action = some upper) (hend : c.Stands x upper.process p)
    (hturn : c.Turn x (up (c.node x)) action upper d p out)
    (hwaits : x = .a → c.Waiting x upper.process.list p →
      c.Waiting x (up (c.node x)).process.list (d.peer x) ∧
        c.Silent x (up (c.node x)) action upper)
    (hconnects : x = .b → c.Waiting .a (up (c.node .a)).process.list (d.peer .a) →
      ¬ c.Settled x upper.process p) :
    c.Joins (Function.update up (c.node x) upper) (d.send x p out) where
  toCarried := h.toCarried.set hex hstep hend hturn
  numbered := numbered_step h.numbered hstep
  answers y := by
    rcases Side.eq_or_eq_other x y with rfl | rfl
    · simpa [Duo.send_eq] using Or.inl (h.answers y)
    · simpa [Duo.send_eq] using h.answers x.other
  unanswered := by
    cases x with
    | a =>
      have hpeer : (d.send .a p out).peer .b = d.peer .b := Duo.peer_send_other d .a p out
      rw [Function.update_self, Function.update_of_ne c.node_ne.symm, hpeer]
      intro hwaiting
      obtain ⟨hbefore, hsilent⟩ := hwaits rfl (by simpa [Duo.send_eq] using hwaiting)
      obtain ⟨hnot, hopening⟩ := h.unanswered hbefore
      exact ⟨hnot, isOpening_step hopening hex hstep fun _ => hsilent⟩
    | b =>
      have hpeer : (d.send .b p out).peer .a = d.peer .a := Duo.peer_send_other d .b p out
      rw [Function.update_self, Function.update_of_ne c.node_ne, hpeer]
      intro hbefore
      obtain ⟨-, hopening⟩ := h.unanswered hbefore
      exact ⟨by simpa [Duo.send_eq] using hconnects rfl hbefore,
        isOpening_step hopening hex hstep fun hnode => absurd hnode c.node_ne.symm⟩

/-- An end that has been connected. -/
theorem set_settled (h : c.Joins up d) (hex : c.Exclusive (Function.update up (c.node x) upper))
    (hstep : (up (c.node x)).step action = some upper)
    (hbefore : c.Settled x (up (c.node x)).process (d.peer x))
    (hend : c.Settled x upper.process p)
    (hturn : c.Turn x (up (c.node x)) action upper d p out) :
    c.Joins (Function.update up (c.node x) upper) (d.send x p out) := by
  refine h.set hex hstep (.settled hend) hturn (fun _ hwaiting => ?_) fun hside hwaiting => ?_
  · exact absurd hwaiting (hend.not_waiting (h.ordered_step hstep))
  · subst hside
    exact absurd hbefore (h.unanswered hwaiting).1

/-- **Any call, on any host.** -/
theorem call (h : c.Joins up d) (hsep : c.Separate (Function.update up v upper))
    (hallows : c.Allows v (up v).process action) (hstep : (up v).step action = some upper) :
    ∃ d', c.Joins (Function.update up v upper) d' ∧ c.Reflects v action d d' ∧
      ∀ y, c.Lasts y (v = c.node y ∧ action = .freeSocket (c.fd y)) (up (c.node y)).process
        (Function.update up v upper (c.node y)).process (d.peer y) (d'.peer y) := by
  have hex := hsep.exclusive
  by_cases hv : ∃ x, v = c.node x
  swap
  · refine ⟨d, h.elsewhere (fun x heq => hv ⟨x, heq⟩) hex hstep, .idle, fun y => ?_⟩
    rw [Function.update_of_ne fun heq => hv ⟨y, heq.symm⟩]
    exact .refl
  obtain ⟨x, rfl⟩ := hv
  have hordered := h.ordered_step hstep
  rcases h.ends x with ⟨hmissing, hclosing⟩ | ⟨hwaiting, hclosing⟩ | hsettled
  · have hcall : ∀ readMem writeMem packet, action ≠ .segment readMem writeMem packet := by
      rintro readMem writeMem packet rfl
      exact hallows
    have hnone := Process.findSocket_eq_none hmissing.2.1
    obtain ⟨hend, hturn⟩ := hmissing.call h.loose hsep hstep hcall
    have hclosing' := not_closing_step hclosing hstep fun k hk => by simp [hnone] at hk
    refine ⟨_, h.set hex hstep (.missing hend hclosing') hturn (fun hside => ?_) fun _ _ =>
      hend.not_settled, hturn.reflects,
      Lasts.set _ (.of_not hmissing.not_settled fun hafter => absurd hafter hend.not_settled) _⟩
    cases hside.symm.trans hend.1
  · obtain ⟨p, hend, hsilent, hturn⟩ :=
      hwaiting.call (h.ordered _) h.loose hex.at hallows hclosing hstep
    have hclosing' := not_closing_step hclosing hstep fun k => hwaiting.closeLabExits (h.ordered _)
    have hnot : ∀ q, ¬ c.Settled x upper.process q :=
      fun q hafter => hafter.not_waiting hordered hend
    exact ⟨_, h.set hex hstep (.waiting hend hclosing') hturn (fun _ _ => ⟨hwaiting, hsilent⟩)
      fun _ _ => hnot _, hturn.reflects,
      Lasts.set _ (.of_not (fun hbefore => hbefore.not_waiting (h.ordered _) hwaiting)
        fun hafter => absurd hafter (hnot _)) _⟩
  · obtain ⟨p, out, hend, hturn, hkeep⟩ :=
      hsettled.call (h.ordered _) h.loose hex.at hallows hstep
    exact ⟨_, h.set_settled hex hstep hsettled hend hturn, hturn.reflects,
      Lasts.set _ ⟨fun _ => hend, fun hnot hunfreed _ =>
        hkeep (hunfreed hsettled) fun heq => hnot ⟨rfl, heq⟩⟩ _⟩

/-- **A segment, on any host**, whoever has sent it and however long ago. -/
theorem deliver (h : c.Joins up d) (hsep : c.Separate (Function.update up v upper))
    (hshort : ∀ x, ((up (c.node x)).written (c.fd x)).length < 2 ^ 16) {u : ι}
    (hsent : packet ∈ (up u).sent)
    (hstep : (up v).step (.segment readMem writeMem packet) = some upper) :
    ∃ d', c.Joins (Function.update up v upper) d' ∧
      c.Reflects v (.segment readMem writeMem packet) d d' ∧
      ∀ y, c.Lasts y False (up (c.node y)).process
        (Function.update up v upper (c.node y)).process (d.peer y) (d'.peer y) := by
  have hex := hsep.exclusive
  by_cases hv : ∃ x, v = c.node x
  swap
  · refine ⟨d, h.elsewhere (fun x heq => hv ⟨x, heq⟩) hex hstep, .idle, fun y => ?_⟩
    rw [Function.update_of_ne fun heq => hv ⟨y, heq.symm⟩]
    exact .refl
  obtain ⟨x, rfl⟩ := hv
  have hnumbered := h.numbered u packet hsent
  have hordered := h.ordered_step hstep
  rcases h.ends x with ⟨hmissing, hclosing⟩ | ⟨hwaiting, hclosing⟩ | hsettled
  · have htuple : ∀ k ∈ upper.process.list.sockets, k.fd = c.fd x → k.tuple = c.tuple x :=
      fun k hk hfd => hsep.tuple (by rwa [Function.update_self]) hfd
    obtain ⟨hturn, hend⟩ := hmissing.deliver h.loose (h.answers x) htuple hnumbered hstep
    have hnone := Process.findSocket_eq_none hmissing.2.1
    have hclosing' := not_closing_step hclosing hstep fun k hk => by simp [hnone] at hk
    have hstands : c.Stands x upper.process (d.peer x) :=
      hend.elim (.missing · hclosing') (.waiting · hclosing')
    have hnot : ¬ c.Settled x upper.process (d.peer x) := fun hafter =>
      hend.elim (fun hend => hend.not_settled hafter) (hafter.not_waiting hordered)
    refine ⟨_, h.set hex hstep hstands hturn (fun hside => ?_) fun _ _ => hnot,
      hturn.reflects, Lasts.set (fun _ => False)
        (.of_not hmissing.not_settled fun hafter => absurd hafter hnot) _⟩
    cases hside.symm.trans hmissing.1
  · have hbefore : ¬ c.Settled x (up (c.node x)).process (d.peer x) :=
      fun hbefore => hbefore.not_waiting (h.ordered _) hwaiting
    have hclosing' := not_closing_step hclosing hstep fun k => hwaiting.closeLabExits (h.ordered _)
    obtain ⟨hturn, ⟨hend, hsilent⟩ | ⟨hend, hack⟩⟩ :=
      hwaiting.deliver (h.ordered _) h.loose (h.answers x) hex.at hnumbered hstep
    · have hnot : ¬ c.Settled x upper.process (d.peer x) :=
        fun hafter => hafter.not_waiting hordered hend
      exact ⟨_, h.set hex hstep (.waiting hend hclosing') hturn (fun _ _ => ⟨hwaiting, hsilent⟩)
        fun _ _ => hnot, hturn.reflects, Lasts.set (fun _ => False)
          (.of_not hbefore fun hafter => absurd hafter hnot) _⟩
    · have hsettles : c.Settled x upper.process (d.peer x) :=
        .connected hend fun hmem => absurd hmem hclosing'
      refine ⟨_, h.set hex hstep (.settled hsettles) hturn (fun _ hwaits => ?_) ?_,
        hturn.reflects, Lasts.set (fun _ => False) (.of_not hbefore fun _ => hend) _⟩
      · exact absurd hwaits (hend.not_waiting hordered)
      · -- a client that waits has not acknowledged anything
        rintro rfl hwaits
        obtain ⟨hnumbers, hack⟩ := hack rfl
        exact absurd hack (not_isAck_of_isOpening
          ((h.unanswered hwaits).2 u packet hsent hnumbers))
  · obtain ⟨p, out, hend, hturn, hkeep⟩ :=
      hsettled.deliver h.toCarried hex.at hshort hsent hstep
    exact ⟨_, h.set_settled hex hstep hsettled hend hturn, hturn.reflects,
      Lasts.set (fun _ => False)
        ⟨fun _ => hend, fun _ hunfreed _ => hkeep (hunfreed hsettled)⟩ _⟩

omit [DecidableEq ι] in
/-- **The ends agree on whether there is a connection.** Where the server's end has been connected, so
has the client's. -/
theorem agree (h : c.Joins up d) (hserver : c.Settled .b (up (c.node .b)).process (d.peer .b)) :
    c.Settled .a (up (c.node .a)).process (d.peer .a) := by
  rcases h.ends .a with ⟨hmissing, -⟩ | ⟨hwaiting, -⟩ | hclient
  · cases hmissing.1
  · exact absurd hserver (h.unanswered hwaiting).1
  · exact hclient

omit [DecidableEq ι] in
/-- The socket of an end, if there is one. -/
theorem cases_of_findSocket (h : c.Joins up d)
    (hk : (up (c.node x)).process.list.findSocket (c.fd x) = some k) :
    (c.Settled x (up (c.node x)).process (d.peer x) ∧ k.Rep (d.peer x)) ∨
      ∃ call, k.Awaits (waitState x) call ∧ d.peer x = Peer.started call := by
  obtain ⟨hmem, hfd⟩ := Process.findSocket_some hk
  rcases h.ends x with ⟨hmissing, -⟩ | ⟨⟨k₀, hk₀, hfd₀, -, call, hawaits, hp⟩, -⟩ | hsettled
  · exact absurd hfd (hmissing.2.1 k hmem)
  · obtain rfl := (h.ordered _).eq_of_fd hk₀ hmem (hfd₀.trans hfd.symm)
    exact Or.inr ⟨call, hawaits, hp⟩
  · exact Or.inl ⟨hsettled, hsettled.rep_of_findSocket (h.ordered _) hk⟩

omit [DecidableEq ι] in
/-- An end that does not wait for the handshake has been connected. -/
theorem settled_of_state (h : c.Joins up d)
    (hk : (up (c.node x)).process.list.findSocket (c.fd x) = some k)
    (hstate : k.state ≠ waitState x) : c.Settled x (up (c.node x)).process (d.peer x) := by
  rcases h.cases_of_findSocket hk with ⟨hsettled, -⟩ | ⟨call, hawaits, -⟩
  · exact hsettled
  · exact absurd hawaits.state_eq hstate

omit [DecidableEq ι] in
/-- What an end has accepted and not returned is in its ring. -/
theorem copyOut_unread (h : c.Joins up d)
    (hk : (up (c.node x)).process.list.findSocket (c.fd x) = some k) :
    copyOut k.readBuffer k.recvBack (k.recvFront - k.recvBack) =
      (d.peer x).rcv.accepted.drop (d.peer x).rcv.taken := by
  rcases h.cases_of_findSocket hk with ⟨-, hrep⟩ | ⟨call, hawaits, hp⟩
  · exact hrep.copyOut_unread (h.loose.bounded x)
  · have hnone : copyOut k.readBuffer k.recvBack 0 = [] :=
      List.eq_nil_of_length_eq_zero (length_copyOut ..)
    rw [hawaits.empty, sub_self, hnone, hp]
    rfl

omit [DecidableEq ι] in
/-- Once `closeLab` has returned at an end, the other has accepted all that was written. -/
theorem accepted_of_over (h : c.Joins up d) (hover : c.Over up x) :
    (d.peer x.other).rcv.accepted = (d.peer x).snd.written := by
  have hdir := (h.loose.dir x).ends
  rcases h.ends x with ⟨⟨-, -, hp⟩, -⟩ | ⟨hwaiting, -⟩ | hsettled
  · have hprefix := hdir.accepted_isPrefix
    rw [hp] at hprefix ⊢
    exact List.prefix_nil.mp hprefix
  · obtain ⟨k, hk, hfd, -⟩ := id hwaiting
    have hfind : (up (c.node x)).process.list.findSocket (c.fd x) = some k :=
      hfd ▸ (h.ordered _).findSocket hk
    have hexits := hover k hfind
    rw [hwaiting.closeLabExits (h.ordered _) hfind] at hexits
    cases hexits
  · have hfin := hsettled.fin_of_over (h.ordered _) (h.loose.flags x) hover
    exact (hdir.complete hfin).2.2.2

omit [DecidableEq ι] in
theorem reliable (h : c.Joins up d)
    (hshort : ∀ x, ((up (c.node x)).written (c.fd x)).length < 2 ^ 16) : c.Reliable up where
  agree k k' hk hk' hserver := by
    rcases h.cases_of_findSocket hk with ⟨hsettled, -⟩ | ⟨call, hawaits, -⟩
    · have hrep := (h.agree hsettled).rep_of_findSocket (h.ordered _) hk'
      rw [hrep.state]
      split_ifs <;> decide
    · exact absurd hawaits.state_eq hserver
  inOrder := h.returned_isPrefix
  complete x k hk hdone := by
    refine h.all_read x (h.copyOut_unread hk) ?_
    rcases hdone with hfin | hover
    · rcases h.cases_of_findSocket hk with ⟨-, hrep⟩ | ⟨call, hawaits, -⟩
      · exact h.accepted_of_finRecv x hrep hfin
      · rw [hawaits.hasFlag_finRecv] at hfin
        cases hfin
    · exact h.accepted_of_over hover
  takes x k hk u packet hsent hnumbers := by
    rcases h.cases_of_findSocket hk with ⟨-, hrep⟩ | ⟨call, hawaits, -⟩
    · obtain ⟨k', packets, -, -, hmain, -⟩ := h.toCarried.takes hshort hsent hnumbers hrep
      rw [hmain, Option.isSome_some]
    · rw [handleTCPMain, hawaits.state_eq]
      cases x <;> rfl

end Joins

/-- **After `connectLab`.** -/
theorem Planned.joins [DecidableEq ι] (h : c.Planned up)
    (hordered : ∀ v, Process.Ordered (up v).process.list)
    (hnumbered : ∀ v, ∀ packet ∈ (up v).sent, packet.Numbered) {addr : IPAddr} {port : Port}
    (hsep : c.Separate (Function.update up (c.node .a) upper))
    (hstep : (up (c.node .a)).step (.connectLab (c.fd .a) addr port) = some upper) :
    c.Joins (Function.update up (c.node .a) upper) (Duo.start 1 1) := by
  obtain ⟨k, hk, hfd, hunused⟩ := h.client
  have hfind : (up (c.node .a)).process.list.findSocket (c.fd .a) = some k :=
    hfd ▸ (hordered _).findSocket hk
  have hother : c.node .b ≠ c.node .a := c.node_ne.symm
  obtain ⟨k', syn, hlist, hclosing, hsent, hfresh, hfd', hopening, hsyn⟩ :=
    Upper.step_connectLab hstep hfind hunused
  have hmem : k' ∈ upper.process.list.sockets := by
    rw [hlist]
    exact Process.mem_update_self hk hfd'
  have htuple : k'.tuple = c.tuple .a :=
    hsep.tuple (by rwa [Function.update_self]) (hfd'.trans hfd)
  -- the `SYN` is all that bears the numbers
  have honly : ∀ v x, ∀ packet ∈ (Function.update up (c.node .a) upper v).sent,
      packet.tuple = c.tuple x → packet.IsOpening := by
    intro v x packet hpacket hnumbers
    by_cases hv : v = c.node .a
    · subst hv
      rw [Function.update_self, hsent] at hpacket
      rcases List.mem_append.mp hpacket with hold | hnew
      · exact absurd hnumbers (h.unsent _ packet hold x)
      · exact List.mem_singleton.mp hnew ▸ hopening
    · rw [Function.update_of_ne hv] at hpacket
      exact absurd hnumbers (h.unsent v packet hpacket x)
  have hmissing : c.Missing .b (up (c.node .b)).process.list Peer.start := by
    refine ⟨rfl, fun k₀ hk₀ hfd₀ => ?_, rfl⟩
    have hnumbers := hsep.tuple (x := .b) (by rwa [Function.update_of_ne hother]) hfd₀
    exact h.free _ k₀ hk₀ .b hnumbers
  refine ⟨⟨fun v => ?_, fun x => ?_, fun x v packet hpacket hnumbers =>
    Or.inl (honly v x.other packet hpacket hnumbers), fun x => ?_, fun x => ?_,
    Ether.loose_start 1 1⟩, fun v => ?_, fun x => ?_, fun _ => ?_⟩
  · by_cases hv : v = c.node .a
    · subst hv
      rw [Function.update_self]
      exact (hordered _).step rfl (Upper.step_process hstep)
    · rw [Function.update_of_ne hv]
      exact hordered v
  · cases x with
    | a =>
      rw [Function.update_self]
      exact .waiting ⟨k', hmem, hfd'.trans hfd, htuple, false, ⟨k', hfresh, rfl⟩, rfl⟩
        (hclosing ▸ h.closing .a)
    | b =>
      rw [Function.update_of_ne hother]
      exact .missing hmissing (h.closing .b)
  · cases x with
    | a =>
      rw [Function.update_self, Upper.step_written hstep, h.written .a]
      rfl
    | b =>
      rw [Function.update_of_ne hother]
      exact h.written .b
  · cases x with
    | a =>
      rw [Function.update_self, Upper.step_returned hstep, h.returned .a]
      rfl
    | b =>
      rw [Function.update_of_ne hother]
      exact h.returned .b
  · exact numbered_step hnumbered hstep v
  · cases x <;> exact List.mem_singleton_self _
  · rw [Function.update_of_ne hother]
    exact ⟨hmissing.not_settled,
      fun v packet hpacket hnumbers => honly v .b packet hpacket hnumbers⟩

end Connection

end LabNetstack
