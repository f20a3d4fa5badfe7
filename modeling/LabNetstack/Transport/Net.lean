import LabNetstack.Lib.Channel
import LabNetstack.Transport.SocketList
import LabNetstack.Transport.TwoEndpoint

/-!
# A client and a listener

The same connection from its first segment to the end of its sockets: two hosts with their socket
lists, and the segments in flight between them. Here the handshake is not over and done with. The
`SYN` may be lost, the answer to it, or the acknowledgement of the answer; and once `closeLab`
returns, the socket is gone from its list.

The client calls `connectLab` once, or not at all; the server has called `listenLab`. The address
and port that the client connects to are those the server is bound to.
-/

namespace LabNetstack

open RingMemory

/-- A client and a server that can talk to each other. -/
structure Config extends Handshake where
  /-- The client is bound to a port, or `getPort` has one left. -/
  port_ne : clientPort ≠ 0 ∨ ephemeral ≠ 0
  /-- The server is bound to the address connected to, or to none. -/
  listens : listenAddr = 0 ∨ listenAddr = serverAddr
  /-- Descriptors are counted up. -/
  fd_lt : listenFd < childFd

structure Net where
  host : Side → SocketList
  chan : Side → List TCPPacket

namespace Net

/-- What can happen next; `free` is the return of `closeLab`. -/
inductive Action
  | call (x : Side) (fd : ℤ) (call : Call)
  | free (x : Side) (fd : ℤ)
  | tick (x : Side) (nowtime : ℕ)
  | deliver (x : Side)
  | lose (x : Side) (i : ℕ)
  | repeatAt (x : Side) (i : ℕ)

/-- The timer and the channels, without the applications and without faults. -/
def Action.Automatic : Action → Prop
  | .tick _ _ => True
  | .deliver _ => True
  | _ => False

variable (n : Net)

def setHost (x : Side) (list : SocketList) : Net :=
  { n with host := Function.update n.host x list }

def setChan (x : Side) (l : List TCPPacket) : Net :=
  { n with chan := Function.update n.chan x l }

/-- A host hands segments to its channel. -/
def send (x : Side) (list : SocketList) (out : List TCPPacket) : Net :=
  (n.setHost x list).setChan x (n.chan x ++ out)

variable (c : Config)

/-- The oldest segment sent by `x` reaches the other host. -/
def deliver (x : Side) : Option Net :=
  match n.chan x with
  | [] => none
  | packet :: rest =>
    ((n.host x.other).handleTCPMain c.childRead c.childWrite packet).map fun (list, out) =>
      (n.setChan x rest).send x.other list out

def step : Action → Net → Option Net
  | .call x fd call, n =>
    ((n.host x).findSocket fd).bind fun socket =>
      (call.run socket).map fun socket => n.setHost x ((n.host x).update socket)
  | .free x fd, n =>
    ((n.host x).findSocket fd).bind fun socket =>
      if socket.hasFlag CLOSEState.call && closeLabExits socket then
        some (n.setHost x ((n.host x).freeSocket fd))
      else none
  | .tick x nowtime, n =>
    let (list, out) := (n.host x).asyncSendTCPPacket nowtime
    some (n.send x list out)
  | .deliver x, n => n.deliver c x
  | .lose x i, n => some (n.setChan x (Channel.lose i (n.chan x)))
  | .repeatAt x i, n => some (n.setChan x (Channel.repeatAt i (n.chan x)))

/-- The timer and the channels lead from one state to the other. -/
def Leads : Net → Net → Prop := Run.Leads (step c) Action.Automatic

section Fields

variable {n : Net} {x : Side} {list : SocketList} {l out rest : List TCPPacket}

@[simp] theorem host_setHost_self : (n.setHost x list).host x = list := Function.update_self ..

@[simp] theorem host_setHost_other : (n.setHost x list).host x.other = n.host x.other :=
  Function.update_of_ne (Side.other_ne x) ..

@[simp] theorem host_setHost_other' : (n.setHost x.other list).host x = n.host x :=
  Function.update_of_ne (Side.ne_other x) ..

@[simp] theorem chan_setHost : (n.setHost x list).chan = n.chan := rfl

@[simp] theorem host_setChan : (n.setChan x l).host = n.host := rfl

@[simp] theorem chan_setChan_self : (n.setChan x l).chan x = l := Function.update_self ..

@[simp] theorem chan_setChan_other : (n.setChan x l).chan x.other = n.chan x.other :=
  Function.update_of_ne (Side.other_ne x) ..

@[simp] theorem chan_setChan_other' : (n.setChan x.other l).chan x = n.chan x :=
  Function.update_of_ne (Side.ne_other x) ..

/-- What a delivery changes. -/
theorem deliver_eq {packet : TCPPacket} (hchan : n.chan x = packet :: rest)
    (hrun : (n.host x.other).handleTCPMain c.childRead c.childWrite packet = some (list, out)) :
    ∃ n', n.deliver c x = some n' ∧ n'.host x = n.host x ∧ n'.host x.other = list ∧
      n'.chan x = rest ∧ n'.chan x.other = n.chan x.other ++ out := by
  refine ⟨(n.setChan x rest).send x.other list out, ?_, ?_⟩
  · simp only [deliver, hchan, hrun, Option.map_some]
  · simp [send]

/-- A host without a connection sends nothing by itself. -/
theorem tick_quiet {now : ℕ} (hquiet : ∀ it ∈ (n.host x).sockets, it.isConnection = false) :
    step c (.tick x now) n = some n := by
  have hsame : ∀ it ∈ (n.host x).sockets, asyncSendTCPPacket now it = (it, []) :=
    fun it hit => asyncSendTCPPacket_of_not (hquiet it hit) now
  have hmap : (n.host x).sockets.map (asyncSendTCPPacket now) = (n.host x).sockets.map (·, []) :=
    List.map_congr_left hsame
  have hnone : (n.host x).sockets.flatMap (fun _ => ([] : List TCPPacket)) = [] := by simp
  have hlist : (n.host x).asyncSendTCPPacket now = (n.host x, []) := by
    simp only [SocketList.asyncSendTCPPacket, hmap, List.map_map, List.flatMap_map,
      Function.comp_def, hnone, List.map_id']
  simp only [step, hlist, send, setHost, setChan, List.append_nil, Function.update_eq_self]

/-- What a tick changes. -/
theorem tick_eq {now : ℕ} (hrun : (n.host x).asyncSendTCPPacket now = (list, out)) :
    ∃ n', step c (.tick x now) n = some n' ∧ n'.host x = list ∧ n'.host x.other = n.host x.other ∧
      n'.chan x = n.chan x ++ out ∧ n'.chan x.other = n.chan x.other := by
  refine ⟨n.send x list out, ?_, ?_⟩
  · simp only [step, hrun]
  · simp [send]

/-- **Only a `closeLab` that returns takes a socket from its list.** -/
theorem findSocket_step {n' : Net} {act : Action} (hact : act.Automatic)
    (hs : step c act n = some n') {fd : ℤ} (hfd : ((n.host x).findSocket fd).isSome) :
    ((n'.host x).findSocket fd).isSome := by
  rw [SocketList.isSome_findSocket] at hfd ⊢
  cases act with
  | tick z now =>
    obtain ⟨n₁, hn₁, hself, hother, -⟩ := @tick_eq c n z _ _ now rfl
    obtain rfl := Option.some.inj (hs.symm.trans hn₁)
    rcases Side.eq_or_eq_other z x with rfl | rfl
    · rw [hself]
      exact (SocketList.fds_asyncSendTCPPacket (n.host x) now).symm ▸ hfd
    · rwa [hother]
  | deliver z =>
    rw [step, deliver] at hs
    split at hs
    · cases hs
    · obtain ⟨⟨list, out⟩, hrun, rfl⟩ := Option.map_eq_some_iff.mp hs
      rcases Side.eq_or_eq_other z x with rfl | rfl
      · simpa [send] using hfd
      · simpa [send] using SocketList.fds_handleTCPMain hrun hfd
  | call | free | lose | repeatAt => exact hact.elim

theorem Leads.findSocket {n' : Net} (h : Leads c n n') {fd : ℤ}
    (hfd : ((n.host x).findSocket fd).isSome) : ((n'.host x).findSocket fd).isSome :=
  Run.Leads.invariant (q := fun n => ((n.host x).findSocket fd).isSome)
    (fun _ _ _ hact hfd hs => findSocket_step c hact hs hfd) h hfd

end Fields

end Net

namespace Config

variable (c : Config)

/-- `connectLab`: the client's socket, and the `SYN`. -/
def connect : Socket × TCPPacket :=
  connectLab c.client c.ephemeral c.device c.serverAddr c.serverPort

/-- The client has a socket and the server listens. -/
def idle : Net where
  host := fun | .a => ⟨[c.client], c.clientFd + 1⟩ | .b => ⟨[c.listener], c.childFd⟩
  chan := fun _ => []

/-- The client has called `connectLab`. -/
def connecting : Net where
  host := fun | .a => ⟨[c.connect.1], c.clientFd + 1⟩ | .b => ⟨[c.listener], c.childFd⟩
  chan := fun | .a => [c.connect.2] | .b => []

end Config

/-- What some run leads to, with a client that connects or with one that does not. -/
def Net.Reachable (c : Config) (n : Net) : Prop :=
  ∃ acts, Run.run (Net.step c) acts c.idle = some n ∨
    Run.run (Net.step c) acts c.connecting = some n

/-! ### The handshake, step by step -/

/-- A socket on which `closeLab` may have been called. -/
def Socket.withCall (socket : Socket) (call : Bool) : Socket :=
  if call then closeLab socket else socket

namespace Config

variable (c : Config)

def syn : TCPPacket := c.connect.2

/-- The two ends of the connection. -/
def identity : Side → Identity
  | .a => c.connect.1.identity
  | .b => ⟨c.childFd, c.connect.1.srcaddr, c.connect.1.srcport, c.serverAddr, c.serverPort⟩

/-- The socket that `TCPHandleListen` creates. -/
def child : Socket :=
  { allocSocket c.childFd c.childRead c.childWrite with
    desaddr := c.connect.1.srcaddr
    desport := c.connect.1.srcport
    srcaddr := c.serverAddr
    srcport := c.serverPort
    seqNum := -1
    ackNum := 0
    state := .sysRecv
    parentListenFd := c.listenFd }

def synAck : TCPPacket :=
  sendTCPPacket (createTCPHeader c.child.srcport c.child.desport (-1) 0 (ctSyn ||| ctAck) 0xffff)
    c.child []

/-- Who else is in the list of a host. -/
def front (call : Bool) : Side → List Socket
  | .a => []
  | .b => [c.listener.withCall call]

variable {c}

theorem srcport_connect_ne : c.connect.1.srcport ≠ 0 := by
  change (if c.clientPort = 0 then htons c.ephemeral else c.clientPort) ≠ 0
  split_ifs with hclient
  · intro hzero
    refine c.port_ne.resolve_left (not_not_intro hclient) ?_
    rw [← htons_htons c.ephemeral, hzero]
    decide
  · exact hclient

@[simp] theorem state_withCall (socket : Socket) (call : Bool) :
    (socket.withCall call).state = socket.state := by
  cases call <;> rfl

@[simp] theorem identity_withCall (socket : Socket) (call : Bool) :
    (socket.withCall call).identity = socket.identity := by
  cases call <;> rfl

@[simp] theorem fd_withCall (socket : Socket) (call : Bool) :
    (socket.withCall call).fd = socket.fd := by
  cases call <;> rfl

@[simp] theorem isConnection_withCall (socket : Socket) (call : Bool) :
    (socket.withCall call).isConnection = socket.isConnection := by
  cases call <;> rfl

/-! ### The lists of the two hosts -/

variable {call : Bool} {x : Side} {list : SocketList} {k k' : Socket} {out : List TCPPacket}
  {packet : TCPPacket}

/-- The listening socket is not the end of a connection. -/
theorem front_cases {it : Socket} (h : it ∈ c.front call x) :
    x = .b ∧ it = c.listener.withCall call := by
  cases x with
  | a => cases h
  | b => exact ⟨rfl, List.mem_singleton.mp h⟩

theorem fd_of_mem_front {it : Socket} (h : it ∈ c.front call x) :
    it.fd ≠ (c.identity x).fd := by
  obtain ⟨rfl, rfl⟩ := front_cases h
  rw [fd_withCall]
  exact c.fd_lt.ne

/-- The two ends name each other. -/
theorem identity_other (x : Side) :
    (c.identity x).desport = (c.identity x.other).srcport ∧
      (c.identity x).desaddr = (c.identity x.other).srcaddr ∧
      (c.identity x).srcport = (c.identity x.other).desport ∧
      (c.identity x).srcaddr = (c.identity x.other).desaddr := by
  cases x <;> exact ⟨rfl, rfl, rfl, rfl⟩

/-- No segment of the connection is for the listening socket, as far as the ports tell. -/
theorem find?_front (hpacket : packet.From (c.identity x)) :
    (c.front call x.other).find? (fun it =>
      packet.tcpHeader.desport = it.srcport ∧ packet.dst = it.srcaddr ∧
        packet.tcpHeader.srcport = it.desport ∧ packet.src = it.desaddr) = none := by
  refine List.find?_eq_none.mpr fun it hit => ?_
  obtain ⟨hx, rfl⟩ := front_cases hit
  have hdesport : (c.listener.withCall call).desport = 0 :=
    congrArg Identity.desport (identity_withCall c.listener call)
  have hx' : x = .a := by
    cases x
    · rfl
    · cases hx
  subst hx'
  rw [decide_eq_true_eq]
  rintro ⟨-, -, hport, -⟩
  rw [hdesport, hpacket.srcport] at hport
  exact srcport_connect_ne hport

/-- A segment for the end of the connection reaches it. -/
theorem matchSocket_end (hlist : list.sockets = c.front call x.other ++ [k])
    (hk : k.identity = c.identity x.other) (hpacket : packet.From (c.identity x)) :
    list.matchSocket packet = some k := by
  obtain ⟨hdesport, hdst, hsrcport, hsrc⟩ := identity_other (c := c) x
  rw [← hk] at hdesport hdst hsrcport hsrc
  rw [SocketList.matchSocket, hlist, List.find?_append, find?_front hpacket, Option.none_or,
    List.find?_singleton, if_pos, Option.some_or]
  rw [decide_eq_true_eq, hpacket.desport, hpacket.dst, hpacket.srcport, hpacket.src]
  exact ⟨hdesport, hdst, hsrcport, hsrc⟩

theorem findSocket_end {o : Option Socket} (hlist : list.sockets = c.front call x ++ o.toList)
    (ho : ∀ k ∈ o, k.fd = (c.identity x).fd) : list.findSocket (c.identity x).fd = o := by
  have hfront : (c.front call x).find? (fun it => it.fd = (c.identity x).fd) = none :=
    List.find?_eq_none.mpr fun it hit => by simpa using fd_of_mem_front hit
  rw [SocketList.findSocket, hlist, List.find?_append, hfront, Option.none_or]
  cases o with
  | none => rfl
  | some k => rw [Option.toList_some, List.find?_singleton, if_pos (by simpa using ho k rfl)]

/-- A descriptor is the listening socket's or the end's. -/
theorem findSocket_cases {o : Option Socket} (hlist : list.sockets = c.front call x ++ o.toList)
    {fd : ℤ} (hfind : list.findSocket fd = some k) :
    k.fd = fd ∧ ((x = .b ∧ k = c.listener.withCall call) ∨ o = some k) := by
  have hfd := List.find?_some hfind
  have hmem := List.mem_of_find?_eq_some hfind
  rw [hlist] at hmem
  refine ⟨by simpa using hfd, (List.mem_append.mp hmem).imp front_cases fun h => ?_⟩
  simpa using h

/-- A write through the pointer to the end of the connection. -/
theorem update_end (hlist : list.sockets = c.front call x ++ [k]) (hk : k.identity = c.identity x)
    (hk' : k'.identity = c.identity x) :
    (list.update k').sockets = c.front call x ++ [k'] := by
  have hfd : k.fd = k'.fd := congrArg Identity.fd (hk.trans hk'.symm)
  have hfront : (c.front call x).map (fun it => if it.fd = k'.fd then k' else it)
      = c.front call x := by
    rw [← List.map_id' (c.front call x), List.map_map]
    refine List.map_congr_left fun it hit => if_neg fun heq => fd_of_mem_front hit ?_
    rw [heq, ← hk']
    rfl
  rw [SocketList.update, hlist, List.map_append, hfront, List.map_singleton, if_pos hfd]

/-- A write through the pointer to the listening socket. -/
theorem update_listener {o : Option Socket} (hlist : list.sockets = c.front call .b ++ o.toList)
    (ho : ∀ k ∈ o, k.fd = (c.identity .b).fd) (call' : Bool) :
    (list.update (c.listener.withCall call')).sockets = c.front call' .b ++ o.toList := by
  have hend : o.toList.map (fun it => if it.fd = (c.listener.withCall call').fd
      then c.listener.withCall call' else it) = o.toList := by
    rw [← List.map_id' o.toList, List.map_map]
    refine List.map_congr_left fun it hit => if_neg ?_
    rw [ho it (by simpa using hit), fd_withCall]
    exact c.fd_lt.ne'
  rw [SocketList.update, hlist, List.map_append, hend, front, List.map_singleton,
    if_pos (by rw [fd_withCall, fd_withCall])]
  rfl

/-- The end of the connection leaves the list. -/
theorem freeSocket_end (hlist : list.sockets = c.front call x ++ [k])
    (hk : k.fd = (c.identity x).fd) :
    (list.freeSocket (c.identity x).fd).sockets = c.front call x := by
  have hfront : ∀ it ∈ c.front call x, ¬ decide (it.fd = (c.identity x).fd) = true :=
    fun it hit => by simpa using fd_of_mem_front hit
  rw [SocketList.freeSocket, hlist, List.eraseP_append_right _ hfront,
    List.eraseP_cons_of_pos (by simpa using hk), List.append_nil]

/-- The listening socket sends nothing by itself. -/
theorem asyncSendTCPPacket_front (l : List Socket) (now : ℕ)
    (hlist : list.sockets = c.front call x ++ l) :
    list.asyncSendTCPPacket now =
      ({ list with sockets := c.front call x ++ l.map fun it => (asyncSendTCPPacket now it).1 },
        l.flatMap fun it => (asyncSendTCPPacket now it).2) := by
  have hfront : (c.front call x).map (asyncSendTCPPacket now) = (c.front call x).map (·, []) := by
    refine List.map_congr_left fun it hit => asyncSendTCPPacket_of_not ?_ now
    obtain ⟨-, rfl⟩ := front_cases hit
    exact isConnection_withCall c.listener call
  have hnone : (c.front call x).flatMap (fun _ => ([] : List TCPPacket)) = [] := by simp
  simp only [SocketList.asyncSendTCPPacket, hlist, List.map_append, hfront, List.flatMap_append,
    List.map_map, List.flatMap_map, Function.comp_def, hnone, List.nil_append, List.map_id']

theorem asyncSendTCPPacket_end (hlist : list.sockets = c.front call x ++ [k]) (now : ℕ) :
    ∃ list', list.asyncSendTCPPacket now = (list', (asyncSendTCPPacket now k).2) ∧
      list'.sockets = c.front call x ++ [(asyncSendTCPPacket now k).1] ∧
      list'.nextFd = list.nextFd := by
  refine ⟨{ list with sockets := c.front call x ++ [(asyncSendTCPPacket now k).1] }, ?_, rfl, rfl⟩
  rw [asyncSendTCPPacket_front [k] now hlist, List.flatMap_singleton, List.map_singleton]

/-- Handling a segment for the end of the connection. -/
theorem handleTCPMain_end (hlist : list.sockets = c.front call x.other ++ [k])
    (hk : k.identity = c.identity x.other) (hstate : k.state ≠ .listen)
    (hpacket : packet.From (c.identity x)) (hrun : handleTCPMain k packet = some (k', out)) :
    ∃ list', list.handleTCPMain c.childRead c.childWrite packet = some (list', out) ∧
      list'.sockets = c.front call x.other ++ [k'] := by
  have hk' := (identity_handleTCPMain hrun).1
  refine ⟨list.update k', ?_, update_end hlist hk (hk'.trans hk)⟩
  rw [SocketList.handleTCPMain, matchSocket_end hlist hk hpacket]
  simp only
  rw [hrun, Option.map_some]

/-- Once the end of the connection is gone, its segments are dropped. -/
theorem handleTCPMain_gone (hlist : list.sockets = c.front call x.other)
    (hpacket : packet.From (c.identity x)) (hsyn : packet.tcpHeader.ctrl &&& ctSyn = 0 ∨ x = .b) :
    list.handleTCPMain c.childRead c.childWrite packet = some (list, []) := by
  rw [SocketList.handleTCPMain, SocketList.matchSocket, hlist, find?_front hpacket, Option.none_or]
  cases x with
  | b => rfl
  | a =>
    have hctrl := hsyn.resolve_right (by decide)
    simp only [front, Side.other, List.find?_singleton]
    split_ifs with hport
    · have hlisten : (c.listener.withCall call).state = .listen := state_withCall c.listener call
      simp only [hlisten, TCPHandleListen, hctrl, ne_eq, not_true_eq_false, if_false]
    · rfl

end Config

/-! ### Calls on a socket without a connection -/

theorem closeLab_withCall (socket : Socket) (call : Bool) :
    closeLab (socket.withCall call) = socket.withCall true := by
  cases call with
  | false => rfl
  | true =>
    have hor : ∀ b : CLOSEState,
        b ||| CLOSEState.call ||| CLOSEState.call = b ||| CLOSEState.call :=
      fun b => by rw [BitVec.or_assoc, BitVec.or_self]
    simp only [Socket.withCall, if_true, closeLab, hor]

/-- Nothing can be written, nothing read, and `closeLab` is only noted. -/
theorem Call.run_withCall {socket socket' : Socket} {called : Bool} {call : Call}
    (hstate : socket.state ≠ .establisted) (hempty : socket.recvFront = socket.recvBack)
    (h : call.run (socket.withCall called) = some socket') :
    ∃ called', socket' = socket.withCall called' := by
  cases call with
  | write buf =>
    have hrefused : writeRefused (socket.withCall called) = true := by
      simp [writeRefused, Config.state_withCall, hstate]
    rw [Call.run] at h
    split_ifs at h
    rw [writeLab, if_pos hrefused] at h
    exact ⟨called, (Option.some.inj h).symm⟩
  | read nbyte =>
    have hnone : ¬ 0 < recvByte (socket.withCall called) nbyte := by
      have hspace : (socket.withCall called).recvFront - (socket.withCall called).recvBack = 0 := by
        cases called <;> exact sub_eq_zero.mpr hempty
      rw [recvByte, hspace]
      split_ifs with hn
      · simp
      · rw [show nbyte = 0 by simpa using hn]
        simp
    rw [Call.run, readLab, if_neg hnone] at h
    split_ifs at h
    · exact ⟨called, (Option.some.inj h).symm⟩
    · cases h
  | close =>
    refine ⟨true, ?_⟩
    rw [← closeLab_withCall socket called]
    exact (Option.some.inj h).symm

/-- The wait loop goes on. -/
theorem closeLabExits_withCall {socket : Socket} (hstate : socket.state ≠ .closed)
    (hcl : socket.clstate = 0) (call : Bool) :
    closeLabExits (socket.withCall call) = false := by
  have hall : ((socket.withCall call).clstate == CLOSEState.all) = false := by
    cases call
    · simp only [Socket.withCall, Bool.false_eq_true, if_false, hcl]
      decide
    · simp only [Socket.withCall, if_true, closeLab, hcl]
      decide
  rw [closeLabExits, hall, Config.state_withCall]
  simp [hstate]

end LabNetstack
