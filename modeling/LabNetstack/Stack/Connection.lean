import LabNetstack.Stack.Upper
import LabNetstack.Transport.Ether

/-!
# One connection among many

Any number of hosts with any number of sockets, between which the network may hand over whatever
has been sent, to any host and at any time. Two of the sockets are the ends of one connection, as
the four numbers say that `matchSocket` looks at, and nobody else has taken these numbers.

Then what all the others do is no business of the two. Their own calls and segments come to the
same as the events of `Ether`, where there are only the two. That ends when `closeLab` returns: the
socket is freed then, and whatever is still under way to it is lost.

## Main results

* `Connection.Settled.call`, `Connection.Settled.deliver` — what an action comes to for an end
* `Connection.Carried.set` — and so for the connection
* `Connection.Carried.returned_isPrefix`, `Connection.Carried.all_read` — what is known of the bytes
-/

namespace LabNetstack

open RingMemory StopAndWait

/-- The `SYN` that a connection begins with. -/
def TCPPacket.IsOpening (packet : TCPPacket) : Prop :=
  packet.tcpHeader.ctrl = ctSyn ∧ packet.data = []
deriving Decidable

/-- One of the two acknowledgements that complete the handshake. -/
def TCPPacket.IsAnswer (packet : TCPPacket) : Prop :=
  packet.IsAck ∧ ¬ packet.IsFin ∧ packet.tcpHeader.ackNum = 0 ∧
    packet.tcpHeader.window = 0xffff ∧ packet.data = []
deriving Decidable

theorem TCPPacket.IsAnswer.rep {packet : TCPPacket} (h : packet.IsAnswer) :
    packet.Rep (.ack startAck) := by
  obtain ⟨hack, hfin, hnum, hwindow, hdata⟩ := h
  refine .ack startAck hack (not_not.mp hfin) ?_ ?_ hdata
  · rw [hnum]
    decide
  · rw [hwindow]
    decide

/-- A socket as the handshake leaves it. -/
structure Socket.JustConnected (k : Socket) : Prop where
  state : k.state = .establisted
  isConnection : k.isConnection = true
  clstate : k.clstate = 0
  sendFront : k.sendFront = 0
  sendBack : k.sendBack = 0
  ackBack : k.ackBack = 0
  ackFront : k.ackFront = -1
  seqNum : k.seqNum = 0
  recvFront : k.recvFront = 0
  recvBack : k.recvBack = 0
  ackNum : k.ackNum = 0
  resendTime : k.resendTime = 0

theorem Socket.JustConnected.rep {k : Socket} (h : k.JustConnected) : k.Rep Peer.start :=
  Socket.rep_start h.state h.isConnection h.clstate h.sendFront h.sendBack h.ackBack h.ackFront
    h.seqNum h.recvFront h.recvBack h.ackNum h.resendTime

/-- An end that is connected takes no notice of a `SYN`. -/
theorem Socket.Rep.handleTCPMain_opening {k : Socket} {p : Peer} (h : k.Rep p) {packet : TCPPacket}
    (hpacket : packet.IsOpening) : LabNetstack.handleTCPMain k packet = some (k, []) := by
  obtain ⟨hctrl, hdata⟩ := hpacket
  cases hclosed : p.closed with
  | true =>
    have hstate : k.state = .closed := h.state_eq_closed_iff.mpr hclosed
    simp [LabNetstack.handleTCPMain, hstate, TCPHandleClosed]
  | false =>
    have hstate : k.state = .establisted := by simp [h.state, hclosed]
    have hack : packet.tcpHeader.ctrl &&& ctAck = 0 := by
      rw [hctrl]
      decide
    have hfin : packet.tcpHeader.ctrl &&& ctFin = 0 := by
      rw [hctrl]
      decide
    have hctrl0 : packet.tcpHeader.ctrl ≠ 0 := by
      rw [hctrl]
      decide
    simp only [LabNetstack.handleTCPMain, hstate, TCPHandleEstablished, handleAck, handleFin,
      LabNetstack.handleData, hack, hfin, hdata, hctrl0, List.length_nil, Nat.lt_irrefl, ne_eq,
      not_true_eq_false, if_false, false_and, List.append_nil]

theorem Duo.send_self (d : Duo) (x : Side) : d.send x (d.peer x) [] = d := by
  rw [Duo.send, List.append_nil, Function.update_eq_self, Function.update_eq_self]

theorem Duo.send_nil (d : Duo) (x : Side) (p : Peer) : d.send x p [] = d.setPeer x p := by
  rw [Duo.send, List.append_nil, Function.update_eq_self]
  rfl

/-- Where the ends of a connection are, and the numbers that the socket at `a` bears. -/
structure Connection (ι : Type*) where
  node : Side → ι
  fd : Side → ℤ
  numbers : Tuple
  node_ne : node .a ≠ node .b

namespace Connection

variable {ι : Type*} (c : Connection ι)

def tuple : Side → Tuple
  | .a => c.numbers
  | .b => c.numbers.swap

/-- Nobody else has the numbers. -/
def Exclusive (up : ι → Upper) : Prop :=
  ∀ v, ∀ k ∈ (up v).process.list.sockets, ∀ x, k.tuple = c.tuple x → v = c.node x ∧ k.fd = c.fd x

/-- Nobody else on its host has the numbers of the end. -/
def ExclusiveAt (x : Side) (list : SocketList) : Prop :=
  ∀ k ∈ list.sockets, k.tuple = c.tuple x → k.fd = c.fd x

/-- The calls on the two sockets keep to what an application does once it is connected, and nothing
is written after `closeLab`. On all other sockets every call is allowed. -/
def Allows (v : ι) (p : Process) : Process.Action → Prop
  | .bindLab fd _ _ | .listenLab fd | .connectLab fd _ _ => ∀ x, v = c.node x → fd ≠ c.fd x
  | .writeLab fd _ => ∀ x, v = c.node x → fd = c.fd x →
    ∀ k ∈ p.list.findSocket fd, k.hasFlag CLOSEState.call = false
  | .segment _ _ _ => False
  | _ => True

instance {p : Side → Prop} [DecidablePred p] : Decidable (∀ x, p x) :=
  decidable_of_iff (p .a ∧ p .b)
    ⟨fun h x => by cases x; exacts [h.1, h.2], fun h => ⟨h .a, h .b⟩⟩

instance [Fintype ι] [DecidableEq ι] (up : ι → Upper) : Decidable (c.Exclusive up) :=
  inferInstanceAs (Decidable (∀ v, ∀ k ∈ (up v).process.list.sockets, ∀ x,
    k.tuple = c.tuple x → v = c.node x ∧ k.fd = c.fd x))

instance [DecidableEq ι] (v : ι) (p : Process) : DecidablePred (c.Allows v p) := fun action => by
  cases action <;> unfold Allows <;> infer_instance

/-- The socket of the end is connected, and stands for `p`. -/
def Connected (x : Side) (list : SocketList) (p : Peer) : Prop :=
  ∃ k ∈ list.sockets, k.fd = c.fd x ∧ k.tuple = c.tuple x ∧ k.Rep p

/-- What has become of an end that was connected: it still is, or its socket has been freed.
`closeLab` frees it only when its `FIN` has been sent. -/
inductive Settled (x : Side) (process : Process) (p : Peer) : Prop
  | connected (h : c.Connected x process.list p)
      (hclosing : c.fd x ∈ process.closing → p.snd.fin = true)
  | gone (h : Process.Gone (c.fd x) process.list) (hfin : p.snd.fin = true)

/-- Each end is what `E` makes of an end of `d`, the histories agree, and whatever bears the numbers
of the connection and has been sent, by whomever, stands for something that has been sent in `d`. -/
structure Carried (E : Side → Process → Peer → Prop) (up : ι → Upper) (d : Duo) : Prop where
  ordered : ∀ v, Process.Ordered (up v).process.list
  ends : ∀ x, E x (up (c.node x)).process (d.peer x)
  sent : ∀ x v, ∀ packet ∈ (up v).sent, packet.tuple = c.tuple x.other →
    packet.IsOpening ∨ ∃ m ∈ d.chan x, packet.Rep m
  written : ∀ x, (up (c.node x)).written (c.fd x) = (d.peer x).snd.written
  returned : ∀ x, (up (c.node x)).returned (c.fd x) =
    (d.peer x).rcv.accepted.take (d.peer x).rcv.taken
  loose : d.Loose

/-- Both ends have been connected. -/
abbrev Carries (up : ι → Upper) (d : Duo) : Prop := c.Carried c.Settled up d

/-- No call of `closeLab` on the end has to wait any longer; so it is too once `closeLab` has
returned, when there is no socket any more. -/
def Over (up : ι → Upper) (x : Side) : Prop :=
  ∀ k ∈ (up (c.node x)).process.list.findSocket (c.fd x), closeLabExits k = true

/-- What an action of a host comes to between the two ends: one of the events of `Ether`, or nothing.
Only `closeLab` on an end is a close. -/
inductive Reflects (v : ι) (action : Process.Action) (d : Duo) : Duo → Prop
  | idle : Reflects v action d d
  | event (event : Ether.Event) (d' : Duo) (h : Duo.etherStep event d = some d')
      (hclose : ∀ x, event = .own (.close x) → v = c.node x ∧ action = .closeLab (c.fd x)) :
      Reflects v action d d'

/-- The end `x` sends nothing. -/
def Silent (x : Side) (host : Upper) (action : Process.Action) (upper : Upper) : Prop :=
  ∀ packet ∈ host.process.sent action, packet.tuple = c.tuple x.other →
    ∀ k ∈ upper.process.list.sockets, packet.From k.identity → k.fd = c.fd x →
      ¬ ∀ fd ∈ action.fd, k.fd = fd

/-- What an action of its host comes to for the end `x`: it becomes `p`, and has sent `out`. -/
structure Turn (x : Side) (host : Upper) (action : Process.Action) (upper : Upper) (d : Duo)
    (p : Peer) (out : List Msg) : Prop where
  sent : ∀ packet ∈ host.process.sent action, packet.tuple = c.tuple x.other →
    ∀ k ∈ upper.process.list.sockets, packet.From k.identity → k.fd = c.fd x →
      (∀ fd ∈ action.fd, k.fd = fd) → ∃ m ∈ (d.send x p out).chan x, packet.Rep m
  written : (d.peer x).snd.written ++ host.process.wrote (c.fd x) action = p.snd.written
  returned : (d.peer x).rcv.accepted.take (d.peer x).rcv.taken ++
    host.process.got (c.fd x) action = p.rcv.accepted.take p.rcv.taken
  loose : (d.send x p out).Loose
  reflects : c.Reflects (c.node x) action d (d.send x p out)

/-- What a host has sent of the connection is of its handshake, and nothing has been done with the
two sockets since. -/
structure Opened (up : ι → Upper) : Prop where
  socket : ∀ x, ∃ k ∈ (up (c.node x)).process.list.sockets,
    k.fd = c.fd x ∧ k.tuple = c.tuple x ∧ k.JustConnected
  sent : ∀ x v, ∀ packet ∈ (up v).sent, packet.tuple = c.tuple x →
    packet.IsOpening ∨ packet.IsAnswer
  written : ∀ x, (up (c.node x)).written (c.fd x) = []
  returned : ∀ x, (up (c.node x)).returned (c.fd x) = []
  closing : ∀ x, c.fd x ∉ (up (c.node x)).process.closing

variable {c} {up : ι → Upper} {d : Duo} {v : ι} {x y : Side} {host upper : Upper}
  {action : Process.Action} {packet : TCPPacket} {k : Socket} {p : Peer} {out : List Msg}
  {E : Side → Process → Peer → Prop} {readMem writeMem : Mem Byte}

theorem tuple_other (x : Side) : c.tuple x.other = (c.tuple x).swap := by
  cases x <;> rfl

theorem node_inj (h : c.node x = c.node y) : x = y := by
  rcases Side.eq_or_eq_other y x with hsame | rfl
  · exact hsame
  · cases y with
    | a => exact absurd h.symm c.node_ne
    | b => exact absurd h c.node_ne

theorem Opened.carries (h : c.Opened up) (hordered : ∀ v, Process.Ordered (up v).process.list) :
    c.Carries up (Duo.start 1 1) where
  ordered := hordered
  ends x := by
    obtain ⟨k, hk, hfd, htuple, hnew⟩ := h.socket x
    exact .connected ⟨k, hk, hfd, htuple, hnew.rep⟩ fun hmem => absurd hmem (h.closing x)
  sent x v packet hpacket htuple := by
    refine (h.sent x.other v packet hpacket htuple).imp_right fun hanswer => ?_
    refine ⟨.ack startAck, ?_, hanswer.rep⟩
    cases x <;> exact List.mem_singleton_self _
  written := h.written
  returned := h.returned
  loose := Ether.loose_start 1 1

/-! ### What a host sends -/

theorem Exclusive.at [DecidableEq ι] (hex : c.Exclusive (Function.update up (c.node x) upper)) :
    c.ExclusiveAt x upper.process.list := by
  intro k hk hnumbers
  exact (hex (c.node x) k (by rwa [Function.update_self]) x hnumbers).2

/-- **New segments with the numbers of the connection** come from its own socket. -/
theorem sent_new [DecidableEq ι] (hex : c.Exclusive (Function.update up v upper))
    (hstep : (up v).step action = some upper) (hpacket : packet ∈ upper.sent)
    (htuple : packet.tuple = c.tuple y.other) :
    packet ∈ (up v).sent ∨ v = c.node y ∧ packet ∈ (up v).process.sent action ∧
      ∃ k ∈ upper.process.list.sockets, packet.From k.identity ∧ k.fd = c.fd y ∧
        ∀ fd ∈ action.fd, k.fd = fd := by
  rw [Upper.step_sent hstep] at hpacket
  rcases List.mem_append.mp hpacket with hold | hnew
  · exact Or.inl hold
  · obtain ⟨k, hk, hfrom, hfd⟩ := Process.sent_from (Upper.step_process hstep) hnew
    have hnumbers : k.tuple = c.tuple y := by
      rw [← Tuple.swap_swap k.tuple, ← hfrom.tuple, htuple, tuple_other, Tuple.swap_swap]
    obtain ⟨hv, hfd'⟩ := hex v k (by rwa [Function.update_self]) y hnumbers
    exact Or.inr ⟨hv, hnew, k, hk, hfrom, hfd', hfd⟩

/-- Until `closeLab` is called on one of the ends, nobody has closed. -/
theorem Reflects.open {d' : Duo} (h : c.Reflects v action d d') (hloose : d.Loose) (ho : d.Open)
    (hclose : ∀ x, v = c.node x → action ≠ .closeLab (c.fd x)) : d'.Open := by
  cases h with
  | idle => exact ho
  | event event _ hevent hself =>
    refine ho.step hloose hevent fun x hx => ?_
    obtain ⟨hv, hact⟩ := hself x hx
    exact hclose x hv hact

theorem Reflects.fin {d' : Duo} (h : c.Reflects v action d d') (hfin : (d.peer x).snd.fin = true) :
    (d'.peer x).snd.fin = true := by
  cases h with
  | idle => exact hfin
  | event event _ hevent => exact Duo.fin_of_step hevent hfin

/-! ### One of the ends -/

namespace Silent

/-- A call that is not about the end. -/
theorem of_spares (hact : action.Spares (c.fd x)) : c.Silent x host action upper := by
  intro packet hpacket _ k _ _ hk hfd
  cases action with
  | connectLab fd addr port => exact hact ((hfd fd rfl).symm.trans hk)
  | tick | segment => exact hact
  | _ => cases hpacket

/-- Who has no socket sends nothing. -/
theorem of_none (h : ∀ k ∈ upper.process.list.sockets, k.fd ≠ c.fd x) :
    c.Silent x host action upper :=
  fun _ _ _ k hk _ hfd => absurd hfd (h k hk)

theorem of_nil (hsent : host.process.sent action = []) : c.Silent x host action upper := by
  intro packet hpacket
  rw [hsent] at hpacket
  cases hpacket

/-- A segment that `matchSocket` gives to another socket, and that does not create the end. -/
theorem of_other (hex : c.ExclusiveAt x upper.process.list)
    (hstep : host.step (.segment readMem writeMem packet) = some upper)
    (hnew : c.fd x ≠ host.process.list.nextFd)
    (hother : ∀ it, host.process.list.matchSocket packet = some it → it.fd ≠ c.fd x) :
    c.Silent x host (.segment readMem writeMem packet) upper := by
  intro answer hanswer hnumbers _ _ _ _ _
  obtain ⟨⟨list, answers⟩, hlist, hupper⟩ := Option.map_eq_some_iff.mp (Upper.step_process hstep)
  have hafter : upper.process.list = list := (congrArg Process.list hupper).symm
  simp only [Process.sent, hlist] at hanswer
  obtain ⟨it, hit, hfrom, hwho⟩ := Process.handleTCPMain_from hlist hanswer
  have hitNumbers : it.tuple = c.tuple x := by
    rw [← Tuple.swap_swap it.tuple, ← hfrom.tuple, hnumbers, tuple_other, Tuple.swap_swap]
  have hsame := hex it (by rwa [hafter]) hitNumbers
  rcases hwho with hnext | ⟨it', hmatch, hit'⟩
  · exact hnew (hsame.symm.trans hnext)
  · exact hother it' hmatch (hit'.symm.trans hsame)

end Silent

namespace Turn

/-- Nothing happens to the end. -/
theorem of_silent (hloose : d.Loose) (hsilent : c.Silent x host action upper)
    (hwrote : host.process.wrote (c.fd x) action = [])
    (hgot : host.process.got (c.fd x) action = []) :
    c.Turn x host action upper d (d.peer x) [] where
  sent packet hpacket hnumbers k hk hfrom hfd hact :=
    absurd hact (hsilent packet hpacket hnumbers k hk hfrom hfd)
  written := by rw [hwrote, List.append_nil]
  returned := by rw [hgot, List.append_nil]
  loose := by rwa [d.send_self]
  reflects := by
    rw [d.send_self]
    exact .idle

/-- A call that is not about the end. -/
theorem spared (hloose : d.Loose) (hact : action.Spares (c.fd x)) :
    c.Turn x host action upper d (d.peer x) [] :=
  of_silent hloose (.of_spares hact) hact.wrote hact.got

/-- A call on the end that sends nothing. -/
theorem quiet (hsent : host.process.sent action = [])
    (hwritten : (d.peer x).snd.written ++ host.process.wrote (c.fd x) action =
      p.snd.written)
    (hreturned : (d.peer x).rcv.accepted.take (d.peer x).rcv.taken ++
      host.process.got (c.fd x) action = p.rcv.accepted.take p.rcv.taken)
    (hloose : (d.setPeer x p).Loose) (hreflects : c.Reflects (c.node x) action d (d.setPeer x p)) :
    c.Turn x host action upper d p [] where
  sent packet hpacket hnumbers k hk hfrom hfd hact :=
    absurd hact (Silent.of_nil hsent packet hpacket hnumbers k hk hfrom hfd)
  written := hwritten
  returned := hreturned
  loose := by rwa [d.send_nil]
  reflects := by rwa [d.send_nil]

/-- The segments of a round of the timer that bear the numbers are those of the end. -/
theorem of_tick (hordered : Process.Ordered host.process.list)
    (hex : c.ExclusiveAt x upper.process.list) {now : ℕ}
    (hstep : host.step (.tick now) = some upper)
    (hk : k ∈ host.process.list.sockets) (hfd : k.fd = c.fd x)
    (hpacket : packet ∈ host.process.sent (.tick now))
    (hnumbers : packet.tuple = c.tuple x.other) : packet ∈ (asyncSendTCPPacket now k).2 := by
  simp only [Process.sent, SocketList.asyncSendTCPPacket, List.flatMap_map, List.mem_flatMap]
    at hpacket
  obtain ⟨it, hit, hpacket⟩ := hpacket
  obtain ⟨hitFd, hitTuple, -⟩ := Process.of_role (role_asyncSendTCPPacket now it)
  have hfrom := ((identity_asyncSendTCPPacket now it).2 packet hpacket).toFrom.tuple
  have hitNumbers : it.tuple = c.tuple x := by
    rw [← Tuple.swap_swap it.tuple, ← hfrom, hnumbers, tuple_other, Tuple.swap_swap]
  have hafter : (asyncSendTCPPacket now it).1 ∈ upper.process.list.sockets := by
    rw [← Option.some.inj (Upper.step_process hstep)]
    exact Process.mem_asyncSendTCPPacket.mpr ⟨it, hit, rfl⟩
  have hsame := hex _ hafter (hitTuple.trans hitNumbers)
  obtain rfl := hordered.eq_of_fd hit hk ((hitFd.symm.trans hsame).trans hfd.symm)
  exact hpacket

end Turn

namespace Carried

/-- A host that has neither of the ends. -/
theorem elsewhere [DecidableEq ι] (h : c.Carried E up d) (hv : ∀ x, v ≠ c.node x)
    (hex : c.Exclusive (Function.update up v upper)) (hstep : (up v).step action = some upper) :
    c.Carried E (Function.update up v upper) d where
  ordered w := by
    by_cases hw : w = v
    · subst hw
      rw [Function.update_self]
      exact (h.ordered w).step rfl (Upper.step_process hstep)
    · rw [Function.update_of_ne hw]
      exact h.ordered w
  ends x := by
    rw [Function.update_of_ne (hv x).symm]
    exact h.ends x
  sent x w packet hpacket htuple := by
    by_cases hw : w = v
    · subst hw
      rw [Function.update_self] at hpacket
      rcases sent_new hex hstep hpacket htuple with hold | ⟨hnode, -⟩
      · exact h.sent x w packet hold htuple
      · exact absurd hnode (hv x)
    · rw [Function.update_of_ne hw] at hpacket
      exact h.sent x w packet hpacket htuple
  written x := by
    rw [Function.update_of_ne (hv x).symm]
    exact h.written x
  returned x := by
    rw [Function.update_of_ne (hv x).symm]
    exact h.returned x
  loose := h.loose

/-- **The host of an end**: what the action comes to for this end is what it comes to for both. -/
theorem set [DecidableEq ι] (h : c.Carried E up d)
    (hex : c.Exclusive (Function.update up (c.node x) upper))
    (hstep : (up (c.node x)).step action = some upper) (hend : E x upper.process p)
    (hturn : c.Turn x (up (c.node x)) action upper d p out) :
    c.Carried E (Function.update up (c.node x) upper) (d.send x p out) := by
  have hother : c.node x.other ≠ c.node x := fun heq => Side.other_ne x (node_inj heq)
  refine ⟨fun w => ?_, ?_, fun y w packet hpacket hnumbers => ?_, ?_, ?_, hturn.loose⟩
  · by_cases hw : w = c.node x
    · subst hw
      rw [Function.update_self]
      exact (h.ordered _).step rfl (Upper.step_process hstep)
    · rw [Function.update_of_ne hw]
      exact h.ordered w
  · refine Side.forall_of_other x ?_ ?_
    · rw [Function.update_self]
      simpa [Duo.send_eq] using hend
    · rw [Function.update_of_ne hother]
      simpa [Duo.send_eq] using h.ends x.other
  · have hold : ∀ w, packet ∈ (up w).sent → packet.IsOpening ∨ ∃ m ∈ (d.send x p out).chan y,
        packet.Rep m := by
      intro w hpacket
      refine (h.sent y w packet hpacket hnumbers).imp_right ?_
      rintro ⟨m, hm, hrep⟩
      refine ⟨m, ?_, hrep⟩
      rcases Side.eq_or_eq_other x y with rfl | rfl
      · simpa [Duo.send_eq] using Or.inl hm
      · simpa [Duo.send_eq] using hm
    by_cases hw : w = c.node x
    · subst hw
      rw [Function.update_self] at hpacket
      rcases sent_new hex hstep hpacket hnumbers with
        hpacket | ⟨hnode, hnew, k, hk, hfrom, hfd, hact⟩
      · exact hold _ hpacket
      · obtain rfl := node_inj hnode
        exact Or.inr (hturn.sent packet hnew hnumbers k hk hfrom hfd hact)
    · rw [Function.update_of_ne hw] at hpacket
      exact hold w hpacket
  · refine Side.forall_of_other x ?_ ?_
    · rw [Function.update_self, Upper.step_written hstep, h.written x, hturn.written]
      simp [Duo.send_eq]
    · rw [Function.update_of_ne hother, h.written x.other]
      simp [Duo.send_eq]
  · refine Side.forall_of_other x ?_ ?_
    · rw [Function.update_self, Upper.step_returned hstep, h.returned x, hturn.returned]
      simp [Duo.send_eq]
    · rw [Function.update_of_ne hother, h.returned x.other]
      simp [Duo.send_eq]

/-- Whatever bears the numbers of a connected end can be handed to it. -/
theorem takes (h : c.Carried E up d)
    (hshort : ∀ x, ((up (c.node x)).written (c.fd x)).length < 2 ^ 16) {u : ι}
    (hsent : packet ∈ (up u).sent) (hnumbers : packet.tuple = c.tuple x)
    (hrep : k.Rep (d.peer x)) :
    ∃ k' packets p out, handleTCPMain k packet = some (k', packets) ∧ k'.Rep p ∧
      List.Forall₂ TCPPacket.Rep packets out ∧ p.snd.written = (d.peer x).snd.written ∧
      p.rcv.accepted.take p.rcv.taken = (d.peer x).rcv.accepted.take (d.peer x).rcv.taken ∧
      (d.send x p out).Loose ∧ (d.send x p out = d ∨
        ∃ i, Duo.etherStep (.deliver x.other i) d = some (d.send x p out)) := by
  rcases h.sent x.other u packet hsent (by rwa [Side.other_other]) with hopening | ⟨m, hm, hmsg⟩
  · refine ⟨k, [], d.peer x, [], hrep.handleTCPMain_opening hopening, hrep, .nil, rfl, rfl, ?_⟩
    rw [d.send_self x]
    exact ⟨h.loose, Or.inl rfl⟩
  · have hbounded := h.loose.bounded x
    have hrecent := h.loose.recent (fun y => h.written y ▸ hshort y) hm
    have hloose := h.loose.handle hm
    rw [Side.other_other] at hrecent hloose
    obtain ⟨k', packets, hmain, hrep', hout⟩ := hrep.handleTCPMain_recent hbounded hmsg hrecent
    obtain ⟨hwritten, hreturned⟩ := Peer.handle_history m hbounded
    obtain ⟨i, hi⟩ := List.mem_iff_getElem?.mp hm
    refine ⟨k', packets, _, _, hmain, hrep', hout, hwritten, hreturned, hloose, Or.inr ⟨i, ?_⟩⟩
    simp only [Duo.etherStep, Duo.etherDeliver, hi, Side.other_other]

/-- **What has been read is a prefix of what was written.** -/
theorem returned_isPrefix (h : c.Carried E up d) (x : Side) :
    (up (c.node x.other)).returned (c.fd x.other) <+: (up (c.node x)).written (c.fd x) := by
  rw [h.returned x.other, h.written x]
  exact (List.take_prefix ..).trans (h.loose.dir x).ends.accepted_isPrefix

/-- An end that has accepted all has it: it has returned it already, or it is in its ring. -/
theorem all_read (h : c.Carried E up d) (x : Side)
    (hunread : copyOut k.readBuffer k.recvBack (k.recvFront - k.recvBack) =
      (d.peer x.other).rcv.accepted.drop (d.peer x.other).rcv.taken)
    (hall : (d.peer x.other).rcv.accepted = (d.peer x).snd.written) :
    (up (c.node x.other)).returned (c.fd x.other) ++
      copyOut k.readBuffer k.recvBack (k.recvFront - k.recvBack) =
    (up (c.node x)).written (c.fd x) := by
  rw [h.returned x.other, hunread, List.take_append_drop, h.written x, hall]

/-- **Closing loses nothing.** An end that has seen the `FIN` has accepted all. -/
theorem accepted_of_finRecv (h : c.Carried E up d) (x : Side) (hrep : k.Rep (d.peer x.other))
    (hfin : k.hasFlag CLOSEState.finRecv = true) :
    (d.peer x.other).rcv.accepted = (d.peer x).snd.written := by
  rw [hrep.hasFlag_finRecv] at hfin
  have hdir := (h.loose.dir x).ends
  exact (hdir.complete (hdir.fin_recv hfin)).2.2.2

end Carried

/-! ### An end that is connected -/

namespace Connected

/-- The socket of the end is the one that `findSocket` finds. -/
theorem find {list : SocketList} (hend : c.Connected x list p) (hordered : Process.Ordered list) :
    ∃ k, list.findSocket (c.fd x) = some k ∧ k ∈ list.sockets ∧ k.fd = c.fd x ∧
      k.tuple = c.tuple x ∧ k.Rep p := by
  obtain ⟨k, hk, hfd, htuple, hrep⟩ := hend
  exact ⟨k, hfd ▸ hordered.findSocket hk, hk, hfd, htuple, hrep⟩

theorem rep_of_findSocket {list : SocketList} (hend : c.Connected x list p)
    (hordered : Process.Ordered list) (hk : list.findSocket (c.fd x) = some k) : k.Rep p := by
  obtain ⟨k₀, hk₀, -, -, -, hrep⟩ := hend.find hordered
  obtain rfl := Option.some.inj (hk₀.symm.trans hk)
  exact hrep

/-- The socket of the end is written back. -/
theorem update {list : SocketList} {k' : Socket} (hk : k ∈ list.sockets) (hfd : k.fd = c.fd x)
    (htuple : k.tuple = c.tuple x) (hfd' : k'.fd = k.fd) (htuple' : k'.tuple = k.tuple)
    (hrep : k'.Rep p) : c.Connected x (list.update k') p :=
  ⟨k', Process.mem_update_self hk hfd', hfd'.trans hfd, htuple'.trans htuple, hrep⟩

/-- A call that is not about the end. -/
theorem spared (hend : c.Connected x host.process.list p)
    (hordered : Process.Ordered host.process.list)
    (hstep : host.step action = some upper) (hact : action.Spares (c.fd x)) :
    c.Connected x upper.process.list p := by
  obtain ⟨k, hk, hfd, htuple, hrep⟩ := hend
  rcases Process.mem_step hordered (Upper.step_process hstep) hk (hfd ▸ hact) with hmem | hmem
  · exact ⟨k, hmem, hfd, htuple, hrep⟩
  · exact ⟨_, hmem, hfd, htuple, hrep.state, hrep.isConnection, hrep.clstate, hrep.sendFront,
      hrep.sendBack, hrep.ackBack, hrep.ackFront, hrep.seqNum, hrep.recvFront, hrep.recvBack,
      hrep.ackNum, hrep.resendTime, hrep.writeRing, hrep.readRing⟩

/-- A round of the timer. -/
theorem tick (hend : c.Connected x host.process.list (d.peer x))
    (hordered : Process.Ordered host.process.list) (hloose : d.Loose)
    (hex : c.ExclusiveAt x upper.process.list) {now : ℕ}
    (hstep : host.step (.tick now) = some upper) :
    c.Connected x upper.process.list ((d.peer x).tick now).1 ∧
      c.Turn x host (.tick now) upper d ((d.peer x).tick now).1 ((d.peer x).tick now).2 := by
  obtain ⟨k, hk, hfd, htuple, hrep⟩ := hend
  obtain ⟨hrep', hout⟩ := hrep.asyncSendTCPPacket (hloose.bounded x) now
  obtain ⟨hfd', htuple', -⟩ := Process.of_role (role_asyncSendTCPPacket now k)
  obtain ⟨hrcv, -⟩ := Peer.tick_frame (d.peer x) now
  refine ⟨⟨_, ?_, hfd'.trans hfd, htuple'.trans htuple, hrep'⟩, ?_, ?_, ?_, hloose.tick now,
    .event (.own (.tick x now)) _ rfl (by simp)⟩
  · rw [← Option.some.inj (Upper.step_process hstep)]
    exact Process.mem_asyncSendTCPPacket.mpr ⟨k, hk, rfl⟩
  · intro packet hpacket hnumbers _ _ _ _ _
    obtain ⟨m, hm, hmsg⟩ := Channel.exists_related hout
      (Turn.of_tick hordered hex hstep hk hfd hpacket hnumbers)
    exact ⟨m, by simpa [Duo.send_eq] using Or.inr hm, hmsg⟩
  · rw [Peer.tick_written, show host.process.wrote (c.fd x) (.tick now) = [] from rfl,
      List.append_nil]
  · rw [hrcv, show host.process.got (c.fd x) (.tick now) = [] from rfl,
      List.append_nil]

/-- **Any call on the host of the end** but the last step of `closeLab`. -/
theorem call (hend : c.Connected x host.process.list (d.peer x))
    (hordered : Process.Ordered host.process.list) (hloose : d.Loose)
    (hex : c.ExclusiveAt x upper.process.list)
    (hallows : c.Allows (c.node x) host.process action) (hkeep : action ≠ .freeSocket (c.fd x))
    (hstep : host.step action = some upper) :
    ∃ p out, c.Connected x upper.process.list p ∧ c.Turn x host action upper d p out := by
  obtain ⟨k, hfind, hk, hfd, htuple, hrep⟩ := hend.find hordered
  have hprocess := Upper.step_process hstep
  have hspared : action.Spares (c.fd x) → ∃ p out, c.Connected x upper.process.list p ∧
      c.Turn x host action upper d p out :=
    fun hact => ⟨_, _, hend.spared hordered hstep hact, .spared hloose hact⟩
  cases action with
  | socketLab | acceptLab | leaveCloseLab => exact hspared trivial
  | bindLab | listenLab | connectLab => exact hspared (hallows x rfl)
  | freeSocket => exact hspared fun heq => hkeep (congrArg _ heq)
  | segment => exact hallows.elim
  | tick now => exact ⟨_, _, hend.tick hordered hloose hex hstep⟩
  | writeLab fd buf =>
    by_cases hown : fd = c.fd x
    swap
    · exact hspared hown
    subst hown
    have hcall : (d.peer x).call = false := by
      rw [← hrep.hasFlag_call]
      exact hallows x rfl rfl k hfind
    simp only [Process.step, Process.onSocket, hfind] at hprocess
    obtain ⟨⟨n, k'⟩, hrun, hupper⟩ := Option.map_eq_some_iff.mp hprocess
    obtain ⟨p, hp, hrep', hrcv, hwritten⟩ :=
      Run.rel_some_left (hrep.writeLab (hloose.bounded x) buf) hrun
    have hwrote : host.process.wrote (c.fd x) (.writeLab (c.fd x) buf) =
        buf.take n.toNat := by
      simp only [Process.wrote, hfind, Option.bind_some, hrun, if_true]
    have hgot : host.process.got (c.fd x) (.writeLab (c.fd x) buf) = [] := rfl
    obtain ⟨hfd', htuple', -⟩ := Process.of_role (role_writeLab hrun)
    refine ⟨p, [], ?_, .quiet rfl ?_ ?_ (hloose.write hcall hp)
      (.event (.own (.write x buf)) _ ?_ (by simp))⟩
    · rw [← hupper]
      exact update hk hfd htuple hfd' htuple' hrep'
    · rw [hwrote, hwritten]
    · rw [hgot, List.append_nil, hrcv]
    · simp [Duo.etherStep, Duo.step, Action.Own, hcall, hp]
  | readLab fd nbyte =>
    by_cases hown : fd = c.fd x
    swap
    · exact hspared hown
    subst hown
    simp only [Process.step, Process.onSocket, hfind] at hprocess
    obtain ⟨⟨bytes, k'⟩, hrun, hupper⟩ := Option.map_eq_some_iff.mp hprocess
    obtain ⟨p, hp, hrep', hsnd, hreturned⟩ :=
      Run.rel_some_left (hrep.readLab (hloose.bounded x) nbyte) hrun
    have hwrote : host.process.wrote (c.fd x) (.readLab (c.fd x) nbyte) = [] := rfl
    have hgot : host.process.got (c.fd x) (.readLab (c.fd x) nbyte) = bytes := by
      simp only [Process.got, hfind, Option.bind_some, hrun, if_true]
    obtain ⟨hfd', htuple', -⟩ := Process.of_role (role_readLab hrun)
    refine ⟨p, [], ?_, .quiet rfl ?_ ?_ (hloose.read hp)
      (.event (.own (.read x nbyte)) _ ?_ (by simp))⟩
    · rw [← hupper]
      exact update hk hfd htuple hfd' htuple' hrep'
    · rw [hwrote, List.append_nil, hsnd]
    · rw [hgot, hreturned]
    · simp [Duo.etherStep, Duo.step, Action.Own, hp]
  | closeLab fd =>
    by_cases hown : fd = c.fd x
    swap
    · exact hspared hown
    subst hown
    simp only [Process.step, Process.onSocket, hfind] at hprocess
    refine ⟨{ d.peer x with call := true }, [], ?_, .quiet rfl (List.append_nil _)
      (List.append_nil _) (hloose.close x) (.event (.own (.close x)) _ rfl ?_)⟩
    · rw [← Option.some.inj hprocess]
      exact update hk hfd htuple rfl rfl hrep.closeLab
    · intro y hy
      cases hy
      exact ⟨rfl, rfl⟩

/-- A segment that `matchSocket` does not give to the end. -/
theorem deliver_other (hend : c.Connected x host.process.list p)
    (hstep : host.step (.segment readMem writeMem packet) = some upper)
    (hother : ∀ it, host.process.list.matchSocket packet = some it → it.fd ≠ c.fd x) :
    c.Connected x upper.process.list p := by
  obtain ⟨k, hk, hfd, htuple, hrep⟩ := hend
  exact ⟨k, Process.mem_segment (Upper.step_process hstep) hk fun it hit => hfd ▸ hother it hit,
    hfd, htuple, hrep⟩

/-- A segment that it gives to the end has been sent by the other end. -/
theorem deliver_end (hend : c.Connected x (up (c.node x)).process.list (d.peer x))
    (h : c.Carried E up d) (hshort : ∀ x, ((up (c.node x)).written (c.fd x)).length < 2 ^ 16)
    {u : ι} (hsent : packet ∈ (up u).sent)
    (hstep : (up (c.node x)).step (.segment readMem writeMem packet) = some upper)
    (hk : (up (c.node x)).process.list.matchSocket packet = some k) (hfd : k.fd = c.fd x) :
    ∃ p out, c.Connected x upper.process.list p ∧
      c.Turn x (up (c.node x)) (.segment readMem writeMem packet) upper d p out := by
  have hmem := Process.mem_of_matchSocket hk
  obtain ⟨k₀, hk₀, hfd₀, htuple, hrep⟩ := hend
  obtain rfl := (h.ordered _).eq_of_fd hk₀ hmem (hfd₀.trans hfd.symm)
  have hlisten : k₀.state ≠ .listen := by
    rw [hrep.state]
    split_ifs <;> decide
  have hnumbers : packet.tuple = c.tuple x := htuple ▸ Process.tuple_of_matchSocket hk hlisten
  obtain ⟨k', packets, p, out, hmain, hrep', hout, hwritten, hreturned, hloose, hevent⟩ :=
    h.takes hshort hsent hnumbers hrep
  have hid := (identity_handleTCPMain hmain).1
  obtain ⟨hlist, hanswers⟩ := Process.segment_of_match hk hlisten hmain (Upper.step_process hstep)
  refine ⟨p, out, ?_, ?_, ?_, ?_, hloose, ?_⟩
  · rw [hlist]
    exact update hk₀ hfd htuple (congrArg Identity.fd hid) (Socket.tuple_of_identity hid) hrep'
  · intro answer hanswer _ _ _ _ _ _
    rw [hanswers] at hanswer
    obtain ⟨m, hm, hmsg⟩ := Channel.exists_related hout hanswer
    exact ⟨m, by simpa [Duo.send_eq] using Or.inr hm, hmsg⟩
  · rw [← hwritten]
    exact List.append_nil _
  · rw [hreturned]
    exact List.append_nil _
  · rcases hevent with hsame | ⟨i, hevent⟩
    · rw [hsame]
      exact .idle
    · exact .event _ _ hevent (by simp)

/-- **A segment on the host of the end**, whoever has sent it and however long ago. -/
theorem deliver (hend : c.Connected x (up (c.node x)).process.list (d.peer x))
    (h : c.Carried E up d) (hex : c.ExclusiveAt x upper.process.list)
    (hshort : ∀ x, ((up (c.node x)).written (c.fd x)).length < 2 ^ 16) {u : ι}
    (hsent : packet ∈ (up u).sent)
    (hstep : (up (c.node x)).step (.segment readMem writeMem packet) = some upper) :
    ∃ p out, c.Connected x upper.process.list p ∧
      c.Turn x (up (c.node x)) (.segment readMem writeMem packet) upper d p out := by
  by_cases hown : ∃ it, (up (c.node x)).process.list.matchSocket packet = some it ∧ it.fd = c.fd x
  · obtain ⟨it, hit, hfd⟩ := hown
    exact hend.deliver_end h hshort hsent hstep hit hfd
  · have hother : ∀ it, (up (c.node x)).process.list.matchSocket packet = some it →
        it.fd ≠ c.fd x := fun it hit hfd => hown ⟨it, hit, hfd⟩
    have hnew : c.fd x ≠ (up (c.node x)).process.list.nextFd := by
      obtain ⟨k, hk, hfd, -⟩ := hend
      exact hfd ▸ ((h.ordered _).lt k hk).ne
    exact ⟨_, _, hend.deliver_other hstep hother,
      .of_silent h.loose (.of_other hex hstep hnew hother) rfl rfl⟩

theorem not_gone {list : SocketList} (hend : c.Connected x list p) :
    ¬ Process.Gone (c.fd x) list := by
  rintro ⟨hnone, -⟩
  obtain ⟨k, hk, hfd, -⟩ := hend
  exact hnone k hk hfd

end Connected

/-! ### An end that has been connected -/

namespace Settled

/-- An end whose socket has been freed. -/
theorem gone_step (hgone : Process.Gone (c.fd x) host.process.list)
    (hfin : (d.peer x).snd.fin = true) (hloose : d.Loose) (hstep : host.step action = some upper) :
    c.Settled x upper.process (d.peer x) ∧ c.Turn x host action upper d (d.peer x) [] := by
  have hnone := Process.findSocket_eq_none hgone.1
  have hafter := hgone.step (Upper.step_process hstep)
  exact ⟨.gone hafter hfin, .of_silent hloose (.of_none hafter.1)
    (Process.wrote_of_none hnone action) (Process.got_of_none hnone action)⟩

/-- What is known when `closeLab` leaves its wait loop stays so. -/
theorem closing_step (hclosing : c.fd x ∈ host.process.closing → (d.peer x).snd.fin = true)
    (hend : c.Connected x host.process.list (d.peer x))
    (hordered : Process.Ordered host.process.list) (hloose : d.Loose)
    (hstep : host.step action = some upper) (hturn : c.Turn x host action upper d p out)
    (hmem : c.fd x ∈ upper.process.closing) : p.snd.fin = true := by
  have hfin : (d.peer x).snd.fin = true := by
    rcases Process.closing_of_step (Upper.step_process hstep) hmem with hold | ⟨k, hk, hexits⟩
    · exact hclosing hold
    · exact ((hend.rep_of_findSocket hordered hk).finished_of_exits (hloose.flags x) hexits).1
  simpa [Duo.send_eq] using hturn.reflects.fin hfin

/-- **Any call on the host of the end.** Only the last step of `closeLab` frees the socket. -/
theorem call (hend : c.Settled x host.process (d.peer x))
    (hordered : Process.Ordered host.process.list) (hloose : d.Loose)
    (hex : c.ExclusiveAt x upper.process.list)
    (hallows : c.Allows (c.node x) host.process action)
    (hstep : host.step action = some upper) :
    ∃ p out, c.Settled x upper.process p ∧ c.Turn x host action upper d p out ∧
      (c.Connected x host.process.list (d.peer x) → action ≠ .freeSocket (c.fd x) →
        c.Connected x upper.process.list p) := by
  cases hend with
  | gone hgone hfin =>
    obtain ⟨hafter, hturn⟩ := gone_step hgone hfin hloose hstep
    exact ⟨_, _, hafter, hturn, fun hconn => absurd hgone hconn.not_gone⟩
  | connected hconn hclosing =>
    by_cases hfree : action = .freeSocket (c.fd x)
    · subst hfree
      have hprocess := Upper.step_process hstep
      obtain ⟨k, hk, hfd, -⟩ := hconn
      rw [Process.step] at hprocess
      split_ifs at hprocess with hmem
      have hgone : Process.Gone (c.fd x) upper.process.list := by
        rw [← Option.some.inj hprocess, ← hfd]
        exact Process.gone_freeSocket hordered hk
      exact ⟨_, [], .gone hgone (hclosing hmem), .of_silent hloose (.of_none hgone.1) rfl rfl,
        fun _ hne => absurd rfl hne⟩
    · obtain ⟨p, out, hafter, hturn⟩ := hconn.call hordered hloose hex hallows hfree hstep
      exact ⟨p, out, .connected hafter (closing_step hclosing hconn hordered hloose hstep hturn),
        hturn, fun _ _ => hafter⟩

/-- **A segment on the host of the end**, whoever has sent it and however long ago. -/
theorem deliver (hend : c.Settled x (up (c.node x)).process (d.peer x))
    (h : c.Carried E up d) (hex : c.ExclusiveAt x upper.process.list)
    (hshort : ∀ x, ((up (c.node x)).written (c.fd x)).length < 2 ^ 16) {u : ι}
    (hsent : packet ∈ (up u).sent)
    (hstep : (up (c.node x)).step (.segment readMem writeMem packet) = some upper) :
    ∃ p out, c.Settled x upper.process p ∧
      c.Turn x (up (c.node x)) (.segment readMem writeMem packet) upper d p out ∧
      (c.Connected x (up (c.node x)).process.list (d.peer x) →
        c.Connected x upper.process.list p) := by
  cases hend with
  | gone hgone hfin =>
    obtain ⟨hafter, hturn⟩ := gone_step hgone hfin h.loose hstep
    exact ⟨_, _, hafter, hturn, fun hconn => absurd hgone hconn.not_gone⟩
  | connected hconn hclosing =>
    obtain ⟨p, out, hafter, hturn⟩ := hconn.deliver h hex hshort hsent hstep
    have hclosing' := closing_step hclosing hconn (h.ordered _) h.loose hstep hturn
    exact ⟨p, out, .connected hafter hclosing', hturn, fun _ => hafter⟩

/-- The socket that `findSocket` finds. -/
theorem rep_of_findSocket {process : Process} (hend : c.Settled x process p)
    (hordered : Process.Ordered process.list) (hk : process.list.findSocket (c.fd x) = some k) :
    k.Rep p := by
  cases hend with
  | gone hgone =>
    obtain ⟨hmem, hfd⟩ := Process.findSocket_some hk
    exact absurd hfd (hgone.1 k hmem)
  | connected hconn => exact hconn.rep_of_findSocket hordered hk

/-- `closeLab` does not return before the `FIN` has been sent. -/
theorem fin_of_over (hend : c.Settled x (up (c.node x)).process p)
    (hordered : Process.Ordered (up (c.node x)).process.list) (hp : Duo.FlagsOk p)
    (hover : c.Over up x) : p.snd.fin = true := by
  cases hend with
  | gone _ hfin => exact hfin
  | connected hconn =>
    obtain ⟨k, hk, -, -, -, hrep⟩ := hconn.find hordered
    exact (hrep.finished_of_exits hp (hover k hk)).1

end Settled

/-! ### Both ends -/

namespace Carries

/-- **Any call, on any host.** -/
theorem call [DecidableEq ι] (h : c.Carries up d) (hex : c.Exclusive (Function.update up v upper))
    (hallows : c.Allows v (up v).process action) (hstep : (up v).step action = some upper) :
    ∃ d', c.Carries (Function.update up v upper) d' ∧ c.Reflects v action d d' := by
  by_cases hv : ∃ x, v = c.node x
  swap
  · exact ⟨d, h.elsewhere (fun x heq => hv ⟨x, heq⟩) hex hstep, .idle⟩
  obtain ⟨x, rfl⟩ := hv
  obtain ⟨p, out, hend, hturn, -⟩ := (h.ends x).call (h.ordered _) h.loose hex.at hallows hstep
  exact ⟨_, h.set hex hstep hend hturn, hturn.reflects⟩

/-- **A segment, on any host**, whoever has sent it and however long ago. -/
theorem deliver [DecidableEq ι] (h : c.Carries up d)
    (hex : c.Exclusive (Function.update up v upper))
    (hshort : ∀ x, ((up (c.node x)).written (c.fd x)).length < 2 ^ 16) {u : ι}
    (hsent : packet ∈ (up u).sent)
    (hstep : (up v).step (.segment readMem writeMem packet) = some upper) :
    ∃ d', c.Carries (Function.update up v upper) d' ∧
      c.Reflects v (.segment readMem writeMem packet) d d' := by
  by_cases hv : ∃ x, v = c.node x
  swap
  · exact ⟨d, h.elsewhere (fun x heq => hv ⟨x, heq⟩) hex hstep, .idle⟩
  obtain ⟨x, rfl⟩ := hv
  obtain ⟨p, out, hend, hturn, -⟩ := (h.ends x).deliver h hex.at hshort hsent hstep
  exact ⟨_, h.set hex hstep hend hturn, hturn.reflects⟩

end Carries

end Connection

end LabNetstack
