import LabNetstack.Transport.Net
import LabNetstack.Transport.Round
import LabNetstack.Transport.SystemRefinement

/-!
# The stages of a connection

What the two hosts and the channels look like once the client is connected: first with the server
still waiting for the last acknowledgement of the handshake, then with both ends connected or gone
again. In both stages the hosts stand for a connection with unbounded counters that satisfies the
invariant.

## Main results

* `Net.Open.deliver`, `Net.Open.tick` — once both ends are connected, the hosts and the connection
  run in lockstep
* `Net.HalfOpen.deliver_a` — how the server's end gets connected
-/

namespace LabNetstack

open StopAndWait

/-- A fresh end, on which `closeLab` may have been called. -/
def Peer.started (call : Bool) : Peer := { Peer.start with call := call }

namespace Socket.Rep

variable {k k' : Socket} {p : Peer}

/-- A call of the application on an end of the connection. -/
theorem call {d : Duo} {x : Side} (h : k.Rep (d.peer x)) (hinv : d.Inv) {call : Call}
    (hrun : call.run k = some k') : ∃ q, k'.Rep q ∧ (d.setPeer x q).Inv := by
  have hp := hinv.bounded x
  cases call with
  | write buf =>
    rw [Call.run, h.hasFlag_call] at hrun
    split_ifs at hrun with hcall
    obtain ⟨r, hr, rfl⟩ := Option.map_eq_some_iff.mp hrun
    obtain ⟨q, hq, hrep, -⟩ := Run.rel_some_left (h.writeLab hp buf) hr
    exact ⟨q, hrep, hinv.write (by simpa using hcall) hq⟩
  | read nbyte =>
    obtain ⟨r, hr, rfl⟩ := Option.map_eq_some_iff.mp hrun
    obtain ⟨q, hq, hrep, -⟩ := Run.rel_some_left (h.readLab hp nbyte) hr
    exact ⟨q, hrep, hinv.read hq⟩
  | close =>
    obtain rfl := Option.some.inj hrun
    exact ⟨_, h.closeLab, hinv.close⟩

end Socket.Rep

namespace Config

variable {c : Config} {call : Bool} {packet : TCPPacket}

/-! ### The segments of the handshake -/

theorem from_syn : c.syn.From (c.identity .a) := ⟨rfl, rfl, rfl, rfl⟩

theorem from_synAck : c.synAck.From (c.identity .b) := ⟨rfl, rfl, rfl, rfl⟩

theorem rep_synAck : c.synAck.Rep (.ack startAck) := by
  refine .ack startAck ?_ ?_ ?_ ?_ rfl
  · exact (by decide : (ctSyn ||| ctAck) &&& ctAck ≠ 0)
  · exact (by decide : (ctSyn ||| ctAck) &&& ctFin = 0)
  · exact (by decide : htonl (htonl 0) = BitVec.ofNat 32 startAck.value)
  · exact (by decide : htons (htons 0xffff) = BitVec.ofNat 16 startAck.win)

/-- A socket that has just been connected, with or without a call of `closeLab` before. -/
theorem rep_withCall {k : Socket} (h : k.Rep Peer.start) (call : Bool) :
    (k.withCall call).Rep (Peer.started call) := by
  cases call with
  | false => exact h
  | true => exact h.closeLab

/-- A call of `closeLab` does not matter to the handlers of the handshake. -/
theorem TCPHandleSyssent_withCall (k : Socket) (call : Bool) (packet : TCPPacket) :
    TCPHandleSyssent (k.withCall call) packet
      = ((TCPHandleSyssent k packet).1.withCall call, (TCPHandleSyssent k packet).2) := by
  cases call with
  | false => rfl
  | true =>
    simp only [Socket.withCall, TCPHandleSyssent]
    split_ifs <;> rfl

theorem TCPHandleSysrecv_withCall (k : Socket) (call : Bool) (packet : TCPPacket) :
    TCPHandleSysrecv (k.withCall call) packet
      = ((TCPHandleSysrecv k packet).1.withCall call, (TCPHandleSysrecv k packet).2) := by
  cases call with
  | false => rfl
  | true =>
    simp only [Socket.withCall, TCPHandleSysrecv]
    split_ifs <;> rfl

/-- The `SYN` creates the second end, which answers it. -/
theorem listener_syn {list : SocketList} (hlist : list.sockets = c.front call .b)
    (hfd : list.nextFd = c.childFd) :
    list.handleTCPMain c.childRead c.childWrite c.syn
      = some (⟨c.front call .b ++ [c.child], c.childFd + 1⟩, [c.synAck]) := by
  have hid := identity_withCall c.listener call
  have hport : (c.listener.withCall call).srcport = c.serverPort := congrArg Identity.srcport hid
  have haddr : (c.listener.withCall call).srcaddr = c.listenAddr := congrArg Identity.srcaddr hid
  have hlistenFd : (c.listener.withCall call).fd = c.listenFd := fd_withCall c.listener call
  have hlisten : (c.listener.withCall call).state = .listen := state_withCall c.listener call
  have hsyn : c.syn.tcpHeader.ctrl &&& ctSyn ≠ 0 := (by decide : ctSyn &&& ctSyn ≠ 0)
  have hserver : (if c.listenAddr = 0 then c.syn.dst else c.listenAddr) = c.serverAddr := by
    split_ifs with hany
    · rfl
    · exact c.listens.resolve_left hany
  have hnum : ntohl c.syn.tcpHeader.seqNum + 1 = 0 := (by decide : ntohl (htonl (-1)) + 1 = 0)
  have haccept : TCPHandleListen (c.listener.withCall call)
      (allocSocket c.childFd c.childRead c.childWrite) c.syn = some (c.child, c.synAck) := by
    simp only [TCPHandleListen, if_pos hsyn, hport, haddr, hlistenFd, hserver, hnum]
    rfl
  have hmatch : list.matchSocket c.syn = some (c.listener.withCall call) := by
    rw [SocketList.matchSocket, hlist, show Side.b = Side.a.other from rfl, find?_front from_syn,
      Option.none_or]
    simp only [front, Side.other]
    rw [List.find?_singleton, if_pos]
    rw [decide_eq_true_eq, hport]
    exact ⟨rfl, hlisten⟩
  rw [SocketList.handleTCPMain, hmatch]
  simp only [hlisten, hfd, haccept, hlist]

theorem handleTCPMain_child : handleTCPMain (c.child.withCall call) packet
    = some ((TCPHandleSysrecv c.child packet).1.withCall call,
      (TCPHandleSysrecv c.child packet).2) := by
  have hstate : (c.child.withCall call).state = .sysRecv := state_withCall c.child call
  rw [handleTCPMain, hstate]
  simp only [TCPHandleSysrecv_withCall]

/-- The second end only waits for an acknowledgement. -/
theorem child_ack (hack : packet.tcpHeader.ctrl &&& ctAck ≠ 0) :
    ∃ k, handleTCPMain (c.child.withCall call) packet = some (k, []) ∧
      k.Rep (Peer.started call) := by
  have hone : (-1 : BitVec 32) + 1 = 0 := by decide
  rw [handleTCPMain_child, TCPHandleSysrecv, if_pos hack]
  exact ⟨_, rfl, rep_withCall
    (Socket.rep_start rfl rfl rfl rfl rfl rfl rfl hone rfl rfl rfl rfl) call⟩

theorem child_seg (hack : packet.tcpHeader.ctrl &&& ctAck = 0) :
    handleTCPMain (c.child.withCall call) packet = some (c.child.withCall call, []) := by
  rw [handleTCPMain_child, TCPHandleSysrecv, if_neg (not_not_intro hack)]

/-- The answer to the `SYN` connects the client, which acknowledges it. -/
theorem client_synAck : ∃ k ack, handleTCPMain (c.connect.1.withCall call) c.synAck =
    some (k, [ack]) ∧
    k.Rep (Peer.started call) ∧ ack.Rep (.ack startAck) := by
  have hstate : (c.connect.1.withCall call).state = .sysSent := state_withCall c.connect.1 call
  have hsynAck : c.synAck.tcpHeader.ctrl &&& ctSyn ≠ 0 ∧ c.synAck.tcpHeader.ctrl &&& ctAck ≠ 0 :=
    (by decide : (ctSyn ||| ctAck) &&& ctSyn ≠ 0 ∧ (ctSyn ||| ctAck) &&& ctAck ≠ 0)
  have hone : (-1 : BitVec 32) + 1 = 0 := by decide
  have hnum : ntohl (htonl (-1)) + 1 = 0 := by decide
  rw [handleTCPMain, hstate]
  simp only [TCPHandleSyssent_withCall]
  rw [TCPHandleSyssent, if_pos hsynAck]
  refine ⟨_, _, rfl,
    rep_withCall (Socket.rep_start rfl rfl rfl rfl rfl rfl rfl hone rfl rfl hnum rfl) call, ?_⟩
  refine .ack startAck ?_ ?_ ?_ ?_ rfl
  · exact (by decide : ctAck &&& ctAck ≠ 0)
  · exact (by decide : ctAck &&& ctFin = 0)
  · exact (by decide : htonl (htonl (ntohl (htonl (-1)) + 1)) = BitVec.ofNat 32 startAck.value)
  · exact (by decide : htons (htons 0xffff) = BitVec.ofNat 16 startAck.win)

end Config

namespace Net

variable (c : Config) (n : Net) (d : Duo)

/-! ### The two stages -/

/-- A segment in flight from `x` stands for a message, and goes from end to end. -/
structure Carries (x : Side) (packet : TCPPacket) (m : Msg) : Prop where
  rep : packet.Rep m
  sent : packet.From (c.identity x)
  noSyn : x = .a → packet.tcpHeader.ctrl &&& ctSyn = 0

/-- Acknowledgements of the handshake come before everything else. -/
def AcksFirst (l : List Msg) : Prop :=
  ∃ l₁ l₂, l = l₁ ++ l₂ ∧ (∀ m ∈ l₁, m = .ack startAck) ∧ Msg.acks l₂ = []

/-- The client is connected, and the server still waits for the last acknowledgement. -/
structure HalfOpen : Prop where
  inv : d.Inv
  client : ∃ k, (n.host .a).sockets = [k] ∧ k.identity = c.identity .a ∧ k.Rep (d.peer .a)
  server : ∃ called called', (n.host .b).sockets
    = c.front called .b ++ [c.child.withCall called'] ∧
      d.peer .b = Peer.started called'
  towards : ∃ s l, n.chan .a = s ++ l ∧ (∀ packet ∈ s, packet = c.syn) ∧
    List.Forall₂ (Carries c .a) l (d.chan .a) ∧ AcksFirst (d.chan .a)
  back : List.Forall₂ (Carries c .b) (n.chan .b) (d.chan .b) ∧ Msg.segs (d.chan .b) = []

/-- What is left of an end: its socket, or nothing once it is closed and gone. -/
def End (x : Side) (p : Peer) : Option Socket → Prop
  | some k => k.identity = c.identity x ∧ k.Rep p
  | none => p.closed = true

/-- Both ends are connected, or have been. -/
structure Open : Prop where
  inv : d.Inv
  hosts : ∀ x, ∃ called o, (n.host x).sockets = c.front called x ++ o.toList ∧ End c x (d.peer x) o
  chans : ∀ x, List.Forall₂ (Carries c x) (n.chan x) (d.chan x)

variable {c n d} {n' : Net} {d' : Duo} {x : Side} {k : Socket} {p : Peer}

/-- What an end that stands for `p` sends, seen in its channel. -/
theorem forall₂_carries {l out : List TCPPacket} {m out' : List Msg}
    (h : List.Forall₂ (Carries c x) l m) (hout : List.Forall₂ TCPPacket.Rep out out')
    (hsent : ∀ packet ∈ out, packet.SentBy (c.identity x)) :
    List.Forall₂ (Carries c x) (l ++ out) (m ++ out') := by
  refine List.rel_append h ?_
  induction hout with
  | nil => exact .nil
  | cons hrep _ ih =>
    have hfirst := hsent _ (List.mem_cons_self ..)
    exact .cons ⟨hrep, hfirst.toFrom, fun _ => hfirst.noSyn⟩
      (ih fun packet hp => hsent packet (List.mem_cons_of_mem _ hp))

theorem state_ne_listen (h : k.Rep p) : k.state ≠ .listen := by
  rw [h.state]
  split_ifs <;> decide

/-! ### Both ends connected -/

namespace Open

/-- **Lockstep.** The hosts deliver what the connection delivers. -/
theorem deliver (h : Open c n d) (x : Side) :
    Option.Rel (Open c) (n.deliver c x) (d.deliver x) := by
  have hchan := h.chans x
  cases hn : n.chan x with
  | nil =>
    rw [hn] at hchan
    rw [Net.deliver, hn, Duo.deliver, List.forall₂_nil_left_iff.mp hchan]
    exact .none
  | cons packet rest =>
    rw [hn] at hchan
    obtain ⟨m, rest', hm, hrest, hd⟩ := List.forall₂_cons_left_iff.mp hchan
    obtain ⟨called, o, hlist, hend⟩ := h.hosts x.other
    obtain ⟨d₁, hd₁⟩ := Duo.deliver_isSome hd
    obtain ⟨m', rest'', hd', hdrest, hdsame, hdpeer, hdout⟩ := Duo.deliver_cases hd₁
    obtain ⟨rfl, rfl⟩ := List.cons.inj (hd.symm.trans hd')
    -- what the other host does with the segment
    obtain ⟨list, out, o', hrun, hlist', hend', hout, hsent⟩ : ∃ list out o',
        (n.host x.other).handleTCPMain c.childRead c.childWrite packet = some (list, out) ∧
        list.sockets = c.front called x.other ++ o'.toList ∧ End c x.other (d₁.peer x.other) o' ∧
        List.Forall₂ TCPPacket.Rep out ((d.peer x.other).handle m).2.toList ∧
        ∀ packet ∈ out, packet.SentBy (c.identity x.other) := by
      rw [hdpeer]
      cases o with
      | some k =>
        obtain ⟨hid, hrep⟩ := hend
        obtain ⟨k', out, hk', hrep', hout⟩ := hrep.handleTCPMain (h.inv.bounded x.other) hm.rep
          (h.inv.admits (hd ▸ List.mem_cons_self ..))
        obtain ⟨hid', hsent⟩ := identity_handleTCPMain hk'
        obtain ⟨list, hrun, hlist'⟩ :=
          Config.handleTCPMain_end hlist hid (state_ne_listen hrep) hm.sent hk'
        exact ⟨list, out, some k', hrun, hlist', ⟨hid'.trans hid, hrep'⟩, hout, hid ▸ hsent⟩
      | none =>
        rw [Option.toList_none, List.append_nil] at hlist
        have hgone := Config.handleTCPMain_gone hlist hm.sent
          (by cases x with
            | a => exact Or.inl (hm.noSyn rfl)
            | b => exact Or.inr rfl)
        rw [Peer.handle_closed m hend]
        exact ⟨_, [], none, hgone, by simpa using hlist, hend, .nil, by simp⟩
    obtain ⟨n₁, hn₁, hsame, hother, hchan₁, hchan₁'⟩ := deliver_eq c hn hrun
    rw [hn₁, hd₁]
    refine .some ⟨h.inv.deliver hd₁, Side.forall_of_other x ?_ ?_, Side.forall_of_other x ?_ ?_⟩
    · rw [hsame, hdsame]
      exact h.hosts x
    · rw [hother]
      exact ⟨called, o', hlist', hend'⟩
    · rw [hchan₁, hdrest]
      exact hrest
    · rw [hchan₁', hdout]
      exact forall₂_carries (h.chans x.other) hout hsent

theorem tick (h : Open c n d) (x : Side) (now : ℕ) :
    Option.Rel (Open c) (step c (.tick x now) n) (Duo.step (.tick x now) d) := by
  obtain ⟨called, o, hlist, hend⟩ := h.hosts x
  obtain ⟨d₁, hd₁⟩ : ∃ d₁, Duo.step (.tick x now) d = some d₁ := ⟨_, rfl⟩
  obtain ⟨hdpeer, hdsame, hdchan, hdother⟩ := Duo.tick_cases hd₁
  obtain ⟨list, out, o', hrun, hlist', hend', hout, hsent⟩ : ∃ list out o',
      (n.host x).asyncSendTCPPacket now = (list, out) ∧
      list.sockets = c.front called x ++ o'.toList ∧ End c x (d₁.peer x) o' ∧
      List.Forall₂ TCPPacket.Rep out ((d.peer x).tick now).2 ∧
      ∀ packet ∈ out, packet.SentBy (c.identity x) := by
    rw [hdpeer]
    cases o with
    | some k =>
      obtain ⟨hid, hrep⟩ := hend
      obtain ⟨hrep', hout⟩ := hrep.asyncSendTCPPacket (h.inv.bounded x) now
      obtain ⟨hid', hsent⟩ := identity_asyncSendTCPPacket now k
      obtain ⟨list, hrun, hlist', -⟩ := Config.asyncSendTCPPacket_end hlist now
      exact ⟨list, _, some _, hrun, hlist', ⟨hid'.trans hid, hrep'⟩, hout, hid ▸ hsent⟩
    | none =>
      rw [Peer.tick_closed hend]
      exact ⟨_, [], none, Config.asyncSendTCPPacket_front [] now hlist, rfl, hend, .nil, by simp⟩
  obtain ⟨n₁, hn₁, hself, hother, hchan, hchan'⟩ := tick_eq c hrun
  rw [hn₁, hd₁]
  refine .some ⟨h.inv.step hd₁, Side.forall_of_other x ?_ ?_, Side.forall_of_other x ?_ ?_⟩
  · rw [hself]
    exact ⟨called, o', hlist', hend'⟩
  · rw [hother, hdsame]
    exact h.hosts x.other
  · rw [hchan, hdchan]
    exact forall₂_carries (h.chans x) hout hsent
  · rw [hchan', hdother]
    exact h.chans x.other

theorem call (h : Open c n d) {fd : ℤ} {call : Call}
    (hs : step c (.call x fd call) n = some n') : ∃ d', Open c n' d' := by
  obtain ⟨k, hfind, hrun⟩ := Option.bind_eq_some_iff.mp hs
  obtain ⟨k', hk', rfl⟩ := Option.map_eq_some_iff.mp hrun
  obtain ⟨called, o, hlist, hend⟩ := h.hosts x
  have hfd : ∀ it ∈ o, it.fd = (c.identity x).fd := by
    rintro it rfl
    exact congrArg Identity.fd hend.1
  rcases Config.findSocket_cases hlist hfind with ⟨-, ⟨rfl, rfl⟩ | rfl⟩
  · obtain ⟨called', rfl⟩ := Call.run_withCall (by decide : TCPState.listen ≠ .establisted) rfl hk'
    refine ⟨d, h.inv, Side.forall_of_other .b ?_ ?_, h.chans⟩
    · rw [host_setHost_self]
      exact ⟨called', o, Config.update_listener hlist hfd called', hend⟩
    · rw [host_setHost_other]
      exact h.hosts _
  · obtain ⟨q, hrep, hinv⟩ := hend.2.call h.inv hk'
    refine ⟨_, hinv, Side.forall_of_other x ?_ ?_, h.chans⟩
    · rw [host_setHost_self, Duo.peer_setPeer_self]
      have hid := (Call.identity_run hk').trans hend.1
      exact ⟨called, some k', Config.update_end hlist hend.1 hid, hid, hrep⟩
    · rw [host_setHost_other, Duo.peer_setPeer_other]
      exact h.hosts x.other

theorem free (h : Open c n d) {fd : ℤ} (hs : step c (.free x fd) n = some n') :
    ∃ d', Open c n' d' := by
  obtain ⟨k, hfind, hrun⟩ := Option.bind_eq_some_iff.mp hs
  split_ifs at hrun with hexits
  obtain rfl := Option.some.inj hrun
  rw [Bool.and_eq_true] at hexits
  obtain ⟨called, o, hlist, hend⟩ := h.hosts x
  rcases Config.findSocket_cases hlist hfind with ⟨hfd, ⟨rfl, rfl⟩ | rfl⟩
  · rw [closeLabExits_withCall (by decide : TCPState.listen ≠ .closed) rfl] at hexits
    simp at hexits
  · obtain ⟨hid, hrep⟩ := hend
    have hidfd : k.fd = (c.identity x).fd := congrArg Identity.fd hid
    have hinv : (d.setPeer x { d.peer x with closed := true }).Inv := by
      have hother := h.inv.dir x.other
      rw [Duo.Dir, Side.other_other] at hother
      refine h.inv.setPeer (h.inv.dir x) hother ⟨(h.inv.flags x).fin_cause,
        (h.inv.flags x).ackRecv_fin, fun _ => ?_⟩
      exact hrep.finished_of_exits (h.inv.flags x) hexits.2
    refine ⟨_, hinv, Side.forall_of_other x ?_ ?_, h.chans⟩
    · rw [host_setHost_self, Duo.peer_setPeer_self, ← hfd, hidfd]
      refine ⟨called, none, ?_, rfl⟩
      rw [Config.freeSocket_end hlist hidfd, Option.toList_none, List.append_nil]
    · rw [host_setHost_other, Duo.peer_setPeer_other]
      exact h.hosts x.other

theorem fault (h : Open c n d) {l : List TCPPacket} (hl : Channel.Degrades (n.chan x) l) :
    ∃ d', Open c (n.setChan x l) d' := by
  obtain ⟨m, hm, hcarries⟩ := hl.forall₂ (h.chans x)
  refine ⟨_, h.inv.setChan hm, h.hosts, Side.forall_of_other x ?_ ?_⟩
  · simpa using hcarries
  · simpa using h.chans x.other

end Open

/-! ### Only the client connected -/

theorem AcksFirst.append {l l' : List Msg} (h : AcksFirst l) (hl' : Msg.acks l' = []) :
    AcksFirst (l ++ l') := by
  obtain ⟨l₁, l₂, rfl, h₁, h₂⟩ := h
  exact ⟨l₁, l₂ ++ l', List.append_assoc .., h₁, by rw [Msg.acks_append, h₂, hl', List.append_nil]⟩

theorem AcksFirst.degrades {l l' : List Msg} (h : AcksFirst l) (hl' : Channel.Degrades l l') :
    AcksFirst l' := by
  obtain ⟨l₁, l₂, rfl, h₁, h₂⟩ := h
  obtain ⟨m₁, m₂, rfl, hm₁, hm₂⟩ := hl'.of_append
  exact ⟨m₁, m₂, rfl, hm₁.forall_mem h₁, (Msg.degrades_acks hm₂).eq_nil h₂⟩

/-- The oldest message is an acknowledgement of the handshake, or there is none left. -/
theorem AcksFirst.cons {m : Msg} {l : List Msg} (h : AcksFirst (m :: l)) :
    (m = .ack startAck ∧ AcksFirst l) ∨ (Msg.acks (m :: l) = [] ∧ AcksFirst l) := by
  obtain ⟨l₁, l₂, hl, h₁, h₂⟩ := h
  cases l₁ with
  | nil =>
    rw [List.nil_append] at hl
    subst hl
    refine Or.inr ⟨h₂, [], l, rfl, by simp, ?_⟩
    cases m with
    | seg m => simpa using h₂
    | ack a => simp at h₂
  | cons m' l₁ =>
    obtain ⟨rfl, rfl⟩ := List.cons.inj hl
    exact Or.inl ⟨h₁ _ (List.mem_cons_self ..), l₁, l₂, rfl,
      fun m hm => h₁ m (List.mem_cons_of_mem _ hm), h₂⟩

theorem identity_child (called : Bool) : (c.child.withCall called).identity = c.identity .b :=
  Config.identity_withCall c.child called

theorem state_child (called : Bool) : (c.child.withCall called).state ≠ .listen := by
  rw [Config.state_withCall]
  exact (by decide : TCPState.sysRecv ≠ .listen)

/-! ### A server whose end waits -/

section Server

variable {called called' : Bool} {o : Option Bool} {fd : ℤ} {call : Call} {packet : TCPPacket}
  {rest : List TCPPacket}

theorem isConnection_b
    (hlist : (n.host .b).sockets = c.front called .b ++ (o.map c.child.withCall).toList) :
    ∀ it ∈ (n.host .b).sockets, it.isConnection = false := by
  intro it hit
  rw [hlist] at hit
  rcases List.mem_append.mp hit with hit | hit
  · obtain ⟨-, rfl⟩ := Config.front_cases hit
    exact Config.isConnection_withCall c.listener called
  · obtain ⟨called', -, rfl⟩ := Option.map_eq_some_iff.mp (Option.mem_toList.mp hit)
    exact Config.isConnection_withCall c.child called'

theorem fd_b : ∀ it ∈ o.map c.child.withCall, it.fd = (c.identity .b).fd := by
  intro it hit
  obtain ⟨called', -, rfl⟩ := Option.map_eq_some_iff.mp hit
  exact Config.fd_withCall c.child called'

/-- Neither the listening socket nor the end that waits ever gets out of `closeLab`. -/
theorem waits_b (hlist : (n.host .b).sockets = c.front called .b ++ (o.map c.child.withCall).toList)
    (hfind : (n.host .b).findSocket fd = some k) : closeLabExits k = false := by
  rcases Config.findSocket_cases hlist hfind with ⟨-, ⟨-, rfl⟩ | hend⟩
  · exact closeLabExits_withCall (by decide : TCPState.listen ≠ .closed) rfl called
  · obtain ⟨called', -, rfl⟩ := Option.map_eq_some_iff.mp hend
    exact closeLabExits_withCall (by decide : TCPState.sysRecv ≠ .closed) rfl called'

/-- A call of the application is one of `closeLab`, or changes nothing. -/
theorem call_b (hlist : (n.host .b).sockets = c.front called .b ++ (o.map c.child.withCall).toList)
    (hfind : (n.host .b).findSocket fd = some k) {k' : Socket} (hrun : call.run k = some k') :
    ∃ (called' : Bool) (o' : Option Bool), o'.isSome = o.isSome ∧
      ((n.host .b).update k').sockets = c.front called' .b ++ (o'.map c.child.withCall).toList := by
  rcases Config.findSocket_cases hlist hfind with ⟨-, ⟨-, rfl⟩ | hend⟩
  · obtain ⟨called₁, rfl⟩ := Call.run_withCall (by decide : TCPState.listen ≠ .establisted) rfl hrun
    exact ⟨called₁, o, rfl, Config.update_listener hlist fd_b called₁⟩
  · obtain ⟨called', rfl, rfl⟩ := Option.map_eq_some_iff.mp hend
    obtain ⟨called₁, rfl⟩ := Call.run_withCall (by decide : TCPState.sysRecv ≠ .establisted)
      rfl hrun
    have hid := identity_child (c := c)
    exact ⟨called, some called₁, rfl, Config.update_end hlist (hid _) (hid _)⟩

/-- Without an acknowledgement, a segment is lost on the end that waits. -/
theorem deliver_ignored
    (hlist : (n.host .b).sockets = c.front called .b ++ [c.child.withCall called'])
    (hchan : n.chan .a = packet :: rest) (hfrom : packet.From (c.identity .a))
    (hnoack : packet.tcpHeader.ctrl &&& ctAck = 0) :
    ∃ n', n.deliver c .a = some n' ∧ n'.host .a = n.host .a ∧
      (n'.host .b).sockets = (n.host .b).sockets ∧ n'.chan .a = rest ∧ n'.chan .b = n.chan .b := by
  obtain ⟨list, hrun, hlist'⟩ := Config.handleTCPMain_end (x := .a) hlist (identity_child called')
    (state_child called') hfrom (Config.child_seg hnoack)
  obtain ⟨n', hn', hsame, hother, hrest, hout⟩ := deliver_eq c hchan hrun
  rw [show Side.a.other = .b from rfl] at hother hlist' hout
  exact ⟨n', hn', hsame, by rw [hother, hlist', hlist], hrest, by rw [hout, List.append_nil]⟩

/-- The acknowledgement connects the end that waits. -/
theorem deliver_awaited
    (hlist : (n.host .b).sockets = c.front called .b ++ [c.child.withCall called'])
    (hchan : n.chan .a = packet :: rest) (hfrom : packet.From (c.identity .a))
    (hack : packet.tcpHeader.ctrl &&& ctAck ≠ 0) :
    ∃ n', n.deliver c .a = some n' ∧ n'.host .a = n.host .a ∧
      ∃ k, (n'.host .b).sockets = c.front called .b ++ [k] ∧ k.identity = c.identity .b ∧
        k.Rep (Peer.started called') ∧ n'.chan .a = rest ∧ n'.chan .b = n.chan .b := by
  obtain ⟨k, hk, hrep⟩ := @Config.child_ack c called' packet hack
  have hid := (identity_handleTCPMain hk).1.trans (identity_child called')
  obtain ⟨list, hrun, hlist'⟩ := Config.handleTCPMain_end (x := .a) hlist (identity_child called')
    (state_child called') hfrom hk
  obtain ⟨n', hn', hsame, hother, hrest, hout⟩ := deliver_eq c hchan hrun
  rw [show Side.a.other = .b from rfl] at hother hlist' hout
  exact ⟨n', hn', hsame, k, by rw [hother, hlist'], hid, hrep, hrest, by rw [hout, List.append_nil]⟩

end Server

namespace HalfOpen

/-- The server's end is fresh. -/
theorem snd_fin (h : HalfOpen c n d) : (d.peer .b).snd.fin = false := by
  obtain ⟨_, _, _, hpeer⟩ := h.server
  rw [hpeer]
  rfl

theorem rcv_fin (h : HalfOpen c n d) : (d.peer .a).rcv.fin = false := by
  by_contra hfin
  have hsent : (d.peer .b).snd.fin = true := (h.inv.dir .b).fin_recv (Bool.not_eq_false _ ▸ hfin)
  rw [h.snd_fin] at hsent
  cases hsent

theorem tick (h : HalfOpen c n d) {x : Side} {now : ℕ} (hs : step c (.tick x now) n = some n') :
    ∃ d', d.Leads d' ∧ HalfOpen c n' d' ∧ Msg.acks (d'.chan .a) = Msg.acks (d.chan .a) := by
  obtain ⟨s, l, hchan, hsyn, hl, hacks⟩ := h.towards
  cases x with
  | a =>
    obtain ⟨k, hlist, hid, hrep⟩ := h.client
    obtain ⟨d₁, hd₁⟩ : ∃ d₁, Duo.step (.tick .a now) d = some d₁ := ⟨_, rfl⟩
    obtain ⟨hdpeer, hdsame, hdchan, hdother⟩ := Duo.tick_cases hd₁
    have hnone := (Peer.tick_frame (d.peer .a) now).2.2.2.2
    obtain ⟨hrep', hout⟩ := hrep.asyncSendTCPPacket (h.inv.bounded .a) now
    obtain ⟨hid', hsent⟩ := identity_asyncSendTCPPacket now k
    obtain ⟨list, hrun, hlist', -⟩ := @Config.asyncSendTCPPacket_end c false .a _ _ hlist now
    obtain ⟨n₁, hn₁, hself, hother, hchan₁, hchan₁'⟩ := tick_eq c hrun
    obtain rfl := Option.some.inj (hs.symm.trans hn₁)
    refine ⟨d₁, .single (i := .tick ..) trivial hd₁, ⟨h.inv.step hd₁, ?_, ?_, ?_, ?_⟩, ?_⟩
    · exact ⟨_, by rw [hself]; exact hlist', hid'.trans hid, by rw [hdpeer]; exact hrep'⟩
    · rw [show n'.host .b = n.host .b from hother, show d₁.peer .b = d.peer .b from hdsame]
      exact h.server
    · rw [hchan₁, hchan, hdchan]
      exact ⟨s, _, List.append_assoc .., hsyn, forall₂_carries hl hout (hid ▸ hsent),
        hacks.append hnone⟩
    · rw [show n'.chan .b = n.chan .b from hchan₁', show d₁.chan .b = d.chan .b from hdother]
      exact h.back
    · rw [hdchan, Msg.acks_append, hnone, List.append_nil]
  | b =>
    obtain ⟨_, _, hlist, -⟩ := h.server
    obtain rfl := Option.some.inj
      ((tick_quiet c (isConnection_b (o := some _) hlist)).symm.trans hs)
    exact ⟨d, .refl d, h, rfl⟩

theorem deliver_b (h : HalfOpen c n d) (hs : n.deliver c .b = some n') :
    ∃ d', d.deliver .b = some d' ∧ HalfOpen c n' d' ∧ d'.chan .a = d.chan .a := by
  obtain ⟨k, hlist, hid, hrep⟩ := h.client
  obtain ⟨hback, hsegs⟩ := h.back
  cases hn : n.chan .b with
  | nil => simp [Net.deliver, hn] at hs
  | cons packet rest =>
    rw [hn] at hback
    obtain ⟨m, rest', hm, hrest, hd⟩ := List.forall₂_cons_left_iff.mp hback
    rw [hd] at hsegs
    cases m with
    | seg m => simp at hsegs
    | ack a =>
      obtain ⟨d₁, hd₁⟩ := Duo.deliver_isSome hd
      obtain ⟨m', rest'', hd', hdrest, hdsame, hdpeer, hdout⟩ := Duo.deliver_cases hd₁
      obtain ⟨rfl, rfl⟩ := List.cons.inj (hd.symm.trans hd')
      rw [show Side.b.other = .a from rfl, (Peer.handle_ack_frame _ a).2.2.2, Option.toList_none,
        List.append_nil] at hdout
      obtain ⟨k', out, hk', hrep', hout⟩ := hrep.handleTCPMain (h.inv.bounded .a) hm.rep
        (h.inv.admits (x := .b) (hd ▸ List.mem_cons_self ..))
      rw [(Peer.handle_ack_frame _ a).2.2.2, Option.toList_none, List.forall₂_nil_right_iff] at hout
      subst hout
      have hid' := (identity_handleTCPMain hk').1
      obtain ⟨list, hrun, hlist'⟩ := @Config.handleTCPMain_end c false .b _ _ _ _ _ hlist hid
        (state_ne_listen hrep) hm.sent hk'
      obtain ⟨n₁, hn₁, hsame, hother, hchan₁, hchan₁'⟩ := deliver_eq c hn hrun
      obtain rfl := Option.some.inj (hs.symm.trans hn₁)
      rw [List.append_nil, show Side.b.other = .a from rfl] at hchan₁'
      refine ⟨d₁, hd₁, ⟨h.inv.deliver hd₁, ?_, ?_, ?_, ?_⟩, hdout⟩
      · exact ⟨k', by rw [show n'.host .a = list from hother]; exact hlist', hid'.trans hid,
          by rw [show d₁.peer .a = _ from hdpeer]; exact hrep'⟩
      · rw [hsame, hdsame]
        exact h.server
      · rw [hchan₁', hdout]
        exact h.towards
      · rw [hchan₁, hdrest]
        exact ⟨hrest, by simpa using hsegs⟩

/-- An end that is fresh is not changed by a repetition. -/
theorem handle_startAck (call : Bool) : (Peer.started call).handle (.ack startAck)
    = (Peer.started call, none) := rfl

/-- **The last step of the handshake.** The server's end takes the acknowledgement; of what is
delivered without one, nothing is taken. -/
theorem deliver_a (h : HalfOpen c n d) {packet : TCPPacket} {rest : List TCPPacket}
    (hn : n.chan .a = packet :: rest) :
    ∃ n', n.deliver c .a = some n' ∧ n'.chan .a = rest ∧
      (HalfOpen c n' d ∨
        (∃ rest, d.chan .a = .ack startAck :: rest ∧ ∃ d', d.deliver .a = some d' ∧ Open c n' d') ∨
        (Msg.acks (d.chan .a) = [] ∧ ∃ d', HalfOpen c n' d' ∧ Msg.acks (d'.chan .a) = [])) := by
  obtain ⟨called, called', hlist, hpeer⟩ := h.server
  obtain ⟨s, l, hchan, hsyn, hl, hacks⟩ := h.towards
  cases s with
  | cons syn s =>
    rw [List.cons_append] at hchan
    obtain rfl : syn = c.syn := hsyn syn (List.mem_cons_self ..)
    obtain ⟨rfl, rfl⟩ := List.cons.inj (hchan.symm.trans hn)
    obtain ⟨n', hn', ha, hb, hrest, hback⟩ := deliver_ignored hlist hn Config.from_syn
      (by decide : ctSyn &&& ctAck = 0)
    refine ⟨n', hn', hrest, Or.inl ⟨h.inv, by rw [ha]; exact h.client, ?_, ?_, ?_⟩⟩
    · exact ⟨called, called', by rw [hb, hlist], hpeer⟩
    · exact ⟨s, l, hrest, fun packet hp => hsyn packet (List.mem_cons_of_mem _ hp), hl, hacks⟩
    · rw [hback]
      exact h.back
  | nil =>
    obtain rfl : l = packet :: rest := hchan.symm.trans hn
    obtain ⟨m, rest', hm, hrest', hd⟩ := List.forall₂_cons_left_iff.mp hl
    rw [hd] at hacks
    rcases hacks.cons with ⟨rfl, -⟩ | ⟨hnone, hacks'⟩
    · -- the acknowledgement that the server's end waits for
      cases hm.rep with
      | ack _ hackBit =>
        obtain ⟨n', hn', ha, k, hlist', hid, hrep, hrest, hback⟩ :=
          deliver_awaited hlist hn hm.sent hackBit
        obtain ⟨d', hd'⟩ := Duo.deliver_isSome hd
        obtain ⟨m, rest'', hd₀, hdrest, hdsame, hdpeer, hdout⟩ := Duo.deliver_cases hd'
        obtain ⟨rfl, rfl⟩ := List.cons.inj (hd.symm.trans hd₀)
        rw [show Side.a.other = .b from rfl, hpeer, handle_startAck] at hdpeer hdout
        obtain ⟨k₀, hlist₀, hid₀, hrep₀⟩ := h.client
        refine ⟨n', hn', hrest, Or.inr (Or.inl ⟨rest', hd, d', hd', h.inv.deliver hd',
          Side.forall_of_other .a ?_ ?_, Side.forall_of_other .a ?_ ?_⟩)⟩
        · rw [ha, hdsame]
          exact ⟨false, some k₀, hlist₀, hid₀, hrep₀⟩
        · rw [show Side.a.other = .b from rfl, hdpeer]
          exact ⟨called, some k, hlist', hid, hrep⟩
        · rw [hrest, hdrest]
          exact hrest'
        · rw [show Side.a.other = .b from rfl, hback, hdout]
          simpa using h.back.1
    · -- anything else is lost on it
      have hnoack : packet.tcpHeader.ctrl &&& ctAck = 0 := by
        cases hm.rep with
        | seg m hctrl =>
          rw [hctrl]
          split_ifs <;> decide
        | ack a => simp at hnone
      obtain ⟨n', hn', ha, hb, hrest, hback⟩ := deliver_ignored hlist hn hm.sent hnoack
      have hdegrades : Channel.Degrades (d.chan .a) rest' := hd ▸ Channel.degrades_tail m rest'
      refine ⟨n', hn', hrest, Or.inr (Or.inr ⟨by rw [hd, hnone], d.setChan .a rest',
        ⟨h.inv.setChan hdegrades, by rw [ha]; exact h.client, ?_, ?_, ?_⟩, ?_⟩)⟩
      · exact ⟨called, called', by rw [hb, hlist], hpeer⟩
      · exact ⟨[], rest, hrest, by simp, by simpa using hrest', by simpa using hacks'⟩
      · rw [hback, show (d.setChan .a rest').chan .b = d.chan .b from Duo.chan_setChan_other]
        exact h.back
      · have hnone' := (Msg.degrades_acks hdegrades).eq_nil (by rw [hd, hnone])
        simpa using hnone'

/-- `closeLab` does not return before the handshake is over. -/
theorem waits (h : HalfOpen c n d) {x : Side} {fd : ℤ} (hfind : (n.host x).findSocket fd = some k) :
    closeLabExits k = false := by
  cases x with
  | a =>
    obtain ⟨k₀, hlist, -, hrep⟩ := h.client
    have hlist' : (n.host .a).sockets = c.front false .a ++ (some k₀).toList := hlist
    rcases Config.findSocket_cases hlist' hfind with ⟨-, ⟨hx, -⟩ | heq⟩
    · cases hx
    · obtain rfl := Option.some.inj heq
      by_contra hexits
      have hfin := (hrep.finished_of_exits (h.inv.flags .a) (by simpa using hexits)).2.1
      simp [h.rcv_fin] at hfin
  | b =>
    obtain ⟨called, called', hlist, -⟩ := h.server
    exact waits_b (o := some called') hlist hfind

theorem call (h : HalfOpen c n d) {x : Side} {fd : ℤ} {call : Call}
    (hs : step c (.call x fd call) n = some n') : ∃ d', HalfOpen c n' d' := by
  obtain ⟨k, hfind, hrun⟩ := Option.bind_eq_some_iff.mp hs
  obtain ⟨k', hk', rfl⟩ := Option.map_eq_some_iff.mp hrun
  cases x with
  | a =>
    obtain ⟨k₀, hlist, hid, hrep⟩ := h.client
    have hlist' : (n.host .a).sockets = c.front false .a ++ (some k₀).toList := hlist
    rcases Config.findSocket_cases hlist' hfind with ⟨-, ⟨hx, -⟩ | heq⟩
    · cases hx
    · obtain rfl := Option.some.inj heq
      obtain ⟨q, hrep', hinv⟩ := hrep.call h.inv hk'
      have hid' := (Call.identity_run hk').trans hid
      refine ⟨_, hinv, ⟨k', ?_, hid', ?_⟩, ?_, h.towards, h.back⟩
      · rw [host_setHost_self]
        exact @Config.update_end c false .a _ _ _ hlist hid hid'
      · rw [Duo.peer_setPeer_self]
        exact hrep'
      · exact h.server
  | b =>
    obtain ⟨called, called', hlist, hpeer⟩ := h.server
    have hother := h.inv.dir .a
    have hdir := h.inv.dir .b
    rw [Duo.Dir, show Side.a.other = .b from rfl, hpeer] at hother
    rw [Duo.Dir, hpeer] at hdir
    obtain ⟨called, o, ho, hlist'⟩ := call_b (o := some called') hlist hfind hk'
    obtain ⟨called', rfl⟩ := Option.isSome_iff_exists.mp ho
    refine ⟨d.setPeer .b (Peer.started called'), h.inv.setPeer hdir hother ?_,
      h.client, ⟨called, called', ?_, Duo.peer_setPeer_self⟩, h.towards, h.back⟩
    · exact ⟨fun hf => absurd hf Bool.false_ne_true, fun hf => absurd hf Bool.false_ne_true,
        fun hf => absurd hf Bool.false_ne_true⟩
    · rw [host_setHost_self]
      exact hlist'

theorem fault (h : HalfOpen c n d) {x : Side} {l : List TCPPacket}
    (hl : Channel.Degrades (n.chan x) l) : ∃ d', HalfOpen c (n.setChan x l) d' := by
  cases x with
  | a =>
    obtain ⟨s, l₀, hchan, hsyn, hl₀, hacks⟩ := h.towards
    rw [hchan] at hl
    obtain ⟨s', l', rfl, hs', hl'⟩ := hl.of_append
    obtain ⟨m, hm, hcarries⟩ := hl'.forall₂ hl₀
    refine ⟨d.setChan .a m, h.inv.setChan hm, h.client, h.server, ⟨s', l', ?_, ?_, ?_, ?_⟩, h.back⟩
    · exact chan_setChan_self
    · exact hs'.forall_mem hsyn
    · simpa using hcarries
    · simpa using hacks.degrades hm
  | b =>
    obtain ⟨hback, hsegs⟩ := h.back
    obtain ⟨m, hm, hcarries⟩ := hl.forall₂ hback
    refine ⟨d.setChan .b m, h.inv.setChan hm, h.client, h.server, h.towards, ?_, ?_⟩
    · simpa using hcarries
    · simpa using (Msg.degrades_segs hm).eq_nil hsegs

end HalfOpen

end Net

end LabNetstack
