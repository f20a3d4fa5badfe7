import LabNetstack.Transport.Stages

/-!
# Before the connection

The stages before those with a connected client: before the client connects, after its `SYN`, and
after the answer to it. No timer runs in any of the three, so that a host only ever moves on when
the segment it waits for is delivered.

## Main results

* `Net.SynSent.deliver_a`, `Net.SynReceived.deliver_b` — the first two steps of the handshake
* `Net.Reachable.stage` — every reachable state is in one of the five stages
-/

namespace LabNetstack

open StopAndWait

/-- A fresh connection, on whose ends `closeLab` may have been called. -/
def Duo.started (called : Side → Bool) (i j : ℕ) : Duo :=
  { Duo.start i j with peer := fun x => Peer.started (called x) }

theorem Duo.started_inv (called : Side → Bool) (i j : ℕ) : (Duo.started called i j).Inv where
  dir := (Duo.start_inv i j).dir
  flags _ := ⟨fun hf => absurd hf Bool.false_ne_true, fun hf => absurd hf Bool.false_ne_true,
    fun hf => absurd hf Bool.false_ne_true⟩

namespace Net

variable (c : Config) (n : Net)

/-- The client has not connected, or has given its socket back. -/
structure Idle : Prop where
  client : (n.host .a).sockets = [] ∨ ∃ called, (n.host .a).sockets = [c.client.withCall called]
  server : ∃ called, (n.host .b).sockets = c.front called .b
  quiet : ∀ x, n.chan x = []

/-- The `SYN` has left, and there is no answer yet. -/
structure SynSent (called : Bool) : Prop where
  client : (n.host .a).sockets = [c.connect.1.withCall called]
  server : ∃ called, (n.host .b).sockets = c.front called .b
  nextFd : (n.host .b).nextFd = c.childFd
  towards : ∀ packet ∈ n.chan .a, packet = c.syn
  back : n.chan .b = []

/-- The server has its end, and has answered the `SYN`. -/
structure SynReceived (called : Side → Bool) : Prop where
  client : (n.host .a).sockets = [c.connect.1.withCall (called .a)]
  server : ∃ called', (n.host .b).sockets = c.front called' .b ++ [c.child.withCall (called .b)]
  towards : ∀ packet ∈ n.chan .a, packet = c.syn
  back : ∀ packet ∈ n.chan .b, packet = c.synAck

/-- One of the five. -/
inductive Stage : Prop
  | idle (h : Idle c n)
  | synSent (called : Bool) (h : SynSent c n called)
  | synReceived (called : Side → Bool) (h : SynReceived c n called)
  | halfOpen (d : Duo) (h : HalfOpen c n d)
  | opened (d : Duo) (h : Open c n d)

variable {c n} {n' : Net} {x : Side} {k k' : Socket} {called : Bool} {fd : ℤ}

/-! ### A client without a connection -/

/-- `socket` is neither connected nor holds anything to be read. -/
structure Unconnected (socket : Socket) : Prop where
  state : socket.state ≠ .establisted
  isConnection : socket.isConnection = false
  empty : socket.recvFront = socket.recvBack

theorem unconnected_client : Unconnected c.client :=
  ⟨(by decide : TCPState.closed ≠ .establisted), rfl, rfl⟩

theorem unconnected_connect : Unconnected c.connect.1 :=
  ⟨(by decide : TCPState.sysSent ≠ .establisted), rfl, rfl⟩

variable {socket : Socket}

theorem findSocket_a (hlist : (n.host .a).sockets = [socket.withCall called])
    (hfind : (n.host .a).findSocket fd = some k) :
    k = socket.withCall called ∧ socket.fd = fd := by
  have hmem := List.mem_of_find?_eq_some hfind
  have hfd := List.find?_some hfind
  rw [hlist] at hmem
  obtain rfl := List.mem_singleton.mp hmem
  exact ⟨rfl, by simpa using hfd⟩

theorem isConnection_a (hsocket : Unconnected socket)
    (hlist : (n.host .a).sockets = [socket.withCall called]) :
    ∀ it ∈ (n.host .a).sockets, it.isConnection = false := by
  intro it hit
  rw [hlist] at hit
  rw [List.mem_singleton.mp hit, Config.isConnection_withCall]
  exact hsocket.isConnection

/-- A call of the application is one of `closeLab`, or changes nothing. -/
theorem call_a (hsocket : Unconnected socket)
    (hlist : (n.host .a).sockets = [socket.withCall called])
    (hfind : (n.host .a).findSocket fd = some k) {call : Call} (hrun : call.run k = some k') :
    ∃ called, ((n.host .a).update k').sockets = [socket.withCall called] := by
  obtain ⟨rfl, -⟩ := findSocket_a hlist hfind
  obtain ⟨called', rfl⟩ := Call.run_withCall hsocket.state hsocket.empty hrun
  refine ⟨called', ?_⟩
  rw [SocketList.update, hlist, List.map_singleton, if_pos (by simp)]

/-- A client that waits for the answer to its `SYN` does not get out of `closeLab`. -/
theorem waits_a (hlist : (n.host .a).sockets = [c.connect.1.withCall called])
    (hfind : (n.host .a).findSocket fd = some k) : closeLabExits k = false := by
  obtain ⟨rfl, -⟩ := findSocket_a hlist hfind
  exact closeLabExits_withCall (by decide : TCPState.sysSent ≠ .closed) rfl called

/-! ### Not connected -/

namespace Idle

theorem isConnection (h : Idle c n) (x : Side) :
    ∀ it ∈ (n.host x).sockets, it.isConnection = false := by
  cases x with
  | a =>
    rcases h.client with hnil | ⟨called, hlist⟩
    · simp [hnil]
    · exact isConnection_a unconnected_client hlist
  | b =>
    obtain ⟨called, hlist⟩ := h.server
    exact isConnection_b (o := none) hlist

theorem call (h : Idle c n) {call : Call} (hs : step c (.call x fd call) n = some n') :
    Idle c n' := by
  obtain ⟨k, hfind, hrun⟩ := Option.bind_eq_some_iff.mp hs
  obtain ⟨k', hk', rfl⟩ := Option.map_eq_some_iff.mp hrun
  cases x with
  | a =>
    refine ⟨Or.inr ?_, h.server, h.quiet⟩
    rw [host_setHost_self]
    rcases h.client with hnil | ⟨called, hlist⟩
    · simp [SocketList.findSocket, hnil] at hfind
    · exact call_a unconnected_client hlist hfind hk'
  | b =>
    obtain ⟨called, hlist⟩ := h.server
    obtain ⟨called', o, ho, hlist'⟩ := call_b (o := none) hlist hfind hk'
    obtain rfl : o = none := by simpa using ho
    refine ⟨h.client, ⟨called', ?_⟩, h.quiet⟩
    rw [host_setHost_self]
    exact hlist'

theorem free (h : Idle c n) (hs : step c (.free x fd) n = some n') : Idle c n' := by
  obtain ⟨k, hfind, hrun⟩ := Option.bind_eq_some_iff.mp hs
  split_ifs at hrun with hexits
  obtain rfl := Option.some.inj hrun
  cases x with
  | a =>
    refine ⟨Or.inl ?_, h.server, h.quiet⟩
    rw [host_setHost_self]
    rcases h.client with hnil | ⟨called, hlist⟩
    · simp [SocketList.findSocket, hnil] at hfind
    · obtain ⟨rfl, hfd⟩ := findSocket_a hlist hfind
      rw [SocketList.freeSocket, hlist, List.eraseP_cons_of_pos (by simpa using hfd)]
  | b =>
    obtain ⟨called, hlist⟩ := h.server
    have hwaits := waits_b (o := none) hlist hfind
    simp [hwaits] at hexits

theorem fault (h : Idle c n) {l : List TCPPacket} (hl : Channel.Degrades (n.chan x) l) :
    Idle c (n.setChan x l) := by
  refine ⟨h.client, h.server, Side.forall_of_other x ?_ ?_⟩
  · rw [chan_setChan_self]
    exact hl.eq_nil (h.quiet x)
  · rw [chan_setChan_other]
    exact h.quiet x.other

end Idle

/-! ### After the `SYN` -/

namespace SynSent

variable {called : Bool}

theorem isConnection (h : SynSent c n called) (x : Side) :
    ∀ it ∈ (n.host x).sockets, it.isConnection = false := by
  cases x with
  | a => exact isConnection_a unconnected_connect h.client
  | b =>
    obtain ⟨called', hlist⟩ := h.server
    exact isConnection_b (o := none) hlist

theorem waits (h : SynSent c n called) (hfind : (n.host x).findSocket fd = some k) :
    closeLabExits k = false := by
  cases x with
  | a => exact waits_a h.client hfind
  | b =>
    obtain ⟨called', hlist⟩ := h.server
    exact waits_b (o := none) hlist hfind

theorem call (h : SynSent c n called) {call : Call} (hs : step c (.call x fd call) n = some n') :
    ∃ called', SynSent c n' called' := by
  obtain ⟨k, hfind, hrun⟩ := Option.bind_eq_some_iff.mp hs
  obtain ⟨k', hk', rfl⟩ := Option.map_eq_some_iff.mp hrun
  cases x with
  | a =>
    obtain ⟨called', hlist'⟩ := call_a unconnected_connect h.client hfind hk'
    refine ⟨called', ?_, h.server, h.nextFd, h.towards, h.back⟩
    rw [host_setHost_self]
    exact hlist'
  | b =>
    obtain ⟨called', hlist⟩ := h.server
    obtain ⟨called'', o, ho, hlist'⟩ := call_b (o := none) hlist hfind hk'
    obtain rfl : o = none := by simpa using ho
    refine ⟨called, h.client, ⟨called'', ?_⟩, h.nextFd, h.towards, h.back⟩
    rw [host_setHost_self]
    exact hlist'

theorem fault (h : SynSent c n called) {l : List TCPPacket}
    (hl : Channel.Degrades (n.chan x) l) : SynSent c (n.setChan x l) called := by
  cases x with
  | a => exact ⟨h.client, h.server, h.nextFd, by simpa using hl.forall_mem h.towards, h.back⟩
  | b => exact ⟨h.client, h.server, h.nextFd, h.towards, by simpa using hl.eq_nil h.back⟩

/-- **The first step of the handshake.** -/
theorem deliver_a (h : SynSent c n called) {packet : TCPPacket} {rest : List TCPPacket}
    (hn : n.chan .a = packet :: rest) :
    ∃ n', n.deliver c .a = some n' ∧
      SynReceived c n' (fun | .a => called | .b => false) ∧ n'.chan .b = [c.synAck] := by
  obtain ⟨called', hlist⟩ := h.server
  obtain rfl : packet = c.syn := h.towards packet (by simp [hn])
  obtain ⟨n', hn', hsame, hother, hrest, hout⟩ :=
    deliver_eq c hn (Config.listener_syn hlist h.nextFd)
  rw [show Side.a.other = .b from rfl] at hother hout
  rw [h.back, List.nil_append] at hout
  refine ⟨n', hn', ⟨by rw [hsame]; exact h.client, ⟨called', by rw [hother]; rfl⟩, ?_, ?_⟩, hout⟩
  · rw [hrest]
    exact fun packet hp => h.towards packet (by simp [hn, hp])
  · rw [hout]
    exact fun packet hp => List.mem_singleton.mp hp

end SynSent

/-! ### After the answer -/

namespace SynReceived

variable {called : Side → Bool}

theorem isConnection (h : SynReceived c n called) (x : Side) :
    ∀ it ∈ (n.host x).sockets, it.isConnection = false := by
  cases x with
  | a => exact isConnection_a unconnected_connect h.client
  | b =>
    obtain ⟨called', hlist⟩ := h.server
    exact isConnection_b (o := some _) hlist

theorem waits (h : SynReceived c n called) (hfind : (n.host x).findSocket fd = some k) :
    closeLabExits k = false := by
  cases x with
  | a => exact waits_a h.client hfind
  | b =>
    obtain ⟨called', hlist⟩ := h.server
    exact waits_b (o := some _) hlist hfind

theorem call (h : SynReceived c n called) {call : Call}
    (hs : step c (.call x fd call) n = some n') :
    ∃ called', SynReceived c n' called' := by
  obtain ⟨k, hfind, hrun⟩ := Option.bind_eq_some_iff.mp hs
  obtain ⟨k', hk', rfl⟩ := Option.map_eq_some_iff.mp hrun
  cases x with
  | a =>
    obtain ⟨called', hlist'⟩ := call_a unconnected_connect h.client hfind hk'
    refine ⟨fun | .a => called' | .b => called .b, ?_, h.server, h.towards, h.back⟩
    rw [host_setHost_self]
    exact hlist'
  | b =>
    obtain ⟨called', hlist⟩ := h.server
    obtain ⟨called'', o, ho, hlist'⟩ := call_b (o := some _) hlist hfind hk'
    obtain ⟨calledEnd, rfl⟩ := Option.isSome_iff_exists.mp ho
    refine ⟨fun | .a => called .a | .b => calledEnd, h.client, ⟨called'', ?_⟩, h.towards, h.back⟩
    rw [host_setHost_self]
    exact hlist'

theorem fault (h : SynReceived c n called) {l : List TCPPacket}
    (hl : Channel.Degrades (n.chan x) l) : SynReceived c (n.setChan x l) called := by
  cases x with
  | a => exact ⟨h.client, h.server, by simpa using hl.forall_mem h.towards, h.back⟩
  | b => exact ⟨h.client, h.server, h.towards, by simpa using hl.forall_mem h.back⟩

/-- A repetition of the `SYN` is lost on the end that waits. -/
theorem deliver_a (h : SynReceived c n called) {packet : TCPPacket} {rest : List TCPPacket}
    (hn : n.chan .a = packet :: rest) :
    ∃ n', n.deliver c .a = some n' ∧ SynReceived c n' called ∧ n'.chan .b = n.chan .b := by
  obtain ⟨called', hlist⟩ := h.server
  obtain rfl : packet = c.syn := h.towards packet (by simp [hn])
  obtain ⟨n', hn', ha, hb, hrest, hback⟩ := deliver_ignored hlist hn Config.from_syn
    (by decide : ctSyn &&& ctAck = 0)
  refine ⟨n', hn', ⟨by rw [ha]; exact h.client, ⟨called', by rw [hb, hlist]⟩, ?_, ?_⟩, hback⟩
  · rw [hrest]
    exact fun packet hp => h.towards packet (by simp [hn, hp])
  · rw [hback]
    exact h.back

/-- **The second step of the handshake.** -/
theorem deliver_b (h : SynReceived c n called) {packet : TCPPacket} {rest : List TCPPacket}
    (hn : n.chan .b = packet :: rest) :
    ∃ n', n.deliver c .b = some n' ∧ HalfOpen c n' (Duo.started called 1 rest.length) := by
  obtain ⟨called', hlist⟩ := h.server
  obtain rfl : packet = c.synAck := h.back packet (by simp [hn])
  have hrest' : rest = List.replicate rest.length c.synAck :=
    List.eq_replicate_of_mem fun packet hp => h.back packet (by simp [hn, hp])
  obtain ⟨k, ack, hk, hrep, hack⟩ := @Config.client_synAck c (called .a)
  obtain ⟨hid, hsent⟩ := identity_handleTCPMain hk
  have hid₀ : (c.connect.1.withCall (called .a)).identity = c.identity .a :=
    Config.identity_withCall c.connect.1 (called .a)
  have hstate : (c.connect.1.withCall (called .a)).state ≠ .listen := by
    rw [Config.state_withCall]
    exact (by decide : TCPState.sysSent ≠ .listen)
  obtain ⟨list, hrun, hlist'⟩ := @Config.handleTCPMain_end c false .b _ _ _ _ _ h.client hid₀ hstate
    Config.from_synAck hk
  obtain ⟨n', hn', hsame, hother, hrest, hout⟩ := deliver_eq c hn hrun
  rw [show Side.b.other = .a from rfl] at hother hout
  have hfirst := hsent ack (List.mem_singleton_self ack)
  rw [hid₀] at hfirst
  refine ⟨n', hn', Duo.started_inv called 1 rest.length, ?_, ?_, ?_, ?_, ?_⟩
  · exact ⟨k, by rw [hother]; exact hlist', hid.trans hid₀, hrep⟩
  · exact ⟨called', called .b, by rw [hsame]; exact hlist, rfl⟩
  · exact ⟨n.chan .a, [ack], hout, h.towards,
      .cons ⟨hack, hfirst.toFrom, fun _ => hfirst.noSyn⟩ .nil, [.ack startAck], [],
      rfl, fun m hm => List.mem_singleton.mp hm, rfl⟩
  · rw [hrest, hrest', List.length_replicate]
    exact Channel.forall₂_replicate _ ⟨Config.rep_synAck, Config.from_synAck, fun hb => by cases hb⟩
  · exact List.filterMap_replicate_of_none rfl

end SynReceived

/-! ### From stage to stage -/

/-- A socket on which `closeLab` goes on waiting is not given back. -/
theorem not_free (hwaits : ∀ k, (n.host x).findSocket fd = some k → closeLabExits k = false) :
    step c (.free x fd) n = none := by
  rw [step]
  cases hfind : (n.host x).findSocket fd with
  | none => rfl
  | some k =>
    rw [Option.bind_some, hwaits k hfind, Bool.and_false]
    rfl

variable {act : Action}

theorem Idle.stage (h : Idle c n) (hs : step c act n = some n') : Stage c n' := by
  cases act with
  | call x fd call => exact .idle (h.call hs)
  | free x fd => exact .idle (h.free hs)
  | tick x now =>
    obtain rfl := Option.some.inj ((tick_quiet c (h.isConnection x)).symm.trans hs)
    exact .idle h
  | deliver x => simp [step, Net.deliver, h.quiet x] at hs
  | lose x i =>
    obtain rfl := Option.some.inj hs
    exact .idle (h.fault (Channel.degrades_lose i _))
  | repeatAt x i =>
    obtain rfl := Option.some.inj hs
    exact .idle (h.fault (Channel.degrades_repeatAt i _))

theorem SynSent.stage (h : SynSent c n called) (hs : step c act n = some n') : Stage c n' := by
  cases act with
  | call x fd call =>
    obtain ⟨called', h'⟩ := h.call hs
    exact .synSent called' h'
  | free x fd =>
    rw [not_free fun k => h.waits] at hs
    cases hs
  | tick x now =>
    obtain rfl := Option.some.inj ((tick_quiet c (h.isConnection x)).symm.trans hs)
    exact .synSent called h
  | deliver x =>
    rw [step] at hs
    cases hn : n.chan x with
    | nil => simp [Net.deliver, hn] at hs
    | cons packet rest =>
      cases x with
      | a =>
        obtain ⟨n₁, hn₁, h₁, -⟩ := h.deliver_a hn
        obtain rfl := Option.some.inj (hs.symm.trans hn₁)
        exact .synReceived _ h₁
      | b => simp [h.back] at hn
  | lose x i =>
    obtain rfl := Option.some.inj hs
    exact .synSent called (h.fault (Channel.degrades_lose i _))
  | repeatAt x i =>
    obtain rfl := Option.some.inj hs
    exact .synSent called (h.fault (Channel.degrades_repeatAt i _))

theorem SynReceived.stage {called : Side → Bool} (h : SynReceived c n called)
    (hs : step c act n = some n') : Stage c n' := by
  cases act with
  | call x fd call =>
    obtain ⟨called', h'⟩ := h.call hs
    exact .synReceived called' h'
  | free x fd =>
    rw [not_free fun k => h.waits] at hs
    cases hs
  | tick x now =>
    obtain rfl := Option.some.inj ((tick_quiet c (h.isConnection x)).symm.trans hs)
    exact .synReceived called h
  | deliver x =>
    rw [step] at hs
    cases hn : n.chan x with
    | nil => simp [Net.deliver, hn] at hs
    | cons packet rest =>
      cases x with
      | a =>
        obtain ⟨n₁, hn₁, h₁, -⟩ := h.deliver_a hn
        obtain rfl := Option.some.inj (hs.symm.trans hn₁)
        exact .synReceived called h₁
      | b =>
        obtain ⟨n₁, hn₁, h₁⟩ := h.deliver_b hn
        obtain rfl := Option.some.inj (hs.symm.trans hn₁)
        exact .halfOpen _ h₁
  | lose x i =>
    obtain rfl := Option.some.inj hs
    exact .synReceived called (h.fault (Channel.degrades_lose i _))
  | repeatAt x i =>
    obtain rfl := Option.some.inj hs
    exact .synReceived called (h.fault (Channel.degrades_repeatAt i _))

theorem HalfOpen.stage {d : Duo} (h : HalfOpen c n d) (hs : step c act n = some n') :
    Stage c n' := by
  cases act with
  | call x fd call =>
    obtain ⟨d', h'⟩ := h.call hs
    exact .halfOpen d' h'
  | free x fd =>
    rw [not_free fun k => h.waits] at hs
    cases hs
  | tick x now =>
    obtain ⟨d', -, h', -⟩ := h.tick hs
    exact .halfOpen d' h'
  | deliver x =>
    cases x with
    | a =>
      rw [step] at hs
      cases hn : n.chan .a with
      | nil => simp [Net.deliver, hn] at hs
      | cons packet rest =>
        obtain ⟨n₁, hn₁, -, h₁⟩ := h.deliver_a hn
        obtain rfl := Option.some.inj (hs.symm.trans hn₁)
        rcases h₁ with h' | ⟨-, -, d', -, h'⟩ | ⟨-, d', h', -⟩
        · exact .halfOpen d h'
        · exact .opened d' h'
        · exact .halfOpen d' h'
    | b =>
      obtain ⟨d', -, h', -⟩ := h.deliver_b hs
      exact .halfOpen d' h'
  | lose x i =>
    obtain rfl := Option.some.inj hs
    obtain ⟨d', h'⟩ := h.fault (Channel.degrades_lose i (n.chan x))
    exact .halfOpen d' h'
  | repeatAt x i =>
    obtain rfl := Option.some.inj hs
    obtain ⟨d', h'⟩ := h.fault (Channel.degrades_repeatAt i (n.chan x))
    exact .halfOpen d' h'

theorem Open.stage {d : Duo} (h : Open c n d) (hs : step c act n = some n') : Stage c n' := by
  cases act with
  | call x fd call =>
    obtain ⟨d', h'⟩ := h.call hs
    exact .opened d' h'
  | free x fd =>
    obtain ⟨d', h'⟩ := h.free hs
    exact .opened d' h'
  | tick x now =>
    obtain ⟨d', -, h'⟩ := Run.rel_some_left (h.tick x now) hs
    exact .opened d' h'
  | deliver x =>
    obtain ⟨d', -, h'⟩ := Run.rel_some_left (h.deliver x) hs
    exact .opened d' h'
  | lose x i =>
    obtain rfl := Option.some.inj hs
    obtain ⟨d', h'⟩ := h.fault (Channel.degrades_lose i (n.chan x))
    exact .opened d' h'
  | repeatAt x i =>
    obtain rfl := Option.some.inj hs
    obtain ⟨d', h'⟩ := h.fault (Channel.degrades_repeatAt i (n.chan x))
    exact .opened d' h'

/-- Whatever happens, one of the stages is followed by one of the stages. -/
theorem Stage.step (h : Stage c n) (hs : Net.step c act n = some n') : Stage c n' := by
  cases h with
  | idle h => exact h.stage hs
  | synSent called h => exact h.stage hs
  | synReceived called h => exact h.stage hs
  | halfOpen d h => exact h.stage hs
  | opened d h => exact h.stage hs

theorem idle_idle : Idle c c.idle :=
  ⟨Or.inr ⟨false, rfl⟩, ⟨false, rfl⟩, fun x => by cases x <;> rfl⟩

theorem synSent_connecting : SynSent c c.connecting false :=
  ⟨rfl, ⟨false, rfl⟩, rfl, fun _ hp => List.mem_singleton.mp hp, rfl⟩

/-- **Every reachable state is in one of the stages.** -/
theorem Reachable.stage (h : n.Reachable c) : Stage c n := by
  obtain ⟨acts, hrun | hrun⟩ := h
  · exact Run.invariant (fun _ _ _ ht => ht.step) (.idle idle_idle) hrun
  · exact Run.invariant (fun _ _ _ ht => ht.step) (.synSent false synSent_connecting) hrun

end Net

end LabNetstack
