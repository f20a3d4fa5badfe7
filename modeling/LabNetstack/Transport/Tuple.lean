import LabNetstack.Transport.Process

/-!
# Who owns a connection

`matchSocket` knows a connection by its four numbers alone, and takes the first socket that has
them, whatever its state. They are set in three places: by `bindLab`, by `connectLab`, with a port
from `getPort`, and by `TCPHandleListen`. None of them looks whether another socket has the same.

## Main results

* `Process.oneOwner_iff` — in which runs no two connections have the same numbers, and none loses
  its segments to another socket
* `Process.firstLoop_eq_some_iff` — of the sockets with the same numbers the oldest is found
* `Process.free_of_bound` — a `SYN` to the address that the listener is bound to, or to a listener
  that is bound to none, brings no numbers that are taken
-/

namespace LabNetstack

open RingMemory

/-- The four numbers of a connection. -/
structure Tuple where
  srcaddr : IPAddr
  srcport : Port
  desaddr : IPAddr
  desport : Port
deriving DecidableEq

def Socket.tuple (k : Socket) : Tuple := ⟨k.srcaddr, k.srcport, k.desaddr, k.desport⟩

/-- The numbers are part of the identity. -/
theorem Socket.tuple_eq {k : Socket} {e : Identity} (h : k.identity = e) :
    k.tuple = ⟨e.srcaddr, e.srcport, e.desaddr, e.desport⟩ := by
  subst h
  rfl

theorem Socket.tuple_of_identity {k k' : Socket} (h : k'.identity = k.identity) :
    k'.tuple = k.tuple := Socket.tuple_eq h

/-- The numbers that the segment is for. -/
def TCPPacket.tuple (packet : TCPPacket) : Tuple :=
  ⟨packet.dst, packet.tcpHeader.desport, packet.src, packet.tcpHeader.srcport⟩

/-- The socket has a connection, or is about to have one. -/
def Socket.Active (k : Socket) : Prop :=
  k.state = .sysSent ∨ k.state = .sysRecv ∨ k.state = .establisted
deriving Decidable

theorem Socket.Active.of_state {k k' : Socket} (h : k'.Active) (hstate : k'.state = k.state) :
    k.Active := by
  rw [Socket.Active, ← hstate]
  exact h

/-- The first loop of `matchSocket`. -/
def SocketList.firstLoop (list : SocketList) (packet : TCPPacket) : Option Socket :=
  list.sockets.find? fun it => packet.tcpHeader.desport = it.srcport ∧ packet.dst = it.srcaddr ∧
    packet.tcpHeader.srcport = it.desport ∧ packet.src = it.desaddr

namespace Process

variable {p p' : Process} {act : Action} {list list' : SocketList} {k k' it : Socket} {fd : ℤ}
  {tuple : Tuple} {packet : TCPPacket}

/-- A connection has one owner, which `connectLab` has given a port. -/
structure OneOwner (p : Process) : Prop where
  nodup : (p.list.sockets.map Socket.fd).Nodup
  unique : ∀ k ∈ p.list.sockets, ∀ k' ∈ p.list.sockets, k.Active → k'.Active → k.fd ≠ k'.fd →
    k.tuple ≠ k'.tuple
  port_ne : ∀ k ∈ p.list.sockets, k.fd ∈ p.started → k.srcport ≠ 0
  /-- The first loop hands no segment of a connection to another socket. -/
  handed : ∀ packet : TCPPacket, ∀ k ∈ p.list.sockets, k.Active → packet.tuple = k.tuple →
    ∀ it ∈ p.list.firstLoop packet, it = k

/-- No socket but that of `fd` has these numbers, unless it comes later and has no connection. -/
def Free (list : SocketList) (fd : ℤ) (tuple : Tuple) : Prop :=
  ∀ it ∈ list.sockets, it.fd ≠ fd → it.tuple = tuple → ¬ it.Active ∧ fd < it.fd

/-- Whatever other connection has these numbers comes before the socket `fd`. -/
def Behind (list : SocketList) (fd : ℤ) (tuple : Tuple) : Prop :=
  ∀ it ∈ list.sockets, it.fd ≠ fd → it.tuple = tuple → it.Active → it.fd < fd

/-- The condition on a step: the numbers it sets are free, and there is a port. -/
def TakesFree : Action → Process → Prop
  | .bindLab fd addr port, p => ∀ k ∈ p.list.findSocket fd,
    (fd ∈ p.started → port ≠ 0) ∧
      (k.Active → Free p.list fd ⟨addr, port, k.desaddr, k.desport⟩) ∧
      (¬ k.Active → Behind p.list fd ⟨addr, port, k.desaddr, k.desport⟩)
  | .connectLab fd addr port, p => ∀ k ∈ p.list.findSocket fd,
    (k.srcport = 0 → p.port ≠ 0xffff) ∧
      Free p.list fd ⟨if k.srcaddr = 0 then p.device else k.srcaddr,
        if k.srcport = 0 then htons (getPort p.port).1 else k.srcport, addr, port⟩
  | .segment _ _ packet, p => ∀ k ∈ p.list.matchSocket packet,
    k.state = .listen → packet.IsSyn → Free p.list p.list.nextFd
      ⟨if k.srcaddr = 0 then packet.dst else k.srcaddr, k.srcport, packet.src,
        packet.tcpHeader.srcport⟩
  | _, _ => True

/-! ### Numbers that are taken -/

/-- The first loop looks for the four numbers. -/
theorem firstLoop_eq (list : SocketList) (packet : TCPPacket) :
    list.firstLoop packet = list.sockets.find? fun it => it.tuple = packet.tuple := by
  have hnumbers : ∀ it : Socket, (packet.tcpHeader.desport = it.srcport ∧ packet.dst = it.srcaddr ∧
      packet.tcpHeader.srcport = it.desport ∧ packet.src = it.desaddr) ↔
      it.tuple = packet.tuple := by
    intro it
    rw [Socket.tuple, TCPPacket.tuple, Tuple.mk.injEq]
    constructor
    · rintro ⟨hdesport, hdst, hsrcport, hsrc⟩
      exact ⟨hdst.symm, hdesport.symm, hsrc.symm, hsrcport.symm⟩
    · rintro ⟨hdst, hdesport, hsrc, hsrcport⟩
      exact ⟨hdesport.symm, hdst.symm, hsrcport.symm, hsrc.symm⟩
  rw [SocketList.firstLoop]
  congr 1
  funext it
  exact decide_eq_decide.mpr (hnumbers it)

theorem firstLoop_some (h : list.firstLoop packet = some it) :
    it ∈ list.sockets ∧ it.tuple = packet.tuple := by
  rw [firstLoop_eq] at h
  have hfound := List.find?_some h
  exact ⟨List.mem_of_find?_eq_some h, of_decide_eq_true hfound⟩

theorem firstLoop_isSome (hit : it ∈ list.sockets) (htuple : it.tuple = packet.tuple) :
    ∃ it', list.firstLoop packet = some it' := by
  rw [firstLoop_eq, ← Option.isSome_iff_exists, List.find?_isSome]
  exact ⟨it, hit, decide_eq_true htuple⟩

/-- **The first loop finds the oldest.** -/
theorem firstLoop_eq_some_iff (hordered : Ordered list) : list.firstLoop packet = some it ↔
    it ∈ list.sockets ∧ it.tuple = packet.tuple ∧
      ∀ it' ∈ list.sockets, it'.tuple = packet.tuple → it.fd ≤ it'.fd := by
  -- whatever comes before it in the list is older
  have hleast : ∀ it, list.firstLoop packet = some it →
      ∀ it' ∈ list.sockets, it'.tuple = packet.tuple → it.fd ≤ it'.fd := by
    intro it h it' hit' htuple'
    rw [firstLoop_eq] at h
    obtain ⟨-, old, new, hsockets, hold⟩ := List.find?_eq_some_iff_append.mp h
    have hsorted := hordered.sorted
    rw [hsockets, List.map_append, List.map_cons, List.pairwise_append,
      List.pairwise_cons] at hsorted
    rw [hsockets] at hit'
    rcases List.mem_append.mp hit' with hit' | hit'
    · have hnot := hold it' hit'
      rw [decide_eq_true htuple'] at hnot
      cases hnot
    · rcases List.mem_cons.mp hit' with rfl | hit'
      · exact le_rfl
      · exact (hsorted.2.1.1 it'.fd (List.mem_map_of_mem hit')).le
  constructor
  · intro h
    obtain ⟨hit, htuple⟩ := firstLoop_some h
    exact ⟨hit, htuple, hleast it h⟩
  · rintro ⟨hit, htuple, hold⟩
    obtain ⟨it', hfound⟩ := firstLoop_isSome hit htuple
    obtain ⟨hit', htuple'⟩ := firstLoop_some hfound
    have hfd : it'.fd = it.fd := (hleast it' hfound it hit htuple).antisymm (hold it' hit' htuple')
    rw [hfound, hordered.eq_of_fd hit' hit hfd]

/-- A listener that is found for its port is bound to it, and nobody has the numbers of the
segment. -/
theorem matchSocket_listen (hmatch : list.matchSocket packet = some k)
    (hnone : list.firstLoop packet = none) :
    packet.tcpHeader.desport = k.srcport ∧ ∀ it ∈ list.sockets, it.tuple ≠ packet.tuple := by
  constructor
  · rcases Option.or_eq_some_iff.mp hmatch with hfirst | ⟨-, hsecond⟩
    · rw [SocketList.firstLoop] at hnone
      rw [hnone] at hfirst
      cases hfirst
    · have hfound := List.find?_some hsecond
      simp only [decide_eq_true_eq] at hfound
      exact hfound.1
  · intro it hit heq
    rw [firstLoop_eq] at hnone
    exact List.find?_eq_none.mp hnone it hit (decide_eq_true heq)

/-- **A listener that is bound to no address, or to that of the segment.** -/
theorem free_of_bound (hmatch : list.matchSocket packet = some k)
    (hnone : list.firstLoop packet = none) (hbound : k.srcaddr = 0 ∨ k.srcaddr = packet.dst) :
    Free list fd ⟨if k.srcaddr = 0 then packet.dst else k.srcaddr, k.srcport, packet.src,
      packet.tcpHeader.srcport⟩ := by
  obtain ⟨hport, htaken⟩ := matchSocket_listen hmatch hnone
  have haddr : (if k.srcaddr = 0 then packet.dst else k.srcaddr) = packet.dst := by
    rcases hbound with hzero | hsame
    · rw [if_pos hzero]
    · rw [hsame, ite_self]
  intro it hit _ heq
  rw [haddr, ← hport] at heq
  exact absurd heq (htaken it hit)

/-- `getPort` has a port left. -/
theorem htons_getPort (port : Port) : htons (getPort port).1 ≠ 0 ↔ port ≠ 0xffff := by
  have hzero : ∀ x : Port, htons x = 0 ↔ x = 0 := by
    intro x
    constructor
    · intro hx
      rw [← htons_htons x, hx]
      rfl
    · rintro rfl
      rfl
  rw [Ne, hzero, getPort]
  by_cases hlast : port = 0xffff
  · rw [if_pos hlast]
    exact iff_of_false (fun hne => hne rfl) (fun hne => hne hlast)
  · rw [if_neg hlast]
    refine iff_of_true (fun hnext => hlast ?_) hlast
    exact (BitVec.eq_sub_iff_add_eq.mpr hnext).trans rfl

/-! ### What a step does to the numbers -/

theorem of_role (h : k'.role = k.role) :
    k'.fd = k.fd ∧ k'.tuple = k.tuple ∧ k'.state = k.state := by
  have hid : k'.identity = k.identity := congrArg Role.toIdentity h
  exact ⟨congrArg Identity.fd hid, Socket.tuple_of_identity hid, congrArg Role.state h⟩

/-- The numbers that `connectLab` sets. -/
theorem connect_of_role {addr : IPAddr} {port : Port} (h : k'.role = {
      fd := k.fd
      desaddr := addr
      desport := port
      srcaddr := if k.srcaddr = 0 then p.device else k.srcaddr
      srcport := if k.srcport = 0 then htons (getPort p.port).1 else k.srcport
      state := .sysSent
      parentListenFd := k.parentListenFd }) :
    k'.fd = k.fd ∧ k'.tuple = ⟨if k.srcaddr = 0 then p.device else k.srcaddr,
      if k.srcport = 0 then htons (getPort p.port).1 else k.srcport, addr, port⟩ := by
  have hid := congrArg Role.toIdentity h
  exact ⟨congrArg Identity.fd hid, Socket.tuple_eq hid⟩

/-- The numbers that `TCPHandleListen` sets. -/
theorem child_of_role {child : Socket} (h : child.role = {
      fd := list.nextFd
      desaddr := packet.src
      desport := packet.tcpHeader.srcport
      srcaddr := if k.srcaddr = 0 then packet.dst else k.srcaddr
      srcport := k.srcport
      state := .sysRecv
      parentListenFd := k.fd }) :
    child.fd = list.nextFd ∧ child.tuple = ⟨if k.srcaddr = 0 then packet.dst else k.srcaddr,
      k.srcport, packet.src, packet.tcpHeader.srcport⟩ := by
  have hid := congrArg Role.toIdentity h
  exact ⟨congrArg Identity.fd hid, Socket.tuple_eq hid⟩

/-- The numbers of a list, and the ports of the sockets that have been started. -/
structure TupleOk (list : SocketList) (started : List ℤ) : Prop where
  ordered : Ordered list
  free : ∀ k ∈ list.sockets, k.Active → Free list k.fd k.tuple
  port_ne : ∀ k ∈ list.sockets, k.fd ∈ started → k.srcport ≠ 0
  counted : ∀ fd ∈ started, fd < list.nextFd

namespace TupleOk

variable {started started' : List ℤ}

/-- A socket stands behind the connection that has its numbers. -/
theorem behind (h : TupleOk list started) (hk : k ∈ list.sockets) : Behind list k.fd k.tuple :=
  fun it hit hfd htuple hactive => (h.free it hit hactive k hk hfd.symm htuple.symm).2

/-- **A socket changes.** -/
theorem update (h : TupleOk list started) (hk : k ∈ list.sockets) (hfd : k'.fd = k.fd)
    (hfree : k'.Active → Free list k.fd k'.tuple)
    (hbehind : ¬ k'.Active → Behind list k.fd k'.tuple)
    (hport : k.fd ∈ started' → k'.srcport ≠ 0)
    (hstarted : ∀ fd ∈ started', fd = k.fd ∨ fd ∈ started) :
    TupleOk (list.update k') started' where
  ordered := h.ordered.update k'
  free it hit hactive other hother hne htuple := by
    rcases mem_update.mp hit with ⟨rfl, -⟩ | ⟨hold, hit'⟩
    · rcases mem_update.mp hother with ⟨rfl, -⟩ | ⟨hother, hother'⟩
      · exact absurd rfl hne
      · rw [hfd] at hother' ⊢
        exact hfree hactive other hother hother' htuple
    · rcases mem_update.mp hother with ⟨rfl, -⟩ | ⟨hother, -⟩
      · rw [hfd] at hit' ⊢
        have hidle : ¬ other.Active :=
          fun hactive' => (hfree hactive' it hold hit' htuple.symm).1 hactive
        exact ⟨hidle, hbehind hidle it hold hit' htuple.symm hactive⟩
      · exact h.free it hold hactive other hother hne htuple
  port_ne it hit hmem := by
    rcases mem_update.mp hit with ⟨rfl, -⟩ | ⟨hit, hother⟩
    · exact hport (hfd ▸ hmem)
    · exact h.port_ne it hit ((hstarted it.fd hmem).resolve_left (hfd ▸ hother))
  counted fd hmem := by
    rcases hstarted fd hmem with rfl | hmem
    · exact h.ordered.lt k hk
    · exact h.counted fd hmem

/-- A socket changes, but not its numbers. -/
theorem keep (h : TupleOk list started) (hk : k ∈ list.sockets) (hfd : k'.fd = k.fd)
    (htuple : k'.tuple = k.tuple) (hactive : k'.Active → k.Active) :
    TupleOk (list.update k') started := by
  refine h.update hk hfd (fun hk' => ?_) (fun _ => htuple ▸ h.behind hk) (fun hmem => ?_)
    fun fd hmem => Or.inr hmem
  · rw [htuple]
    exact h.free k hk (hactive hk')
  · rw [show k'.srcport = k.srcport from congrArg Tuple.srcport htuple]
    exact h.port_ne k hk hmem

theorem keep_role (h : TupleOk list started) (hk : k ∈ list.sockets) (hrole : k'.role = k.role) :
    TupleOk (list.update k') started := by
  obtain ⟨hfd, htuple, hstate⟩ := of_role hrole
  exact h.keep hk hfd htuple fun hactive => hactive.of_state hstate

/-- **A socket is added.** -/
theorem add (h : TupleOk list started) (hfd : k.fd = list.nextFd)
    (hfree : k.Active → Free list list.nextFd k.tuple) :
    TupleOk ⟨list.sockets ++ [k], list.nextFd + 1⟩ started where
  ordered := h.ordered.add hfd
  free it hit hactive other hother hne htuple := by
    rcases List.mem_append.mp hit with hold | hnew
    · rcases List.mem_append.mp hother with hother | hother
      · exact h.free it hold hactive other hother hne htuple
      · obtain rfl := List.mem_singleton.mp hother
        rw [hfd] at hne ⊢
        exact ⟨fun hactive' => (hfree hactive' it hold hne.symm htuple.symm).1 hactive,
          h.ordered.lt it hold⟩
    · obtain rfl := List.mem_singleton.mp hnew
      rcases List.mem_append.mp hother with hother | hother
      · rw [hfd] at hne ⊢
        exact hfree hactive other hother hne htuple
      · obtain rfl := List.mem_singleton.mp hother
        exact absurd rfl hne
  port_ne it hit hmem := by
    rcases List.mem_append.mp hit with hit | hit
    · exact h.port_ne it hit hmem
    · obtain rfl := List.mem_singleton.mp hit
      exact absurd hfd (h.counted _ hmem).ne
  counted fd hmem := (h.counted fd hmem).trans (lt_add_one _)

/-- The timer. -/
theorem tick (h : TupleOk list started) (nowtime : ℕ) :
    TupleOk (list.asyncSendTCPPacket nowtime).1 started where
  ordered := h.ordered.of_fds (SocketList.fds_asyncSendTCPPacket list nowtime) rfl
  free it hit hactive other hother hne heq := by
    obtain ⟨k, hk, rfl⟩ := mem_asyncSendTCPPacket.mp hit
    obtain ⟨k', hk', rfl⟩ := mem_asyncSendTCPPacket.mp hother
    obtain ⟨hfd, htuple, hstate⟩ := of_role (role_asyncSendTCPPacket nowtime k)
    obtain ⟨hfd', htuple', hstate'⟩ := of_role (role_asyncSendTCPPacket nowtime k')
    rw [htuple, htuple'] at heq
    rw [hfd, hfd'] at hne ⊢
    obtain ⟨hidle, hlt⟩ := h.free k hk (Socket.Active.of_state hactive hstate) k' hk' hne heq
    exact ⟨fun hactive' => hidle (Socket.Active.of_state hactive' hstate'), hlt⟩
  port_ne it hit hmem := by
    obtain ⟨k, hk, rfl⟩ := mem_asyncSendTCPPacket.mp hit
    obtain ⟨hfd, htuple, -⟩ := of_role (role_asyncSendTCPPacket nowtime k)
    have hport := h.port_ne k hk (hfd ▸ hmem)
    exact fun hzero => hport ((congrArg Tuple.srcport htuple).symm.trans hzero)
  counted := h.counted

/-- A socket is freed. -/
theorem erase (h : TupleOk list started) (fd : ℤ) : TupleOk (list.freeSocket fd) started where
  ordered := h.ordered.free fd
  free it hit hactive other hother :=
    h.free it (mem_of_mem_freeSocket hit) hactive other (mem_of_mem_freeSocket hother)
  port_ne it hit := h.port_ne it (mem_of_mem_freeSocket hit)
  counted := h.counted

/-- **A segment.** -/
theorem segment (h : TupleOk list started) (hk : k ∈ list.sockets)
    (hlist : Handled list packet k list')
    (hc : k.state = .listen → packet.IsSyn → Free list list.nextFd
      ⟨if k.srcaddr = 0 then packet.dst else k.srcaddr, k.srcport, packet.src,
        packet.tcpHeader.srcport⟩) : TupleOk list' started := by
  cases hlist with
  | ignored => exact h
  | child child hlisten hsyn hrole =>
    obtain ⟨hfd, htuple⟩ := child_of_role hrole
    exact h.add hfd fun _ => htuple ▸ hc hlisten hsyn
  | handled k' out hopen hrun =>
    obtain ⟨hrole, hnext⟩ := role_handleTCPMain hrun
    have hid : k'.identity = k.identity := congrArg Role.toIdentity hrole
    refine h.keep hk (congrArg Identity.fd hid) (Socket.tuple_of_identity hid) fun hactive => ?_
    rcases hnext with hsame | ⟨hearly, -⟩ | ⟨hest, -⟩
    · exact Socket.Active.of_state hactive hsame
    · exact hearly.elim Or.inl fun hrecv => Or.inr (Or.inl hrecv)
    · exact Or.inr (Or.inr hest)

/-- **One step.** -/
theorem step (h : TupleOk p.list p.started) (hs : Process.step act p = some p')
    (hc : TakesFree act p) : TupleOk p'.list p'.started := by
  cases moves_of_step hs with
  | missing | leaveCloseLab => exact h
  | socketLab =>
    exact h.add rfl fun hactive => absurd hactive (by simp [Socket.Active, allocSocket])
  | bindLab addr port k hk =>
    obtain ⟨hport, hfree, hbehind⟩ := hc k hk
    exact h.update (findSocket_some hk).1 rfl hfree hbehind hport fun fd hmem => Or.inr hmem
  | listenLab k hk =>
    exact h.keep (findSocket_some hk).1 rfl rfl fun hactive =>
      absurd hactive (by simp [Socket.Active, LabNetstack.listenLab])
  | connectLab addr port next k k' hk hrole =>
    obtain ⟨hport, hfree⟩ := hc k hk
    obtain ⟨hfd, htuple⟩ := connect_of_role hrole
    have hactive : k'.Active := Or.inl (congrArg Role.state hrole)
    refine h.update (findSocket_some hk).1 hfd (fun _ => htuple ▸ hfree)
      (fun hidle => absurd hactive hidle) (fun _ => ?_) fun fd hmem => List.mem_cons.mp hmem
    have hsrcport : k'.srcport = if k.srcport = 0 then htons (getPort p.port).1 else k.srcport :=
      congrArg Tuple.srcport htuple
    rw [hsrcport]
    split_ifs with hzero
    · exact (htons_getPort p.port).mpr (hport hzero)
    · exact hzero
  | acceptLab fd k hfd hk => exact h.keep (acceptable_some hk).1 rfl rfl id
  | writeLab buf k k' hk hrole => exact h.keep_role (findSocket_some hk).1 hrole
  | readLab nbyte k k' hk hrole => exact h.keep_role (findSocket_some hk).1 hrole
  | closeLab k k' hk hrole => exact h.keep_role (findSocket_some hk).1 hrole
  | freeSocket fd hfd => exact h.erase fd
  | tick nowtime => exact h.tick nowtime
  | segment readMem writeMem packet list hlist =>
    rcases hlist with ⟨-, rfl⟩ | ⟨k, hmatch, hlist⟩
    · exact h
    · exact h.segment (mem_of_matchSocket hmatch) hlist (hc k hmatch)

theorem oneOwner (h : TupleOk p.list p.started) : p.OneOwner where
  nodup := h.ordered.nodup
  unique k hk k' hk' hactive hactive' hne heq :=
    (h.free k' hk' hactive' k hk hne heq).1 hactive
  port_ne := h.port_ne
  handed packet k hk hactive htuple it hit := by
    obtain ⟨hmem, heq, hleast⟩ := (firstLoop_eq_some_iff h.ordered).mp hit
    refine h.ordered.eq_of_fd hmem hk (by_contra fun hne => ?_)
    have hlater := (h.free k hk hactive it hmem hne (heq.trans htuple)).2
    exact absurd (hleast k hk htuple.symm) (not_le.mpr hlater)

end TupleOk

/-! ### Exactly when -/

/-- A connection that has one owner is the oldest with its numbers. -/
theorem OneOwner.free (h : p.OneOwner) (hordered : Ordered p.list) (hk : k ∈ p.list.sockets)
    (hactive : k.Active) : Free p.list k.fd k.tuple := by
  intro it hit hne htuple
  refine ⟨fun hactive' => h.unique it hit k hk hactive' hactive hne htuple, ?_⟩
  -- a segment for these numbers
  let packet : TCPPacket :=
    ⟨k.desaddr, k.srcaddr, createTCPHeader k.desport k.srcport 0 0 0 0, []⟩
  have hsame : k.tuple = packet.tuple := rfl
  obtain ⟨found, hfound⟩ := firstLoop_isSome hk hsame
  obtain rfl := h.handed packet k hk hactive rfl found hfound
  have hleast := ((firstLoop_eq_some_iff hordered).mp hfound).2.2 it hit htuple
  exact lt_of_le_of_ne hleast hne.symm

theorem OneOwner.behind (h : p.OneOwner) (hordered : Ordered p.list) (hk : k ∈ p.list.sockets) :
    Behind p.list k.fd k.tuple :=
  fun _ hit hne htuple hactive => (h.free hordered hit hactive k hk hne.symm htuple.symm).2

theorem mem_update_self (hk : k ∈ list.sockets) (hfd : k'.fd = k.fd) :
    k' ∈ (list.update k').sockets :=
  mem_update.mpr (Or.inl ⟨rfl, hfd ▸ List.mem_map_of_mem hk⟩)

/-- Numbers that were taken have two owners. -/
theorem OneOwner.takesFree (h : p'.OneOwner) (hordered : Ordered p.list)
    (hs : step act p = some p') : TakesFree act p := by
  have hordered' := hordered.step rfl hs
  have hother : ∀ k' : Socket, ∀ it ∈ p.list.sockets, it.fd ≠ k'.fd →
      it ∈ (p.list.update k').sockets :=
    fun k' it hit hne => mem_update.mpr (Or.inr ⟨hit, hne⟩)
  cases moves_of_step hs with
  | missing fd hfd hnone =>
    cases act with
    | bindLab | connectLab =>
      obtain rfl := Option.some.inj hfd
      intro k hk
      rw [hnone] at hk
      cases hk
    | segment => cases hfd
    | _ => trivial
  | bindLab addr port k hk =>
    intro k₀ hk₀
    obtain rfl := Option.some.inj (hk.symm.trans hk₀)
    have hmem : LabNetstack.bindLab k addr port
        ∈ (p.list.update (LabNetstack.bindLab k addr port)).sockets :=
      mem_update_self (findSocket_some hk).1 rfl
    exact ⟨h.port_ne _ hmem,
      fun hactive it hit hne => h.free hordered' hmem hactive it (hother _ it hit hne) hne,
      fun _ it hit hne => h.behind hordered' hmem it (hother _ it hit hne) hne⟩
  | connectLab addr port next k k' hk hrole =>
    intro k₀ hk₀
    obtain rfl := Option.some.inj (hk.symm.trans hk₀)
    obtain ⟨hfd, htuple⟩ := connect_of_role hrole
    have hmem := mem_update_self (findSocket_some hk).1 hfd
    have hactive : k'.Active := Or.inl (congrArg Role.state hrole)
    refine ⟨fun hzero => ?_, ?_⟩
    · have hport := h.port_ne k' hmem (hfd ▸ List.mem_cons_self ..)
      have hsrcport : k'.srcport = if k.srcport = 0 then htons (getPort p.port).1 else k.srcport :=
        congrArg Tuple.srcport htuple
      rw [hsrcport, if_pos hzero] at hport
      exact (htons_getPort p.port).mp hport
    · rw [← htuple, ← hfd]
      exact fun it hit hne => h.free hordered' hmem hactive it (hother k' it hit hne) hne
  | segment readMem writeMem packet list hlist =>
    intro k hmatch hlisten hsyn
    rcases hlist with ⟨hnone, -⟩ | ⟨k₀, hmatch', hlist⟩
    · rw [hnone] at hmatch
      cases hmatch
    · obtain rfl := Option.some.inj (hmatch'.symm.trans hmatch)
      cases hlist with
      | ignored _ hnot => exact absurd hsyn hnot
      | handled _ _ hopen => exact absurd hlisten hopen
      | child child _ _ hrole =>
        obtain ⟨hfd, htuple⟩ := child_of_role hrole
        rw [← htuple, ← hfd]
        exact fun it hit hne => h.free hordered'
          (List.mem_append_right _ (List.mem_singleton_self _))
          (Or.inr (Or.inl (congrArg Role.state hrole))) it (List.mem_append_left _ hit) hne
  | socketLab | listenLab | acceptLab | writeLab | readLab | closeLab | leaveCloseLab | freeSocket
  | tick => trivial

/-- **A connection has one owner.** All along a run no two connections have the same numbers, no
other socket gets their segments and what `connectLab` has started has a port, exactly if `bindLab`,
`connectLab` and `TCPHandleListen` set numbers that are free and `getPort` does not run out of
ports. -/
theorem oneOwner_iff {device : IPAddr} {acts : List Action}
    (hrun : Run.run step acts (start device) = some p) :
    (∀ before after t, acts = before ++ after → Run.run step before (start device) = some t →
      t.OneOwner) ↔ Run.Meets step TakesFree acts (start device) := by
  have hstart : TupleOk (start device).list (start device).started :=
    ⟨ordered_start device, by simp [start], by simp [start], by simp [start]⟩
  exact (Run.meets_iff (a := fun _ _ => True) (p := fun p => TupleOk p.list p.started)
    (fun _ => TupleOk.oneOwner) (fun _ _ _ _ h hs => h.step hs)
    (fun _ _ _ _ h hs hq => hq.takesFree h.ordered hs) (Run.meets_of_forall fun _ _ => trivial)
    hstart hrun).symm

/-- A `SYN` from port 5 of the client 2 to port 80 of the address 3. -/
def syn : Action :=
  .segment (fun _ => 0) (fun _ => 0) ⟨2, 3, createTCPHeader 5 80 (-1) 0 ctSyn 0xffff, []⟩

/-- A server is bound to one of its addresses, and listens. -/
def bound : List Action :=
  [.socketLab (fun _ => 0) (fun _ => 0), .bindLab 123456789 1 80, .listenLab 123456789]

theorem oneOwner_iff_syn :
    (∀ before after t, bound ++ [syn] = before ++ after →
      Run.run step before (start 1) = some t → t.OneOwner) ↔
    Run.Meets step TakesFree (bound ++ [syn]) (start 1) :=
  oneOwner_iff (Option.some_get (x := Run.run step (bound ++ [syn]) (start 1)) (by decide)).symm

/-- The `SYN` arrives twice at another address of the server. -/
theorem not_oneOwner : ¬ ∀ (device : IPAddr) (acts : List Action) (p : Process),
    Run.run step acts (start device) = some p → p.OneOwner := by
  intro hclaim
  let p := (Run.run step (bound ++ [syn, syn]) (start 1)).get (by decide)
  have howner : p.OneOwner := hclaim 1 (bound ++ [syn, syn]) p (Option.some_get _).symm
  have htwo : ∃ k ∈ p.list.sockets, ∃ k' ∈ p.list.sockets, k.Active ∧ k'.Active ∧ k.fd ≠ k'.fd ∧
      k.tuple = k'.tuple := by
    decide
  obtain ⟨k, hk, k', hk', hactive, hactive', hne, heq⟩ := htwo
  exact howner.unique k hk k' hk' hactive hactive' hne heq

end Process

end LabNetstack
