import LabNetstack.Transport.Tuple

/-!
# A listener's child and its flow

The child that `TCPHandleListen` creates for a `SYN` is to answer from the address that the `SYN`
was sent to, and to get every later segment of its flow. It is given the address of the listener
where that has one; but `matchSocket` hands a `SYN` to whoever listens on the port, and does not
compare the address. On a host with two addresses the child can be one that nobody talks to.

What `matchSocket` finds later depends on what has become of the list. Other sockets may have been
freed, new ones stand behind the child, and those that were there keep their two ends unless they
are bound or connected again.

## Main results

* `SocketList.receives_iff` — which children answer for the right address and receive their flow
* `Process.later_run` — what becomes of the list along a run
* `Process.child_receives` — a child that receives its flow does so all along a run
-/

namespace LabNetstack

open RingMemory

namespace SocketList

variable {list list' : SocketList} {listener child child' k : Socket}
  {packet syn answer : TCPPacket} {readMem writeMem : Mem Byte}

/-- What may have become of a list, and of the child that was put behind it. -/
structure Later (list : SocketList) (child : Socket) (list' : SocketList) (child' : Socket) :
    Prop where
  identity : child'.identity = child.identity
  split : ∃ kept added, list'.sockets = kept ++ child' :: added ∧
    ∀ k ∈ kept, ∃ it ∈ list.sockets, k.identity = it.identity

/-- The child answers from the address that the `SYN` was sent to, and is found for every later
segment of the flow. -/
def Receives (list : SocketList) (syn : TCPPacket) (child : Socket) (answer : TCPPacket) : Prop :=
  answer.src = syn.dst ∧ ∀ list' child' packet, Later list child list' child' →
    packet.tuple = syn.tuple → list'.matchSocket packet = some child'

theorem later_refl (list : SocketList) (child : Socket) (nextFd : ℤ) :
    Later list child ⟨list.sockets ++ [child], nextFd⟩ child where
  identity := rfl
  split := ⟨list.sockets, [], rfl, fun k hk => ⟨k, hk, rfl⟩⟩

/-! ### The two loops -/

theorem firstLoop_eq (list : SocketList) (packet : TCPPacket) :
    list.firstLoop packet = list.sockets.find? fun it => it.tuple = packet.tuple := by
  rw [firstLoop]
  congr
  funext it
  simp only [Socket.tuple, TCPPacket.tuple, Tuple.mk.injEq, decide_eq_decide]
  constructor
  · rintro ⟨hdesport, hdst, hsrcport, hsrc⟩
    exact ⟨hdst.symm, hdesport.symm, hsrc.symm, hsrcport.symm⟩
  · rintro ⟨hdst, hdesport, hsrc, hsrcport⟩
    exact ⟨hdesport.symm, hdst.symm, hsrcport.symm, hsrc.symm⟩

theorem matchSocket_of_firstLoop (h : list.firstLoop packet = some k) :
    list.matchSocket packet = some k := by
  rw [firstLoop] at h
  rw [matchSocket, h, Option.some_or]

/-- Who stands at the place of the child is found, if nobody before it has the numbers. -/
theorem firstLoop_append {kept added : List Socket} {nextFd : ℤ}
    (hkept : ∀ k ∈ kept, k.tuple ≠ packet.tuple) (hchild : child.tuple = packet.tuple) :
    firstLoop ⟨kept ++ child :: added, nextFd⟩ packet = some child := by
  have hnone : (kept.find? fun it => it.tuple = packet.tuple) = none := by
    rw [List.find?_eq_none]
    intro k hk
    rw [decide_eq_true_eq]
    exact hkept k hk
  rw [firstLoop_eq, List.find?_append, hnone, Option.none_or, List.find?_cons_of_pos]
  exact decide_eq_true hchild

/-- A listener is found by the first loop if it is an end of the flow itself, and else by the
second, on its port. -/
theorem matchSocket_some (h : list.matchSocket packet = some k) :
    list.firstLoop packet = some k ∧ k.tuple = packet.tuple ∨
      (∀ it ∈ list.sockets, it.tuple ≠ packet.tuple) ∧
        packet.tcpHeader.desport = k.srcport := by
  cases hfirst : list.firstLoop packet with
  | some it =>
    obtain rfl := Option.some.inj ((matchSocket_of_firstLoop hfirst).symm.trans h)
    exact Or.inl ⟨rfl, (Process.firstLoop_some hfirst).2⟩
  | none =>
    obtain ⟨hport, hnone⟩ := Process.matchSocket_listen h hfirst
    exact Or.inr ⟨hnone, hport⟩

/-- Where the two ends of a child come from. -/
theorem listen_child (h : TCPHandleListen listener (allocSocket list.nextFd readMem writeMem) syn
    = some (child, answer)) :
    child.fd = list.nextFd ∧ child.tuple = {
        srcaddr := if listener.srcaddr = 0 then syn.dst else listener.srcaddr
        srcport := listener.srcport
        desaddr := syn.src
        desport := syn.tcpHeader.srcport } ∧
      answer.src = child.srcaddr ∧ child.state = .sysRecv := by
  simp only [TCPHandleListen] at h
  split_ifs at h
  all_goals
    obtain ⟨rfl, rfl⟩ := Prod.mk.inj (Option.some.inj h)
    exact ⟨rfl, by simp only [Socket.tuple, *]; rfl, rfl, rfl⟩

/-- **The child of a listener** answers for the right address and receives its flow exactly if the
listener is bound to no address or to that which the `SYN` was sent to, and is not itself connected
to where the `SYN` came from. -/
theorem receives_iff (hmatch : list.matchSocket syn = some listener)
    (hlisten : listener.state = .listen)
    (hchild : TCPHandleListen listener (allocSocket list.nextFd readMem writeMem) syn
      = some (child, answer)) :
    Receives list syn child answer ↔
      (listener.srcaddr = 0 ∨ listener.srcaddr = syn.dst) ∧ listener.tuple ≠ syn.tuple := by
  obtain ⟨-, htuple, hanswer, hstate⟩ := listen_child hchild
  have hsrcaddr : child.srcaddr = if listener.srcaddr = 0 then syn.dst else listener.srcaddr :=
    congrArg Tuple.srcaddr htuple
  constructor
  · rintro ⟨hsrc, hflow⟩
    refine ⟨?_, fun heq => ?_⟩
    · rw [hanswer, hsrcaddr] at hsrc
      split_ifs at hsrc with hzero
      · exact Or.inl hzero
      · exact Or.inr hsrc
    · -- then the listener stands before its child
      have hfound : list.firstLoop syn = some listener := by
        rcases matchSocket_some hmatch with ⟨hfirst, -⟩ | ⟨hnone, -⟩
        · exact hfirst
        · exact absurd heq (hnone listener (Process.mem_of_matchSocket hmatch))
      have hbefore : firstLoop ⟨list.sockets ++ [child], list.nextFd⟩ syn = some listener := by
        rw [firstLoop_eq] at hfound ⊢
        rw [List.find?_append, hfound, Option.some_or]
      have hsame := hflow _ child syn (later_refl list child list.nextFd) rfl
      rw [matchSocket_of_firstLoop hbefore] at hsame
      rw [← Option.some.inj hsame, hlisten] at hstate
      cases hstate
  · rintro ⟨haddr, hne⟩
    have hdst : child.srcaddr = syn.dst := by
      rw [hsrcaddr]
      split_ifs with hzero
      · rfl
      · exact haddr.resolve_left hzero
    refine ⟨hanswer.trans hdst, fun list' child' packet hlater hflow => ?_⟩
    obtain ⟨-, heq⟩ | ⟨hnone, hport⟩ := matchSocket_some hmatch
    · exact absurd heq hne
    · obtain ⟨kept, added, hsockets, hkept⟩ := hlater.split
      have hends : child.tuple = syn.tuple := by
        rw [htuple, ← hsrcaddr, hdst, ← hport]
        rfl
      have hfirst : firstLoop ⟨kept ++ child' :: added, list'.nextFd⟩ packet = some child' := by
        refine firstLoop_append (fun k hk => ?_) ?_
        · obtain ⟨it, hit, hid⟩ := hkept k hk
          rw [Socket.tuple_of_identity hid, hflow]
          exact hnone it hit
        · rw [Socket.tuple_of_identity hlater.identity, hends, hflow]
      rw [← hsockets] at hfirst
      exact matchSocket_of_firstLoop hfirst

/-- A server that is bound to the address 1 listens. -/
def bound : SocketList :=
  ((Run.run Process.step Process.bound (Process.start 1)).get (by decide)).list

/-- A `SYN` from port 5 of the client 2 to port 80 of another address of the server. -/
def elsewhere : TCPPacket := ⟨2, 3, createTCPHeader 5 80 (-1) 0 ctSyn 0xffff, []⟩

theorem receives_iff_elsewhere : ∃ listener child : Socket, ∃ answer : TCPPacket,
    bound.matchSocket elsewhere = some listener ∧ (Receives bound elsewhere child answer ↔
      (listener.srcaddr = 0 ∨ listener.srcaddr = elsewhere.dst) ∧
        listener.tuple ≠ elsewhere.tuple) := by
  let listener := (bound.matchSocket elsewhere).get (by decide)
  let handed := TCPHandleListen listener (allocSocket bound.nextFd (fun _ => 0) (fun _ => 0))
    elsewhere
  have hmatch : bound.matchSocket elsewhere = some listener := (Option.some_get _).symm
  have hchild : handed = some (handed.get (by decide)) := (Option.some_get _).symm
  exact ⟨listener, _, _, hmatch, receives_iff hmatch (by decide) hchild⟩

/-- The answer comes from the address that the listener is bound to. -/
theorem not_receives : ¬ ∀ (list : SocketList) (syn : TCPPacket) (listener child : Socket)
    (answer : TCPPacket), list.matchSocket syn = some listener → listener.state = .listen →
      TCPHandleListen listener (allocSocket list.nextFd (fun _ => 0) (fun _ => 0)) syn
        = some (child, answer) → Receives list syn child answer := by
  intro hclaim
  let listener := (bound.matchSocket elsewhere).get (by decide)
  let handed := TCPHandleListen listener (allocSocket bound.nextFd (fun _ => 0) (fun _ => 0))
    elsewhere
  have hmatch : bound.matchSocket elsewhere = some listener := (Option.some_get _).symm
  have hchild : handed = some (handed.get (by decide)) := (Option.some_get _).symm
  have hsrc := (hclaim bound elsewhere listener _ _ hmatch (by decide) hchild).1
  exact absurd hsrc (by decide)

end SocketList

/-! ### Along a run -/

namespace Process

open SocketList

variable {p p' : Process} {act : Action} {list list' : SocketList}
  {listener child child' k : Socket} {syn packet answer : TCPPacket} {readMem writeMem : Mem Byte}

/-- The child is not freed, and neither it nor what stands before it is bound or connected. -/
def Undisturbed (fd : ℤ) : Action → Process → Prop
  | .bindLab fd' _ _, _ | .connectLab fd' _ _, _ => fd < fd'
  | .freeSocket fd', _ => fd' ≠ fd
  | _, _ => True

section Later

variable (hlater : Later list child list' child')

include hlater

/-- A socket of the list changes. -/
theorem later_update (hord : Ordered list) (hfd : child.fd = list.nextFd)
    (hk : child.fd < k.fd ∨ ∃ it ∈ list'.sockets, k.fd = it.fd ∧ k.identity = it.identity)
    (hord' : Ordered list') :
    ∃ child'', Later list child (list'.update k) child'' := by
  obtain ⟨kept, added, hsockets, hkept⟩ := hlater.split
  have hsame : ∀ it ∈ list'.sockets, it.fd = k.fd → it.fd ≤ child.fd →
      k.identity = it.identity := by
    rintro it hit heq hle
    rcases hk with hlt | ⟨it', hit', hfd', hid⟩
    · exact absurd (heq ▸ hle) (not_le.mpr hlt)
    · rw [hord'.eq_of_fd hit hit' (heq.trans hfd')]
      exact hid
  let f := fun it : Socket => if it.fd = k.fd then k else it
  have hf : ∀ it ∈ list'.sockets, it.fd ≤ child.fd → (f it).identity = it.identity := by
    intro it hit hle
    by_cases heq : it.fd = k.fd
    · simp only [f, if_pos heq]
      exact hsame it hit heq hle
    · simp only [f, if_neg heq]
  have hchild' : child'.fd = child.fd := congrArg Identity.fd hlater.identity
  refine ⟨f child', ?_, kept.map f, added.map f, ?_, ?_⟩
  · rw [hf child' (by rw [hsockets]; simp) hchild'.le, hlater.identity]
  · rw [SocketList.update, hsockets, List.map_append, List.map_cons]
  · intro it hit
    obtain ⟨it', hit', rfl⟩ := List.mem_map.mp hit
    obtain ⟨old, hold, hid⟩ := hkept it' hit'
    refine ⟨old, hold, ?_⟩
    have hlt : it'.fd < child.fd := by
      rw [show it'.fd = old.fd from congrArg Identity.fd hid, hfd]
      exact hord.lt old hold
    rw [hf it' (by rw [hsockets]; exact List.mem_append_left _ hit') hlt.le, hid]

/-- A socket is added. -/
theorem later_add (nextFd : ℤ) : Later list child ⟨list'.sockets ++ [k], nextFd⟩ child' := by
  obtain ⟨kept, added, hsockets, hkept⟩ := hlater.split
  refine ⟨hlater.identity, kept, added ++ [k], ?_, hkept⟩
  rw [hsockets, List.append_assoc, List.cons_append]

/-- Another socket is freed. -/
theorem later_freeSocket {fd : ℤ} (hfd : fd ≠ child.fd) :
    Later list child (list'.freeSocket fd) child' := by
  obtain ⟨kept, added, hsockets, hkept⟩ := hlater.split
  have hne : ¬ child'.fd = fd := by
    rw [show child'.fd = child.fd from congrArg Identity.fd hlater.identity]
    exact hfd.symm
  refine ⟨hlater.identity, ?_⟩
  rw [SocketList.freeSocket, hsockets, List.eraseP_append]
  split
  · exact ⟨_, added, rfl, fun k hk => hkept k (List.mem_of_mem_eraseP hk)⟩
  · rw [List.eraseP_cons_of_neg (by simpa using hne)]
    exact ⟨kept, _, rfl, hkept⟩

/-- The timer. -/
theorem later_tick (nowtime : ℕ) :
    Later list child (list'.asyncSendTCPPacket nowtime).1
      (asyncSendTCPPacket nowtime child').1 := by
  obtain ⟨kept, added, hsockets, hkept⟩ := hlater.split
  have hid := fun k => (identity_asyncSendTCPPacket nowtime k).1
  refine ⟨(hid child').trans hlater.identity,
    kept.map fun k => (asyncSendTCPPacket nowtime k).1,
    added.map fun k => (asyncSendTCPPacket nowtime k).1, ?_, ?_⟩
  · simp only [SocketList.asyncSendTCPPacket, hsockets, List.map_append, List.map_cons,
      List.map_map, Function.comp_def]
  · intro it hit
    obtain ⟨it', hit', rfl⟩ := List.mem_map.mp hit
    obtain ⟨old, hold, heq⟩ := hkept it' hit'
    exact ⟨old, hold, (hid it').trans heq⟩

end Later

/-- A step that does not disturb the child. -/
theorem later_step (hlater : Later list child p.list child') (hord : Ordered list)
    (hord' : Ordered p.list) (hfd : child.fd = list.nextFd) (hc : Undisturbed child.fd act p)
    (hs : step act p = some p') : ∃ child'', Later list child p'.list child'' := by
  have hsame : ∀ k k' : Socket, k ∈ p.list.sockets → k'.identity = k.identity →
      ∃ child'', Later list child (p.list.update k') child'' := by
    intro k k' hk hid
    exact later_update hlater hord hfd (Or.inr ⟨k, hk, congrArg Identity.fd hid, hid⟩) hord'
  have hrole : ∀ {k k' : Socket}, p.list.findSocket k.fd = some k → k'.role = k.role →
      ∃ child'', Later list child (p.list.update k') child'' :=
    fun hk hrole => hsame _ _ (findSocket_some hk).1 (congrArg Role.toIdentity hrole)
  cases moves_of_step hs with
  | missing | leaveCloseLab => exact ⟨child', hlater⟩
  | socketLab => exact ⟨child', later_add hlater _⟩
  | bindLab addr port k hk => exact later_update hlater hord hfd (Or.inl hc) hord'
  | listenLab k hk => exact hsame k _ (findSocket_some hk).1 rfl
  | connectLab addr port next k k' hk hrole =>
    have hlt : child.fd < k'.fd := by
      rw [fd_of_role hrole]
      exact hc
    exact later_update hlater hord hfd (Or.inl hlt) hord'
  | acceptLab fd k hfd hk => exact hsame k _ (acceptable_some hk).1 rfl
  | writeLab buf k k' hk hsock => exact hrole hk hsock
  | readLab nbyte k k' hk hsock => exact hrole hk hsock
  | closeLab k k' hk hsock => exact hrole hk hsock
  | freeSocket fd hmem => exact ⟨child', later_freeSocket hlater hc⟩
  | tick nowtime => exact ⟨_, later_tick hlater nowtime⟩
  | segment readMem writeMem packet list' hlist =>
    rcases hlist with ⟨-, rfl⟩ | ⟨k, hmatch, hlist⟩
    · exact ⟨child', hlater⟩
    · cases hlist with
      | ignored => exact ⟨child', hlater⟩
      | child k hlisten hsyn hrole => exact ⟨child', later_add hlater _⟩
      | handled k' out hopen hrun =>
        exact hsame k k' (mem_of_matchSocket hmatch) (identity_handleTCPMain hrun).1

/-- **A run** that does not disturb the child. -/
theorem later_run {acts : List Action} (hlater : Later list child p.list child')
    (hord : Ordered list) (hord' : Ordered p.list) (hfd : child.fd = list.nextFd)
    (hc : Run.Meets step (Undisturbed child.fd) acts p) (hrun : Run.run step acts p = some p') :
    ∃ child'', Later list child p'.list child'' := by
  refine (Run.invariant_of_meets
    (p := fun p => Ordered p.list ∧ ∃ child', Later list child p.list child')
    (fun act t t' hc ⟨hord', child', hlater⟩ hs => ?_) ⟨hord', child', hlater⟩ hc hrun).2
  exact ⟨hord'.step rfl hs, later_step hlater hord hord' hfd hc hs⟩

/-- A child that receives its flow still does when others have come and gone. -/
theorem child_receives {acts : List Action} (hord : Ordered list)
    (hlist : p.list = ⟨list.sockets ++ [child], list.nextFd + 1⟩) (hfd : child.fd = list.nextFd)
    (hreceives : Receives list syn child answer)
    (hc : Run.Meets step (Undisturbed child.fd) acts p) (hrun : Run.run step acts p = some p')
    (hpacket : packet.tuple = syn.tuple) :
    ∃ child', p'.list.matchSocket packet = some child' ∧ child'.fd = child.fd := by
  have hlater : Later list child p.list child := hlist ▸ later_refl list child _
  have hord' : Ordered p.list := hlist ▸ hord.add hfd
  obtain ⟨child', hlater'⟩ := later_run hlater hord hord' hfd hc hrun
  exact ⟨child', hreceives.2 _ _ _ hlater' hpacket, congrArg Identity.fd hlater'.identity⟩

end Process

end LabNetstack
