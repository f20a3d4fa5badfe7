import LabNetstack.Transport.Tuple

/-!
# A host above its network layer

`Process` says what becomes of the sockets of a host and leaves out what they send. Here it is put
back, for every action: the segments that leave through `sendTCPPacket`, in order. Next to them
stand the bytes that the calls on each descriptor report as written and as read.

## Main results

* `Process.sent_from` — what is sent bears the numbers of one of the sockets
* `Process.mem_step` — an action that is not about a socket leaves it as it is
-/

namespace LabNetstack

open RingMemory

namespace Process

/-- The segments that leave through `sendTCPPacket`. -/
def sent (p : Process) : Action → List TCPPacket
  | .connectLab fd addr port =>
    match p.list.findSocket fd with
    | none => []
    | some socket =>
      let (res, _) := if socket.srcport = 0 then getPort p.port else (0, p.port)
      [(LabNetstack.connectLab socket res p.device addr port).2]
  | .tick nowtime => (p.list.asyncSendTCPPacket nowtime).2
  | .segment readMem writeMem packet =>
    match p.list.handleTCPMain readMem writeMem packet with
    | none => []
    | some (_, out) => out
  | _ => []

/-- The bytes that the call reports as written to the descriptor. -/
def wrote (p : Process) (fd : ℤ) : Action → List Byte
  | .writeLab fd' buf =>
    if fd' = fd then
      match (p.list.findSocket fd).bind fun socket => LabNetstack.writeLab socket buf with
      | none => []
      | some (n, _) => buf.take n.toNat
    else []
  | _ => []

/-- The bytes that the call returns from the descriptor. -/
def got (p : Process) (fd : ℤ) : Action → List Byte
  | .readLab fd' nbyte =>
    if fd' = fd then
      match (p.list.findSocket fd).bind fun socket => LabNetstack.readLab socket nbyte with
      | none => []
      | some (bytes, _) => bytes
    else []
  | _ => []

end Process

/-- The numbers of a connection, seen from the other end. -/
def Tuple.swap (t : Tuple) : Tuple := ⟨t.desaddr, t.desport, t.srcaddr, t.srcport⟩

@[simp] theorem Tuple.swap_swap (t : Tuple) : t.swap.swap = t := rfl

theorem TCPPacket.From.tuple {packet : TCPPacket} {k : Socket} (h : packet.From k.identity) :
    packet.tuple = k.tuple.swap := by
  obtain ⟨hsrc, hdst, hsrcport, hdesport⟩ := h
  simp only [TCPPacket.tuple, hsrc, hdst, hsrcport, hdesport]
  rfl

namespace Process

variable {p p' : Process} {act : Action} {list list' : SocketList} {k k' : Socket}
  {packet : TCPPacket} {out : List TCPPacket} {readMem writeMem : Mem Byte}

theorem Ordered.findSocket (h : Ordered list) (hk : k ∈ list.sockets) :
    list.findSocket k.fd = some k := by
  have hsome : (list.findSocket k.fd).isSome :=
    SocketList.isSome_findSocket.mpr (List.mem_map_of_mem hk)
  obtain ⟨it, hit⟩ := Option.isSome_iff_exists.mp hsome
  obtain ⟨hmem, hfd⟩ := findSocket_some hit
  rw [hit, h.eq_of_fd hmem hk hfd]

/-! ### Whose numbers a segment bears -/

/-- What `handleTCPMain` does to the list, and what it answers. -/
theorem handleTCPMain_cases
    (h : list.handleTCPMain readMem writeMem packet = some (list', out)) :
    (list' = list ∧ out = []) ∨
      (∃ it child answer, TCPHandleListen it (allocSocket list.nextFd readMem writeMem) packet =
          some (child, answer) ∧
        list' = ⟨list.sockets ++ [child], list.nextFd + 1⟩ ∧ out = [answer]) ∨
      ∃ it it', list.matchSocket packet = some it ∧ it.state ≠ .listen ∧
        LabNetstack.handleTCPMain it packet = some (it', out) ∧ list' = list.update it' := by
  rw [SocketList.handleTCPMain] at h
  split at h
  · obtain ⟨rfl, rfl⟩ := Prod.mk.inj (Option.some.inj h)
    exact Or.inl ⟨rfl, rfl⟩
  next it hmatch =>
    split at h
    next hlisten =>
      split at h
      · obtain ⟨rfl, rfl⟩ := Prod.mk.inj (Option.some.inj h)
        exact Or.inl ⟨rfl, rfl⟩
      next child answer haccept =>
        obtain ⟨rfl, rfl⟩ := Prod.mk.inj (Option.some.inj h)
        exact Or.inr (Or.inl ⟨it, child, answer, haccept, rfl, rfl⟩)
    next hopen =>
      obtain ⟨⟨it', out'⟩, hrun, heq⟩ := Option.map_eq_some_iff.mp h
      obtain ⟨rfl, rfl⟩ := Prod.mk.inj heq
      exact Or.inr (Or.inr ⟨it, it', hmatch, hopen, hrun, rfl⟩)

/-- What `TCPHandleListen` fills in. -/
theorem TCPHandleListen_eq_some {it new child : Socket} {answer : TCPPacket}
    (h : TCPHandleListen it new packet = some (child, answer)) :
    packet.IsSyn ∧ child = { new with
        desport := packet.tcpHeader.srcport
        desaddr := packet.src
        srcport := it.srcport
        srcaddr := if it.srcaddr = 0 then packet.dst else it.srcaddr
        seqNum := -1
        ackNum := ntohl packet.tcpHeader.seqNum + 1
        clstate := 0
        state := .sysRecv
        parentListenFd := it.fd } ∧
      answer = sendTCPPacket (createTCPHeader child.srcport child.desport (-1) child.ackNum
        (ctSyn ||| ctAck) 0xffff) child [] := by
  by_cases hsyn : packet.tcpHeader.ctrl &&& ctSyn ≠ 0
  · rw [TCPHandleListen, if_pos hsyn] at h
    obtain ⟨rfl, rfl⟩ := Prod.mk.inj (Option.some.inj h)
    exact ⟨hsyn, rfl, rfl⟩
  · rw [TCPHandleListen, if_neg hsyn] at h
    cases h

/-- The answers to a segment come from the socket that it is for, or from the one it creates. -/
theorem handleTCPMain_from
    (h : list.handleTCPMain readMem writeMem packet = some (list', out)) {answer : TCPPacket}
    (hanswer : answer ∈ out) : ∃ k ∈ list'.sockets, answer.From k.identity ∧
      (k.fd = list.nextFd ∨ ∃ it, list.matchSocket packet = some it ∧ k.fd = it.fd) := by
  rcases handleTCPMain_cases h with ⟨-, rfl⟩ | ⟨it, child, synAck, haccept, rfl, rfl⟩ |
    ⟨it, it', hmatch, hopen, hrun, rfl⟩
  · cases hanswer
  · obtain ⟨-, rfl, rfl⟩ := TCPHandleListen_eq_some haccept
    obtain rfl := List.mem_singleton.mp hanswer
    exact ⟨_, List.mem_append_right _ (List.mem_singleton_self _), ⟨rfl, rfl, rfl, rfl⟩,
      Or.inl rfl⟩
  · obtain ⟨hid, hout⟩ := identity_handleTCPMain hrun
    have hfd : it'.fd = it.fd := congrArg Identity.fd hid
    exact ⟨it', mem_update_self (mem_of_matchSocket hmatch) hfd,
      hid ▸ (hout answer hanswer).toFrom, Or.inr ⟨it, hmatch, hfd⟩⟩

/-- **What is sent bears the numbers of a socket**, as they are after the step. -/
theorem sent_from (hs : step act p = some p') (hpacket : packet ∈ p.sent act) :
    ∃ k ∈ p'.list.sockets, packet.From k.identity ∧ ∀ fd ∈ act.fd, k.fd = fd := by
  cases act with
  | connectLab fd addr port =>
    simp only [sent] at hpacket
    split at hpacket
    · cases hpacket
    next k hk =>
      obtain rfl := List.mem_singleton.mp hpacket
      obtain ⟨hmem, rfl⟩ := findSocket_some hk
      rw [step, onSocket, hk] at hs
      obtain rfl := Option.some.inj hs
      refine ⟨_, mem_update_self hmem rfl, ⟨rfl, rfl, rfl, rfl⟩, fun fd hfd => ?_⟩
      exact Option.some.inj hfd
  | tick nowtime =>
    obtain rfl := Option.some.inj hs
    simp only [sent, SocketList.asyncSendTCPPacket, List.flatMap_map, List.mem_flatMap] at hpacket
    obtain ⟨k, hk, hpacket⟩ := hpacket
    obtain ⟨hid, hout⟩ := identity_asyncSendTCPPacket nowtime k
    refine ⟨_, mem_asyncSendTCPPacket.mpr ⟨k, hk, rfl⟩, hid ▸ (hout packet hpacket).toFrom, ?_⟩
    intro fd hfd
    cases hfd
  | segment readMem writeMem packet' =>
    obtain ⟨⟨list, out⟩, hlist, rfl⟩ := Option.map_eq_some_iff.mp hs
    simp only [sent, hlist] at hpacket
    obtain ⟨k, hk, hfrom, -⟩ := handleTCPMain_from hlist hpacket
    refine ⟨k, hk, hfrom, fun fd hfd => ?_⟩
    cases hfd
  | _ => cases hpacket

/-- A segment for a socket that does not listen bears its numbers. -/
theorem tuple_of_matchSocket (h : list.matchSocket packet = some k) (hopen : k.state ≠ .listen) :
    packet.tuple = k.tuple := by
  rcases Option.or_eq_some_iff.mp h with hfirst | ⟨-, hsecond⟩
  · exact (firstLoop_some hfirst).2.symm
  · have hfound := List.find?_some hsecond
    simp only [decide_eq_true_eq] at hfound
    exact absurd hfound.2 hopen

/-- What comes of a segment for a socket that does not listen. -/
theorem segment_of_match (h : p.list.matchSocket packet = some k) (hopen : k.state ≠ .listen)
    (hmain : LabNetstack.handleTCPMain k packet = some (k', out))
    (hs : step (.segment readMem writeMem packet) p = some p') :
    p'.list = p.list.update k' ∧ p.sent (.segment readMem writeMem packet) = out := by
  have hlist : p.list.handleTCPMain readMem writeMem packet = some (p.list.update k', out) := by
    simp only [SocketList.handleTCPMain, h, hmain, Option.map_some]
  rw [step, hlist, Option.map_some, Option.some.injEq] at hs
  refine ⟨(congrArg Process.list hs).symm, ?_⟩
  simp only [sent, hlist]

/-- A socket that a segment is not for stays as it is. -/
theorem mem_segment (hs : step (.segment readMem writeMem packet) p = some p')
    (hk : k ∈ p.list.sockets) (hother : ∀ it, p.list.matchSocket packet = some it → it.fd ≠ k.fd) :
    k ∈ p'.list.sockets := by
  obtain ⟨⟨list, out⟩, hlist, rfl⟩ := Option.map_eq_some_iff.mp hs
  change k ∈ list.sockets
  rcases handleTCPMain_handled hlist with ⟨-, rfl⟩ | ⟨it, hmatch, hhandled⟩
  · exact hk
  · cases hhandled with
    | ignored => exact hk
    | child => exact List.mem_append_left _ hk
    | handled it' out hopen hrun =>
      have hit' : it'.fd = it.fd := congrArg Identity.fd (identity_handleTCPMain hrun).1
      refine mem_update.mpr (Or.inr ⟨hk, fun heq => hother it hmatch ?_⟩)
      rw [← hit', ← heq]

/-! ### Descriptors -/

/-- The sockets after a step have the descriptors of those before it; but `socketLab` and
`TCPHandleListen` create new ones. -/
theorem fd_or_new (hs : step act p = some p') (hk : k ∈ p'.list.sockets) :
    k.fd ∈ p.list.sockets.map Socket.fd ∨
      (∃ readBuf writeBuf, k = allocSocket p.list.nextFd readBuf writeBuf) ∨
      ∃ readMem writeMem packet, act = .segment readMem writeMem packet := by
  have hupdate : ∀ it, k ∈ (p.list.update it).sockets → k.fd ∈ p.list.sockets.map Socket.fd := by
    intro it hk
    rw [← SocketList.fds_update p.list it]
    exact List.mem_map_of_mem hk
  cases moves_of_step hs with
  | missing | leaveCloseLab => exact Or.inl (List.mem_map_of_mem hk)
  | socketLab readMem writeMem =>
    rcases List.mem_append.mp hk with hold | hnew
    · exact Or.inl (List.mem_map_of_mem hold)
    · exact Or.inr (Or.inl ⟨readMem, writeMem, List.mem_singleton.mp hnew⟩)
  | bindLab | listenLab | connectLab | acceptLab | writeLab | readLab | closeLab =>
    exact Or.inl (hupdate _ hk)
  | freeSocket fd hfd => exact Or.inl (List.mem_map_of_mem (mem_of_mem_freeSocket hk))
  | tick nowtime =>
    refine Or.inl ?_
    rw [← SocketList.fds_asyncSendTCPPacket p.list nowtime]
    exact List.mem_map_of_mem hk
  | segment readMem writeMem packet => exact Or.inr (Or.inr ⟨readMem, writeMem, packet, rfl⟩)

/-- A new descriptor is the next one. -/
theorem fd_of_step (hs : step act p = some p') (hk : k ∈ p'.list.sockets) :
    k.fd ∈ p.list.sockets.map Socket.fd ∨ k.fd = p.list.nextFd := by
  rcases fd_or_new hs hk with hold | ⟨readBuf, writeBuf, rfl⟩ | ⟨readMem, writeMem, packet, rfl⟩
  · exact Or.inl hold
  · exact Or.inr rfl
  · obtain ⟨⟨list, out⟩, hlist, rfl⟩ := Option.map_eq_some_iff.mp hs
    have hk : k ∈ list.sockets := hk
    rcases handleTCPMain_cases hlist with ⟨rfl, -⟩ | ⟨it, child, answer, haccept, rfl, -⟩ |
      ⟨it, it', -, -, -, rfl⟩
    · exact Or.inl (List.mem_map_of_mem hk)
    · rcases List.mem_append.mp hk with hold | hnew
      · exact Or.inl (List.mem_map_of_mem hold)
      · obtain ⟨-, rfl, -⟩ := TCPHandleListen_eq_some haccept
        exact Or.inr (congrArg Socket.fd (List.mem_singleton.mp hnew))
    · rw [← SocketList.fds_update p.list it']
      exact Or.inl (List.mem_map_of_mem hk)

theorem nextFd_le (hs : step act p = some p') : p.list.nextFd ≤ p'.list.nextFd := by
  cases moves_of_step hs with
  | socketLab => exact (lt_add_one _).le
  | segment readMem writeMem packet list hlist =>
    rcases hlist with ⟨-, rfl⟩ | ⟨it, -, hlist⟩
    · exact le_rfl
    · cases hlist with
      | child => exact (lt_add_one _).le
      | ignored | handled => exact le_rfl
  | missing | bindLab | listenLab | connectLab | acceptLab | writeLab | readLab | closeLab
  | leaveCloseLab | freeSocket | tick => exact le_rfl

/-- Who is about to free a socket has seen that it may. -/
theorem closing_of_step {fd : ℤ} (hs : step act p = some p') (hfd : fd ∈ p'.closing) :
    fd ∈ p.closing ∨ ∃ k, p.list.findSocket fd = some k ∧ closeLabExits k = true := by
  cases moves_of_step hs with
  | leaveCloseLab k hk hcall hexits =>
    rcases List.mem_cons.mp hfd with rfl | hold
    · exact Or.inr ⟨k, hk, hexits⟩
    · exact Or.inl hold
  | freeSocket fd' hfd' => exact Or.inl (List.mem_of_mem_erase hfd)
  | missing | socketLab | bindLab | listenLab | connectLab | acceptLab | writeLab | readLab
  | closeLab | tick | segment => exact Or.inl hfd

/-- What `acceptLab` returns has been established. -/
theorem returned_of_step {fd : ℤ} (hs : step act p = some p')
    (hfd : fd ∈ p'.returned.map Prod.snd) :
    fd ∈ p.returned.map Prod.snd ∨
      ∃ k ∈ p.list.sockets, k.fd = fd ∧ k.state = .establisted := by
  cases moves_of_step hs with
  | acceptLab fd' k hfd' hk =>
    rw [List.map_append] at hfd
    rcases List.mem_append.mp hfd with hold | hnew
    · exact Or.inl hold
    · obtain ⟨hmem, -, hstate⟩ := acceptable_some hk
      exact Or.inr ⟨k, hmem, (List.mem_singleton.mp hnew).symm, hstate⟩
  | missing | socketLab | bindLab | listenLab | connectLab | writeLab | readLab | closeLab
  | leaveCloseLab | freeSocket | tick | segment => exact Or.inl hfd

/-- No socket has the descriptor, and none will get it. -/
def Gone (fd : ℤ) (list : SocketList) : Prop :=
  (∀ k ∈ list.sockets, k.fd ≠ fd) ∧ fd < list.nextFd

theorem Gone.step {fd : ℤ} (h : Gone fd p.list) (hs : Process.step act p = some p') :
    Gone fd p'.list := by
  refine ⟨fun k hk hfd => ?_, h.2.trans_le (nextFd_le hs)⟩
  rcases fd_of_step hs hk with hold | hnew
  · obtain ⟨it, hit, heq⟩ := List.mem_map.mp hold
    exact h.1 it hit (heq.trans hfd)
  · exact h.2.ne (hfd.symm.trans hnew)

/-- So it is once the socket has been freed. -/
theorem gone_freeSocket (h : Ordered list) (hk : k ∈ list.sockets) :
    Gone k.fd (list.freeSocket k.fd) := by
  refine ⟨fun it hit hfd => ?_, h.lt k hk⟩
  obtain ⟨k', old, new, hold, hfd', hsockets, herase⟩ :=
    List.exists_of_eraseP (p := fun it : Socket => it.fd = k.fd) hk (decide_eq_true rfl)
  have hit : it ∈ old ++ new := herase ▸ hit
  have hsorted := h.sorted
  rw [hsockets, List.map_append, List.map_cons, List.pairwise_append,
    List.pairwise_cons] at hsorted
  rcases List.mem_append.mp hit with hit | hit
  · exact hold it hit (decide_eq_true hfd)
  · have hlt := hsorted.2.1.1 it.fd (List.mem_map_of_mem hit)
    exact hlt.ne ((of_decide_eq_true hfd').trans hfd.symm)

/-! ### Nobody there -/

theorem findSocket_eq_none {fd : ℤ} (h : ∀ k ∈ list.sockets, k.fd ≠ fd) :
    list.findSocket fd = none := by
  rw [SocketList.findSocket, List.find?_eq_none]
  intro k hk
  simpa using h k hk

theorem wrote_of_none {fd : ℤ} (h : p.list.findSocket fd = none) (act : Action) :
    p.wrote fd act = [] := by
  cases act with
  | writeLab fd' buf =>
    rw [wrote]
    split_ifs
    · rw [h, Option.bind_none]
    · rfl
  | _ => rfl

theorem got_of_none {fd : ℤ} (h : p.list.findSocket fd = none) (act : Action) :
    p.got fd act = [] := by
  cases act with
  | readLab fd' nbyte =>
    rw [got]
    split_ifs
    · rw [h, Option.bind_none]
    · rfl
  | _ => rfl

/-! ### A call that passes another descriptor, or none -/

theorem wrote_of_fd {fd : ℤ} (h : fd ∉ act.fd) : p.wrote fd act = [] := by
  cases act with
  | writeLab fd' buf => exact if_neg fun heq => h (congrArg some heq)
  | _ => rfl

theorem got_of_fd {fd : ℤ} (h : fd ∉ act.fd) : p.got fd act = [] := by
  cases act with
  | readLab fd' nbyte => exact if_neg fun heq => h (congrArg some heq)
  | _ => rfl

/-! ### One socket -/

/-- The action is not about the socket with this descriptor. What `acceptLab` changes is not read
again, once a connection has been accepted. -/
def Action.Spares (fd : ℤ) : Action → Prop
  | .bindLab fd' _ _ | .listenLab fd' | .connectLab fd' _ _ | .writeLab fd' _ | .readLab fd' _
  | .closeLab fd' | .freeSocket fd' => fd' ≠ fd
  | .socketLab _ _ | .acceptLab _ | .leaveCloseLab _ => True
  | .tick _ | .segment _ _ _ => False

theorem Action.Spares.wrote {fd : ℤ} (hact : act.Spares fd) : p.wrote fd act = [] := by
  cases act with
  | writeLab fd' buf => exact if_neg hact
  | _ => rfl

theorem Action.Spares.got {fd : ℤ} (hact : act.Spares fd) : p.got fd act = [] := by
  cases act with
  | readLab fd' nbyte => exact if_neg hact
  | _ => rfl

/-- **A socket that an action is not about stays as it is**, but for its place in the queue of a
listener. -/
theorem mem_step (h : Ordered p.list) (hs : step act p = some p') (hk : k ∈ p.list.sockets)
    (hact : act.Spares k.fd) :
    k ∈ p'.list.sockets ∨ { k with parentListenFd := 0 } ∈ p'.list.sockets := by
  have hupdate : ∀ k' : Socket, k'.fd ≠ k.fd → k ∈ (p.list.update k').sockets :=
    fun k' hne => mem_update.mpr (Or.inr ⟨hk, hne.symm⟩)
  cases moves_of_step hs with
  | missing | leaveCloseLab => exact Or.inl hk
  | socketLab => exact Or.inl (List.mem_append_left _ hk)
  | bindLab | listenLab => exact Or.inl (hupdate _ hact)
  | connectLab addr port next k₀ k' hk₀ hrole =>
    exact Or.inl (hupdate k' (fun heq => hact ((fd_of_role hrole).symm.trans heq)))
  | acceptLab fd k₀ hfd hk₀ =>
    by_cases heq : k₀.fd = k.fd
    · obtain rfl := h.eq_of_fd (acceptable_some hk₀).1 hk heq
      exact Or.inr (mem_update_self hk rfl)
    · exact Or.inl (hupdate _ heq)
  | writeLab buf k₀ k' hk₀ hrole | readLab nbyte k₀ k' hk₀ hrole | closeLab k₀ k' hk₀ hrole =>
    exact Or.inl (hupdate k' (fun heq => hact ((fd_of_role hrole).symm.trans heq)))
  | freeSocket fd hfd => exact Or.inl (mem_freeSocket hk (Ne.symm hact))
  | tick | segment => exact hact.elim

end Process

/-! ### The host -/

/-- What a host is above its network layer: its sockets, all that they have sent so far, and the
bytes that have been written to every descriptor and read from it. -/
structure Upper where
  process : Process
  sent : List TCPPacket
  written : ℤ → List Byte
  returned : ℤ → List Byte

namespace Upper

def start (device : IPAddr) : Upper := ⟨Process.start device, [], fun _ => [], fun _ => []⟩

def step (action : Process.Action) (upper : Upper) : Option Upper :=
  (Process.step action upper.process).map fun process => {
    process := process
    sent := upper.sent ++ upper.process.sent action
    written := fun fd => upper.written fd ++ upper.process.wrote fd action
    returned := fun fd => upper.returned fd ++ upper.process.got fd action }

variable {upper upper' : Upper} {action : Process.Action}

theorem step_process (h : upper.step action = some upper') :
    Process.step action upper.process = some upper'.process := by
  obtain ⟨process, hprocess, rfl⟩ := Option.map_eq_some_iff.mp h
  exact hprocess

theorem step_sent (h : upper.step action = some upper') :
    upper'.sent = upper.sent ++ upper.process.sent action := by
  obtain ⟨process, hprocess, rfl⟩ := Option.map_eq_some_iff.mp h
  rfl

theorem step_written (h : upper.step action = some upper') (fd : ℤ) :
    upper'.written fd = upper.written fd ++ upper.process.wrote fd action := by
  obtain ⟨process, hprocess, rfl⟩ := Option.map_eq_some_iff.mp h
  rfl

theorem step_returned (h : upper.step action = some upper') (fd : ℤ) :
    upper'.returned fd = upper.returned fd ++ upper.process.got fd action := by
  obtain ⟨process, hprocess, rfl⟩ := Option.map_eq_some_iff.mp h
  rfl

end Upper

end LabNetstack
