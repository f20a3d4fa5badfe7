import LabNetstack.Transport.Outflow
import LabNetstack.Transport.SocketList

/-!
# A process and its sockets

The application's calls on all the sockets of a process, in any order, with the loop thread: any
segment may arrive at any time, so what the process sends is left out. A call is one step, since
`findSocket` hands it the lock of the socket; `closeLab` is three, and the scan of `acceptLab`,
which holds the lock of the list, is one when it finds a socket. Calls whose arguments are refused
change nothing and are left out.

## Main results

* `Process.moves_of_step` — all that a step can do
* `Process.Ordered.step` — the descriptors are those that have been counted, each once, in order
-/

namespace LabNetstack

open RingMemory

/-- What no operation but a few calls and the handshake touches. -/
structure Role extends Identity where
  state : TCPState
  parentListenFd : ℤ

def Socket.role (k : Socket) : Role := ⟨k.identity, k.state, k.parentListenFd⟩

/-- `acceptLab`'s scan of the list. -/
def SocketList.acceptable (list : SocketList) (fd : ℤ) : Option Socket :=
  list.sockets.find? fun it => it.parentListenFd = fd ∧ it.state = .establisted

/-! ### Roles -/

section Role

variable {k k' : Socket} {packet : TCPPacket} {out : List TCPPacket}

theorem fd_of_role {role : Role} (h : k.role = role) : k.fd = role.fd :=
  congrArg (fun role => role.fd) h

theorem role_asyncSendTCPPacket (nowtime : ℕ) (k : Socket) :
    (asyncSendTCPPacket nowtime k).1.role = k.role := by
  rw [(Socket.tick_cases nowtime k).1]
  rfl

theorem role_writeLab {buf : List Byte} {n : ℤ} (h : writeLab k buf = some (n, k')) :
    k'.role = k.role := by
  simp only [writeLab] at h
  split_ifs at h
  all_goals
    obtain ⟨-, rfl⟩ := Prod.mk.inj (Option.some.inj h)
    rfl

theorem role_readLab {nbyte : ℕ} {bytes : List Byte} (h : readLab k nbyte = some (bytes, k')) :
    k'.role = k.role := by
  simp only [readLab] at h
  split_ifs at h
  all_goals
    obtain ⟨-, rfl⟩ := Prod.mk.inj (Option.some.inj h)
    rfl

theorem established_parentListenFd (h : TCPHandleEstablished k packet = some (k', out)) :
    k'.parentListenFd = k.parentListenFd := by
  obtain ⟨k₁, dataAnswer, hack, hdata, -⟩ := established_eq_some_iff.mp h
  rw [handleData_eq hdata, handleFin_eq, handleAck_eq hack]

/-- **What a segment does to the role of a socket.** -/
theorem role_handleTCPMain (h : handleTCPMain k packet = some (k', out)) :
    k'.role = { k.role with state := k'.state } ∧
      (k'.state = k.state ∨ ((k.state = .sysSent ∨ k.state = .sysRecv) ∧ k'.state = .establisted) ∨
        (k.state = .establisted ∧ k'.state = .closed ∧ packet.Closes k)) := by
  have hid := (identity_handleTCPMain h).1
  have hrole : k'.parentListenFd = k.parentListenFd →
      k'.role = { k.role with state := k'.state } := by
    intro hparent
    simp only [Socket.role, hid, hparent]
  rw [handleTCPMain] at h
  split at h
  next hstate =>
    obtain ⟨rfl, -⟩ := Prod.mk.inj (Option.some.inj h)
    exact ⟨rfl, Or.inl rfl⟩
  next hstate =>
    simp only [TCPHandleSyssent] at h
    split_ifs at h
    all_goals obtain ⟨rfl, -⟩ := Prod.mk.inj (Option.some.inj h)
    · exact ⟨rfl, Or.inr (Or.inl ⟨Or.inl hstate, rfl⟩)⟩
    · exact ⟨rfl, Or.inl rfl⟩
  next hstate =>
    simp only [TCPHandleSysrecv] at h
    split_ifs at h
    all_goals obtain ⟨rfl, -⟩ := Prod.mk.inj (Option.some.inj h)
    · exact ⟨rfl, Or.inr (Or.inl ⟨Or.inr hstate, rfl⟩)⟩
    · exact ⟨rfl, Or.inl rfl⟩
  next hstate =>
    refine ⟨hrole (established_parentListenFd h), ?_⟩
    rcases (Socket.established_frame h).1 with hsame | hclosed
    · exact Or.inl hsame
    · exact Or.inr (Or.inr ⟨hstate, hclosed, (established_closed_iff h hstate).mp hclosed⟩)
  next => cases h

end Role

structure Process where
  list : SocketList
  /-- The counter of `getPort`. -/
  port : Port
  /-- The address of the first device. -/
  device : IPAddr
  /-- The calls of `closeLab` that have left their wait loop. -/
  closing : List ℤ
  /-- The descriptors that `connectLab` has been called on. -/
  started : List ℤ
  /-- What `TCPHandleListen` has created: the descriptors of the listener and of the child. -/
  children : List (ℤ × ℤ)
  /-- The descriptors of the sockets that have been established. -/
  reached : List ℤ
  /-- The calls of `acceptLab` that have returned: the descriptors passed and returned. -/
  returned : List (ℤ × ℤ)

namespace Process

inductive Action
  | socketLab (readMem writeMem : Mem Byte)
  | bindLab (fd : ℤ) (addr : IPAddr) (port : Port)
  | listenLab (fd : ℤ)
  | connectLab (fd : ℤ) (addr : IPAddr) (port : Port)
  | acceptLab (fd : ℤ)
  | writeLab (fd : ℤ) (buf : List Byte)
  | readLab (fd : ℤ) (nbyte : ℕ)
  | closeLab (fd : ℤ)
  | leaveCloseLab (fd : ℤ)
  | freeSocket (fd : ℤ)
  | tick (nowtime : ℕ)
  | segment (readMem writeMem : Mem Byte) (packet : TCPPacket)

/-- A call on the socket that `findSocket` finds, if it finds one. -/
def onSocket (p : Process) (fd : ℤ) (f : Socket → Option Process) : Option Process :=
  match p.list.findSocket fd with
  | none => some p
  | some socket => f socket

/-- `none` while a call waits, and when the process aborts. -/
def step : Action → Process → Option Process
  | .socketLab readMem writeMem, p => some { p with
      list := ⟨p.list.sockets ++ [allocSocket p.list.nextFd readMem writeMem], p.list.nextFd + 1⟩ }
  | .bindLab fd addr port, p => p.onSocket fd fun socket =>
      some { p with list := p.list.update (LabNetstack.bindLab socket addr port) }
  | .listenLab fd, p => p.onSocket fd fun socket =>
      some { p with list := p.list.update (LabNetstack.listenLab socket) }
  | .connectLab fd addr port, p => p.onSocket fd fun socket =>
      let (res, next) := if socket.srcport = 0 then getPort p.port else (0, p.port)
      some { p with
        list := p.list.update (LabNetstack.connectLab socket res p.device addr port).1
        port := next
        started := fd :: p.started }
  | .acceptLab fd, p => p.onSocket fd fun _ =>
      (p.list.acceptable fd).map fun connectSocket => { p with
        list := p.list.update { connectSocket with parentListenFd := 0 }
        returned := p.returned ++ [(fd, connectSocket.fd)] }
  | .writeLab fd buf, p => p.onSocket fd fun socket =>
      (LabNetstack.writeLab socket buf).map fun (_, socket) =>
        { p with list := p.list.update socket }
  | .readLab fd nbyte, p => p.onSocket fd fun socket =>
      (LabNetstack.readLab socket nbyte).map fun (_, socket) =>
        { p with list := p.list.update socket }
  | .closeLab fd, p => p.onSocket fd fun socket =>
      some { p with list := p.list.update (LabNetstack.closeLab socket) }
  | .leaveCloseLab fd, p => p.onSocket fd fun socket =>
      if socket.hasFlag CLOSEState.call && closeLabExits socket then
        some { p with closing := fd :: p.closing }
      else none
  | .freeSocket fd, p =>
      if fd ∈ p.closing then
        some { p with list := p.list.freeSocket fd, closing := p.closing.erase fd }
      else none
  | .tick nowtime, p => some { p with list := (p.list.asyncSendTCPPacket nowtime).1 }
  | .segment readMem writeMem packet, p =>
    (p.list.handleTCPMain readMem writeMem packet).map fun (list, _) => { p with
      list := list
      children := p.children ++ (list.sockets.filter fun it => it.fd = p.list.nextFd).map fun it =>
        (it.parentListenFd, it.fd)
      reached := p.reached ++ (list.sockets.filter fun it => it.state = .establisted).map
        Socket.fd }

/-- `initSocketList`. -/
def start (device : IPAddr) : Process := ⟨⟨[], 123456789⟩, 50000, device, [], [], [], [], []⟩

/-- The descriptor that a call passes. -/
def Action.fd : Action → Option ℤ
  | .bindLab fd _ _ | .listenLab fd | .connectLab fd _ _ | .acceptLab fd | .writeLab fd _
  | .readLab fd _ | .closeLab fd | .leaveCloseLab fd | .freeSocket fd => some fd
  | .socketLab _ _ | .tick _ | .segment _ _ _ => none

variable {p p' : Process} {act : Action}

/-- The list after a segment that `matchSocket` gives to `k`. -/
inductive Handled (list : SocketList) (packet : TCPPacket) (k : Socket) : SocketList → Prop
  | ignored (hlisten : k.state = .listen) (hsyn : ¬ packet.IsSyn) : Handled list packet k list
  | child (child : Socket) (hlisten : k.state = .listen) (hsyn : packet.IsSyn)
      (hrole : child.role = {
        fd := list.nextFd
        desaddr := packet.src
        desport := packet.tcpHeader.srcport
        srcaddr := if k.srcaddr = 0 then packet.dst else k.srcaddr
        srcport := k.srcport
        state := .sysRecv
        parentListenFd := k.fd }) :
      Handled list packet k ⟨list.sockets ++ [child], list.nextFd + 1⟩
  | handled (k' : Socket) (out : List TCPPacket) (hopen : k.state ≠ .listen)
      (hrun : handleTCPMain k packet = some (k', out)) : Handled list packet k (list.update k')

theorem handleTCPMain_handled {list list' : SocketList} {readMem writeMem : Mem Byte}
    {packet : TCPPacket} {out : List TCPPacket}
    (h : list.handleTCPMain readMem writeMem packet = some (list', out)) :
    (list.matchSocket packet = none ∧ list' = list) ∨
      ∃ k, list.matchSocket packet = some k ∧ Handled list packet k list' := by
  rw [SocketList.handleTCPMain] at h
  split at h
  next hmatch => exact Or.inl ⟨hmatch, (Prod.mk.inj (Option.some.inj h)).1.symm⟩
  next k hmatch =>
    refine Or.inr ⟨k, hmatch, ?_⟩
    split at h
    next hlisten =>
      by_cases hsyn : packet.tcpHeader.ctrl &&& ctSyn ≠ 0
      · rw [TCPHandleListen, if_pos hsyn] at h
        obtain ⟨rfl, -⟩ := Prod.mk.inj (Option.some.inj h)
        exact .child _ hlisten hsyn rfl
      · rw [TCPHandleListen, if_neg hsyn] at h
        obtain ⟨rfl, -⟩ := Prod.mk.inj (Option.some.inj h)
        exact .ignored hlisten hsyn
    next hopen =>
      obtain ⟨⟨k', out'⟩, hrun, heq⟩ := Option.map_eq_some_iff.mp h
      obtain ⟨rfl, -⟩ := Prod.mk.inj heq
      exact .handled k' out' hopen hrun

/-- What a step does, action by action. -/
inductive Moves (p : Process) : Action → Process → Prop
  | missing {act : Action} (fd : ℤ) (hfd : act.fd = some fd) (hnone : p.list.findSocket fd = none) :
      Moves p act p
  | socketLab (readMem writeMem : Mem Byte) : Moves p (.socketLab readMem writeMem) { p with
      list := ⟨p.list.sockets ++ [allocSocket p.list.nextFd readMem writeMem], p.list.nextFd + 1⟩ }
  | bindLab (addr : IPAddr) (port : Port) (k : Socket) (hk : p.list.findSocket k.fd = some k) :
      Moves p (.bindLab k.fd addr port)
        { p with list := p.list.update (LabNetstack.bindLab k addr port) }
  | listenLab (k : Socket) (hk : p.list.findSocket k.fd = some k) :
      Moves p (.listenLab k.fd) { p with list := p.list.update (LabNetstack.listenLab k) }
  | connectLab (addr : IPAddr) (port next : Port) (k k' : Socket)
      (hk : p.list.findSocket k.fd = some k)
      (hrole : k'.role = {
        fd := k.fd
        desaddr := addr
        desport := port
        srcaddr := if k.srcaddr = 0 then p.device else k.srcaddr
        srcport := if k.srcport = 0 then htons (getPort p.port).1 else k.srcport
        state := .sysSent
        parentListenFd := k.parentListenFd }) :
      Moves p (.connectLab k.fd addr port)
        { p with list := p.list.update k', port := next, started := k.fd :: p.started }
  | acceptLab (fd : ℤ) (k : Socket) (hfd : (p.list.findSocket fd).isSome)
      (hk : p.list.acceptable fd = some k) : Moves p (.acceptLab fd) { p with
        list := p.list.update { k with parentListenFd := 0 }
        returned := p.returned ++ [(fd, k.fd)] }
  | writeLab (buf : List Byte) (k k' : Socket) (hk : p.list.findSocket k.fd = some k)
      (hrole : k'.role = k.role) :
      Moves p (.writeLab k.fd buf) { p with list := p.list.update k' }
  | readLab (nbyte : ℕ) (k k' : Socket) (hk : p.list.findSocket k.fd = some k)
      (hrole : k'.role = k.role) :
      Moves p (.readLab k.fd nbyte) { p with list := p.list.update k' }
  | closeLab (k k' : Socket) (hk : p.list.findSocket k.fd = some k) (hrole : k'.role = k.role) :
      Moves p (.closeLab k.fd) { p with list := p.list.update k' }
  | leaveCloseLab (k : Socket) (hk : p.list.findSocket k.fd = some k)
      (hcall : k.hasFlag CLOSEState.call = true) (hexits : closeLabExits k = true) :
      Moves p (.leaveCloseLab k.fd) { p with closing := k.fd :: p.closing }
  | freeSocket (fd : ℤ) (hfd : fd ∈ p.closing) : Moves p (.freeSocket fd)
      { p with list := p.list.freeSocket fd, closing := p.closing.erase fd }
  | tick (nowtime : ℕ) :
      Moves p (.tick nowtime) { p with list := (p.list.asyncSendTCPPacket nowtime).1 }
  | segment (readMem writeMem : Mem Byte) (packet : TCPPacket) (list : SocketList)
      (hlist : (p.list.matchSocket packet = none ∧ list = p.list) ∨
        ∃ k, p.list.matchSocket packet = some k ∧ Handled p.list packet k list) :
      Moves p (.segment readMem writeMem packet) { p with
        list := list
        children := p.children ++ (list.sockets.filter fun it => it.fd = p.list.nextFd).map
          fun it => (it.parentListenFd, it.fd)
        reached := p.reached ++
          (list.sockets.filter fun it => it.state = .establisted).map Socket.fd }

theorem findSocket_some {list : SocketList} {fd : ℤ} {k : Socket}
    (h : list.findSocket fd = some k) : k ∈ list.sockets ∧ k.fd = fd :=
  ⟨List.mem_of_find?_eq_some h, by simpa using List.find?_some h⟩

theorem mem_of_matchSocket {list : SocketList} {packet : TCPPacket} {k : Socket}
    (h : list.matchSocket packet = some k) : k ∈ list.sockets := by
  rcases Option.or_eq_some_iff.mp h with h | ⟨-, h⟩
  · exact List.mem_of_find?_eq_some h
  · exact List.mem_of_find?_eq_some h

theorem onSocket_some {fd : ℤ} {f : Socket → Option Process} (h : p.onSocket fd f = some p') :
    (p.list.findSocket fd = none ∧ p' = p) ∨
      ∃ k, p.list.findSocket k.fd = some k ∧ k.fd = fd ∧ f k = some p' := by
  rw [onSocket] at h
  split at h
  next hnone => exact Or.inl ⟨hnone, (Option.some.inj h).symm⟩
  next k hk =>
    obtain rfl := (findSocket_some hk).2
    exact Or.inr ⟨k, hk, rfl, h⟩

theorem moves_of_step (hs : step act p = some p') : Moves p act p' := by
  cases act with
  | socketLab readMem writeMem => exact Option.some.inj hs ▸ .socketLab readMem writeMem
  | bindLab fd addr port =>
    obtain ⟨hnone, rfl⟩ | ⟨k, hk, rfl, hrun⟩ := onSocket_some hs
    · exact .missing fd rfl hnone
    · exact Option.some.inj hrun ▸ .bindLab addr port k hk
  | listenLab fd =>
    obtain ⟨hnone, rfl⟩ | ⟨k, hk, rfl, hrun⟩ := onSocket_some hs
    · exact .missing fd rfl hnone
    · exact Option.some.inj hrun ▸ .listenLab k hk
  | connectLab fd addr port =>
    obtain ⟨hnone, rfl⟩ | ⟨k, hk, rfl, hrun⟩ := onSocket_some hs
    · exact .missing fd rfl hnone
    · by_cases hport : k.srcport = 0
      · simp only [if_pos hport] at hrun
        refine Option.some.inj hrun ▸ .connectLab addr port _ k _ hk ?_
        simp only [LabNetstack.connectLab, Socket.role, Socket.identity, if_pos hport]
      · simp only [if_neg hport] at hrun
        refine Option.some.inj hrun ▸ .connectLab addr port _ k _ hk ?_
        simp only [LabNetstack.connectLab, Socket.role, Socket.identity, if_neg hport]
  | acceptLab fd =>
    obtain ⟨hnone, rfl⟩ | ⟨k, hk, rfl, hrun⟩ := onSocket_some hs
    · exact .missing fd rfl hnone
    · obtain ⟨child, hchild, rfl⟩ := Option.map_eq_some_iff.mp hrun
      exact .acceptLab k.fd child (by rw [hk, Option.isSome_some]) hchild
  | writeLab fd buf =>
    obtain ⟨hnone, rfl⟩ | ⟨k, hk, rfl, hrun⟩ := onSocket_some hs
    · exact .missing fd rfl hnone
    · obtain ⟨⟨n, k'⟩, hwrite, rfl⟩ := Option.map_eq_some_iff.mp hrun
      exact .writeLab buf k k' hk (role_writeLab hwrite)
  | readLab fd nbyte =>
    obtain ⟨hnone, rfl⟩ | ⟨k, hk, rfl, hrun⟩ := onSocket_some hs
    · exact .missing fd rfl hnone
    · obtain ⟨⟨bytes, k'⟩, hread, rfl⟩ := Option.map_eq_some_iff.mp hrun
      exact .readLab nbyte k k' hk (role_readLab hread)
  | closeLab fd =>
    obtain ⟨hnone, rfl⟩ | ⟨k, hk, rfl, hrun⟩ := onSocket_some hs
    · exact .missing fd rfl hnone
    · exact Option.some.inj hrun ▸ .closeLab k _ hk rfl
  | leaveCloseLab fd =>
    obtain ⟨hnone, rfl⟩ | ⟨k, hk, rfl, hrun⟩ := onSocket_some hs
    · exact .missing fd rfl hnone
    · split_ifs at hrun with hleaves
      obtain ⟨hcall, hexits⟩ := Bool.and_eq_true_iff.mp hleaves
      exact Option.some.inj hrun ▸ .leaveCloseLab k hk hcall hexits
  | freeSocket fd =>
    rw [step] at hs
    split_ifs at hs with hfd
    exact Option.some.inj hs ▸ .freeSocket fd hfd
  | tick nowtime => exact Option.some.inj hs ▸ .tick nowtime
  | segment readMem writeMem packet =>
    obtain ⟨⟨list, out⟩, hlist, rfl⟩ := Option.map_eq_some_iff.mp hs
    exact .segment readMem writeMem packet list (handleTCPMain_handled hlist)

/-! ### The list -/

variable {list : SocketList} {it k k' : Socket} {fd : ℤ}

theorem acceptable_some (hk : list.acceptable fd = some k) :
    k ∈ list.sockets ∧ k.parentListenFd = fd ∧ k.state = .establisted := by
  have hfound := List.find?_some hk
  simp only [decide_eq_true_eq] at hfound
  exact ⟨List.mem_of_find?_eq_some hk, hfound.1, hfound.2⟩

theorem mem_update : it ∈ (list.update k).sockets ↔
    (it = k ∧ k.fd ∈ list.sockets.map Socket.fd) ∨ (it ∈ list.sockets ∧ it.fd ≠ k.fd) := by
  rw [SocketList.update, List.mem_map, List.mem_map]
  constructor
  · rintro ⟨it', hit', rfl⟩
    by_cases hfd : it'.fd = k.fd
    · rw [if_pos hfd]
      exact Or.inl ⟨rfl, it', hit', hfd⟩
    · rw [if_neg hfd]
      exact Or.inr ⟨hit', hfd⟩
  · rintro (⟨rfl, it', hit', hfd⟩ | ⟨hit, hfd⟩)
    · exact ⟨it', hit', if_pos hfd⟩
    · exact ⟨it, hit, if_neg hfd⟩

/-- A socket that is not freed stays. -/
theorem mem_freeSocket (hit : it ∈ list.sockets) (hfd : it.fd ≠ fd) :
    it ∈ (list.freeSocket fd).sockets := by
  rw [SocketList.freeSocket, List.mem_eraseP_of_neg (by simpa using hfd)]
  exact hit

theorem mem_of_mem_freeSocket (hit : it ∈ (list.freeSocket fd).sockets) : it ∈ list.sockets :=
  List.mem_of_mem_eraseP hit

theorem mem_asyncSendTCPPacket {nowtime : ℕ} :
    it ∈ (list.asyncSendTCPPacket nowtime).1.sockets ↔
      ∃ k ∈ list.sockets, (asyncSendTCPPacket nowtime k).1 = it := by
  simp only [SocketList.asyncSendTCPPacket, List.map_map, List.mem_map, Function.comp_apply]

/-- The descriptors are counted up, and a socket is put at the end of the list. -/
structure Ordered (list : SocketList) : Prop where
  sorted : (list.sockets.map Socket.fd).Pairwise (· < ·)
  pos : ∀ k ∈ list.sockets, 0 < k.fd
  lt : ∀ k ∈ list.sockets, k.fd < list.nextFd
  nextFd_pos : 0 < list.nextFd

namespace Ordered

variable (h : Ordered list)

include h

theorem nodup : (list.sockets.map Socket.fd).Nodup := h.sorted.imp fun hlt => hlt.ne

theorem eq_of_fd (hk : k ∈ list.sockets) (hk' : k' ∈ list.sockets) (hfd : k.fd = k'.fd) : k = k' :=
  List.inj_on_of_nodup_map h.nodup hk hk' hfd

/-- A list with the same descriptors. -/
theorem of_fds {list' : SocketList}
    (hfds : list'.sockets.map Socket.fd = list.sockets.map Socket.fd)
    (hnext : list'.nextFd = list.nextFd) : Ordered list' := by
  have hmem : ∀ k ∈ list'.sockets, ∃ k' ∈ list.sockets, k'.fd = k.fd := by
    intro k hk
    rw [← List.mem_map, ← hfds]
    exact List.mem_map_of_mem hk
  refine ⟨hfds ▸ h.sorted, fun k hk => ?_, fun k hk => ?_, hnext ▸ h.nextFd_pos⟩
  · obtain ⟨k', hk', heq⟩ := hmem k hk
    exact heq ▸ h.pos k' hk'
  · obtain ⟨k', hk', heq⟩ := hmem k hk
    exact hnext ▸ heq ▸ h.lt k' hk'

theorem update (k : Socket) : Ordered (list.update k) := h.of_fds (SocketList.fds_update list k) rfl

theorem add {child : Socket} (hfd : child.fd = list.nextFd) :
    Ordered ⟨list.sockets ++ [child], list.nextFd + 1⟩ where
  sorted := by
    rw [List.map_append, List.map_singleton, List.pairwise_append]
    refine ⟨h.sorted, List.pairwise_singleton _ _, fun fd hmem fd' hfd' => ?_⟩
    obtain ⟨k, hk, rfl⟩ := List.mem_map.mp hmem
    rw [List.mem_singleton.mp hfd', hfd]
    exact h.lt k hk
  pos k hk := by
    rcases List.mem_append.mp hk with hk | hk
    · exact h.pos k hk
    · rw [List.mem_singleton.mp hk, hfd]
      exact h.nextFd_pos
  lt k hk := by
    rcases List.mem_append.mp hk with hk | hk
    · exact (h.lt k hk).trans (lt_add_one _)
    · rw [List.mem_singleton.mp hk, hfd]
      exact lt_add_one _
  nextFd_pos := h.nextFd_pos.trans (lt_add_one _)

theorem free (fd : ℤ) : Ordered (list.freeSocket fd) where
  sorted := h.sorted.sublist (List.Sublist.map _ List.eraseP_sublist)
  pos k hk := h.pos k (mem_of_mem_freeSocket hk)
  lt k hk := h.lt k (mem_of_mem_freeSocket hk)
  nextFd_pos := h.nextFd_pos

theorem handled {packet : TCPPacket} {list' : SocketList} (hlist : Handled list packet k list') :
    Ordered list' := by
  cases hlist with
  | ignored => exact h
  | child child hlisten hsyn hrole => exact h.add (fd_of_role hrole)
  | handled k' out hopen hrun => exact h.update k'

theorem step (hp : list = p.list) (hs : Process.step act p = some p') : Ordered p'.list := by
  subst hp
  cases moves_of_step hs with
  | missing | leaveCloseLab => exact h
  | socketLab => exact h.add rfl
  | bindLab | listenLab | connectLab | acceptLab | writeLab | readLab | closeLab =>
    exact h.update _
  | freeSocket fd hfd => exact h.free fd
  | tick nowtime => exact h.of_fds (SocketList.fds_asyncSendTCPPacket p.list nowtime) rfl
  | segment readMem writeMem packet list hlist =>
    rcases hlist with ⟨-, rfl⟩ | ⟨k, -, hlist⟩
    · exact h
    · exact h.handled hlist

end Ordered

theorem ordered_start (device : IPAddr) : Ordered (start device).list :=
  ⟨List.Pairwise.nil, by simp [start], by simp [start], (by decide : (0 : ℤ) < 123456789)⟩

end Process

end LabNetstack
