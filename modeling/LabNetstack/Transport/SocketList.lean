import LabNetstack.Transport.MainThread

/-!
# The socket list

The list of a host's sockets, as the functions of both threads walk it. A pointer into the list is
the descriptor of the socket it points to: `allocSocket` counts the descriptors up, so no two
sockets have the same.

Whatever becomes of a socket, it keeps its descriptor and the two ends of its connection, and
every segment it sends carries these.

## Main results

* `identity_handleTCPMain`, `identity_asyncSendTCPPacket`, `Call.identity_run` — an end stays the
  end it is, and what it sends goes to the other end
-/

namespace LabNetstack

open RingMemory

/-- `struct SocketList`, from `head->next` on. -/
structure SocketList where
  sockets : List Socket
  nextFd : ℤ

namespace SocketList

variable (list : SocketList)

def findSocket (fd : ℤ) : Option Socket := list.sockets.find? fun it => it.fd = fd

/-- The socket that a pointer leads to has changed. -/
def update (socket : Socket) : SocketList :=
  { list with sockets := list.sockets.map fun it => if it.fd = socket.fd then socket else it }

def freeSocket (fd : ℤ) : SocketList :=
  { list with sockets := list.sockets.eraseP fun it => it.fd = fd }

/-- `matchSocket`: the end of the connection if there is one, else who listens on the port. -/
def matchSocket (packet : TCPPacket) : Option Socket :=
  (list.sockets.find? fun it =>
    packet.tcpHeader.desport = it.srcport ∧ packet.dst = it.srcaddr ∧
      packet.tcpHeader.srcport = it.desport ∧ packet.src = it.desaddr).or
  (list.sockets.find? fun it => packet.tcpHeader.desport = it.srcport ∧ it.state = .listen)

/-- `handleTCPMain`. The socket that `TCPHandleListen` allocates is put behind the others; what its
buffers will hold is unspecified. -/
def handleTCPMain (readMem writeMem : Mem Byte) (packet : TCPPacket) :
    Option (SocketList × List TCPPacket) :=
  match list.matchSocket packet with
  | none => some (list, [])
  | some socket =>
    match socket.state with
    | .listen =>
      match TCPHandleListen socket (allocSocket list.nextFd readMem writeMem) packet with
      | none => some (list, [])
      | some (connectSocket, answer) =>
        some (⟨list.sockets ++ [connectSocket], list.nextFd + 1⟩, [answer])
    | _ =>
      (LabNetstack.handleTCPMain socket packet).map fun (socket, out) => (list.update socket, out)

/-- `asyncSendTCPPacket`, over the whole list. -/
def asyncSendTCPPacket (nowtime : ℕ) : SocketList × List TCPPacket :=
  let sent := list.sockets.map (LabNetstack.asyncSendTCPPacket nowtime)
  ({ list with sockets := sent.map Prod.fst }, sent.flatMap Prod.snd)

end SocketList

/-- The calls of an application that is connected. Nothing is written after `closeLab`. -/
inductive Call
  | write (buf : List Byte)
  | read (nbyte : ℕ)
  | close

/-- A call on a socket; `none` while it waits. -/
def Call.run (socket : Socket) : Call → Option Socket
  | .write buf =>
    if socket.hasFlag CLOSEState.call then none else (writeLab socket buf).map Prod.snd
  | .read nbyte => (readLab socket nbyte).map Prod.snd
  | .close => some (closeLab socket)

/-! ### What an end is -/

/-- The fields of a socket that say which one it is. -/
structure Identity where
  fd : ℤ
  desaddr : IPAddr
  desport : Port
  srcaddr : IPAddr
  srcport : Port
deriving DecidableEq

def Socket.identity (socket : Socket) : Identity :=
  ⟨socket.fd, socket.desaddr, socket.desport, socket.srcaddr, socket.srcport⟩

/-- A segment on the way from one end to the other. -/
structure TCPPacket.From (packet : TCPPacket) (e : Identity) : Prop where
  src : packet.src = e.srcaddr
  dst : packet.dst = e.desaddr
  srcport : packet.tcpHeader.srcport = e.srcport
  desport : packet.tcpHeader.desport = e.desport

/-- A segment of a connection, as its ends send them. -/
structure TCPPacket.SentBy (packet : TCPPacket) (e : Identity) : Prop extends packet.From e where
  noSyn : packet.tcpHeader.ctrl &&& ctSyn = 0

/-- What leaves through `sendTCPPacket` goes to the other end. -/
theorem sentBy_sendTCPPacket (socket : Socket) (seqNum ackNum : BitVec 32) {ctrl : BitVec 8}
    (window : BitVec 16) (data : List Byte) (hctrl : ctrl &&& ctSyn = 0) :
    (sendTCPPacket (createTCPHeader socket.srcport socket.desport seqNum ackNum ctrl window) socket
      data).SentBy socket.identity :=
  ⟨⟨rfl, rfl, rfl, rfl⟩, hctrl⟩

theorem sentBy_replyAck (socket : Socket) (ackNum : BitVec 32) :
    (replyAck socket ackNum).SentBy socket.identity :=
  sentBy_sendTCPPacket socket _ _ _ _ (by decide)

variable {socket socket' : Socket} {out : List TCPPacket} {packet : TCPPacket} {nowtime : ℕ}

/-! ### The handlers -/

theorem identity_acceptAck {ackNum : BitVec 32} {window : BitVec 16}
    (h : acceptAck socket ackNum window = some socket') : socket'.identity = socket.identity := by
  simp only [acceptAck] at h
  split_ifs at h
  · obtain rfl := Option.some.inj h
    rfl
  · obtain rfl := Option.some.inj h
    rfl

theorem identity_closeOnAck (socket : Socket) :
    (closeOnAck socket).identity = socket.identity := by
  simp only [closeOnAck]
  split_ifs <;> rfl

theorem identity_handleAck {tcpHeader : TCPHeader}
    (h : handleAck socket tcpHeader = some socket') : socket'.identity = socket.identity := by
  rw [handleAck] at h
  split_ifs at h
  · obtain ⟨socket₁, h₁, rfl⟩ := Option.map_eq_some_iff.mp h
    rw [identity_closeOnAck, identity_acceptAck h₁]
  · rw [← Option.some.inj h]

theorem identity_handleFin (socket : Socket) (tcpHeader : TCPHeader) :
    (handleFin socket tcpHeader).1.identity = socket.identity ∧
      ∀ packet ∈ (handleFin socket tcpHeader).2, packet.SentBy socket.identity := by
  simp only [handleFin]
  split_ifs
  · refine ⟨rfl, fun packet hpacket => ?_⟩
    rw [List.mem_singleton.mp hpacket]
    exact sentBy_replyAck { socket with clstate := _ } _
  · exact ⟨rfl, by simp⟩

theorem identity_handleData {data : List Byte} {tcpHeader : TCPHeader}
    (h : handleData socket data tcpHeader = some (socket', out)) :
    socket'.identity = socket.identity ∧ ∀ packet ∈ out, packet.SentBy socket.identity := by
  have hreply : ∀ (k : Socket) (n : BitVec 32), k.identity = socket.identity →
      ∀ packet ∈ [replyAck k n], packet.SentBy socket.identity := by
    intro k n hk packet hpacket
    rw [List.mem_singleton.mp hpacket, ← hk]
    exact sentBy_replyAck k n
  simp only [handleData] at h
  split_ifs at h
  all_goals
    obtain ⟨rfl, rfl⟩ := Prod.mk.inj (Option.some.inj h)
  · exact ⟨rfl, hreply _ _ rfl⟩
  · exact ⟨rfl, hreply _ _ rfl⟩
  · exact ⟨rfl, hreply _ _ rfl⟩
  · exact ⟨rfl, by simp⟩

theorem identity_TCPHandleEstablished
    (h : TCPHandleEstablished socket packet = some (socket', out)) :
    socket'.identity = socket.identity ∧ ∀ packet ∈ out, packet.SentBy socket.identity := by
  simp only [TCPHandleEstablished] at h
  split at h
  · cases h
  next socket₁ h₁ =>
    split at h
    · cases h
    next socket₂ dataAnswer h₂ =>
      obtain ⟨rfl, rfl⟩ := Prod.mk.inj (Option.some.inj h)
      obtain ⟨hfin, hfinOut⟩ := identity_handleFin socket₁ _
      obtain ⟨hdata, hdataOut⟩ := identity_handleData h₂
      rw [identity_handleAck h₁] at hfin hfinOut
      rw [hfin] at hdata hdataOut
      refine ⟨hdata, fun packet hpacket => ?_⟩
      exact (List.mem_append.mp hpacket).elim (hfinOut packet) (hdataOut packet)

/-- **Handling a segment.** The end stays the end it is, and answers the other end. -/
theorem identity_handleTCPMain (h : handleTCPMain socket packet = some (socket', out)) :
    socket'.identity = socket.identity ∧ ∀ packet ∈ out, packet.SentBy socket.identity := by
  rw [handleTCPMain] at h
  split at h
  · obtain ⟨rfl, rfl⟩ := Prod.mk.inj (Option.some.inj h)
    exact ⟨rfl, by simp⟩
  · simp only [TCPHandleSyssent] at h
    split_ifs at h
    · obtain ⟨rfl, rfl⟩ := Prod.mk.inj (Option.some.inj h)
      refine ⟨rfl, fun packet hpacket => ?_⟩
      rw [List.mem_singleton.mp hpacket]
      exact ⟨⟨rfl, rfl, rfl, rfl⟩, (by decide : ctAck &&& ctSyn = 0)⟩
    · obtain ⟨rfl, rfl⟩ := Prod.mk.inj (Option.some.inj h)
      exact ⟨rfl, by simp⟩
  · simp only [TCPHandleSysrecv] at h
    split_ifs at h
    all_goals
      obtain ⟨rfl, rfl⟩ := Prod.mk.inj (Option.some.inj h)
      exact ⟨rfl, by simp⟩
  · exact identity_TCPHandleEstablished h
  · cases h

/-! ### The timer -/

/-- A socket without a connection sends nothing by itself. -/
theorem asyncSendTCPPacket_of_not (h : socket.isConnection = false) (nowtime : ℕ) :
    asyncSendTCPPacket nowtime socket = (socket, []) := by
  rw [asyncSendTCPPacket, h]
  rfl

theorem identity_chooseSegment (nowtime : ℕ) (socket : Socket) :
    (chooseSegment nowtime socket).1.identity = socket.identity := by
  simp only [chooseSegment]
  split_ifs <;> simp only [Socket.identity]

theorem identity_sendSegment (nowtime : ℕ) (socket : Socket) :
    (sendSegment nowtime socket).1.identity = socket.identity ∧
      ∀ packet ∈ (sendSegment nowtime socket).2, packet.SentBy socket.identity := by
  have hid := identity_chooseSegment nowtime socket
  rw [sendSegment]
  split
  next it h =>
    rw [h] at hid
    exact ⟨hid, by simp⟩
  next it first last h =>
    rw [h] at hid
    refine ⟨hid, fun packet hpacket => ?_⟩
    rw [List.mem_singleton.mp hpacket, ← hid]
    exact sentBy_sendTCPPacket it _ _ _ _ (by decide)

theorem identity_sendFin (nowtime : ℕ) (socket : Socket) :
    (sendFin nowtime socket).1.identity = socket.identity ∧
      ∀ packet ∈ (sendFin nowtime socket).2, packet.SentBy socket.identity := by
  simp only [sendFin]
  split_ifs
  · refine ⟨rfl, fun packet hpacket => ?_⟩
    rw [List.mem_singleton.mp hpacket]
    exact sentBy_sendTCPPacket socket _ _ _ _ (by decide)
  all_goals exact ⟨rfl, by simp⟩

/-- **The timer.** The end stays the end it is, and what it sends goes to the other end. -/
theorem identity_asyncSendTCPPacket (nowtime : ℕ) (socket : Socket) :
    (asyncSendTCPPacket nowtime socket).1.identity = socket.identity ∧
      ∀ packet ∈ (asyncSendTCPPacket nowtime socket).2, packet.SentBy socket.identity := by
  rw [asyncSendTCPPacket]
  split_ifs
  · exact ⟨rfl, by simp⟩
  · obtain ⟨hseg, hsegOut⟩ := identity_sendSegment nowtime socket
    obtain ⟨hfin, hfinOut⟩ := identity_sendFin nowtime (sendSegment nowtime socket).1
    rw [hseg] at hfin hfinOut
    refine ⟨hfin, fun packet hpacket => ?_⟩
    exact (List.mem_append.mp hpacket).elim (hsegOut packet) (hfinOut packet)

/-! ### The calls -/

theorem Call.identity_run {call : Call} (h : call.run socket = some socket') :
    socket'.identity = socket.identity := by
  cases call with
  | write buf =>
    rw [Call.run] at h
    split_ifs at h
    obtain ⟨⟨n, k⟩, hwrite, rfl⟩ := Option.map_eq_some_iff.mp h
    simp only [writeLab] at hwrite
    split_ifs at hwrite
    all_goals
      obtain ⟨-, rfl⟩ := Prod.mk.inj (Option.some.inj hwrite)
      rfl
  | read nbyte =>
    obtain ⟨⟨bytes, k⟩, hread, rfl⟩ := Option.map_eq_some_iff.mp h
    simp only [readLab] at hread
    split_ifs at hread
    all_goals
      obtain ⟨-, rfl⟩ := Prod.mk.inj (Option.some.inj hread)
      rfl
  | close =>
    obtain rfl := Option.some.inj h
    rfl

/-! ### Who is in the list -/

namespace SocketList

variable {list list' : SocketList} {fd : ℤ}

theorem isSome_findSocket : (list.findSocket fd).isSome ↔ fd ∈ list.sockets.map Socket.fd := by
  rw [findSocket, List.find?_isSome, List.mem_map]
  simp

theorem fds_update (list : SocketList) (socket : Socket) :
    (list.update socket).sockets.map Socket.fd = list.sockets.map Socket.fd := by
  rw [update, List.map_map]
  refine List.map_congr_left fun it _ => ?_
  rw [Function.comp_apply]
  split_ifs with hfd
  · exact hfd.symm
  · rfl

theorem fds_asyncSendTCPPacket (list : SocketList) (nowtime : ℕ) :
    (list.asyncSendTCPPacket nowtime).1.sockets.map Socket.fd = list.sockets.map Socket.fd := by
  simp only [asyncSendTCPPacket, List.map_map]
  exact List.map_congr_left fun it _ =>
    congrArg Identity.fd (identity_asyncSendTCPPacket nowtime it).1

/-- Handling a segment takes no socket from the list. -/
theorem fds_handleTCPMain {readMem writeMem : Mem Byte}
    (h : list.handleTCPMain readMem writeMem packet = some (list', out))
    (hfd : fd ∈ list.sockets.map Socket.fd) : fd ∈ list'.sockets.map Socket.fd := by
  have hrest : ∀ o : Option (Socket × List TCPPacket),
      o.map (fun (socket, out) => (list.update socket, out)) = some (list', out) →
      fd ∈ list'.sockets.map Socket.fd := by
    intro o ho
    obtain ⟨⟨k, out'⟩, -, heq⟩ := Option.map_eq_some_iff.mp ho
    obtain ⟨rfl, -⟩ := Prod.mk.inj heq
    rwa [fds_update]
  rw [handleTCPMain] at h
  split at h
  · obtain ⟨rfl, -⟩ := Prod.mk.inj (Option.some.inj h)
    exact hfd
  · split at h
    · split at h
      · obtain ⟨rfl, -⟩ := Prod.mk.inj (Option.some.inj h)
        exact hfd
      · obtain ⟨rfl, -⟩ := Prod.mk.inj (Option.some.inj h)
        rw [List.map_append]
        exact List.mem_append_left _ hfd
    · exact hrest _ h

end SocketList

end LabNetstack
