import LabNetstack.Lib.WrapCounter
import LabNetstack.Network.Route
import LabNetstack.Transport.AckLaw

/-!
# From the frame to the segment

`handleTCPPacket` is the last of the three functions that take a captured frame apart. Each finds
its data behind a header of fixed size and computes its length from that of the frame. What a
frame's payload is follows from its own length fields instead: the header length and the total
length of IP, and the data offset of TCP.

## Main results

* `receiveFrame_sendTCPPacket` — a segment arrives as it was sent, with what the link appended
* `WellFormed.delivered_iff` — the payload is delivered exactly when no header has options and the
  frame no padding
* `not_delivered_paddedAck` — a short acknowledgement arrives with bytes in it
-/

namespace LabNetstack

open Layout

variable {τ : Type*}

/-! ### The transport layer's end of the receive path -/

def TCPHeader.layout : Struct TCPHeader :=
  (uint16.pair (uint16.pair (uint32.pair (uint32.pair (uint8.pair (uint8.pair (uint16.pair
    (uint16.pair uint16)))))))).iso
    ⟨fun (srcport, desport, seqNum, ackNum, hdrLen, ctrl, window, checkSum, urgPtr) =>
        ⟨srcport, desport, seqNum, ackNum, hdrLen, ctrl, window, checkSum, urgPtr⟩,
      fun h => (h.srcport, h.desport, h.seqNum, h.ackNum, h.hdrLen, h.ctrl, h.window, h.checkSum,
        h.urgPtr), fun _ => rfl, fun _ => rfl⟩

/-- `TCPPacketReceiveCallback`: the packet, the data, its length, and the two headers. The socket
that is passed is always `NULL`. -/
abbrev TCPPacketReceiveCallback (τ : Type*) :=
  List Byte → List Byte → ℤ → TCPHeader → IpHeader → τ → Option τ

/-- The size of the *IP* header is what is taken off; the TCP header happens to be as long. -/
def handleTCPPacket (transportCallbackList : List (TCPPacketReceiveCallback τ))
    (packet : List Byte) (pktlen : BitVec 32) (ipHdr : IpHeader) (_device : Device)
    (host : Host τ) : Option (Host τ) :=
  if ipHdr.protocol ≠ IPPROTO_TCP then some host
  else
    match TCPHeader.layout.read? packet with
    | none => none
    | some hdr =>
      let data := packet.drop IpHeader.layout.size
      let len := pktlen - BitVec.ofNat 32 IpHeader.layout.size
      (transportCallbackList.foldlM (fun t (f : TCPPacketReceiveCallback τ) =>
        f packet data len.toInt hdr ipHdr t) host.upper).map fun upper =>
          { host with upper := upper }

@[simp] theorem TCPHeader.size_layout : TCPHeader.layout.size = 20 := rfl

theorem handleTCPPacket_of_tcp {packet : List Byte} {ipHdr : IpHeader} {host : Host τ}
    (hprotocol : ipHdr.protocol = IPPROTO_TCP) (hsize : TCPHeader.layout.size ≤ packet.length)
    (callbacks : List (TCPPacketReceiveCallback τ)) (pktlen : BitVec 32) (device : Device) :
    handleTCPPacket callbacks packet pktlen ipHdr device host =
      (callbacks.foldlM (fun t (f : TCPPacketReceiveCallback τ) =>
        f packet (packet.drop 20) (pktlen - 20).toInt (TCPHeader.layout.read packet) ipHdr t)
        host.upper).map fun upper => { host with upper := upper } := by
  rw [handleTCPPacket, if_neg (not_not.mpr hprotocol), Struct.read?, if_pos hsize]
  rfl

/-- The stack as `initTransportLayer` wires it up. `handleARPPacket`, which is registered as well,
only looks at ARP frames. -/
def receiveFrame (transportCallbackList : List (TCPPacketReceiveCallback τ)) (chance : Chance)
    (device : Device) (frame : List Byte) (host : Host τ) : Option (Host τ) :=
  handleFrame host.deviceList
    [handleIPPacket [handleRouteTable, handleTCPPacket transportCallbackList] chance] device
    ⟨BitVec.ofNat 32 frame.length⟩ frame host

theorem handleTCPPacket_frame {callbacks : List (TCPPacketReceiveCallback τ)} {packet : List Byte}
    {pktlen : BitVec 32} {ipHdr : IpHeader} {device : Device} {host host' : Host τ}
    (h : handleTCPPacket callbacks packet pktlen ipHdr device host = some host') :
    ∃ upper, host' = { host with upper := upper } := by
  rw [handleTCPPacket] at h
  split_ifs at h
  · exact ⟨host.upper, (Option.some.inj h).symm⟩
  · split at h
    · exact absurd h (Option.some_ne_none _).symm
    · obtain ⟨upper, -, hupper⟩ := Option.map_eq_some_iff.mp h
      exact ⟨upper, hupper.symm⟩

/-- A packet is forwarded, or it adds to the `tmp` table or to what the transport layer has. -/
theorem handleIPPacket_frame {callbacks : List (TCPPacketReceiveCallback τ)} {chance : Chance}
    {packet : List Byte} {pktlen : BitVec 32} {ethHdr : EthHeader} {device : Device}
    {host host' : Host τ}
    (h : handleIPPacket [handleRouteTable, handleTCPPacket callbacks] chance packet pktlen ethHdr
      device host = some host') :
    ∃ wire learnt upper, host' = { host with
        wire := wire
        tmpRouteTable := host.tmpRouteTable ++ learnt
        upper := upper } ∧ ∀ e ∈ learnt, e.device = device.address := by
  have hsame : ∃ wire learnt upper, host = { host with
      wire := wire
      tmpRouteTable := host.tmpRouteTable ++ learnt
      upper := upper } ∧ ∀ e ∈ learnt, e.device = device.address :=
    ⟨host.wire, [], host.upper, by rw [List.append_nil], fun e he => absurd he List.not_mem_nil⟩
  rw [handleIPPacket] at h
  split_ifs at h
  · exact Option.some.inj h ▸ hsame
  split at h
  · exact absurd h (Option.some_ne_none _).symm
  dsimp only at h
  split_ifs at h
  · exact Option.some.inj h ▸ hsame
  · -- the two callbacks
    simp only [List.foldlM_cons, List.foldlM_nil] at h
    obtain ⟨t, ht, h⟩ := Option.bind_eq_some_iff.mp h
    obtain ⟨t', ht', h⟩ := Option.bind_eq_some_iff.mp h
    obtain rfl := Option.some.inj h
    obtain ⟨learnt, rfl, hlearnt⟩ := handleRouteTable_frame ht
    obtain ⟨upper, rfl⟩ := handleTCPPacket_frame ht'
    exact ⟨host.wire, learnt, upper, rfl, hlearnt⟩
  · rw [deliverIPPacket] at h
    split at h
    · exact Option.some.inj h ▸ hsame
    · next dstmac address _ =>
      split_ifs at h
      obtain ⟨wire, hwire⟩ := host.transmitAt_frame (packet.take pktlen.toNat) dstmac address
      rw [hwire] at h
      obtain rfl := Option.some.inj h
      exact ⟨wire, [], host.upper, by rw [List.append_nil], fun e he => absurd he List.not_mem_nil⟩

/-- **What a captured frame changes.** -/
theorem receiveFrame_frame {callbacks : List (TCPPacketReceiveCallback τ)} {chance : Chance}
    {device : Device} {frame : List Byte} {host host' : Host τ}
    (h : receiveFrame callbacks chance device frame host = some host') :
    ∃ wire learnt upper, host' = { host with
        wire := wire
        tmpRouteTable := host.tmpRouteTable ++ learnt
        upper := upper } ∧ ∀ e ∈ learnt, e.device = device.address := by
  rcases handleFrame_cases h with rfl | ⟨_, _, _, h⟩
  · exact ⟨host'.wire, [], host'.upper, by rw [List.append_nil],
      fun e he => absurd he List.not_mem_nil⟩
  · rw [List.foldlM_cons] at h
    obtain ⟨t, ht, h⟩ := Option.bind_eq_some_iff.mp h
    obtain rfl := Option.some.inj h
    exact handleIPPacket_frame ht

/-- The callback of the stack, on the one socket that the segment matches; what it answers is left
out here. -/
def tcpMain : TCPPacketReceiveCallback Socket := fun _ data len tcpHeader ipHeader socket =>
  (handleTCPMain socket ⟨ipHeader.src, ipHeader.dst, tcpHeader, data.take len.toNat⟩).map Prod.fst

/-! ### What a frame says about itself -/

namespace Frame

def ipHeader (frame : List Byte) : IpHeader := IpHeader.layout.read (frame.drop 14)

/-- The header length of IP, in bytes. -/
def ipHdrLen (frame : List Byte) : ℕ := 4 * ((ipHeader frame).verHdrlen &&& 0b1111).toNat

def totalLen (frame : List Byte) : ℕ := (ntohs (ipHeader frame).len).toNat

def tcpHeader (frame : List Byte) : TCPHeader :=
  TCPHeader.layout.read (frame.drop (14 + ipHdrLen frame))

/-- The data offset of TCP, in bytes. -/
def tcpHdrLen (frame : List Byte) : ℕ := 4 * ((tcpHeader frame).hdrLen >>> 4).toNat

/-- From the end of the TCP header up to the total length of IP. -/
def payload (frame : List Byte) : List Byte :=
  (frame.take (14 + totalLen frame)).drop (14 + ipHdrLen frame + tcpHdrLen frame)

/-- An Ethernet frame with a TCP segment over IPv4, captured as a whole. -/
structure WellFormed (frame : List Byte) : Prop where
  type : (EthHeader.layout.read frame).type = htons ETHTYPE_IPv4
  version : (ipHeader frame).verHdrlen >>> 4 = IPVERSION_IPv4
  protocol : (ipHeader frame).protocol = IPPROTO_TCP
  ipHdrLen_ge : 20 ≤ ipHdrLen frame
  tcpHdrLen_ge : 20 ≤ tcpHdrLen frame
  hdrLen_le : ipHdrLen frame + tcpHdrLen frame ≤ totalLen frame
  totalLen_le : 14 + totalLen frame ≤ frame.length
  length_lt : frame.length < 2 ^ 32

/-- Both addresses of the frame are addresses of the host, or go to everyone. -/
def AddressedTo (host : Host τ) (frame : List Byte) : Prop :=
  isMine host.deviceList (EthHeader.layout.read frame).desAddr ∧
    isMyPacket host (ipHeader frame) = true

/-- The loss simulation picks the frame. -/
def Dropped (host : Host τ) (chance : Chance) (frame : List Byte) : Prop :=
  randomDrop host.random_drop chance (frame.drop 34) (ipHeader frame) = true

instance (host : Host τ) (chance : Chance) (frame : List Byte) :
    Decidable (Dropped host chance frame) :=
  inferInstanceAs (Decidable (_ = _))

/-! ### What the stack makes of it -/

/-- The `data` of the handlers; at most `len` bytes of it are theirs. -/
def data (frame : List Byte) : List Byte := frame.drop 54

/-- The `len` of the handlers, a `uint32_t` that becomes an `int`. -/
def len (frame : List Byte) : ℤ := (BitVec.ofNat 32 (frame.length - 54)).toInt

variable {frame : List Byte} {host : Host τ}

/-- **The whole receive path.** Whatever the headers say, the data starts after 54 bytes and its
length is what the frame has left. -/
theorem receiveFrame_eq (hsize : 54 ≤ frame.length)
    (htype : (EthHeader.layout.read frame).type = htons ETHTYPE_IPv4)
    (hprotocol : (ipHeader frame).protocol = IPPROTO_TCP) (hmine : AddressedTo host frame)
    (callbacks : List (TCPPacketReceiveCallback τ)) (chance : Chance) (device : Device) :
    receiveFrame callbacks chance device frame host =
      if Dropped host chance frame then some host
      else (callbacks.foldlM (fun t (f : TCPPacketReceiveCallback τ) =>
        f (frame.drop 34) (data frame) (len frame) (TCPHeader.layout.read (frame.drop 34))
          (ipHeader frame) t) host.upper).map
        fun upper => { host with upper := upper } := by
  have hdrop : (randomDrop host.random_drop chance ((frame.drop 14).drop 20)
      (IpHeader.layout.read (frame.drop 14)) = true) = Dropped host chance frame := by
    rw [List.drop_drop]
    rfl
  have hlen : BitVec.ofNat 32 frame.length - 14 - 20 - 20 =
    BitVec.ofNat 32 (frame.length - 54) := by
    obtain ⟨n, hn⟩ := Nat.exists_eq_add_of_le hsize
    rw [hn, Nat.add_sub_cancel_left, BitVec.ofNat_add]
    grind
  rw [receiveFrame, handleFrame_of_isMine (show 14 ≤ _ by omega) hmine.1, List.foldlM_cons]
  simp only [EthHeader.size_layout, htype, ntohs, htons_htons]
  rw [handleIPPacket_of_isMyPacket rfl (by rw [List.length_drop, IpHeader.size_layout]; omega)
    hmine.2]
  simp only [IpHeader.size_layout, hdrop]
  by_cases hpicked : Dropped host chance frame
  · rw [if_pos hpicked, if_pos hpicked]
    rfl
  · simp only [if_neg hpicked, List.foldlM_cons, List.foldlM_nil]
    have hroute : ∀ len, handleRouteTable ((frame.drop 14).drop 20) len (ipHeader frame) device host
        = some host := fun len => if_pos (by rw [hprotocol]; decide)
    change ((handleRouteTable _ _ (ipHeader frame) device host).bind fun host =>
      (handleTCPPacket callbacks _ _ (ipHeader frame) device host).bind some).bind some = _
    rw [hroute, Option.bind_some, handleTCPPacket_of_tcp hprotocol
      (by rw [List.length_drop, List.length_drop, TCPHeader.size_layout]; omega),
      Option.bind_fun_some, Option.bind_fun_some, List.drop_drop, List.drop_drop, hlen]
    rfl

theorem length_payload (hwf : WellFormed frame) :
    (payload frame).length = totalLen frame - (ipHdrLen frame + tcpHdrLen frame) := by
  have := hwf.totalLen_le
  rw [payload, List.length_drop, List.length_take]
  omega

/-- **What is delivered is the payload only without options and padding.** Of every well-formed
frame for this host that is not dropped on purpose, the TCP handlers get `data` and `len`; these
are the payload if and only if both headers are twenty bytes long and nothing follows the IP
packet. -/
theorem WellFormed.delivered_iff (hwf : WellFormed frame) (hmine : AddressedTo host frame)
    (chance : Chance) (device : Device) :
    (∀ callbacks : List (TCPPacketReceiveCallback τ),
      receiveFrame callbacks chance device frame host =
        if Dropped host chance frame then some host
        else (callbacks.foldlM (fun t (f : TCPPacketReceiveCallback τ) =>
          f (frame.drop 34) (data frame) (len frame) (TCPHeader.layout.read (frame.drop 34))
            (ipHeader frame) t) host.upper).map fun upper => { host with upper := upper }) ∧
    ((len frame = (payload frame).length ∧ (data frame).take (len frame).toNat = payload frame) ↔
      ipHdrLen frame = 20 ∧ tcpHdrLen frame = 20 ∧ frame.length = 14 + totalLen frame) := by
  have hip := hwf.ipHdrLen_ge
  have htcp := hwf.tcpHdrLen_ge
  have hhdr := hwf.hdrLen_le
  have htotal := hwf.totalLen_le
  have hlt := hwf.length_lt
  refine ⟨fun callbacks => receiveFrame_eq (by omega) hwf.type hwf.protocol hmine callbacks chance
    device, ?_⟩
  have hnat : (BitVec.ofNat 32 (frame.length - 54)).toNat = frame.length - 54 := by
    rw [BitVec.toNat_ofNat, Nat.mod_eq_of_lt (by omega)]
  rw [length_payload hwf, len, BitVec.toInt_eq_toNat_cond, hnat]
  constructor
  · rintro ⟨hlen, -⟩
    split_ifs at hlen <;> omega
  · rintro ⟨hip', htcp', hframe⟩
    have hsmall : totalLen frame < 2 ^ 16 := (ntohs (ipHeader frame).len).isLt
    rw [if_pos (by omega)]
    refine ⟨by omega, ?_⟩
    rw [data, payload, hip', htcp', ← hframe, List.take_length, Int.toNat_natCast,
      List.take_of_length_le (by rw [List.length_drop])]

end Frame

/-! ### Segments of this stack -/

/-- The buffer that `sendTCPPacket` passes to `sendIPPacket`. -/
def TCPPacket.bytes (packet : TCPPacket) : List Byte :=
  TCPHeader.layout.bytes packet.tcpHeader ++ packet.data

/-- The frame of a segment. -/
def TCPPacket.frame (packet : TCPPacket) (destMac srcMac : MacAddr) (id : ℕ) : List Byte :=
  EthHeader.layout.bytes (createEthHeader destMac srcMac (htons ETHTYPE_IPv4)) ++
    ipPacket packet.src packet.dst IPPROTO_TCP packet.bytes id

namespace TCPPacket

open LabNetstack.Frame (WellFormed ipHeader ipHdrLen totalLen tcpHdrLen payload)

variable (packet : TCPPacket) (destMac srcMac : MacAddr) (id : ℕ) (pad : List Byte)

theorem length_bytes : packet.bytes.length = packet.data.length + 20 := by
  rw [bytes, List.length_append, TCPHeader.layout.length_bytes, TCPHeader.size_layout, Nat.add_comm]

theorem length_frame :
    (packet.frame destMac srcMac id ++ pad).length = packet.data.length + pad.length + 54 := by
  rw [frame, List.length_append, List.length_append, EthHeader.layout.length_bytes,
    EthHeader.size_layout, length_ipPacket, length_bytes]
  omega

/-- `sendFrame` makes this frame of the packet that `sendIPPacket` makes of the segment. -/
theorem sendFrame_ipPacket (hsize : packet.data.length + 54 ≤ 0x10000) (device : Device) :
    sendFrame (ipPacket packet.src packet.dst IPPROTO_TCP packet.bytes id) ETHTYPE_IPv4 destMac
      device = some (packet.frame destMac device.macAddr id) := by
  rw [sendFrame, if_neg, frame]
  rw [length_ipPacket, length_bytes, EthHeader.size_layout]
  omega

theorem drop_frame_eth : (packet.frame destMac srcMac id ++ pad).drop 14 =
    ipPacket packet.src packet.dst IPPROTO_TCP packet.bytes id ++ pad := by
  rw [frame, List.append_assoc]
  exact EthHeader.layout.drop_append _ _

theorem drop_frame_ip : (packet.frame destMac srcMac id ++ pad).drop 34 =
    TCPHeader.layout.bytes packet.tcpHeader ++ (packet.data ++ pad) := by
  rw [show 34 = 14 + 20 from rfl, ← List.drop_drop, drop_frame_eth, ipPacket, List.append_assoc,
    bytes, List.append_assoc]
  exact IpHeader.layout.drop_append _ _

theorem data_frame : Frame.data (packet.frame destMac srcMac id ++ pad) = packet.data ++ pad := by
  rw [Frame.data, show 54 = 34 + 20 from rfl, ← List.drop_drop, drop_frame_ip]
  exact TCPHeader.layout.drop_append _ _

theorem ipHeader_frame : ipHeader (packet.frame destMac srcMac id ++ pad) =
    sentHeader packet.src packet.dst IPPROTO_TCP packet.bytes.length id := by
  rw [ipHeader, drop_frame_eth, ipPacket, List.append_assoc, IpHeader.layout.read_append]

theorem ipHdrLen_frame : ipHdrLen (packet.frame destMac srcMac id ++ pad) = 20 := by
  rw [ipHdrLen, ipHeader_frame, sentHeader, verHdrlen_createIpHeader]
  rfl

theorem tcpHeader_frame :
    Frame.tcpHeader (packet.frame destMac srcMac id ++ pad) = packet.tcpHeader := by
  rw [Frame.tcpHeader, ipHdrLen_frame, drop_frame_ip, TCPHeader.layout.read_append]

theorem tcpHdrLen_frame (hhdr : packet.tcpHeader.hdrLen = 0x50) :
    tcpHdrLen (packet.frame destMac srcMac id ++ pad) = 20 := by
  rw [tcpHdrLen, tcpHeader_frame, hhdr]
  rfl

theorem totalLen_frame (hsize : packet.data.length + 40 < 2 ^ 16) :
    totalLen (packet.frame destMac srcMac id ++ pad) = packet.data.length + 40 := by
  rw [totalLen, ipHeader_frame, length_bytes]
  simp only [sentHeader, createIpHeader, ntohs, htons_htons, BitVec.toNat_ofNat]
  exact Nat.mod_eq_of_lt hsize

theorem wellFormed_frame (hsize : packet.data.length + 40 < 2 ^ 16)
    (hhdr : packet.tcpHeader.hdrLen = 0x50) (hpad : pad.length < 2 ^ 31) :
    WellFormed (packet.frame destMac srcMac id ++ pad) := by
  have htcp := packet.tcpHdrLen_frame destMac srcMac id pad hhdr
  have hip := packet.ipHdrLen_frame destMac srcMac id pad
  have htotal := packet.totalLen_frame destMac srcMac id pad hsize
  have hlen := packet.length_frame destMac srcMac id pad
  constructor
  · rw [frame, List.append_assoc, EthHeader.layout.read_append, createEthHeader]
  · rw [ipHeader_frame, sentHeader, verHdrlen_createIpHeader]
    rfl
  · rw [ipHeader_frame]
    rfl
  all_goals omega

/-- **What the padding becomes.** The payload of a segment of this stack is its data, and what the
link adds to the frame is delivered behind it. -/
theorem payload_frame (hsize : packet.data.length + 40 < 2 ^ 16)
    (hhdr : packet.tcpHeader.hdrLen = 0x50) :
    payload (packet.frame destMac srcMac id ++ pad) = packet.data := by
  have hlen : (packet.frame destMac srcMac id).length = 14 + (packet.data.length + 40) := by
    have := packet.length_frame destMac srcMac id []
    rw [List.append_nil, List.length_nil] at this
    omega
  rw [payload, totalLen_frame _ _ _ _ _ hsize, ipHdrLen_frame, tcpHdrLen_frame _ _ _ _ _ hhdr,
    List.take_append_of_le_length hlen.ge, List.take_of_length_le hlen.le,
    ← List.append_nil (packet.frame destMac srcMac id)]
  exact (packet.data_frame destMac srcMac id []).trans (List.append_nil _)

end TCPPacket

/-! ### A short acknowledgement -/

namespace Frame

/-- A host with one device and a socket that waits for data. -/
def connectedHost : Host Socket where
  deviceList := [⟨0, BROAD_MAC, 0⟩]
  manRouteTable := []
  onlineRouteTable := []
  tmpRouteTable := []
  arpList := []
  resendIPTaskList := []
  id := 0
  lastBroad := none
  lastUpdate := none
  random_drop := 0
  wire := []
  upper := Solo.answeredClient

/-- An acknowledgement of its peer. -/
def ackPacket : TCPPacket :=
  ⟨0, 0, createTCPHeader 0 0 Solo.answeredClient.ackNum 0 ctAck 0xffff, []⟩

def shortAck : List Byte := ackPacket.frame BROAD_MAC BROAD_MAC 0

theorem wellFormed_shortAck (pad : List Byte) (hpad : pad.length < 2 ^ 31) :
    WellFormed (shortAck ++ pad) :=
  ackPacket.wellFormed_frame BROAD_MAC BROAD_MAC 0 pad (by decide) (by decide) hpad

theorem addressedTo_shortAck (pad : List Byte) : AddressedTo connectedHost (shortAck ++ pad) := by
  refine ⟨Or.inl ?_, ?_⟩
  · rw [shortAck, TCPPacket.frame, List.append_assoc, EthHeader.layout.read_append, createEthHeader]
  · rw [shortAck, TCPPacket.ipHeader_frame]
    rfl

theorem delivered_shortAck :
    len shortAck = (payload shortAck).length ∧
      (data shortAck).take (len shortAck).toNat = payload shortAck := by
  have h := (WellFormed.delivered_iff (wellFormed_shortAck [] (by decide))
    (addressedTo_shortAck []) ⟨0, 0⟩ ⟨0, BROAD_MAC, 0⟩).2.mpr (by decide)
  rwa [List.append_nil] at h

/-- With six bytes of padding it is as long as an Ethernet frame has to be, and the socket takes the
padding for data. -/
theorem not_delivered_paddedAck :
    ¬ ∀ (host : Host Socket) (frame : List Byte) (chance : Chance) (device : Device),
      WellFormed frame → AddressedTo host frame → ¬ Dropped host chance frame →
      receiveFrame [tcpMain] chance device frame host =
        (tcpMain (frame.drop 34) (payload frame) (payload frame).length (tcpHeader frame)
          (ipHeader frame) host.upper).map fun upper => { host with upper := upper } := by
  intro hclaim
  have hpadded := hclaim connectedHost (shortAck ++ List.replicate 6 0) ⟨0, 0⟩ ⟨0, BROAD_MAC, 0⟩
    (wellFormed_shortAck _ (by decide)) (addressedTo_shortAck _) (by decide)
  have hfront := congrArg (Option.map fun host => host.upper.recvFront) hpadded
  exact absurd hfront (by decide)

end Frame

end LabNetstack
