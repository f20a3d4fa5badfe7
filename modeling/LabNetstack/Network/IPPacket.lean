import LabNetstack.Network.Host

/-!
# IP packets

`sendIPPacket` puts a header in front of its data and finds the devices to send it on;
`handleIPPacket` passes what is behind a received header to every registered callback, forwards
what is for somebody else, and drops what the loss simulation picks.

## Main results

* `handleIPPacket_of_isMyPacket` — a packet of ours reaches the callbacks with everything behind its
  header
* `handleIPPacket_broadcast` — a broadcast reaches them as it was sent
-/

namespace LabNetstack

open Layout

/-! ### The header -/

/-- `struct IpHeader`, the multi-byte fields in network order. -/
structure IpHeader where
  verHdrlen : BitVec 8
  service : BitVec 8
  len : BitVec 16
  id : BitVec 16
  flagOffset : BitVec 16
  ttl : BitVec 8
  protocol : BitVec 8
  check : BitVec 16
  src : IPAddr
  dst : IPAddr
deriving DecidableEq

def IpHeader.layout : Struct IpHeader :=
  (uint8.pair (uint8.pair (uint16.pair (uint16.pair (uint16.pair (uint8.pair (uint8.pair
    (uint16.pair (uint32.pair uint32))))))))).iso
    ⟨fun (verHdrlen, service, len, id, flagOffset, ttl, protocol, check, src, dst) =>
        ⟨verHdrlen, service, len, id, flagOffset, ttl, protocol, check, src, dst⟩,
      fun h => (h.verHdrlen, h.service, h.len, h.id, h.flagOffset, h.ttl, h.protocol, h.check,
        h.src, h.dst), fun _ => rfl, fun _ => rfl⟩

@[simp] theorem IpHeader.size_layout : IpHeader.layout.size = 20 := rfl

/-- Two folds of the carries, then the complement. -/
def calcCheck (p : List Byte) : BitVec 16 :=
  let check : BitVec 32 := (uint16.readArray 10 p).foldl (fun check w => check + w.setWidth 32) 0
  let check := (check &&& 0xffff) + (check >>> 16)
  let check := (check &&& 0xffff) + (check >>> 16)
  ~~~check.setWidth 16

/-- The flags and the offset that are passed are not looked at. -/
def createIpHeader (version : BitVec 8) (len id : BitVec 16) (ttl protocol : BitVec 8)
    (src dst : IPAddr) : IpHeader :=
  let h : IpHeader :=
    { verHdrlen := (version &&& 0b1111) <<< 4 ||| 5
      service := 0
      len := len
      id := id
      flagOffset := 0x40
      ttl := ttl
      protocol := protocol
      check := 0
      src := src
      dst := dst }
  { h with check := calcCheck (IpHeader.layout.bytes h) }

def IPVERSION_IPv4 : BitVec 8 := 4

def IPPROTO_TCP : BitVec 8 := 6

theorem verHdrlen_createIpHeader (len id : BitVec 16) (ttl protocol : BitVec 8) (src dst : IPAddr) :
    (createIpHeader IPVERSION_IPv4 len id ttl protocol src dst).verHdrlen = 0x45 := by
  change (IPVERSION_IPv4 &&& 0b1111) <<< 4 ||| 5 = _
  decide

variable {τ : Type*}

/-! ### Sending -/

/-- The header that `sendIPPacket` puts in front of `len` bytes. -/
def sentHeader (src dest : IPAddr) (proto : BitVec 8) (len id : ℕ) : IpHeader :=
  createIpHeader IPVERSION_IPv4 (htons (BitVec.ofNat 16 (len + 20)))
    (htons (BitVec.ofNat 16 id)) 255
    proto src dest

/-- The packet that it makes of its data. -/
def ipPacket (src dest : IPAddr) (proto : BitVec 8) (buf : List Byte) (id : ℕ) : List Byte :=
  IpHeader.layout.bytes (sentHeader src dest proto buf.length id) ++ buf

theorem length_ipPacket (src dest : IPAddr) (proto : BitVec 8) (buf : List Byte) (id : ℕ) :
    (ipPacket src dest proto buf id).length = buf.length + 20 := by
  rw [ipPacket, List.length_append, IpHeader.layout.length_bytes, IpHeader.size_layout,
    Nat.add_comm]

/-- The branch on `queryARPList` sends when the address is *not* in the list. -/
def sendIPPacket (src dest : IPAddr) (proto : BitVec 8) (buf : List Byte) (noRetry : Bool)
    (host : Host τ) : Host τ × ℤ :=
  if buf.length > 0x10000 - IpHeader.layout.size ∨ buf.length ≤ 0 then (host, -1)
  else
    let packet := ipPacket src dest proto buf host.id
    let host := { host with id := host.id + 1 }
    if dest = BROAD_IP then
      (host.deviceList.foldl (fun host device => host.transmit packet BROAD_MAC device) host, 0)
    else
      match queryRouteTable host dest with
      | none => (host, -1)
      | some (dstmac, device) =>
        if queryARPList host dest ≠ 0 then (host.transmitAt packet dstmac device, 0)
        else if noRetry then (host, -1)
        else ({ host with
          resendIPTaskList := host.resendIPTaskList ++ [⟨src, dest, proto, buf⟩] }, 0)

def processResendIPTask (host : Host τ) : Host τ :=
  match host.resendIPTaskList with
  | [] => host
  | task :: rest =>
    (sendIPPacket task.src task.dest task.proto task.buf true
      { host with resendIPTaskList := rest }).1

/-- A packet for an address that is *not* in the ARP list is sent on what the lookup finds. -/
theorem sendIPPacket_miss {host : Host τ} {dest : IPAddr} {buf : List Byte}
    (hmiss : ∀ node ∈ host.arpList, node.1 ≠ dest) (hdest : dest ≠ BROAD_IP)
    (hpos : 0 < buf.length) (hle : buf.length ≤ 0x10000 - 20) {dstmac : MacAddr}
    {address : BitVec 64} (hquery : queryRouteTable host dest = some (dstmac, address))
    (src : IPAddr) (proto : BitVec 8) (noRetry : Bool) :
    sendIPPacket src dest proto buf noRetry host =
      ({ host with id := host.id + 1 }.transmitAt (ipPacket src dest proto buf host.id) dstmac
        address, 0) := by
  have hquery' : queryRouteTable { host with id := host.id + 1 } dest =
      some (dstmac, address) := hquery
  have hne : queryARPList { host with id := host.id + 1 } dest ≠ 0 := by
    rw [Ne, queryARPList_eq_zero_iff]
    rintro ⟨node, hnode, hip⟩
    exact hmiss node hnode hip
  rw [sendIPPacket, if_neg (by rw [IpHeader.size_layout]; omega)]
  simp only [if_neg hdest, hquery', if_pos hne]

/-- One for an address that is there waits for the next attempt, or is refused if this is it. -/
theorem sendIPPacket_hit {host : Host τ} {dest : IPAddr} {buf : List Byte}
    (hhit : ∃ node ∈ host.arpList, node.1 = dest) (hdest : dest ≠ BROAD_IP)
    (hpos : 0 < buf.length) (hle : buf.length ≤ 0x10000 - 20)
    (hroute : (queryRouteTable host dest).isSome) (src : IPAddr) (proto : BitVec 8)
    (noRetry : Bool) :
    sendIPPacket src dest proto buf noRetry host =
      if noRetry then ({ host with id := host.id + 1 }, -1)
      else ({ host with
        id := host.id + 1
        resendIPTaskList := host.resendIPTaskList ++ [⟨src, dest, proto, buf⟩] }, 0) := by
  obtain ⟨⟨dstmac, address⟩, hquery⟩ := Option.isSome_iff_exists.mp hroute
  have hquery' : queryRouteTable { host with id := host.id + 1 } dest =
      some (dstmac, address) := hquery
  have hzero : ¬ queryARPList { host with id := host.id + 1 } dest ≠ 0 :=
    not_not.mpr (queryARPList_eq_zero_iff.mpr hhit)
  rw [sendIPPacket, if_neg (by rw [IpHeader.size_layout]; omega)]
  simp only [if_neg hdest, hquery', if_neg hzero]

/-- Whatever becomes of a packet, only the wire, the counter and the queue change, and not the queue
if there is to be no retry. -/
theorem sendIPPacket_frame (src dest : IPAddr) (proto : BitVec 8) (buf : List Byte) (noRetry : Bool)
    (host : Host τ) :
    ∃ wire id tasks, (sendIPPacket src dest proto buf noRetry host).1 =
        { host with wire := wire, id := id, resendIPTaskList := tasks } ∧
      (noRetry = true → tasks = host.resendIPTaskList) := by
  have hloop : ∀ (packet : List Byte) (devices : List Device) (host : Host τ),
      ∃ wire, devices.foldl (fun host device => host.transmit packet BROAD_MAC device) host =
        { host with wire := wire } := by
    intro packet devices
    induction devices with
    | nil => exact fun host => ⟨host.wire, rfl⟩
    | cons device devices ih =>
      intro host
      obtain ⟨wire, hwire⟩ := host.transmit_frame packet BROAD_MAC device
      obtain ⟨wire', hwire'⟩ := ih { host with wire := wire }
      exact ⟨wire', by rw [List.foldl_cons, hwire, hwire']⟩
  rw [sendIPPacket]
  by_cases hlen : buf.length > 0x10000 - IpHeader.layout.size ∨ buf.length ≤ 0
  · rw [if_pos hlen]
    exact ⟨host.wire, host.id, host.resendIPTaskList, rfl, fun _ => rfl⟩
  rw [if_neg hlen]
  dsimp only
  by_cases hdest : dest = BROAD_IP
  · rw [if_pos hdest]
    obtain ⟨wire, hwire⟩ := hloop (ipPacket src dest proto buf host.id) host.deviceList
      { host with id := host.id + 1 }
    exact ⟨wire, host.id + 1, host.resendIPTaskList, hwire, fun _ => rfl⟩
  rw [if_neg hdest]
  split
  · exact ⟨host.wire, host.id + 1, host.resendIPTaskList, rfl, fun _ => rfl⟩
  · next dstmac device _ =>
    split_ifs with hsend hretry
    · obtain ⟨wire, hwire⟩ := { host with id := host.id + 1 }.transmitAt_frame
        (ipPacket src dest proto buf host.id) dstmac device
      exact ⟨wire, host.id + 1, host.resendIPTaskList, hwire, fun _ => rfl⟩
    · exact ⟨host.wire, host.id + 1, host.resendIPTaskList, rfl, fun _ => rfl⟩
    · exact ⟨host.wire, host.id + 1, _, rfl, fun h => absurd h hretry⟩

/-- A task is taken from the queue, for good. -/
theorem processResendIPTask_frame (host : Host τ) :
    ∃ wire id, processResendIPTask host =
      { host with wire := wire, id := id, resendIPTaskList := host.resendIPTaskList.tail } := by
  rw [processResendIPTask]
  split
  · next hnil => exact ⟨host.wire, host.id, by rw [hnil, List.tail_nil, ← hnil]⟩
  · next task rest hcons =>
    obtain ⟨wire, id, tasks, hsend, htasks⟩ := sendIPPacket_frame task.src task.dest task.proto
      task.buf true { host with resendIPTaskList := rest }
    exact ⟨wire, id, by rw [hsend, htasks rfl, hcons, List.tail_cons]⟩

/-! ### Receiving -/

/-- `IPPacketReceiveCallback`. -/
abbrev IPPacketReceiveCallback (τ : Type*) :=
  List Byte → BitVec 32 → IpHeader → Device → Host τ → Option (Host τ)

def setRandomDropRate (num : BitVec 32) (host : Host τ) : Host τ :=
  { host with random_drop := if num > 100 then 100 else num }

def isMyPacket (host : Host τ) (ipHeader : IpHeader) : Bool :=
  ipHeader.dst = BROAD_IP || host.deviceList.any fun device => ipHeader.dst = device.ipAddr

def deliverIPPacket (packet : List Byte) (pktlen : BitVec 32) (ip : IPAddr) (host : Host τ) :
    Option (Host τ) :=
  match queryRouteTable host ip with
  | none => some host
  | some (dstmac, device) =>
    if pktlen.toNat ≤ packet.length then
      some (host.transmitAt (packet.take pktlen.toNat) dstmac device)
    else none

/-- What the answer of `randomDrop` depends on besides the packet. -/
structure Chance where
  /-- The number that the call of `rand()` returns, if it is made. -/
  rand : ℕ
  /-- The byte that is read behind a packet with less than 14 bytes of data. -/
  behind : Byte
deriving DecidableEq

/-- The byte that holds the TCP flags is read first, whatever the protocol and however long the
packet. -/
def randomDrop (random_drop : BitVec 32) (chance : Chance) (data : List Byte) (ipHdr : IpHeader) :
    Bool :=
  data.getD 13 chance.behind = 0 && ipHdr.protocol = IPPROTO_TCP &&
    BitVec.ofNat 32 (chance.rand % 100) < random_drop

def handleIPPacket (networkCallbackList : List (IPPacketReceiveCallback τ)) (chance : Chance)
    (packet : List Byte) (pktlen : BitVec 32) (ethHdr : EthHeader) (device : Device)
    (host : Host τ) : Option (Host τ) :=
  if ethHdr.type ≠ ETHTYPE_IPv4 then some host
  else
    match IpHeader.layout.read? packet with
    | none => none
    | some hdr =>
      let data := packet.drop IpHeader.layout.size
      let len := pktlen - BitVec.ofNat 32 IpHeader.layout.size
      if randomDrop host.random_drop chance data hdr then some host
      else if isMyPacket host hdr then
        networkCallbackList.foldlM (fun host f => f data len hdr device host) host
      else deliverIPPacket packet pktlen hdr.dst host

/-- **What the callbacks get.** Everything behind the first twenty bytes, for a length of twenty
less than the frame has. -/
theorem handleIPPacket_of_isMyPacket {host : Host τ} {chance : Chance} {packet : List Byte}
    {ethHdr : EthHeader} (htype : ethHdr.type = ETHTYPE_IPv4)
    (hsize : IpHeader.layout.size ≤ packet.length)
    (hmine : isMyPacket host (IpHeader.layout.read packet) = true)
    (callbacks : List (IPPacketReceiveCallback τ)) (pktlen : BitVec 32) (device : Device) :
    handleIPPacket callbacks chance packet pktlen ethHdr device host =
      if randomDrop host.random_drop chance (packet.drop IpHeader.layout.size)
          (IpHeader.layout.read packet) then some host
      else callbacks.foldlM (fun host f => f (packet.drop IpHeader.layout.size) (pktlen - 20)
        (IpHeader.layout.read packet) device host) host := by
  rw [handleIPPacket, if_neg (not_not.mpr htype), Struct.read?, if_pos hsize]
  simp only [if_pos hmine]
  rfl

/-- What the loss simulation picks goes nowhere. -/
theorem handleIPPacket_of_dropped {host : Host τ} {chance : Chance} {packet : List Byte}
    {ethHdr : EthHeader} (htype : ethHdr.type = ETHTYPE_IPv4)
    (hsize : IpHeader.layout.size ≤ packet.length)
    (hdrop : randomDrop host.random_drop chance (packet.drop IpHeader.layout.size)
      (IpHeader.layout.read packet) = true)
    (callbacks : List (IPPacketReceiveCallback τ)) (pktlen : BitVec 32) (device : Device) :
    handleIPPacket callbacks chance packet pktlen ethHdr device host = some host := by
  rw [handleIPPacket, if_neg (not_not.mpr htype), Struct.read?, if_pos hsize]
  simp only [hdrop, if_true]

/-- A packet that is not TCP is never dropped on purpose. -/
theorem randomDrop_of_ne {ipHdr : IpHeader} (h : ipHdr.protocol ≠ IPPROTO_TCP) (drop : BitVec 32)
    (chance : Chance) (data : List Byte) : randomDrop drop chance data ipHdr = false := by
  rw [randomDrop, decide_eq_false h, Bool.and_false, Bool.false_and]

/-- Nothing is dropped at a loss rate of zero. -/
theorem randomDrop_zero (chance : Chance) (data : List Byte) (ipHdr : IpHeader) :
    randomDrop 0 chance data ipHdr = false := by
  have hlt : ¬ BitVec.ofNat 32 (chance.rand % 100) < 0 := BitVec.not_lt_zero
  rw [randomDrop, decide_eq_false hlt, Bool.and_false]

/-- What lies behind a packet does not matter, but for a TCP packet without flags. -/
theorem randomDrop_behind {ipHdr : IpHeader} {data : List Byte}
    (hflags : ipHdr.protocol = IPPROTO_TCP → 14 ≤ data.length) (drop : BitVec 32) (rand : ℕ)
    (behind behind' : Byte) :
    randomDrop drop ⟨rand, behind⟩ data ipHdr = randomDrop drop ⟨rand, behind'⟩ data ipHdr := by
  by_cases htcp : ipHdr.protocol = IPPROTO_TCP
  · have hsize : 13 < data.length := hflags htcp
    simp only [randomDrop, List.getD_eq_getElem data _ hsize]
  · rw [randomDrop_of_ne htcp, randomDrop_of_ne htcp]

/-- A packet for somebody else is forwarded. -/
theorem handleIPPacket_of_not_isMyPacket {host : Host τ} {chance : Chance} {packet : List Byte}
    {ethHdr : EthHeader} (htype : ethHdr.type = ETHTYPE_IPv4)
    (hsize : IpHeader.layout.size ≤ packet.length)
    (hother : isMyPacket host (IpHeader.layout.read packet) = false)
    (hdrop : randomDrop host.random_drop chance (packet.drop IpHeader.layout.size)
      (IpHeader.layout.read packet) = false)
    (callbacks : List (IPPacketReceiveCallback τ)) (pktlen : BitVec 32) (device : Device) :
    handleIPPacket callbacks chance packet pktlen ethHdr device host =
      deliverIPPacket packet pktlen (IpHeader.layout.read packet).dst host := by
  rw [handleIPPacket, if_neg (not_not.mpr htype), Struct.read?, if_pos hsize]
  simp only [hdrop, hother, Bool.false_eq_true, if_false]

/-- What is there is sent, if there is a route, and changes nothing but the wire. -/
theorem deliverIPPacket_frame {packet : List Byte} {pktlen : BitVec 32}
    (hlen : pktlen.toNat ≤ packet.length) (ip : IPAddr) (host : Host τ) :
    ∃ wire, deliverIPPacket packet pktlen ip host = some { host with wire := wire } := by
  rw [deliverIPPacket]
  split
  · exact ⟨host.wire, rfl⟩
  · next dstmac device _ =>
    obtain ⟨wire, hwire⟩ := host.transmitAt_frame (packet.take pktlen.toNat) dstmac device
    exact ⟨wire, by rw [if_pos hlen, hwire]⟩

/-- All of it, its header included. -/
theorem deliverIPPacket_eq {host : Host τ} {packet : List Byte} (hlen : packet.length < 2 ^ 32)
    {ip : IPAddr} {dstmac : MacAddr} {device : BitVec 64}
    (hquery : queryRouteTable host ip = some (dstmac, device)) :
    deliverIPPacket packet (BitVec.ofNat 32 packet.length) ip host =
      some (host.transmitAt packet dstmac device) := by
  simp only [deliverIPPacket, hquery]
  rw [BitVec.toNat_ofNat, Nat.mod_eq_of_lt hlen, if_pos le_rfl, List.take_length]

/-- **Across a network.** A broadcast of any protocol but TCP is handed to every callback, byte for
byte and with its length. -/
theorem handleIPPacket_broadcast {proto : BitVec 8} (hproto : proto ≠ IPPROTO_TCP)
    {ethHdr : EthHeader} (htype : ethHdr.type = ETHTYPE_IPv4) (src : IPAddr) (buf : List Byte)
    (id : ℕ) (callbacks : List (IPPacketReceiveCallback τ)) (chance : Chance) (device : Device)
    (host : Host τ) :
    handleIPPacket callbacks chance (ipPacket src BROAD_IP proto buf id)
        (BitVec.ofNat 32 (ipPacket src BROAD_IP proto buf id).length) ethHdr device host =
      callbacks.foldlM (fun host f => f buf (BitVec.ofNat 32 buf.length)
        (sentHeader src BROAD_IP proto buf.length id) device host) host := by
  have hread : IpHeader.layout.read (ipPacket src BROAD_IP proto buf id)
      = sentHeader src BROAD_IP proto buf.length id := IpHeader.layout.read_append _ _
  have hdrop : (ipPacket src BROAD_IP proto buf id).drop IpHeader.layout.size = buf :=
    IpHeader.layout.drop_append _ _
  have hsub : BitVec.ofNat 32 (ipPacket src BROAD_IP proto buf id).length - 20
      = BitVec.ofNat 32 buf.length := by
    rw [length_ipPacket, BitVec.ofNat_add]
    exact BitVec.add_sub_cancel _ _
  rw [handleIPPacket_of_isMyPacket htype
    (by rw [length_ipPacket, IpHeader.size_layout]; exact Nat.le_add_left ..)
    (by rw [hread]; exact Bool.or_eq_true_iff.mpr (Or.inl rfl)),
    randomDrop_of_ne (by rw [hread]; exact hproto), hread, hdrop, hsub]
  rfl

end LabNetstack
