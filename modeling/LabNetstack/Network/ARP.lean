import LabNetstack.Network.Host

/-!
# Address resolution

`arp.c`: a host asks on all its devices who has an address, the host that has it answers, and the
answer is put in the list of the one who asked. The opcode is the one field that the two sides do
not treat alike: it is sent in network order, and compared as it comes. So no request is answered
and no reply believed; what is taken for a request has the opcode 256, and what is taken for a reply
has 512.

When a node is to be deleted is left out, as in the tables of a host: nothing reads it.

## Main results

* `handleARPPacket_append` — what becomes of a packet
* `arp_agree_iff` — when the two sides agree
-/

namespace LabNetstack

open Layout

variable {τ : Type*}

def ETHTYPE_ARP : BitVec 16 := 0x0806

def ZREO_MAC : MacAddr := ⟨Vector.replicate 6 0⟩

/-! ### The packet -/

/-- `struct ARPPacket`, the multi-byte fields in network order. -/
structure ARPPacket where
  hType : BitVec 16
  pType : BitVec 16
  hLen : BitVec 8
  pLen : BitVec 8
  code : BitVec 16
  srcHAddr : MacAddr
  srcPAddr : IPAddr
  dstHAddr : MacAddr
  dstPAddr : IPAddr
deriving DecidableEq

def ARPPacket.layout : Struct ARPPacket :=
  (uint16.pair (uint16.pair (uint8.pair (uint8.pair (uint16.pair (MacAddr.layout.pair (uint32.pair
    (MacAddr.layout.pair uint32)))))))).iso
    ⟨fun (hType, pType, hLen, pLen, code, srcHAddr, srcPAddr, dstHAddr, dstPAddr) =>
        ⟨hType, pType, hLen, pLen, code, srcHAddr, srcPAddr, dstHAddr, dstPAddr⟩,
      fun p => (p.hType, p.pType, p.hLen, p.pLen, p.code, p.srcHAddr, p.srcPAddr, p.dstHAddr,
        p.dstPAddr), fun _ => rfl, fun _ => rfl⟩

@[simp] theorem ARPPacket.size_layout : ARPPacket.layout.size = 28 := rfl

/-- Nobody passes a `code` but 1 and 2. -/
def createARPPacket (code : BitVec 16) (srcHAddr : MacAddr) (srcPAddr : IPAddr)
    (dstHAddr : MacAddr) (dstPAddr : IPAddr) : ARPPacket where
  hType := htons 0x0001
  pType := htons 0x0800
  hLen := 6
  pLen := 4
  code := htons code
  srcHAddr := srcHAddr
  srcPAddr := srcPAddr
  dstHAddr := if code = 1 then ZREO_MAC else dstHAddr
  dstPAddr := dstPAddr

/-! ### Sending -/

/-- What `sendARPRequest` sends on a device. -/
def arpRequest (device : Device) (dstPAddr : IPAddr) : ARPPacket :=
  createARPPacket 1 device.macAddr device.ipAddr ZREO_MAC dstPAddr

/-- What `sendARPReply` sends. -/
def arpReply (dstHAddr : MacAddr) (dstPAddr : IPAddr) (device : Device) : ARPPacket :=
  createARPPacket 2 device.macAddr device.ipAddr dstHAddr dstPAddr

/-- The loop of `sendARPRequest`, which a device that cannot send ends. -/
def requestOn (dstPAddr : IPAddr) : List Device → Host τ → Host τ × ℤ
  | [], host => (host, 0)
  | device :: rest, host =>
    match sendFrame (ARPPacket.layout.bytes (arpRequest device dstPAddr)) ETHTYPE_ARP BROAD_MAC
        device with
    | none => (host, -1)
    | some frame => requestOn dstPAddr rest { host with wire := host.wire ++ [(device, frame)] }

def sendARPRequest (dstPAddr : IPAddr) (host : Host τ) : Host τ × ℤ :=
  requestOn dstPAddr host.deviceList host

def sendARPReply (dstHAddr : MacAddr) (dstPAddr : IPAddr) (device : Device) (host : Host τ) :
    Host τ × ℤ :=
  match sendFrame (ARPPacket.layout.bytes (arpReply dstHAddr dstPAddr device)) ETHTYPE_ARP dstHAddr
      device with
  | none => (host, -1)
  | some frame => ({ host with wire := host.wire ++ [(device, frame)] }, 0)

/-- A packet in its frame. -/
def arpFrame (packet : ARPPacket) (destMac : MacAddr) (device : Device) : List Byte :=
  EthHeader.layout.bytes (createEthHeader destMac device.macAddr (htons ETHTYPE_ARP)) ++
    ARPPacket.layout.bytes packet

theorem sendFrame_arp (packet : ARPPacket) (destMac : MacAddr) (device : Device) :
    sendFrame (ARPPacket.layout.bytes packet) ETHTYPE_ARP destMac device =
      some (arpFrame packet destMac device) := by
  rw [sendFrame, ARPPacket.layout.length_bytes, if_neg (by decide)]
  rfl

/-- A request leaves through every device. -/
theorem sendARPRequest_eq (dstPAddr : IPAddr) (host : Host τ) :
    sendARPRequest dstPAddr host = ({ host with
      wire := host.wire ++ host.deviceList.map fun device =>
        (device, arpFrame (arpRequest device dstPAddr) BROAD_MAC device) }, 0) := by
  have hloop : ∀ (devices : List Device) (host : Host τ), requestOn dstPAddr devices host =
      ({ host with wire := host.wire ++ devices.map fun device =>
        (device, arpFrame (arpRequest device dstPAddr) BROAD_MAC device) }, 0) := by
    intro devices
    induction devices with
    | nil =>
      intro host
      rw [requestOn, List.map_nil, List.append_nil]
    | cons device devices ih =>
      intro host
      simp only [requestOn, sendFrame_arp]
      rw [ih, List.map_cons]
      simp only [List.append_assoc, List.singleton_append]
  exact hloop host.deviceList host

theorem sendARPReply_eq (dstHAddr : MacAddr) (dstPAddr : IPAddr) (device : Device)
    (host : Host τ) : sendARPReply dstHAddr dstPAddr device host = ({ host with
      wire := host.wire ++ [(device, arpFrame (arpReply dstHAddr dstPAddr device) dstHAddr device)]
      }, 0) := by
  simp only [sendARPReply, sendFrame_arp]

/-- One reply for each device. -/
theorem replies_eq (dstHAddr : MacAddr) (dstPAddr : IPAddr) (devices : List Device)
    (host : Host τ) :
    devices.foldl (fun host device => (sendARPReply dstHAddr dstPAddr device host).1) host =
      { host with wire := host.wire ++ devices.map fun device =>
        (device, arpFrame (arpReply dstHAddr dstPAddr device) dstHAddr device) } := by
  induction devices generalizing host with
  | nil => rw [List.foldl_nil, List.map_nil, List.append_nil]
  | cons device devices ih =>
    rw [List.foldl_cons, ih, sendARPReply_eq, List.map_cons]
    simp only [List.append_assoc, List.singleton_append]

/-! ### The list -/

/-- `insertARPNode`, on the pairs of the list: the node of the address is overwritten, or a new one
is put behind the others. -/
def insertARPNode (arpNode : IPAddr × MacAddr) : List (IPAddr × MacAddr) → List (IPAddr × MacAddr)
  | [] => [arpNode]
  | p :: rest => if p.1 = arpNode.1 then arpNode :: rest else p :: insertARPNode arpNode rest

/-- Nothing changes if the address is there with this MAC. -/
theorem insertARPNode_eq_self_iff {arpNode : IPAddr × MacAddr} {list : List (IPAddr × MacAddr)} :
    insertARPNode arpNode list = list ↔ (list.find? fun p => p.1 = arpNode.1) = some arpNode := by
  induction list with
  | nil => exact iff_of_false (List.cons_ne_nil _ _) (by simp)
  | cons p rest ih =>
    rw [insertARPNode]
    split_ifs with hip
    · rw [List.find?_cons_of_pos (by simpa using hip)]
      simp [eq_comm]
    · rw [List.find?_cons_of_neg (by simpa using hip), ← ih]
      simp

/-! ### Receiving -/

/-- Ethernet and IPv4, as every packet is to be. -/
def ARPPacket.IsIPv4 (packet : ARPPacket) : Prop :=
  packet.hType = htons 0x0001 ∧ packet.pType = htons 0x0800 ∧ packet.hLen = 6 ∧ packet.pLen = 4
deriving Decidable

/-- The two comparisons of the opcode are with what the sender has in host order. -/
def handleARPPacket (packet : List Byte) (_pktlen : BitVec 32) (ethHdr : EthHeader)
    (_device : Device) (host : Host τ) : Option (Host τ) :=
  if ethHdr.type ≠ ETHTYPE_ARP then some host
  else
    match ARPPacket.layout.read? packet with
    | none => none
    | some arpPacket =>
      if ¬ arpPacket.IsIPv4 then some host
      else if arpPacket.code = 1 then
        some (host.deviceList.foldl (fun host device =>
          if arpPacket.dstPAddr = device.ipAddr then
            (sendARPReply arpPacket.srcHAddr arpPacket.srcPAddr device host).1
          else host) host)
      else if arpPacket.code = 2 then
        some { host with
          arpList := insertARPNode (arpPacket.srcPAddr, arpPacket.srcHAddr) host.arpList }
      else some host

/-- Whatever frame the packet comes in, the host is `host'` then. -/
def Handles (host : Host τ) (packet : ARPPacket) (host' : Host τ) : Prop :=
  ∀ (pad : List Byte) (pktlen : BitVec 32) (ethHdr : EthHeader) (device : Device),
    ethHdr.type = ETHTYPE_ARP →
      handleARPPacket (ARPPacket.layout.bytes packet ++ pad) pktlen ethHdr device host = some host'

/-- The replies to a packet that asks for an address. -/
def replies (host : Host τ) (packet : ARPPacket) : Host τ :=
  (host.deviceList.filter fun device => device.ipAddr = packet.dstPAddr).foldl
    (fun host device => (sendARPReply packet.srcHAddr packet.srcPAddr device host).1) host

/-- The loop over the devices skips the others. -/
theorem replies_eq_loop (host : Host τ) (packet : ARPPacket) :
    replies host packet = host.deviceList.foldl (fun host device =>
      if packet.dstPAddr = device.ipAddr then
        (sendARPReply packet.srcHAddr packet.srcPAddr device host).1
      else host) host := by
  rw [replies, List.foldl_filter]
  simp only [decide_eq_true_eq, @eq_comm _ packet.dstPAddr]

/-- **What becomes of a packet.** -/
theorem handleARPPacket_append (host : Host τ) (packet : ARPPacket) :
    Handles host packet
      (if packet.IsIPv4 ∧ packet.code = 1 then replies host packet
      else if packet.IsIPv4 ∧ packet.code = 2 then { host with
        arpList := insertARPNode (packet.srcPAddr, packet.srcHAddr) host.arpList }
      else host) := by
  intro pad pktlen ethHdr device htype
  rw [handleARPPacket, if_neg (not_not.mpr htype), ARPPacket.layout.read?_append]
  by_cases hipv4 : packet.IsIPv4
  · simp only [hipv4, not_true_eq_false, if_false, true_and]
    split_ifs
    · rw [replies_eq_loop]
    · rfl
    · rfl
  · simp only [hipv4, not_false_eq_true, if_true, false_and, if_false]

theorem Handles.unique {host host₁ host₂ : Host τ} {packet : ARPPacket}
    (h₁ : Handles host packet host₁) (h₂ : Handles host packet host₂) : host₁ = host₂ := by
  have hsame := (h₁ [] 0 ⟨BROAD_MAC, BROAD_MAC, ETHTYPE_ARP⟩ ⟨0, BROAD_MAC, 0⟩ rfl).symm.trans
    (h₂ [] 0 ⟨BROAD_MAC, BROAD_MAC, ETHTYPE_ARP⟩ ⟨0, BROAD_MAC, 0⟩ rfl)
  exact Option.some.inj hsame

theorem handles_iff {host host' : Host τ} {packet : ARPPacket} : Handles host packet host' ↔
    (if packet.IsIPv4 ∧ packet.code = 1 then replies host packet
      else if packet.IsIPv4 ∧ packet.code = 2 then { host with
        arpList := insertARPNode (packet.srcPAddr, packet.srcHAddr) host.arpList }
      else host) = host' := by
  constructor
  · exact fun h => (handleARPPacket_append host packet).unique h
  · rintro rfl
    exact handleARPPacket_append host packet

/-- A packet that is there as a whole changes the wire or the list. -/
theorem handleARPPacket_frame {packet : List Byte} {ethHdr : EthHeader}
    (hsize : ethHdr.type = ETHTYPE_ARP → ARPPacket.layout.size ≤ packet.length)
    (pktlen : BitVec 32) (device : Device) (host : Host τ) :
    ∃ wire arpList, handleARPPacket packet pktlen ethHdr device host =
      some { host with wire := wire, arpList := arpList } := by
  by_cases htype : ethHdr.type = ETHTYPE_ARP
  · rw [handleARPPacket, if_neg (not_not.mpr htype), Struct.read?, if_pos (hsize htype)]
    dsimp only
    split_ifs
    · rw [← replies_eq_loop, replies, replies_eq]
      exact ⟨_, host.arpList, rfl⟩
    · exact ⟨host.wire, _, rfl⟩
    · exact ⟨host.wire, host.arpList, rfl⟩
    · exact ⟨host.wire, host.arpList, rfl⟩
  · rw [handleARPPacket, if_pos htype]
    exact ⟨host.wire, host.arpList, rfl⟩

/-- There is a reply unless no device has the address. -/
theorem replies_eq_self_iff {host : Host τ} {packet : ARPPacket} :
    replies host packet = host ↔ ∀ device ∈ host.deviceList, device.ipAddr ≠ packet.dstPAddr := by
  rw [replies, replies_eq]
  constructor
  · intro h device hdevice hip
    have hwire : _ ++ _ = host.wire := congrArg Host.wire h
    rw [List.append_right_eq_self, List.map_eq_nil_iff, List.filter_eq_nil_iff] at hwire
    exact hwire device hdevice (by simpa using hip)
  · intro h
    rw [List.filter_eq_nil_iff.mpr fun device hdevice => by simpa using h device hdevice,
      List.map_nil, List.append_nil]

/-! ### The two sides -/

/-- The other host answers a request, and the requester learns from each answer. -/
structure Exchange (requester : Host τ) (device : Device) (dstPAddr : IPAddr) (other : Host τ) :
    Prop where
  answered : Handles other (arpRequest device dstPAddr)
    ((other.deviceList.filter fun it => it.ipAddr = dstPAddr).foldl
      (fun host it => (sendARPReply device.macAddr device.ipAddr it host).1) other)
  learned : ∀ it ∈ other.deviceList, it.ipAddr = dstPAddr →
    Handles requester (arpReply device.macAddr device.ipAddr it)
      { requester with arpList := insertARPNode (dstPAddr, it.macAddr) requester.arpList }

/-- Neither a request nor a reply. -/
def ARPPacket.Foreign (packet : ARPPacket) : Prop :=
  ¬ packet.IsIPv4 ∨ ntohs packet.code ≠ 1 ∧ ntohs packet.code ≠ 2

theorem code_eq_iff {code n : BitVec 16} : code = n ↔ ntohs code = htons n := by
  constructor
  · rintro rfl
    rfl
  · intro h
    rw [← htons_htons code, ← htons_htons n]
    exact congrArg htons h

/-- A request is ignored. -/
theorem handles_arpRequest {host host' : Host τ} {device : Device} {dstPAddr : IPAddr} :
    Handles host (arpRequest device dstPAddr) host' ↔ host = host' := by
  have hcode : (arpRequest device dstPAddr).code = 256 := rfl
  rw [handles_iff, hcode, if_neg fun h => absurd h.2 (by decide),
    if_neg fun h => absurd h.2 (by decide)]

/-- **The two opcodes in the wrong byte order.** -/
theorem handles_self_iff {host : Host τ} {packet : ARPPacket} : Handles host packet host ↔
    (packet.IsIPv4 →
      (ntohs packet.code = 256 → ∀ it ∈ host.deviceList, it.ipAddr ≠ packet.dstPAddr) ∧
      (ntohs packet.code = 512 → (host.arpList.find? fun node => node.1 = packet.srcPAddr) =
        some (packet.srcPAddr, packet.srcHAddr))) := by
  have hone : packet.code = 1 ↔ ntohs packet.code = 256 := code_eq_iff
  have htwo : packet.code = 2 ↔ ntohs packet.code = 512 := code_eq_iff
  rw [handles_iff, ← hone, ← htwo]
  by_cases hipv4 : packet.IsIPv4
  · by_cases hreply : packet.code = 1
    · have hne : packet.code ≠ 2 := hreply ▸ by decide
      rw [if_pos ⟨hipv4, hreply⟩, replies_eq_self_iff]
      simp only [hipv4, hreply, true_imp_iff]
      exact (and_iff_left fun h => absurd h (by decide)).symm
    · by_cases hinsert : packet.code = 2
      · rw [if_neg fun h => hreply h.2, if_pos ⟨hipv4, hinsert⟩]
        simp only [hipv4, hinsert, true_imp_iff]
        rw [and_iff_right fun h => absurd h (by decide),
          ← @insertARPNode_eq_self_iff (packet.srcPAddr, packet.srcHAddr)]
        exact ⟨congrArg Host.arpList, fun h => by rw [h]⟩
      · rw [if_neg fun h => hreply h.2, if_neg fun h => hinsert h.2]
        exact iff_of_true rfl fun _ => ⟨fun h => absurd h hreply, fun h => absurd h hinsert⟩
  · rw [if_neg fun h => hipv4 h.1, if_neg fun h => hipv4 h.1]
    exact iff_of_true rfl fun h => absurd h hipv4

/-- **Two hosts agree** exactly if nobody is asked who would have to answer; and what is neither a
request nor a reply is ignored exactly if it does not have one of their opcodes in the wrong byte
order, or changes nothing all the same. -/
theorem arp_agree_iff {requester other : Host τ} {device : Device} {dstPAddr : IPAddr}
    {packet : ARPPacket} :
    (Exchange requester device dstPAddr other ↔
      ∀ it ∈ other.deviceList, it.ipAddr ≠ dstPAddr) ∧
    ((packet.Foreign → Handles other packet other) ↔ (packet.IsIPv4 →
      (ntohs packet.code = 256 → ∀ it ∈ other.deviceList, it.ipAddr ≠ packet.dstPAddr) ∧
      (ntohs packet.code = 512 → (other.arpList.find? fun node => node.1 = packet.srcPAddr) =
        some (packet.srcPAddr, packet.srcHAddr)))) := by
  refine ⟨⟨fun h => ?_, fun hnone => ?_⟩, ?_⟩
  · have hsame : other = replies other (arpRequest device dstPAddr) :=
      handles_arpRequest.mp h.answered
    exact replies_eq_self_iff.mp hsame.symm
  · refine ⟨handles_arpRequest.mpr ?_, fun it hit hip => absurd hip (hnone it hit)⟩
    rw [List.filter_eq_nil_iff.mpr fun it hit => by simpa using hnone it hit, List.foldl_nil]
  · rw [← handles_self_iff]
    refine ⟨fun h => ?_, fun h _ => h⟩
    by_cases hforeign : packet.Foreign
    · exact h hforeign
    · -- a request or a reply is ignored in any case
      obtain ⟨-, hcode⟩ := not_or.mp hforeign
      refine handles_self_iff.mpr fun _ => ⟨fun h => absurd ?_ hcode, fun h => absurd ?_ hcode⟩
      · rw [h]
        decide
      · rw [h]
        decide

/-- A host with one device. -/
def asked : Host Unit where
  deviceList := [⟨1, BROAD_MAC, 3⟩]
  manRouteTable := []
  onlineRouteTable := []
  tmpRouteTable := []
  arpList := []
  resendIPTaskList := []
  id := 0
  lastBroad := none
  lastUpdate := none
  random_drop := 0
  wire := []
  upper := ()

/-- A request is not answered, and a packet with the opcode 256 is. -/
theorem not_arp_agree :
    (¬ ∀ (requester other : Host Unit) (device : Device) (dstPAddr : IPAddr),
      Exchange requester device dstPAddr other) ∧
    ¬ ∀ (host : Host Unit) (packet : ARPPacket), packet.Foreign → Handles host packet host := by
  constructor
  · intro hclaim
    have hanswered := (hclaim asked asked ⟨2, BROAD_MAC, 4⟩ 3).answered
    have hlength : (1 : ℕ) = 0 :=
      congrArg (fun host => host.wire.length) (handles_arpRequest.mp hanswered).symm
    exact absurd hlength one_ne_zero
  · intro hclaim
    have hhandled := hclaim asked
      { arpRequest ⟨2, BROAD_MAC, 4⟩ 3 with code := 1 } (Or.inr ⟨by decide, by decide⟩)
    have hnone := (handles_self_iff.mp hhandled ⟨rfl, rfl, rfl, rfl⟩).1 (by decide)
    exact hnone _ List.mem_cons_self rfl

end LabNetstack
