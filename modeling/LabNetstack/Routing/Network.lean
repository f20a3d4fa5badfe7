import LabNetstack.Lib.Channel
import LabNetstack.Routing.Learning
import LabNetstack.Routing.TimeToLive
import LabNetstack.Routing.Trailer

/-!
# Everything at once

A network in which each host may do anything that `NetworkLayer` has, at any time: applications send
whatever they like, tables are broadcast and updated, manual routes are set, addresses are asked
for. The links carry a copy to every device at the other end, in any order, and they may lose a
copy or carry it twice.

Whatever happens, there are only two kinds of frames. Most carry a packet that some host has handed
to `sendIPPacket`, byte for byte, however often it has been forwarded; the others are requests for an
address, which nobody understands. So the ARP lists stay empty, and with them the queues of what is
to be sent again.

## Main results

* `Network.run_genuine` — what is on the links, and what the hosts hold, at any time
* `Network.run_receives` — every frame can be received, whatever lies behind it
* `Network.run_quiet` — a packet with a route goes out at once, and one without is refused
* `Network.run_arrivals` — what reaches TCP has been sent to it
-/

namespace LabNetstack

open Layout

/-- What can happen next: a host is called, a copy is received, a link loses one or carries it
twice. -/
inductive Network.Event (ι : Type*)
  | call (v : ι) (action : NetworkLayer.Action)
  | receive (i : ℕ) (chance : Chance)
  | lose (i : ℕ)
  | repeatAt (i : ℕ)

namespace Network

variable {ι τ : Type*} [DecidableEq ι] (topo : Topology ι)
  (callbacks : List (TCPPacketReceiveCallback τ))

/-- `initNetworkLayer` on every host. -/
def start (upper : ι → τ) : Mesh ι τ where
  host v := NetworkLayer.start (topo.devices v) (upper v)
  air := []

/-- Frames come from the links only. -/
def step : Event ι → Mesh ι τ → Option (Mesh ι τ)
  | .call _ (.handleFrame _ _ _ _), _ => none
  | .call v action, s => (NetworkLayer.step callbacks action (s.host v)).map (s.put topo v)
  | .receive i chance, s =>
    match s.air[i]? with
    | none => none
    | some (v, device, frame) =>
      (NetworkLayer.step callbacks
        (.handleFrame chance device ⟨BitVec.ofNat 32 frame.length⟩ frame) (s.host v)).map
        fun host => { s with air := s.air.eraseIdx i }.put topo v host
  | .lose i, s => some { s with air := Channel.lose i s.air }
  | .repeatAt i, s => some { s with air := Channel.repeatAt i s.air }

/-! ### The frames -/

/-- What a host has handed to `sendIPPacket`: what an application wanted to send, or an
advertisement of a table. -/
inductive Handed (events : List (Event ι)) (u : ι) : IPAddr → IPAddr → BitVec 8 → List Byte → Prop
  | sendIPPacket {src dest : IPAddr} {proto : BitVec 8} {buf : List Byte} {noRetry : Bool}
      (h : .call u (.sendIPPacket src dest proto buf noRetry) ∈ events) :
      Handed events u src dest proto buf
  | broadcast {now : ℕ} {device : Device} {table : List RouteEntry}
      (h : .call u (.broadcastRouteTable now) ∈ events) (hdevice : device ∈ topo.devices u) :
      Handed events u device.ipAddr BROAD_IP ROUTE_PROTOCOL (routeAdvert table device.macAddr)

/-- The two kinds of frames. -/
inductive Made (events : List (Event ι)) : List Byte → Prop
  | packet {u : ι} {src dest : IPAddr} {proto : BitVec 8} {buf : List Byte}
      (h : Handed topo events u src dest proto buf) (hpos : 0 < buf.length)
      (hfit : buf.length ≤ 0x10000 - 34) (id : ℕ) (destMac srcMac : MacAddr) :
      Made events (packetFrame destMac srcMac (ipPacket src dest proto buf id))
  | request (device : Device) (dstPAddr : IPAddr) :
      Made events (arpFrame (arpRequest device dstPAddr) BROAD_MAC device)

/-- Nothing is learnt of any address, nor put off. -/
structure Quiet (deviceList : List Device) (host : Host τ) : Prop where
  linked : NetworkLayer.Linked deviceList host
  arpList : host.arpList = []
  resendIPTaskList : host.resendIPTaskList = []

/-- After these events: every frame is of one of the two kinds, and every host is quiet. -/
structure Genuine (events : List (Event ι)) (s : Mesh ι τ) : Prop where
  quiet : ∀ v, Quiet (topo.devices v) (s.host v)
  wire : ∀ v, (s.host v).wire = []
  air : ∀ copy ∈ s.air, copy.2.1 ∈ topo.devices copy.1 ∧ Made topo events copy.2.2

/-- What a segment for the node can make of the state above its network layer. -/
def Arrives (events : List (Event ι)) (v : ι) (upper upper' : τ) : Prop :=
  ∃ (u : ι) (src dest : IPAddr) (buf : List Byte) (id : ℕ),
    Handed topo events u src dest IPPROTO_TCP buf ∧ (dest = BROAD_IP ∨ topo.Owns v dest) ∧
    20 ≤ buf.length ∧ callbacks.foldlM (fun t (f : TCPPacketReceiveCallback τ) =>
      f buf (buf.drop 20) (buf.length - 20 : ℕ) (TCPHeader.layout.read buf)
        (sentHeader src dest IPPROTO_TCP buf.length id) t) upper = some upper'

variable {topo callbacks} {events events' : List (Event ι)} {s s' : Mesh ι τ} {host host' : Host τ}
  {src dest : IPAddr} {proto : BitVec 8} {buf : List Byte}

omit [DecidableEq ι] in
theorem Handed.mono (hle : events ⊆ events') {u : ι} (h : Handed topo events u src dest proto buf) :
    Handed topo events' u src dest proto buf := by
  cases h with
  | sendIPPacket h => exact .sendIPPacket (hle h)
  | broadcast h hdevice => exact .broadcast (hle h) hdevice

omit [DecidableEq ι] in
theorem Made.mono (hle : events ⊆ events') {frame : List Byte} (h : Made topo events frame) :
    Made topo events' frame := by
  cases h with
  | packet h hpos hfit id destMac srcMac => exact .packet (h.mono hle) hpos hfit id destMac srcMac
  | request device dstPAddr => exact .request device dstPAddr

/-! ### Sending -/

/-- With nothing in the ARP list there is nothing to retry. -/
theorem sendIPPacket_noRetry (harp : host.arpList = []) (src dest : IPAddr) (proto : BitVec 8)
    (buf : List Byte) (noRetry : Bool) :
    sendIPPacket src dest proto buf noRetry host = sendIPPacket src dest proto buf true host := by
  have hmiss : ∀ id : ℕ, queryARPList { host with id := id } dest ≠ 0 := by
    intro id hzero
    obtain ⟨node, hnode, -⟩ := queryARPList_eq_zero_iff.mp hzero
    exact absurd (harp ▸ hnode) List.not_mem_nil
  simp only [sendIPPacket, ne_eq, hmiss, not_false_eq_true, if_true]

/-- **What `sendIPPacket` hands to pcap**, with nothing in the ARP list: frames with the packet, on
devices of the host. -/
theorem sendIPPacket_sent (harp : host.arpList = []) (src dest : IPAddr) (proto : BitVec 8)
    (buf : List Byte) (noRetry : Bool) :
    ∃ id sent, (sendIPPacket src dest proto buf noRetry host).1 =
        { host with id := id, wire := host.wire ++ sent } ∧
      ∀ out ∈ sent, out.1 ∈ host.deviceList ∧ 0 < buf.length ∧ buf.length ≤ 0x10000 - 34 ∧
        ∃ destMac, out.2 =
          packetFrame destMac out.1.macAddr (ipPacket src dest proto buf host.id) := by
  have hnone : ∀ id : ℕ, ∃ sent, { host with id := id } =
        { host with id := id, wire := host.wire ++ sent } ∧
      ∀ out ∈ sent, out.1 ∈ host.deviceList ∧ 0 < buf.length ∧ buf.length ≤ 0x10000 - 34 ∧
        ∃ destMac, out.2 =
          packetFrame destMac out.1.macAddr (ipPacket src dest proto buf host.id) :=
    fun id => ⟨[], by rw [List.append_nil], fun out hout => absurd hout List.not_mem_nil⟩
  by_cases hdest : dest = BROAD_IP
  · subst hdest
    rcases Nat.lt_or_ge (0x10000 - 34) buf.length with hlong | hfit
    · obtain ⟨id, hsend⟩ := sendIPPacket_broadcast_of_lt hlong src proto noRetry host
      exact ⟨id, hsend ▸ hnone id⟩
    rcases Nat.eq_zero_or_pos buf.length with hzero | hpos
    · rw [sendIPPacket, if_pos (Or.inr hzero.le)]
      exact ⟨host.id, hnone host.id⟩
    refine ⟨_, _, sendIPPacket_broadcast hpos hfit src proto noRetry, fun out hout => ?_⟩
    obtain ⟨device, hdevice, rfl⟩ := List.mem_map.mp hout
    exact ⟨hdevice, hpos, hfit, BROAD_MAC, rfl⟩
  · by_cases hsends : Sends host dest buf
    · refine ⟨_, _, hsends.sendIPPacket hdest src proto noRetry, fun out hout => ?_⟩
      obtain ⟨dstmac, hegress, hframe⟩ := Journey.mem_frames.mp hout
      refine ⟨?_, hsends.pos, hsends.le, dstmac, hframe⟩
      obtain ⟨found, -, hdevice⟩ := Option.bind_eq_some_iff.mp hegress
      obtain ⟨device, hfind, hpair⟩ := Option.map_eq_some_iff.mp hdevice
      rw [← (Prod.mk.inj hpair).2]
      exact List.mem_of_find?_eq_some hfind
    · obtain ⟨id, tasks, hsend⟩ := sendIPPacket_of_not_sends hsends hdest src proto noRetry
      obtain ⟨wire', id', tasks', hframe, htasks⟩ :=
        sendIPPacket_frame src dest proto buf true host
      have hsame : tasks = host.resendIPTaskList := by
        rw [← htasks rfl]
        rw [sendIPPacket_noRetry harp, hframe] at hsend
        exact (congrArg Host.resendIPTaskList hsend).symm
      rw [hsend, hsame]
      exact ⟨id, hnone id⟩

/-! ### One call -/

/-- The frames that a call can hand to pcap. -/
inductive Emits (host : Host τ) : NetworkLayer.Action → Device × List Byte → Prop
  | packet {src dest : IPAddr} {proto : BitVec 8} {buf : List Byte} {noRetry : Bool}
      {device : Device} (hdevice : device ∈ host.deviceList) (hpos : 0 < buf.length)
      (hfit : buf.length ≤ 0x10000 - 34) (id : ℕ) (destMac : MacAddr) :
      Emits host (.sendIPPacket src dest proto buf noRetry)
        (device, packetFrame destMac device.macAddr (ipPacket src dest proto buf id))
  | advert {now : ℕ} {source device : Device} (hsource : source ∈ host.deviceList)
      (hdevice : device ∈ host.deviceList) (hfit : host.onlineRouteTable.length ≤ maxEntries)
      (id : ℕ) :
      Emits host (.broadcastRouteTable now) (device, packetFrame BROAD_MAC device.macAddr
        (ipPacket source.ipAddr BROAD_IP ROUTE_PROTOCOL
          (routeAdvert host.onlineRouteTable source.macAddr) id))
  | request {dstPAddr : IPAddr} {device : Device} (hdevice : device ∈ host.deviceList) :
      Emits host (.sendARPRequest dstPAddr)
        (device, arpFrame (arpRequest device dstPAddr) BROAD_MAC device)

variable {deviceList : List Device} {action : NetworkLayer.Action}

theorem Quiet.sendIPPacket (h : Quiet deviceList host) (src dest : IPAddr) (proto : BitVec 8)
    (buf : List Byte) (noRetry : Bool) :
    Quiet deviceList (sendIPPacket src dest proto buf noRetry host).1 := by
  obtain ⟨id, sent, hsend, -⟩ := sendIPPacket_sent h.arpList src dest proto buf noRetry
  refine ⟨h.linked.sendIPPacket src dest proto buf noRetry, ?_, ?_⟩ <;> rw [hsend]
  · exact h.arpList
  · exact h.resendIPTaskList

/-- The table goes out as a whole, or not at all. -/
theorem broadcastRouteTable_emits (hwire : host.wire = []) (now : ℕ) :
    ∃ lastBroad id sent, broadcastRouteTable now host =
        { host with lastBroad := lastBroad, id := id, wire := sent } ∧
      ∀ out ∈ sent, Emits host (.broadcastRouteTable now) out := by
  have hnone : ∀ out ∈ host.wire, Emits host (.broadcastRouteTable now) out :=
    fun out hout => absurd (hwire ▸ hout) List.not_mem_nil
  rw [broadcastRouteTable]
  by_cases hearly : tooEarly broadInterval now host.lastBroad
  · rw [if_pos hearly]
    exact ⟨host.lastBroad, host.id, host.wire, rfl, hnone⟩
  rw [if_neg hearly]
  rcases Nat.lt_or_ge maxEntries host.onlineRouteTable.length with hlong | hfit
  · obtain ⟨id, hrun⟩ :=
      foldl_broadcast_of_lt hlong host.deviceList { host with lastBroad := some now }
    exact ⟨some now, id, host.wire, hrun, hnone⟩
  · have hrun := foldl_broadcast_eq hfit host.deviceList { host with lastBroad := some now }
    refine ⟨some now, _, _, hrun, fun out hout => ?_⟩
    simp only [hwire, List.nil_append, broadcastFrames, List.mem_flatMap, List.mem_map] at hout
    obtain ⟨p, hp, device, hdevice, rfl⟩ := hout
    exact .advert (List.fst_mem_of_mem_zipIdx hp) hdevice hfit p.2

/-- **One call** of a quiet host hands over the frames of its kind, and leaves the host quiet. -/
theorem Quiet.call (h : Quiet deviceList host) (hwire : host.wire = [])
    (hcall : ∀ chance device pkthdr pktdata, action ≠ .handleFrame chance device pkthdr pktdata)
    (hstep : NetworkLayer.step callbacks action host = some host') :
    Quiet deviceList host' ∧ host'.upper = host.upper ∧
      ∀ out ∈ host'.wire, Emits host action out := by
  have hlinked := h.linked.step hstep
  have hnone : ∀ out ∈ host.wire, Emits host action out :=
    fun out hout => absurd (hwire ▸ hout) List.not_mem_nil
  cases action with
  | setRoutingTable dest mask nextHopMAC deviceName =>
    obtain rfl := Option.some.inj hstep
    rw [LabNetstack.setRoutingTable] at hlinked ⊢
    split at hlinked <;> exact ⟨⟨hlinked, h.arpList, h.resendIPTaskList⟩, rfl, hnone⟩
  | handleFrame chance device pkthdr pktdata =>
    exact absurd rfl (hcall chance device pkthdr pktdata)
  | broadcastRouteTable now =>
    obtain rfl := Option.some.inj hstep
    obtain ⟨lastBroad, id, sent, hrun, hsent⟩ := broadcastRouteTable_emits hwire now
    rw [hrun] at hlinked ⊢
    exact ⟨⟨hlinked, h.arpList, h.resendIPTaskList⟩, rfl, hsent⟩
  | updateRouteTable now sorted =>
    rcases updateRouteTable_cases hstep with rfl | ⟨-, rfl⟩
    · exact ⟨h, rfl, hnone⟩
    · exact ⟨⟨hlinked, h.arpList, h.resendIPTaskList⟩, rfl, hnone⟩
  | sendIPPacket src dest proto buf noRetry =>
    obtain rfl := Option.some.inj hstep
    obtain ⟨id, sent, hsend, hsent⟩ := sendIPPacket_sent h.arpList src dest proto buf noRetry
    rw [hsend] at hlinked ⊢
    refine ⟨⟨hlinked, h.arpList, h.resendIPTaskList⟩, rfl, fun out hout => ?_⟩
    have hout : out ∈ host.wire ++ sent := hout
    rw [hwire, List.nil_append] at hout
    obtain ⟨hdevice, hpos, hfit, destMac, hframe⟩ := hsent out hout
    rw [show out = (out.1, out.2) from rfl, hframe]
    exact .packet hdevice hpos hfit host.id destMac
  | processResendIPTask =>
    obtain rfl := Option.some.inj hstep
    rw [processResendIPTask, h.resendIPTaskList]
    exact ⟨h, rfl, hnone⟩
  | sendARPRequest dstPAddr =>
    have hsend : (sendARPRequest dstPAddr host).1 = host' := Option.some.inj hstep
    rw [sendARPRequest_eq] at hsend
    obtain rfl := hsend
    refine ⟨⟨hlinked, h.arpList, h.resendIPTaskList⟩, rfl, fun out hout => ?_⟩
    simp only [hwire, List.nil_append, List.mem_map] at hout
    obtain ⟨device, hdevice, rfl⟩ := hout
    exact .request hdevice
  | setRandomDropRate num =>
    obtain rfl := Option.some.inj hstep
    exact ⟨⟨hlinked, h.arpList, h.resendIPTaskList⟩, rfl, hnone⟩

/-! ### One frame -/

/-- Nobody understands a request. -/
theorem handleFrame_request {device source : Device} {dstPAddr : IPAddr} {chance : Chance} :
    handleFrame host.deviceList [handleARPPacket,
        handleIPPacket [handleRouteTable, handleTCPPacket callbacks] chance] device
      ⟨BitVec.ofNat 32 (arpFrame (arpRequest source dstPAddr) BROAD_MAC source).length⟩
      (arpFrame (arpRequest source dstPAddr) BROAD_MAC source) host = some host := by
  have hlink := handleFrame_sendFrame host.deviceList
    (sendFrame_arp (arpRequest source dstPAddr) BROAD_MAC source) (Or.inl rfl) []
    [handleARPPacket, handleIPPacket [handleRouteTable, handleTCPPacket callbacks] chance] device
    host
  have harp : Handles host (arpRequest source dstPAddr) host := handles_arpRequest.mpr rfl
  simp only [List.append_nil, List.foldlM_cons, List.foldlM_nil, bind_pure] at hlink
  have hfirst := harp []
    (BitVec.ofNat 32 (ARPPacket.layout.bytes (arpRequest source dstPAddr)).length)
    ⟨BROAD_MAC, source.macAddr, ETHTYPE_ARP⟩ device rfl
  rw [List.append_nil] at hfirst
  rw [hlink, hfirst, Option.bind_eq_bind, Option.bind_some, handleIPPacket, if_pos]
  show ETHTYPE_ARP ≠ ETHTYPE_IPv4
  decide

/-- A packet is ignored by its address, or handed to the network layer. -/
theorem handleFrame_packet {device : Device} {chance : Chance} {id : ℕ} {destMac srcMac : MacAddr}
    (hfit : buf.length ≤ 0x10000 - 34) :
    handleFrame host.deviceList [handleARPPacket,
        handleIPPacket [handleRouteTable, handleTCPPacket callbacks] chance] device
      ⟨BitVec.ofNat 32 (packetFrame destMac srcMac (ipPacket src dest proto buf id)).length⟩
      (packetFrame destMac srcMac (ipPacket src dest proto buf id)) host =
    if isMine host.deviceList destMac then
      handleIPPacket [handleRouteTable, handleTCPPacket callbacks] chance
        (ipPacket src dest proto buf id)
        (BitVec.ofNat 32 (ipPacket src dest proto buf id).length)
        ⟨destMac, srcMac, ETHTYPE_IPv4⟩ device host
    else some host := by
  have hlen := length_ipPacket src dest proto buf id
  split_ifs with hmine
  · have hsend : sendFrame (ipPacket src dest proto buf id) ETHTYPE_IPv4 destMac ⟨0, srcMac, 0⟩
        = some (packetFrame destMac srcMac (ipPacket src dest proto buf id)) := by
      rw [sendFrame, if_neg (by rw [EthHeader.size_layout]; omega), packetFrame]
    have hlink := handleFrame_sendFrame host.deviceList hsend hmine [] [handleARPPacket,
      handleIPPacket [handleRouteTable, handleTCPPacket callbacks] chance] device host
    have harp : ∀ packet pktlen, handleARPPacket packet pktlen ⟨destMac, srcMac, ETHTYPE_IPv4⟩
        device host = some host :=
      fun packet pktlen => if_pos (show ETHTYPE_IPv4 ≠ ETHTYPE_ARP by decide)
    simp only [List.append_nil, List.foldlM_cons, List.foldlM_nil, bind_pure] at hlink
    rw [hlink, harp]
    rfl
  · exact handleFrame_of_not_isMine (size_le_packetFrame ..)
      (by rw [desAddr_packetFrame]; exact hmine) ..

/-- **What the network layer does with a packet**: it drops it on purpose, passes it to the two
callbacks, or sends it on as it is. -/
theorem handleIPPacket_ipPacket {device : Device} {chance : Chance} {id : ℕ} {ethHdr : EthHeader}
    (htype : ethHdr.type = ETHTYPE_IPv4) (hfit : buf.length ≤ 0x10000 - 34) :
    handleIPPacket [handleRouteTable, handleTCPPacket callbacks] chance
      (ipPacket src dest proto buf id) (BitVec.ofNat 32 (ipPacket src dest proto buf id).length)
      ethHdr device host =
    if randomDrop host.random_drop chance buf (sentHeader src dest proto buf.length id) then
      some host
    else if isMyPacket host (sentHeader src dest proto buf.length id) then
      (handleRouteTable buf (BitVec.ofNat 32 buf.length)
        (sentHeader src dest proto buf.length id) device host).bind
          (handleTCPPacket callbacks buf (BitVec.ofNat 32 buf.length)
            (sentHeader src dest proto buf.length id) device)
    else some { host with
      wire := host.wire ++ host.frames dest (ipPacket src dest proto buf id) } := by
  have hlen := length_ipPacket src dest proto buf id
  have hread : IpHeader.layout.read (ipPacket src dest proto buf id)
      = sentHeader src dest proto buf.length id := IpHeader.layout.read_append _ _
  have hdata : (ipPacket src dest proto buf id).drop IpHeader.layout.size = buf :=
    IpHeader.layout.drop_append _ _
  have hsize : IpHeader.layout.size ≤ (ipPacket src dest proto buf id).length := by
    rw [hlen, IpHeader.size_layout]
    exact Nat.le_add_left ..
  have hsub : BitVec.ofNat 32 (ipPacket src dest proto buf id).length
      - BitVec.ofNat 32 IpHeader.layout.size = BitVec.ofNat 32 buf.length := by
    rw [hlen, IpHeader.size_layout, BitVec.ofNat_add]
    exact BitVec.add_sub_cancel _ _
  have hdst : (sentHeader src dest proto buf.length id).dst = dest := rfl
  have hdeliver : deliverIPPacket (ipPacket src dest proto buf id)
      (BitVec.ofNat 32 (ipPacket src dest proto buf id).length) dest host = some { host with
        wire := host.wire ++ host.frames dest (ipPacket src dest proto buf id) } :=
    deliverIPPacket_frames (by omega) (by omega) dest host
  rw [handleIPPacket, if_neg (not_not.mpr htype), Struct.read?, if_pos hsize]
  simp only [hread, hdata, hsub, hdst, hdeliver, List.foldlM_cons, List.foldlM_nil, bind_pure]
  rfl

/-- **What a packet changes**: nothing, or it is for the host, or it is sent on as it is. -/
theorem handleFrame_packet_cases {device : Device} {chance : Chance} {id : ℕ}
    {destMac srcMac : MacAddr} (hfit : buf.length ≤ 0x10000 - 34)
    (h : handleFrame host.deviceList [handleARPPacket,
        handleIPPacket [handleRouteTable, handleTCPPacket callbacks] chance] device
      ⟨BitVec.ofNat 32 (packetFrame destMac srcMac (ipPacket src dest proto buf id)).length⟩
      (packetFrame destMac srcMac (ipPacket src dest proto buf id)) host = some host') :
    host' = host ∨
      isMyPacket host (sentHeader src dest proto buf.length id) = true ∧
        (∃ mid, handleRouteTable buf (BitVec.ofNat 32 buf.length)
            (sentHeader src dest proto buf.length id) device host = some mid ∧
          handleTCPPacket callbacks buf (BitVec.ofNat 32 buf.length)
            (sentHeader src dest proto buf.length id) device mid = some host') ∨
      isMyPacket host (sentHeader src dest proto buf.length id) = false ∧
        host' = { host with
          wire := host.wire ++ host.frames dest (ipPacket src dest proto buf id) } := by
  rw [handleFrame_packet hfit] at h
  split_ifs at h with hmine
  swap
  · exact Or.inl (Option.some.inj h).symm
  rw [handleIPPacket_ipPacket rfl hfit] at h
  split_ifs at h with hdrop hown
  · exact Or.inl (Option.some.inj h).symm
  · exact Or.inr (Or.inl ⟨hown, Option.bind_eq_some_iff.mp h⟩)
  · exact Or.inr (Or.inr ⟨Bool.not_eq_true _ ▸ hown, (Option.some.inj h).symm⟩)

/-- What the transport layer is called with. -/
theorem handleTCPPacket_cases {ipHeader : IpHeader} {device : Device}
    (hfit : buf.length ≤ 0x10000 - 34)
    (h : handleTCPPacket callbacks buf (BitVec.ofNat 32 buf.length) ipHeader device host =
      some host') :
    host' = host ∨ ipHeader.protocol = IPPROTO_TCP ∧ 20 ≤ buf.length ∧ ∃ upper,
      callbacks.foldlM (fun t (f : TCPPacketReceiveCallback τ) => f buf (buf.drop 20)
        (buf.length - 20 : ℕ) (TCPHeader.layout.read buf) ipHeader t) host.upper = some upper ∧
      host' = { host with upper := upper } := by
  by_cases htcp : ipHeader.protocol = IPPROTO_TCP
  swap
  · rw [handleTCPPacket, if_pos htcp] at h
    exact Or.inl (Option.some.inj h).symm
  by_cases hsize : TCPHeader.layout.size ≤ buf.length
  swap
  · rw [handleTCPPacket, if_neg (not_not.mpr htcp), Struct.read?, if_neg hsize] at h
    cases h
  have hlen : (BitVec.ofNat 32 buf.length - 20).toInt = (buf.length - 20 : ℕ) := by
    have hsub : BitVec.ofNat 32 buf.length - 20 = BitVec.ofNat 32 (buf.length - 20) :=
      WrapCounter.ofNat_sub_ofNat hsize
    rw [hsub, BitVec.toInt_eq_toNat_of_lt] <;> rw [BitVec.toNat_ofNat] <;> omega
  rw [handleTCPPacket_of_tcp htcp hsize, hlen] at h
  obtain ⟨upper, hupper, hhost⟩ := Option.map_eq_some_iff.mp h
  exact Or.inr ⟨htcp, hsize, upper, hupper, hhost.symm⟩

/-! ### All the time -/

omit [DecidableEq ι] in
theorem Emits.made {v : ι} {out : Device × List Byte} (h : Emits host action out)
    (hdevices : host.deviceList = topo.devices v) : Made topo [.call v action] out.2 := by
  cases h with
  | packet hdevice hpos hfit id destMac =>
    exact .packet (.sendIPPacket (List.mem_singleton_self _)) hpos hfit id _ _
  | @advert now source device hsource hdevice hfit id =>
    have hlen := length_routeAdvert host.onlineRouteTable source.macAddr
    rw [maxEntries] at hfit
    exact .packet (.broadcast (List.mem_singleton_self _) (hdevices ▸ hsource)) (by omega)
      (by omega) id _ _
  | request hdevice => exact .request _ _

/-- What a node hands over is put on the links. -/
theorem Genuine.put (h : Genuine topo events s) (hle : events ⊆ events') (v : ι)
    (hquiet : Quiet (topo.devices v) host) (hmade : ∀ out ∈ host.wire, Made topo events' out.2) :
    Genuine topo events' (s.put topo v host) := by
  refine ⟨fun w => ?_, fun w => ?_, fun copy hcopy => ?_⟩
  · rw [Mesh.host_put]
    split_ifs with hw
    · subst hw
      exact ⟨⟨hquiet.linked.devices, hquiet.linked.manRouteTable, hquiet.linked.onlineRouteTable,
        hquiet.linked.tmpRouteTable⟩, hquiet.arpList, hquiet.resendIPTaskList⟩
    · exact h.quiet w
  · rw [Mesh.host_put]
    split_ifs
    · rfl
    · exact h.wire w
  · rcases List.mem_append.mp hcopy with hair | hnew
    · exact ⟨(h.air copy hair).1, (h.air copy hair).2.mono hle⟩
    · obtain ⟨device, hout, hlink⟩ := Mesh.mem_copies.mp hnew
      exact ⟨topo.mem_devices hlink, hmade (device, copy.2.2) hout⟩

omit [DecidableEq ι] in
/-- What is under way survives what befalls the links. -/
theorem Genuine.degrades (h : Genuine topo events s) (hle : events ⊆ events')
    {air : List (ι × Device × List Byte)} (hair : Channel.Degrades s.air air) :
    Genuine topo events' { s with air := air } where
  quiet := h.quiet
  wire := h.wire
  air := hair.forall_mem fun copy hcopy => ⟨(h.air copy hcopy).1, (h.air copy hcopy).2.mono hle⟩

omit [DecidableEq ι] in
/-- **One frame.** Whatever a host makes of it, what it sends on is of the same kind. -/
theorem Genuine.receive (h : Genuine topo events s) {v : ι} {device : Device} {frame : List Byte}
    (hframe : Made topo events frame) {chance : Chance}
    (hstep : NetworkLayer.step callbacks
      (.handleFrame chance device ⟨BitVec.ofNat 32 frame.length⟩ frame) (s.host v) = some host') :
    Quiet (topo.devices v) host' ∧ (∀ out ∈ host'.wire, Made topo events out.2) ∧
      (host'.upper = (s.host v).upper ∨
        Arrives topo callbacks events v (s.host v).upper host'.upper) := by
  have hquiet := h.quiet v
  have hwire : ∀ out ∈ (s.host v).wire, Made topo events out.2 :=
    fun out hout => absurd (h.wire v ▸ hout) List.not_mem_nil
  have hlinked := hquiet.linked.step hstep
  rw [NetworkLayer.step] at hstep
  split_ifs at hstep
  cases hframe with
  | request source dstPAddr =>
    rw [handleFrame_request] at hstep
    obtain rfl := Option.some.inj hstep
    exact ⟨hquiet, hwire, Or.inl rfl⟩
  | @packet u src dest proto buf hhanded hpos hfit id destMac srcMac =>
    rcases handleFrame_packet_cases hfit hstep with rfl | ⟨hmine, mid, hmid, hlast⟩ | ⟨-, rfl⟩
    · exact ⟨hquiet, hwire, Or.inl rfl⟩
    · obtain ⟨learnt, rfl, -⟩ := handleRouteTable_frame hmid
      rcases handleTCPPacket_cases hfit hlast with rfl | ⟨htcp, hsize, upper, hupper, rfl⟩
      · exact ⟨⟨hlinked, hquiet.arpList, hquiet.resendIPTaskList⟩, hwire, Or.inl rfl⟩
      · refine ⟨⟨hlinked, hquiet.arpList, hquiet.resendIPTaskList⟩, hwire, Or.inr ?_⟩
        have hproto : proto = IPPROTO_TCP := htcp
        subst hproto
        refine ⟨u, src, dest, buf, id, hhanded, ?_, hsize, hupper⟩
        rw [isMyPacket, Bool.or_eq_true, List.any_eq_true] at hmine
        refine hmine.imp of_decide_eq_true ?_
        rintro ⟨d, hd, hip⟩
        exact ⟨d, hquiet.linked.devices ▸ hd, (of_decide_eq_true hip).symm⟩
    · refine ⟨⟨hlinked, hquiet.arpList, hquiet.resendIPTaskList⟩, fun out hout => ?_, Or.inl rfl⟩
      have hout : out ∈ (s.host v).wire ++ _ := hout
      rw [h.wire v, List.nil_append] at hout
      obtain ⟨dstmac, -, hpacket⟩ := Journey.mem_frames.mp hout
      rw [hpacket]
      exact .packet hhanded hpos hfit id dstmac _

/-- **One event.** -/
theorem Genuine.step (h : Genuine topo events s) {event : Event ι}
    (hstep : step topo callbacks event s = some s') :
    Genuine topo (events ++ [event]) s' ∧ ∀ v, (s'.host v).upper = (s.host v).upper ∨
      Arrives topo callbacks events v (s.host v).upper (s'.host v).upper := by
  have hle : events ⊆ events ++ [event] := List.subset_append_left ..
  have hupper : ∀ (t : Mesh ι τ) (v : ι) (new : Host τ), t.host = s.host →
      (new.upper = (s.host v).upper ∨ Arrives topo callbacks events v (s.host v).upper new.upper) →
      ∀ w, ((t.put topo v new).host w).upper = (s.host w).upper ∨
        Arrives topo callbacks events w (s.host w).upper ((t.put topo v new).host w).upper := by
    intro t v new ht hnew w
    rw [Mesh.host_put]
    split_ifs with hw
    · exact hw ▸ hnew
    · exact Or.inl (congrArg (fun host => (host w).upper) ht)
  cases event with
  | call v action =>
    by_cases hcall : ∀ chance device pkthdr pktdata,
        action ≠ .handleFrame chance device pkthdr pktdata
    swap
    · push Not at hcall
      obtain ⟨chance, device, pkthdr, pktdata, rfl⟩ := hcall
      cases hstep
    have hstep : (NetworkLayer.step callbacks action (s.host v)).map (s.put topo v) = some s' := by
      rw [← hstep, Network.step]
      exact hcall
    obtain ⟨new, hnew, rfl⟩ := Option.map_eq_some_iff.mp hstep
    obtain ⟨hquiet, hsame, hsent⟩ := (h.quiet v).call (h.wire v) hcall hnew
    refine ⟨h.put hle v hquiet fun out hout => ?_, hupper s v new rfl (Or.inl hsame)⟩
    exact ((hsent out hout).made (h.quiet v).linked.devices).mono (List.subset_append_right ..)
  | receive i chance =>
    simp only [Network.step] at hstep
    split at hstep
    · cases hstep
    next v device frame hi =>
      obtain ⟨new, hnew, rfl⟩ := Option.map_eq_some_iff.mp hstep
      have herase : Channel.Degrades s.air (s.air.eraseIdx i) := Channel.degrades_lose i s.air
      obtain ⟨hquiet, hmade, hnewUpper⟩ := h.receive (h.air _ (List.mem_of_getElem? hi)).2 hnew
      refine ⟨(h.degrades (List.Subset.refl _) herase).put hle v hquiet fun out hout => ?_,
        hupper _ v new rfl hnewUpper⟩
      exact (hmade out hout).mono hle
  | lose i =>
    obtain rfl := Option.some.inj hstep
    exact ⟨h.degrades hle (Channel.degrades_lose i s.air), fun _ => Or.inl rfl⟩
  | repeatAt i =>
    obtain rfl := Option.some.inj hstep
    exact ⟨h.degrades hle (Channel.degrades_repeatAt i s.air), fun _ => Or.inl rfl⟩

omit [DecidableEq ι] in
theorem genuine_start (upper : ι → τ) : Genuine topo [] (start topo upper) where
  quiet _ := ⟨NetworkLayer.linked_start .., rfl, rfl⟩
  wire _ := rfl
  air _ hcopy := absurd hcopy List.not_mem_nil

variable {upper : ι → τ}

/-- **Two kinds of frames**, in every state of every run. -/
theorem run_genuine (hrun : Run.run (step topo callbacks) events (start topo upper) = some s) :
    Genuine topo events s :=
  Run.invariant_history (fun _ _ _ _ h hstep => (h.step hstep).1) (genuine_start upper) hrun

/-- **The state above the network layer** is changed by nothing but the segments that have been sent
to the node. -/
theorem run_upper {p : List (Event ι) → ι → τ → Prop} (hstart : ∀ v, p [] v (upper v))
    (hmono : ∀ events event v t, p events v t → p (events ++ [event]) v t)
    (harrives : ∀ events v t t', p events v t → Arrives topo callbacks events v t t' →
      p events v t')
    (hrun : Run.run (step topo callbacks) events (start topo upper) = some s) (v : ι) :
    p events v (s.host v).upper := by
  refine (Run.invariant_history (p := fun events s => Genuine topo events s ∧
    ∀ v, p events v (s.host v).upper) ?_ ⟨genuine_start upper, hstart⟩ hrun).2 v
  rintro events event s s' ⟨h, hp⟩ hstep
  obtain ⟨hnext, hupper⟩ := h.step hstep
  refine ⟨hnext, fun w => hmono _ _ _ _ ?_⟩
  rcases hupper w with hsame | harrived
  · exact hsame ▸ hp w
  · exact harrives _ _ _ _ (hp w) harrived

/-! ### Reading -/

/-- No callback fails. -/
def Total (callbacks : List (TCPPacketReceiveCallback τ)) : Prop :=
  ∀ f ∈ callbacks, ∀ packet data len tcpHeader ipHeader t,
    ∃ t', f packet data len tcpHeader ipHeader t = some t'

omit [DecidableEq ι] in
theorem Total.foldlM (h : Total callbacks) (packet data : List Byte) (len : ℤ)
    (tcpHeader : TCPHeader) (ipHeader : IpHeader) (t : τ) :
    ∃ t', callbacks.foldlM (fun t (f : TCPPacketReceiveCallback τ) =>
      f packet data len tcpHeader ipHeader t) t = some t' := by
  induction callbacks generalizing t with
  | nil => exact ⟨t, rfl⟩
  | cons f callbacks ih =>
    obtain ⟨t', ht'⟩ := h f (List.mem_cons_self ..) packet data len tcpHeader ipHeader t
    obtain ⟨t'', ht''⟩ := ih (fun g hg => h g (List.mem_cons_of_mem _ hg)) t'
    exact ⟨t'', by rw [List.foldlM_cons, ht']; exact ht''⟩

/-- What the receivers of the two protocols read of a packet is there. -/
def Readable (proto : BitVec 8) (buf : List Byte) : Prop :=
  (proto = IPPROTO_TCP → 20 ≤ buf.length) ∧ (proto = ROUTE_PROTOCOL → 6 ≤ buf.length)

theorem handleRouteTable_readable (hfit : buf.length ≤ 0x10000 - 34)
    (hread : Readable proto buf) {ipHeader : IpHeader} (hproto : ipHeader.protocol = proto)
    (device : Device) (host : Host τ) :
    ∃ learnt, handleRouteTable buf (BitVec.ofNat 32 buf.length) ipHeader device host =
      some { host with tmpRouteTable := host.tmpRouteTable ++ learnt } := by
  by_cases hroute : ipHeader.protocol = ROUTE_PROTOCOL
  · have hlen : (BitVec.ofNat 32 buf.length).toNat = buf.length := by
      rw [BitVec.toNat_ofNat, Nat.mod_eq_of_lt (by omega)]
    have hsize : 6 ≤ (BitVec.ofNat 32 buf.length).toNat := by
      rw [hlen]
      exact hread.2 (hproto.symm.trans hroute)
    obtain ⟨host', hhandle⟩ := Option.isSome_iff_exists.mp
      (isSome_handleRouteTable hlen.symm hsize ipHeader device host)
    obtain ⟨macAddr, rfl⟩ := handleRouteTable_long hroute hsize hhandle
    exact ⟨_, hhandle⟩
  · exact ⟨[], by rw [handleRouteTable, if_pos hroute, List.append_nil]⟩

theorem handleTCPPacket_readable (htotal : Total callbacks) (hread : Readable proto buf)
    {ipHeader : IpHeader} (hproto : ipHeader.protocol = proto) (pktlen : BitVec 32)
    (device : Device) (host : Host τ) :
    ∃ upper, handleTCPPacket callbacks buf pktlen ipHeader device host =
      some { host with upper := upper } := by
  by_cases htcp : ipHeader.protocol = IPPROTO_TCP
  · obtain ⟨upper, hupper⟩ := htotal.foldlM buf (buf.drop 20) (pktlen - 20).toInt
      (TCPHeader.layout.read buf) ipHeader host.upper
    refine ⟨upper, ?_⟩
    rw [handleTCPPacket_of_tcp htcp (hread.1 (hproto.symm.trans htcp)), hupper, Option.map_some]
  · exact ⟨host.upper, if_pos htcp⟩

/-- A packet that can be read is received, and what lies behind it does not matter. -/
theorem handleFrame_readable (htotal : Total callbacks) (hfit : buf.length ≤ 0x10000 - 34)
    (hread : Readable proto buf) (rand id : ℕ) (destMac srcMac : MacAddr) (device : Device)
    (host : Host τ) :
    ∃ host', ∀ behind, handleFrame host.deviceList [handleARPPacket,
        handleIPPacket [handleRouteTable, handleTCPPacket callbacks] ⟨rand, behind⟩] device
      ⟨BitVec.ofNat 32 (packetFrame destMac srcMac (ipPacket src dest proto buf id)).length⟩
      (packetFrame destMac srcMac (ipPacket src dest proto buf id)) host = some host' := by
  have hbehind : ∀ behind, randomDrop host.random_drop ⟨rand, behind⟩ buf
      (sentHeader src dest proto buf.length id) =
        randomDrop host.random_drop ⟨rand, 0⟩ buf (sentHeader src dest proto buf.length id) := by
    refine fun behind => randomDrop_behind (fun htcp => ?_) host.random_drop rand behind 0
    exact le_trans (by decide) (hread.1 htcp)
  have htype : (EthHeader.mk destMac srcMac ETHTYPE_IPv4).type = ETHTYPE_IPv4 := rfl
  simp only [handleFrame_packet hfit, handleIPPacket_ipPacket htype hfit, hbehind]
  split_ifs
  · exact ⟨host, fun _ => rfl⟩
  · have hproto : (sentHeader src dest proto buf.length id).protocol = proto := rfl
    obtain ⟨learnt, hmid⟩ := handleRouteTable_readable hfit hread hproto device host
    obtain ⟨upper, hlast⟩ := handleTCPPacket_readable htotal hread hproto
      (BitVec.ofNat 32 buf.length) device
      { host with tmpRouteTable := host.tmpRouteTable ++ learnt }
    exact ⟨_, fun _ => by rw [hmid, Option.bind_some, hlast]⟩
  · exact ⟨_, fun _ => rfl⟩
  · exact ⟨host, fun _ => rfl⟩

/-- **Every frame can be received.** Where applications hand over nothing that its receiver cannot
read, no copy on the links is ever read past its end, but for one byte that the loss simulation looks
at before it looks at the protocol; and what that byte is makes no difference. -/
theorem run_receives (htotal : Total callbacks)
    (hrun : Run.run (step topo callbacks) events (start topo upper) = some s)
    (hsent : ∀ u src dest proto buf noRetry,
      .call u (.sendIPPacket src dest proto buf noRetry) ∈ events → Readable proto buf)
    {i : ℕ} (hi : i < s.air.length) (rand : ℕ) :
    ∃ s', ∀ behind, step topo callbacks (.receive i ⟨rand, behind⟩) s = some s' := by
  have hgenuine := run_genuine hrun
  rcases hcopy : s.air[i] with ⟨v, device, frame⟩
  obtain ⟨hdevice, hmade⟩ := hgenuine.air _ (hcopy ▸ List.getElem_mem hi)
  have hnew : ∃ host', ∀ behind, NetworkLayer.step callbacks
      (.handleFrame ⟨rand, behind⟩ device ⟨BitVec.ofNat 32 frame.length⟩ frame) (s.host v) =
        some host' := by
    simp only [NetworkLayer.step, if_pos ((hgenuine.quiet v).linked.devices ▸ hdevice)]
    cases hmade with
    | request source dstPAddr => exact ⟨_, fun _ => handleFrame_request⟩
    | @packet u src dest proto buf hhanded hpos hfit id destMac srcMac =>
      refine handleFrame_readable htotal hfit ?_ rand id destMac srcMac device (s.host v)
      cases hhanded with
      | sendIPPacket h => exact hsent _ _ _ _ _ _ h
      | broadcast h hdevice =>
        refine ⟨fun h => absurd h (by decide), fun _ => ?_⟩
        rw [length_routeAdvert]
        exact Nat.le_add_left ..
  obtain ⟨new, hnew⟩ := hnew
  refine ⟨{ s with air := s.air.eraseIdx i }.put topo v new, fun behind => ?_⟩
  rw [step, List.getElem?_eq_getElem hi, hcopy]
  simp only [hnew, Option.map_some]

/-! ### Routes -/

/-- **A packet with a route goes out**, at once and whatever has happened; and one without is refused.
No address is ever learnt and no packet put off. -/
theorem run_quiet (hrun : Run.run (step topo callbacks) events (start topo upper) = some s) (v : ι)
    (hdest : dest ≠ BROAD_IP) (hpos : 0 < buf.length) (hle : buf.length ≤ 65502) (src : IPAddr)
    (proto : BitVec 8) (noRetry : Bool) :
    (s.host v).arpList = [] ∧ (s.host v).resendIPTaskList = [] ∧
    (∀ dstmac address, queryRouteTable (s.host v) dest = some (dstmac, address) →
      ∃ device ∈ topo.devices v, device.address = address ∧
        sendIPPacket src dest proto buf noRetry (s.host v) = ({ s.host v with
          id := (s.host v).id + 1
          wire := [(device, packetFrame dstmac device.macAddr
            (ipPacket src dest proto buf (s.host v).id))] }, 0)) ∧
    (queryRouteTable (s.host v) dest = none →
      sendIPPacket src dest proto buf noRetry (s.host v) =
        ({ s.host v with id := (s.host v).id + 1 }, -1)) := by
  have hgenuine := run_genuine hrun
  have hquiet := hgenuine.quiet v
  have hlen := length_ipPacket src dest proto buf (s.host v).id
  refine ⟨hquiet.arpList, hquiet.resendIPTaskList, ?_, ?_⟩
  · intro dstmac address hquery
    obtain ⟨d, hd, haddress⟩ := hquiet.linked.query hquery
    have hsome : ((s.host v).deviceList.find? fun d => d.address = address).isSome :=
      List.find?_isSome.mpr ⟨d, hd, by simp [haddress]⟩
    obtain ⟨device, hfind⟩ := Option.isSome_iff_exists.mp hsome
    refine ⟨device, hquiet.linked.devices ▸ List.mem_of_find?_eq_some hfind,
      by simpa using List.find?_some hfind, ?_⟩
    have hmiss : ∀ node ∈ (s.host v).arpList, node.1 ≠ dest :=
      fun node hnode => absurd (hquiet.arpList ▸ hnode) List.not_mem_nil
    rw [sendIPPacket_miss hmiss hdest hpos (by omega) hquery, Host.transmitAt]
    simp only [hfind]
    rw [transmit_eq (by omega) (by omega)]
    simp only [hgenuine.wire v, List.nil_append]
    rfl
  · intro hquery
    have hquery' : queryRouteTable { s.host v with id := (s.host v).id + 1 } dest = none := hquery
    rw [sendIPPacket, if_neg (by rw [IpHeader.size_layout]; omega)]
    simp only [if_neg hdest, hquery']

/-! ### Segments -/

/-- What `handleTCPPacket` passes to a callback. -/
structure Arrival where
  packet : List Byte
  data : List Byte
  len : ℤ
  tcpHeader : TCPHeader
  ipHeader : IpHeader

/-- A callback that takes down what it is called with. -/
def journal : TCPPacketReceiveCallback (List Arrival) :=
  fun packet data len tcpHeader ipHeader arrivals =>
    some (arrivals ++ [⟨packet, data, len, tcpHeader, ipHeader⟩])

/-- A segment that a host has handed to `sendIPPacket` for the node, as it was handed over. -/
def Arrival.Sent (topo : Topology ι) (events : List (Event ι)) (v : ι) (arrival : Arrival) : Prop :=
  ∃ (u : ι) (src dest : IPAddr) (noRetry : Bool) (id : ℕ),
    .call u (.sendIPPacket src dest IPPROTO_TCP arrival.packet noRetry) ∈ events ∧
    (dest = BROAD_IP ∨ topo.Owns v dest) ∧ arrival.packet.length = arrival.len + 20 ∧
    arrival.tcpHeader = TCPHeader.layout.read arrival.packet ∧
    arrival.data = arrival.packet.drop 20 ∧
    arrival.ipHeader = sentHeader src dest IPPROTO_TCP arrival.packet.length id

/-- **Nothing is made up and nothing is spoilt.** Whatever reaches the transport layer of a node has
been sent to it, byte for byte: however many hosts have forwarded it, however often it has been
repeated, and whatever else was on the links. -/
theorem run_arrivals {s : Mesh ι (List Arrival)}
    (hrun : Run.run (step topo [journal]) events (start topo fun _ => []) = some s) (v : ι) :
    ∀ arrival ∈ (s.host v).upper, arrival.Sent topo events v := by
  refine run_upper (p := fun events v arrivals => ∀ arrival ∈ arrivals, arrival.Sent topo events v)
    (fun _ _ h => absurd h List.not_mem_nil) ?_ ?_ hrun v
  · intro events event v arrivals hall arrival harrival
    obtain ⟨u, src, dest, noRetry, id, hsent, hrest⟩ := hall arrival harrival
    exact ⟨u, src, dest, noRetry, id, List.mem_append_left _ hsent, hrest⟩
  · rintro events v arrivals arrivals' hall ⟨u, src, dest, buf, id, hhanded, hdest, hsize, hcall⟩
    obtain rfl : _ = arrivals' := Option.some.inj hcall
    intro arrival harrival
    rcases List.mem_append.mp harrival with hold | hnew
    · exact hall arrival hold
    · obtain rfl := List.mem_singleton.mp hnew
      generalize hproto : IPPROTO_TCP = proto at hhanded
      cases hhanded with
      | sendIPPacket h =>
        subst hproto
        have hlen : (buf.length : ℤ) = (buf.length - 20 : ℕ) + 20 := by omega
        exact ⟨u, src, dest, _, id, h, hdest, hlen, rfl, rfl, rfl⟩
      | broadcast h hdevice => exact absurd hproto (by decide)

/-! ### A segment on its way -/

/-- Two manual routes, and a segment on its way along them; behind the first hop it is carried
twice, and one of the two has arrived. -/
def relay : List (Event (Fin 3)) :=
  [.call 0 (.setRoutingTable 4 BROAD_IP (Mesh.lineDevice 2).macAddr fun _ => true),
    .call 1 (.setRoutingTable 4 BROAD_IP (Mesh.lineDevice 4).macAddr
      fun device => device.ipAddr = 3),
    .call 0 (.sendIPPacket 1 4 IPPROTO_TCP (List.replicate 20 7) false), .receive 0 ⟨0, 0⟩,
    .repeatAt 0, .receive 0 ⟨0, 0⟩]

theorem exists_relayed : ∃ s : Mesh (Fin 3) (List Arrival),
    Run.run (step Mesh.lineTopology [journal]) relay (start Mesh.lineTopology fun _ => []) =
        some s ∧ (s.host 2).upper.length = 1 ∧ s.air.length = 1 := ⟨_, rfl, rfl, rfl⟩

theorem run_quiet_relayed : ∃ s : Mesh (Fin 3) (List Arrival),
    (s.host 0).arpList = [] ∧ (s.host 0).resendIPTaskList = [] ∧
    (∀ dstmac address, queryRouteTable (s.host 0) 4 = some (dstmac, address) →
      ∃ device ∈ Mesh.lineTopology.devices 0, device.address = address ∧
        sendIPPacket 1 4 17 [1, 2, 3] true (s.host 0) = ({ s.host 0 with
          id := (s.host 0).id + 1
          wire := [(device, packetFrame dstmac device.macAddr
            (ipPacket 1 4 17 [1, 2, 3] (s.host 0).id))] }, 0)) ∧
    (queryRouteTable (s.host 0) 4 = none → sendIPPacket 1 4 17 [1, 2, 3] true (s.host 0) =
      ({ s.host 0 with id := (s.host 0).id + 1 }, -1)) := by
  obtain ⟨s, hrun, -⟩ := exists_relayed
  exact ⟨s, run_quiet hrun 0 (by decide) (by decide) (by decide) 1 17 true⟩

theorem run_arrivals_relayed : ∃ s : Mesh (Fin 3) (List Arrival), (s.host 2).upper.length = 1 ∧
    ∀ arrival ∈ (s.host 2).upper, arrival.Sent Mesh.lineTopology relay 2 := by
  obtain ⟨s, hrun, hlen, -⟩ := exists_relayed
  exact ⟨s, hlen, run_arrivals hrun 2⟩

theorem run_receives_relayed : ∃ s s' : Mesh (Fin 3) (List Arrival), ∀ behind,
    step Mesh.lineTopology [journal] (.receive 0 ⟨0, behind⟩) s = some s' := by
  obtain ⟨s, hrun, -, hair⟩ := exists_relayed
  refine ⟨s, run_receives ?_ hrun ?_ (by omega) 0⟩
  · intro f hf packet data len tcpHeader ipHeader t
    obtain rfl := List.mem_singleton.mp hf
    exact ⟨_, rfl⟩
  · intro u src dest proto buf noRetry hsent
    have hbuf : buf = List.replicate 20 7 := by
      simp only [relay, List.mem_cons, List.not_mem_nil, Event.call.injEq,
        NetworkLayer.Action.sendIPPacket.injEq, reduceCtorEq, and_false, or_false, false_or]
        at hsent
      exact hsent.2.2.2.2.1
    rw [hbuf]
    exact ⟨fun _ => by decide, fun _ => by decide⟩

end Network

end LabNetstack
