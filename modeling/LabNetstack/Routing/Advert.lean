import LabNetstack.Transport.Receive

/-!
# Advertisements on the wire

What one call of `broadcastRouteTable` hands to pcap, and what a frame of that kind does to the
host that captures it: between the two functions lie the IP layer and the link layer, twice, and
the layout of `struct RouteEntry`.

## Main results

* `broadcastRouteTable_eq` — every device gets at least one advertisement of the table
* `receiveFrame_advert` — a host that receives one learns every entry of it
-/

namespace LabNetstack

open Layout

variable {τ : Type*}

/-! ### Sending -/

/-- A table of this many entries fits a frame. -/
def maxEntries : ℕ := 2046

/-- The frame carries an advertisement of the table. -/
def IsAdvert (table : List RouteEntry) (frame : List Byte) : Prop :=
  ∃ (src : IPAddr) (macAddr srcMac : MacAddr) (id : ℕ),
    frame = EthHeader.layout.bytes (createEthHeader BROAD_MAC srcMac (htons ETHTYPE_IPv4)) ++
      ipPacket src BROAD_IP ROUTE_PROTOCOL (routeAdvert table macAddr) id

/-- The address behind the table is this one. -/
def IsAdvertOf (table : List RouteEntry) (macAddr : MacAddr) (frame : List Byte) : Prop :=
  ∃ (src : IPAddr) (srcMac : MacAddr) (id : ℕ),
    frame = EthHeader.layout.bytes (createEthHeader BROAD_MAC srcMac (htons ETHTYPE_IPv4)) ++
      ipPacket src BROAD_IP ROUTE_PROTOCOL (routeAdvert table macAddr) id

theorem IsAdvertOf.isAdvert {table : List RouteEntry} {macAddr : MacAddr} {frame : List Byte}
    (h : IsAdvertOf table macAddr frame) : IsAdvert table frame := by
  obtain ⟨src, srcMac, id, hframe⟩ := h
  exact ⟨src, macAddr, srcMac, id, hframe⟩

theorem IsAdvert.exists_macAddr {table : List RouteEntry} {frame : List Byte}
    (h : IsAdvert table frame) : ∃ macAddr, IsAdvertOf table macAddr frame := by
  obtain ⟨src, macAddr, srcMac, id, hframe⟩ := h
  exact ⟨macAddr, src, srcMac, id, hframe⟩

theorem length_routeAdvert (table : List RouteEntry) (macAddr : MacAddr) :
    (routeAdvert table macAddr).length = 32 * table.length + 6 := by
  rw [routeAdvert, List.length_append, RouteEntry.layout.length_flatMap,
    MacAddr.layout.length_bytes, RouteEntry.size_layout, MacAddr.size_layout]

theorem transmit_eq {host : Host τ} {buf : List Byte} (hpos : 0 < buf.length)
    (hfit : buf.length ≤ 0x10000 - 14) (destMac : MacAddr) (device : Device) :
    host.transmit buf destMac device = { host with
      wire := host.wire ++ [(device, EthHeader.layout.bytes
        (createEthHeader destMac device.macAddr (htons ETHTYPE_IPv4)) ++ buf)] } := by
  rw [Host.transmit, sendFrame, if_neg (by rw [EthHeader.size_layout]; omega)]

theorem foldl_transmit {buf : List Byte} (hpos : 0 < buf.length) (hfit : buf.length ≤ 0x10000 - 14)
    (destMac : MacAddr) (devices : List Device) (host : Host τ) :
    devices.foldl (fun host device => host.transmit buf destMac device) host =
      { host with wire := host.wire ++ devices.map fun device => (device, EthHeader.layout.bytes
        (createEthHeader destMac device.macAddr (htons ETHTYPE_IPv4)) ++ buf) } := by
  induction devices generalizing host with
  | nil => rw [List.foldl_nil, List.map_nil, List.append_nil]
  | cons device devices ih =>
    rw [List.foldl_cons, transmit_eq hpos hfit, ih, List.map_cons, List.append_assoc,
      List.singleton_append]

/-- A broadcast goes out on every device. -/
theorem sendIPPacket_broadcast {host : Host τ} {buf : List Byte} (hpos : 0 < buf.length)
    (hfit : buf.length ≤ 0x10000 - 34) (src : IPAddr) (proto : BitVec 8) (noRetry : Bool) :
    (sendIPPacket src BROAD_IP proto buf noRetry host).1 = { host with
      id := host.id + 1
      wire := host.wire ++ host.deviceList.map fun device => (device, EthHeader.layout.bytes
        (createEthHeader BROAD_MAC device.macAddr (htons ETHTYPE_IPv4)) ++
          ipPacket src BROAD_IP proto buf host.id) } := by
  rw [sendIPPacket, if_neg (by rw [IpHeader.size_layout]; omega)]
  simp only [if_true]
  rw [foldl_transmit (by rw [length_ipPacket]; omega) (by rw [length_ipPacket]; omega)]

/-- What the loop of `broadcastRouteTable` over `devices` puts on the wire of a host that has
`targets`: each packet goes out on all of them. -/
def broadcastFrames (table : List RouteEntry) (targets devices : List Device) (id : ℕ) :
    List (Device × List Byte) :=
  (devices.zipIdx id).flatMap fun p => targets.map fun d => (d, EthHeader.layout.bytes
    (createEthHeader BROAD_MAC d.macAddr (htons ETHTYPE_IPv4)) ++
      ipPacket p.1.ipAddr BROAD_IP ROUTE_PROTOCOL (routeAdvert table p.1.macAddr) p.2)

theorem foldl_broadcast_eq {table : List RouteEntry} (hfit : table.length ≤ maxEntries)
    (devices : List Device) (host : Host τ) :
    devices.foldl (fun host device =>
        (sendIPPacket device.ipAddr BROAD_IP ROUTE_PROTOCOL (routeAdvert table device.macAddr) false
          host).1) host = { host with
      id := host.id + devices.length
      wire := host.wire ++ broadcastFrames table host.deviceList devices host.id } := by
  induction devices generalizing host with
  | nil =>
    rw [List.foldl_nil, broadcastFrames, List.zipIdx_nil, List.flatMap_nil, List.append_nil]
    rfl
  | cons device devices ih =>
    have hlen := length_routeAdvert table device.macAddr
    rw [maxEntries] at hfit
    rw [List.foldl_cons, sendIPPacket_broadcast (by omega) (by omega), ih]
    simp only [broadcastFrames, List.zipIdx_cons, List.flatMap_cons, List.length_cons,
      List.append_assoc, Nat.add_assoc, Nat.add_comm 1]

theorem mem_broadcastFrames {table : List RouteEntry} {targets devices : List Device} {id : ℕ}
    {out : Device × List Byte} (h : out ∈ broadcastFrames table targets devices id) :
    out.1 ∈ targets ∧ ∃ device ∈ devices, IsAdvertOf table device.macAddr out.2 := by
  obtain ⟨p, hp, hout⟩ := List.mem_flatMap.mp h
  obtain ⟨d, hd, rfl⟩ := List.mem_map.mp hout
  exact ⟨hd, p.1, List.fst_mem_of_mem_zipIdx hp, _, _, _, rfl⟩

/-- Each of the addresses goes out on each of the devices. -/
theorem exists_mem_broadcastFrames {targets devices : List Device} {d device : Device}
    (hd : d ∈ targets) (hdevice : device ∈ devices) (table : List RouteEntry) (id : ℕ) :
    ∃ frame, (d, frame) ∈ broadcastFrames table targets devices id ∧
      IsAdvertOf table device.macAddr frame := by
  obtain ⟨i, hi, rfl⟩ := List.getElem_of_mem hdevice
  have hmem : (devices[i], id + i) ∈ devices.zipIdx id :=
    List.mk_add_mem_zipIdx_iff_getElem?.mpr (List.getElem?_eq_getElem hi)
  exact ⟨_, List.mem_flatMap.mpr ⟨_, hmem, List.mem_map.mpr ⟨d, hd, rfl⟩⟩, _, _, _, rfl⟩

/-- The loop of `broadcastRouteTable` over the devices. -/
theorem foldl_broadcast {table : List RouteEntry} (hfit : table.length ≤ maxEntries)
    (devices : List Device) (host : Host τ) :
    ∃ id sent, devices.foldl (fun host device =>
        (sendIPPacket device.ipAddr BROAD_IP ROUTE_PROTOCOL (routeAdvert table device.macAddr) false
          host).1) host = { host with id := id, wire := host.wire ++ sent } ∧
      (∀ out ∈ sent, out.1 ∈ host.deviceList ∧
        ∃ device ∈ devices, IsAdvertOf table device.macAddr out.2) ∧
      (devices ≠ [] → ∀ device ∈ host.deviceList, ∃ frame, (device, frame) ∈ sent) := by
  refine ⟨_, _, foldl_broadcast_eq hfit devices host, fun _ => mem_broadcastFrames, ?_⟩
  intro hne d hd
  obtain ⟨device, hdevice⟩ := List.exists_mem_of_ne_nil _ hne
  obtain ⟨frame, hmem, -⟩ := exists_mem_broadcastFrames hd hdevice table host.id
  exact ⟨frame, hmem⟩

/-- Every frame that goes out bears the address of one of the devices, which need not be the device
that it goes out on. -/
theorem broadcastRouteTable_sent {host : Host τ} {now : ℕ}
    (hdue : tooEarly broadInterval now host.lastBroad = false)
    (hfit : host.onlineRouteTable.length ≤ maxEntries) :
    ∃ id sent, broadcastRouteTable now host =
        { host with lastBroad := some now, id := id, wire := host.wire ++ sent } ∧
      (∀ out ∈ sent, out.1 ∈ host.deviceList ∧ ∃ device ∈ host.deviceList,
        IsAdvertOf host.onlineRouteTable device.macAddr out.2) ∧
      ∀ device ∈ host.deviceList, ∃ frame, (device, frame) ∈ sent := by
  obtain ⟨id, sent, hrun, hsent, hall⟩ := foldl_broadcast hfit host.deviceList
    { host with lastBroad := some now }
  refine ⟨id, sent, ?_, hsent, fun device hd => hall (List.ne_nil_of_mem hd) device hd⟩
  rw [broadcastRouteTable, hdue]
  exact hrun

/-- **A broadcast of the table.** Only the counter, the clock and the wire change; every frame on
the wire is an advertisement of the table, and there is one for every device. -/
theorem broadcastRouteTable_eq {host : Host τ} {now : ℕ}
    (hdue : tooEarly broadInterval now host.lastBroad = false)
    (hfit : host.onlineRouteTable.length ≤ maxEntries) :
    ∃ id sent, broadcastRouteTable now host =
        { host with lastBroad := some now, id := id, wire := host.wire ++ sent } ∧
      (∀ out ∈ sent, out.1 ∈ host.deviceList ∧ IsAdvert host.onlineRouteTable out.2) ∧
      ∀ device ∈ host.deviceList, ∃ frame, (device, frame) ∈ sent := by
  obtain ⟨id, sent, hrun, hsent, hall⟩ := broadcastRouteTable_sent hdue hfit
  refine ⟨id, sent, hrun, fun out hout => ?_, hall⟩
  obtain ⟨hdevice, device, -, hadvert⟩ := hsent out hout
  exact ⟨hdevice, hadvert.isAdvert⟩

/-! ### Receiving -/

/-- `handleRouteTable` on an advertisement. -/
theorem handleRouteTable_advert {host : Host τ} {table : List RouteEntry}
    (hfit : table.length ≤ maxEntries) (macAddr : MacAddr) {ipHeader : IpHeader}
    (hprotocol : ipHeader.protocol = ROUTE_PROTOCOL) (device : Device) :
    handleRouteTable (routeAdvert table macAddr)
        (BitVec.ofNat 32 (routeAdvert table macAddr).length) ipHeader device host =
      some { host with
        tmpRouteTable := host.tmpRouteTable ++ table.map (learnEntry device macAddr) } := by
  rw [maxEntries] at hfit
  have hsub : BitVec.ofNat 32 (32 * table.length + 6) - BitVec.ofNat 32 6
      = BitVec.ofNat 32 (32 * table.length) := by
    rw [WrapCounter.ofNat_sub_ofNat (by omega), Nat.add_sub_cancel]
  have hmac : (routeAdvert table macAddr).drop (32 * table.length)
      = MacAddr.layout.bytes macAddr := by
    rw [routeAdvert, List.drop_left']
    rw [RouteEntry.layout.length_flatMap, RouteEntry.size_layout]
  have hread : MacAddr.layout.read? (MacAddr.layout.bytes macAddr) = some macAddr := by
    have := MacAddr.layout.read?_append macAddr []
    rwa [List.append_nil] at this
  rw [handleRouteTable, if_neg (not_not.mpr hprotocol), length_routeAdvert, MacAddr.size_layout,
    hsub, BitVec.toNat_ofNat, BitVec.toNat_ofNat, Nat.mod_eq_of_lt (by omega),
    Nat.mod_eq_of_lt (by omega), RouteEntry.size_layout, Nat.mul_div_cancel_left _ (by decide),
    Nat.add_sub_cancel, hmac, hread, routeAdvert]
  simp only [RouteEntry.layout.readArray?_flatMap]

/-- Through both layers below, each entry of an advertisement ends up in the `tmp` table with one
hop more, the device that the frame came in on and the address that it bears. -/
theorem receiveFrame_advertOf {table : List RouteEntry} {macAddr : MacAddr} {frame : List Byte}
    (hadvert : IsAdvertOf table macAddr frame) (hfit : table.length ≤ maxEntries)
    (callbacks : List (TCPPacketReceiveCallback τ)) (chance : Chance) (device : Device)
    (host : Host τ) :
    receiveFrame callbacks chance device frame host = some { host with
      tmpRouteTable := host.tmpRouteTable ++ table.map (learnEntry device macAddr) } := by
  obtain ⟨src, srcMac, id, rfl⟩ := hadvert
  have hlen := length_routeAdvert table macAddr
  have hsend : sendFrame (ipPacket src BROAD_IP ROUTE_PROTOCOL (routeAdvert table macAddr) id)
      ETHTYPE_IPv4 BROAD_MAC ⟨0, srcMac, 0⟩ = some (EthHeader.layout.bytes
        (createEthHeader BROAD_MAC srcMac (htons ETHTYPE_IPv4)) ++
          ipPacket src BROAD_IP ROUTE_PROTOCOL (routeAdvert table macAddr) id) := by
    rw [maxEntries] at hfit
    rw [sendFrame, if_neg]
    rw [length_ipPacket, EthHeader.size_layout]
    omega
  have hlink := handleFrame_sendFrame host.deviceList hsend (Or.inl rfl) []
    [handleIPPacket [handleRouteTable, handleTCPPacket callbacks] chance] device host
  rw [List.append_nil, List.append_nil, List.foldlM_cons,
    handleIPPacket_broadcast (by decide) rfl, List.foldlM_cons,
    handleRouteTable_advert hfit macAddr rfl] at hlink
  exact hlink

/-- **An advertisement arrives.** Through both layers below, each of its entries ends up in the
`tmp` table with one hop more, whatever the transport layer has registered. -/
theorem receiveFrame_advert {table : List RouteEntry} {frame : List Byte}
    (hadvert : IsAdvert table frame) (hfit : table.length ≤ maxEntries)
    (callbacks : List (TCPPacketReceiveCallback τ)) (chance : Chance) (device : Device)
    (host : Host τ) :
    ∃ macAddr, receiveFrame callbacks chance device frame host = some { host with
      tmpRouteTable := host.tmpRouteTable ++ table.map (learnEntry device macAddr) } := by
  obtain ⟨macAddr, hadvert⟩ := hadvert.exists_macAddr
  exact ⟨macAddr, receiveFrame_advertOf hadvert hfit callbacks chance device host⟩

end LabNetstack
