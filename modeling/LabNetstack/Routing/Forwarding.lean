import Mathlib.Algebra.Group.Action.Defs
import Mathlib.Algebra.Order.BigOperators.Group.List
import Mathlib.Data.Set.Finite.Lattice
import Mathlib.Data.Set.Finite.List
import LabNetstack.Routing.NextHop

/-!
# Forwarding

A unicast packet crosses a network whose tables have converged. `sendIPPacket` looks up where to
send it, and so does `deliverIPPacket` at every host that it does not belong to; the link carries a
frame to every other device there, and the filter of `handleFrame` decides who looks at it.

The order in which copies are received is left open. What is under way never holds more than one
copy that somebody accepts; all the others are ignored, whenever they arrive.

## Main results

* `Transit.Carrying.step` — what receiving one copy does
* `Transit.Carrying.delivers` — next hops that lead nearer lead there
-/

namespace LabNetstack

open DistanceVector Layout

/-- Devices on links that all of them share. A link carries what goes out on one of its devices to
every other, and to each once; no node has two devices on a link. A frame for a device is for its
node alone: the address is not that of another node's device, nor the one that stands for
everyone. -/
structure Topology.Wired {ι κ : Type*} (topo : Topology ι) (link : ι → Device → κ) : Prop where
  mem_links : ∀ {u v device device'}, device ∈ topo.devices u →
    ((v, device') ∈ topo.links u device ↔
      device' ∈ topo.devices v ∧ link v device' = link u device ∧ (v, device') ≠ (u, device))
  nodup_links : ∀ {u device}, device ∈ topo.devices u → (topo.links u device).Nodup
  one_device : ∀ {u device device'}, device ∈ topo.devices u → device' ∈ topo.devices u →
    link u device = link u device' → device = device'
  macAddr : ∀ {u w device}, device ∈ topo.devices u → isMine (topo.devices w) device.macAddr → w = u
  ipAddr : ∀ {u w a}, topo.Owns u a → topo.Owns w a → w = u
  address : ∀ {u device device'}, device ∈ topo.devices u → device' ∈ topo.devices u →
    device.address = device'.address → device = device'

/-- What a callback of the network layer is called with. -/
structure Delivery where
  data : List Byte
  len : BitVec 32
  ipHeader : IpHeader
  device : Device
deriving DecidableEq

/-- A callback that keeps to the state above the network layer. -/
def upperCallback {τ : Type*} (f : Delivery → τ → τ) : IPPacketReceiveCallback τ :=
  fun data len ipHeader device host =>
    some { host with upper := f ⟨data, len, ipHeader, device⟩ host.upper }

/-- The hosts and the copies under way, and what has been handed to pcap so far: by which node, on
which device, and the frame. -/
structure Transit (ι τ : Type*) extends Mesh ι τ where
  sent : List (ι × Device × List Byte)

/-- A packet as it goes over the links. -/
def IpHeader.packet (ipHeader : IpHeader) (data : List Byte) : List Byte :=
  IpHeader.layout.bytes ipHeader ++ data

/-- A unicast packet that a frame has room for. -/
structure IpHeader.Fits (ipHeader : IpHeader) (data : List Byte) : Prop where
  length_le : data.length ≤ 0x10000 - 34
  unicast : ipHeader.dst ≠ BROAD_IP

namespace Transit

variable {ι τ : Type*} [DecidableEq ι] (topo : Topology ι) (callbacks : List (Delivery → τ → τ))

/-- A node has done something. -/
def put (t : Transit ι τ) (v : ι) (host : Host τ) : Transit ι τ where
  toMesh := t.toMesh.put topo v host
  sent := t.sent ++ host.wire.map fun out => (v, out)

/-- A copy is received. -/
def step : ℕ × Chance → Transit ι τ → Option (Transit ι τ)
  | (i, chance), t =>
    match t.air[i]? with
    | none => none
    | some (v, device, frame) =>
      (handleFrame (t.host v).deviceList [handleIPPacket (callbacks.map upperCallback) chance]
        device ⟨BitVec.ofNat 32 frame.length⟩ frame (t.host v)).map fun host =>
          { t with air := t.air.eraseIdx i }.put topo v host

/-- The node hands a packet to `sendIPPacket`. -/
def send (s : Mesh ι τ) (v : ι) (src dest : IPAddr) (proto : BitVec 8) (buf : List Byte)
    (noRetry : Bool) : Transit ι τ :=
  { s with sent := [] : Transit ι τ }.put topo v
    (sendIPPacket src dest proto buf noRetry (s.host v)).1

/-! ### What is to be shown -/

/-- The copy passes the filter of `handleFrame` at the node that it comes to. -/
def Accepted (copy : ι × Device × List Byte) : Prop :=
  isMine (topo.devices copy.1) (EthHeader.layout.read copy.2.2).desAddr

instance (copy : ι × Device × List Byte) : Decidable (Accepted topo copy) :=
  inferInstanceAs (Decidable (isMine _ _))

/-- Of the copies of a frame exactly one passes. -/
def AcceptedOnce (out : ι × Device × List Byte) : Prop :=
  ∃ copy, ((Mesh.copies topo out.1 [out.2]).filter fun copy => Accepted topo copy) = [copy]

/-- The callbacks of `u`, and of no other node, have been called since `t₀`, with these data. -/
def Delivered (t₀ : Transit ι τ) (u : ι) (ipHeader : IpHeader) (data : List Byte)
    (t : Transit ι τ) : Prop :=
  ∃ device ∈ topo.devices u, ∀ w, (t.host w).upper = if w = u then
    callbacks.foldl (fun upper f => f ⟨data, BitVec.ofNat 32 data.length, ipHeader, device⟩ upper)
      (t₀.host w).upper
    else (t₀.host w).upper

/-- In whatever order the copies are received: every frame that is sent carries the packet and is
accepted by one node; the callbacks of `u` are called when `d` frames have been sent, and there are
no more; nothing stands in the way of receiving a copy, and in the end there is none. -/
structure Delivers (t₀ : Transit ι τ) (u : ι) (ipHeader : IpHeader)
    (data : List Byte) (d : ℕ) : Prop where
  sent : ∀ events t, Run.run (step topo callbacks) events t₀ = some t → ∀ out ∈ t.sent,
    AcceptedOnce topo out ∧ out.2.2.drop 14 = ipHeader.packet data
  upper : ∀ events t, Run.run (step topo callbacks) events t₀ = some t →
    (t.sent.length ≤ d ∧ ∀ w, (t.host w).upper = (t₀.host w).upper) ∨
      (t.sent.length = d ∧ Delivered topo callbacks t₀ u ipHeader data t)
  finished : ∀ events t, Run.run (step topo callbacks) events t₀ = some t → t.air = [] →
    t.sent.length = d ∧ Delivered topo callbacks t₀ u ipHeader data t
  progress : ∀ events t, Run.run (step topo callbacks) events t₀ = some t →
    ∀ i < t.air.length, ∀ chance, ∃ t', step topo callbacks (i, chance) t = some t'
  ends : ∃ n, ∀ events t, Run.run (step topo callbacks) events t₀ = some t → events.length ≤ n

end Transit

/-! ### One hop -/

/-- The frame that carries a packet to the device with this address. -/
def packetFrame (destMac srcMac : MacAddr) (packet : List Byte) : List Byte :=
  EthHeader.layout.bytes (createEthHeader destMac srcMac (htons ETHTYPE_IPv4)) ++ packet

theorem desAddr_packetFrame (destMac srcMac : MacAddr) (packet : List Byte) :
    (EthHeader.layout.read (packetFrame destMac srcMac packet)).desAddr = destMac := by
  rw [packetFrame, EthHeader.layout.read_append, createEthHeader]

theorem drop_packetFrame (destMac srcMac : MacAddr) (packet : List Byte) :
    (packetFrame destMac srcMac packet).drop 14 = packet :=
  EthHeader.layout.drop_append _ _

theorem size_le_packetFrame (destMac srcMac : MacAddr) (packet : List Byte) :
    EthHeader.layout.size ≤ (packetFrame destMac srcMac packet).length := by
  rw [packetFrame, List.length_append, EthHeader.layout.length_bytes]
  exact Nat.le_add_right ..

/-- `handleFrame` hands the packet on to the network layer. -/
theorem handleFrame_packetFrame {σ : Type*} {deviceList : List Device} {destMac srcMac : MacAddr}
    {packet : List Byte} (hpos : 0 < packet.length) (hfit : packet.length ≤ 0x10000 - 14)
    (hmine : isMine deviceList destMac) (callback : FrameReceiveCallback σ) (device : Device)
    (s : σ) :
    handleFrame deviceList [callback] device
        ⟨BitVec.ofNat 32 (packetFrame destMac srcMac packet).length⟩
        (packetFrame destMac srcMac packet) s =
      callback packet (BitVec.ofNat 32 packet.length) ⟨destMac, srcMac, ETHTYPE_IPv4⟩ device s := by
  have hsend : sendFrame packet ETHTYPE_IPv4 destMac ⟨0, srcMac, 0⟩
      = some (packetFrame destMac srcMac packet) := by
    rw [sendFrame, if_neg (by rw [EthHeader.size_layout]; omega), packetFrame]
  have hlink := handleFrame_sendFrame deviceList hsend hmine [] [callback] device s
  rw [List.append_nil, List.append_nil, List.foldlM_cons] at hlink
  rw [hlink]
  simp only [List.foldlM_nil, bind_pure]

/-- Only one element of the list passes. -/
theorem filter_eq_singleton {α : Type*} {l : List α} (hnodup : l.Nodup) {x : α} (hx : x ∈ l)
    {p : α → Bool} (hp : ∀ y ∈ l, p y = true ↔ y = x) : l.filter p = [x] := by
  refine List.perm_singleton.mp ((List.perm_ext_iff_of_nodup (hnodup.filter p)
    (List.nodup_singleton x)).mpr fun y => ?_)
  rw [List.mem_filter, List.mem_singleton]
  constructor
  · exact fun ⟨hy, hpy⟩ => (hp y hy).mp hpy
  · rintro rfl
    exact ⟨hx, (hp y hx).mpr rfl⟩

section Receive

variable {τ : Type*} {ipHeader : IpHeader} {data : List Byte} {host : Host τ} {ethHdr : EthHeader}

theorem IpHeader.length_packet (ipHeader : IpHeader) (data : List Byte) :
    (ipHeader.packet data).length = data.length + 20 := by
  rw [packet, List.length_append, layout.length_bytes, size_layout, Nat.add_comm]

theorem IpHeader.size_le_packet (ipHeader : IpHeader) (data : List Byte) :
    layout.size ≤ (ipHeader.packet data).length := by
  rw [length_packet, size_layout]
  exact Nat.le_add_left ..

theorem IpHeader.read_packet (ipHeader : IpHeader) (data : List Byte) :
    layout.read (ipHeader.packet data) = ipHeader := layout.read_append ..

theorem IpHeader.drop_packet (ipHeader : IpHeader) (data : List Byte) :
    (ipHeader.packet data).drop layout.size = data := layout.drop_append ..

theorem foldlM_upperCallback (callbacks : List (Delivery → τ → τ)) (data : List Byte)
    (len : BitVec 32) (ipHeader : IpHeader) (device : Device) (host : Host τ) :
    (callbacks.map upperCallback).foldlM (fun host f => f data len ipHeader device host) host =
      some { host with
        upper := callbacks.foldl (fun upper f => f ⟨data, len, ipHeader, device⟩ upper)
          host.upper } := by
  induction callbacks generalizing host with
  | nil => rfl
  | cons f callbacks ih =>
    rw [List.map_cons, List.foldlM_cons, List.foldl_cons]
    exact ih _

/-- The host that owns the destination calls its callbacks with what is behind the header. -/
theorem handleIPPacket_owner (hloss : host.random_drop = 0) (htype : ethHdr.type = ETHTYPE_IPv4)
    (howns : ∃ device ∈ host.deviceList, device.ipAddr = ipHeader.dst)
    (callbacks : List (Delivery → τ → τ)) (chance : Chance) (device : Device) :
    handleIPPacket (callbacks.map upperCallback) chance (ipHeader.packet data)
        (BitVec.ofNat 32 (ipHeader.packet data).length) ethHdr device host =
      some { host with
        upper := callbacks.foldl (fun upper f =>
          f ⟨data, BitVec.ofNat 32 data.length, ipHeader, device⟩ upper) host.upper } := by
  have hmine : isMyPacket host ipHeader = true := by
    obtain ⟨d, hd, hip⟩ := howns
    rw [isMyPacket, Bool.or_eq_true, List.any_eq_true]
    exact Or.inr ⟨d, hd, decide_eq_true hip.symm⟩
  have hlen : BitVec.ofNat 32 (ipHeader.packet data).length - 20 = BitVec.ofNat 32 data.length := by
    rw [IpHeader.length_packet, BitVec.ofNat_add]
    exact BitVec.add_sub_cancel _ _
  have hdrop : ¬ randomDrop host.random_drop chance data ipHeader = true := by
    rw [hloss, randomDrop_zero]
    exact Bool.false_ne_true
  rw [handleIPPacket_of_isMyPacket htype (ipHeader.size_le_packet data)
    (by rw [IpHeader.read_packet]; exact hmine), IpHeader.read_packet, IpHeader.drop_packet,
    if_neg hdrop, hlen, foldlM_upperCallback]

/-- Any other host sends it on, as the lookup says. -/
theorem IpHeader.Fits.handleIPPacket_router (hfits : ipHeader.Fits data)
    (hloss : host.random_drop = 0) (htype : ethHdr.type = ETHTYPE_IPv4)
    (hother : ¬ ∃ device ∈ host.deviceList, device.ipAddr = ipHeader.dst) {dstmac : MacAddr}
    {address : BitVec 64} (hquery : queryRouteTable host ipHeader.dst = some (dstmac, address))
    (callbacks : List (IPPacketReceiveCallback τ)) (chance : Chance) (device : Device) :
    handleIPPacket callbacks chance (ipHeader.packet data)
        (BitVec.ofNat 32 (ipHeader.packet data).length) ethHdr device host =
      some (host.transmitAt (ipHeader.packet data) dstmac address) := by
  have hmine : isMyPacket host ipHeader = false := by
    rw [isMyPacket, Bool.or_eq_false_iff, List.any_eq_false]
    refine ⟨decide_eq_false hfits.unicast, fun d hd hip => hother ⟨d, hd, ?_⟩⟩
    exact (of_decide_eq_true hip).symm
  have hlen := hfits.length_le
  rw [handleIPPacket_of_not_isMyPacket htype (ipHeader.size_le_packet data)
    (by rw [IpHeader.read_packet]; exact hmine)
    (by rw [hloss]; exact randomDrop_zero ..), IpHeader.read_packet,
    deliverIPPacket_eq (by rw [IpHeader.length_packet]; omega) hquery]

end Receive

section Hop

variable {ι τ κ : Type*} {topo : Topology ι} {link : ι → Device → κ}

/-- **The filter.** Of all devices on the link it is the neighbour's that takes the frame, whichever
of the neighbour's addresses it goes to. -/
theorem Topology.Wired.accepted (hw : topo.Wired link) {u v : ι} {device device' other : Device}
    (hdevice : device ∈ topo.devices u) (hlink : (v, device') ∈ topo.links u device)
    (hother : other ∈ topo.devices u) (srcMac : MacAddr) (packet : List Byte) :
    ((Mesh.copies topo v [(device', packetFrame other.macAddr srcMac packet)]).filter
      fun copy => Transit.Accepted topo copy) =
        [(u, device, packetFrame other.macAddr srcMac packet)] := by
  obtain ⟨hdevice', hsame, hne⟩ := (hw.mem_links hdevice).mp hlink
  have hback : (u, device) ∈ topo.links v device' :=
    (hw.mem_links hdevice').mpr ⟨hdevice, hsame.symm, hne.symm⟩
  have hpass : ((topo.links v device').filter fun c => Transit.Accepted topo
      (c.1, c.2, packetFrame other.macAddr srcMac packet)) = [(u, device)] := by
    refine filter_eq_singleton (hw.nodup_links hdevice') hback fun c hc => ?_
    rw [decide_eq_true_iff, Transit.Accepted, desAddr_packetFrame]
    constructor
    · intro hmine
      obtain ⟨w, d⟩ := c
      obtain rfl : w = u := hw.macAddr hother hmine
      obtain ⟨hd, hsame', -⟩ := (hw.mem_links hdevice').mp hc
      rw [hw.one_device hd hdevice (hsame'.trans hsame)]
    · rintro rfl
      exact Or.inr ⟨other, hother, rfl⟩
  rw [Mesh.copies, List.flatMap_singleton, List.filter_map]
  exact congrArg _ hpass

/-- **One hop.** What the lookup finds takes the packet to the next hop, and to nobody else. -/
theorem Mesh.NextHop.transmitAt (hw : topo.Wired link) {host : Host τ} {v : ι} {a : IPAddr} {k : ℕ}
    (h : NextHop topo host v a k) (hdevices : host.deviceList = topo.devices v) (packet : List Byte)
    (hpos : 0 < packet.length) (hfit : packet.length ≤ 0x10000 - 14) :
    ∃ destMac device', queryRouteTable host a = some (destMac, device'.address) ∧
      host.transmitAt packet destMac device'.address = { host with
        wire := host.wire ++ [(device', packetFrame destMac device'.macAddr packet)] } ∧
      device' ∈ topo.devices v ∧ ∃ u device, topo.IsHopDist u a k ∧ device ∈ topo.devices u ∧
        ((Mesh.copies topo v [(device', packetFrame destMac device'.macAddr packet)]).filter
          fun copy => Transit.Accepted topo copy) =
            [(u, device, packetFrame destMac device'.macAddr packet)] := by
  obtain ⟨u, hdist, device, hdevice, device', hlink, other, hother, hquery⟩ := h
  have hdevice' := topo.mem_devices hlink
  refine ⟨other.macAddr, device', hquery, ?_, hdevice', u, device, hdist, hdevice,
    hw.accepted hdevice hlink hother device'.macAddr packet⟩
  have hdistinct : ∀ d ∈ host.deviceList, d.address = device'.address → d = device' := by
    intro d hd
    exact hw.address (hdevices ▸ hd) hdevice'
  rw [host.transmitAt_address (hdevices ▸ hdevice') hdistinct, transmit_eq hpos hfit]
  rfl

end Hop

/-! ### Under way -/

/-- Taking out one element leaves what passes, that element aside. -/
theorem filter_eraseIdx_perm {α : Type*} {l : List α} {i : ℕ} (hi : i < l.length) (p : α → Bool) :
    (l.filter p).Perm ((l[i] :: l.eraseIdx i).filter p) :=
  (List.getElem_cons_eraseIdx_perm hi).symm.filter p

namespace Transit

variable {ι τ κ : Type*} [DecidableEq ι] {topo : Topology ι} {link : ι → Device → κ}
  {callbacks : List (Delivery → τ → τ)} {start : ι → Host τ} {ipHeader : IpHeader}
  {data : List Byte} {t t' : Transit ι τ} {u : ι} {d r : ℕ}

/-- What a node hands over is put on the links. -/
theorem put_wire {v : ι} (hwire : (t.host v).wire = []) (wire : List (Device × List Byte)) :
    t.put topo v { t.host v with wire := wire } = { t with
      air := t.air ++ Mesh.copies topo v wire
      sent := t.sent ++ wire.map fun out => (v, out) } := by
  have hhost : Function.update t.host v { t.host v with wire := [] } = t.host := by
    rw [← hwire]
    exact Function.update_eq_self ..
  simp only [put, Mesh.put, hhost]

theorem put_self {v : ι} (hwire : (t.host v).wire = []) : t.put topo v (t.host v) = t := by
  have hsame : { t.host v with wire := [] } = t.host v := by rw [← hwire]
  rw [← hsame, put_wire hwire]
  simp only [Mesh.copies, List.flatMap_nil, List.map_nil, List.append_nil]

/-- A host that only calls its callbacks puts nothing there. -/
theorem put_upper {v : ι} (hwire : (t.host v).wire = []) (upper : τ) :
    t.put topo v { t.host v with upper := upper } =
      { t with host := Function.update t.host v { t.host v with upper := upper } } := by
  simp only [put, Mesh.put, Mesh.copies, hwire, List.flatMap_nil, List.map_nil, List.append_nil]

/-- The hosts can forward a packet to the address. -/
structure Routed (topo : Topology ι) (start : ι → Host τ) (a : IPAddr) : Prop where
  deviceList : ∀ w, (start w).deviceList = topo.devices w
  wire : ∀ w, (start w).wire = []
  random_drop : ∀ w, (start w).random_drop = 0
  nextHop : ∀ w k, k < 20 → topo.IsHopDist w a (k + 1) → Mesh.NextHop topo (start w) w a k

/-- Every frame carries the packet, and of those that have been sent each is accepted once. -/
structure Carrying (topo : Topology ι) (packet : List Byte) (t : Transit ι τ) : Prop where
  air : ∀ copy ∈ t.air, ∃ destMac srcMac, copy.2.2 = packetFrame destMac srcMac packet
  sent : ∀ out ∈ t.sent, out.2.1 ∈ topo.devices out.1 ∧ AcceptedOnce topo out ∧
    out.2.2.drop 14 = packet

/-- One copy matters, and the node that it goes to is `r` hops away from the destination. -/
structure UnderWay (topo : Topology ι) (start : ι → Host τ) (a : IPAddr) (d r : ℕ)
    (t : Transit ι τ) : Prop where
  host : t.host = start
  live : ∃ w device frame, (t.air.filter fun copy => Accepted topo copy) = [(w, device, frame)] ∧
    device ∈ topo.devices w ∧ topo.IsHopDist w a r
  sent : t.sent.length + r = d

/-- No copy matters any more: the packet is with the callbacks. -/
structure Arrived (topo : Topology ι) (callbacks : List (Delivery → τ → τ)) (start : ι → Host τ)
    (u : ι) (ipHeader : IpHeader) (data : List Byte) (d : ℕ) (t : Transit ι τ) : Prop where
  host : ∃ device ∈ topo.devices u, t.host = Function.update start u { start u with
    upper := callbacks.foldl (fun upper f =>
      f ⟨data, BitVec.ofNat 32 data.length, ipHeader, device⟩ upper) (start u).upper }
  live : (t.air.filter fun copy => Accepted topo copy) = []
  sent : t.sent.length = d

/-! ### Receiving a copy -/

/-- A node that the frame is not for ignores it. -/
theorem step_ignored {packet : List Byte} (hc : Carrying topo packet t)
    (hdevices : ∀ w, (t.host w).deviceList = topo.devices w) (hwire : ∀ w, (t.host w).wire = [])
    {i : ℕ} (hi : i < t.air.length) (hother : ¬ Accepted topo t.air[i]) (chance : Chance) :
    step topo callbacks (i, chance) t = some { t with air := t.air.eraseIdx i } := by
  obtain ⟨destMac, srcMac, hframe⟩ := hc.air _ (List.getElem_mem hi)
  have hsize : EthHeader.layout.size ≤ t.air[i].2.2.length := by
    rw [hframe]
    exact size_le_packetFrame ..
  simp only [step, List.getElem?_eq_getElem hi]
  rw [handleFrame_of_not_isMine hsize (by rw [hdevices]; exact hother), Option.map_some]
  exact congrArg some (put_self (hwire _))

variable (topo callbacks) in
/-- The node that it is for looks at the packet. -/
theorem step_accepted {i : ℕ} (hi : i < t.air.length) {w : ι} {device : Device}
    {destMac srcMac : MacAddr} {packet : List Byte}
    (hcopy : t.air[i] = (w, device, packetFrame destMac srcMac packet))
    (hmine : isMine (t.host w).deviceList destMac) (hpos : 0 < packet.length)
    (hfit : packet.length ≤ 0x10000 - 14) (chance : Chance) :
    step topo callbacks (i, chance) t =
      (handleIPPacket (callbacks.map upperCallback) chance packet (BitVec.ofNat 32 packet.length)
        ⟨destMac, srcMac, ETHTYPE_IPv4⟩ device (t.host w)).map fun host =>
          { t with air := t.air.eraseIdx i }.put topo w host := by
  simp only [step, List.getElem?_eq_getElem hi, hcopy]
  rw [handleFrame_packetFrame hpos hfit hmine]

omit [DecidableEq ι] in
theorem Carrying.erase {packet : List Byte} (hc : Carrying topo packet t) (i : ℕ) :
    Carrying topo packet { t with air := t.air.eraseIdx i } where
  air copy hcopy := hc.air copy (List.mem_of_mem_eraseIdx hcopy)
  sent := hc.sent

omit [DecidableEq ι] in
/-- A hop adds a frame that is accepted once. -/
theorem Carrying.append {packet : List Byte} (hc : Carrying topo packet t) {w : ι}
    {device' : Device} (hdevice' : device' ∈ topo.devices w) {destMac srcMac : MacAddr}
    {copy : ι × Device × List Byte}
    (honce : ((Mesh.copies topo w [(device', packetFrame destMac srcMac packet)]).filter
      fun copy => Accepted topo copy) = [copy]) :
    Carrying topo packet { t with
      air := t.air ++ Mesh.copies topo w [(device', packetFrame destMac srcMac packet)]
      sent := t.sent ++ [(w, device', packetFrame destMac srcMac packet)] } := by
  constructor
  · intro copy hcopy
    rcases List.mem_append.mp hcopy with hold | hnew
    · exact hc.air copy hold
    · obtain ⟨device, hout, -⟩ := Mesh.mem_copies.mp hnew
      exact ⟨destMac, srcMac, (Prod.mk.inj (List.mem_singleton.mp hout)).2⟩
  · intro out hout
    rcases List.mem_append.mp hout with hold | hnew
    · exact hc.sent out hold
    · obtain rfl := List.mem_singleton.mp hnew
      exact ⟨hdevice', ⟨copy, honce⟩, drop_packetFrame ..⟩

/-- **One copy.** Whichever copy it is, receiving it keeps the packet under way, or delivers it. -/
theorem UnderWay.step (h : UnderWay topo start ipHeader.dst d r t) (hw : topo.Wired link)
    (hrouted : Routed topo start ipHeader.dst) (hfits : ipHeader.Fits data)
    (howns : topo.Owns u ipHeader.dst) (hd : d ≤ 20)
    (hc : Carrying topo (ipHeader.packet data) t) {i : ℕ} (hi : i < t.air.length)
    (chance : Chance) :
    ∃ t', step topo callbacks (i, chance) t = some t' ∧ Carrying topo (ipHeader.packet data) t' ∧
      ((∃ r', UnderWay topo start ipHeader.dst d r' t') ∨
        Arrived topo callbacks start u ipHeader data d t') := by
  obtain ⟨w, device, frame, hlive, hdevice, hdist⟩ := h.live
  have hperm := filter_eraseIdx_perm hi fun copy => decide (Accepted topo copy)
  rw [hlive] at hperm
  have hhost : ∀ v, t.host v = start v := fun v => congrFun h.host v
  by_cases hmine : Accepted topo t.air[i]
  swap
  · rw [List.filter_cons_of_neg (by simpa using hmine)] at hperm
    refine ⟨_, step_ignored hc (fun v => hhost v ▸ hrouted.deviceList v)
      (fun v => hhost v ▸ hrouted.wire v) hi hmine chance, hc.erase i,
      Or.inl ⟨r, h.host, ?_, h.sent⟩⟩
    exact ⟨w, device, frame, List.perm_singleton.mp hperm.symm, hdevice, hdist⟩
  rw [List.filter_cons_of_pos (by simpa using hmine)] at hperm
  obtain ⟨hcopy, hrest⟩ := List.cons.inj (List.perm_singleton.mp hperm.symm)
  obtain ⟨destMac, srcMac, hframe⟩ := hc.air _ (List.getElem_mem hi)
  obtain rfl : frame = packetFrame destMac srcMac (ipHeader.packet data) := by
    rw [← hframe, hcopy]
  have hlen := ipHeader.length_packet data
  have hle := hfits.length_le
  have hmine' : isMine (t.host w).deviceList destMac := by
    rw [hcopy, Accepted, desAddr_packetFrame] at hmine
    rw [hhost, hrouted.deviceList]
    exact hmine
  have hstep := step_accepted topo callbacks hi hcopy hmine' (by omega) (by omega) chance
  have hloss : (t.host w).random_drop = 0 := hhost w ▸ hrouted.random_drop w
  have hwire : (t.host w).wire = [] := hhost w ▸ hrouted.wire w
  have hdevices : (t.host w).deviceList = topo.devices w := hhost w ▸ hrouted.deviceList w
  have hsent := h.sent
  cases r with
  | zero =>
    -- the node at distance zero is the one that owns the destination
    have howner : topo.Owns w ipHeader.dst := isHopDist_zero_iff.mp hdist
    obtain rfl : w = u := hw.ipAddr howns howner
    rw [handleIPPacket_owner hloss rfl (by rw [hdevices]; exact howner),
      Option.map_some] at hstep
    refine ⟨_, hstep.trans (congrArg some (put_upper (t := { t with air := t.air.eraseIdx i })
      hwire _)), ⟨(hc.erase i).air, hc.sent⟩, Or.inr ⟨⟨device, hdevice, ?_⟩, hrest, hsent⟩⟩
    rw [← h.host]
  | succ r =>
    have hnext := hrouted.nextHop w r (by omega) hdist
    rw [← hhost] at hnext
    obtain ⟨destMac', device', hquery, htransmit, hdevice', u', deviceNext, hdist', hdeviceNext,
      honce⟩ :=
      hnext.transmitAt hw hdevices (ipHeader.packet data) (by omega) (by omega)
    rw [hfits.handleIPPacket_router hloss rfl (by rw [hdevices]; exact hdist.not_owns) hquery,
      Option.map_some, htransmit, hwire, List.nil_append] at hstep
    refine ⟨_, hstep.trans (congrArg some (put_wire (t := { t with air := t.air.eraseIdx i })
      hwire _)), (hc.erase i).append hdevice' honce, Or.inl ⟨r, h.host, ?_, ?_⟩⟩
    · refine ⟨u', deviceNext, packetFrame destMac' device'.macAddr (ipHeader.packet data), ?_,
        hdeviceNext, hdist'⟩
      rw [List.filter_append, hrest, honce, List.nil_append]
    · change (t.sent ++ [(w, device', packetFrame destMac' device'.macAddr _)]).length + r = d
      rw [List.length_append, List.length_singleton]
      omega

/-- Afterwards every copy is ignored. -/
theorem Arrived.step (h : Arrived topo callbacks start u ipHeader data d t)
    (hrouted : Routed topo start ipHeader.dst) (hc : Carrying topo (ipHeader.packet data) t) {i : ℕ}
    (hi : i < t.air.length) (chance : Chance) :
    ∃ t', step topo callbacks (i, chance) t = some t' ∧ Carrying topo (ipHeader.packet data) t' ∧
      Arrived topo callbacks start u ipHeader data d t' := by
  obtain ⟨device, hdevice, hhost⟩ := h.host
  have hsame : ∀ w, (t.host w).deviceList = (start w).deviceList ∧
      (t.host w).wire = (start w).wire := by
    intro w
    rw [hhost, Function.update_apply]
    split_ifs with hw
    · subst hw
      exact ⟨rfl, rfl⟩
    · exact ⟨rfl, rfl⟩
  have hother : ¬ Accepted topo t.air[i] := fun hmine =>
    List.filter_eq_nil_iff.mp h.live _ (List.getElem_mem hi) (decide_eq_true hmine)
  refine ⟨_, step_ignored hc (fun w => (hsame w).1.trans (hrouted.deviceList w))
    (fun w => (hsame w).2.trans (hrouted.wire w)) hi hother chance, hc.erase i, h.host, ?_, h.sent⟩
  have hperm := filter_eraseIdx_perm hi fun copy => decide (Accepted topo copy)
  rw [h.live, List.filter_cons_of_neg (by simpa using hother)] at hperm
  exact hperm.nil_eq.symm

/-! ### Runs -/

/-- What holds at any time, with the packet under way or delivered. -/
def InTransit (topo : Topology ι) (callbacks : List (Delivery → τ → τ)) (start : ι → Host τ) (u : ι)
    (ipHeader : IpHeader) (data : List Byte) (d : ℕ) (t : Transit ι τ) : Prop :=
  Carrying topo (ipHeader.packet data) t ∧
    ((∃ r, UnderWay topo start ipHeader.dst d r t) ∨
      Arrived topo callbacks start u ipHeader data d t)

theorem InTransit.step (h : InTransit topo callbacks start u ipHeader data d t)
    (hw : topo.Wired link) (hrouted : Routed topo start ipHeader.dst) (hfits : ipHeader.Fits data)
    (howns : topo.Owns u ipHeader.dst) (hd : d ≤ 20) {i : ℕ} (hi : i < t.air.length)
    (chance : Chance) :
    ∃ t', step topo callbacks (i, chance) t = some t' ∧
      InTransit topo callbacks start u ipHeader data d t' := by
  obtain ⟨hc, ⟨r, hway⟩ | harrived⟩ := h
  · exact hway.step hw hrouted hfits howns hd hc hi chance
  · obtain ⟨t', hstep, hc', harrived'⟩ := harrived.step hrouted hc hi chance
    exact ⟨t', hstep, hc', Or.inr harrived'⟩

theorem lt_of_step {event : ℕ × Chance} (h : step topo callbacks event t = some t') :
    event.1 < t.air.length := by
  by_contra hle
  obtain ⟨i, chance⟩ := event
  simp only [step, List.getElem?_eq_none (Nat.not_lt.mp hle)] at h
  exact absurd h (Option.some_ne_none _).symm

theorem InTransit.run (h : InTransit topo callbacks start u ipHeader data d t)
    (hw : topo.Wired link) (hrouted : Routed topo start ipHeader.dst) (hfits : ipHeader.Fits data)
    (howns : topo.Owns u ipHeader.dst) (hd : d ≤ 20) {events : List (ℕ × Chance)}
    (hrun : Run.run (Transit.step topo callbacks) events t = some t') :
    InTransit topo callbacks start u ipHeader data d t' := by
  refine Run.invariant (fun event t₁ t₂ ht₁ hstep => ?_) h hrun
  obtain ⟨t₃, hstep', ht₃⟩ := ht₁.step hw hrouted hfits howns hd (lt_of_step hstep) event.2
  exact Option.some.inj (hstep'.symm.trans hstep) ▸ ht₃

/-! ### How many copies there are -/

/-- The copies that some frames make. -/
def fanOut (topo : Topology ι) (sent : List (ι × Device × List Byte)) : ℕ :=
  (sent.map fun out => (topo.links out.1 out.2.1).length).sum

omit [DecidableEq ι] in
theorem length_copies (topo : Topology ι) (v : ι) (wire : List (Device × List Byte)) :
    (Mesh.copies topo v wire).length = fanOut topo (wire.map fun out => (v, out)) := by
  rw [Mesh.copies, List.length_flatMap, fanOut, List.map_map]
  simp only [List.length_map]
  rfl

omit [DecidableEq ι] in
theorem fanOut_append (topo : Topology ι) (sent sent' : List (ι × Device × List Byte)) :
    fanOut topo (sent ++ sent') = fanOut topo sent + fanOut topo sent' := by
  rw [fanOut, List.map_append, List.sum_append]
  rfl

/-- A step takes one copy off the links, and puts those of the frames there that it sends. -/
theorem fanOut_step {event : ℕ × Chance} (h : step topo callbacks event t = some t') :
    t'.air.length + 1 + fanOut topo t.sent = t.air.length + fanOut topo t'.sent := by
  have hlt := lt_of_step h
  obtain ⟨i, chance⟩ := event
  simp only [step, List.getElem?_eq_getElem hlt] at h
  obtain ⟨host, -, rfl⟩ := Option.map_eq_some_iff.mp h
  simp only [put, Mesh.put, List.length_append, length_copies, fanOut_append]
  rw [List.length_eraseIdx_of_lt hlt]
  have hlt' : i < t.air.length := hlt
  omega

theorem fanOut_run {events : List (ℕ × Chance)}
    (h : Run.run (step topo callbacks) events t = some t') :
    t'.air.length + events.length + fanOut topo t.sent = t.air.length + fanOut topo t'.sent := by
  induction events generalizing t with
  | nil =>
    obtain rfl := Option.some.inj h
    rfl
  | cons event events ih =>
    obtain ⟨t₁, hstep, hrun⟩ := Option.bind_eq_some_iff.mp h
    have hrest := ih hrun
    have hfirst := fanOut_step hstep
    rw [List.length_cons]
    omega

omit [DecidableEq ι] in
theorem exists_links_le [Finite ι] (topo : Topology ι) :
    ∃ m, ∀ v, ∀ device ∈ topo.devices v, (topo.links v device).length ≤ m := by
  have hfinite : (⋃ v, Set.image (fun device => (topo.links v device).length)
      {device | device ∈ topo.devices v}).Finite :=
    Set.finite_iUnion fun v => (List.finite_toSet _).image _
  obtain ⟨m, hm⟩ := hfinite.bddAbove
  exact ⟨m, fun v device hdevice => hm (Set.mem_iUnion.mpr ⟨v, device, hdevice, rfl⟩)⟩

/-- **Along the next hops.** A packet that is under way, on links that hold nothing else, is
delivered by as many frames as the destination is hops away. -/
theorem UnderWay.delivers [Finite ι] (h : UnderWay topo t.host ipHeader.dst d r t)
    (hw : topo.Wired link) (hrouted : Routed topo t.host ipHeader.dst) (hfits : ipHeader.Fits data)
    (howns : topo.Owns u ipHeader.dst) (hd : d ≤ 20) (hc : Carrying topo (ipHeader.packet data) t)
    (hair : t.air.length = fanOut topo t.sent) :
    Delivers topo callbacks t u ipHeader data d := by
  have hrun : ∀ events t', Run.run (Transit.step topo callbacks) events t = some t' →
      InTransit topo callbacks t.host u ipHeader data d t' := fun events t' ht' =>
    InTransit.run ⟨hc, Or.inl ⟨r, h⟩⟩ hw hrouted hfits howns hd ht'
  have harrived : ∀ t', Arrived topo callbacks t.host u ipHeader data d t' →
      t'.sent.length = d ∧ Delivered topo callbacks t u ipHeader data t' := by
    intro t' ht'
    obtain ⟨device, hdevice, hhost⟩ := ht'.host
    refine ⟨ht'.sent, device, hdevice, fun w => ?_⟩
    rw [hhost, Function.update_apply]
    split_ifs with hw
    · subst hw
      rfl
    · rfl
  constructor
  · intro events t' ht' out hout
    exact ((hrun events t' ht').1.sent out hout).2
  · intro events t' ht'
    obtain ⟨-, ⟨r', hway⟩ | harr⟩ := hrun events t' ht'
    · exact Or.inl ⟨hway.sent ▸ Nat.le_add_right .., fun w => by rw [hway.host]⟩
    · exact Or.inr (harrived t' harr)
  · intro events t' ht' hempty
    obtain ⟨-, ⟨r', hway⟩ | harr⟩ := hrun events t' ht'
    · obtain ⟨w, device, frame, hlive, -⟩ := hway.live
      rw [hempty] at hlive
      exact absurd hlive (by simp)
    · exact harrived t' harr
  · intro events t' ht' i hi chance
    obtain ⟨t₁, hstep, -⟩ := (hrun events t' ht').step hw hrouted hfits howns hd hi chance
    exact ⟨t₁, hstep⟩
  · obtain ⟨m, hm⟩ := exists_links_le topo
    refine ⟨d * m, fun events t' ht' => ?_⟩
    have hcount := fanOut_run ht'
    obtain ⟨hc', hstate⟩ := hrun events t' ht'
    have hsent : t'.sent.length ≤ d := by
      obtain ⟨r', hway⟩ | harr := hstate
      · exact hway.sent ▸ Nat.le_add_right ..
      · exact harr.sent.le
    have hbound : fanOut topo t'.sent ≤ t'.sent.length * m := by
      have := List.sum_le_card_nsmul (t'.sent.map fun out => (topo.links out.1 out.2.1).length) m
        fun n hn => by
          obtain ⟨out, hout, rfl⟩ := List.mem_map.mp hn
          exact hm out.1 out.2.1 (hc'.sent out hout).1
      rwa [List.length_map, smul_eq_mul] at this
    have hmul := Nat.mul_le_mul_right m hsent
    omega

end Transit

end LabNetstack
