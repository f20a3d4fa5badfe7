import LabNetstack.Routing.Forwarding
import LabNetstack.Routing.Progress

/-!
# Unicast over converged tables

What `sendIPPacket` does with a packet for another node of a network that has been left alone for 22
rounds. In the last of them every host heard tables that had already converged, so that whatever its
own table says leads to a neighbour that is nearer.

## Main results

* `Mesh.Rounds.routed` — the hosts can forward a packet to any address that is near enough
* `Mesh.Rounds.unicast_delivered` — it is delivered, by as many frames as there are hops
* `Mesh.Rounds.not_delivers` — unless it is empty, or no frame has room for it
-/

namespace LabNetstack

open Layout

variable {ι τ κ : Type*} [DecidableEq ι] {topo : Topology ι} {link : ι → Device → κ}
  {tcp : List (TCPPacketReceiveCallback τ)} {callbacks : List (Delivery → τ → τ)} {s s' : Mesh ι τ}
  {addresses : Finset IPAddr} {v u : ι} {a : IPAddr} {n d : ℕ} {src : IPAddr} {proto : BitVec 8}
  {buf : List Byte}

namespace Mesh

/-- No manual routes, no ARP entries, and no packet is dropped on purpose. -/
structure Plain (s : Mesh ι τ) : Prop where
  manRouteTable : ∀ v, (s.host v).manRouteTable = []
  arpList : ∀ v, (s.host v).arpList = []
  random_drop : ∀ v, (s.host v).random_drop = 0

theorem Rounds.plain (h : Rounds topo tcp s n s') (hplain : s.Plain) : s'.Plain where
  manRouteTable v := (congrArg (fun config => config.2.1) (h.config v)).trans
    (hplain.manRouteTable v)
  arpList v := (congrArg (fun config => config.2.2.1) (h.config v)).trans (hplain.arpList v)
  random_drop v := (congrArg (fun config => config.2.2.2) (h.config v)).trans (hplain.random_drop v)

/-- Converged tables are all that forwarding needs. -/
theorem Rounds.routed (h : Ready topo addresses s) (hrounds : Rounds topo tcp s n s') (hn : 22 ≤ n)
    (hplain : s.Plain) (a : IPAddr) : Transit.Routed topo s'.host a where
  deviceList := (hrounds.rounds h).1.deviceList
  wire := (hrounds.rounds h).1.wire
  random_drop := (hrounds.plain hplain).random_drop
  nextHop _ _ hk hdist := hrounds.nextHop h hn hplain.manRouteTable hk hdist

end Mesh

/-! ### Sending -/

/-- `sendIPPacket` with the ARP list empty sends on what the lookup finds. -/
theorem sendIPPacket_unicast {host : Host τ} (harp : host.arpList = []) (hdest : a ≠ BROAD_IP)
    (hpos : 0 < buf.length) (hle : buf.length ≤ 0x10000 - 20) {dstmac : MacAddr}
    {address : BitVec 64} (hquery : queryRouteTable host a = some (dstmac, address)) (src : IPAddr)
    (proto : BitVec 8) (noRetry : Bool) :
    sendIPPacket src a proto buf noRetry host =
      ({ host with id := host.id + 1 }.transmitAt (ipPacket src a proto buf host.id) dstmac address,
        0) := by
  refine sendIPPacket_miss (fun node hnode => ?_) hdest hpos hle hquery src proto noRetry
  exact absurd (harp ▸ hnode) List.not_mem_nil

/-- A frame has no room for so long a packet, and nobody is told. -/
theorem transmitAt_of_lt {host : Host τ} {packet : List Byte} (hlong : 0x10000 - 14 < packet.length)
    (destMac : MacAddr) (address : BitVec 64) : host.transmitAt packet destMac address = host := by
  rw [Host.transmitAt]
  split
  · rw [Host.transmit, sendFrame, if_pos (Or.inl (by rw [EthHeader.size_layout]; omega))]
  · rfl

namespace Transit

/-- What is on the links, and what has been sent, when `v` has handed something over. -/
theorem send_eq (hair : s.air = []) {host : Host τ} {wire : List (Device × List Byte)}
    {noRetry : Bool}
    (hsend : (sendIPPacket src a proto buf noRetry (s.host v)).1 = { host with wire := wire }) :
    send topo s v src a proto buf noRetry = {
      host := Function.update s.host v { host with wire := [] }
      air := Mesh.copies topo v wire
      sent := wire.map fun out => (v, out) } := by
  simp only [send, put, Mesh.put, hsend, hair, List.nil_append]

/-- A node that hands over nothing delivers nothing. -/
theorem not_delivers_of_wire (hair : s.air = []) {noRetry : Bool} {ipHeader : IpHeader}
    {data : List Byte} (hwire : (sendIPPacket src a proto buf noRetry (s.host v)).1.wire = [])
    (hd : 1 ≤ d) :
    ¬ Delivers topo callbacks (send topo s v src a proto buf noRetry) u ipHeader data d := by
  intro h
  have hair' : (send topo s v src a proto buf noRetry).air = [] := by
    simp only [send, put, Mesh.put, Mesh.copies, hair, hwire, List.flatMap_nil, List.append_nil]
  have hsent : (send topo s v src a proto buf noRetry).sent.length = 0 := by
    simp only [send, put, hwire, List.map_nil, List.append_nil, List.length_nil]
  have hfinished := (h.finished [] _ rfl hair').1
  omega

end Transit

/-! ### The first hop and the others -/

namespace Mesh

variable (topo) in
/-- One frame goes out on the device that the lookup finds, for the address that it finds. -/
theorem send_unicast (hair : s.air = []) (hwire : (s.host v).wire = [])
    (harp : (s.host v).arpList = []) (hdest : a ≠ BROAD_IP) (hpos : 0 < buf.length)
    (hle : buf.length ≤ 0x10000 - 34) {device' : Device} (hmem : device' ∈ (s.host v).deviceList)
    (hdistinct : ∀ d ∈ (s.host v).deviceList, d.address = device'.address → d = device')
    {destMac : MacAddr} (hquery : queryRouteTable (s.host v) a = some (destMac, device'.address))
    (src : IPAddr) (proto : BitVec 8) (noRetry : Bool) {frame : List Byte}
    (hframe : frame =
      packetFrame destMac device'.macAddr (ipPacket src a proto buf (s.host v).id)) :
    (sendIPPacket src a proto buf noRetry (s.host v)).2 = 0 ∧
      Transit.send topo s v src a proto buf noRetry = {
        host := Function.update s.host v { s.host v with id := (s.host v).id + 1 }
        air := copies topo v [(device', frame)]
        sent := [(v, device', frame)] } := by
  have hlen := length_ipPacket src a proto buf (s.host v).id
  have htransmit := { s.host v with id := (s.host v).id + 1 }.transmitAt_address hmem hdistinct
    (ipPacket src a proto buf (s.host v).id) destMac
  have hsend := sendIPPacket_unicast harp hdest hpos (by omega) hquery src proto noRetry
  rw [htransmit, transmit_eq (by omega) (by omega), hwire, List.nil_append] at hsend
  refine ⟨congrArg Prod.snd hsend, ?_⟩
  have hsame : { s.host v with id := (s.host v).id + 1, wire := [] } =
      { s.host v with id := (s.host v).id + 1 } := by rw [← hwire]
  rw [← hsame, hframe]
  exact Transit.send_eq hair (congrArg Prod.fst hsend)

/-- The packet is on its way: its first frame has been sent, and one node accepts it. -/
theorem exists_send (hw : topo.Wired link) {k : ℕ} (hnext : NextHop topo (s.host v) v a k)
    (hair : s.air = []) (hdevices : (s.host v).deviceList = topo.devices v)
    (hwire : (s.host v).wire = []) (harp : (s.host v).arpList = []) (hdest : a ≠ BROAD_IP)
    (hpos : 0 < buf.length) (hle : buf.length ≤ 0x10000 - 34) (src : IPAddr) (proto : BitVec 8)
    (noRetry : Bool) :
    (sendIPPacket src a proto buf noRetry (s.host v)).2 = 0 ∧ ∃ destMac, ∃ device' ∈ topo.devices v,
      ∃ w, topo.IsHopDist w a k ∧ ∃ device ∈ topo.devices w, ∃ frame,
        frame = packetFrame destMac device'.macAddr (ipPacket src a proto buf (s.host v).id) ∧
        Transit.send topo s v src a proto buf noRetry = {
          host := Function.update s.host v { s.host v with id := (s.host v).id + 1 }
          air := copies topo v [(device', frame)]
          sent := [(v, device', frame)] } ∧
        ((copies topo v [(device', frame)]).filter fun copy => Transit.Accepted topo copy) =
          [(w, device, frame)] := by
  obtain ⟨w, hk, device, hdevice, device', hlink, other, hother, hquery⟩ := hnext
  have hdevice' := topo.mem_devices hlink
  have hdistinct : ∀ d ∈ (s.host v).deviceList, d.address = device'.address → d = device' := by
    intro d hd
    exact hw.address (hdevices ▸ hd) hdevice'
  obtain ⟨hzero, hsend⟩ := send_unicast topo hair hwire harp hdest hpos hle
    (hdevices ▸ hdevice') hdistinct hquery src proto noRetry rfl
  exact ⟨hzero, other.macAddr, device', hdevice', w, hk, device, hdevice, _, rfl, hsend,
    hw.accepted hdevice hlink hother device'.macAddr _⟩

/-- **Unicast.** In a network that has been left alone for 22 rounds, a packet that any node hands
to `sendIPPacket` reaches the callbacks of the node that owns its destination, up to 20 hops away,
by as many frames as there are hops and as it was sent. -/
theorem Rounds.unicast_delivered [Finite ι] (hw : topo.Wired link) (h : Ready topo addresses s)
    (hplain : s.Plain) (hrounds : Rounds topo tcp s n s') (hn : 22 ≤ n) (howns : topo.Owns u a)
    (hdist : topo.IsHopDist v a d) (hd : 1 ≤ d) (hd' : d ≤ 20) (hdest : a ≠ BROAD_IP)
    (hpos : 0 < buf.length) (hle : buf.length ≤ 0x10000 - 34) (src : IPAddr) (noRetry : Bool) :
    (sendIPPacket src a proto buf noRetry (s'.host v)).2 = 0 ∧
      Transit.Delivers topo callbacks (Transit.send topo s' v src a proto buf noRetry) u
        (sentHeader src a proto buf.length (s'.host v).id) buf d := by
  obtain ⟨k, rfl⟩ : ∃ k, d = k + 1 := ⟨d - 1, by omega⟩
  have hready := (hrounds.rounds h).1
  have hrouted := hrounds.routed h hn hplain a
  obtain ⟨hzero, destMac, device', hdevice', w, hk, device, hdevice, frame, rfl, hsend, hfilter⟩ :=
    exists_send hw (hrouted.nextHop v k (by omega) hdist) hready.air (hready.deviceList v)
      (hready.wire v) ((hrounds.plain hplain).arpList v) hdest hpos hle src proto noRetry
  refine ⟨hzero, ?_⟩
  rw [hsend]
  have hfits : (sentHeader src a proto buf.length (s'.host v).id).Fits buf := ⟨hle, hdest⟩
  have hcarry : Transit.Carrying topo
      ((sentHeader src a proto buf.length (s'.host v).id).packet buf)
      ⟨⟨Function.update s'.host v { s'.host v with id := (s'.host v).id + 1 }, []⟩, []⟩ :=
    ⟨fun _ hcopy => absurd hcopy (List.not_mem_nil), fun _ hout => absurd hout (List.not_mem_nil)⟩
  have hstart : ∀ x, (Function.update s'.host v { s'.host v with id := (s'.host v).id + 1 } x) =
      { s'.host x with id := if x = v then (s'.host v).id + 1 else (s'.host x).id } := by
    intro x
    rw [Function.update_apply]
    split_ifs with hx
    · rw [hx]
    · rfl
  refine Transit.UnderWay.delivers (r := k) ⟨rfl, ⟨w, device, _, hfilter, hdevice, hk⟩, ?_⟩ hw
    ?_ hfits howns hd' (hcarry.append hdevice' hfilter) ?_
  · exact Nat.add_comm ..
  · constructor
    · exact fun x => (congrArg Host.deviceList (hstart x)).trans (hready.deviceList x)
    · exact fun x => (congrArg Host.wire (hstart x)).trans (hready.wire x)
    · exact fun x => (congrArg Host.random_drop (hstart x)).trans (hrouted.random_drop x)
    · intro x j hj hx
      have hnext := hrouted.nextHop x j hj hx
      change NextHop topo (Function.update s'.host v _ x) x a j
      rw [hstart x]
      exact hnext
  · exact Transit.length_copies topo v [(device', _)]

/-- An empty packet is refused, and one that no frame has room for is lost on the way to the link. -/
theorem Rounds.not_delivers (h : Ready topo addresses s) (hplain : s.Plain)
    (hrounds : Rounds topo tcp s n s') (hn : 22 ≤ n) (hdist : topo.IsHopDist v a d) (hd : 1 ≤ d)
    (hd' : d ≤ 20) (hdest : a ≠ BROAD_IP)
    (hbad : buf.length = 0 ∨ 0x10000 - 34 < buf.length)
    (src : IPAddr) (noRetry : Bool) (ipHeader : IpHeader) (data : List Byte) :
    ¬ Transit.Delivers topo callbacks (Transit.send topo s' v src a proto buf noRetry) u
      ipHeader data d := by
  obtain ⟨k, rfl⟩ : ∃ k, d = k + 1 := ⟨d - 1, by omega⟩
  have hready := (hrounds.rounds h).1
  have harp := (hrounds.plain hplain).arpList v
  have hnext := (hrounds.routed h hn hplain a).nextHop v k (by omega) hdist
  by_cases hrefused : buf.length > 0x10000 - IpHeader.layout.size ∨ buf.length ≤ 0
  · refine Transit.not_delivers_of_wire hready.air ?_ hd
    rw [sendIPPacket, if_pos hrefused]
    exact hready.wire v
  rw [IpHeader.size_layout] at hrefused
  have hlong : 0x10000 - 34 < buf.length := hbad.resolve_left (by omega)
  refine Transit.not_delivers_of_wire hready.air ?_ hd
  obtain ⟨-, -, -, -, device', -, other, -, hquery⟩ := hnext
  rw [sendIPPacket_unicast harp hdest (by omega) (by omega) hquery,
    transmitAt_of_lt (by rw [length_ipPacket]; omega)]
  exact hready.wire v

end Mesh

/-! ### Small networks -/

/-- The devices that there are, each on a link. -/
def Topology.ofDevices [DecidableEq κ] (all : List (ι × Device)) (link : ι → Device → κ) :
    Topology ι where
  devices v := (all.filter fun c => c.1 = v).map Prod.snd
  links u device := all.filter fun c => link c.1 c.2 = link u device ∧ c ≠ (u, device)
  mem_devices h := List.mem_map.mpr ⟨_, List.mem_filter.mpr
    ⟨(List.mem_filter.mp h).1, decide_eq_true rfl⟩, rfl⟩

theorem Topology.mem_devices_ofDevices [DecidableEq κ] {all : List (ι × Device)}
    {link : ι → Device → κ} {device : Device} :
    device ∈ (ofDevices all link).devices v ↔ (v, device) ∈ all := by
  simp [ofDevices]

/-- When all addresses are different, and no node has two devices on a link. -/
theorem Topology.wired_ofDevices [DecidableEq κ] {all : List (ι × Device)} {link : ι → Device → κ}
    (hnodup : all.Nodup)
    (hlink : ∀ c ∈ all, ∀ c' ∈ all, c.1 = c'.1 → link c.1 c.2 = link c'.1 c'.2 → c.2 = c'.2)
    (hbroad : ∀ c ∈ all, c.2.macAddr ≠ BROAD_MAC)
    (hmac : ∀ c ∈ all, ∀ c' ∈ all, c.2.macAddr = c'.2.macAddr → c.1 = c'.1)
    (hip : ∀ c ∈ all, ∀ c' ∈ all, c.2.ipAddr = c'.2.ipAddr → c.1 = c'.1)
    (haddress : ∀ c ∈ all, ∀ c' ∈ all, c.1 = c'.1 → c.2.address = c'.2.address → c.2 = c'.2) :
    (ofDevices all link).Wired link := by
  constructor
  · intro u v device device' hdevice
    rw [mem_devices_ofDevices]
    exact List.mem_filter.trans (and_congr_right fun _ => decide_eq_true_iff)
  · exact fun _ => hnodup.filter _
  · intro u device device' hdevice hdevice' hsame
    exact hlink _ (mem_devices_ofDevices.mp hdevice) _ (mem_devices_ofDevices.mp hdevice') rfl hsame
  · intro u w device hdevice hmine
    rcases hmine with hmine | ⟨other, hother, hmine⟩
    · exact absurd hmine (hbroad _ (mem_devices_ofDevices.mp hdevice))
    · exact hmac _ (mem_devices_ofDevices.mp hother) _ (mem_devices_ofDevices.mp hdevice) hmine.symm
  · rintro u w a ⟨device, hdevice, rfl⟩ ⟨other, hother, hsame⟩
    exact hip _ (mem_devices_ofDevices.mp hother) _ (mem_devices_ofDevices.mp hdevice) hsame
  · intro u device device' hdevice hdevice' hsame
    exact haddress _ (mem_devices_ofDevices.mp hdevice) _ (mem_devices_ofDevices.mp hdevice')
      rfl hsame

namespace Mesh

-- nodes and devices are named by numerals; one instance serves them all, wherever they stand
instance : NeZero (3 : ℕ) := ⟨by decide⟩

instance : NeZero (256 : ℕ) := ⟨by decide⟩

/-- A device whose addresses are all made of one number. -/
def lineDevice (i : Fin 256) : Device :=
  ⟨BitVec.ofNat 64 i, ⟨Vector.replicate 6 (BitVec.ofNat 8 i)⟩, BitVec.ofNat 32 i⟩

/-- Three nodes; the one in the middle has a device on either link. -/
def lineDevices : List (Fin 3 × Device) :=
  [(0, lineDevice 1), (1, lineDevice 2), (1, lineDevice 3), (2, lineDevice 4)]

def lineLink (_ : Fin 3) (device : Device) : Bool := device.ipAddr < 3

def lineTopology : Topology (Fin 3) := .ofDevices lineDevices lineLink

theorem wired_lineTopology : lineTopology.Wired lineLink := by
  refine Topology.wired_ofDevices ?_ ?_ ?_ ?_ ?_ ?_ <;> decide

/-- No host has heard anything yet, and each keeps what its callbacks are called with. -/
def freshMesh (topo : Topology (Fin 3)) : Mesh (Fin 3) (List Delivery) where
  host v :=
    { deviceList := topo.devices v
      manRouteTable := []
      onlineRouteTable := []
      tmpRouteTable := []
      arpList := []
      resendIPTaskList := []
      id := 0
      lastBroad := none
      lastUpdate := none
      random_drop := 0
      wire := []
      upper := [] }
  air := []

theorem plain_freshMesh (topo : Topology (Fin 3)) : (freshMesh topo).Plain :=
  ⟨fun _ => rfl, fun _ => rfl, fun _ => rfl⟩

def keepDelivery (delivery : Delivery) (upper : List Delivery) : List Delivery :=
  upper ++ [delivery]

theorem ready_lineTopology : Ready lineTopology {1, 2, 3, 4} (freshMesh lineTopology) := by
  constructor <;> decide

theorem owns_lineTopology : lineTopology.Owns 2 4 := by decide

theorem hopDist_lineTopology : lineTopology.IsHopDist 0 4 2 := by
  have hhears : ∀ v u, lineTopology.Hears v u →
      ∃ device ∈ lineTopology.devices u, ∃ c ∈ lineTopology.links u device, c.1 = v := by
    rintro v u ⟨device, hdevice, device', hlink⟩
    exact ⟨device, hdevice, _, hlink, rfl⟩
  refine ⟨.hop (u := 1) ⟨lineDevice 2, by decide, lineDevice 1, by decide⟩
    (.hop (u := 2) ⟨lineDevice 4, by decide, lineDevice 3, by decide⟩
      (.here owns_lineTopology)), ?_⟩
  intro k hpath
  cases hpath with
  | here hown => exact absurd hown (by decide)
  | @hop _ u k hhear hpath =>
    cases hpath with
    | here hown =>
      -- the owner is not a neighbour
      have honly : ∀ u, lineTopology.Owns u 4 → u = 2 := by decide
      obtain rfl := honly u hown
      exact absurd (hhears 0 2 hhear) (by decide)
    | hop _ _ => omega

theorem unicast_delivered_twoHops : ∃ s', Rounds lineTopology [] (freshMesh lineTopology) 22 s' ∧
    (sendIPPacket 1 4 17 [1, 2, 3] false (s'.host 0)).2 = 0 ∧
    Transit.Delivers lineTopology [keepDelivery]
      (Transit.send lineTopology s' 0 1 4 17 [1, 2, 3] false) 2
      (sentHeader 1 4 17 3 (s'.host 0).id) [1, 2, 3] 2 := by
  obtain ⟨s', hrounds⟩ := ready_lineTopology.exists_rounds [] 22
  exact ⟨s', hrounds, Rounds.unicast_delivered wired_lineTopology ready_lineTopology
    (plain_freshMesh _) hrounds le_rfl owns_lineTopology hopDist_lineTopology (by decide)
    (by decide) (by decide) (by decide) (by decide) 1 false⟩

/-- Three nodes on one link; the address of one is the address that stands for everyone. -/
def hubDevices : List (Fin 3 × Device) :=
  [(0, lineDevice 1), (1, lineDevice 2), (2, lineDevice 255)]

def hubTopology : Topology (Fin 3) := .ofDevices hubDevices fun _ _ => ()

theorem ready_hubTopology : Ready hubTopology {1, 2, 255} (freshMesh hubTopology) := by
  constructor <;> decide

theorem hopDist_hubTopology : hubTopology.IsHopDist 0 255 1 := by
  refine ⟨.hop (u := 2) ⟨lineDevice 255, by decide, lineDevice 1, by decide⟩
    (.here (by decide)), ?_⟩
  rintro (_ | k) hpath
  · cases hpath with
    | here hown => exact absurd hown (by decide)
  · exact Nat.succ_pos k

/-- What goes to that node both of the others accept. -/
theorem not_delivers_hubTopology {s' : Mesh (Fin 3) (List Delivery)}
    (hrounds : Rounds hubTopology [] (freshMesh hubTopology) 22 s') :
    ¬ Transit.Delivers hubTopology [keepDelivery]
      (Transit.send hubTopology s' 0 1 255 17 [1, 2, 3] false) 2
      (sentHeader 1 255 17 3 (s'.host 0).id) [1, 2, 3] 1 := by
  have hready := (hrounds.rounds ready_hubTopology).1
  have hplain := hrounds.plain (plain_freshMesh _)
  obtain ⟨u, hu, device, -, device', hlink, other, hother, hquery⟩ :=
    (hrounds.routed ready_hubTopology le_rfl (plain_freshMesh _) 255).nextHop 0 0 (by decide)
      hopDist_hubTopology
  have honly : ∀ u, hubTopology.Owns u 255 → u = 2 := by decide
  obtain rfl := honly u (DistanceVector.isHopDist_zero_iff.mp hu)
  have hother' : ∀ d ∈ hubTopology.devices 2, d.macAddr = BROAD_MAC := by decide
  have hone : ∀ d ∈ hubTopology.devices 0, d = lineDevice 1 := by decide
  obtain rfl := hone device' (hubTopology.mem_devices hlink)
  rw [hother' other hother] at hquery
  obtain ⟨-, hsend⟩ := send_unicast hubTopology hready.air (hready.wire 0) (hplain.arpList 0)
    (by decide) (show 0 < ([1, 2, 3] : List Byte).length by decide) (by decide)
    (by rw [hready.deviceList]; decide) (fun d hd _ => hone d (hready.deviceList 0 ▸ hd))
    hquery 1 17 false rfl
  intro h
  obtain ⟨⟨copy, hcopy⟩, -⟩ := h.sent [] _ rfl _ (by rw [hsend]; exact List.mem_singleton_self _)
  rw [List.filter_eq_self.mpr] at hcopy
  · have hlen := congrArg List.length hcopy
    rw [Transit.length_copies] at hlen
    have htwo : (hubTopology.links 0 (lineDevice 1)).length = 1 := hlen
    exact absurd htwo (by decide)
  · intro c hc
    obtain ⟨d, hd, -⟩ := mem_copies.mp hc
    rw [decide_eq_true_iff, Transit.Accepted, (Prod.mk.inj (List.mem_singleton.mp hd)).2,
      desAddr_packetFrame]
    exact Or.inl rfl

/-- Not every packet that is handed over is delivered: not one without data, and not one that fills
the IP packet but not the frame. Nor is one of them always accepted by one node, if the address that
stands for everyone may be that of a device. -/
theorem not_unicast_delivered :
    (lineTopology.Wired lineLink ∧ Ready lineTopology {1, 2, 3, 4} (freshMesh lineTopology) ∧
      lineTopology.Owns 2 4 ∧ lineTopology.IsHopDist 0 4 2 ∧
      ∃ s', Rounds lineTopology [] (freshMesh lineTopology) 22 s' ∧
      ∀ packet ∈ [((17 : BitVec 8), []), (17, List.replicate 0xffe0 (0 : Byte))],
        ¬ Transit.Delivers lineTopology [keepDelivery]
          (Transit.send lineTopology s' 0 1 4 packet.1 packet.2 false) 2
          (sentHeader 1 4 packet.1 packet.2.length (s'.host 0).id) packet.2 2) ∧
    (hubDevices.map fun c => c.2.macAddr).Nodup ∧
      Ready hubTopology {1, 2, 255} (freshMesh hubTopology) ∧ hubTopology.Owns 2 255 ∧
      hubTopology.IsHopDist 0 255 1 ∧
      ∃ s', Rounds hubTopology [] (freshMesh hubTopology) 22 s' ∧
        ¬ Transit.Delivers hubTopology [keepDelivery]
          (Transit.send hubTopology s' 0 1 255 17 [1, 2, 3] false) 2
          (sentHeader 1 255 17 3 (s'.host 0).id) [1, 2, 3] 1 := by
  constructor
  · obtain ⟨s', hrounds⟩ := ready_lineTopology.exists_rounds [] 22
    refine ⟨wired_lineTopology, ready_lineTopology, owns_lineTopology, hopDist_lineTopology, s',
      hrounds, fun packet hpacket => ?_⟩
    refine hrounds.not_delivers ready_lineTopology (plain_freshMesh _) le_rfl
      hopDist_lineTopology (by decide) (by decide) (by decide) ?_ 1 false _ _
    simp only [List.mem_cons, List.not_mem_nil, or_false] at hpacket
    rcases hpacket with rfl | rfl
    · exact Or.inl rfl
    · rw [List.length_replicate]
      exact Or.inr (by decide)
  · obtain ⟨s', hrounds⟩ := ready_hubTopology.exists_rounds [] 22
    exact ⟨by decide, ready_hubTopology, by decide, hopDist_hubTopology, s', hrounds,
      not_delivers_hubTopology hrounds⟩

end Mesh

end LabNetstack
