import LabNetstack.Network.ARP
import LabNetstack.Routing.Unicast

/-!
# The ARP list and the retry queue

A host as the network layer sets it up, with everything that changes its tables: manual routes, the
frames that it captures, and the tasks of the loop. Whatever happens, every route is about one of
the devices, so that a packet whose destination is found has somewhere to go.

It does not always go there. `queryARPList` returns zero for an address that it has found, and
`sendIPPacket` takes a zero for a miss: a packet for such an address is put in the queue, and when
its turn comes the list still has the address, as nothing is ever taken out of it.

## Main results

* `NetworkLayer.linked_run` — every route that is ever found is about one of the devices
* `NetworkLayer.sent_iff` — a packet is sent exactly if its destination is not in the ARP list
-/

namespace LabNetstack

variable {τ : Type*}

namespace NetworkLayer

/-! ### What a host does -/

/-- What `initNetworkLayer` leaves behind. -/
def start (deviceList : List Device) (upper : τ) : Host τ where
  deviceList := deviceList
  manRouteTable := []
  onlineRouteTable := addDefaultRouteTable deviceList []
  tmpRouteTable := []
  arpList := []
  resendIPTaskList := []
  id := 0
  lastBroad := none
  lastUpdate := none
  random_drop := 0
  wire := []
  upper := upper

/-- The calls that change a host, with the time, the random number or the order of `qsort` where
one plays a part. -/
inductive Action
  | setRoutingTable (dest mask : IPAddr) (nextHopMAC : MacAddr) (deviceName : Device → Bool)
  | handleFrame (chance : Chance) (device : Device) (pkthdr : PcapPkthdr) (pktdata : List Byte)
  | broadcastRouteTable (now : ℕ)
  | updateRouteTable (now : ℕ) (sorted : List RouteEntry)
  | sendIPPacket (src dest : IPAddr) (proto : BitVec 8) (buf : List Byte) (noRetry : Bool)
  | processResendIPTask
  | sendARPRequest (dstPAddr : IPAddr)
  | setRandomDropRate (num : BitVec 32)

/-- Frames are captured on the devices of the host only. The callbacks are called in the order in
which they are registered. -/
def step (callbacks : List (TCPPacketReceiveCallback τ)) (action : Action) (host : Host τ) :
    Option (Host τ) :=
  match action with
  | .setRoutingTable dest mask nextHopMAC deviceName =>
    some (LabNetstack.setRoutingTable dest mask nextHopMAC deviceName host).1
  | .handleFrame chance device pkthdr pktdata =>
    if device ∈ host.deviceList then
      LabNetstack.handleFrame host.deviceList
        [handleARPPacket, handleIPPacket [handleRouteTable, handleTCPPacket callbacks] chance]
        device pkthdr pktdata host
    else none
  | .broadcastRouteTable now => some (LabNetstack.broadcastRouteTable now host)
  | .updateRouteTable now sorted => LabNetstack.updateRouteTable now sorted host
  | .sendIPPacket src dest proto buf noRetry =>
    some (LabNetstack.sendIPPacket src dest proto buf noRetry host).1
  | .processResendIPTask => some (LabNetstack.processResendIPTask host)
  | .sendARPRequest dstPAddr => some (LabNetstack.sendARPRequest dstPAddr host).1
  | .setRandomDropRate num => some (LabNetstack.setRandomDropRate num host)

variable {callbacks : List (TCPPacketReceiveCallback τ)} {deviceList : List Device}
  {host host' : Host τ}

/-! ### The devices of the routes -/

/-- Every entry is about one of the devices. -/
def OnDevices (deviceList : List Device) (table : List RouteEntry) : Prop :=
  ∀ e ∈ table, ∃ device ∈ deviceList, e.device = device.address

theorem OnDevices.append {table table' : List RouteEntry} (h : OnDevices deviceList table)
    (h' : OnDevices deviceList table') : OnDevices deviceList (table ++ table') := by
  intro e he
  exact (List.mem_append.mp he).elim (h e) (h' e)

theorem onDevices_nil : OnDevices deviceList [] := fun _ he => absurd he List.not_mem_nil

theorem onDevices_default : OnDevices deviceList (deviceList.map defaultEntry) := by
  intro e he
  obtain ⟨device, hdevice, rfl⟩ := List.mem_map.mp he
  exact ⟨device, hdevice, rfl⟩

/-- No table has an entry about anything but these devices. -/
structure Linked (deviceList : List Device) (host : Host τ) : Prop where
  devices : host.deviceList = deviceList
  manRouteTable : OnDevices deviceList host.manRouteTable
  onlineRouteTable : OnDevices deviceList host.onlineRouteTable
  tmpRouteTable : OnDevices deviceList host.tmpRouteTable

theorem linked_start (deviceList : List Device) (upper : τ) :
    Linked deviceList (start deviceList upper) where
  devices := rfl
  manRouteTable := onDevices_nil
  onlineRouteTable := onDevices_default
  tmpRouteTable := onDevices_nil

namespace Linked

theorem setRoutingTable (h : Linked deviceList host) (dest mask : IPAddr) (nextHopMAC : MacAddr)
    (deviceName : Device → Bool) :
    Linked deviceList (setRoutingTable dest mask nextHopMAC deviceName host).1 := by
  rw [LabNetstack.setRoutingTable]
  split
  · exact h
  · next device hfound =>
    refine ⟨h.devices, h.manRouteTable.append fun e he => ?_, h.onlineRouteTable,
      h.tmpRouteTable⟩
    obtain rfl := List.mem_singleton.mp he
    exact ⟨device, h.devices ▸ List.mem_of_find?_eq_some hfound, rfl⟩

theorem sendIPPacket (h : Linked deviceList host) (src dest : IPAddr) (proto : BitVec 8)
    (buf : List Byte) (noRetry : Bool) :
    Linked deviceList (sendIPPacket src dest proto buf noRetry host).1 := by
  obtain ⟨wire, id, tasks, hsend, -⟩ := sendIPPacket_frame src dest proto buf noRetry host
  rw [hsend]
  exact ⟨h.devices, h.manRouteTable, h.onlineRouteTable, h.tmpRouteTable⟩

theorem processResendIPTask (h : Linked deviceList host) :
    Linked deviceList (processResendIPTask host) := by
  obtain ⟨wire, id, hrun⟩ := processResendIPTask_frame host
  rw [hrun]
  exact ⟨h.devices, h.manRouteTable, h.onlineRouteTable, h.tmpRouteTable⟩

theorem broadcastRouteTable (h : Linked deviceList host) (now : ℕ) :
    Linked deviceList (broadcastRouteTable now host) := by
  obtain ⟨wire, id, tasks, lastBroad, hrun⟩ := broadcastRouteTable_frame now host
  rw [hrun]
  exact ⟨h.devices, h.manRouteTable, h.onlineRouteTable, h.tmpRouteTable⟩

/-- What is made the online table has been collected, or is about a device of the host itself. -/
theorem updateRouteTable (h : Linked deviceList host) {now : ℕ} {sorted : List RouteEntry}
    (hupdate : updateRouteTable now sorted host = some host') : Linked deviceList host' := by
  rcases updateRouteTable_cases hupdate with rfl | ⟨hsort, rfl⟩
  · exact h
  · refine ⟨h.devices, h.manRouteTable, fun e he => ?_, onDevices_nil⟩
    refine h.tmpRouteTable.append onDevices_default e ?_
    rw [← h.devices]
    exact hsort.1.mem_iff.mp (mem_removeDuplicates he)

/-- An entry that is learnt is about the device that it was heard on. -/
theorem handleIPPacket (h : Linked deviceList host) {chance : Chance} {packet : List Byte}
    {pktlen : BitVec 32} {ethHdr : EthHeader} {device : Device} (hdevice : device ∈ deviceList)
    (hhandle : handleIPPacket [handleRouteTable, handleTCPPacket callbacks] chance packet pktlen
      ethHdr device host = some host') : Linked deviceList host' := by
  obtain ⟨wire, learnt, upper, rfl, hlearnt⟩ := handleIPPacket_frame hhandle
  refine ⟨h.devices, h.manRouteTable, h.onlineRouteTable, h.tmpRouteTable.append fun e he => ?_⟩
  exact ⟨device, hdevice, hlearnt e he⟩

theorem handleARPPacket (h : Linked deviceList host) {packet : List Byte} {pktlen : BitVec 32}
    {ethHdr : EthHeader} {device : Device}
    (hhandle : handleARPPacket packet pktlen ethHdr device host = some host') :
    Linked deviceList host' := by
  rw [LabNetstack.handleARPPacket] at hhandle
  split_ifs at hhandle
  · exact Option.some.inj hhandle ▸ h
  split at hhandle
  · exact absurd hhandle (Option.some_ne_none _).symm
  next arpPacket _ =>
  split_ifs at hhandle
  · rw [← replies_eq_loop, replies, replies_eq] at hhandle
    exact Option.some.inj hhandle ▸
      ⟨h.devices, h.manRouteTable, h.onlineRouteTable, h.tmpRouteTable⟩
  · exact Option.some.inj hhandle ▸
      ⟨h.devices, h.manRouteTable, h.onlineRouteTable, h.tmpRouteTable⟩
  · exact Option.some.inj hhandle ▸ h
  · exact Option.some.inj hhandle ▸ h

theorem handleFrame (h : Linked deviceList host) {chance : Chance} {pkthdr : PcapPkthdr}
    {pktdata : List Byte} {device : Device} (hdevice : device ∈ deviceList)
    (hhandle : handleFrame host.deviceList [LabNetstack.handleARPPacket,
      LabNetstack.handleIPPacket [handleRouteTable, handleTCPPacket callbacks] chance] device pkthdr
        pktdata host = some host') :
    Linked deviceList host' := by
  rcases handleFrame_cases hhandle with rfl | ⟨_, _, _, hhandle⟩
  · exact h
  · simp only [List.foldlM_cons, List.foldlM_nil] at hhandle
    obtain ⟨t, ht, hhandle⟩ := Option.bind_eq_some_iff.mp hhandle
    obtain ⟨t', ht', hhandle⟩ := Option.bind_eq_some_iff.mp hhandle
    exact Option.some.inj hhandle ▸ (h.handleARPPacket ht).handleIPPacket hdevice ht'

/-- One call. -/
theorem step (h : Linked deviceList host) {action : Action}
    (hstep : step callbacks action host = some host') : Linked deviceList host' := by
  cases action with
  | setRoutingTable dest mask nextHopMAC deviceName =>
    exact Option.some.inj hstep ▸ h.setRoutingTable dest mask nextHopMAC deviceName
  | handleFrame chance device pkthdr pktdata =>
    rw [NetworkLayer.step] at hstep
    split_ifs at hstep with hdevice
    exact h.handleFrame (h.devices ▸ hdevice) hstep
  | broadcastRouteTable now => exact Option.some.inj hstep ▸ h.broadcastRouteTable now
  | updateRouteTable now sorted => exact h.updateRouteTable hstep
  | sendIPPacket src dest proto buf noRetry =>
    exact Option.some.inj hstep ▸ h.sendIPPacket src dest proto buf noRetry
  | processResendIPTask => exact Option.some.inj hstep ▸ h.processResendIPTask
  | sendARPRequest dstPAddr =>
    have hsend : (LabNetstack.sendARPRequest dstPAddr host).1 = host' := Option.some.inj hstep
    rw [sendARPRequest_eq] at hsend
    exact hsend ▸ ⟨h.devices, h.manRouteTable, h.onlineRouteTable, h.tmpRouteTable⟩
  | setRandomDropRate num =>
    exact Option.some.inj hstep ▸
      ⟨h.devices, h.manRouteTable, h.onlineRouteTable, h.tmpRouteTable⟩

end Linked

/-- **Whatever happens to a host**, its routes are about its devices. -/
theorem linked_run {upper : τ} {actions : List Action}
    (hrun : Run.run (step callbacks) actions (start deviceList upper) = some host) :
    Linked deviceList host :=
  Run.invariant (fun _ _ _ h hstep => h.step hstep) (linked_start deviceList upper) hrun

/-- The lookup leads to a device. -/
theorem Linked.query (h : Linked deviceList host) {ip : IPAddr} {dstmac : MacAddr}
    {address : BitVec 64} (hquery : queryRouteTable host ip = some (dstmac, address)) :
    ∃ device ∈ host.deviceList, address = device.address := by
  obtain ⟨e, he, -, rfl⟩ := mem_of_queryRouteTable hquery
  rw [h.devices]
  exact h.manRouteTable.append h.onlineRouteTable e he

/-! ### The queue -/

/-- What the tasks before it leave when one has come to the front. -/
theorem processResendIPTask_iterate (n : ℕ) (host : Host τ) :
    ∃ wire id, processResendIPTask^[n] host =
      { host with wire := wire, id := id, resendIPTaskList := host.resendIPTaskList.drop n } := by
  induction n generalizing host with
  | zero => exact ⟨host.wire, host.id, rfl⟩
  | succ n ih =>
    obtain ⟨wire, id, hfirst⟩ := processResendIPTask_frame host
    obtain ⟨wire', id', hrest⟩ := ih (processResendIPTask host)
    refine ⟨wire', id', ?_⟩
    rw [Function.iterate_succ_apply, hrest, hfirst]
    simp only [List.drop_tail]

variable {src dest : IPAddr} {proto : BitVec 8} {buf : List Byte} {noRetry : Bool}

/-- Where a packet for the address goes: to the address in the ARP list, or else to the next hop of
the route. -/
def nextMac (host : Host τ) (dest : IPAddr) (dstmac : MacAddr) : MacAddr :=
  ((host.arpList.find? fun node => node.1 = dest).map Prod.snd).getD dstmac

/-- One frame has gone out in between, on the device and with the packet in it. -/
def Hands (src dest : IPAddr) (proto : BitVec 8) (buf : List Byte) (destMac : MacAddr)
    (device : Device) (host host' : Host τ) : Prop :=
  ∃ id, host'.wire = host.wire ++
    [(device, packetFrame destMac device.macAddr (ipPacket src dest proto buf id))]

/-- **The packet is sent.** The call succeeds, and hands over one frame: itself, or by the task that
it puts in the queue, when the tasks before it have had their turn. -/
def Sent (host : Host τ) (src dest : IPAddr) (proto : BitVec 8) (buf : List Byte)
    (noRetry : Bool) : Prop :=
  ∃ dstmac, ∃ device ∈ host.deviceList,
    queryRouteTable host dest = some (dstmac, device.address) ∧
    let host' := (sendIPPacket src dest proto buf noRetry host).1
    let earlier := processResendIPTask^[host.resendIPTaskList.length] host'
    let destMac := nextMac host dest dstmac
    (sendIPPacket src dest proto buf noRetry host).2 = 0 ∧
      (host'.resendIPTaskList = host.resendIPTaskList ∧
          Hands src dest proto buf destMac device host host' ∨
        host'.resendIPTaskList = host.resendIPTaskList ++ [⟨src, dest, proto, buf⟩] ∧
          host'.wire = host.wire ∧
          Hands src dest proto buf destMac device earlier (processResendIPTask earlier))

/-- A packet for an address that is not in the list goes out at once. -/
theorem Linked.sent (h : Linked deviceList host)
    (hnodup : (deviceList.map Device.address).Nodup) (hdest : dest ≠ BROAD_IP)
    (hpos : 0 < buf.length) (hle : buf.length ≤ 65502) (hroute : (queryRouteTable host dest).isSome)
    (hmiss : ∀ node ∈ host.arpList, node.1 ≠ dest) (src : IPAddr) (proto : BitVec 8)
    (noRetry : Bool) : Sent host src dest proto buf noRetry := by
  obtain ⟨⟨dstmac, address⟩, hquery⟩ := Option.isSome_iff_exists.mp hroute
  obtain ⟨device, hdevice, rfl⟩ := h.query hquery
  have hdistinct : ∀ d ∈ host.deviceList, d.address = device.address → d = device := by
    rw [h.devices] at hdevice ⊢
    exact fun d hd haddress => List.inj_on_of_nodup_map hnodup hd hdevice haddress
  have hlen := length_ipPacket src dest proto buf host.id
  have hsend := sendIPPacket_miss hmiss hdest hpos (by omega) hquery src proto noRetry
  have htransmit := { host with id := host.id + 1 }.transmitAt_address hdevice hdistinct
    (ipPacket src dest proto buf host.id) dstmac
  rw [htransmit, transmit_eq (by omega) (by omega)] at hsend
  have hmac : nextMac host dest dstmac = dstmac := by
    have hnone : (host.arpList.find? fun node => node.1 = dest) = none :=
      List.find?_eq_none.mpr fun node hnode => by simpa using hmiss node hnode
    rw [nextMac, hnone]
    rfl
  refine ⟨dstmac, device, hdevice, hquery, ?_⟩
  rw [hsend, hmac]
  exact ⟨rfl, Or.inl ⟨rfl, host.id, rfl⟩⟩

/-- A task for an address that is in the list is dropped. -/
theorem processResendIPTask_wire {rest : List ResendIPTask}
    (hqueue : host.resendIPTaskList = ⟨src, dest, proto, buf⟩ :: rest)
    (hhit : ∃ node ∈ host.arpList, node.1 = dest) (hdest : dest ≠ BROAD_IP)
    (hpos : 0 < buf.length) (hle : buf.length ≤ 0x10000 - 20)
    (hroute : (queryRouteTable host dest).isSome) :
    (processResendIPTask host).wire = host.wire := by
  have hhit' : ∃ node ∈ { host with resendIPTaskList := rest }.arpList, node.1 = dest := hhit
  have hroute' : (queryRouteTable { host with resendIPTaskList := rest } dest).isSome := hroute
  simp only [processResendIPTask, hqueue]
  rw [sendIPPacket_hit hhit' hdest hpos hle hroute', if_pos rfl]

/-- One for an address that is there does not go out, neither at once nor later. -/
theorem not_sent (hdest : dest ≠ BROAD_IP) (hpos : 0 < buf.length) (hle : buf.length ≤ 65502)
    (hroute : (queryRouteTable host dest).isSome) (hhit : ∃ node ∈ host.arpList, node.1 = dest)
    (src : IPAddr) (proto : BitVec 8) (noRetry : Bool) :
    ¬ Sent host src dest proto buf noRetry := by
  rintro ⟨dstmac, device, -, -, hsent⟩
  dsimp only at hsent
  rw [sendIPPacket_hit hhit hdest hpos (by omega) hroute src proto noRetry] at hsent
  cases noRetry with
  | true =>
    have hzero : (-1 : ℤ) = 0 := hsent.1
    exact absurd hzero (by decide)
  | false =>
    simp only [Bool.false_eq_true, if_false] at hsent
    obtain ⟨-, ⟨hqueue, -⟩ | ⟨-, -, id, hwire⟩⟩ := hsent
    · exact List.cons_ne_nil _ _ (List.append_right_eq_self.mp hqueue)
    · -- the list still has the address when the task is taken up, and there is no second retry
      obtain ⟨wire, id', hearlier⟩ := processResendIPTask_iterate host.resendIPTaskList.length
        { host with
          id := host.id + 1
          resendIPTaskList := host.resendIPTaskList ++ [⟨src, dest, proto, buf⟩] }
      generalize processResendIPTask^[host.resendIPTaskList.length] _ = earlier at hwire hearlier
      have hqueue : earlier.resendIPTaskList = [⟨src, dest, proto, buf⟩] := by
        rw [hearlier]
        exact List.drop_left ..
      have hhit' : ∃ node ∈ earlier.arpList, node.1 = dest := by
        rw [hearlier]
        exact hhit
      have hroute' : (queryRouteTable earlier dest).isSome := by
        rw [hearlier]
        exact hroute
      rw [processResendIPTask_wire hqueue hhit' hdest hpos (by omega) hroute'] at hwire
      exact List.cons_ne_nil _ _ (List.append_right_eq_self.mp hwire.symm)

/-- **The ARP list decides.** Whatever has happened to a host, a packet that it has a route for and a
frame has room for is sent exactly if the ARP list does not have its destination. -/
theorem sent_iff {upper : τ} {actions : List Action}
    (hnodup : (deviceList.map Device.address).Nodup)
    (hrun : Run.run (step callbacks) actions (start deviceList upper) = some host)
    (hdest : dest ≠ BROAD_IP) (hpos : 0 < buf.length) (hle : buf.length ≤ 65502)
    (hroute : (queryRouteTable host dest).isSome) :
    Sent host src dest proto buf noRetry ↔ ∀ node ∈ host.arpList, node.1 ≠ dest := by
  constructor
  · intro hsent node hnode hip
    exact not_sent hdest hpos hle hroute ⟨node, hnode, hip⟩ src proto noRetry hsent
  · intro hmiss
    exact (linked_run hrun).sent hnodup hdest hpos hle hroute hmiss src proto noRetry

/-- A route to the address 4, on the only device. -/
def routed : Host Unit :=
  { start [Mesh.lineDevice 1] () with
    manRouteTable := [⟨4, BROAD_IP, 1, 0, (Mesh.lineDevice 4).macAddr⟩] }

def addRoute : Action := .setRoutingTable 4 BROAD_IP (Mesh.lineDevice 4).macAddr fun _ => true

theorem run_routed :
    Run.run (step []) [addRoute] (start [Mesh.lineDevice 1] ()) = some routed := rfl

theorem sent_iff_routed :
    Sent routed 1 4 17 [1, 2, 3] false ↔ ∀ node ∈ routed.arpList, node.1 ≠ 4 :=
  sent_iff (by decide) run_routed (by decide) (by decide) (by decide) rfl

/-- The same with the address in the ARP list. -/
def listed : Host Unit := { routed with arpList := [(4, (Mesh.lineDevice 4).macAddr)] }

/-- A packet that is taken for a reply of the host with that address. -/
def addNode : Action :=
  .handleFrame ⟨0, 0⟩ (Mesh.lineDevice 1) ⟨42⟩ (arpFrame
    { arpReply (Mesh.lineDevice 1).macAddr 1 (Mesh.lineDevice 4) with code := 2 }
    (Mesh.lineDevice 1).macAddr (Mesh.lineDevice 4))

theorem run_listed :
    Run.run (step []) [addRoute, addNode] (start [Mesh.lineDevice 1] ()) = some listed := rfl

/-- Not every packet that there is a route for is sent. -/
theorem not_sent_listed : ¬ ∀ (actions : List Action) (host : Host Unit) (noRetry : Bool),
    Run.run (step []) actions (start [Mesh.lineDevice 1] ()) = some host →
    (queryRouteTable host 4).isSome → Sent host 1 4 17 [1, 2, 3] noRetry := by
  intro hclaim
  have hsent := hclaim [addRoute, addNode] listed false run_listed rfl
  have hhit : ∃ node ∈ listed.arpList, node.1 = 4 := ⟨_, List.mem_singleton_self _, rfl⟩
  exact not_sent (by decide) (by decide) (by decide) rfl hhit 1 17 false hsent

end NetworkLayer

end LabNetstack
