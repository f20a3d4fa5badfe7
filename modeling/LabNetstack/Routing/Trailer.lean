import LabNetstack.Routing.Sending

/-!
# The address behind a table

An advertisement ends with the address of a device, and who hears it takes that for the next hop. It
is meant to be the address of the device that the advertisement goes out on: `broadcastRouteTable`
writes it anew for each device. But `sendIPPacket` sends every broadcast on all devices, so that each
of them emits the table once for every device of the host, with the address of each in turn.

## Main results

* `advertised_eq` — what one broadcast puts on the wire
* `trailer_iff` — whose address stands behind the table
* `advertises_iff` — it is right only for a host with one device
-/

namespace LabNetstack

open Layout

variable {τ : Type*}

/-- The frames that one broadcast hands to pcap. -/
def advertised (now : ℕ) (host : Host τ) : List (Device × List Byte) :=
  (broadcastRouteTable now host).wire.drop host.wire.length

/-- On each device the table goes out once, with the address of that device behind it; and on every
network with the host as its node `v`, what a neighbour hears on a device it learns with the address
of the device of `v` at the other end. -/
structure Advertises (ι : Type*) (now : ℕ) (host : Host τ) : Prop where
  trailer : ∀ out ∈ advertised now host,
    out.2.drop (out.2.length - MacAddr.layout.size) = MacAddr.layout.bytes out.1.macAddr
  learned : ∀ (topo : Topology ι) (v : ι), topo.devices v = host.deviceList →
    ∀ copy ∈ Mesh.copies topo v (advertised now host), ∃ device ∈ topo.devices v,
      (copy.1, copy.2.1) ∈ topo.links v device ∧
      ∀ (callbacks : List (TCPPacketReceiveCallback τ)) (chance : Chance) (other : Host τ),
        receiveFrame callbacks chance copy.2.1 copy.2.2 other = some { other with
          tmpRouteTable := other.tmpRouteTable ++
            host.onlineRouteTable.map (learnEntry copy.2.1 device.macAddr) }
  once : tooEarly broadInterval now host.lastBroad = false → ∀ device ∈ host.deviceList,
    ∃ frame, (advertised now host).filter (fun out => out.1 = device) = [(device, frame)] ∧
      IsAdvert host.onlineRouteTable frame

/-! ### What goes out -/

/-- A table that is too long for a frame does not go out at all. -/
theorem sendIPPacket_broadcast_of_lt {buf : List Byte} (hlong : 0x10000 - 34 < buf.length)
    (src : IPAddr) (proto : BitVec 8) (noRetry : Bool) (host : Host τ) :
    ∃ id, (sendIPPacket src BROAD_IP proto buf noRetry host).1 = { host with id := id } := by
  have hloop : ∀ (packet : List Byte), 0x10000 - 14 < packet.length →
      ∀ (devices : List Device) (host : Host τ), devices.foldl
        (fun host device => host.transmit packet BROAD_MAC device) host = host := by
    intro packet hpacket devices
    induction devices with
    | nil => exact fun _ => rfl
    | cons device devices ih =>
      intro host
      rw [List.foldl_cons, Host.transmit, sendFrame,
        if_pos (Or.inl (by rw [EthHeader.size_layout]; omega))]
      exact ih host
  rw [sendIPPacket]
  by_cases hlen : buf.length > 0x10000 - IpHeader.layout.size ∨ buf.length ≤ 0
  · rw [if_pos hlen]
    exact ⟨host.id, rfl⟩
  · rw [if_neg hlen]
    simp only [if_true]
    exact ⟨host.id + 1, hloop _ (by rw [length_ipPacket]; omega) _ _⟩

theorem foldl_broadcast_of_lt {table : List RouteEntry} (hlong : maxEntries < table.length)
    (devices : List Device) (host : Host τ) :
    ∃ id, devices.foldl (fun host device =>
        (sendIPPacket device.ipAddr BROAD_IP ROUTE_PROTOCOL (routeAdvert table device.macAddr) false
          host).1) host = { host with id := id } := by
  induction devices generalizing host with
  | nil => exact ⟨host.id, rfl⟩
  | cons device devices ih =>
    have hlength := length_routeAdvert table device.macAddr
    have hmax : 2046 < table.length := hlong
    have hbuf : 0x10000 - 34 < (routeAdvert table device.macAddr).length := by omega
    obtain ⟨id, hfirst⟩ :=
      sendIPPacket_broadcast_of_lt hbuf device.ipAddr ROUTE_PROTOCOL false host
    obtain ⟨id', hrest⟩ := ih { host with id := id }
    exact ⟨id', by rw [List.foldl_cons, hfirst, hrest]⟩

variable {now : ℕ} {host : Host τ}

/-- A call that the timer turns away broadcasts nothing, and neither does one for a table that is too
long. -/
theorem advertised_eq_nil
    (h : tooEarly broadInterval now host.lastBroad ∨ maxEntries < host.onlineRouteTable.length) :
    advertised now host = [] := by
  rw [advertised, broadcastRouteTable]
  by_cases hearly : tooEarly broadInterval now host.lastBroad
  · rw [if_pos hearly, List.drop_length]
  · obtain ⟨id, hrun⟩ := foldl_broadcast_of_lt (h.resolve_left hearly) host.deviceList
      { host with lastBroad := some now }
    rw [if_neg hearly, hrun, List.drop_length]

/-- **One broadcast.** Each packet of the host goes out on each of its devices. -/
theorem advertised_eq (hdue : tooEarly broadInterval now host.lastBroad = false)
    (hfit : host.onlineRouteTable.length ≤ maxEntries) : advertised now host =
      broadcastFrames host.onlineRouteTable host.deviceList host.deviceList host.id := by
  rw [advertised, broadcastRouteTable, hdue, if_neg Bool.false_ne_true, foldl_broadcast_eq hfit]
  exact List.drop_left ..

theorem IsAdvertOf.trailer {table : List RouteEntry} {macAddr : MacAddr} {frame : List Byte}
    (h : IsAdvertOf table macAddr frame) :
    frame.drop (frame.length - MacAddr.layout.size) = MacAddr.layout.bytes macAddr := by
  obtain ⟨src, srcMac, id, rfl⟩ := h
  have hend : ∀ front : List Byte, (front ++ MacAddr.layout.bytes macAddr).drop
      ((front ++ MacAddr.layout.bytes macAddr).length - MacAddr.layout.size) =
        MacAddr.layout.bytes macAddr := by
    intro front
    rw [List.length_append, MacAddr.layout.length_bytes, Nat.add_sub_cancel]
    exact List.drop_left ..
  rw [ipPacket, routeAdvert, ← List.append_assoc, ← List.append_assoc]
  exact hend _

/-- **The address behind the table** is that of the device that the frame goes out on only if all
devices have the same one. -/
theorem trailer_iff (hdue : tooEarly broadInterval now host.lastBroad = false)
    (hfit : host.onlineRouteTable.length ≤ maxEntries) :
    (∀ out ∈ advertised now host,
        out.2.drop (out.2.length - MacAddr.layout.size) = MacAddr.layout.bytes out.1.macAddr) ↔
      ∀ d ∈ host.deviceList, ∀ d' ∈ host.deviceList, d.macAddr = d'.macAddr := by
  rw [advertised_eq hdue hfit]
  constructor
  · intro h d hd d' hd'
    obtain ⟨frame, hmem, hadvert⟩ :=
      exists_mem_broadcastFrames hd' hd host.onlineRouteTable host.id
    exact MacAddr.layout.bytes_injective (hadvert.trailer.symm.trans (h _ hmem))
  · intro h out hout
    obtain ⟨hd, device, hdevice, hadvert⟩ := mem_broadcastFrames hout
    rw [hadvert.trailer, h device hdevice out.1 hd]

/-- A device is sent on at least once for every device. -/
theorem length_le_count {targets : List Device} {device : Device} (hdevice : device ∈ targets)
    (table : List RouteEntry) (devices : List Device) (id : ℕ) :
    devices.length ≤
      ((broadcastFrames table targets devices id).filter fun out => out.1 = device).length := by
  induction devices generalizing id with
  | nil => exact Nat.zero_le _
  | cons d devices ih =>
    rw [broadcastFrames, List.zipIdx_cons, List.flatMap_cons, List.filter_append,
      List.length_append, List.length_cons, Nat.add_comm]
    refine Nat.add_le_add ?_ (ih (id + 1))
    exact List.length_pos_of_mem (List.mem_filter.mpr
      ⟨List.mem_map.mpr ⟨device, hdevice, rfl⟩, decide_eq_true rfl⟩)

/-- With two devices one of them sends too often, and with a table that is too long it sends
nothing. -/
theorem Advertises.length_eq_one {ι : Type*} (h : Advertises ι now host)
    (hdue : tooEarly broadInterval now host.lastBroad = false) (hne : host.deviceList ≠ []) :
    host.deviceList.length = 1 ∧ host.onlineRouteTable.length ≤ maxEntries := by
  obtain ⟨device, hdevice⟩ := List.exists_mem_of_ne_nil _ hne
  obtain ⟨frame, hone, -⟩ := h.once hdue device hdevice
  by_cases hlong : maxEntries < host.onlineRouteTable.length
  · rw [advertised_eq_nil (Or.inr hlong)] at hone
    exact absurd hone (List.cons_ne_nil _ _).symm
  · have hcount := length_le_count hdevice host.onlineRouteTable host.deviceList host.id
    rw [← advertised_eq hdue (Nat.le_of_not_lt hlong), hone] at hcount
    exact ⟨le_antisymm hcount (List.length_pos_of_mem hdevice), Nat.le_of_not_lt hlong⟩

/-- Where nothing goes out, nothing goes out wrong. -/
theorem advertises_of_nil {ι : Type*} (hnil : advertised now host = [])
    (hidle : tooEarly broadInterval now host.lastBroad = true ∨ host.deviceList = []) :
    Advertises ι now host := by
  constructor
  · intro out hout
    exact absurd (hnil ▸ hout) List.not_mem_nil
  · intro topo v _ copy hcopy
    rw [hnil] at hcopy
    exact absurd hcopy List.not_mem_nil
  · intro hdue device hdevice
    have hdevices := hidle.resolve_left (ne_true_of_eq_false hdue)
    exact absurd (hdevices ▸ hdevice) List.not_mem_nil

/-- A broadcast on the only device of a host is as it should be. -/
theorem advertises_of_singleton {ι : Type*} {device : Device}
    (hdevices : host.deviceList = [device])
    (hfit : host.onlineRouteTable.length ≤ maxEntries) : Advertises ι now host := by
  have hframes : ∃ frame, broadcastFrames host.onlineRouteTable host.deviceList host.deviceList
      host.id = [(device, frame)] ∧ IsAdvertOf host.onlineRouteTable device.macAddr frame := by
    rw [hdevices]
    exact ⟨_, rfl, _, _, _, rfl⟩
  obtain ⟨frame, hframes, hadvert⟩ := hframes
  have hsent : ∀ out ∈ advertised now host, out = (device, frame) := by
    intro out hout
    by_cases hearly : tooEarly broadInterval now host.lastBroad
    · rw [advertised_eq_nil (Or.inl hearly)] at hout
      exact absurd hout List.not_mem_nil
    · rw [advertised_eq (Bool.not_eq_true _ ▸ hearly) hfit, hframes] at hout
      exact List.mem_singleton.mp hout
  constructor
  · intro out hout
    rw [hsent out hout]
    exact hadvert.trailer
  · intro topo v hv copy hcopy
    obtain ⟨d, hout, hlink⟩ := Mesh.mem_copies.mp hcopy
    obtain ⟨rfl, hframe⟩ := Prod.mk.inj (hsent _ hout)
    refine ⟨d, ?_, hlink, fun callbacks chance other => ?_⟩
    · rw [hv, hdevices]
      exact List.mem_singleton_self _
    · rw [hframe]
      exact receiveFrame_advertOf hadvert hfit callbacks chance copy.2.1 other
  · intro hdue d hd
    obtain rfl := List.mem_singleton.mp (hdevices ▸ hd)
    rw [advertised_eq hdue hfit, hframes, List.filter_singleton]
    simp only [decide_true, cond_true]
    exact ⟨frame, rfl, hadvert.isAdvert⟩

/-- **When the broadcast is right**: it is when there is nothing to send or nowhere to send it, and
otherwise only with a single device and a table that fits a frame. -/
theorem advertises_iff {ι : Type*} : Advertises ι now host ↔
    tooEarly broadInterval now host.lastBroad = true ∨ host.deviceList = [] ∨
      host.deviceList.length = 1 ∧ host.onlineRouteTable.length ≤ maxEntries := by
  constructor
  · intro h
    by_cases hearly : tooEarly broadInterval now host.lastBroad = true
    · exact Or.inl hearly
    · by_cases hnil : host.deviceList = []
      · exact Or.inr (Or.inl hnil)
      · exact Or.inr (Or.inr (h.length_eq_one (Bool.not_eq_true _ ▸ hearly) hnil))
  · rintro (hearly | hnil | ⟨hone, hfit⟩)
    · exact advertises_of_nil (advertised_eq_nil (Or.inl hearly)) (Or.inl hearly)
    · refine advertises_of_nil ?_ (Or.inr hnil)
      rw [advertised, broadcastRouteTable, hnil]
      split_ifs <;> exact List.drop_length
    · obtain ⟨device, hdevices⟩ := List.length_eq_one_iff.mp hone
      exact advertises_of_singleton hdevices hfit

/-- Two devices with different addresses. -/
def twoHomed : Host Unit :=
  NetworkLayer.start [Mesh.lineDevice 1, Mesh.lineDevice 2] ()

/-- A frame leaves with the address of the other device, and each of the two emits the table twice. -/
theorem not_advertises :
    (¬ ∀ (now : ℕ) (host : Host Unit), ∀ out ∈ advertised now host,
      out.2.drop (out.2.length - MacAddr.layout.size) = MacAddr.layout.bytes out.1.macAddr) ∧
    ¬ ∀ (now : ℕ) (host : Host Unit), Advertises Unit now host := by
  constructor
  · intro hclaim
    have hfit : twoHomed.onlineRouteTable.length ≤ maxEntries := by decide
    have hsame := (trailer_iff rfl hfit).mp (hclaim 0 twoHomed)
    exact absurd hsame (by decide)
  · intro hclaim
    obtain ⟨hone, -⟩ := (hclaim 0 twoHomed).length_eq_one rfl (List.cons_ne_nil _ _)
    exact absurd hone (by decide)

end LabNetstack
