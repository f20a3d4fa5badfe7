import LabNetstack.Link.Frame

/-!
# The tables of a host

The global variables of the network layer, in one record: the devices, the three route tables, the
ARP list and the packets that wait to be sent again. `wire` holds the frames that were handed to
pcap, and `upper` the state of whatever the transport layer registered.

Times are in nanoseconds; `none` stands for the `-INFINITY` that the two static times start at. The
mutexes and the node links are left out, and of an ARP node the time when it is to be deleted,
which nothing reads.
-/

namespace LabNetstack

open Layout

def BROAD_IP : IPAddr := 0xffffffff

/-- `struct RouteEntry`. A device is known by its address. -/
structure RouteEntry where
  ipAddr : IPAddr
  mask : IPAddr
  device : BitVec 64
  dist : BitVec 32
  macAddr : MacAddr
deriving DecidableEq

/-- The struct is aligned like its pointer, which leaves six bytes at its end. What they hold is
indeterminate, and never read. -/
def RouteEntry.layout : Struct RouteEntry :=
  (uint32.pair (uint32.pair (uint64.pair (uint32.pair (MacAddr.layout.pair (.padding 6)))))).iso
    ⟨fun (ipAddr, mask, device, dist, macAddr, _) => ⟨ipAddr, mask, device, dist, macAddr⟩,
      fun e => (e.ipAddr, e.mask, e.device, e.dist, e.macAddr, ()), fun _ => rfl, fun _ => rfl⟩

@[simp] theorem RouteEntry.size_layout : RouteEntry.layout.size = 32 := rfl

/-- `struct ResendIPTask`. -/
structure ResendIPTask where
  src : IPAddr
  dest : IPAddr
  proto : BitVec 8
  buf : List Byte
deriving DecidableEq

structure Host (τ : Type*) where
  deviceList : List Device
  manRouteTable : List RouteEntry
  onlineRouteTable : List RouteEntry
  tmpRouteTable : List RouteEntry
  arpList : List (IPAddr × MacAddr)
  resendIPTaskList : List ResendIPTask
  /-- The static counter of `sendIPPacket`. -/
  id : ℕ
  lastBroad : Option ℕ
  lastUpdate : Option ℕ
  random_drop : BitVec 32
  wire : List (Device × List Byte)
  upper : τ

variable {τ : Type*}

/-- The loop of `queryRouteTable` over one table: the match so far, and its mask. -/
def bestMatch (ip : IPAddr) (table : List RouteEntry) : Option RouteEntry :=
  (table.foldl (fun (best : IPAddr × Option RouteEntry) e =>
    if e.ipAddr = ip &&& e.mask then if best.1 < e.mask then (e.mask, some e) else best
    else best) (0, none)).2

/-- Next hop and device, from the manual table if it has a match. -/
def queryRouteTable (host : Host τ) (ip : IPAddr) : Option (MacAddr × BitVec 64) :=
  match bestMatch ip host.manRouteTable with
  | some e => some (e.macAddr, e.device)
  | none => (bestMatch ip host.onlineRouteTable).map fun e => (e.macAddr, e.device)

theorem mem_of_bestMatch {ip : IPAddr} {table : List RouteEntry} {e : RouteEntry}
    (h : bestMatch ip table = some e) : e ∈ table := by
  have hloop : ∀ (es : List RouteEntry) (best : IPAddr × Option RouteEntry),
      (es.foldl (fun (best : IPAddr × Option RouteEntry) e =>
        if e.ipAddr = ip &&& e.mask then if best.1 < e.mask then (e.mask, some e) else best
        else best) best).2 = some e → best.2 = some e ∨ e ∈ es := by
    intro es
    induction es with
    | nil => exact fun best hbest => Or.inl hbest
    | cons e' es ih =>
      intro best hbest
      rw [List.foldl_cons] at hbest
      rcases ih _ hbest with hfirst | hmem
      · split_ifs at hfirst
        · exact Or.inr (Option.some.inj hfirst ▸ List.mem_cons_self ..)
        · exact Or.inl hfirst
        · exact Or.inl hfirst
      · exact Or.inr (List.mem_cons_of_mem _ hmem)
  exact (hloop table (0, none) h).resolve_left (Option.some_ne_none _).symm

/-- What is found stands in one of the tables. -/
theorem mem_of_queryRouteTable {host : Host τ} {ip : IPAddr} {macAddr : MacAddr}
    {device : BitVec 64} (h : queryRouteTable host ip = some (macAddr, device)) :
    ∃ e ∈ host.manRouteTable ++ host.onlineRouteTable, e.macAddr = macAddr ∧ e.device = device := by
  rw [queryRouteTable] at h
  split at h
  · next e hman =>
    obtain ⟨rfl, rfl⟩ := Prod.mk.inj (Option.some.inj h)
    exact ⟨e, List.mem_append_left _ (mem_of_bestMatch hman), rfl, rfl⟩
  · obtain ⟨e, honline, hfound⟩ := Option.map_eq_some_iff.mp h
    obtain ⟨rfl, rfl⟩ := Prod.mk.inj hfound
    exact ⟨e, List.mem_append_right _ (mem_of_bestMatch honline), rfl, rfl⟩

/-- `queryARPList` returns as soon as it finds the address, and never stores what it found. -/
def queryARPList (host : Host τ) (ipAddr : IPAddr) : ℤ :=
  if host.arpList.any fun node => node.1 = ipAddr then 0 else -1

theorem queryARPList_eq_zero_iff {host : Host τ} {ipAddr : IPAddr} :
    queryARPList host ipAddr = 0 ↔ ∃ node ∈ host.arpList, node.1 = ipAddr := by
  have hany : (host.arpList.any fun node => node.1 = ipAddr) = true ↔
      ∃ node ∈ host.arpList, node.1 = ipAddr := by
    simp only [List.any_eq_true, decide_eq_true_eq]
  rw [queryARPList, ← hany]
  split_ifs with hfound
  · exact iff_of_true rfl hfound
  · exact iff_of_false (by decide) hfound

/-- `sendFrame` on a device of the host; a frame of an impossible size is dropped. -/
def Host.transmit (host : Host τ) (buf : List Byte) (destMac : MacAddr) (device : Device) :
    Host τ :=
  match sendFrame buf ETHTYPE_IPv4 destMac device with
  | some frame => { host with wire := host.wire ++ [(device, frame)] }
  | none => host

/-- The same through a pointer. A device is never freed, so one that a table holds is there. -/
def Host.transmitAt (host : Host τ) (buf : List Byte) (destMac : MacAddr) (device : BitVec 64) :
    Host τ :=
  match host.deviceList.find? fun d => d.address = device with
  | some d => host.transmit buf destMac d
  | none => host

theorem Host.transmit_frame (host : Host τ) (buf : List Byte) (destMac : MacAddr)
    (device : Device) : ∃ wire, host.transmit buf destMac device = { host with wire := wire } := by
  rw [transmit]
  split
  · exact ⟨_, rfl⟩
  · exact ⟨host.wire, rfl⟩

/-- Sending changes nothing but the wire. -/
theorem Host.transmitAt_frame (host : Host τ) (buf : List Byte) (destMac : MacAddr)
    (device : BitVec 64) :
    ∃ wire, host.transmitAt buf destMac device = { host with wire := wire } := by
  rw [transmitAt]
  split
  · exact transmit_frame ..
  · exact ⟨host.wire, rfl⟩

/-- No two devices lie at one address. -/
theorem Host.transmitAt_address (host : Host τ) {device : Device} (hmem : device ∈ host.deviceList)
    (hdistinct : ∀ d ∈ host.deviceList, d.address = device.address → d = device)
    (buf : List Byte) (destMac : MacAddr) :
    host.transmitAt buf destMac device.address = host.transmit buf destMac device := by
  have hfind : (host.deviceList.find? fun d => d.address = device.address) = some device := by
    have hsome : (host.deviceList.find? fun d => d.address = device.address).isSome :=
      List.find?_isSome.mpr ⟨device, hmem, by simp⟩
    obtain ⟨d, hd⟩ := Option.isSome_iff_exists.mp hsome
    have haddress : d.address = device.address := by simpa using List.find?_some hd
    rw [hd, hdistinct d (List.mem_of_find?_eq_some hd) haddress]
  rw [transmitAt, hfind]

end LabNetstack
