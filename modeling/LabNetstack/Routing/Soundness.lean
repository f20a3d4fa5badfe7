import LabNetstack.Routing.Network

/-!
# Distances that are never made up

Convergence speaks of rounds; between rounds, and while applications send, links lose and repeat
frames and every host broadcasts and updates when it likes, less can be said, but not nothing. No
entry is ever nearer than the way that it stands for: behind every distance there is a path of that
many links to a host that owns the address, and its first link leads to a neighbour whose device
bears the address in the entry.

This takes hosts that start as they do, and applications that leave the protocol number of the
advertisements alone.

## Main results

* `Network.Sound.step` — what one event preserves
* `Network.run_sound` — no distance is less than the number of hops
-/

namespace LabNetstack

open DistanceVector

variable {ι τ : Type*} {topo : Topology ι}

/-! ### Entries -/

/-- The entry has come from a neighbour that is one hop nearer. -/
def Heard (topo : Topology ι) (v : ι) (e : RouteEntry) : Prop :=
  ∃ u device d source k, device ∈ topo.devices u ∧ (v, d) ∈ topo.links u device ∧
    e.device = d.address ∧ source ∈ topo.devices u ∧ e.macAddr = source.macAddr ∧
    e.dist.toNat = k + 1 ∧ Path topo.Hears topo.Owns e.ipAddr u k

/-- An entry of `v` is about a device of its own, or has been heard. -/
structure SoundEntry (topo : Topology ι) (limit : ℕ) (v : ι) (e : RouteEntry) : Prop where
  mask : e.mask = BROAD_IP
  dist : e.dist.toNat ≤ limit
  origin : (∃ device ∈ topo.devices v, e = defaultEntry device) ∨ Heard topo v e

namespace SoundEntry

variable {limit limit' : ℕ} {u v : ι} {e : RouteEntry}

/-- **Behind a distance** there are as many links. -/
theorem path (h : SoundEntry topo limit v e) :
    Path topo.Hears topo.Owns e.ipAddr v e.dist.toNat := by
  rcases h.origin with ⟨device, hdevice, rfl⟩ | ⟨u, device, d, source, k, hdevice, hlink, -, -, -,
    hdist, hpath⟩
  · exact .here ⟨device, hdevice, rfl⟩
  · rw [hdist]
    exact .hop ⟨device, hdevice, d, hlink⟩ hpath

theorem mono (h : SoundEntry topo limit v e) (hle : limit ≤ limit') : SoundEntry topo limit' v e :=
  ⟨h.mask, h.dist.trans hle, h.origin⟩

theorem nonempty (h : SoundEntry topo limit v e) : topo.devices v ≠ [] := by
  rcases h.origin with ⟨device, hdevice, -⟩ | ⟨u, device, d, -, -, -, hlink, -⟩
  · exact List.ne_nil_of_mem hdevice
  · exact List.ne_nil_of_mem (topo.mem_devices hlink)

theorem default {device : Device} (hdevice : device ∈ topo.devices v) (limit : ℕ) :
    SoundEntry topo limit v (defaultEntry device) :=
  ⟨rfl, Nat.zero_le _, Or.inl ⟨device, hdevice, rfl⟩⟩

/-- What is advertised is learnt with one hop more. -/
theorem learnEntry (h : SoundEntry topo 20 u e) {device d source : Device}
    (hdevice : device ∈ topo.devices u) (hlink : (v, d) ∈ topo.links u device)
    (hsource : source ∈ topo.devices u) :
    SoundEntry topo 21 v (learnEntry d source.macAddr e) := by
  have hdist := (Mesh.learned_learnEntry d source.macAddr e).dist_toNat h.dist
  have hle := h.dist
  exact ⟨h.mask, by omega,
    Or.inr ⟨u, device, d, source, _, hdevice, hlink, rfl, hsource, rfl, hdist, h.path⟩⟩

end SoundEntry

/-! ### The network -/

namespace Network

/-- What may be under way to a device of `v`: a sound table, or something else altogether. -/
inductive SoundFrame (topo : Topology ι) (v : ι) (d : Device) : List Byte → Prop
  | advert {u : ι} {device source : Device} {table : List RouteEntry}
      (hdevice : device ∈ topo.devices u) (hlink : (v, d) ∈ topo.links u device)
      (hsource : source ∈ topo.devices u) (hfit : table.length ≤ maxEntries)
      (htable : ∀ e ∈ table, SoundEntry topo 20 u e) (srcMac : MacAddr) (id : ℕ) :
      SoundFrame topo v d (packetFrame BROAD_MAC srcMac (ipPacket source.ipAddr BROAD_IP
        ROUTE_PROTOCOL (routeAdvert table source.macAddr) id))
  | packet {src dest : IPAddr} {proto : BitVec 8} {buf : List Byte}
      (hproto : proto ≠ ROUTE_PROTOCOL) (hfit : buf.length ≤ 0x10000 - 34) (id : ℕ)
      (destMac srcMac : MacAddr) :
      SoundFrame topo v d (packetFrame destMac srcMac (ipPacket src dest proto buf id))
  | request (source : Device) (dstPAddr : IPAddr) :
      SoundFrame topo v d (arpFrame (arpRequest source dstPAddr) BROAD_MAC source)

/-- The tables of a node. -/
structure SoundTables (topo : Topology ι) (v : ι) (host : Host τ) : Prop where
  online : ∀ e ∈ host.onlineRouteTable, SoundEntry topo 20 v e
  own : ∀ device ∈ topo.devices v, Reports host.onlineRouteTable device.ipAddr 0
  tmp : ∀ e ∈ host.tmpRouteTable, SoundEntry topo 21 v e

structure Sound (topo : Topology ι) (s : Mesh ι τ) : Prop where
  tables : ∀ v, SoundTables topo v (s.host v)
  air : ∀ copy ∈ s.air, SoundFrame topo copy.1 copy.2.1 copy.2.2

/-- No application sends what the receivers take for an advertisement. -/
def Event.Polite : Event ι → Prop
  | .call _ (.sendIPPacket _ _ proto _ _) => proto ≠ ROUTE_PROTOCOL
  | _ => True

variable {callbacks : List (TCPPacketReceiveCallback τ)} {s s' : Mesh ι τ} {host host' : Host τ}
  {v : ι} {action : NetworkLayer.Action}

/-! ### One call -/

/-- Of all calls only an update changes the tables. -/
theorem step_tables
    (hcall : ∀ chance device pkthdr pktdata, action ≠ .handleFrame chance device pkthdr pktdata)
    (hstep : NetworkLayer.step callbacks action host = some host') :
    (host'.onlineRouteTable = host.onlineRouteTable ∧ host'.tmpRouteTable = host.tmpRouteTable) ∨
      ∃ now sorted, action = .updateRouteTable now sorted ∧
        tooEarly updateInterval now host.lastUpdate = false ∧
        IsQsort (addDefaultRouteTable host.deviceList host.tmpRouteTable) sorted ∧
        host'.onlineRouteTable = removeDuplicates sorted ∧ host'.tmpRouteTable = [] := by
  cases action with
  | setRoutingTable dest mask nextHopMAC deviceName =>
    obtain rfl := Option.some.inj hstep
    rw [LabNetstack.setRoutingTable]
    split <;> exact Or.inl ⟨rfl, rfl⟩
  | handleFrame chance device pkthdr pktdata =>
    exact absurd rfl (hcall chance device pkthdr pktdata)
  | broadcastRouteTable now =>
    obtain rfl := Option.some.inj hstep
    obtain ⟨wire, id, tasks, lastBroad, hrun⟩ := broadcastRouteTable_frame now host
    rw [hrun]
    exact Or.inl ⟨rfl, rfl⟩
  | updateRouteTable now sorted =>
    rw [NetworkLayer.step, LabNetstack.updateRouteTable] at hstep
    split_ifs at hstep with hearly hsort
    · exact Option.some.inj hstep ▸ Or.inl ⟨rfl, rfl⟩
    · exact Option.some.inj hstep ▸
        Or.inr ⟨now, sorted, rfl, Bool.not_eq_true _ ▸ hearly, hsort, rfl, rfl⟩
  | sendIPPacket src dest proto buf noRetry =>
    obtain rfl := Option.some.inj hstep
    obtain ⟨wire, id, tasks, hsend, -⟩ := sendIPPacket_frame src dest proto buf noRetry host
    rw [hsend]
    exact Or.inl ⟨rfl, rfl⟩
  | processResendIPTask =>
    obtain rfl := Option.some.inj hstep
    obtain ⟨wire, id, hrun⟩ := processResendIPTask_frame host
    rw [hrun]
    exact Or.inl ⟨rfl, rfl⟩
  | sendARPRequest dstPAddr =>
    have hsend : (sendARPRequest dstPAddr host).1 = host' := Option.some.inj hstep
    rw [sendARPRequest_eq] at hsend
    exact hsend ▸ Or.inl ⟨rfl, rfl⟩
  | setRandomDropRate num =>
    obtain rfl := Option.some.inj hstep
    exact Or.inl ⟨rfl, rfl⟩

/-- What `removeDuplicates` makes of the collected entries. -/
theorem SoundTables.spec (h : SoundTables topo v host) (hdevices : host.deviceList = topo.devices v)
    {sorted : List RouteEntry}
    (hsort : IsQsort (addDefaultRouteTable host.deviceList host.tmpRouteTable) sorted) :
    (∀ e ∈ removeDuplicates sorted, SoundEntry topo 20 v e) ∧
      ((removeDuplicates sorted).map RouteEntry.ipAddr).Nodup ∧
      ∀ a k, Reports (removeDuplicates sorted) a k ↔ k ≤ 20 ∧
        IsLeast {k | Reports (addDefaultRouteTable host.deviceList host.tmpRouteTable) a k} k := by
  have hcollected : ∀ e ∈ addDefaultRouteTable host.deviceList host.tmpRouteTable,
      SoundEntry topo 21 v e := by
    intro e he
    rcases List.mem_append.mp he with hheard | hdefault
    · exact h.tmp e hheard
    · obtain ⟨device, hdevice, rfl⟩ := List.mem_map.mp hdefault
      exact .default (hdevices ▸ hdevice) 21
  -- a single entry is about the single device
  have hsingle : ∀ e, addDefaultRouteTable host.deviceList host.tmpRouteTable = [e] →
      e.dist ≤ 20 := by
    intro e hone
    have hsound := hcollected e (hone ▸ List.mem_singleton_self e)
    have hne : host.deviceList.map defaultEntry ≠ [] :=
      List.map_eq_nil_iff.not.mpr (hdevices ▸ hsound.nonempty)
    rw [addDefaultRouteTable] at hone
    obtain ⟨-, hdefault⟩ | ⟨-, hnil⟩ := List.append_eq_singleton_iff.mp hone
    · obtain ⟨device, -, rfl⟩ := List.mem_map.mp (hdefault ▸ List.mem_singleton_self e)
      exact Nat.zero_le _
    · exact absurd hnil hne
  obtain ⟨hmem, hnodup, hreports⟩ :=
    removeDuplicates_spec hsort (fun e he => (hcollected e he).mask) hsingle
  refine ⟨fun e he => ?_, hnodup, hreports⟩
  obtain ⟨hfrom, hdist⟩ := hmem e he
  exact ⟨(hcollected e hfrom).mask, hdist, (hcollected e hfrom).origin⟩

/-- **An update** takes the nearest of what was heard and of what the host owns. -/
theorem SoundTables.update (h : SoundTables topo v host)
    (hdevices : host.deviceList = topo.devices v) {sorted : List RouteEntry}
    (hsort : IsQsort (addDefaultRouteTable host.deviceList host.tmpRouteTable) sorted)
    (honline : host'.onlineRouteTable = removeDuplicates sorted)
    (htmp : host'.tmpRouteTable = []) : SoundTables topo v host' := by
  obtain ⟨hentries, -, hreports⟩ := h.spec hdevices hsort
  refine ⟨honline ▸ hentries, fun device hdevice => ?_, fun e he => absurd (htmp ▸ he)
    List.not_mem_nil⟩
  rw [honline]
  refine (hreports _ _).mpr ⟨Nat.zero_le _, ⟨defaultEntry device, ?_, rfl, rfl⟩, fun _ _ =>
    Nat.zero_le _⟩
  exact List.mem_append_right _ (List.mem_map_of_mem (hdevices ▸ hdevice))

/-- What a polite call hands over is sound at the other end of the link. -/
theorem Emits.sound {out : Device × List Byte} (h : Emits host action out)
    (hpolite : (Event.call v action).Polite) (hdevices : host.deviceList = topo.devices v)
    (honline : ∀ e ∈ host.onlineRouteTable, SoundEntry topo 20 v e) {w : ι} {d : Device}
    (hlink : (w, d) ∈ topo.links v out.1) : SoundFrame topo w d out.2 := by
  cases h with
  | packet hdevice hpos hfit id destMac => exact .packet hpolite hfit id _ _
  | advert hsource hdevice hfit id =>
    exact .advert (hdevices ▸ hdevice) hlink (hdevices ▸ hsource) hfit honline _ id
  | request hdevice => exact .request _ _

/-! ### One frame -/

/-- **An advertisement is learnt**; anything else leaves the tables alone, and what is sent on is
something else again. -/
theorem SoundTables.receive (h : SoundTables topo v host) {d : Device} {frame : List Byte}
    (hframe : SoundFrame topo v d frame) (hwire : host.wire = []) {chance : Chance}
    (hstep : NetworkLayer.step callbacks
      (.handleFrame chance d ⟨BitVec.ofNat 32 frame.length⟩ frame) host = some host') :
    SoundTables topo v host' ∧ ∀ out ∈ host'.wire, ∀ w d', SoundFrame topo w d' out.2 := by
  have hnone : ∀ out ∈ host.wire, ∀ w d', SoundFrame topo w d' out.2 :=
    fun out hout => absurd (hwire ▸ hout) List.not_mem_nil
  rw [NetworkLayer.step] at hstep
  split_ifs at hstep
  cases hframe with
  | request source dstPAddr =>
    rw [handleFrame_request] at hstep
    obtain rfl := Option.some.inj hstep
    exact ⟨h, hnone⟩
  | @packet src dest proto buf hproto hfit id destMac srcMac =>
    rcases handleFrame_packet_cases hfit hstep with rfl | ⟨-, mid, hmid, hlast⟩ | ⟨-, rfl⟩
    · exact ⟨h, hnone⟩
    · have hsame : handleRouteTable buf (BitVec.ofNat 32 buf.length)
          (sentHeader src dest proto buf.length id) d host = some host := if_pos hproto
      obtain rfl := Option.some.inj (hsame.symm.trans hmid)
      obtain ⟨upper, rfl⟩ := handleTCPPacket_frame hlast
      exact ⟨⟨h.online, h.own, h.tmp⟩, hnone⟩
    · refine ⟨⟨h.online, h.own, h.tmp⟩, fun out hout w d' => ?_⟩
      have hout : out ∈ host.wire ++ _ := hout
      rw [hwire, List.nil_append] at hout
      obtain ⟨dstmac, -, hpacket⟩ := Journey.mem_frames.mp hout
      rw [hpacket]
      exact .packet hproto hfit id dstmac _
  | @advert u device source table hdevice hlink hsource hfit htable srcMac id =>
    have hlen := length_routeAdvert table source.macAddr
    have hmax : table.length ≤ 2046 := hfit
    rcases handleFrame_packet_cases (by omega) hstep with rfl | ⟨-, mid, hmid, hlast⟩ | ⟨hother, -⟩
    · exact ⟨h, hnone⟩
    · rw [handleRouteTable_advert hfit source.macAddr rfl] at hmid
      obtain rfl := Option.some.inj hmid
      obtain ⟨upper, rfl⟩ := handleTCPPacket_frame hlast
      refine ⟨⟨h.online, h.own, fun e he => ?_⟩, hnone⟩
      rcases List.mem_append.mp he with hold | hlearnt
      · exact h.tmp e hold
      · obtain ⟨e₀, he₀, rfl⟩ := List.mem_map.mp hlearnt
        exact (htable e₀ he₀).learnEntry hdevice hlink hsource
    · -- a broadcast is for everyone
      rw [isMyPacket, Bool.or_eq_false_iff] at hother
      exact absurd rfl (of_decide_eq_false hother.1)

/-! ### All the time -/

variable [DecidableEq ι] {upper : ι → τ} {events : List (Event ι)}

theorem Sound.put (h : Sound topo s) (v : ι) (htables : SoundTables topo v host)
    (hwire : ∀ out ∈ host.wire, ∀ w d, (w, d) ∈ topo.links v out.1 →
      SoundFrame topo w d out.2) : Sound topo (s.put topo v host) := by
  refine ⟨fun w => ?_, fun copy hcopy => ?_⟩
  · rw [Mesh.host_put]
    split_ifs with hw
    · subst hw
      exact ⟨htables.online, htables.own, htables.tmp⟩
    · exact h.tables w
  · rcases List.mem_append.mp hcopy with hair | hnew
    · exact h.air copy hair
    · obtain ⟨device, hout, hlink⟩ := Mesh.mem_copies.mp hnew
      exact hwire (device, copy.2.2) hout _ _ hlink

omit [DecidableEq ι] in
theorem Sound.degrades (h : Sound topo s) {air : List (ι × Device × List Byte)}
    (hair : Channel.Degrades s.air air) : Sound topo { s with air := air } where
  tables := h.tables
  air := hair.forall_mem h.air

/-- **One event.** -/
theorem Sound.step (h : Sound topo s) (hgenuine : Genuine topo events s) {event : Event ι}
    (hpolite : event.Polite) (hstep : step topo callbacks event s = some s') : Sound topo s' := by
  cases event with
  | call v action =>
    by_cases hcall : ∀ chance device pkthdr pktdata,
        action ≠ .handleFrame chance device pkthdr pktdata
    swap
    · push Not at hcall
      obtain ⟨chance, device, pkthdr, pktdata, rfl⟩ := hcall
      cases hstep
    have hstep : (NetworkLayer.step callbacks action (s.host v)).map (s.put topo v) = some s' := by
      rw [← hstep, Network.step]
      exact hcall
    obtain ⟨new, hnew, rfl⟩ := Option.map_eq_some_iff.mp hstep
    have hdevices := (hgenuine.quiet v).linked.devices
    obtain ⟨-, -, hsent⟩ := (hgenuine.quiet v).call (hgenuine.wire v) hcall hnew
    have htables : SoundTables topo v new := by
      rcases step_tables hcall hnew with
        ⟨honline, htmp⟩ | ⟨now, sorted, -, -, hsort, honline, htmp⟩
      · exact ⟨honline ▸ (h.tables v).online, honline ▸ (h.tables v).own, htmp ▸ (h.tables v).tmp⟩
      · exact (h.tables v).update hdevices hsort honline htmp
    refine h.put v htables fun out hout w d hlink => ?_
    exact (hsent out hout).sound hpolite hdevices (h.tables v).online hlink
  | receive i chance =>
    simp only [Network.step] at hstep
    split at hstep
    · cases hstep
    next v device frame hi =>
      obtain ⟨new, hnew, rfl⟩ := Option.map_eq_some_iff.mp hstep
      obtain ⟨htables, hsent⟩ :=
        (h.tables v).receive (h.air _ (List.mem_of_getElem? hi)) (hgenuine.wire v) hnew
      refine (h.degrades (Channel.degrades_lose i s.air)).put v htables fun out hout w d _ => ?_
      exact hsent out hout w d
  | lose i =>
    obtain rfl := Option.some.inj hstep
    exact h.degrades (Channel.degrades_lose i s.air)
  | repeatAt i =>
    obtain rfl := Option.some.inj hstep
    exact h.degrades (Channel.degrades_repeatAt i s.air)

omit [DecidableEq ι] in
theorem sound_start (upper : ι → τ) : Sound topo (start topo upper) where
  tables v :=
    { online := fun e he => by
        obtain ⟨device, hdevice, rfl⟩ := List.mem_map.mp he
        exact .default hdevice 20
      own := fun device hdevice => ⟨_, List.mem_map_of_mem hdevice, rfl, rfl⟩
      tmp := fun e he => absurd he List.not_mem_nil }
  air _ hcopy := absurd hcopy List.not_mem_nil

/-- Every state of every run is sound. -/
theorem sound_of_run (hpolite : ∀ event ∈ events, event.Polite)
    (hrun : Run.run (step topo callbacks) events (start topo upper) = some s) : Sound topo s := by
  refine (Run.invariant_history (p := fun events s => Genuine topo events s ∧
    ((∀ event ∈ events, event.Polite) → Sound topo s)) ?_
      ⟨genuine_start upper, fun _ => sound_start upper⟩ hrun).2 hpolite
  rintro events event s s' ⟨hgenuine, hsound⟩ hstep
  refine ⟨(hgenuine.step hstep).1, fun hall => ?_⟩
  exact (hsound fun e he => hall e (List.mem_append_left _ he)).step hgenuine
    (hall event (List.mem_append_right _ (List.mem_singleton_self _))) hstep

/-- **No distance is made up.** In whatever order the hosts broadcast and update, whatever the links
lose or carry twice, and whatever else is sent: each entry of an online table is about a device of
the host or has come from a neighbour one hop nearer, it is not nearer than the address really is,
and a host always knows its own addresses. -/
theorem run_sound (hpolite : ∀ event ∈ events, event.Polite)
    (hrun : Run.run (step topo callbacks) events (start topo upper) = some s) (v : ι) :
    (∀ e ∈ (s.host v).onlineRouteTable, SoundEntry topo 20 v e) ∧
    (∀ e ∈ (s.host v).onlineRouteTable, ∀ k, topo.IsHopDist v e.ipAddr k → k ≤ e.dist.toNat) ∧
    ∀ a, topo.Owns v a → Reports (s.host v).onlineRouteTable a 0 := by
  have htables := (sound_of_run hpolite hrun).tables v
  refine ⟨htables.online, fun e he k hk => hk.2 (htables.online e he).path, ?_⟩
  rintro a ⟨device, hdevice, rfl⟩
  exact htables.own device hdevice

/-- The node in the middle broadcasts, the links repeat one of its frames and lose another, and the
first node learns of two addresses. -/
def firstLesson : List (Event (Fin 3)) :=
  [.call 1 (.broadcastRouteTable 0), .receive 0 ⟨0, 0⟩, .repeatAt 0, .lose 1,
    .call 0 (.updateRouteTable 0 (defaultEntry (Mesh.lineDevice 1) ::
      [Mesh.lineDevice 2, Mesh.lineDevice 3].map fun device =>
        learnEntry (Mesh.lineDevice 1) (Mesh.lineDevice 2).macAddr (defaultEntry device)))]

theorem run_sound_firstLesson : ∃ s : Mesh (Fin 3) Unit,
    (s.host 0).onlineRouteTable.length = 3 ∧
    (∀ e ∈ (s.host 0).onlineRouteTable, SoundEntry Mesh.lineTopology 20 0 e) ∧
    (∀ e ∈ (s.host 0).onlineRouteTable, ∀ k,
      Mesh.lineTopology.IsHopDist 0 e.ipAddr k → k ≤ e.dist.toNat) ∧
    ∀ a, Mesh.lineTopology.Owns 0 a → Reports (s.host 0).onlineRouteTable a 0 := by
  have hrun : ∃ s, Run.run (step Mesh.lineTopology []) firstLesson
      (start Mesh.lineTopology fun _ => ()) = some s ∧
        (s.host 0).onlineRouteTable.length = 3 := ⟨_, rfl, rfl⟩
  obtain ⟨s, hrun, hlen⟩ := hrun
  refine ⟨s, hlen, run_sound (fun event hevent => ?_) hrun 0⟩
  simp only [firstLesson, List.mem_cons, List.not_mem_nil, or_false] at hevent
  rcases hevent with rfl | rfl | rfl | rfl | rfl <;> trivial

end Network

end LabNetstack
