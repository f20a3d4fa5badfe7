import LabNetstack.Routing.Sending

/-!
# What a host learns of an advertisement

`handleRouteTable` takes the length of its payload less six for the size of a table, and adds one to
each distance it finds there. Both in 32 bits, and neither is looked at before: of a payload that is
shorter than an address the table would be as large as the address space, and a distance of
`0xffffffff` comes out as zero, which is what the entries of the own devices have. For every other
payload it learns what there is to learn, and then a zero in the online table means one of them.

## Main results

* `learns_iff` — when an advertisement is learnt as it should be
* `advert_sound` — and what the online table then has at distance zero, whatever came before
-/

namespace LabNetstack

open Layout

variable {τ : Type*}

/-! ### One advertisement -/

/-- The entries of a payload of that length: none, if there is no room behind six bytes. -/
def heardEntries (buf : List Byte) (len : BitVec 32) : List RouteEntry :=
  RouteEntry.layout.readArray ((len.toNat - 6) / 32) buf

/-- Nothing outside of the payload is read, what had been collected stays, and behind it stands an
entry for each that is advertised, farther away than it says. -/
def Learns (buf : List Byte) (len : BitVec 32) (ipHeader : IpHeader) (device : Device)
    (host : Host τ) : Prop :=
  ∃ learnt, handleRouteTable buf len ipHeader device host =
      some { host with tmpRouteTable := host.tmpRouteTable ++ learnt } ∧
    learnt.length = (if 6 ≤ len.toNat then (len.toNat - 6) / 32 else 0) ∧
    List.Forall₂ (fun heard e => heard.dist < e.dist) (heardEntries buf len) learnt

/-- There is room for the address, and no entry is as far away as can be. -/
def SoundAdvert (buf : List Byte) (len : BitVec 32) : Prop :=
  6 ≤ len.toNat ∧ ∀ e ∈ heardEntries buf len, e.dist ≠ 0xffffffff

instance (buf : List Byte) (len : BitVec 32) : Decidable (SoundAdvert buf len) :=
  inferInstanceAs (Decidable (_ ∧ _))

theorem length_heardEntries (buf : List Byte) (len : BitVec 32) :
    (heardEntries buf len).length = (len.toNat - 6) / 32 := by
  rw [heardEntries, Struct.readArray, List.length_map, List.length_range]

theorem dist_lt_learnEntry_iff (device : Device) (macAddr : MacAddr) (e : RouteEntry) :
    e.dist < (learnEntry device macAddr e).dist ↔ e.dist ≠ 0xffffffff := by
  have hlt := e.dist.isLt
  rw [learnEntry, BitVec.lt_def, BitVec.toNat_add, Ne, BitVec.toNat_eq]
  change e.dist.toNat < (e.dist.toNat + 1) % 2 ^ 32 ↔ ¬ e.dist.toNat = 4294967295
  omega

variable {buf : List Byte} {len : BitVec 32} {ipHeader : IpHeader} {device : Device}
  {host host' : Host τ}

/-- The subtraction does not wrap. -/
theorem count_of_le (hlong : 6 ≤ len.toNat) :
    (len - BitVec.ofNat 32 MacAddr.layout.size).toNat / RouteEntry.layout.size =
      (len.toNat - 6) / 32 := by
  have hlt := len.isLt
  rw [MacAddr.size_layout, RouteEntry.size_layout, BitVec.toNat_sub, BitVec.toNat_ofNat]
  omega

/-- What the call does, if it gets through. -/
theorem handleRouteTable_long (hproto : ipHeader.protocol = ROUTE_PROTOCOL)
    (hlong : 6 ≤ len.toNat) (h : handleRouteTable buf len ipHeader device host = some host') :
    ∃ macAddr, host' = { host with
      tmpRouteTable :=
        host.tmpRouteTable ++ (heardEntries buf len).map (learnEntry device macAddr) } := by
  rw [handleRouteTable, if_neg (not_not.mpr hproto), count_of_le hlong] at h
  dsimp only at h
  split at h
  · next macAddr entries _ hentries =>
    rw [Struct.readArray?] at hentries
    split_ifs at hentries
    obtain rfl := Option.some.inj hentries
    exact ⟨macAddr, (Option.some.inj h).symm⟩
  · exact absurd h (Option.some_ne_none _).symm

/-- It does get through a payload that has room for an address. -/
theorem isSome_handleRouteTable (hlen : buf.length = len.toNat) (hlong : 6 ≤ len.toNat)
    (ipHeader : IpHeader) (device : Device) (host : Host τ) :
    (handleRouteTable buf len ipHeader device host).isSome := by
  have hentries : RouteEntry.layout.size * ((len.toNat - 6) / 32) ≤ buf.length := by
    rw [RouteEntry.size_layout, hlen]
    omega
  have hmac : MacAddr.layout.size ≤ (buf.drop (len.toNat - MacAddr.layout.size)).length := by
    rw [List.length_drop, MacAddr.size_layout, hlen]
    omega
  rw [handleRouteTable, count_of_le hlong]
  dsimp only
  rw [Struct.readArray?, if_pos hentries, Struct.read?, if_pos hmac]
  split_ifs <;> rfl

/-- Of a shorter one it reads what is not there. -/
theorem handleRouteTable_short (hproto : ipHeader.protocol = ROUTE_PROTOCOL)
    (hlen : buf.length = len.toNat) (hshort : len.toNat < 6) :
    handleRouteTable buf len ipHeader device host = none := by
  have hmac : ¬ MacAddr.layout.size ≤ (buf.drop (len.toNat - MacAddr.layout.size)).length := by
    rw [List.length_drop, MacAddr.size_layout]
    omega
  rw [handleRouteTable, if_neg (not_not.mpr hproto), Struct.read?, if_neg hmac]

/-- **One advertisement.** It is learnt as it should be exactly if it is sound. -/
theorem learns_iff (hproto : ipHeader.protocol = ROUTE_PROTOCOL) (hlen : buf.length = len.toNat) :
    Learns buf len ipHeader device host ↔ SoundAdvert buf len := by
  by_cases hlong : 6 ≤ len.toNat
  · obtain ⟨host', hhandle⟩ := Option.isSome_iff_exists.mp
      (isSome_handleRouteTable hlen hlong ipHeader device host)
    obtain ⟨macAddr, rfl⟩ := handleRouteTable_long hproto hlong hhandle
    have hfarther : List.Forall₂ (fun heard e => heard.dist < e.dist) (heardEntries buf len)
        ((heardEntries buf len).map (learnEntry device macAddr)) ↔
        ∀ e ∈ heardEntries buf len, e.dist ≠ 0xffffffff := by
      rw [List.forall₂_map_right_iff, List.forall₂_same]
      simp only [dist_lt_learnEntry_iff]
    rw [SoundAdvert, ← hfarther]
    constructor
    · rintro ⟨learnt, hsome, -, hdist⟩
      have hlearnt := congrArg Host.tmpRouteTable (Option.some.inj (hhandle.symm.trans hsome))
      rw [List.append_cancel_left hlearnt]
      exact ⟨hlong, hdist⟩
    · rintro ⟨-, hdist⟩
      refine ⟨_, hhandle, ?_, hdist⟩
      rw [List.length_map, length_heardEntries, if_pos hlong]
  · refine iff_of_false ?_ fun hsound => hlong hsound.1
    rintro ⟨learnt, hsome, -⟩
    rw [handleRouteTable_short hproto hlen (Nat.lt_of_not_le hlong)] at hsome
    exact absurd hsome (Option.some_ne_none _).symm

/-! ### Any number of them -/

/-- What touches the tables of the protocol. -/
inductive RouteCall
  | handleRouteTable (buf : List Byte) (len : BitVec 32) (ipHeader : IpHeader) (device : Device)
  | updateRouteTable (now : ℕ) (sorted : List RouteEntry)

namespace RouteCall

def step : RouteCall → Host τ → Option (Host τ)
  | .handleRouteTable buf len ipHeader device, host =>
    LabNetstack.handleRouteTable buf len ipHeader device host
  | .updateRouteTable now sorted, host => LabNetstack.updateRouteTable now sorted host

/-- An advertisement is sound. -/
def Sound : RouteCall → Prop
  | .handleRouteTable buf len ipHeader _ =>
    ipHeader.protocol = ROUTE_PROTOCOL → SoundAdvert buf len
  | .updateRouteTable _ _ => True

end RouteCall

/-- Zero is the distance of the own devices, and of nothing that was heard. -/
structure OwnZeros (deviceList : List Device) (host : Host τ) : Prop where
  devices : host.deviceList = deviceList
  online : ∀ e ∈ host.onlineRouteTable, e.dist = 0 → ∃ device ∈ deviceList, e = defaultEntry device
  tmp : ∀ e ∈ host.tmpRouteTable, e.dist ≠ 0

theorem ownZeros_start (deviceList : List Device) (upper : τ) :
    OwnZeros deviceList (NetworkLayer.start deviceList upper) := by
  refine ⟨rfl, fun e he _ => ?_, fun e he => absurd he List.not_mem_nil⟩
  obtain ⟨device, hdevice, rfl⟩ := List.mem_map.mp he
  exact ⟨device, hdevice, rfl⟩

namespace OwnZeros

variable {deviceList : List Device}

theorem handleRouteTable (h : OwnZeros deviceList host)
    (hsound : ipHeader.protocol = ROUTE_PROTOCOL → SoundAdvert buf len)
    (hcall : handleRouteTable buf len ipHeader device host = some host') :
    OwnZeros deviceList host' := by
  by_cases hproto : ipHeader.protocol = ROUTE_PROTOCOL
  · obtain ⟨hlong, hdist⟩ := hsound hproto
    obtain ⟨macAddr, rfl⟩ := handleRouteTable_long hproto hlong hcall
    refine ⟨h.devices, h.online, fun e he => ?_⟩
    rcases List.mem_append.mp he with hold | hlearnt
    · exact h.tmp e hold
    · obtain ⟨heard, hheard, rfl⟩ := List.mem_map.mp hlearnt
      have hfarther := (dist_lt_learnEntry_iff device macAddr heard).mpr (hdist heard hheard)
      intro hzero
      rw [hzero] at hfarther
      exact BitVec.not_lt_zero hfarther
  · rw [LabNetstack.handleRouteTable, if_pos hproto] at hcall
    exact Option.some.inj hcall ▸ h

/-- What is published was heard or is one of the defaults. -/
theorem updateRouteTable (h : OwnZeros deviceList host) {now : ℕ} {sorted : List RouteEntry}
    (hcall : updateRouteTable now sorted host = some host') : OwnZeros deviceList host' := by
  obtain rfl | ⟨⟨hperm, -⟩, rfl⟩ := updateRouteTable_cases hcall
  · exact h
  refine ⟨h.devices, fun e he hzero => ?_, fun e he => absurd he List.not_mem_nil⟩
  rcases List.mem_append.mp (hperm.mem_iff.mp (mem_removeDuplicates he)) with hheard | hdefault
  · exact absurd hzero (h.tmp e hheard)
  · obtain ⟨device, hdevice, rfl⟩ := List.mem_map.mp hdefault
    exact ⟨device, h.devices ▸ hdevice, rfl⟩

theorem step (h : OwnZeros deviceList host) {call : RouteCall} (hsound : call.Sound)
    (hcall : call.step host = some host') : OwnZeros deviceList host' := by
  cases call with
  | handleRouteTable buf len ipHeader device => exact h.handleRouteTable hsound hcall
  | updateRouteTable now sorted => exact h.updateRouteTable hcall

theorem run (h : OwnZeros deviceList host) {calls : List RouteCall}
    (hsound : ∀ call ∈ calls, call.Sound)
    (hrun : Run.run RouteCall.step calls host = some host') : OwnZeros deviceList host' := by
  have hstep : ∀ (call : RouteCall) (t t' : Host τ), call.Sound → OwnZeros deviceList t →
      call.step t = some t' → OwnZeros deviceList t' :=
    fun _ _ _ hcall ht ht' => ht.step hcall ht'
  exact Run.invariant_of_meets hstep h (Run.meets_of_forall hsound) hrun

end OwnZeros

/-- **Advertisements.** One is learnt as it should be exactly if it is sound; and after any number
of sound ones and of updates, what the online table has at distance zero are the own devices. -/
theorem advert_sound (deviceList : List Device) (upper : τ) :
    (∀ (buf : List Byte) (len : BitVec 32) (ipHeader : IpHeader) (device : Device) (host : Host τ),
      buf.length = len.toNat → ipHeader.protocol = ROUTE_PROTOCOL →
        (Learns buf len ipHeader device host ↔ SoundAdvert buf len)) ∧
    ∀ (calls : List RouteCall) (host : Host τ), (∀ call ∈ calls, call.Sound) →
      Run.run RouteCall.step calls (NetworkLayer.start deviceList upper) = some host →
        ∀ e ∈ host.onlineRouteTable, e.dist = 0 → ∃ device ∈ deviceList, e = defaultEntry device :=
  ⟨fun _ _ _ _ _ hlen hproto => learns_iff hproto hlen,
    fun _ _ hsound hrun => ((ownZeros_start deviceList upper).run hsound hrun).online⟩

def routeHeader : IpHeader := sentHeader 2 BROAD_IP ROUTE_PROTOCOL 38 0

theorem advert_sound_near :
    Learns (routeAdvert [⟨7, BROAD_IP, 0, 1, BROAD_MAC⟩] BROAD_MAC) 38 routeHeader
      (Mesh.lineDevice 1) (NetworkLayer.start [Mesh.lineDevice 1] ()) :=
  ((advert_sound [Mesh.lineDevice 1] ()).1 _ 38 routeHeader _ _ rfl rfl).mpr (by decide)

/-! ### The two that wrap -/

/-- An entry as far away as can be, for an address that is nobody's. -/
def farthest : RouteEntry := ⟨7, BROAD_IP, 0, 0xffffffff, BROAD_MAC⟩

/-- It is heard, and published at distance zero. -/
def wrapped : List RouteCall :=
  [.handleRouteTable (routeAdvert [farthest] BROAD_MAC) 38 routeHeader (Mesh.lineDevice 1),
    .updateRouteTable 0 [defaultEntry (Mesh.lineDevice 1), ⟨7, BROAD_IP, 1, 0, BROAD_MAC⟩]]

theorem not_advert_sound :
    (¬ ∀ (buf : List Byte) (len : BitVec 32) (ipHeader : IpHeader) (device : Device)
      (host : Host Unit), buf.length = len.toNat → ipHeader.protocol = ROUTE_PROTOCOL →
        Learns buf len ipHeader device host) ∧
    ¬ ∀ (calls : List RouteCall) (host : Host Unit),
      Run.run RouteCall.step calls (NetworkLayer.start [Mesh.lineDevice 1] ()) = some host →
        ∀ e ∈ host.onlineRouteTable, e.dist = 0 →
          ∃ device ∈ [Mesh.lineDevice 1], e = defaultEntry device := by
  constructor
  · intro hclaim
    have hlearns := hclaim [] 0 routeHeader (Mesh.lineDevice 1)
      (NetworkLayer.start [Mesh.lineDevice 1] ()) rfl rfl
    have hlong := ((learns_iff rfl rfl).mp hlearns).1
    exact absurd hlong (by decide)
  · intro hclaim
    obtain ⟨device, hdevice, hentry⟩ := hclaim wrapped _ rfl ⟨7, BROAD_IP, 1, 0, BROAD_MAC⟩
      (List.mem_cons_of_mem _ (List.mem_singleton_self _)) rfl
    rw [List.mem_singleton.mp hdevice] at hentry
    exact absurd hentry (by decide)

end LabNetstack
