import LabNetstack.Routing.Mesh

/-!
# The tables converge

A round of the network is a round of the distance-vector protocol on the tables of its hosts. While
advertisements are collected, what a host has heard is what its neighbours' tables were at the
start of the round, in whatever order the copies arrive; the update then keeps the nearest of that.

## Main results

* `Mesh.Collecting.step` — what is known in the middle of a round
* `Mesh.Round.step` — a round of the hosts is a round of the protocol
* `Mesh.Rounds.converged` — after 21 rounds the tables hold the hop distances
-/

namespace LabNetstack

open DistanceVector

namespace Mesh

variable {ι τ : Type*} [DecidableEq ι] {topo : Topology ι}
  {callbacks : List (TCPPacketReceiveCallback τ)} {s s' : Mesh ι τ}

theorem host_put (s : Mesh ι τ) (v : ι) (host : Host τ) (w : ι) :
    (s.put topo v host).host w = if w = v then { host with wire := [] } else s.host w := by
  exact Function.update_apply ..

omit [DecidableEq ι] in
theorem mem_copies {v : ι} {sent : List (Device × List Byte)} {copy : ι × Device × List Byte} :
    copy ∈ copies topo v sent ↔
      ∃ device, (device, copy.2.2) ∈ sent ∧ (copy.1, copy.2.1) ∈ topo.links v device := by
  rw [copies, List.mem_flatMap]
  constructor
  · rintro ⟨⟨device, frame⟩, hsent, hcopy⟩
    obtain ⟨⟨u, device'⟩, hlink, rfl⟩ := List.mem_map.mp hcopy
    exact ⟨device, hsent, hlink⟩
  · rintro ⟨device, hsent, hlink⟩
    exact ⟨(device, copy.2.2), hsent, List.mem_map.mpr ⟨_, hlink, rfl⟩⟩

/-! ### Collecting -/

/-- What a host makes of an advertised entry, the device and the next hop aside. -/
structure Learned (e₀ e : RouteEntry) : Prop where
  ipAddr : e.ipAddr = e₀.ipAddr
  mask : e.mask = e₀.mask
  dist : e.dist = e₀.dist + 1

theorem learned_learnEntry (device : Device) (macAddr : MacAddr) (e : RouteEntry) :
    Learned e (learnEntry device macAddr e) := ⟨rfl, rfl, rfl⟩

/-- One hop more, as the distances are far from wrapping. -/
theorem Learned.dist_toNat {e₀ e : RouteEntry} (h : Learned e₀ e) (hdist : e₀.dist ≤ 20) :
    e.dist.toNat = e₀.dist.toNat + 1 := by
  have hle : e₀.dist.toNat ≤ 20 := hdist
  rw [h.dist, BitVec.toNat_add, show (1 : BitVec 32).toNat = 1 from rfl]
  omega

/-- In a round that began with these tables, when the nodes in `told` have broadcast theirs. -/
structure Collecting (topo : Topology ι) (table : ι → List RouteEntry) (told : ι → Prop)
    (s : Mesh ι τ) : Prop where
  deviceList : ∀ v, (s.host v).deviceList = topo.devices v
  wire : ∀ v, (s.host v).wire = []
  online : ∀ v, (s.host v).onlineRouteTable = table v
  air : ∀ copy ∈ s.air, ∃ u, topo.Hears copy.1 u ∧ IsAdvert (table u) copy.2.2
  tmp : ∀ v, ∀ e ∈ (s.host v).tmpRouteTable, ∃ u, topo.Hears v u ∧ ∃ e₀ ∈ table u, Learned e₀ e
  heard : ∀ u v, told u → topo.Hears v u →
    (∃ copy ∈ s.air, copy.1 = v ∧ IsAdvert (table u) copy.2.2) ∨
      ∀ e₀ ∈ table u, ∃ e ∈ (s.host v).tmpRouteTable, Learned e₀ e

namespace Collecting

variable {table : ι → List RouteEntry} {told : ι → Prop}

theorem broadcast (h : Collecting topo table told s) (hfit : ∀ v, (table v).length ≤ maxEntries)
    {v : ι} {now : ℕ} (hstep : step topo callbacks (.broadcast v now) s = some s') :
    Collecting topo table (fun u => told u ∨ u = v) s' := by
  simp only [step] at hstep
  split_ifs at hstep with hearly
  obtain ⟨id, sent, hhost, hsent, hall⟩ := broadcastRouteTable_eq
    (Bool.not_eq_true _ ▸ hearly) ((congrArg List.length (h.online v)).trans_le (hfit v))
  rw [h.deviceList, h.online] at hsent
  rw [h.deviceList] at hall
  rw [hhost, Option.some.injEq] at hstep
  have hhost' : ∀ w, (s'.host w).deviceList = (s.host w).deviceList ∧ (s'.host w).wire = [] ∧
      (s'.host w).onlineRouteTable = (s.host w).onlineRouteTable ∧
      (s'.host w).tmpRouteTable = (s.host w).tmpRouteTable := by
    intro w
    rw [← hstep, host_put]
    split_ifs with hw
    · subst hw
      exact ⟨rfl, rfl, rfl, rfl⟩
    · exact ⟨rfl, h.wire w, rfl, rfl⟩
  have hair : s'.air = s.air ++ copies topo v sent := by
    rw [← hstep, put, h.wire v]
    rfl
  constructor
  · exact fun w => (hhost' w).1.trans (h.deviceList w)
  · exact fun w => (hhost' w).2.1
  · exact fun w => (hhost' w).2.2.1.trans (h.online w)
  · intro copy hcopy
    rw [hair] at hcopy
    rcases List.mem_append.mp hcopy with hold | hnew
    · exact h.air copy hold
    · obtain ⟨device, hmem, hlink⟩ := mem_copies.mp hnew
      exact ⟨v, ⟨device, (hsent _ hmem).1, _, hlink⟩, (hsent _ hmem).2⟩
  · intro w e he
    rw [(hhost' w).2.2.2] at he
    exact h.tmp w e he
  · intro u w htold hhears
    rw [hair, (hhost' w).2.2.2]
    rcases htold with htold | rfl
    · rcases h.heard u w htold hhears with ⟨copy, hmem, hto⟩ | hknown
      · exact Or.inl ⟨copy, List.mem_append_left _ hmem, hto⟩
      · exact Or.inr hknown
    · -- one of the new copies goes to `w`
      obtain ⟨device, hdevice, device', hlink⟩ := hhears
      obtain ⟨frame, hframe⟩ := hall device hdevice
      exact Or.inl ⟨(w, device', frame), List.mem_append_right _ (mem_copies.mpr
        ⟨device, hframe, hlink⟩), rfl, (hsent _ hframe).2⟩

theorem receive (h : Collecting topo table told s) (hfit : ∀ v, (table v).length ≤ maxEntries)
    {i : ℕ} {chance : Chance} (hstep : step topo callbacks (.receive i chance) s = some s') :
    Collecting topo table told s' := by
  simp only [step] at hstep
  split at hstep
  · exact absurd hstep (Option.some_ne_none _).symm
  next v device frame hcopy =>
  obtain ⟨host, hhost, hput⟩ := Option.map_eq_some_iff.mp hstep
  -- whichever table the frame is an advertisement of, that one has been learnt
  have hlearn : ∀ u, IsAdvert (table u) frame → ∃ macAddr, host = { s.host v with
      tmpRouteTable := (s.host v).tmpRouteTable ++ (table u).map (learnEntry device macAddr) } := by
    intro u hadvert
    obtain ⟨macAddr, hrun⟩ :=
      receiveFrame_advert hadvert (hfit u) callbacks chance device (s.host v)
    exact ⟨macAddr, Option.some.inj (hhost.symm.trans hrun)⟩
  obtain ⟨u₀, hhears₀, hadvert₀⟩ := h.air _ (List.mem_of_getElem? hcopy)
  obtain ⟨macAddr, hhost₀⟩ := hlearn u₀ hadvert₀
  have hhost' : ∀ w, (s'.host w).deviceList = (s.host w).deviceList ∧ (s'.host w).wire = [] ∧
      (s'.host w).onlineRouteTable = (s.host w).onlineRouteTable ∧
      (s'.host w).tmpRouteTable = (s.host w).tmpRouteTable ++
        if w = v then (table u₀).map (learnEntry device macAddr) else [] := by
    intro w
    rw [← hput, host_put, hhost₀]
    split_ifs with hw
    · subst hw
      exact ⟨rfl, rfl, rfl, rfl⟩
    · exact ⟨rfl, h.wire w, rfl, (List.append_nil _).symm⟩
  have hair : s'.air = s.air.eraseIdx i := by
    have hwire : host.wire = [] := by rw [hhost₀]; exact h.wire v
    rw [← hput, put, hwire]
    exact List.append_nil _
  constructor
  · exact fun w => (hhost' w).1.trans (h.deviceList w)
  · exact fun w => (hhost' w).2.1
  · exact fun w => (hhost' w).2.2.1.trans (h.online w)
  · intro copy hcopy
    rw [hair] at hcopy
    exact h.air copy (List.mem_of_mem_eraseIdx hcopy)
  · intro w e he
    rw [(hhost' w).2.2.2] at he
    rcases List.mem_append.mp he with hold | hnew
    · exact h.tmp w e hold
    · split_ifs at hnew with hw
      · obtain ⟨e₀, he₀, rfl⟩ := List.mem_map.mp hnew
        exact ⟨u₀, hw ▸ hhears₀, e₀, he₀, learned_learnEntry ..⟩
      · exact absurd hnew (List.not_mem_nil)
  · intro u w htold hhears
    rcases h.heard u w htold hhears with ⟨copy, hmem, rfl, hadvert⟩ | hknown
    · obtain ⟨j, hj⟩ := List.mem_iff_getElem?.mp hmem
      by_cases hij : j = i
      · -- this is the copy that arrives
        obtain rfl : copy = (v, device, frame) := Option.some.inj (hj.symm.trans (hij ▸ hcopy))
        obtain ⟨macAddr', hhost₁⟩ := hlearn u hadvert
        refine Or.inr fun e₀ he₀ => ⟨learnEntry device macAddr' e₀, ?_, learned_learnEntry ..⟩
        rw [← hput, host_put, if_pos rfl, hhost₁]
        exact List.mem_append_right _ (List.mem_map_of_mem he₀)
      · exact Or.inl ⟨copy, hair ▸ List.mem_eraseIdx_iff_getElem?.mpr ⟨j, hij, hj⟩, rfl, hadvert⟩
    · refine Or.inr fun e₀ he₀ => ?_
      obtain ⟨e, he, hlearned⟩ := hknown e₀ he₀
      exact ⟨e, (hhost' w).2.2.2 ▸ List.mem_append_left _ he, hlearned⟩

omit [DecidableEq ι] in
theorem mono (h : Collecting topo table told s) {told' : ι → Prop} (hle : ∀ u, told' u → told u) :
    Collecting topo table told' s :=
  { h with heard := fun u v htold => h.heard u v (hle u htold) }

/-- Along the first part of a round: the nodes that have broadcast are those that the events say. -/
theorem run (hfit : ∀ v, (table v).length ≤ maxEntries) {events : List (Event ι)}
    (hcollects : ∀ event ∈ events, event.Collects) (h : Collecting topo table told s)
    (hrun : Run.run (step topo callbacks) events s = some s') :
    Collecting topo table (fun u => told u ∨ ∃ now, Event.broadcast u now ∈ events) s' := by
  induction events generalizing s told with
  | nil =>
    obtain rfl := Option.some.inj hrun
    refine h.mono fun u hu => ?_
    rcases hu with hu | ⟨now, hmem⟩
    · exact hu
    · exact absurd hmem (List.not_mem_nil)
  | cons event events ih =>
    obtain ⟨t, hstep, hnext⟩ := Option.bind_eq_some_iff.mp hrun
    have hrest : ∀ event ∈ events, event.Collects :=
      fun e he => hcollects e (List.mem_cons_of_mem _ he)
    cases event with
    | broadcast v now =>
      refine (ih hrest (h.broadcast hfit hstep) hnext).mono fun u hu => ?_
      rcases hu with hu | ⟨now', hmem⟩
      · exact Or.inl (Or.inl hu)
      · rcases List.mem_cons.mp hmem with heq | hmem
        · exact Or.inl (Or.inr (Event.broadcast.inj heq).1)
        · exact Or.inr ⟨now', hmem⟩
    | receive i chance =>
      refine (ih hrest (h.receive hfit hstep) hnext).mono fun u hu => ?_
      rcases hu with hu | ⟨now', hmem⟩
      · exact Or.inl hu
      · rcases List.mem_cons.mp hmem with heq | hmem
        · exact absurd heq (by simp)
        · exact Or.inr ⟨now', hmem⟩
    | update v now sorted => exact absurd (hcollects _ (List.mem_cons_self ..)) id

omit [DecidableEq ι] in
/-- When everything has arrived, what the update sorts is what the protocol offers. -/
theorem reports_iff (h : Collecting topo table told s) (htold : ∀ u, told u) (hair : s.air = [])
    (hdist : ∀ u, ∀ e ∈ table u, e.dist ≤ 20) (v : ι) (a : IPAddr) (k : ℕ) :
    Reports (addDefaultRouteTable (s.host v).deviceList (s.host v).tmpRouteTable) a k ↔
      Offered topo.Hears topo.Owns (fun u => Reports (table u)) v a k := by
  constructor
  · rintro ⟨e, he, rfl, rfl⟩
    rcases List.mem_append.mp he with htmp | hdefault
    · obtain ⟨u, hhears, e₀, he₀, hlearned⟩ := h.tmp v e htmp
      exact Or.inr ⟨u, _, hhears, ⟨e₀, he₀, hlearned.ipAddr.symm, rfl⟩,
        hlearned.dist_toNat (hdist u e₀ he₀)⟩
    · obtain ⟨device, hdevice, rfl⟩ := List.mem_map.mp hdefault
      exact Or.inl ⟨rfl, device, h.deviceList v ▸ hdevice, rfl⟩
  · rintro (⟨rfl, device, hdevice, rfl⟩ | ⟨u, j, hhears, ⟨e₀, he₀, rfl, rfl⟩, rfl⟩)
    · exact ⟨defaultEntry device, List.mem_append_right _ (List.mem_map_of_mem
        (h.deviceList v ▸ hdevice)), rfl, rfl⟩
    · rcases h.heard u v (htold u) hhears with ⟨copy, hmem, -⟩ | hknown
      · exact absurd (hair ▸ hmem) (List.not_mem_nil)
      · obtain ⟨e, he, hlearned⟩ := hknown e₀ he₀
        exact ⟨e, List.mem_append_left _ he, hlearned.ipAddr, hlearned.dist_toNat (hdist u e₀ he₀)⟩

end Collecting

/-! ### Updating -/

/-- What an update does to its host, the timer aside. -/
structure Updated (host host' : Host τ) : Prop where
  deviceList : host'.deviceList = host.deviceList
  wire : host'.wire = []
  tmp : host'.tmpRouteTable = []
  online : ∃ sorted, IsQsort (addDefaultRouteTable host.deviceList host.tmpRouteTable) sorted ∧
    host'.onlineRouteTable = removeDuplicates sorted

theorem update_step (hwire : ∀ w, (s.host w).wire = []) {v : ι} {now : ℕ} {sorted : List RouteEntry}
    (hstep : step topo callbacks (.update v now sorted) s = some s') :
    Updated (s.host v) (s'.host v) ∧ (∀ w, w ≠ v → s'.host w = s.host w) ∧ s'.air = s.air := by
  simp only [step] at hstep
  split_ifs at hstep with hearly
  obtain ⟨host, hhost, hput⟩ := Option.map_eq_some_iff.mp hstep
  rw [updateRouteTable, if_neg hearly] at hhost
  split_ifs at hhost with hsorted
  obtain rfl := Option.some.inj hhost
  refine ⟨?_, fun w hw => ?_, ?_⟩
  · rw [← hput, host_put, if_pos rfl]
    exact ⟨rfl, rfl, rfl, sorted, hsorted, rfl⟩
  · rw [← hput, host_put, if_neg hw]
  · rw [← hput, put, hwire v]
    exact List.append_nil _

/-- The second part of a round: a node is updated on what it had collected, whatever the others have
done before it. -/
theorem update_run {updates : List (ι × ℕ × List RouteEntry)}
    (hnodup : (updates.map Prod.fst).Nodup) (hwire : ∀ w, (s.host w).wire = [])
    (hrun : Run.run (step topo callbacks)
      (updates.map fun (v, now, sorted) => Event.update v now sorted) s = some s') :
    s'.air = s.air ∧ ∀ v, (v ∈ updates.map Prod.fst → Updated (s.host v) (s'.host v)) ∧
      (v ∉ updates.map Prod.fst → s'.host v = s.host v) := by
  induction updates generalizing s with
  | nil =>
    obtain rfl := Option.some.inj hrun
    exact ⟨rfl, fun v => ⟨fun hv => absurd hv (List.not_mem_nil), fun _ => rfl⟩⟩
  | cons update updates ih =>
    obtain ⟨v, now, sorted⟩ := update
    obtain ⟨t, hstep, hnext⟩ := Option.bind_eq_some_iff.mp hrun
    obtain ⟨hupdated, hothers, hair⟩ := update_step hwire hstep
    obtain ⟨hfresh, hnodup⟩ := List.nodup_cons.mp hnodup
    have hwire' : ∀ w, (t.host w).wire = [] := by
      intro w
      by_cases hw : w = v
      · rw [hw]
        exact hupdated.wire
      · rw [hothers w hw, hwire w]
    obtain ⟨hair', hrest⟩ := ih hnodup hwire' hnext
    refine ⟨hair'.trans hair, fun w => ⟨fun hw => ?_, fun hw => ?_⟩⟩
    · rcases List.mem_cons.mp hw with rfl | hw
      · rw [(hrest w).2 hfresh]
        exact hupdated
      · have hne : w ≠ v := fun heq => hfresh (heq ▸ hw)
        rw [← hothers w hne]
        exact (hrest w).1 hw
    · rw [List.map_cons, List.mem_cons, not_or] at hw
      rw [(hrest w).2 hw.2, hothers w hw.1]

/-! ### Rounds -/

/-- The tables of the protocol. -/
def tables (s : Mesh ι τ) : Tables ι IPAddr := fun v => Reports (s.host v).onlineRouteTable

variable {addresses : Finset IPAddr}

omit [DecidableEq ι] in
theorem Ready.collecting (h : Ready topo addresses s) :
    Collecting topo (fun v => (s.host v).onlineRouteTable) (fun _ => False) s where
  deviceList := h.deviceList
  wire := h.wire
  online _ := rfl
  air _ hcopy := absurd (h.air ▸ hcopy) (List.not_mem_nil)
  tmp v _ he := absurd (h.tmp v ▸ he) (List.not_mem_nil)
  heard _ _ htold := htold.elim

/-- The state at the end of the first part of a round. -/
theorem Round.collected (h : Ready topo addresses s) (hround : Round topo callbacks s s') :
    ∃ m, Collecting topo (fun v => (s.host v).onlineRouteTable) (fun _ => True) m ∧ m.air = [] ∧
      s'.air = [] ∧ ∀ v, Updated (m.host v) (s'.host v) := by
  obtain ⟨collect, m, updates, hcollects, hall, hrun, hair, hnodup, heach, hupdates⟩ := hround.split
  have hm : Collecting topo (fun v => (s.host v).onlineRouteTable) (fun _ => True) m :=
    (h.collecting.run h.length hcollects hrun).mono fun u _ => Or.inr (hall u)
  obtain ⟨hair', hupdated⟩ := update_run hnodup hm.wire hupdates
  exact ⟨m, hm, hair, hair'.trans hair, fun v => (hupdated v).1 (heach v)⟩

omit [DecidableEq ι] in
/-- What is sorted of a host that has a single entry to sort is its own: one that hears another node
has a device, and an entry for it. -/
theorem Collecting.dist_of_single {table : ι → List RouteEntry} {told : ι → Prop}
    (h : Collecting topo table told s) {v : ι} {e : RouteEntry}
    (hsingle : addDefaultRouteTable (s.host v).deviceList (s.host v).tmpRouteTable = [e]) :
    e.dist ≤ 20 := by
  rw [addDefaultRouteTable, List.append_eq_singleton_iff] at hsingle
  rcases hsingle with ⟨-, hdefault⟩ | ⟨htmp, hdefault⟩
  · have he : e ∈ (s.host v).deviceList.map defaultEntry := hdefault ▸ List.mem_singleton_self e
    obtain ⟨device, -, rfl⟩ := List.mem_map.mp he
    exact Nat.zero_le _
  · obtain ⟨u, ⟨device, -, device', hlink⟩, -⟩ := h.tmp v e (htmp ▸ List.mem_singleton_self e)
    have hdevice : device' ∈ (s.host v).deviceList := h.deviceList v ▸ topo.mem_devices hlink
    rw [List.map_eq_nil_iff.mp hdefault] at hdevice
    exact absurd hdevice (List.not_mem_nil)

/-- **One round.** The hosts are ready for the next one, no address is twice in a table, and the
tables have taken a step of the protocol. -/
theorem Round.step (h : Ready topo addresses s) (hround : Round topo callbacks s s') :
    Ready topo addresses s' ∧
      (∀ v, ((s'.host v).onlineRouteTable.map RouteEntry.ipAddr).Nodup) ∧
      Step topo.Hears topo.Owns 20 s.tables s'.tables := by
  obtain ⟨m, hm, hair, hair', hupdated⟩ := hround.collected h
  have hcollected : ∀ v, ∀ e ∈ addDefaultRouteTable (m.host v).deviceList (m.host v).tmpRouteTable,
      e.mask = BROAD_IP ∧ e.ipAddr ∈ addresses := by
    intro v e he
    rcases List.mem_append.mp he with htmp | hdefault
    · obtain ⟨u, -, e₀, he₀, hlearned⟩ := hm.tmp v e htmp
      rw [hlearned.mask, hlearned.ipAddr]
      exact ⟨h.mask u e₀ he₀, h.mem u e₀ he₀⟩
    · obtain ⟨device, hdevice, rfl⟩ := List.mem_map.mp hdefault
      exact ⟨rfl, h.owned v device (hm.deviceList v ▸ hdevice)⟩
  have hspec : ∀ v, (∀ e ∈ (s'.host v).onlineRouteTable,
        e ∈ addDefaultRouteTable (m.host v).deviceList (m.host v).tmpRouteTable ∧ e.dist ≤ 20) ∧
      ((s'.host v).onlineRouteTable.map RouteEntry.ipAddr).Nodup ∧
      ∀ a k, Reports (s'.host v).onlineRouteTable a k ↔ k ≤ 20 ∧
        IsLeast {k | Reports (addDefaultRouteTable (m.host v).deviceList
          (m.host v).tmpRouteTable) a k} k := by
    intro v
    obtain ⟨sorted, hsort, honline⟩ := (hupdated v).online
    rw [honline]
    exact removeDuplicates_spec hsort (fun e he => (hcollected v e he).1)
      fun e he => hm.dist_of_single he
  have hmem : ∀ v, ∀ e ∈ (s'.host v).onlineRouteTable, e.ipAddr ∈ addresses :=
    fun v e he => (hcollected v e ((hspec v).1 e he).1).2
  refine ⟨⟨hair', fun v => ((hupdated v).deviceList).trans (hm.deviceList v),
    fun v => (hupdated v).wire, fun v => (hupdated v).tmp,
    fun v e he => (hcollected v e ((hspec v).1 e he).1).1, fun v e he => ((hspec v).1 e he).2,
    fun v => ?_, hmem, h.owned, h.few⟩, fun v => (hspec v).2.1, fun v a k => ?_⟩
  · -- a table without repetition is no longer than the list of all addresses
    have hsub : ((s'.host v).onlineRouteTable.map RouteEntry.ipAddr).toFinset ⊆ addresses := by
      intro a ha
      obtain ⟨e, he, rfl⟩ := List.mem_map.mp (List.mem_toFinset.mp ha)
      exact hmem v e he
    calc (s'.host v).onlineRouteTable.length
        = ((s'.host v).onlineRouteTable.map RouteEntry.ipAddr).toFinset.card := by
          rw [List.toFinset_card_of_nodup (hspec v).2.1, List.length_map]
      _ ≤ addresses.card := Finset.card_le_card hsub
      _ ≤ maxEntries := h.few
  · have hoffered := hm.reports_iff (fun _ => trivial) hair h.dist v a
    rw [tables, (hspec v).2.2 a k]
    simp only [hoffered]
    rfl

/-- Rounds of the hosts are rounds of the protocol. -/
theorem Rounds.rounds (h : Ready topo addresses s) {n : ℕ}
    (hrounds : Rounds topo callbacks s n s') :
    Ready topo addresses s' ∧
      (0 < n → ∀ v, ((s'.host v).onlineRouteTable.map RouteEntry.ipAddr).Nodup) ∧
      DistanceVector.Rounds topo.Hears topo.Owns 20 s.tables n s'.tables := by
  induction hrounds with
  | zero => exact ⟨h, fun hn => absurd hn (Nat.lt_irrefl 0), .zero⟩
  | succ _ hround ih =>
    obtain ⟨hready, -, hsofar⟩ := ih
    obtain ⟨hready', hnodup, hstep⟩ := hround.step hready
    exact ⟨hready', fun _ => hnodup, hsofar.succ hstep⟩

/-- In a table without repetition an address has one entry. -/
theorem filter_ipAddr {table : List RouteEntry} (h : (table.map RouteEntry.ipAddr).Nodup)
    {e : RouteEntry} (he : e ∈ table) : (table.filter fun e' => e'.ipAddr = e.ipAddr) = [e] := by
  induction table with
  | nil => exact absurd he (List.not_mem_nil)
  | cons e₀ table ih =>
    obtain ⟨hfresh, hnodup⟩ := List.nodup_cons.mp h
    rcases List.mem_cons.mp he with rfl | he
    · have hnone : (table.filter fun e' => e'.ipAddr = e.ipAddr) = [] := by
        refine List.filter_eq_nil_iff.mpr fun e' he' heq => hfresh ?_
        exact of_decide_eq_true heq ▸ List.mem_map_of_mem he'
      rw [List.filter_cons_of_pos (by simp), hnone]
    · have hne : e₀.ipAddr ≠ e.ipAddr := fun heq => hfresh (heq ▸ List.mem_map_of_mem he)
      rw [List.filter_cons_of_neg (by simpa using hne), ih hnodup he]

/-- **Self-stabilisation.** Whatever the tables were, after 21 rounds each has exactly one entry for
every address that is at most 20 links away, with the number of links as its distance, and none for
any other address. -/
theorem Rounds.converged (h : Ready topo addresses s) {n : ℕ}
    (hrounds : Rounds topo callbacks s n s') (hn : 21 ≤ n) (v : ι) (a : IPAddr) :
    (∀ k ≤ 20, topo.IsHopDist v a k → ∃ e, ((s'.host v).onlineRouteTable.filter
      fun e => e.ipAddr = a) = [e] ∧ e.dist.toNat = k) ∧
    ((∀ k ≤ 20, ¬ topo.IsHopDist v a k) → ∀ e ∈ (s'.host v).onlineRouteTable, e.ipAddr ≠ a) := by
  obtain ⟨-, hnodup, hdv⟩ := hrounds.rounds h
  have hiff : ∀ k, Reports (s'.host v).onlineRouteTable a k ↔ k ≤ 20 ∧ topo.IsHopDist v a k :=
    fun k => hdv.eq_hopDist hn v a k
  constructor
  · intro k hk hdist
    obtain ⟨e, he, rfl, rfl⟩ := (hiff k).mpr ⟨hk, hdist⟩
    exact ⟨e, filter_ipAddr (hnodup (by omega) v) he, rfl⟩
  · rintro hfar e he rfl
    obtain ⟨hk, hdist⟩ := (hiff e.dist.toNat).mp ⟨e, he, rfl, rfl⟩
    exact hfar _ hk hdist

end Mesh

end LabNetstack
