import Mathlib.Tactic.IntervalCases
import LabNetstack.Lib.BoundedDelay
import LabNetstack.Routing.Progress
import LabNetstack.Routing.Soundness

/-!
# Convergence without rounds

No host waits for another. Its timers let it broadcast and update whenever they will, its frames are
lost, repeated and overtaken, and meanwhile the applications send. All that is asked of a stretch of
a run is that every host updates often enough, and that what an update rests on is not too old: of
each neighbour, an advertisement has arrived since the update before, of a table that the neighbour
had a bounded time ago.

However the tables came about before it, after `n` such periods every host has all that is at most
`n` links away, at its distance, and takes nothing else for as near.

## Main results

* `Network.keeps_step`, `Network.receive_advert` — what an event does to the entries of a host
* `Network.nearer_of_updates` — one update on what the neighbours had
* `Network.run_converges` — distances up to `n` are right after `n` periods
-/

namespace LabNetstack

open DistanceVector Layout

namespace Network

variable {ι τ : Type*} {topo : Topology ι} {callbacks : List (TCPPacketReceiveCallback τ)}
  {s s' : Mesh ι τ} {host host' : Host τ} {v : ι}

/-! ### What an event changes -/

/-- The online table is the same, and what has been collected is still there. -/
structure Keeps (host host' : Host τ) : Prop where
  online : host'.onlineRouteTable = host.onlineRouteTable
  tmp : host.tmpRouteTable ⊆ host'.tmpRouteTable

namespace Keeps

theorem rfl (host : Host τ) : Keeps host host := ⟨Eq.refl _, List.Subset.refl _⟩

theorem trans {host'' : Host τ} (h : Keeps host host') (h' : Keeps host' host'') :
    Keeps host host'' :=
  ⟨h'.online.trans h.online, List.Subset.trans h.tmp h'.tmp⟩

theorem handleARPPacket {packet : List Byte} {pktlen : BitVec 32} {ethHdr : EthHeader}
    {device : Device} (h : handleARPPacket packet pktlen ethHdr device host = some host') :
    Keeps host host' := by
  have hsize : ethHdr.type = ETHTYPE_ARP → ARPPacket.layout.size ≤ packet.length := by
    intro htype
    by_contra hshort
    rw [LabNetstack.handleARPPacket, if_neg (not_not.mpr htype), Struct.read?, if_neg hshort] at h
    cases h
  obtain ⟨wire, arpList, hhandle⟩ := handleARPPacket_frame hsize pktlen device host
  obtain rfl := Option.some.inj (h.symm.trans hhandle)
  exact ⟨Eq.refl _, List.Subset.refl _⟩

/-- A frame takes nothing away. -/
theorem handleFrame {chance : Chance} {device : Device} {pkthdr : PcapPkthdr} {pktdata : List Byte}
    (h : handleFrame host.deviceList [LabNetstack.handleARPPacket,
      handleIPPacket [handleRouteTable, handleTCPPacket callbacks] chance] device pkthdr pktdata
        host = some host') : Keeps host host' := by
  rcases handleFrame_cases h with heq | ⟨_, _, _, h⟩
  · exact heq ▸ .rfl host
  · simp only [List.foldlM_cons, List.foldlM_nil] at h
    obtain ⟨t, ht, h⟩ := Option.bind_eq_some_iff.mp h
    obtain ⟨t', ht', h⟩ := Option.bind_eq_some_iff.mp h
    obtain ⟨wire, learnt, upper, hframe, -⟩ := handleIPPacket_frame ht'
    have hlast : Keeps t host' := by
      rw [← Option.some.inj h, hframe]
      exact ⟨Eq.refl _, List.subset_append_left ..⟩
    exact (handleARPPacket ht).trans hlast

end Keeps

variable [DecidableEq ι] {events : List (Event ι)}

theorem keeps_put (s : Mesh ι τ) (v w : ι) (hhost : Keeps (s.host v) host) :
    Keeps (s.host w) ((s.put topo v host).host w) := by
  rw [Mesh.host_put]
  split_ifs with hw
  · exact hw ▸ ⟨hhost.online, hhost.tmp⟩
  · exact .rfl _

/-- **Between two updates** of a host, all that happens to its entries is that there are more of
them. -/
theorem keeps_step {event : Event ι} (hstep : step topo callbacks event s = some s')
    (hother : ∀ now sorted, event = .call v (.updateRouteTable now sorted) →
      tooEarly updateInterval now (s.host v).lastUpdate = true) :
    Keeps (s.host v) (s'.host v) := by
  cases event with
  | call w action =>
    by_cases hcall : ∀ chance device pkthdr pktdata,
        action ≠ .handleFrame chance device pkthdr pktdata
    swap
    · push Not at hcall
      obtain ⟨chance, device, pkthdr, pktdata, rfl⟩ := hcall
      cases hstep
    have hstep : (NetworkLayer.step callbacks action (s.host w)).map (s.put topo w) = some s' := by
      rw [← hstep, Network.step]
      exact hcall
    obtain ⟨new, hnew, rfl⟩ := Option.map_eq_some_iff.mp hstep
    by_cases hw : v = w
    · subst hw
      rcases step_tables hcall hnew with ⟨honline, htmp⟩ | ⟨now, sorted, rfl, hdue, -⟩
      · exact keeps_put s v v ⟨honline, htmp ▸ List.Subset.refl _⟩
      · rw [hother now sorted rfl] at hdue
        cases hdue
    · rw [Mesh.host_put, if_neg hw]
      exact .rfl _
  | receive i chance =>
    simp only [Network.step] at hstep
    split at hstep
    · cases hstep
    next w device frame hi =>
      obtain ⟨new, hnew, rfl⟩ := Option.map_eq_some_iff.mp hstep
      rw [NetworkLayer.step] at hnew
      split_ifs at hnew
      exact keeps_put { s with air := s.air.eraseIdx i } w v (.handleFrame hnew)
  | lose i =>
    obtain rfl := Option.some.inj hstep
    exact .rfl _
  | repeatAt i =>
    obtain rfl := Option.some.inj hstep
    exact .rfl _

omit [DecidableEq ι] in
/-- No frame is longer than pcap takes. -/
theorem Made.length_le {frame : List Byte} (h : Made topo events frame) :
    frame.length ≤ 0x10000 := by
  cases h with
  | packet h hpos hfit id destMac srcMac =>
    rw [packetFrame, List.length_append, EthHeader.layout.length_bytes, EthHeader.size_layout,
      length_ipPacket]
    omega
  | request device dstPAddr =>
    rw [arpFrame, List.length_append, EthHeader.layout.length_bytes, EthHeader.size_layout,
      ARPPacket.layout.length_bytes, ARPPacket.size_layout]
    omega

omit [DecidableEq ι] in
/-- Every entry is collected, with one hop more. -/
theorem handleFrame_advert {table : List RouteEntry} (hfit : table.length ≤ maxEntries)
    (src : IPAddr) (macAddr srcMac : MacAddr) (id : ℕ) (chance : Chance) (device : Device)
    (host : Host τ) :
    handleFrame host.deviceList [handleARPPacket,
        handleIPPacket [handleRouteTable, handleTCPPacket callbacks] chance] device
      ⟨BitVec.ofNat 32 (packetFrame BROAD_MAC srcMac
        (ipPacket src BROAD_IP ROUTE_PROTOCOL (routeAdvert table macAddr) id)).length⟩
      (packetFrame BROAD_MAC srcMac
        (ipPacket src BROAD_IP ROUTE_PROTOCOL (routeAdvert table macAddr) id)) host =
    some { host with
      tmpRouteTable := host.tmpRouteTable ++ table.map (learnEntry device macAddr) } := by
  have hmine : isMine host.deviceList BROAD_MAC := Or.inl rfl
  have hlen := length_routeAdvert table macAddr
  have hmax : table.length ≤ 2046 := hfit
  rw [handleFrame_packet (by omega), if_pos hmine, handleIPPacket_broadcast (by decide) rfl,
    List.foldlM_cons, handleRouteTable_advert hfit macAddr rfl]
  rfl

/-- **An advertisement that is received** is collected as a whole. -/
theorem receive_advert (hgenuine : Genuine topo events s) {i : ℕ} {chance : Chance}
    {device : Device} {frame : List Byte} (hi : s.air[i]? = some (v, device, frame))
    {table : List RouteEntry} (hadvert : IsAdvert table frame)
    (hstep : step topo callbacks (.receive i chance) s = some s') :
    ∀ e₀ ∈ table, ∃ e ∈ (s'.host v).tmpRouteTable, Mesh.Learned e₀ e := by
  have hle := (hgenuine.air _ (List.mem_of_getElem? hi)).2.length_le
  obtain ⟨src, macAddr, srcMac, id, rfl⟩ := hadvert
  have hlen := length_routeAdvert table macAddr
  rw [List.length_append, EthHeader.layout.length_bytes, EthHeader.size_layout, length_ipPacket]
    at hle
  have hfit : table.length ≤ maxEntries := show table.length ≤ 2046 by omega
  simp only [Network.step, hi] at hstep
  obtain ⟨new, hnew, rfl⟩ := Option.map_eq_some_iff.mp hstep
  rw [NetworkLayer.step] at hnew
  split_ifs at hnew
  obtain rfl := Option.some.inj
    ((handleFrame_advert hfit src macAddr srcMac id chance device (s.host v)).symm.trans hnew)
  intro e₀ he₀
  refine ⟨learnEntry device macAddr e₀, ?_, Mesh.learned_learnEntry ..⟩
  rw [Mesh.host_put, if_pos rfl]
  exact List.mem_append_right _ (List.mem_map_of_mem he₀)

/-! ### Updates, and what they rest on -/

/-- At time `t` the host updates its table, and the timer lets it. -/
def Updates (events : List (Event ι)) (state : ℕ → Mesh ι τ) (t : ℕ) (v : ι) : Prop :=
  ∃ now sorted, events[t]? = some (.call v (.updateRouteTable now sorted)) ∧
    tooEarly updateInterval now ((state t).host v).lastUpdate = false

/-- Of what `v` has collected at time `t`, the table that `u` had at time `r`: an advertisement of it
has arrived, and there has been no update since. -/
def Collected (events : List (Event ι)) (state : ℕ → Mesh ι τ) (t : ℕ) (v u : ι) (r : ℕ) : Prop :=
  ∃ q i chance device frame, r ≤ q ∧ q < t ∧ events[q]? = some (.receive i chance) ∧
    (state q).air[i]? = some (v, device, frame) ∧
    IsAdvert ((state r).host u).onlineRouteTable frame ∧
    ∀ p, q < p → p < t → ¬ Updates events state p v

/-- Everything that is at most `n` links away is in the table, and not farther away than it is. -/
def Covers (topo : Topology ι) (n : ℕ) (v : ι) (table : List RouteEntry) : Prop :=
  ∀ a k, Path topo.Hears topo.Owns a v k → k ≤ n → k ≤ 20 → ∃ j ≤ k, Reports table a j

variable {upper : ι → τ} {state : ℕ → Mesh ι τ} {u : ι} {n r t : ℕ}

theorem keeps_of_not_updates
    (htime : Run.Timeline (step topo callbacks) events (start topo upper) state)
    (ht : t < events.length) (hnot : ¬ Updates events state t v) :
    Keeps ((state t).host v) ((state (t + 1)).host v) := by
  refine keeps_step (htime.step_eq ht) fun now sorted hevent => ?_
  by_contra hdue
  exact hnot ⟨now, sorted, by rw [List.getElem?_eq_getElem ht, hevent], Bool.not_eq_true _ ▸ hdue⟩

/-- Until the next update nothing is lost. -/
theorem keeps_until (htime : Run.Timeline (step topo callbacks) events (start topo upper) state)
    {q : ℕ} (hle : q ≤ t) (ht : t ≤ events.length)
    (hnone : ∀ p, q ≤ p → p < t → ¬ Updates events state p v) :
    Keeps ((state q).host v) ((state t).host v) := by
  induction t, hle using Nat.le_induction with
  | base => exact .rfl _
  | succ t hle ih =>
    have hsofar := ih (by omega) fun p hq hp => hnone p hq (by omega)
    exact hsofar.trans (keeps_of_not_updates htime ht (hnone t hle (by omega)))

omit [DecidableEq ι] in
theorem Collected.le (h : Collected events state t v u r) : r ≤ t := by
  obtain ⟨q, -, -, -, -, hrq, hqt, -⟩ := h
  omega

/-- What `v` has collected of a table. -/
theorem Collected.mem (h : Collected events state t v u r)
    (htime : Run.Timeline (step topo callbacks) events (start topo upper) state)
    (ht : t ≤ events.length) : ∀ e₀ ∈ ((state r).host u).onlineRouteTable,
      ∃ e ∈ ((state t).host v).tmpRouteTable, Mesh.Learned e₀ e := by
  obtain ⟨q, i, chance, device, frame, -, hqt, hevent, hi, hadvert, hnone⟩ := h
  obtain ⟨hq, hevent⟩ := List.getElem?_eq_some_iff.mp hevent
  have hstep := htime.step_eq hq
  rw [hevent] at hstep
  have hgenuine := run_genuine (htime q hq.le)
  have hkeeps := keeps_until htime hqt ht fun p hp => hnone p (by omega)
  intro e₀ he₀
  obtain ⟨e, he, hlearned⟩ := receive_advert hgenuine hi hadvert hstep e₀ he₀
  exact ⟨e, hkeeps.tmp he, hlearned⟩

variable (hpolite : ∀ event ∈ events, event.Polite)
include hpolite

theorem sound_at (htime : Run.Timeline (step topo callbacks) events (start topo upper) state)
    (ht : t ≤ events.length) : Sound topo (state t) :=
  sound_of_run (fun event hevent => hpolite event (List.mem_of_mem_take hevent)) (htime t ht)

/-- **An update** keeps the nearest of what has been collected. -/
theorem Updates.reports (h : Updates events state t v)
    (htime : Run.Timeline (step topo callbacks) events (start topo upper) state) (a : IPAddr)
    (k : ℕ) : Reports ((state (t + 1)).host v).onlineRouteTable a k ↔ k ≤ 20 ∧
      IsLeast {k | Reports (addDefaultRouteTable (topo.devices v)
        ((state t).host v).tmpRouteTable) a k} k := by
  obtain ⟨now, sorted, hevent, hdue⟩ := h
  obtain ⟨ht, hevent⟩ := List.getElem?_eq_some_iff.mp hevent
  have hdevices := ((run_genuine (htime t ht.le)).quiet v).linked.devices
  have htables := (sound_at hpolite htime ht.le).tables v
  have hstep := htime.step_eq ht
  rw [hevent, Network.step, NetworkLayer.step] at hstep
  swap
  · exact fun _ _ _ _ heq => NetworkLayer.Action.noConfusion heq
  obtain ⟨new, hnew, hput⟩ := Option.map_eq_some_iff.mp hstep
  rw [updateRouteTable, hdue, if_neg Bool.false_ne_true] at hnew
  split_ifs at hnew with hsort
  obtain rfl := Option.some.inj hnew
  rw [← hput, Mesh.host_put, if_pos rfl, ← hdevices]
  exact (htables.spec hdevices hsort).2.2 a k

/-- A host has no two distances for an address. -/
theorem reports_unique (htime : Run.Timeline (step topo callbacks) events (start topo upper) state)
    (ht : t ≤ events.length) {a : IPAddr} {j k : ℕ}
    (hj : Reports ((state t).host v).onlineRouteTable a j)
    (hk : Reports ((state t).host v).onlineRouteTable a k) : j = k := by
  induction t with
  | zero =>
    have hstart : start topo upper = state 0 := Option.some.inj (htime 0 (Nat.zero_le _))
    have hzero : ∀ i, Reports ((state 0).host v).onlineRouteTable a i → i = 0 := by
      rw [← hstart]
      rintro i ⟨e, he, -, rfl⟩
      obtain ⟨device, -, rfl⟩ := List.mem_map.mp he
      rfl
    rw [hzero j hj, hzero k hk]
  | succ t ih =>
    by_cases hupdates : Updates events state t v
    · have hreports := hupdates.reports hpolite htime a
      exact ((hreports j).mp hj).2.unique ((hreports k).mp hk).2
    · have hkeeps := keeps_of_not_updates htime ht hupdates
      rw [hkeeps.online] at hj hk
      exact ih (by omega) hj hk

/-- **One update** that rests on what the neighbours had when they covered `n` links. -/
theorem Updates.covers (h : Updates events state t v)
    (htime : Run.Timeline (step topo callbacks) events (start topo upper) state)
    (ht : t < events.length) (hrests : ∀ u, topo.Hears v u → ∃ r, r ≤ t ∧
      Collected events state t v u r ∧ Covers topo n u ((state r).host u).onlineRouteTable) :
    Covers topo (n + 1) v ((state (t + 1)).host v).onlineRouteTable := by
  intro a k hpath hk hlimit
  -- something as near is among what is sorted
  have hoffered : ∃ i ≤ k, Reports (addDefaultRouteTable (topo.devices v)
      ((state t).host v).tmpRouteTable) a i := by
    cases hpath with
    | here hown =>
      obtain ⟨device, hdevice, rfl⟩ := hown
      exact ⟨0, le_rfl, defaultEntry device,
        List.mem_append_right _ (List.mem_map_of_mem hdevice), rfl, rfl⟩
    | @hop _ u k hhears hpath =>
      obtain ⟨r, hr, hcollected, hcovers⟩ := hrests u hhears
      obtain ⟨j, hj, e₀, he₀, rfl, rfl⟩ := hcovers a k hpath (by omega) (by omega)
      obtain ⟨e, he, hlearned⟩ := hcollected.mem htime ht.le e₀ he₀
      have hdist := (((sound_at hpolite htime (hr.trans ht.le)).tables u).online e₀ he₀).dist
      exact ⟨e₀.dist.toNat + 1, by omega, e, List.mem_append_left _ he, hlearned.ipAddr,
        hlearned.dist_toNat hdist⟩
  obtain ⟨i, hi, hreports⟩ := hoffered
  obtain ⟨j, hleast⟩ : ∃ j, IsLeast {k | Reports (addDefaultRouteTable (topo.devices v)
      ((state t).host v).tmpRouteTable) a k} j := by
    classical
    have hex := Exists.intro i hreports
    exact ⟨Nat.find hex, Nat.find_spec hex, fun _ => Nat.find_min' hex⟩
  have hle : j ≤ k := (hleast.2 hreports).trans hi
  exact ⟨j, hle, (h.reports hpolite htime a j).mpr ⟨hle.trans hlimit, hleast⟩⟩

/-- **Convergence without rounds.** From time `T` on every host updates within any `W` steps, and
each update rests on a table that every neighbour had at most `D` steps before. Then, after `n`
times `W + D` steps, the distances up to `n` are exactly the hop distances, on every host and
from then on, and no address has two; whatever was lost or sent in between, and whatever happened
before. -/
theorem run_converges
    (htime : Run.Timeline (step topo callbacks) events (start topo upper) state) {T W D : ℕ}
    (hoften : ∀ v t, T ≤ t → t + W ≤ events.length →
      ∃ t', t ≤ t' ∧ t' < t + W ∧ Updates events state t' v)
    (hrecent : ∀ t v u, T ≤ t → Updates events state t v → topo.Hears v u →
      ∃ r, t ≤ r + D ∧ Collected events state t v u r)
    (n : ℕ) (ht : t ≤ events.length) (hn : T + n * (W + D) ≤ t) (v : ι) (a : IPAddr) {j : ℕ}
    (hj : j ≤ n) :
    (Reports ((state t).host v).onlineRouteTable a j ↔ j ≤ 20 ∧ topo.IsHopDist v a j) ∧
      ∀ k, Reports ((state t).host v).onlineRouteTable a j →
        Reports ((state t).host v).onlineRouteTable a k → k = j := by
  refine ⟨?_, fun k hreports hk => reports_unique hpolite htime ht hk hreports⟩
  have hsound : ∀ k, Reports ((state t).host v).onlineRouteTable a k →
      k ≤ 20 ∧ Path topo.Hears topo.Owns a v k := by
    rintro k ⟨e, he, rfl, rfl⟩
    have hentry := ((sound_at hpolite htime ht).tables v).online e he
    exact ⟨hentry.dist, hentry.path⟩
  have hcovers : Covers topo n v ((state t).host v).onlineRouteTable := by
    refine @BoundedDelay.level_of_le ι _
      (fun n t v => Covers topo n v ((state t).host v).onlineRouteTable) T _ W D hoften ?_ ?_ ?_ n t
      v ht hn
    · intro t v ht a k hpath hk _
      obtain rfl := Nat.le_zero.mp hk
      cases hpath with
      | here hown =>
        obtain ⟨device, hdevice, rfl⟩ := hown
        exact ⟨0, le_rfl, ((sound_at hpolite htime ht).tables v).own device hdevice⟩
    · intro n t v ht hnot hlevel
      rwa [(keeps_of_not_updates htime ht hnot).online]
    · intro n t v hfrom ht hupdates hlevel
      refine hupdates.covers hpolite htime ht fun u hhears => ?_
      obtain ⟨r, hold, hcollected⟩ := hrecent t v u hfrom hupdates hhears
      exact ⟨r, hcollected.le, hcollected, hlevel u r hcollected.le hold⟩
  constructor
  · intro hreports
    obtain ⟨hle, hpath⟩ := hsound j hreports
    refine ⟨hle, hpath, fun k hk => ?_⟩
    by_contra hlt
    obtain ⟨i, hi, hnear⟩ := hcovers a k hk (by omega) (by omega)
    have := reports_unique hpolite htime ht hreports hnear
    omega
  · rintro ⟨hle, hpath, hmin⟩
    obtain ⟨i, hi, hreports⟩ := hcovers a j hpath hj hle
    have hij : j ≤ i := hmin (hsound i hreports).2
    rwa [le_antisymm hij hi]

/-! ### Two hosts -/

omit hpolite

/-- Two hosts tell each other of their tables, the later frame arrives first, and they update. -/
def exchange : List (Event Bool) :=
  [.call true (.broadcastRouteTable 0), .call false (.broadcastRouteTable 0), .receive 1 ⟨0, 0⟩,
    .receive 0 ⟨0, 0⟩, .call true (.updateRouteTable 0 (learned true)),
    .call false (.updateRouteTable 0 (learned false)), .lose 0, .lose 0]
where
  /-- What each has to sort, in order. -/
  learned (v : Bool) : List RouteEntry :=
    let own := defaultEntry (Mesh.pairDevice v)
    let other := learnEntry (Mesh.pairDevice v) BROAD_MAC (defaultEntry (Mesh.pairDevice !v))
    if v then [own, other] else [other, own]

def exchangeState (t : ℕ) : Mesh Bool Unit :=
  (Run.run (step Mesh.pairTopology []) (exchange.take t)
    (start Mesh.pairTopology fun _ => ())).getD (start Mesh.pairTopology fun _ => ())

theorem timeline_exchange : Run.Timeline (step Mesh.pairTopology []) exchange
    (start Mesh.pairTopology fun _ => ()) exchangeState := by
  have hrun : ∃ s, Run.run (step Mesh.pairTopology []) exchange
      (start Mesh.pairTopology fun _ => ()) = some s := ⟨_, rfl⟩
  obtain ⟨s, hrun⟩ := hrun
  exact Run.timeline_of_run hrun

/-- When each of the two updates. -/
theorem updates_exchange {t : ℕ} {v : Bool} :
    Updates exchange exchangeState t v ↔ t = if v then 4 else 5 := by
  constructor
  · rintro ⟨now, sorted, hevent, -⟩
    obtain ⟨ht, hevent⟩ := List.getElem?_eq_some_iff.mp hevent
    have ht : t < 8 := ht
    interval_cases t <;> cases hevent <;> rfl
  · rintro rfl
    cases v <;> exact ⟨0, _, rfl, rfl⟩

theorem collected_exchange {t : ℕ} {v u : Bool} (h : Updates exchange exchangeState t v)
    (hhears : Mesh.pairTopology.Hears v u) : ∃ r, t ≤ r + 2 ∧
      Collected exchange exchangeState t v u r := by
  obtain ⟨device, -, device', hlink⟩ := hhears
  have hu : v = !u := (Prod.mk.inj (List.mem_singleton.mp hlink)).1
  have hnone : ∀ p < t, ¬ Updates exchange exchangeState p v :=
    fun p hp hother => absurd (updates_exchange.mp hother) (by rw [← updates_exchange.mp h]; omega)
  obtain rfl := updates_exchange.mp h
  subst hu
  cases u
  · exact ⟨2, by decide, 2, 1, ⟨0, 0⟩, _, _, le_rfl, by decide, rfl, rfl, ⟨_, _, _, _, rfl⟩,
      fun p _ => hnone p⟩
  · exact ⟨3, by decide, 3, 0, ⟨0, 0⟩, _, _, le_rfl, by decide, rfl, rfl, ⟨_, _, _, _, rfl⟩,
      fun p _ => hnone p⟩

theorem run_converges_exchange : (Reports ((exchangeState 8).host true).onlineRouteTable 2 1 ↔
    1 ≤ 20 ∧ Mesh.pairTopology.IsHopDist true 2 1) ∧
      ∀ k, Reports ((exchangeState 8).host true).onlineRouteTable 2 1 →
        Reports ((exchangeState 8).host true).onlineRouteTable 2 k → k = 1 := by
  refine run_converges (fun event hevent => ?_) timeline_exchange (T := 0) (W := 6) (D := 2)
    (fun v t _ ht => ?_) (fun t v u _ => collected_exchange) 1 le_rfl (by decide) true 2 le_rfl
  · simp only [exchange, List.mem_cons, List.not_mem_nil, or_false] at hevent
    rcases hevent with rfl | rfl | rfl | rfl | rfl | rfl | rfl | rfl <;> trivial
  · have hle : t + 6 ≤ 8 := ht
    refine ⟨if v then 4 else 5, ?_, ?_, updates_exchange.mpr rfl⟩ <;> cases v <;> simp <;> omega

end Network

end LabNetstack
