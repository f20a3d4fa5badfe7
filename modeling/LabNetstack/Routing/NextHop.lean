import LabNetstack.Routing.Convergence

/-!
# Next hops

An entry of a converged table says more than a distance. It was heard from a neighbour, so that the
device in it is the one that the neighbour can be reached on, and the address in it is that of one
of the neighbour's devices: not always of the device at the other end, as an advertisement goes out
on every device of a host with the address of each in turn.

What a host is configured with plays a part in every lookup, and nothing that the network does
changes it.

## Main results

* `Mesh.Rounds.config` — the configuration of a host stays as it is
* `Mesh.Round.fromNeighbour` — where the entries of a table have come from
* `Mesh.Rounds.nextHop` — the lookup leads to a neighbour that is one hop nearer
-/

namespace LabNetstack

variable {τ : Type*}

/-! ### The configuration -/

/-- What a host is configured with: devices, manual routes, ARP list and loss rate. -/
def Host.config (host : Host τ) :
    List Device × List RouteEntry × List (IPAddr × MacAddr) × BitVec 32 :=
  (host.deviceList, host.manRouteTable, host.arpList, host.random_drop)

theorem config_broadcastRouteTable (now : ℕ) (host : Host τ) :
    (broadcastRouteTable now host).config = host.config := by
  obtain ⟨wire, id, tasks, lastBroad, hrun⟩ := broadcastRouteTable_frame now host
  rw [hrun]
  rfl

theorem config_updateRouteTable {now : ℕ} {sorted : List RouteEntry} {host host' : Host τ}
    (h : updateRouteTable now sorted host = some host') : host'.config = host.config := by
  rcases updateRouteTable_cases h with rfl | ⟨-, rfl⟩ <;> rfl

theorem config_receiveFrame {callbacks : List (TCPPacketReceiveCallback τ)} {chance : Chance}
    {device : Device} {frame : List Byte} {host host' : Host τ}
    (h : receiveFrame callbacks chance device frame host = some host') :
    host'.config = host.config := by
  obtain ⟨wire, learnt, upper, rfl, -⟩ := receiveFrame_frame h
  rfl

namespace Mesh

variable {ι : Type*} [DecidableEq ι] {topo : Topology ι}
  {callbacks : List (TCPPacketReceiveCallback τ)} {s s' : Mesh ι τ}

/-- Nothing that a host does or receives changes what any host is configured with. -/
theorem config_step {event : Event ι} (h : step topo callbacks event s = some s') (w : ι) :
    (s'.host w).config = (s.host w).config := by
  have hput : ∀ (t : Mesh ι τ) (v : ι) (host : Host τ), t.host = s.host →
      host.config = (s.host v).config → ((t.put topo v host).host w).config =
        (s.host w).config := by
    intro t v host ht hconfig
    rw [host_put]
    split_ifs with hw
    · subst hw
      exact hconfig
    · rw [ht]
  cases event with
  | broadcast v now =>
    simp only [step] at h
    split_ifs at h
    obtain rfl := Option.some.inj h
    exact hput s v _ rfl (config_broadcastRouteTable ..)
  | receive i chance =>
    simp only [step] at h
    split at h
    · exact absurd h (Option.some_ne_none _).symm
    · obtain ⟨host, hhost, rfl⟩ := Option.map_eq_some_iff.mp h
      exact hput _ _ host rfl (config_receiveFrame hhost)
  | update v now sorted =>
    simp only [step] at h
    split_ifs at h
    obtain ⟨host, hhost, rfl⟩ := Option.map_eq_some_iff.mp h
    exact hput s v host rfl (config_updateRouteTable hhost)

theorem config_run {events : List (Event ι)} (h : Run.run (step topo callbacks) events s = some s')
    (w : ι) : (s'.host w).config = (s.host w).config := by
  refine Run.invariant (p := fun t => (t.host w).config = (s.host w).config) ?_ rfl h
  intro event t t' ht hstep
  rw [config_step hstep w, ht]

theorem Round.config (h : Round topo callbacks s s') (w : ι) :
    (s'.host w).config = (s.host w).config := by
  obtain ⟨collect, m, updates, -, -, hcollect, -, -, -, hupdates⟩ := h.split
  rw [config_run hupdates, config_run hcollect]

theorem Rounds.config {n : ℕ} (h : Rounds topo callbacks s n s') (w : ι) :
    (s'.host w).config = (s.host w).config := by
  induction h with
  | zero => rfl
  | succ _ hround ih => rw [hround.config, ih]

/-! ### Where the entries come from -/

/-- A neighbour that has `e₀` in its table has sent it from `device`, with the address of `other`,
to the device of `v` that is in the entry. -/
def FromNeighbour (topo : Topology ι) (table : ι → List RouteEntry) (v : ι) (e : RouteEntry) :
    Prop :=
  ∃ u, ∃ device ∈ topo.devices u, ∃ device', (v, device') ∈ topo.links u device ∧
    ∃ other ∈ topo.devices u, ∃ e₀ ∈ table u, e = learnEntry device' other.macAddr e₀

/-- In a round that began with these tables: every advertisement has been sent by a neighbour, and
every entry learnt comes from one. -/
structure Sourced (topo : Topology ι) (table : ι → List RouteEntry) (s : Mesh ι τ) : Prop where
  air : ∀ copy ∈ s.air, ∃ u, ∃ device ∈ topo.devices u, (copy.1, copy.2.1) ∈ topo.links u device ∧
    ∃ other ∈ topo.devices u, IsAdvertOf (table u) other.macAddr copy.2.2
  tmp : ∀ v, ∀ e ∈ (s.host v).tmpRouteTable, FromNeighbour topo table v e

namespace Sourced

variable {table : ι → List RouteEntry} {told : ι → Prop}

theorem broadcast (h : Sourced topo table s) (hc : Collecting topo table told s)
    (hfit : ∀ v, (table v).length ≤ maxEntries) {v : ι} {now : ℕ}
    (hstep : step topo callbacks (.broadcast v now) s = some s') : Sourced topo table s' := by
  simp only [step] at hstep
  split_ifs at hstep with hearly
  obtain ⟨id, sent, hhost, hsent, -⟩ := broadcastRouteTable_sent
    (Bool.not_eq_true _ ▸ hearly) ((congrArg List.length (hc.online v)).trans_le (hfit v))
  rw [hc.deviceList, hc.online] at hsent
  rw [hhost, Option.some.injEq] at hstep
  constructor
  · intro copy hcopy
    rw [← hstep, put, hc.wire v, List.nil_append] at hcopy
    rcases List.mem_append.mp hcopy with hold | hnew
    · exact h.air copy hold
    · obtain ⟨device, hmem, hlink⟩ := mem_copies.mp hnew
      obtain ⟨hdevice, other, hother, hadvert⟩ := hsent _ hmem
      exact ⟨v, device, hdevice, hlink, other, hother, hadvert⟩
  · intro w e he
    rw [← hstep, host_put] at he
    split_ifs at he with hw
    · exact h.tmp w e (hw ▸ he)
    · exact h.tmp w e he

theorem receive (h : Sourced topo table s) (hc : Collecting topo table told s)
    (hfit : ∀ v, (table v).length ≤ maxEntries) {i : ℕ} {chance : Chance}
    (hstep : step topo callbacks (.receive i chance) s = some s') : Sourced topo table s' := by
  simp only [step] at hstep
  split at hstep
  · exact absurd hstep (Option.some_ne_none _).symm
  next v device' frame hcopy =>
  obtain ⟨host, hhost, hput⟩ := Option.map_eq_some_iff.mp hstep
  obtain ⟨u, device, hdevice, hlink, other, hother, hadvert⟩ :=
    h.air _ (List.mem_of_getElem? hcopy)
  rw [receiveFrame_advertOf hadvert (hfit u), Option.some.injEq] at hhost
  constructor
  · intro copy hmem
    have hwire : host.wire = [] := by
      rw [← hhost]
      exact hc.wire v
    rw [← hput, put, hwire] at hmem
    rcases List.mem_append.mp hmem with hold | hnew
    · exact h.air copy (List.mem_of_mem_eraseIdx hold)
    · exact absurd hnew (List.not_mem_nil)
  · intro w e he
    rw [← hput, host_put, ← hhost] at he
    split_ifs at he with hw
    · subst hw
      rcases List.mem_append.mp he with hold | hnew
      · exact h.tmp w e hold
      · obtain ⟨e₀, he₀, rfl⟩ := List.mem_map.mp hnew
        exact ⟨u, device, hdevice, device', hlink, other, hother, e₀, he₀, rfl⟩
    · exact h.tmp w e he

/-- Along the first part of a round. -/
theorem run (h : Sourced topo table s) (hc : Collecting topo table told s)
    (hfit : ∀ v, (table v).length ≤ maxEntries) {events : List (Event ι)}
    (hcollects : ∀ event ∈ events, event.Collects)
    (hrun : Run.run (step topo callbacks) events s = some s') : Sourced topo table s' := by
  induction events generalizing s told with
  | nil => exact Option.some.inj hrun ▸ h
  | cons event events ih =>
    obtain ⟨t, hstep, hnext⟩ := Option.bind_eq_some_iff.mp hrun
    have hrest : ∀ event ∈ events, event.Collects :=
      fun e he => hcollects e (List.mem_cons_of_mem _ he)
    cases event with
    | broadcast v now =>
      exact ih (h.broadcast hc hfit hstep) (hc.broadcast hfit hstep) hrest hnext
    | receive i chance =>
      exact ih (h.receive hc hfit hstep) (hc.receive hfit hstep) hrest hnext
    | update v now sorted => exact absurd (hcollects _ (List.mem_cons_self ..)) id

end Sourced

variable {addresses : Finset IPAddr}

/-- **Where an entry comes from.** After a round, an entry that is not about an address of the host
itself has been in a neighbour's table when the round began. -/
theorem Round.fromNeighbour (h : Ready topo addresses s) (hround : Round topo callbacks s s')
    {v : ι} {e : RouteEntry} (he : e ∈ (s'.host v).onlineRouteTable) (hdist : e.dist ≠ 0) :
    FromNeighbour topo (fun v => (s.host v).onlineRouteTable) v e := by
  obtain ⟨collect, m, updates, hcollects, -, hrun, -, hnodup, heach, hupdates⟩ := hround.split
  have hstart : Sourced topo (fun v => (s.host v).onlineRouteTable) s := by
    constructor
    · exact fun copy hcopy => absurd (h.air ▸ hcopy) (List.not_mem_nil)
    · exact fun v e he => absurd (h.tmp v ▸ he) (List.not_mem_nil)
  have hm := hstart.run h.collecting h.length hcollects hrun
  have hwire := (h.collecting.run h.length hcollects hrun).wire
  obtain ⟨sorted, hsort, honline⟩ := (((update_run hnodup hwire hupdates).2 v).1 (heach v)).online
  rw [honline] at he
  rcases List.mem_append.mp (hsort.1.mem_iff.mp (mem_removeDuplicates he)) with htmp | hdefault
  · exact hm.tmp v e htmp
  · obtain ⟨device, -, rfl⟩ := List.mem_map.mp hdefault
    exact absurd rfl hdist

/-! ### The lookup -/

/-- `queryRouteTable` leads to a device of `v`, and to an address of a neighbour there that is one
hop nearer to the one that is asked for. -/
def NextHop (topo : Topology ι) (host : Host τ) (v : ι) (a : IPAddr) (k : ℕ) : Prop :=
  ∃ u, topo.IsHopDist u a k ∧ ∃ device ∈ topo.devices u, ∃ device',
    (v, device') ∈ topo.links u device ∧ ∃ other ∈ topo.devices u,
      queryRouteTable host a = some (other.macAddr, device'.address)

end Mesh

/-- Where all masks are full, the only entry for an address is the one that is found. -/
theorem bestMatch_eq {a : IPAddr} {table : List RouteEntry} {e : RouteEntry}
    (hmask : ∀ e ∈ table, e.mask = BROAD_IP)
    (hfilter : (table.filter fun e => e.ipAddr = a) = [e]) : bestMatch a table = some e := by
  have hfull : a &&& BROAD_IP = a := BitVec.and_allOnes
  have hloop : bestMatch a table = ((table.filter fun e => e.ipAddr = a).foldl
      (fun (best : IPAddr × Option RouteEntry) e =>
        if best.1 < e.mask then (e.mask, some e) else best) (0, none)).2 := by
    rw [bestMatch, List.foldl_filter]
    refine congrArg Prod.snd (List.foldl_ext _ _ _ fun best e he => ?_)
    rw [hmask e he, hfull]
    simp only [decide_eq_true_eq]
  have he : e ∈ table := (List.mem_filter.mp (hfilter ▸ List.mem_singleton_self e)).1
  rw [hloop, hfilter, List.foldl_cons, List.foldl_nil, hmask e he,
    if_pos (by decide)]

namespace Mesh

variable {ι : Type*} [DecidableEq ι] {topo : Topology ι}
  {callbacks : List (TCPPacketReceiveCallback τ)} {s s' : Mesh ι τ} {addresses : Finset IPAddr}

/-- **Each lookup is a step nearer.** Once the tables that a round began with had converged, the
lookup of an address that is `k + 1` hops away leads to a neighbour that is `k` hops away from it,
whichever of the nearest entries the sorting left in front. -/
theorem Rounds.nextHop (h : Ready topo addresses s) {n : ℕ} (hrounds : Rounds topo callbacks s n s')
    (hn : 22 ≤ n) (hman : ∀ v, (s.host v).manRouteTable = []) {v : ι} {a : IPAddr} {k : ℕ}
    (hk : k < 20) (hdist : topo.IsHopDist v a (k + 1)) : NextHop topo (s'.host v) v a k := by
  obtain ⟨e, hfilter, hek⟩ := (hrounds.converged h (by omega) v a).1 (k + 1) hk hdist
  have hmask := (hrounds.rounds h).1.mask v
  have hquery : queryRouteTable (s'.host v) a = some (e.macAddr, e.device) := by
    have hman' : (s'.host v).manRouteTable = [] := by
      rw [← hman v]
      exact congrArg (fun config => config.2.1) (hrounds.config v)
    rw [queryRouteTable, hman', bestMatch_eq hmask hfilter]
    rfl
  have he := List.mem_filter.mp (hfilter ▸ List.mem_singleton_self e)
  obtain rfl : e.ipAddr = a := of_decide_eq_true he.2
  cases hrounds with
  | zero => omega
  | @succ m s₁ _ hrounds hround =>
    obtain ⟨hready, -, hdv⟩ := hrounds.rounds h
    obtain ⟨u, device, hdevice, device', hlink, other, hother, e₀, he₀, rfl⟩ :=
      hround.fromNeighbour hready he.1 fun hzero => by
        rw [hzero] at hek
        exact absurd hek (Nat.succ_ne_zero k).symm
    have hdist₀ : e₀.dist.toNat = k := by
      have := (learned_learnEntry device' other.macAddr e₀).dist_toNat (hready.dist u e₀ he₀)
      omega
    have hconverged := (hdv.eq_hopDist (by omega) u e₀.ipAddr k).mp ⟨e₀, he₀, rfl, hdist₀⟩
    exact ⟨u, hconverged.2, device, hdevice, device', hlink, other, hother, hquery⟩

end Mesh

end LabNetstack
