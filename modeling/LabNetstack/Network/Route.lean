import Mathlib.Data.List.Perm.Basic
import Mathlib.Order.Bounds.Basic
import LabNetstack.Network.IPPacket

/-!
# Routing

The distance-vector protocol of `route.c`: a host broadcasts its online table once in a second,
collects what it hears in the `tmp` table with one hop more, and from time to time makes that its
online table: the addresses of its own devices are added at distance zero, and of several entries
for one address the nearest is kept.
-/

namespace LabNetstack

open Layout

variable {τ : Type*}

/-- One second. -/
def broadInterval : ℕ := 1000000000

/-- Two and a half. -/
def updateInterval : ℕ := 2500000000

/-- `nowTime - interval < last`, the test that sends a periodic task away. -/
def tooEarly (interval now : ℕ) (last : Option ℕ) : Bool :=
  match last with
  | none => false
  | some last => now < last + interval

/-! ### Collecting -/

/-- The protocol number of an advertisement. -/
def ROUTE_PROTOCOL : BitVec 8 := 210

/-- What the receiver makes of an advertised entry. -/
def learnEntry (device : Device) (macAddr : MacAddr) (e : RouteEntry) : RouteEntry :=
  { e with device := device.address, macAddr := macAddr, dist := e.dist + 1 }

def handleRouteTable (buf : List Byte) (len : BitVec 32) (ipHeader : IpHeader) (device : Device)
    (host : Host τ) : Option (Host τ) :=
  if ipHeader.protocol ≠ ROUTE_PROTOCOL then some host
  else
    let newEntryCnt := (len - BitVec.ofNat 32 MacAddr.layout.size).toNat / RouteEntry.layout.size
    match MacAddr.layout.read? (buf.drop (len.toNat - MacAddr.layout.size)),
        RouteEntry.layout.readArray? newEntryCnt buf with
    | some macAddr, some entries =>
      some { host with
        tmpRouteTable := host.tmpRouteTable ++ entries.map (learnEntry device macAddr) }
    | _, _ => none

/-! ### Broadcasting -/

/-- An advertisement: the table, and behind it the address of a device. -/
def routeAdvert (table : List RouteEntry) (macAddr : MacAddr) : List Byte :=
  table.flatMap RouteEntry.layout.bytes ++ MacAddr.layout.bytes macAddr

def broadcastRouteTable (now : ℕ) (host : Host τ) : Host τ :=
  if tooEarly broadInterval now host.lastBroad then host
  else
    host.deviceList.foldl (fun host' device =>
      (sendIPPacket device.ipAddr BROAD_IP ROUTE_PROTOCOL
        (routeAdvert host.onlineRouteTable device.macAddr) false host').1)
      { host with lastBroad := some now }

/-! ### Updating -/

def compareRouteEntries (a b : RouteEntry) : ℤ :=
  if a.mask < b.mask then -1
  else if a.mask > b.mask then 1
  else if a.ipAddr < b.ipAddr then -1
  else if a.ipAddr > b.ipAddr then 1
  else 0

/-- What `qsort` may leave: entries that compare equal come in any order. -/
def IsQsort (entries sorted : List RouteEntry) : Prop :=
  sorted.Perm entries ∧ sorted.Pairwise fun a b => compareRouteEntries a b ≤ 0

instance (entries sorted : List RouteEntry) : Decidable (IsQsort entries sorted) :=
  inferInstanceAs (Decidable (_ ∧ _))

def defaultEntry (device : Device) : RouteEntry :=
  { ipAddr := device.ipAddr, mask := BROAD_IP, device := device.address, dist := 0
    macAddr := device.macAddr }

def addDefaultRouteTable (deviceList : List Device) (table : List RouteEntry) : List RouteEntry :=
  table ++ deviceList.map defaultEntry

/-- The first loop of `removeDuplicates`; `last` is the entry at `uniqueIndex - 1`. -/
def keepNearest (last : RouteEntry) : List RouteEntry → List RouteEntry
  | [] => [last]
  | e :: es =>
    if e.ipAddr ≠ last.ipAddr ∨ e.mask ≠ last.mask then last :: keepNearest e es
    else if e.dist < last.dist then keepNearest e es
    else keepNearest last es

/-- A table of at most one entry is returned as it is, whatever its distance. -/
def removeDuplicates : List RouteEntry → List RouteEntry
  | [] => []
  | [e] => [e]
  | e :: es => (keepNearest e es).filter fun e => e.dist ≤ 20

/-- `sorted` is what `qsort` left. -/
def updateRouteTable (now : ℕ) (sorted : List RouteEntry) (host : Host τ) : Option (Host τ) :=
  if tooEarly updateInterval now host.lastUpdate then some host
  else if IsQsort (addDefaultRouteTable host.deviceList host.tmpRouteTable) sorted then
    some { host with
      lastUpdate := some now
      onlineRouteTable := removeDuplicates sorted
      tmpRouteTable := [] }
  else none

/-! ### The manual table -/

/-- A name is given by the devices that bear it. -/
def findDevice (deviceName : Device → Bool) (deviceList : List Device) : Option Device :=
  deviceList.find? deviceName

/-- How much space the table gets is left out here. -/
def setRoutingTable (dest mask : IPAddr) (nextHopMAC : MacAddr) (deviceName : Device → Bool)
    (host : Host τ) : Host τ × ℤ :=
  match findDevice deviceName host.deviceList with
  | none => (host, -1)
  | some device =>
    ({ host with
      manRouteTable := host.manRouteTable ++
        [{ ipAddr := dest, mask := mask, device := device.address, dist := 0
           macAddr := nextHopMAC }] }, 0)

/-! ### What a step changes -/

variable {host host' : Host τ}

/-- What is learnt is about the device that it was heard on. -/
theorem handleRouteTable_frame {buf : List Byte} {len : BitVec 32} {ipHeader : IpHeader}
    {device : Device} (h : handleRouteTable buf len ipHeader device host = some host') :
    ∃ learnt, host' = { host with tmpRouteTable := host.tmpRouteTable ++ learnt } ∧
      ∀ e ∈ learnt, e.device = device.address := by
  rw [handleRouteTable] at h
  split_ifs at h
  · obtain rfl := Option.some.inj h
    exact ⟨[], by rw [List.append_nil], fun e he => absurd he List.not_mem_nil⟩
  · dsimp only at h
    split at h
    · refine ⟨_, (Option.some.inj h).symm, fun e he => ?_⟩
      obtain ⟨heard, -, rfl⟩ := List.mem_map.mp he
      rfl
    · exact absurd h (Option.some_ne_none _).symm

theorem broadcastRouteTable_frame (now : ℕ) (host : Host τ) :
    ∃ wire id tasks lastBroad, broadcastRouteTable now host = { host with
      wire := wire
      id := id
      resendIPTaskList := tasks
      lastBroad := lastBroad } := by
  have hloop : ∀ (table : List RouteEntry) (devices : List Device) (host : Host τ),
      ∃ wire id tasks, devices.foldl (fun host device =>
        (sendIPPacket device.ipAddr BROAD_IP ROUTE_PROTOCOL (routeAdvert table device.macAddr) false
          host).1) host = { host with wire := wire, id := id, resendIPTaskList := tasks } := by
    intro table devices
    induction devices with
    | nil => exact fun host => ⟨host.wire, host.id, host.resendIPTaskList, rfl⟩
    | cons device devices ih =>
      intro host
      obtain ⟨wire, id, tasks, hsend, -⟩ := sendIPPacket_frame device.ipAddr BROAD_IP
        ROUTE_PROTOCOL (routeAdvert table device.macAddr) false host
      obtain ⟨wire', id', tasks', hrest⟩ :=
        ih { host with wire := wire, id := id, resendIPTaskList := tasks }
      exact ⟨wire', id', tasks', by rw [List.foldl_cons, hsend, hrest]⟩
  rw [broadcastRouteTable]
  split_ifs
  · exact ⟨host.wire, host.id, host.resendIPTaskList, host.lastBroad, rfl⟩
  · obtain ⟨wire, id, tasks, hrun⟩ := hloop host.onlineRouteTable host.deviceList
      { host with lastBroad := some now }
    exact ⟨wire, id, tasks, some now, hrun⟩

theorem updateRouteTable_cases {now : ℕ} {sorted : List RouteEntry}
    (h : updateRouteTable now sorted host = some host') :
    host' = host ∨ IsQsort (addDefaultRouteTable host.deviceList host.tmpRouteTable) sorted ∧
      host' = { host with
        lastUpdate := some now
        onlineRouteTable := removeDuplicates sorted
        tmpRouteTable := [] } := by
  rw [updateRouteTable] at h
  split_ifs at h with hearly hsort
  · exact Or.inl (Option.some.inj h).symm
  · exact Or.inr ⟨hsort, (Option.some.inj h).symm⟩

/-! ### The order of the entries -/

/-- Mask and address as one number, which is what the entries are sorted by. -/
def RouteEntry.key (e : RouteEntry) : ℕ := e.mask.toNat * 2 ^ 32 + e.ipAddr.toNat

theorem compareRouteEntries_nonpos_iff (a b : RouteEntry) :
    compareRouteEntries a b ≤ 0 ↔ a.key ≤ b.key := by
  have ha := a.ipAddr.isLt
  have hb := b.ipAddr.isLt
  simp only [compareRouteEntries, RouteEntry.key, gt_iff_lt, BitVec.lt_def]
  split_ifs <;> omega

theorem key_eq_iff {a b : RouteEntry} : a.key = b.key ↔ a.ipAddr = b.ipAddr ∧ a.mask = b.mask := by
  have ha := a.ipAddr.isLt
  have hb := b.ipAddr.isLt
  rw [RouteEntry.key, RouteEntry.key, BitVec.toNat_eq, BitVec.toNat_eq]
  omega

/-- `kept` has the nearest of the entries for each mask and address, in order. -/
structure Nearest (entries kept : List RouteEntry) : Prop where
  sorted : kept.Pairwise fun a b => a.key < b.key
  mem : ∀ e ∈ kept, e ∈ entries
  least : ∀ e ∈ kept, ∀ e' ∈ entries, e'.key = e.key → e.dist ≤ e'.dist
  covers : ∀ e' ∈ entries, ∃ e ∈ kept, e.key = e'.key

namespace Nearest

variable {entries kept : List RouteEntry} {x y : RouteEntry}

theorem congr (h : Nearest entries kept) {entries' : List RouteEntry}
    (hmem : ∀ e, e ∈ entries ↔ e ∈ entries') : Nearest entries' kept where
  sorted := h.sorted
  mem e he := (hmem e).mp (h.mem e he)
  least e he e' he' := h.least e he e' ((hmem e').mpr he')
  covers e he := h.covers e ((hmem e).mpr he)

/-- An entry that is no nearer than another one with its key changes nothing. -/
theorem insert (h : Nearest entries kept) (hx : x ∈ entries) (hkey : x.key = y.key)
    (hdist : x.dist ≤ y.dist) : Nearest (y :: entries) kept := by
  refine ⟨h.sorted, fun e he => List.mem_cons_of_mem _ (h.mem e he), ?_, ?_⟩
  · intro e he e' he' hsame
    rcases List.mem_cons.mp he' with rfl | hmem
    · exact BitVec.le_trans (h.least e he x hx (hkey.trans hsame)) hdist
    · exact h.least e he e' hmem hsame
  · intro e' he'
    rcases List.mem_cons.mp he' with rfl | hmem
    · obtain ⟨e, he, hsame⟩ := h.covers x hx
      exact ⟨e, he, hsame.trans hkey⟩
    · exact h.covers e' hmem

/-- An entry before all others is kept. -/
theorem cons (h : Nearest entries kept) (hlt : ∀ e ∈ entries, x.key < e.key) :
    Nearest (x :: entries) (x :: kept) := by
  refine ⟨List.pairwise_cons.mpr ⟨fun e he => hlt e (h.mem e he), h.sorted⟩, ?_, ?_, ?_⟩
  · intro e he
    rcases List.mem_cons.mp he with rfl | hmem
    · exact List.mem_cons_self ..
    · exact List.mem_cons_of_mem _ (h.mem e hmem)
  · intro e he e' he' hsame
    rcases List.mem_cons.mp he with rfl | hmem <;> rcases List.mem_cons.mp he' with rfl | hmem'
    · exact BitVec.le_refl _
    · exact absurd hsame (hlt e' hmem').ne'
    · exact absurd hsame (hlt e (h.mem e hmem)).ne
    · exact h.least e hmem e' hmem' hsame
  · intro e' he'
    rcases List.mem_cons.mp he' with rfl | hmem
    · exact ⟨e', List.mem_cons_self .., rfl⟩
    · obtain ⟨e, he, hsame⟩ := h.covers e' hmem
      exact ⟨e, List.mem_cons_of_mem _ he, hsame⟩

end Nearest

/-- The loop keeps the nearest of each run of equal keys, wherever in the run it stands. -/
theorem keepNearest_nearest (last : RouteEntry) (es : List RouteEntry)
    (h : (last :: es).Pairwise fun a b => a.key ≤ b.key) :
    Nearest (last :: es) (keepNearest last es) := by
  induction es generalizing last with
  | nil =>
    have hnil : Nearest [] [] := by constructor <;> simp
    exact hnil.cons fun _ he => absurd he (List.not_mem_nil)
  | cons e es ih =>
    obtain ⟨hlast, htail⟩ := List.pairwise_cons.mp h
    have hne : e.ipAddr ≠ last.ipAddr ∨ e.mask ≠ last.mask ↔ e.key ≠ last.key := by
      rw [Ne, Ne, Ne, key_eq_iff, not_and_or]
    have hle := hlast e (List.mem_cons_self ..)
    rw [keepNearest]
    simp only [hne]
    split_ifs with hkey hdist
    · -- a new key: the run of `last` is over
      refine (ih e htail).cons fun e' he' => ?_
      have := List.rel_of_pairwise_cons h he'
      rcases List.mem_cons.mp he' with rfl | hmem
      · omega
      · have := List.rel_of_pairwise_cons htail hmem
        omega
    · -- the same key, and nearer: `last` is replaced
      exact (ih e htail).insert (List.mem_cons_self ..) (not_not.mp hkey) (BitVec.le_of_lt hdist)
    · -- the same key, and no nearer: `e` is left out
      have hrest := ih last (List.pairwise_cons.mpr
        ⟨fun e' he' => hlast e' (List.mem_cons_of_mem _ he'), (List.pairwise_cons.mp htail).2⟩)
      refine (hrest.insert (y := e) (List.mem_cons_self ..) (not_not.mp hkey).symm
        (BitVec.not_lt.mp hdist)).congr fun e' => ?_
      rw [List.mem_cons, List.mem_cons, List.mem_cons, List.mem_cons, or_left_comm]

/-! ### What an update leaves -/

/-- The table has the address, at that distance. -/
def Reports (table : List RouteEntry) (a : IPAddr) (k : ℕ) : Prop :=
  ∃ e ∈ table, e.ipAddr = a ∧ e.dist.toNat = k

theorem mem_keepNearest {last e : RouteEntry} {es : List RouteEntry} (h : e ∈ keepNearest last es) :
    e ∈ last :: es := by
  induction es generalizing last with
  | nil => exact h
  | cons e' es ih =>
    rw [keepNearest] at h
    split_ifs at h
    · rcases List.mem_cons.mp h with rfl | hmem
      · exact List.mem_cons_self ..
      · exact List.mem_cons_of_mem _ (ih hmem)
    · exact List.mem_cons_of_mem _ (ih h)
    · rcases List.mem_cons.mp (ih h) with rfl | hmem
      · exact List.mem_cons_self ..
      · exact List.mem_cons_of_mem _ (List.mem_cons_of_mem _ hmem)

/-- Nothing is made up. -/
theorem mem_removeDuplicates {e : RouteEntry} {sorted : List RouteEntry}
    (h : e ∈ removeDuplicates sorted) : e ∈ sorted := by
  match sorted, h with
  | [_], h => exact h
  | _ :: _ :: _, h => exact mem_keepNearest (List.mem_filter.mp h).1

/-- The early return makes no difference to a single entry that is near enough. -/
theorem removeDuplicates_cons {e : RouteEntry} {es : List RouteEntry}
    (h : es = [] → e.dist ≤ 20) :
    removeDuplicates (e :: es) = (keepNearest e es).filter fun e => e.dist ≤ 20 := by
  cases es with
  | nil =>
    rw [removeDuplicates, keepNearest, List.filter_singleton, decide_eq_true (h rfl), cond_true]
  | cons e' es => rfl

/-- Sorted, the entries are compacted to the nearest of each key, and of these the near ones are
left. -/
theorem removeDuplicates_nearest {collected sorted : List RouteEntry}
    (hsort : IsQsort collected sorted) (hsingle : ∀ e, collected = [e] → e.dist ≤ 20) :
    ∃ kept, removeDuplicates sorted = kept.filter (fun e => e.dist ≤ 20) ∧
      Nearest collected kept := by
  obtain ⟨hperm, hpair⟩ := hsort
  simp only [compareRouteEntries_nonpos_iff] at hpair
  cases sorted with
  | nil =>
    have hnil : Nearest [] [] := by constructor <;> simp
    exact ⟨[], rfl, hnil.congr fun e => hperm.mem_iff⟩
  | cons e es =>
    refine ⟨keepNearest e es, removeDuplicates_cons fun hes => ?_,
      (keepNearest_nearest e es hpair).congr fun e => hperm.mem_iff⟩
    rw [hes] at hperm
    exact hsingle e (List.perm_singleton.mp hperm.symm)

/-- Sorted and filtered, the table has each address once, at the least of the distances that were
collected for it. -/
theorem removeDuplicates_spec {collected sorted : List RouteEntry}
    (hsort : IsQsort collected sorted) (hmask : ∀ e ∈ collected, e.mask = BROAD_IP)
    (hsingle : ∀ e, collected = [e] → e.dist ≤ 20) :
    (∀ e ∈ removeDuplicates sorted, e ∈ collected ∧ e.dist ≤ 20) ∧
      ((removeDuplicates sorted).map RouteEntry.ipAddr).Nodup ∧
      ∀ a k, Reports (removeDuplicates sorted) a k ↔
        k ≤ 20 ∧ IsLeast {k | Reports collected a k} k := by
  obtain ⟨kept, hkept, hnear⟩ := removeDuplicates_nearest hsort hsingle
  have hmem : ∀ e, e ∈ removeDuplicates sorted ↔ e ∈ kept ∧ e.dist ≤ 20 := by
    intro e
    rw [hkept, List.mem_filter, decide_eq_true_iff]
  have hkey : ∀ e ∈ collected, ∀ e' ∈ collected, e.ipAddr = e'.ipAddr → e.key = e'.key :=
    fun e he e' he' hip => key_eq_iff.mpr ⟨hip, (hmask e he).trans (hmask e' he').symm⟩
  refine ⟨fun e he => ⟨hnear.mem e ((hmem e).mp he).1, ((hmem e).mp he).2⟩, ?_, fun a k => ?_⟩
  · rw [List.Nodup, List.pairwise_map, hkept]
    refine (hnear.sorted.filter _).imp_of_mem fun {e e'} he he' hlt hip => ?_
    have := hkey e (hnear.mem e (List.mem_filter.mp he).1) e'
      (hnear.mem e' (List.mem_filter.mp he').1) hip
    omega
  · constructor
    · rintro ⟨e, he, rfl, rfl⟩
      obtain ⟨he, hdist⟩ := (hmem e).mp he
      refine ⟨hdist, ⟨e, hnear.mem e he, rfl, rfl⟩, ?_⟩
      rintro k ⟨e', he', hip, rfl⟩
      exact hnear.least e he e' he' (hkey e' he' e (hnear.mem e he) hip)
    · rintro ⟨hle, ⟨e, he, rfl, rfl⟩, hmin⟩
      obtain ⟨e', he', hsame⟩ := hnear.covers e he
      have hip := (key_eq_iff.mp hsame).1
      have hdist : e'.dist.toNat = e.dist.toNat :=
        le_antisymm (hnear.least e' he' e he hsame.symm) (hmin ⟨e', hnear.mem e' he', hip, rfl⟩)
      have hle' : e'.dist.toNat ≤ 20 := hdist.trans_le hle
      exact ⟨e', (hmem e').mpr ⟨he', hle'⟩, hip, hdist⟩

end LabNetstack
