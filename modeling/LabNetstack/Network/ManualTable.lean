import LabNetstack.Lib.Block
import LabNetstack.Lib.Run
import LabNetstack.Network.Route

/-!
# The space of the manual table

`setRoutingTable` asks for space before it writes the first entry, and again whenever the number of
entries is a power of two from sixteen on. Both sizes are wrong: the first is that of sixteen
pointers, which is four entries, and the others count an entry as one byte. The fifth entry is
written behind the block; until then the table holds what `setRoutingTable` of a host says.

## Main results

* `ManRouteTable.keeps_iff` — the table keeps all of its entries exactly as long as they are no more
  than four
* `manRouteTable_calls` — what the entries are
-/

namespace LabNetstack

open Layout Block

/-! ### Entries in a block -/

/-- The five assignments to the entry that lies at `off`, as they stand in the source. -/
def storeEntry (e : RouteEntry) (off : ℕ) (block : List Byte) : Option (List Byte) := do
  let block ← poke? block (off + 8) (uint64.bytes e.device)
  let block ← poke? block (off + 20) (MacAddr.layout.bytes e.macAddr)
  let block ← poke? block (off + 0) (uint32.bytes e.ipAddr)
  let block ← poke? block (off + 4) (uint32.bytes e.mask)
  poke? block (off + 16) (uint32.bytes e.dist)

/-- A place for an entry, field by field, with the bytes that align the next. -/
theorem exists_fields {cell : List Byte} (h : cell.length = 32) :
    ∃ ipAddr mask device dist macAddr pad : List Byte,
      cell = ipAddr ++ (mask ++ (device ++ (dist ++ (macAddr ++ pad)))) ∧
      ipAddr.length = 4 ∧ mask.length = 4 ∧ device.length = 8 ∧ dist.length = 4 ∧
      macAddr.length = 6 := by
  have hsplit : ∀ (n : ℕ) {bs : List Byte}, n ≤ bs.length →
      ∃ front rest, bs = front ++ rest ∧ front.length = n ∧ rest.length = bs.length - n :=
    fun n bs hn => ⟨bs.take n, bs.drop n, (List.take_append_drop n bs).symm,
      List.length_take_of_le hn, List.length_drop⟩
  obtain ⟨ipAddr, rest, rfl, hip, hrest⟩ := hsplit 4 (by omega : 4 ≤ cell.length)
  obtain ⟨mask, rest, rfl, hmask, hrest⟩ := hsplit 4 (by omega : 4 ≤ rest.length)
  obtain ⟨device, rest, rfl, hdevice, hrest⟩ := hsplit 8 (by omega : 8 ≤ rest.length)
  obtain ⟨dist, rest, rfl, hdist, hrest⟩ := hsplit 4 (by omega : 4 ≤ rest.length)
  obtain ⟨macAddr, pad, rfl, hmac, -⟩ := hsplit 6 (by omega : 6 ≤ rest.length)
  exact ⟨ipAddr, mask, device, dist, macAddr, pad, rfl, hip, hmask, hdevice, hdist, hmac⟩

/-- What the bytes of a cell say, whatever stands behind the fields. -/
theorem read_fields (e : RouteEntry) (rest : List Byte) :
    RouteEntry.layout.read (uint32.bytes e.ipAddr ++ (uint32.bytes e.mask ++
      (uint64.bytes e.device ++ (uint32.bytes e.dist ++ (MacAddr.layout.bytes e.macAddr ++
        rest))))) = e := by
  change RouteEntry.mk (uint32.read _) (uint32.read (List.drop uint32.size _))
    (uint64.read (List.drop uint32.size (List.drop uint32.size _)))
    (uint32.read (List.drop uint64.size (List.drop uint32.size (List.drop uint32.size _))))
    (MacAddr.layout.read (List.drop uint32.size (List.drop uint64.size (List.drop uint32.size
      (List.drop uint32.size _))))) = e
  simp only [Struct.drop_append, Struct.read_append]

/-- **One entry is written**, in its place and nowhere else. -/
theorem storeEntry_cell (e : RouteEntry) (front : List Byte) {cell : List Byte}
    (hcell : cell.length = 32) (behind : List Byte) :
    ∃ cell', storeEntry e front.length (front ++ (cell ++ behind)) =
        some (front ++ (cell' ++ behind)) ∧
      cell'.length = 32 ∧ ∀ rest, RouteEntry.layout.read (cell' ++ rest) = e := by
  obtain ⟨ipAddr, mask, device, dist, macAddr, pad, rfl, hip, hmask, hdevice, hdist, hmac⟩ :=
    exists_fields hcell
  have hip' : (uint32.bytes e.ipAddr).length = 4 := uint32.length_bytes _
  have hmask' : (uint32.bytes e.mask).length = 4 := uint32.length_bytes _
  have hdevice' : (uint64.bytes e.device).length = 8 := uint64.length_bytes _
  have hdist' : (uint32.bytes e.dist).length = 4 := uint32.length_bytes _
  have hmac' : (MacAddr.layout.bytes e.macAddr).length = 6 := MacAddr.layout.length_bytes _
  have hfield : ∀ (before old new rest : List Byte) (k : ℕ), k = before.length →
      old.length = new.length → poke? (front ++ (before ++ (old ++ rest))) (front.length + k) new =
        some (front ++ (before ++ (new ++ rest))) := by
    intro before old new rest k hk hsize
    have hoff : front.length + k = (front ++ before).length := by rw [List.length_append, hk]
    have hpoke := poke?_field hoff hsize rest
    rwa [List.append_assoc, List.append_assoc] at hpoke
  -- the fields in the order in which they are assigned
  have hfirst := hfield (ipAddr ++ mask) device (uint64.bytes e.device)
    (dist ++ (macAddr ++ (pad ++ behind))) 8 (by simp [hip, hmask]) (hdevice.trans hdevice'.symm)
  have hsecond := hfield (ipAddr ++ (mask ++ (uint64.bytes e.device ++ dist))) macAddr
    (MacAddr.layout.bytes e.macAddr) (pad ++ behind) 20 (by simp [hip, hmask, hdevice', hdist])
    (hmac.trans hmac'.symm)
  have hthird := hfield [] ipAddr (uint32.bytes e.ipAddr) (mask ++ (uint64.bytes e.device ++
    (dist ++ (MacAddr.layout.bytes e.macAddr ++ (pad ++ behind))))) 0 rfl (hip.trans hip'.symm)
  have hfourth := hfield (uint32.bytes e.ipAddr) mask (uint32.bytes e.mask)
    (uint64.bytes e.device ++ (dist ++ (MacAddr.layout.bytes e.macAddr ++ (pad ++ behind)))) 4
    hip'.symm (hmask.trans hmask'.symm)
  have hfifth := hfield (uint32.bytes e.ipAddr ++ (uint32.bytes e.mask ++ uint64.bytes e.device))
    dist (uint32.bytes e.dist) (MacAddr.layout.bytes e.macAddr ++ (pad ++ behind)) 16
    (by simp [hip', hmask', hdevice']) (hdist.trans hdist'.symm)
  simp only [List.append_assoc, List.nil_append] at hfirst hsecond hthird hfourth hfifth
  refine ⟨uint32.bytes e.ipAddr ++ (uint32.bytes e.mask ++ (uint64.bytes e.device ++
    (uint32.bytes e.dist ++ (MacAddr.layout.bytes e.macAddr ++ pad)))), ?_, ?_, ?_⟩
  · simp only [storeEntry, List.append_assoc, hfirst, hsecond, hthird, hfourth, hfifth,
      Option.bind_eq_bind, Option.bind_some]
  · simp only [List.length_append, hip, hmask, hdevice, hdist, hmac] at hcell
    simp only [List.length_append, hip', hmask', hdevice', hdist', hmac']
    exact hcell
  · intro rest
    simp only [List.append_assoc]
    exact read_fields e (pad ++ rest)

/-! ### The table -/

/-- The block that `manRouteTable` points to, which has no bytes before the first call, and
`manRouteTableCnt`. -/
structure ManRouteTable where
  block : List Byte
  cnt : BitVec 32

/-- The arguments of `setRoutingTable`, and what new memory holds when it asks for some. -/
structure RouteArgs where
  dest : IPAddr
  mask : IPAddr
  nextHopMAC : MacAddr
  deviceName : Device → Bool
  junk : ℕ → Byte

/-- The entry that the call is to make, if there is such a device. -/
def RouteArgs.entry? (deviceList : List Device) (args : RouteArgs) : Option RouteEntry :=
  (findDevice args.deviceName deviceList).map fun device =>
    { ipAddr := args.dest, mask := args.mask, device := device.address, dist := 0
      macAddr := args.nextHopMAC }

namespace ManRouteTable

/-- The allocation: sixteen pointers for the first entry, and for a power of two from sixteen on
twice as many bytes as there are entries. -/
def grow (junk : ℕ → Byte) (t : ManRouteTable) : List Byte :=
  let block := if t.cnt = 0 then realloc junk t.block (8 * 16) else t.block
  if 16 ≤ t.cnt then
    (List.range 32).foldl (fun block i =>
      if t.cnt = (1 : BitVec 32) <<< i then realloc junk block (2 * t.cnt).toNat else block) block
  else block

def setRoutingTable (deviceList : List Device) (args : RouteArgs) (t : ManRouteTable) :
    Option (ManRouteTable × ℤ) :=
  match args.entry? deviceList with
  | none => some (t, -1)
  | some e =>
    (storeEntry e (RouteEntry.layout.size * t.cnt.toNat) (t.grow args.junk)).map fun block =>
      (⟨block, t.cnt + 1⟩, 0)

def step (deviceList : List Device) (args : RouteArgs) (t : ManRouteTable) :
    Option ManRouteTable :=
  (t.setRoutingTable deviceList args).map Prod.fst

/-- The program starts with no table. -/
def start : ManRouteTable := ⟨[], 0⟩

/-- All writes are inside of the block, and afterwards it has the entries in the order of the
calls. -/
def Keeps (deviceList : List Device) (calls : List RouteArgs) : Prop :=
  ∃ t, Run.run (step deviceList) calls start = some t ∧
    t.cnt.toNat = (calls.filterMap (RouteArgs.entry? deviceList)).length ∧
    RouteEntry.layout.readArray? t.cnt.toNat t.block =
      some (calls.filterMap (RouteArgs.entry? deviceList))

/-! ### Four entries -/

/-- The entries stand at the front of the block, which has been allocated if there are any. -/
structure Holds (entries : List RouteEntry) (t : ManRouteTable) : Prop where
  cnt : t.cnt.toNat = entries.length
  block : ∃ stored free, t.block = stored ++ free ∧ stored.length = 32 * entries.length ∧
    ∀ rest, RouteEntry.layout.readArray entries.length (stored ++ rest) = entries
  size : t.cnt = 0 ∨ t.block.length = 128

theorem holds_start : Holds [] start := ⟨rfl, ⟨[], [], rfl, rfl, fun _ => rfl⟩, .inl rfl⟩

variable {entries : List RouteEntry} {t : ManRouteTable}

/-- With no more than four entries the block has 128 bytes. -/
theorem Holds.grow (h : Holds entries t) (hfew : entries.length ≤ 4) (junk : ℕ → Byte) :
    ∃ stored free, t.grow junk = stored ++ free ∧ stored.length = 32 * entries.length ∧
      (stored ++ free).length = 128 ∧
      ∀ rest, RouteEntry.layout.readArray entries.length (stored ++ rest) = entries := by
  have hsmall : ¬ (16 : BitVec 32) ≤ t.cnt := by
    have := h.cnt
    rw [BitVec.le_def]
    change ¬ 16 ≤ t.cnt.toNat
    omega
  rw [ManRouteTable.grow, if_neg hsmall]
  by_cases hzero : t.cnt = 0
  · have hnil : entries = [] := by
      rw [← List.length_eq_zero_iff, ← h.cnt, hzero]
      rfl
    subst hnil
    rw [if_pos hzero]
    exact ⟨[], realloc junk t.block (8 * 16), rfl, rfl, length_realloc .., fun _ => rfl⟩
  · obtain ⟨stored, free, hblock, hstored, hread⟩ := h.block
    rw [if_neg hzero, hblock]
    exact ⟨stored, free, rfl, hstored, hblock ▸ h.size.resolve_left hzero, hread⟩

/-- There is room for a fourth entry -/
theorem Holds.setRoutingTable (h : Holds entries t) (hfew : entries.length < 4)
    {deviceList : List Device} {args : RouteArgs} {e : RouteEntry}
    (he : args.entry? deviceList = some e) :
    ∃ t', t.setRoutingTable deviceList args = some (t', 0) ∧ Holds (entries ++ [e]) t' := by
  obtain ⟨stored, free, hgrow, hstored, hsize, hread⟩ := h.grow (Nat.le_of_lt hfew) args.junk
  rw [List.length_append] at hsize
  obtain ⟨cell', hwrite, hcell', hentry⟩ := storeEntry_cell e stored
    (List.length_take_of_le (by omega : 32 ≤ free.length)) (free.drop 32)
  rw [List.take_append_drop] at hwrite
  refine ⟨⟨stored ++ (cell' ++ free.drop 32), t.cnt + 1⟩, ?_, ?_, ?_, ?_⟩
  · rw [ManRouteTable.setRoutingTable, he]
    dsimp only
    rw [hgrow, RouteEntry.size_layout, h.cnt, ← hstored, hwrite, Option.map_some]
  · have hcnt := h.cnt
    rw [BitVec.toNat_add, List.length_append, List.length_singleton]
    change (t.cnt.toNat + 1) % 2 ^ 32 = entries.length + 1
    omega
  · refine ⟨stored ++ cell', free.drop 32, (List.append_assoc ..).symm, ?_, fun rest => ?_⟩
    · rw [List.length_append, hstored, hcell', List.length_append, List.length_singleton]
      omega
    · have hdrop : (stored ++ (cell' ++ rest)).drop (RouteEntry.layout.size * entries.length) =
          cell' ++ rest := List.drop_left' hstored
      have hone : RouteEntry.layout.readArray 1 (cell' ++ rest) = [e] :=
        congrArg (fun e => [e]) (hentry rest)
      rw [List.append_assoc, List.length_append, List.length_singleton, Struct.readArray_add, hread,
        hdrop, hone]
  · refine Or.inr ?_
    simp only [List.length_append, List.length_drop, hcell']
    omega

/-- and none for a fifth. -/
theorem Holds.setRoutingTable_full (h : Holds entries t) (hfull : entries.length = 4)
    {deviceList : List Device} {args : RouteArgs} {e : RouteEntry}
    (he : args.entry? deviceList = some e) : t.setRoutingTable deviceList args = none := by
  obtain ⟨stored, free, hgrow, -, hsize, -⟩ := h.grow (Nat.le_of_eq hfull) args.junk
  have hout : poke? (stored ++ free) (32 * t.cnt.toNat + 8) (uint64.bytes e.device) = none := by
    apply poke?_outside
    have hdevice : (uint64.bytes e.device).length = 8 := uint64.length_bytes _
    rw [h.cnt, hfull, hsize, hdevice]
    decide
  rw [ManRouteTable.setRoutingTable, he]
  dsimp only
  rw [hgrow, storeEntry, RouteEntry.size_layout, hout]
  rfl

theorem Holds.readArray? (h : Holds entries t) :
    RouteEntry.layout.readArray? t.cnt.toNat t.block = some entries := by
  obtain ⟨stored, free, hblock, hstored, hread⟩ := h.block
  have hroom : RouteEntry.layout.size * entries.length ≤ (stored ++ free).length := by
    rw [List.length_append, hstored, RouteEntry.size_layout]
    omega
  rw [h.cnt, hblock, Struct.readArray?, if_pos hroom, hread]

/-- A run gets through while there is room for its entries. -/
theorem Holds.run (deviceList : List Device) (calls : List RouteArgs) (h : Holds entries t)
    (hfew : entries.length ≤ 4) :
    if entries.length + (calls.filterMap (RouteArgs.entry? deviceList)).length ≤ 4 then
      ∃ t', Run.run (step deviceList) calls t = some t' ∧
        Holds (entries ++ calls.filterMap (RouteArgs.entry? deviceList)) t'
    else Run.run (step deviceList) calls t = none := by
  induction calls generalizing entries t with
  | nil =>
    rw [List.filterMap_nil, List.append_nil, List.length_nil, Nat.add_zero, if_pos hfew]
    exact ⟨t, rfl, h⟩
  | cons args calls ih =>
    cases he : args.entry? deviceList with
    | none =>
      have hstep : step deviceList args t = some t := by
        rw [step, ManRouteTable.setRoutingTable, he]
        rfl
      rw [List.filterMap_cons_none he, Run.run_cons_some hstep]
      exact ih h hfew
    | some e =>
      rw [List.filterMap_cons_some he]
      by_cases hroom : entries.length < 4
      · obtain ⟨t', hcall, h'⟩ := h.setRoutingTable hroom he
        have hstep : step deviceList args t = some t' := by
          rw [step, hcall]
          rfl
        have hrest := ih h' (by rw [List.length_append, List.length_singleton]; omega)
        rw [List.append_assoc, List.singleton_append, List.length_append, List.length_singleton,
          Nat.add_assoc, Nat.add_comm 1] at hrest
        rw [Run.run_cons_some hstep, List.length_cons]
        exact hrest
      · have hnone := h.setRoutingTable_full (by omega) he
        rw [if_neg (by rw [List.length_cons]; omega), Run.run_cons, step, hnone]
        rfl

theorem keeps_of_le {deviceList : List Device} {calls : List RouteArgs}
    (h : (calls.filterMap (RouteArgs.entry? deviceList)).length ≤ 4) : Keeps deviceList calls := by
  have hrun := holds_start.run deviceList calls (Nat.zero_le _)
  rw [List.length_nil, Nat.zero_add, List.nil_append, if_pos h] at hrun
  obtain ⟨t, hcalls, hholds⟩ := hrun
  exact ⟨t, hcalls, hholds.cnt, hholds.readArray?⟩

theorem not_keeps_of_lt {deviceList : List Device} {calls : List RouteArgs}
    (h : 4 < (calls.filterMap (RouteArgs.entry? deviceList)).length) :
    ¬ Keeps deviceList calls := by
  have hrun := holds_start.run deviceList calls (Nat.zero_le _)
  rw [List.length_nil, Nat.zero_add, if_neg (Nat.not_le_of_lt h)] at hrun
  rintro ⟨t, hcalls, -⟩
  exact absurd (hrun.symm.trans hcalls) (Option.some_ne_none _).symm

/-- **The space of the manual table.** Whatever the calls, the table keeps its entries exactly if
there are at most four. -/
theorem keeps_iff (deviceList : List Device) (calls : List RouteArgs) :
    Keeps deviceList calls ↔ (calls.filterMap (RouteArgs.entry? deviceList)).length ≤ 4 := by
  refine ⟨fun hkeeps => ?_, keeps_of_le⟩
  by_contra hmany
  exact not_keeps_of_lt (Nat.lt_of_not_le hmany) hkeeps

/-- Five calls for one device. -/
theorem not_keeps : ¬ ∀ (deviceList : List Device) (calls : List RouteArgs),
    Keeps deviceList calls := by
  intro hclaim
  refine not_keeps_of_lt ?_ (hclaim [⟨1, BROAD_MAC, 1⟩]
    (List.replicate 5 ⟨7, BROAD_IP, BROAD_MAC, fun _ => true, fun _ => 0⟩))
  decide

end ManRouteTable

/-! ### The table of a host -/

variable {τ : Type*}

/-- The entries that the calls are to make are those of a host that they are made on. -/
theorem manRouteTable_calls (calls : List RouteArgs) (host : Host τ) :
    (calls.foldl (fun host args =>
      (setRoutingTable args.dest args.mask args.nextHopMAC args.deviceName host).1)
        host).manRouteTable =
      host.manRouteTable ++ calls.filterMap (RouteArgs.entry? host.deviceList) := by
  induction calls generalizing host with
  | nil => exact (List.append_nil _).symm
  | cons args calls ih =>
    rw [List.foldl_cons, ih]
    cases hdevice : findDevice args.deviceName host.deviceList with
    | none =>
      have hentry : args.entry? host.deviceList = none := by
        rw [RouteArgs.entry?, hdevice, Option.map_none]
      rw [setRoutingTable, hdevice, List.filterMap_cons_none hentry]
    | some device =>
      have hentry : args.entry? host.deviceList = some
          { ipAddr := args.dest, mask := args.mask, device := device.address, dist := 0
            macAddr := args.nextHopMAC } := by
        rw [RouteArgs.entry?, hdevice, Option.map_some]
      rw [setRoutingTable, hdevice, List.filterMap_cons_some hentry]
      exact List.append_assoc ..

end LabNetstack
