import LabNetstack.Lib.Compaction
import LabNetstack.Network.Route

/-!
# What an update selects

An update throws the collected entries and those of the own devices together, sorts them, and lets
`removeDuplicates` compact the array in place, once to keep the nearest of each key and once to
leave out what is too far. Neither the order in which the entries were collected nor what `qsort`
makes of entries that compare equal has a say in what is published: for each key it is the least
distance that was collected, unless that is over twenty.

The early return for short arrays skips the second loop too. With a device there is an entry at
distance zero, and an array of one entry has nothing else.

## Main results

* `removeDuplicatesLoops_eq` — the two loops on the array leave what `removeDuplicates` says
* `updateRouteTable_selects` — what the online table has after an update
-/

namespace LabNetstack

open Compaction

/-! ### The loops -/

/-- The body of the first loop, on the array and `uniqueIndex`. -/
def uniqueBody : List RouteEntry × ℕ → ℕ → Option (List RouteEntry × ℕ)
  | (entries, uniqueIndex), i => do
    let e ← entries[i]?
    let last ← entries[uniqueIndex - 1]?
    if e.ipAddr ≠ last.ipAddr ∨ e.mask ≠ last.mask then
      return (← write? entries uniqueIndex e, uniqueIndex + 1)
    else if e.dist < last.dist then
      return (← write? entries (uniqueIndex - 1) e, uniqueIndex)
    else
      return (entries, uniqueIndex)

/-- The body of the second, on the array and `index`. -/
def nearBody : List RouteEntry × ℕ → ℕ → Option (List RouteEntry × ℕ)
  | (entries, index), i => do
    let e ← entries[i]?
    if e.dist ≤ 20 then
      return (← write? entries index e, index + 1)
    else
      return (entries, index)

/-- `removeDuplicates` on the array: what is left of it. -/
def removeDuplicatesLoops (entries : List RouteEntry) : Option (List RouteEntry) :=
  if entries.length ≤ 1 then some entries
  else do
    let (entries, uniqueIndex) ←
      (List.range' 1 (entries.length - 1)).foldlM uniqueBody (entries, 1)
    let (entries, index) ← (List.range' 0 uniqueIndex).foldlM nearBody (entries, 0)
    return entries.take index

/-- What the first body does to the entries that are kept. -/
def keepUnique (kept : List RouteEntry) (e : RouteEntry) : List RouteEntry :=
  match kept.getLast? with
  | none => kept
  | some last =>
    if e.ipAddr ≠ last.ipAddr ∨ e.mask ≠ last.mask then kept ++ [e]
    else if e.dist < last.dist then kept.dropLast ++ [e]
    else kept

def keepNear (kept : List RouteEntry) (e : RouteEntry) : List RouteEntry :=
  if e.dist ≤ 20 then kept ++ [e] else kept

theorem keepUnique_concat (front : List RouteEntry) (last e : RouteEntry) :
    keepUnique (front ++ [last]) e =
      if e.ipAddr ≠ last.ipAddr ∨ e.mask ≠ last.mask then front ++ [last] ++ [e]
      else if e.dist < last.dist then front ++ [e]
      else front ++ [last] := by
  rw [keepUnique, List.getLast?_concat, List.dropLast_concat]

theorem foldl_keepUnique (front : List RouteEntry) (last : RouteEntry) (es : List RouteEntry) :
    es.foldl keepUnique (front ++ [last]) = front ++ keepNearest last es := by
  induction es generalizing front last with
  | nil => rfl
  | cons e es ih =>
    rw [List.foldl_cons, keepUnique_concat, keepNearest]
    split_ifs
    · rw [ih, List.append_assoc, List.singleton_append]
    · exact ih front e
    · exact ih front last

theorem foldl_keepNear (kept es : List RouteEntry) :
    es.foldl keepNear kept = kept ++ es.filter fun e => e.dist ≤ 20 := by
  induction es generalizing kept with
  | nil => rw [List.foldl_nil, List.filter_nil, List.append_nil]
  | cons e es ih =>
    rw [List.foldl_cons, ih, keepNear, List.filter_cons]
    simp only [decide_eq_true_eq]
    split_ifs
    · rw [List.append_assoc, List.singleton_append]
    · rfl

theorem uniqueBody_compacting {xs kept rest : List RouteEntry} {e : RouteEntry} {i : ℕ}
    (hne : kept ≠ []) (h : Compacting xs kept (e :: rest) i) :
    ∃ xs', uniqueBody (xs, kept.length) i = some (xs', (keepUnique kept e).length) ∧
      Compacting xs' (keepUnique kept e) rest (i + 1) ∧ keepUnique kept e ≠ [] := by
  obtain ⟨front, last, rfl⟩ := (List.eq_nil_or_concat' kept).resolve_left hne
  have hlast : (front ++ [last]).length - 1 = front.length := by
    rw [List.length_append, List.length_singleton, Nat.add_sub_cancel]
  simp only [uniqueBody, keepUnique_concat, hlast, h.getElem?, h.getElem?_kept, Option.bind_eq_bind,
    Option.bind_some]
  split_ifs
  · -- another key: the entry is written behind the last
    obtain ⟨xs', hwrite, hnext⟩ := h.push
    refine ⟨xs', ?_, hnext, List.concat_ne_nil _ _⟩
    rw [hwrite, Option.bind_some]
    simp only [List.length_append, List.length_singleton, Option.pure_def]
  · -- nearer: it is written over the last
    obtain ⟨xs', hwrite, hnext⟩ := h.replace
    refine ⟨xs', ?_, hnext, List.concat_ne_nil _ _⟩
    simp only [hwrite, Option.bind_some, List.length_append, List.length_singleton, Option.pure_def]
  · exact ⟨xs, rfl, h.skip, List.concat_ne_nil _ _⟩

theorem nearBody_compacting {xs kept rest : List RouteEntry} {e : RouteEntry} {i : ℕ}
    (h : Compacting xs kept (e :: rest) i) :
    ∃ xs', nearBody (xs, kept.length) i = some (xs', (keepNear kept e).length) ∧
      Compacting xs' (keepNear kept e) rest (i + 1) := by
  simp only [nearBody, keepNear, h.getElem?, Option.bind_eq_bind, Option.bind_some]
  split_ifs
  · obtain ⟨xs', hwrite, hnext⟩ := h.push
    refine ⟨xs', ?_, hnext⟩
    simp only [hwrite, Option.bind_some, List.length_append, List.length_singleton, Option.pure_def]
  · exact ⟨xs, rfl, h.skip⟩

/-- **In place.** The loops never read what they have overwritten, and never write outside. -/
theorem removeDuplicatesLoops_eq (entries : List RouteEntry) :
    removeDuplicatesLoops entries = some (removeDuplicates entries) := by
  match entries with
  | [] => rfl
  | [e] => rfl
  | e :: e' :: es =>
    obtain ⟨xs, hunique, hxs, -⟩ := Compacting.loop (p := (· ≠ []))
      (fun _ _ _ _ _ => uniqueBody_compacting) (List.cons_ne_nil e [])
      (Compacting.start (e :: e' :: es) [e] (e' :: es ++ []) (by rw [List.append_nil]; rfl))
    have hfold := foldl_keepUnique [] e (e' :: es)
    rw [List.nil_append, List.nil_append] at hfold
    rw [hfold] at hunique hxs
    obtain ⟨tail, hsplit, -⟩ := hxs
    rw [List.append_nil] at hsplit
    obtain ⟨xs', hnear, hxs', -⟩ := Compacting.loop (p := fun _ => True)
      (fun _ _ _ _ _ _ h => by simpa using nearBody_compacting h) trivial
      (Compacting.start xs [] _ hsplit)
    rw [foldl_keepNear, List.nil_append] at hnear hxs'
    have hlt : ¬ (e :: e' :: es).length ≤ 1 := by
      rw [List.length_cons, List.length_cons]
      omega
    have hfirst : (List.range' 1 ((e :: e' :: es).length - 1)).foldlM uniqueBody
        (e :: e' :: es, 1) = some (xs, (keepNearest e (e' :: es)).length) := hunique
    have hsecond : (List.range' 0 (keepNearest e (e' :: es)).length).foldlM nearBody (xs, 0) =
        some (xs', ((keepNearest e (e' :: es)).filter fun e => e.dist ≤ 20).length) := hnear
    rw [removeDuplicatesLoops, if_neg hlt, hfirst, Option.bind_eq_bind, Option.bind_some]
    simp only [hsecond, Option.bind_some, hxs'.take]
    rfl

/-! ### What is published -/

/-- At which distances the entries have an address under a mask. -/
def distances (entries : List RouteEntry) (ipAddr mask : IPAddr) : Set ℕ :=
  {d | ∃ e ∈ entries, e.ipAddr = ipAddr ∧ e.mask = mask ∧ e.dist.toNat = d}

/-- An entry without the way that it points to. -/
def RouteEntry.triple (e : RouteEntry) : IPAddr × IPAddr × BitVec 32 := (e.ipAddr, e.mask, e.dist)

def triples (table : List RouteEntry) : Set (IPAddr × IPAddr × BitVec 32) :=
  {t | ∃ e ∈ table, e.triple = t}

/-- For each key the least distance that was collected, if it is near enough. -/
def selected (entries : List RouteEntry) : Set (IPAddr × IPAddr × BitVec 32) :=
  {t | t.2.2.toNat ≤ 20 ∧ IsLeast (distances entries t.1 t.2.1) t.2.2.toNat}

/-- What is collected in another order is the same selection. -/
theorem selected_perm {entries entries' : List RouteEntry} (h : entries.Perm entries') :
    selected entries = selected entries' := by
  have hsame : distances entries = distances entries' := by
    funext ipAddr mask
    refine Set.ext fun d => exists_congr fun e => ?_
    rw [h.mem_iff]
  rw [selected, selected, hsame]

/-- The table has the nearest entry for each key of the collected ones, in order, and none that is
too far. -/
structure Selects (collected table : List RouteEntry) : Prop where
  sorted : table.Pairwise fun a b => a.mask < b.mask ∨ a.mask = b.mask ∧ a.ipAddr < b.ipAddr
  input : ∀ e ∈ table, e ∈ collected
  least : ∀ e ∈ table, IsLeast (distances collected e.ipAddr e.mask) e.dist.toNat
  near : ∀ e ∈ table, e.dist.toNat ≤ 20
  one : ∀ ipAddr mask d, IsLeast (distances collected ipAddr mask) d → d ≤ 20 →
    ∃! e, e ∈ table ∧ e.ipAddr = ipAddr ∧ e.mask = mask

theorem Selects.triples_eq {collected table : List RouteEntry} (h : Selects collected table) :
    triples table = selected collected := by
  refine Set.ext fun ⟨ipAddr, mask, dist⟩ => ⟨?_, ?_⟩
  · rintro ⟨e, he, htriple⟩
    obtain ⟨rfl, rfl, rfl⟩ : e.ipAddr = ipAddr ∧ e.mask = mask ∧ e.dist = dist := by
      simpa [RouteEntry.triple] using htriple
    exact ⟨h.near e he, h.least e he⟩
  · rintro ⟨hnear, hleast⟩
    obtain ⟨e, ⟨he, rfl, rfl⟩, -⟩ := h.one ipAddr mask _ hleast hnear
    refine ⟨e, he, ?_⟩
    rw [RouteEntry.triple, BitVec.eq_of_toNat_eq ((h.least e he).unique hleast)]

theorem key_lt_iff {a b : RouteEntry} :
    a.key < b.key ↔ a.mask < b.mask ∨ a.mask = b.mask ∧ a.ipAddr < b.ipAddr := by
  have ha := a.ipAddr.isLt
  have hb := b.ipAddr.isLt
  rw [RouteEntry.key, RouteEntry.key, BitVec.lt_def, BitVec.lt_def, BitVec.toNat_eq]
  omega

theorem Nearest.selects {collected kept : List RouteEntry} (h : Nearest collected kept) :
    Selects collected (kept.filter fun e => e.dist ≤ 20) := by
  have hmem : ∀ e, e ∈ kept.filter (fun e => e.dist ≤ 20) ↔ e ∈ kept ∧ e.dist.toNat ≤ 20 := by
    intro e
    rw [List.mem_filter, decide_eq_true_eq]
    exact Iff.rfl
  have hleast : ∀ e ∈ kept, IsLeast (distances collected e.ipAddr e.mask) e.dist.toNat := by
    intro e he
    refine ⟨⟨e, h.mem e he, rfl, rfl, rfl⟩, ?_⟩
    rintro _ ⟨e', he', hip, hmask, rfl⟩
    exact h.least e he e' he' (key_eq_iff.mpr ⟨hip, hmask⟩)
  refine ⟨?_, ?_, ?_, ?_, ?_⟩
  · exact (h.sorted.filter _).imp fun hlt => key_lt_iff.mp hlt
  · intro e he
    exact h.mem e ((hmem e).mp he).1
  · intro e he
    exact hleast e ((hmem e).mp he).1
  · intro e he
    exact ((hmem e).mp he).2
  · intro ipAddr mask d hd hnear
    obtain ⟨e', he', rfl, rfl, rfl⟩ := hd.1
    obtain ⟨e, he, hkey⟩ := h.covers e' he'
    have hsame := key_eq_iff.mp hkey
    have hdist : e.dist.toNat = e'.dist.toNat := by
      have hown := hleast e he
      rw [hsame.1, hsame.2] at hown
      exact hown.unique hd
    refine ⟨e, ⟨(hmem e).mpr ⟨he, hdist ▸ hnear⟩, hsame⟩, ?_⟩
    rintro e'' ⟨he'', hip, hmask⟩
    have hkey' : e''.key = e.key := (key_eq_iff.mpr ⟨hip, hmask⟩).trans hkey.symm
    have hnodup : (kept.map RouteEntry.key).Nodup := List.pairwise_map.mpr (h.sorted.imp ne_of_lt)
    exact List.inj_on_of_nodup_map hnodup ((hmem e'').mp he'').1 he hkey'

variable {τ : Type*} {host : Host τ}

/-- With a device, a single entry is the default of that device. -/
theorem selects_removeDuplicates {deviceList : List Device} (hdevices : deviceList ≠ [])
    {tmp sorted : List RouteEntry} (hsort : IsQsort (addDefaultRouteTable deviceList tmp) sorted) :
    Selects (addDefaultRouteTable deviceList tmp) (removeDuplicates sorted) := by
  have hsingle : ∀ e, addDefaultRouteTable deviceList tmp = [e] → e.dist ≤ 20 := by
    intro e he
    obtain ⟨device, hdevice⟩ := List.exists_mem_of_ne_nil _ hdevices
    have hdefault : defaultEntry device ∈ [e] :=
      he ▸ List.mem_append_right _ (List.mem_map_of_mem hdevice)
    rw [← List.mem_singleton.mp hdefault]
    exact show (0 : BitVec 32) ≤ 20 by decide
  obtain ⟨kept, hkept, hnear⟩ := removeDuplicates_nearest hsort hsingle
  rw [hkept]
  exact hnear.selects

/-- **What an update publishes.** Whatever was collected, and however `qsort` leaves it, an update
that is due ends with the selection in the online table and nothing in the other; and had the same
entries been collected in another order, it would have been the same selection. -/
theorem updateRouteTable_selects (hdevices : host.deviceList ≠ []) {now : ℕ}
    (hdue : tooEarly updateInterval now host.lastUpdate = false) {sorted : List RouteEntry}
    (hsort : IsQsort (addDefaultRouteTable host.deviceList host.tmpRouteTable) sorted) :
    ∃ host', updateRouteTable now sorted host = some host' ∧
      removeDuplicatesLoops sorted = some host'.onlineRouteTable ∧
      host'.tmpRouteTable = [] ∧
      Selects (addDefaultRouteTable host.deviceList host.tmpRouteTable) host'.onlineRouteTable ∧
      ∀ tmp, tmp.Perm host.tmpRouteTable → ∀ sorted',
        IsQsort (addDefaultRouteTable host.deviceList tmp) sorted' →
          ∃ host'', updateRouteTable now sorted' { host with tmpRouteTable := tmp } = some host'' ∧
            triples host''.onlineRouteTable = triples host'.onlineRouteTable := by
  have hupdate : ∀ tmp sorted, IsQsort (addDefaultRouteTable host.deviceList tmp) sorted →
      updateRouteTable now sorted { host with tmpRouteTable := tmp } =
        some { host with
          lastUpdate := some now
          onlineRouteTable := removeDuplicates sorted
          tmpRouteTable := [] } := by
    intro tmp sorted hsort
    rw [updateRouteTable, hdue, if_neg Bool.false_ne_true, if_pos hsort]
  have hselects := selects_removeDuplicates hdevices hsort
  refine ⟨_, hupdate _ _ hsort, removeDuplicatesLoops_eq sorted, rfl, hselects, ?_⟩
  intro tmp htmp sorted' hsort'
  refine ⟨_, hupdate _ _ hsort', ?_⟩
  rw [hselects.triples_eq, (selects_removeDuplicates hdevices hsort').triples_eq]
  exact selected_perm (htmp.append_right _)

/-- Two ways to one address, and an address that is too far away. -/
def collecting : Host Unit where
  deviceList := [⟨1, BROAD_MAC, 1⟩]
  manRouteTable := []
  onlineRouteTable := []
  tmpRouteTable := [⟨7, BROAD_IP, 1, 3, BROAD_MAC⟩, ⟨9, BROAD_IP, 1, 21, BROAD_MAC⟩,
    ⟨7, BROAD_IP, 1, 2, BROAD_MAC⟩]
  arpList := []
  resendIPTaskList := []
  id := 0
  lastBroad := none
  lastUpdate := none
  random_drop := 0
  wire := []
  upper := ()

/-- What `qsort` may leave of it. -/
def collectingSorted : List RouteEntry :=
  [⟨1, BROAD_IP, 1, 0, BROAD_MAC⟩, ⟨7, BROAD_IP, 1, 3, BROAD_MAC⟩, ⟨7, BROAD_IP, 1, 2, BROAD_MAC⟩,
    ⟨9, BROAD_IP, 1, 21, BROAD_MAC⟩]

theorem updateRouteTable_selects_collecting :
    ∃ host', updateRouteTable 0 collectingSorted collecting = some host' ∧
      Selects (addDefaultRouteTable collecting.deviceList collecting.tmpRouteTable)
        host'.onlineRouteTable := by
  have hdue : tooEarly updateInterval 0 collecting.lastUpdate = false := rfl
  have hsort : IsQsort (addDefaultRouteTable collecting.deviceList collecting.tmpRouteTable)
      collectingSorted := by decide
  obtain ⟨host', hupdate, -, -, hselects, -⟩ :=
    updateRouteTable_selects (List.cons_ne_nil _ _) hdue hsort
  exact ⟨host', hupdate, hselects⟩

end LabNetstack
