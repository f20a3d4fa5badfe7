import LabNetstack.Lib.LinkedList
import LabNetstack.Lib.Run
import LabNetstack.Network.ARP

/-!
# The ARP list in memory

`insertARPNode` and `queryARPList` as they walk over the nodes: a list with a head that carries
nothing, a pointer to its last node, and as many steps for a walk as there are nodes. `malloc` is
given the address it returns, where nothing is yet.

The list keeps one node for each address, with the MAC that was inserted last. But a query only says
whether there is a node: it returns before the line that would store the MAC.

## Main results

* `ARPList.insertARPNode_holds` — an insertion does to the nodes what it does to the pairs
* `ARPList.isMap_iff` — when a query gives what was inserted
-/

namespace LabNetstack

open LinkedList

/-- `struct ARPNode`. A pointer is an address, or `NULL`. -/
structure ARPNode where
  ipAddr : IPAddr
  macAddr : MacAddr
  delTime : BitVec 64
  nextPointer : Option ℕ

/-- `struct ARPList`, with the memory that its nodes are in. -/
structure ARPList where
  head : ℕ
  tail : ℕ
  heap : ℕ → Option ARPNode

namespace ARPList

/-- `initArpList`; but for its pointer the head is left as `malloc` returns it. -/
def initArpList (address : ℕ) (unset : ARPNode) : ARPList where
  head := address
  tail := address
  heap := Function.update (fun _ => none) address (some { unset with nextPointer := none })

/-- The loop of the two functions, which stops at the node of an address. -/
def walk (fuel : ℕ) (ipAddr : IPAddr) (list : ARPList) : Option (Option ℕ) :=
  match list.heap list.head with
  | none => none
  | some head =>
    search ARPNode.nextPointer list.heap (fun node => node.ipAddr = ipAddr) fuel head.nextPointer

def insertARPNode (fuel : ℕ) (address : ℕ) (arpNode : ARPNode) (list : ARPList) : Option ARPList :=
  match list.walk fuel arpNode.ipAddr with
  | none => none
  | some (some p) =>
    (list.heap p).map fun node => { list with
      heap := Function.update list.heap p
        (some { node with macAddr := arpNode.macAddr, delTime := arpNode.delTime }) }
  | some none =>
    let heap := Function.update list.heap address (some arpNode)
    (heap list.tail).map fun last => { list with
      heap := Function.update heap list.tail (some { last with nextPointer := some address })
      tail := address }

/-- What is returned, and what is in `*macAddr` then. The line that stores the MAC of the node
stands behind the `return`. -/
def queryARPList (fuel : ℕ) (ipAddr : IPAddr) (macAddr : MacAddr) (list : ARPList) :
    Option (ℤ × MacAddr) :=
  match list.walk fuel ipAddr with
  | none => none
  | some (some _) => some (0, macAddr)
  | some none => some (-1, macAddr)

/-! ### What the memory holds -/

/-- A node of the list, with its address. -/
abbrev Cell := ℕ × ARPNode

/-- The pairs of the list, as a host has them. -/
def contents (cells : List Cell) : List (IPAddr × MacAddr) :=
  cells.map fun c => (c.2.ipAddr, c.2.macAddr)

/-- The nodes behind the head, from which one comes to the end; `tail` is the last. -/
structure Holds (list : ARPList) (cells : List Cell) : Prop where
  chain : ∃ head, Chain ARPNode.nextPointer list.heap (some list.head)
    ((list.head, head) :: cells) none
  nodup : (list.head :: cells.map Prod.fst).Nodup
  tail : (list.head :: cells.map Prod.fst).getLast? = some list.tail

variable {list list' : ARPList} {cells : List Cell} {ipAddr : IPAddr} {macAddr : MacAddr}
  {delTime : BitVec 64} {fuel address : ℕ} {unset : ARPNode}

theorem holds_initArpList (address : ℕ) (unset : ARPNode) :
    Holds (initArpList address unset) [] where
  chain := by
    refine ⟨{ unset with nextPointer := none }, rfl, ?_, rfl⟩
    simp only [initArpList, Function.update_self]
  nodup := List.nodup_singleton _
  tail := rfl

/-- **The walk**, with steps enough. -/
theorem Holds.walk (h : Holds list cells) (hfuel : cells.length ≤ fuel) (ipAddr : IPAddr) :
    list.walk fuel ipAddr =
      some ((cells.find? fun c => c.2.ipAddr = ipAddr).map Prod.fst) := by
  obtain ⟨head, -, hhead, hrest⟩ := h.chain
  rw [ARPList.walk, hhead]
  exact search_eq hrest _ hfuel

/-- The node of an address is found first, so no other has to be looked at. -/
theorem contents_update {c : Cell} {node : ARPNode} (hnodup : (cells.map Prod.fst).Nodup)
    (hfind : (cells.find? fun c => c.2.ipAddr = ipAddr) = some c) (hip : node.ipAddr = ipAddr) :
    contents (cells.map fun c' => if c'.1 = c.1 then (c.1, node) else c') =
      LabNetstack.insertARPNode (ipAddr, node.macAddr) (contents cells) := by
  induction cells with
  | nil => cases hfind
  | cons c' cells ih =>
    obtain ⟨hnotin, hnodup⟩ := List.nodup_cons.mp hnodup
    rw [contents, contents, List.map_cons, List.map_cons, List.map_cons,
      LabNetstack.insertARPNode]
    by_cases hfirst : c'.2.ipAddr = ipAddr
    · rw [List.find?_cons_of_pos (by simpa using hfirst)] at hfind
      obtain rfl := Option.some.inj hfind
      have hrest : (cells.map fun c'' => if c''.1 = c'.1 then (c'.1, node) else c'') = cells := by
        refine (List.map_congr_left fun c'' hc'' => if_neg ?_).trans (List.map_id cells)
        exact fun heq => hnotin (heq ▸ List.mem_map_of_mem hc'')
      rw [if_pos rfl, if_pos hfirst, hrest, hip]
    · rw [List.find?_cons_of_neg (by simpa using hfirst)] at hfind
      have hne : c'.1 ≠ c.1 := by
        intro heq
        exact hnotin (heq ▸ List.mem_map_of_mem (List.mem_of_find?_eq_some hfind))
      rw [if_neg hne, if_neg hfirst]
      exact congrArg _ (ih hnodup hfind)

/-- An address that is not there yet. -/
theorem insertARPNode_of_not_mem {arpNode : IPAddr × MacAddr} {pairs : List (IPAddr × MacAddr)}
    (h : ∀ p ∈ pairs, p.1 ≠ arpNode.1) :
    LabNetstack.insertARPNode arpNode pairs = pairs ++ [arpNode] := by
  induction pairs with
  | nil => rfl
  | cons p pairs ih =>
    obtain ⟨hp, hpairs⟩ := List.forall_mem_cons.mp h
    rw [LabNetstack.insertARPNode, if_neg hp, ih hpairs, List.cons_append]

/-- The node of the address is overwritten. -/
theorem Holds.overwrite (h : Holds list cells) {c : Cell}
    (hfind : (cells.find? fun c => c.2.ipAddr = ipAddr) = some c) {node : ARPNode}
    (hip : node.ipAddr = c.2.ipAddr) (hnext : node.nextPointer = c.2.nextPointer) :
    ∃ cells', Holds { list with heap := Function.update list.heap c.1 (some node) } cells' ∧
      contents cells' = LabNetstack.insertARPNode (ipAddr, node.macAddr) (contents cells) := by
  obtain ⟨head, hchain⟩ := h.chain
  have hc : c ∈ cells := List.mem_of_find?_eq_some hfind
  have hcip : c.2.ipAddr = ipAddr := by simpa using List.find?_some hfind
  obtain ⟨hhead, hnodup⟩ := List.nodup_cons.mp h.nodup
  have hfsts : (cells.map fun c' => if c'.1 = c.1 then (c.1, node) else c').map Prod.fst
      = cells.map Prod.fst := by
    rw [List.map_map]
    refine List.map_congr_left fun c' _ => ?_
    rw [Function.comp_apply]
    split_ifs with heq
    · exact heq.symm
    · rfl
  have hne : list.head ≠ c.1 := fun heq => hhead (heq ▸ List.mem_map_of_mem hc)
  have hmap := hchain.update (hchain.mem c (List.mem_cons_of_mem _ hc)) hnext
  rw [List.map_cons, if_neg hne] at hmap
  exact ⟨_, ⟨⟨head, hmap⟩, hfsts ▸ h.nodup, hfsts ▸ h.tail⟩,
    contents_update hnodup hfind (hip.trans hcip)⟩

/-- A new node is put behind the last. -/
theorem Holds.append (h : Holds list cells) {node : ARPNode} (hfresh : list.heap address = none)
    (hnext : node.nextPointer = none) :
    ∃ last, list.heap list.tail = some last ∧ list.tail ≠ address ∧
      ∃ cells', Holds { list with
          heap := Function.update (Function.update list.heap address (some node)) list.tail
            (some { last with nextPointer := some address })
          tail := address } cells' ∧
        contents cells' = contents cells ++ [(node.ipAddr, node.macAddr)] := by
  obtain ⟨head, hchain⟩ := h.chain
  have hne : ∀ a ∈ list.head :: cells.map Prod.fst, a ≠ address := by
    intro a ha heq
    obtain ⟨c, hc, rfl⟩ := List.mem_map.mp (show a ∈ ((list.head, head) :: cells).map Prod.fst
      from ha)
    rw [← heq, hchain.mem c hc] at hfresh
    cases hfresh
  have htail : list.tail ≠ address := hne _ (List.mem_of_getLast? h.tail)
  rcases List.eq_nil_or_concat' cells with rfl | ⟨init, ⟨a, last⟩, rfl⟩
  · -- the head is the last node
    have heq : list.head = list.tail := Option.some.inj h.tail
    have hpush := @Chain.push _ _ _ _ [] _ _ _ _ _ { head with nextPointer := some address } _
      hchain h.nodup hfresh rfl hnext
    rw [← heq]
    refine ⟨head, hchain.2.1, hne _ (by simp), [(address, node)], ⟨⟨_, hpush⟩, ?_, rfl⟩, rfl⟩
    simpa using hne list.head (by simp)
  · -- the last node is behind the head
    have heq : a = list.tail := by
      have htail := h.tail
      rw [List.map_append, List.map_singleton, ← List.cons_append, List.getLast?_concat] at htail
      exact Option.some.inj htail
    subst heq
    have hpush := @Chain.push _ _ _ _ ((list.head, head) :: init) _ _ _ _ _
      { last with nextPointer := some address } _ hchain h.nodup hfresh rfl hnext
    have hfsts : (init ++ [(list.tail, { last with nextPointer := some address }),
        (address, node)]).map Prod.fst
        = (init ++ [(list.tail, last)]).map Prod.fst ++ [address] := by
      simp
    refine ⟨last, hchain.mem (list.tail, last) (by simp), htail,
      init ++ [(list.tail, { last with nextPointer := some address }), (address, node)],
      ⟨⟨head, hpush⟩, ?_, ?_⟩, ?_⟩
    · rw [hfsts, ← List.cons_append, List.nodup_append]
      refine ⟨h.nodup, List.nodup_singleton _, fun a ha b hb => ?_⟩
      rw [List.mem_singleton.mp hb]
      exact hne a ha
    · rw [hfsts, ← List.cons_append, List.getLast?_concat]
    · simp [contents]

/-- **An insertion** does to the nodes what it does to the pairs. -/
theorem insertARPNode_holds (h : Holds list cells) (hfuel : cells.length ≤ fuel)
    (hfresh : list.heap address = none) (ipAddr : IPAddr) (macAddr : MacAddr)
    (delTime : BitVec 64) :
    ∃ list' cells', insertARPNode fuel address ⟨ipAddr, macAddr, delTime, none⟩ list = some list' ∧
      Holds list' cells' ∧
      contents cells' = LabNetstack.insertARPNode (ipAddr, macAddr) (contents cells) := by
  simp only [insertARPNode, h.walk hfuel]
  cases hfind : cells.find? fun c => c.2.ipAddr = ipAddr with
  | some c =>
    obtain ⟨head, hchain⟩ := h.chain
    have hc := hchain.mem c (List.mem_cons_of_mem _ (List.mem_of_find?_eq_some hfind))
    obtain ⟨cells', hholds, hcontents⟩ := @Holds.overwrite _ _ _ h _ hfind
      { c.2 with macAddr := macAddr, delTime := delTime } rfl rfl
    refine ⟨_, cells', ?_, hholds, hcontents⟩
    simp only [Option.map_some, hc]
  | none =>
    obtain ⟨last, hlast, hne, cells', hholds, hcontents⟩ :=
      @Holds.append _ _ _ h ⟨ipAddr, macAddr, delTime, none⟩ hfresh rfl
    refine ⟨_, cells', ?_, hholds, ?_⟩
    · simp only [Option.map_none, Function.update_of_ne hne, hlast, Option.map_some]
    · rw [hcontents, insertARPNode_of_not_mem]
      intro p hp
      obtain ⟨c, hc, rfl⟩ := List.mem_map.mp hp
      simpa using List.find?_eq_none.mp hfind c hc

/-- **A query** says whether there is a node, and stores nothing. -/
theorem Holds.queryARPList (h : Holds list cells) (hfuel : cells.length ≤ fuel) (ipAddr : IPAddr)
    (macAddr : MacAddr) : ARPList.queryARPList fuel ipAddr macAddr list =
      some (if ((contents cells).find? fun p => p.1 = ipAddr).isSome then 0 else -1, macAddr) := by
  have hfind : ((contents cells).find? fun p => p.1 = ipAddr).isSome
      = (cells.find? fun c => c.2.ipAddr = ipAddr).isSome := by
    rw [contents, List.find?_map, Option.isSome_map]
    rfl
  rw [ARPList.queryARPList, h.walk hfuel, hfind]
  cases cells.find? fun c => c.2.ipAddr = ipAddr with
  | some c => rfl
  | none => rfl

/-! ### Runs -/

/-- A call of `insertARPNode`, as `handleARPPacket` makes it, and what `malloc` returns in it. -/
structure Insertion where
  address : ℕ
  ipAddr : IPAddr
  macAddr : MacAddr
  delTime : BitVec 64

def step (fuel : ℕ) (i : Insertion) (list : ARPList) : Option ARPList :=
  insertARPNode fuel i.address ⟨i.ipAddr, i.macAddr, i.delTime, none⟩ list

/-- What `malloc` returns is not in use. -/
def Fresh (i : Insertion) (list : ARPList) : Prop := list.heap i.address = none

/-- The MAC that was inserted last for an address. -/
def recent (insertions : List Insertion) (ipAddr : IPAddr) : Option MacAddr :=
  (insertions.reverse.find? fun i => i.ipAddr = ipAddr).map Insertion.macAddr

/-- The pairs after some insertions. -/
def inserted (insertions : List Insertion) (pairs : List (IPAddr × MacAddr)) :
    List (IPAddr × MacAddr) :=
  insertions.foldl (fun pairs i => LabNetstack.insertARPNode (i.ipAddr, i.macAddr) pairs) pairs

theorem length_insertARPNode_le (arpNode : IPAddr × MacAddr) (pairs : List (IPAddr × MacAddr)) :
    (LabNetstack.insertARPNode arpNode pairs).length ≤ pairs.length + 1 := by
  induction pairs with
  | nil => rfl
  | cons p pairs ih =>
    rw [LabNetstack.insertARPNode]
    split_ifs
    · exact Nat.le_succ _
    · exact Nat.succ_le_succ ih

/-- **A run** does not get stuck, with as many steps for a walk as there are insertions. -/
theorem run_holds {insertions : List Insertion} (h : Holds list cells)
    (hfuel : cells.length + insertions.length ≤ fuel)
    (hfresh : Run.Meets (step fuel) Fresh insertions list) :
    ∃ list' cells', Run.run (step fuel) insertions list = some list' ∧ Holds list' cells' ∧
      cells'.length ≤ fuel ∧ contents cells' = inserted insertions (contents cells) := by
  induction insertions generalizing list cells with
  | nil => exact ⟨list, cells, rfl, h, hfuel, rfl⟩
  | cons i insertions ih =>
    obtain ⟨hfirst, hrest⟩ := hfresh
    rw [List.length_cons] at hfuel
    have hle : cells.length ≤ fuel := by omega
    obtain ⟨list₁, cells₁, hinsert, hholds, hcontents⟩ :=
      insertARPNode_holds h hle hfirst i.ipAddr i.macAddr i.delTime
    have hstep : step fuel i list = some list₁ := hinsert
    have hlength : cells₁.length ≤ cells.length + 1 := by
      have hle := length_insertARPNode_le (i.ipAddr, i.macAddr) (contents cells)
      rw [← hcontents] at hle
      simpa [contents] using hle
    have hfuel₁ : cells₁.length + insertions.length ≤ fuel := by omega
    obtain ⟨list', cells', hrun, hholds', hlength', hcontents'⟩ :=
      ih hholds hfuel₁ (hrest list₁ hstep)
    refine ⟨list', cells', ?_, hholds', hlength', ?_⟩
    · rw [Run.run_cons_some hstep, hrun]
    · rw [hcontents', hcontents]
      rfl

/-! ### The pairs -/

/-- An address is looked up among the pairs after an insertion. -/
theorem find?_insertARPNode (arpNode : IPAddr × MacAddr) (pairs : List (IPAddr × MacAddr))
    (ipAddr : IPAddr) :
    (LabNetstack.insertARPNode arpNode pairs).find? (fun p => p.1 = ipAddr) =
      if arpNode.1 = ipAddr then some arpNode else pairs.find? fun p => p.1 = ipAddr := by
  induction pairs with
  | nil =>
    simp only [LabNetstack.insertARPNode, List.find?_cons, List.find?_nil]
    split_ifs with hip
    · rw [decide_eq_true hip]
    · rw [decide_eq_false hip]
  | cons p pairs ih =>
    rw [LabNetstack.insertARPNode]
    by_cases hp : p.1 = arpNode.1
    · rw [if_pos hp, List.find?_cons, List.find?_cons, hp]
      split_ifs with hip
      · rw [decide_eq_true hip]
      · rw [decide_eq_false hip]
    · rw [if_neg hp, List.find?_cons, List.find?_cons, ih]
      by_cases hip : p.1 = ipAddr
      · have hne : ¬ arpNode.1 = ipAddr := fun heq => hp (hip.trans heq.symm)
        simp only [decide_eq_true hip, if_neg hne]
      · simp only [decide_eq_false hip]

/-- The pair of an address is the one that was inserted last. -/
theorem find?_inserted (insertions : List Insertion) (pairs : List (IPAddr × MacAddr))
    (ipAddr : IPAddr) :
    (inserted insertions pairs).find? (fun p => p.1 = ipAddr) =
      ((recent insertions ipAddr).map (Prod.mk ipAddr)).or
        (pairs.find? fun p => p.1 = ipAddr) := by
  induction insertions generalizing pairs with
  | nil => rfl
  | cons i insertions ih =>
    have hcons : inserted (i :: insertions) pairs
        = inserted insertions (LabNetstack.insertARPNode (i.ipAddr, i.macAddr) pairs) := rfl
    rw [hcons, ih, find?_insertARPNode, recent, recent, List.reverse_cons, List.find?_append]
    cases insertions.reverse.find? fun i => i.ipAddr = ipAddr with
    | some j => rfl
    | none =>
      simp only [Option.map_none, Option.none_or, List.find?_cons, List.find?_nil]
      split_ifs with hip
      · rw [decide_eq_true hip, ← hip]
        rfl
      · rw [decide_eq_false hip]
        rfl

theorem recent_isSome_iff {insertions : List Insertion} :
    (recent insertions ipAddr).isSome ↔ ∃ i ∈ insertions, i.ipAddr = ipAddr := by
  rw [recent, Option.isSome_map, List.find?_isSome]
  simp

/-- Each address once. -/
theorem nodup_insertARPNode {arpNode : IPAddr × MacAddr} {pairs : List (IPAddr × MacAddr)}
    (h : (pairs.map Prod.fst).Nodup) :
    ((LabNetstack.insertARPNode arpNode pairs).map Prod.fst).Nodup := by
  by_cases hin : ∃ p ∈ pairs, p.1 = arpNode.1
  · have hsame : (LabNetstack.insertARPNode arpNode pairs).map Prod.fst = pairs.map Prod.fst := by
      clear h
      induction pairs with
      | nil => simp at hin
      | cons p pairs ih =>
        rw [LabNetstack.insertARPNode]
        split_ifs with hp
        · rw [List.map_cons, List.map_cons, hp]
        · obtain ⟨q, hq, heq⟩ := hin
          rcases List.mem_cons.mp hq with rfl | hq
          · exact absurd heq hp
          · rw [List.map_cons, List.map_cons, ih ⟨q, hq, heq⟩]
    rw [hsame]
    exact h
  · have hnone : ∀ p ∈ pairs, p.1 ≠ arpNode.1 := fun p hp heq => hin ⟨p, hp, heq⟩
    rw [insertARPNode_of_not_mem hnone, List.map_append, List.nodup_append]
    refine ⟨h, List.nodup_singleton _, fun a ha b hb => ?_⟩
    obtain ⟨p, hp, rfl⟩ := List.mem_map.mp ha
    rw [List.mem_singleton.mp hb]
    exact hnone p hp

theorem nodup_inserted {insertions : List Insertion} {pairs : List (IPAddr × MacAddr)}
    (h : (pairs.map Prod.fst).Nodup) : ((inserted insertions pairs).map Prod.fst).Nodup := by
  induction insertions generalizing pairs with
  | nil => exact h
  | cons i insertions ih => exact ih (nodup_insertARPNode h)

/-! ### A map -/

/-- What a list is after some insertions, to a query of one address whose output was `macAddr`. -/
structure IsMap (fuel : ℕ) (insertions : List Insertion) (ipAddr : IPAddr) (macAddr : MacAddr)
    (list : ARPList) : Prop where
  /-- Each address once, and `tail` is the last node. -/
  shape : ∃ cells, Holds list cells ∧ (cells.map fun c => c.2.ipAddr).Nodup
  query : ∃ res mac, queryARPList fuel ipAddr macAddr list = some (res, mac) ∧
    (res = 0 ↔ ∃ i ∈ insertions, i.ipAddr = ipAddr) ∧
    mac = (recent insertions ipAddr).getD macAddr

/-- **The ARP list** gives what was inserted exactly if nothing was, for the address that is asked
for, or the output holds it already. -/
theorem isMap_iff {insertions : List Insertion} (hfuel : insertions.length ≤ fuel)
    (hfresh : Run.Meets (step fuel) Fresh insertions (initArpList address unset)) :
    ∃ list, Run.run (step fuel) insertions (initArpList address unset) = some list ∧
      (IsMap fuel insertions ipAddr macAddr list ↔
        ∀ mac ∈ recent insertions ipAddr, mac = macAddr) := by
  obtain ⟨list, cells, hrun, hholds, hlength, hcontents⟩ :=
    run_holds (holds_initArpList address unset) (by simpa using hfuel) hfresh
  refine ⟨list, hrun, ?_⟩
  have hquery := hholds.queryARPList hlength ipAddr macAddr
  have hfound : ((contents cells).find? fun p => p.1 = ipAddr).isSome
      = (recent insertions ipAddr).isSome := by
    rw [hcontents, find?_inserted]
    simp [contents]
  have hnodup : (cells.map fun c => c.2.ipAddr).Nodup := by
    have hpairs : ((contents cells).map Prod.fst).Nodup := hcontents ▸ nodup_inserted List.nodup_nil
    rwa [contents, List.map_map] at hpairs
  have hres : (if ((contents cells).find? fun p => p.1 = ipAddr).isSome then 0 else -1 : ℤ) = 0 ↔
      ∃ i ∈ insertions, i.ipAddr = ipAddr := by
    rw [hfound, ← recent_isSome_iff]
    split_ifs with hsome
    · exact iff_of_true rfl hsome
    · exact iff_of_false (by decide) hsome
  constructor
  · rintro ⟨-, res, mac, hquery', -, hmac⟩ mac' hmac'
    rw [hquery] at hquery'
    obtain ⟨-, rfl⟩ := Prod.mk.inj (Option.some.inj hquery')
    rw [hmac, Option.mem_def.mp hmac', Option.getD_some]
  · intro hsame
    refine ⟨⟨cells, hholds, hnodup⟩, _, macAddr, hquery, hres, ?_⟩
    cases hrecent : recent insertions ipAddr with
    | none => rfl
    | some mac => exact (hsame mac hrecent).symm

/-- What `malloc` happens to return for the head. -/
def unsetNode : ARPNode := ⟨0, ZREO_MAC, 0, none⟩

/-- Two addresses are inserted, and the first of them again. -/
def overwritten : List Insertion :=
  [⟨1, 3, ZREO_MAC, 60⟩, ⟨2, 4, ZREO_MAC, 60⟩, ⟨3, 3, BROAD_MAC, 61⟩]

/-- The output holds what was inserted last for the first address, but not for the second. -/
theorem isMap_iff_overwritten :
    ∃ list, Run.run (step 3) overwritten (initArpList 0 unsetNode) = some list ∧
      IsMap 3 overwritten 3 BROAD_MAC list ∧ ¬ IsMap 3 overwritten 4 BROAD_MAC list := by
  have hfresh : Run.Meets (step 3) Fresh overwritten (initArpList 0 unsetNode) := by
    refine ⟨rfl, fun list hlist => ?_⟩
    obtain rfl := Option.some.inj hlist
    refine ⟨rfl, fun list hlist => ?_⟩
    obtain rfl := Option.some.inj hlist
    exact ⟨rfl, fun _ _ => trivial⟩
  have hmap : ∀ ipAddr, ∃ list,
      Run.run (step 3) overwritten (initArpList 0 unsetNode) = some list ∧
        (IsMap 3 overwritten ipAddr BROAD_MAC list ↔
          ∀ mac ∈ recent overwritten ipAddr, mac = BROAD_MAC) :=
    fun ipAddr => isMap_iff (Nat.le_refl 3) hfresh
  obtain ⟨list, hrun, hfirst⟩ := hmap 3
  obtain ⟨list', hrun', hsecond⟩ := hmap 4
  obtain rfl := Option.some.inj (hrun.symm.trans hrun')
  refine ⟨list, hrun, hfirst.mpr (by decide), fun hmap => ?_⟩
  exact absurd (hsecond.mp hmap ZREO_MAC rfl) (by decide)

/-- One insertion. -/
def once : List Insertion := [⟨1, 3, ZREO_MAC, 60⟩]

/-- What was inserted is not given. -/
theorem not_isMap : ¬ ∀ (fuel address : ℕ) (unset : ARPNode) (insertions : List Insertion)
    (list : ARPList) (ipAddr : IPAddr) (macAddr : MacAddr), insertions.length ≤ fuel →
      Run.Meets (step fuel) Fresh insertions (initArpList address unset) →
      Run.run (step fuel) insertions (initArpList address unset) = some list →
      IsMap fuel insertions ipAddr macAddr list := by
  intro hclaim
  let list := (Run.run (step 1) once (initArpList 0 unsetNode)).get rfl
  obtain ⟨res, mac, hquery, -, hmac⟩ := (hclaim 1 0 unsetNode once list 3 BROAD_MAC le_rfl
    ⟨rfl, fun _ _ => trivial⟩ (Option.some_get _).symm).query
  have hsame : queryARPList 1 3 BROAD_MAC list = some (0, BROAD_MAC) := rfl
  rw [hsame] at hquery
  obtain ⟨-, rfl⟩ := Prod.mk.inj (Option.some.inj hquery)
  exact absurd hmac (by decide)

end ARPList

end LabNetstack
