import LabNetstack.Lib.LinkedList
import LabNetstack.Lib.Run
import LabNetstack.Transport.SocketList

/-!
# The socket list in memory

`allocSocket`, `freeSocket` and `findSocket` as they walk over the nodes: a list with a head that is
no socket, a pointer to its last node, and so many steps for a walk. `malloc` is given the address
it returns, where nothing is at that time; it may have been given back by `freeSocket`. The mutexes
are left to `Transport/Locks`.

`freeSocket` does not stop at the node that it takes out: it goes on to the end of the list, and on
its way sets `tail` to whatever turns out to have nothing behind it. It compares pointers only, so
that it may be given one that is not in the list.

## Main results

* `SocketNodes.Holds.freeSocket`, `SocketNodes.Holds.freeSocket_unlisted` — what it does to the list
* `SocketNodes.socketList_run` — the list after any calls
-/

namespace LabNetstack

open LinkedList RingMemory

/-- `struct Socket` with its `next`. A pointer is an address, or `NULL`. -/
structure SocketNode where
  socket : Socket
  next : Option ℕ

/-- `struct SocketList`, with the memory that its sockets are in. -/
structure SocketNodes where
  head : ℕ
  tail : ℕ
  nextFd : ℤ
  heap : ℕ → Option SocketNode

def NETSTACK_FD_START : ℤ := 123456789

namespace SocketNodes

/-- `initSocketList`; but for its pointer the head is left as `malloc` returns it. -/
def initSocketList (address : ℕ) (unset : SocketNode) : SocketNodes where
  head := address
  tail := address
  nextFd := NETSTACK_FD_START
  heap := Function.update (fun _ => none) address (some { unset with next := none })

/-- The descriptors are of type `int`, which must not overflow. -/
def allocSocket (address : ℕ) (readMem writeMem : Mem Byte) (list : SocketNodes) :
    Option (SocketNodes × ℕ) :=
  if list.nextFd + 1 < 2 ^ 31 then
    let newSocket : SocketNode := ⟨LabNetstack.allocSocket list.nextFd readMem writeMem, none⟩
    let heap := Function.update list.heap address (some newSocket)
    (heap list.tail).map fun last =>
      ({ list with
        heap := Function.update heap list.tail (some { last with next := some address })
        tail := address
        nextFd := list.nextFd + 1 }, address)
  else none

/-- The loop of `freeSocket` from `it` on: the list, and `res`. -/
def freeLoop (socket : ℕ) : ℕ → Option ℕ → SocketNodes × ℤ → Option (SocketNodes × ℤ)
  | _, none, s => some s
  | 0, some _, _ => none
  | n + 1, some it, (list, res) => do
    let node ← list.heap it
    let (list, res) ←
      if node.next = some socket then
        (list.heap socket).map fun freed =>
          ({ list with
            heap := Function.update list.heap it (some { node with next := freed.next }) }, 0)
      else some (list, res)
    let node ← list.heap it
    let list := if node.next = none then { list with tail := it } else list
    freeLoop socket n node.next (list, res)

/-- The memory of a socket that was found is given back. -/
def freeSocket (fuel : ℕ) (socket : ℕ) (list : SocketNodes) : Option (SocketNodes × ℤ) := do
  let (list, res) ← freeLoop socket fuel (some list.head) (list, -1)
  if res ≠ 0 then return (list, -1)
  else return ({ list with heap := Function.update list.heap socket none }, 0)

def findSocket (fuel : ℕ) (fd : ℤ) (list : SocketNodes) : Option (Option ℕ) :=
  match list.heap list.head with
  | none => none
  | some head =>
    search SocketNode.next list.heap (fun res => res.socket.fd = fd) fuel head.next

/-! ### What the memory holds -/

/-- The sockets of the list with their addresses. From the head one comes over them to the end, each
once; `tail` is the last node, and the descriptors go up. -/
structure Holds (list : SocketNodes) (live : List (ℕ × Socket)) : Prop where
  chain : ∃ nodes unset, Chain SocketNode.next list.heap (some list.head) nodes none ∧
    nodes.map (fun c => (c.1, c.2.socket)) = (list.head, unset) :: live
  nodup : (list.head :: live.map Prod.fst).Nodup
  tail : (list.head :: live.map Prod.fst).getLast? = some list.tail
  increasing : (live.map fun p => p.2.fd).Pairwise (· < ·)
  lt : ∀ p ∈ live, p.2.fd < list.nextFd

variable {list list' : SocketNodes} {live : List (ℕ × Socket)} {fuel address socket : ℕ}

theorem holds_initSocketList (address : ℕ) (unset : SocketNode) :
    Holds (initSocketList address unset) [] where
  chain := by
    refine ⟨[(address, { unset with next := none })], unset.socket, ⟨rfl, ?_, rfl⟩, rfl⟩
    simp only [initSocketList, Function.update_self]
  nodup := List.nodup_singleton _
  tail := rfl
  increasing := List.Pairwise.nil
  lt := fun _ h => absurd h List.not_mem_nil

/-- The addresses of the nodes. -/
theorem map_fst_nodes {nodes : List (ℕ × SocketNode)} {unset : Socket}
    (h : nodes.map (fun c => (c.1, c.2.socket)) = (list.head, unset) :: live) :
    nodes.map Prod.fst = list.head :: live.map Prod.fst := by
  have hfsts := congrArg (List.map Prod.fst) h
  rwa [List.map_map, List.map_cons] at hfsts

/-- The head and the sockets. -/
theorem length_nodes {nodes : List (ℕ × SocketNode)} {unset : Socket}
    (h : nodes.map (fun c => (c.1, c.2.socket)) = (list.head, unset) :: live) :
    nodes.length = live.length + 1 := by
  have hlength := congrArg List.length h
  rwa [List.length_map, List.length_cons] at hlength

/-- **The walk of `findSocket`**, with steps enough. -/
theorem Holds.findSocket (h : Holds list live) (hfuel : live.length ≤ fuel) (fd : ℤ) :
    findSocket fuel fd list = some ((live.find? fun p => p.2.fd = fd).map Prod.fst) := by
  obtain ⟨nodes, unset, hchain, hnodes⟩ := h.chain
  cases nodes with
  | nil => cases hnodes
  | cons head nodes =>
    obtain ⟨hhead, hmem, hrest⟩ := hchain
    rw [List.map_cons] at hnodes
    obtain ⟨-, hlive⟩ := List.cons.inj hnodes
    rw [SocketNodes.findSocket, Option.some.inj hhead, hmem, ← hlive, List.find?_map,
      Option.map_map]
    refine search_eq hrest _ ?_
    rw [← List.length_map, hlive]
    exact hfuel

/-- The last node is the one that `tail` points to. -/
theorem Holds.getLast (h : Holds list live) :
    ∃ init last unset, Chain SocketNode.next list.heap (some list.head)
        (init ++ [(list.tail, last)]) none ∧
      (init ++ [(list.tail, last)]).map (fun c => (c.1, c.2.socket)) =
        (list.head, unset) :: live := by
  obtain ⟨nodes, unset, hchain, hnodes⟩ := h.chain
  have hne : nodes ≠ [] := by
    rintro rfl
    cases hnodes
  obtain ⟨init, ⟨a, last⟩, rfl⟩ := (List.eq_nil_or_concat' nodes).resolve_left hne
  have htail := h.tail
  rw [← map_fst_nodes hnodes, List.map_append, List.map_singleton, List.getLast?_concat] at htail
  obtain rfl := Option.some.inj htail
  exact ⟨init, last, unset, hchain, hnodes⟩

/-- **A socket is allocated**, where nothing was. -/
theorem Holds.allocSocket (h : Holds list live) (hfresh : list.heap address = none)
    (hint : list.nextFd + 1 < 2 ^ 31) (readMem writeMem : Mem Byte) :
    ∃ list', allocSocket address readMem writeMem list = some (list', address) ∧
      list'.nextFd = list.nextFd + 1 ∧
      Holds list' (live ++
        [(address, LabNetstack.allocSocket list.nextFd readMem writeMem)]) := by
  obtain ⟨init, last, unset, hchain, hnodes⟩ := h.getLast
  have hfsts := map_fst_nodes hnodes
  have hin : ∀ a ∈ list.head :: live.map Prod.fst, a ≠ address := by
    rintro a ha rfl
    rw [← hfsts] at ha
    obtain ⟨c, hc, rfl⟩ := List.mem_map.mp ha
    rw [hchain.mem c hc] at hfresh
    cases hfresh
  have htail : list.tail ≠ address := hin _ (List.mem_of_getLast? h.tail)
  have hnodup : ((init ++ [(list.tail, last)]).map Prod.fst).Nodup := hfsts ▸ h.nodup
  let new : SocketNode := ⟨LabNetstack.allocSocket list.nextFd readMem writeMem, none⟩
  let last' : SocketNode := { last with next := some address }
  have hlast' : last'.next = some address := rfl
  have hnew : new.next = none := rfl
  have hpush := hchain.push hnodup hfresh hlast' hnew
  refine ⟨{ list with
    heap := Function.update (Function.update list.heap address (some new)) list.tail (some last')
    tail := address
    nextFd := list.nextFd + 1 }, ?_, rfl, ⟨_, unset, hpush, ?_⟩, ?_, ?_, ?_, ?_⟩
  · rw [SocketNodes.allocSocket, if_pos hint]
    dsimp only
    rw [Function.update_of_ne htail, hchain.mem (list.tail, last) (by simp), Option.map_some]
  · rw [← List.cons_append, ← hnodes]
    simp [new, last']
  · rw [List.map_append, ← List.cons_append, List.nodup_append]
    refine ⟨h.nodup, List.nodup_singleton _, fun a ha b hb => ?_⟩
    rw [List.mem_singleton.mp hb]
    exact hin a ha
  · rw [List.map_append, ← List.cons_append, List.map_singleton, List.getLast?_concat]
  · rw [List.map_append, List.pairwise_append]
    refine ⟨h.increasing, List.pairwise_singleton _ _, fun fd hfd fd' hfd' => ?_⟩
    obtain ⟨p, hp, rfl⟩ := List.mem_map.mp hfd
    rw [List.mem_singleton.mp hfd']
    exact h.lt p hp
  · intro p hp
    rcases List.mem_append.mp hp with hp | hp
    · exact Int.lt_add_one_of_le (Int.le_of_lt (h.lt p hp))
    · rw [List.mem_singleton.mp hp]
      exact Int.lt_succ list.nextFd

/-! ### The loop of `freeSocket` -/

/-- A node that is left as it is. -/
theorem freeLoop_pass {it : ℕ} {node : SocketNode} (hmem : list.heap it = some node)
    (hnext : node.next ≠ some socket) (n : ℕ) (res : ℤ) :
    freeLoop socket (n + 1) (some it) (list, res) =
      freeLoop socket n node.next
        (if node.next = none then { list with tail := it } else list, res) := by
  simp only [freeLoop, hmem, Option.bind_eq_bind, Option.bind_some, if_neg hnext]

/-- Behind the node `it`, and with nothing to be taken out, only `tail` is set again. -/
theorem freeLoop_skip {nodes : List (ℕ × SocketNode)} {p : Option ℕ} {n : ℕ}
    (h : Chain SocketNode.next list.heap p nodes none)
    (hnot : ∀ c ∈ nodes, c.2.next ≠ some socket) (hn : nodes.length ≤ n) (it : ℕ) (res : ℤ) :
    freeLoop socket n p (if p = none then { list with tail := it } else list, res) =
      some ({ list with tail := (it :: nodes.map Prod.fst).getLast (List.cons_ne_nil _ _) },
        res) := by
  induction nodes generalizing p it n with
  | nil =>
    obtain rfl : p = none := h
    rw [if_pos rfl, freeLoop]
    rfl
  | cons c nodes ih =>
    obtain ⟨rfl, hmem, hrest⟩ := h
    obtain ⟨hfirst, hnot⟩ := List.forall_mem_cons.mp hnot
    cases n with
    | zero => exact absurd hn (Nat.not_succ_le_zero _)
    | succ n =>
      rw [if_neg (Option.some_ne_none _), freeLoop_pass hmem hfirst,
        ih hrest hnot (Nat.le_of_succ_le_succ hn)]
      rfl

/-- A node is taken out, and the rest of the list gone through. -/
theorem freeLoop_unlink {xs ys : List (ℕ × SocketNode)} {a : ℕ} {prev freed : SocketNode}
    {p : Option ℕ} {n : ℕ}
    (h : Chain SocketNode.next list.heap p (xs ++ (a, prev) :: (socket, freed) :: ys) none)
    (hnodup : ((xs ++ (a, prev) :: (socket, freed) :: ys).map Prod.fst).Nodup)
    (hn : (xs ++ (a, prev) :: (socket, freed) :: ys).length ≤ n) (res : ℤ) :
    freeLoop socket n p (list, res) = some ({ list with
      heap := Function.update list.heap a (some { prev with next := freed.next })
      tail := (a :: ys.map Prod.fst).getLast (List.cons_ne_nil _ _) }, 0) := by
  induction xs generalizing p n with
  | nil =>
    obtain ⟨rfl, hprev, hnext, hfreed, hrest⟩ := h
    obtain ⟨ha, hsocket⟩ := List.nodup_cons.mp hnodup
    obtain ⟨hsocket, -⟩ := List.nodup_cons.mp hsocket
    have hys : Chain SocketNode.next
        (Function.update list.heap a (some { prev with next := freed.next })) freed.next ys none :=
      hrest.frame fun hin => ha (List.mem_cons_of_mem _ hin)
    have hnot : ∀ c ∈ ys, c.2.next ≠ some socket := hys.next_ne fun hin =>
      hsocket (List.map_subset Prod.fst (List.tail_subset ys) hin)
    cases n with
    | zero => exact absurd hn (Nat.not_succ_le_zero _)
    | succ n =>
      have hlength : ys.length ≤ n := by
        simp only [List.nil_append, List.length_cons] at hn
        omega
      simp only [freeLoop, hprev, hfreed, hnext, Option.bind_eq_bind, Option.bind_some, if_true,
        Option.map_some, Function.update_self]
      exact freeLoop_skip hys hnot hlength a 0
  | cons c xs ih =>
    obtain ⟨rfl, hmem, hrest⟩ := h
    rw [List.cons_append, List.map_cons] at hnodup
    obtain ⟨-, hnodup⟩ := List.nodup_cons.mp hnodup
    obtain ⟨d, hd, hne⟩ : ∃ d, c.2.next = some d ∧ d ≠ socket := by
      rw [List.map_append, List.map_cons, List.map_cons, List.nodup_append] at hnodup
      obtain ⟨-, hpair, hapart⟩ := hnodup
      cases xs with
      | nil => exact ⟨a, hrest.1, fun heq => (List.nodup_cons.mp hpair).1 (by simp [heq])⟩
      | cons d xs => exact ⟨d.1, hrest.1, hapart d.1 (by simp) socket (by simp)⟩
    have hfirst : c.2.next ≠ some socket := by
      rw [hd]
      exact fun heq => hne (Option.some.inj heq)
    have hsome : c.2.next ≠ none := by
      rw [hd]
      exact Option.some_ne_none _
    cases n with
    | zero => exact absurd hn (Nat.not_succ_le_zero _)
    | succ n =>
      rw [freeLoop_pass hmem hfirst, if_neg hsome]
      exact ih hrest hnodup (Nat.le_of_succ_le_succ hn)

/-! ### Taking out -/

/-- **A pointer that is not in the list** is refused, and nothing has changed. -/
theorem Holds.freeSocket_unlisted (h : Holds list live) (hfuel : live.length < fuel)
    (hnot : socket ∉ live.map Prod.fst) : freeSocket fuel socket list = some (list, -1) := by
  obtain ⟨nodes, unset, hchain, hnodes⟩ := h.chain
  have hfsts := map_fst_nodes hnodes
  have hlength : nodes.length ≤ fuel := (length_nodes hnodes).trans_le hfuel
  have htail : socket ∉ nodes.tail.map Prod.fst := by
    rwa [List.map_tail, hfsts, List.tail_cons]
  have hskip := freeLoop_skip hchain (hchain.next_ne htail) hlength list.tail (-1)
  have hne : nodes.map Prod.fst ≠ [] := by
    rw [hfsts]
    exact List.cons_ne_nil _ _
  have hlast : (list.tail :: nodes.map Prod.fst).getLast (List.cons_ne_nil _ _) = list.tail := by
    have hend := h.tail
    rw [← hfsts, List.getLast?_eq_some_getLast hne] at hend
    rw [List.getLast_cons hne]
    exact Option.some.inj hend
  rw [if_neg (Option.some_ne_none _), hlast] at hskip
  rw [freeSocket, hskip]
  rfl

/-- An address occurs once. -/
theorem filter_fst_ne {l xs ys : List (ℕ × Socket)} {p : ℕ × Socket} (h : (l.map Prod.fst).Nodup)
    (hl : l = xs ++ p :: ys) : l.filter (fun q => q.1 ≠ p.1) = xs ++ ys := by
  subst hl
  rw [List.map_append, List.map_cons, List.nodup_append] at h
  obtain ⟨-, hys, hapart⟩ := h
  have hxs : ∀ q ∈ xs, q.1 ≠ p.1 := fun q hq => hapart q.1 (List.mem_map_of_mem hq) p.1 (by simp)
  have hys : ∀ q ∈ ys, q.1 ≠ p.1 := fun q hq heq =>
    (List.nodup_cons.mp hys).1 (heq ▸ List.mem_map_of_mem hq)
  rw [List.filter_append, List.filter_cons_of_neg (by simp),
    List.filter_eq_self.mpr fun q hq => by simpa using hxs q hq,
    List.filter_eq_self.mpr fun q hq => by simpa using hys q hq]

/-- A node of a socket has one in front of it. -/
theorem exists_prev {nodes : List (ℕ × SocketNode)} {unset : Socket}
    (hnodes : nodes.map (fun c => (c.1, c.2.socket)) = (list.head, unset) :: live)
    (hin : socket ∈ live.map Prod.fst) :
    ∃ xs a prev freed ys, nodes = xs ++ (a, prev) :: (socket, freed) :: ys := by
  have hfsts := map_fst_nodes hnodes
  cases nodes with
  | nil => cases hnodes
  | cons c nodes =>
    rw [List.map_cons] at hfsts
    rw [← (List.cons.inj hfsts).2] at hin
    obtain ⟨⟨_, freed⟩, hfreed, rfl⟩ := List.mem_map.mp hin
    obtain ⟨us, ys, rfl⟩ := List.append_of_mem hfreed
    obtain ⟨xs, ⟨a, prev⟩, hlast⟩ :=
      (List.eq_nil_or_concat' (c :: us)).resolve_left (List.cons_ne_nil _ _)
    refine ⟨xs, a, prev, freed, ys, ?_⟩
    rw [← List.cons_append, hlast, List.append_assoc]
    rfl

/-- **A socket of the list** is taken out, wherever it stands. -/
theorem Holds.freeSocket (h : Holds list live) (hfuel : live.length < fuel)
    (hin : socket ∈ live.map Prod.fst) :
    ∃ list', freeSocket fuel socket list = some (list', 0) ∧ list'.nextFd = list.nextFd ∧
      Holds list' (live.filter fun p => p.1 ≠ socket) := by
  obtain ⟨nodes, unset, hchain, hnodes⟩ := h.chain
  obtain ⟨xs, a, prev, freed, ys, rfl⟩ := exists_prev hnodes hin
  have hfsts := map_fst_nodes hnodes
  have hnodup : ((xs ++ (a, prev) :: (socket, freed) :: ys).map Prod.fst).Nodup :=
    hfsts ▸ h.nodup
  have hlength : (xs ++ (a, prev) :: (socket, freed) :: ys).length ≤ fuel :=
    (length_nodes hnodes).trans_le hfuel
  let prev' : SocketNode := { prev with next := freed.next }
  have hprev' : prev'.next = freed.next := rfl
  have hsublist := List.filter_sublist (p := fun p : ℕ × Socket => p.1 ≠ socket) (l := live)
  have hnodes' : (xs ++ (a, prev') :: ys).map (fun c => (c.1, c.2.socket)) =
      (list.head, unset) :: live.filter fun p => p.1 ≠ socket := by
    have hhead : list.head ≠ socket := fun heq => (List.nodup_cons.mp h.nodup).1 (heq ▸ hin)
    have hlive : (list.head, unset) :: live =
        (xs ++ [(a, prev)]).map (fun c => (c.1, c.2.socket)) ++
          (socket, freed.socket) :: ys.map fun c => (c.1, c.2.socket) := by
      rw [← hnodes]
      simp
    have hfilter := filter_fst_ne (by rw [List.map_cons]; exact h.nodup) hlive
    rw [List.filter_cons_of_pos (by simpa using hhead)] at hfilter
    rw [hfilter]
    simp [prev']
  refine ⟨{ list with
    heap := Function.update (Function.update list.heap a (some prev')) socket none
    tail := (a :: ys.map Prod.fst).getLast (List.cons_ne_nil _ _) }, ?_, rfl,
    ⟨_, unset, hchain.unlink hnodup hprev', hnodes'⟩, ?_, ?_, ?_, ?_⟩
  · rw [SocketNodes.freeSocket, freeLoop_unlink hchain hnodup hlength (-1)]
    rfl
  · exact h.nodup.sublist ((hsublist.map Prod.fst).cons_cons _)
  · rw [← map_fst_nodes hnodes', List.map_append, List.map_cons,
      List.getLast?_append_of_ne_nil _ (List.cons_ne_nil _ _), List.getLast?_eq_some_getLast]
  · exact h.increasing.sublist (hsublist.map _)
  · exact fun p hp => h.lt p (hsublist.subset hp)

/-! ### What the walks come to

In the list of `Transport/SocketList` a pointer is the descriptor of its socket. -/

/-- The list, but for its addresses. -/
def sockets (live : List (ℕ × Socket)) (nextFd : ℤ) : SocketList := ⟨live.map Prod.snd, nextFd⟩

theorem findSocket_sockets (live : List (ℕ × Socket)) (nextFd fd : ℤ) :
    (sockets live nextFd).findSocket fd =
      (live.find? fun p => p.2.fd = fd).map Prod.snd := by
  rw [sockets, SocketList.findSocket, List.find?_map]
  rfl

theorem sockets_append (live : List (ℕ × Socket)) (nextFd : ℤ) (p : ℕ × Socket) :
    (sockets (live ++ [p]) nextFd).sockets = (sockets live nextFd).sockets ++ [p.2] :=
  List.map_append

theorem Holds.sockets_freeSocket (h : Holds list live) {freed : Socket}
    (hin : (socket, freed) ∈ live) :
    sockets (live.filter fun p => p.1 ≠ socket) list.nextFd =
      (sockets live list.nextFd).freeSocket freed.fd := by
  obtain ⟨xs, ys, rfl⟩ := List.append_of_mem hin
  have hfds := h.increasing
  rw [List.map_append, List.map_cons, List.pairwise_append] at hfds
  obtain ⟨-, -, hbefore⟩ := hfds
  have hxs : ∀ it ∈ xs.map Prod.snd, ¬ decide (it.fd = freed.fd) = true := by
    intro it hit
    obtain ⟨p, hp, rfl⟩ := List.mem_map.mp hit
    simpa using (hbefore p.2.fd (List.mem_map_of_mem hp) freed.fd (by simp)).ne
  rw [filter_fst_ne (List.nodup_cons.mp h.nodup).2 rfl, sockets, sockets, SocketList.freeSocket]
  simp only [List.map_append, List.map_cons]
  rw [List.eraseP_append_right _ hxs, List.eraseP_cons_of_pos (by simp)]

/-! ### Calls -/

/-- A call of `allocSocket`, with what `malloc` returns, or of `freeSocket`. -/
inductive ListCall
  | alloc (address : ℕ) (readMem writeMem : Mem Byte)
  | free (socket : ℕ)

def ListCall.isAlloc : ListCall → Bool
  | .alloc .. => true
  | .free _ => false

def allocs (calls : List ListCall) : ℕ := calls.countP ListCall.isAlloc

def step (fuel : ℕ) : ListCall → SocketNodes → Option SocketNodes
  | .alloc address readMem writeMem, list =>
    (allocSocket address readMem writeMem list).map Prod.fst
  | .free socket, list => (freeSocket fuel socket list).map Prod.fst

/-- What `malloc` returns is not in use. -/
def Fresh : ListCall → SocketNodes → Prop
  | .alloc address _ _, list => list.heap address = none
  | .free _, _ => True

/-- The socket at `a` was allocated with this descriptor, and it was not freed since. -/
def Unfreed (calls : List ListCall) (a : ℕ) (fd : ℤ) : Prop :=
  ∃ before readMem writeMem after, calls = before ++ .alloc a readMem writeMem :: after ∧
    fd = NETSTACK_FD_START + allocs before ∧ .free a ∉ after

theorem allocs_append (calls : List ListCall) (call : ListCall) :
    allocs (calls ++ [call]) = allocs calls + if call.isAlloc then 1 else 0 := by
  rw [allocs, allocs, List.countP_append, List.countP_singleton]

theorem unfreed_append {calls : List ListCall} {call : ListCall} {a : ℕ} {fd : ℤ} :
    Unfreed (calls ++ [call]) a fd ↔
      Unfreed calls a fd ∧ call ≠ .free a ∨
        (∃ readMem writeMem, call = .alloc a readMem writeMem) ∧
          fd = NETSTACK_FD_START + allocs calls := by
  constructor
  · rintro ⟨before, readMem, writeMem, after, heq, hfd, hnot⟩
    rcases List.eq_nil_or_concat' after with rfl | ⟨after, last, rfl⟩
    · obtain ⟨rfl, hlast⟩ := List.append_inj' heq rfl
      exact Or.inr ⟨⟨readMem, writeMem, (List.cons.inj hlast).1⟩, hfd⟩
    · rw [← List.cons_append, ← List.append_assoc] at heq
      obtain ⟨rfl, hlast⟩ := List.append_inj' heq rfl
      obtain ⟨rfl, -⟩ := List.cons.inj hlast
      rw [List.mem_append, List.mem_singleton, not_or] at hnot
      exact Or.inl ⟨⟨before, readMem, writeMem, after, rfl, hfd, hnot.1⟩, fun h => hnot.2 h.symm⟩
  · rintro (⟨⟨before, readMem, writeMem, after, rfl, hfd, hnot⟩, hcall⟩ |
      ⟨⟨readMem, writeMem, rfl⟩, hfd⟩)
    · refine ⟨before, readMem, writeMem, after ++ [call], by simp, hfd, ?_⟩
      rw [List.mem_append, List.mem_singleton, not_or]
      exact ⟨hnot, fun h => hcall h.symm⟩
    · exact ⟨calls, readMem, writeMem, [], rfl, hfd, List.not_mem_nil⟩

/-- What the list is after the calls. -/
structure Reached (calls : List ListCall) (list : SocketNodes) (live : List (ℕ × Socket)) :
    Prop where
  holds : Holds list live
  nextFd : list.nextFd = NETSTACK_FD_START + allocs calls
  length : live.length ≤ allocs calls
  unfreed : ∀ a fd, (∃ socket, (a, socket) ∈ live ∧ socket.fd = fd) ↔ Unfreed calls a fd

theorem reached_nil (address : ℕ) (unset : SocketNode) :
    Reached [] (initSocketList address unset) [] where
  holds := holds_initSocketList address unset
  nextFd := rfl
  length := le_rfl
  unfreed := by
    intro a fd
    refine iff_of_false (fun ⟨_, hin, _⟩ => List.not_mem_nil hin) ?_
    rintro ⟨before, _, _, _, heq, -⟩
    exact List.append_ne_nil_of_right_ne_nil before (List.cons_ne_nil _ _) heq.symm

variable {calls : List ListCall}

/-- `allocSocket`, one step of a run. -/
theorem Reached.alloc (h : Reached calls list live) (hfresh : list.heap address = none)
    (hint : NETSTACK_FD_START + allocs calls + 1 < 2 ^ 31) (fuel : ℕ)
    (readMem writeMem : Mem Byte) :
    ∃ list' live', step fuel (.alloc address readMem writeMem) list = some list' ∧
      Reached (calls ++ [.alloc address readMem writeMem]) list' live' := by
  obtain ⟨list', hlist', hnextFd, hholds⟩ :=
    h.holds.allocSocket hfresh (by rwa [h.nextFd]) readMem writeMem
  have hallocs : allocs (calls ++ [.alloc address readMem writeMem]) = allocs calls + 1 :=
    allocs_append ..
  refine ⟨list', _, by rw [step, hlist', Option.map_some], hholds, ?_, ?_, fun a fd => ?_⟩
  · rw [hnextFd, h.nextFd, hallocs]
    push_cast
    ring
  · rw [List.length_append, List.length_singleton, hallocs]
    exact Nat.succ_le_succ h.length
  · rw [unfreed_append, ← h.unfreed, ← h.nextFd]
    constructor
    · rintro ⟨k, hk, rfl⟩
      rcases List.mem_append.mp hk with hk | hk
      · exact Or.inl ⟨⟨k, hk, rfl⟩, nofun⟩
      · obtain ⟨rfl, rfl⟩ := Prod.mk.inj (List.mem_singleton.mp hk)
        exact Or.inr ⟨⟨readMem, writeMem, rfl⟩, rfl⟩
    · rintro (⟨⟨k, hk, rfl⟩, -⟩ | ⟨⟨r, w, heq⟩, rfl⟩)
      · exact ⟨k, List.mem_append_left _ hk, rfl⟩
      · obtain ⟨rfl, -, -⟩ := ListCall.alloc.inj heq
        exact ⟨_, List.mem_append_right _ (List.mem_singleton_self _), rfl⟩

/-- `freeSocket`, one step of a run. -/
theorem Reached.free (h : Reached calls list live) (hfuel : allocs calls < fuel) (socket : ℕ) :
    ∃ list' live', step fuel (.free socket) list = some list' ∧
      Reached (calls ++ [.free socket]) list' live' := by
  have hlength := h.length.trans_lt hfuel
  have hallocs : allocs (calls ++ [.free socket]) = allocs calls := allocs_append ..
  have hunfreed : ∀ a fd, Unfreed (calls ++ [.free socket]) a fd ↔
      Unfreed calls a fd ∧ a ≠ socket := by
    intro a fd
    rw [unfreed_append]
    constructor
    · rintro (⟨hun, hne⟩ | ⟨⟨_, _, heq⟩, -⟩)
      · exact ⟨hun, fun heq => hne (heq ▸ rfl)⟩
      · cases heq
    · exact fun ⟨hun, hne⟩ => Or.inl ⟨hun, fun heq => hne (ListCall.free.inj heq).symm⟩
  by_cases hin : socket ∈ live.map Prod.fst
  · obtain ⟨list', hlist', hnextFd, hholds⟩ := h.holds.freeSocket hlength hin
    refine ⟨list', _, by rw [step, hlist', Option.map_some], hholds, ?_, ?_, fun a fd => ?_⟩
    · rw [hnextFd, h.nextFd, hallocs]
    · rw [hallocs]
      exact (List.length_filter_le _ _).trans h.length
    · rw [hunfreed, ← h.unfreed]
      simp only [List.mem_filter, decide_eq_true_eq]
      exact ⟨fun ⟨k, ⟨hk, hne⟩, hfd⟩ => ⟨⟨k, hk, hfd⟩, hne⟩,
        fun ⟨⟨k, hk, hfd⟩, hne⟩ => ⟨k, ⟨hk, hne⟩, hfd⟩⟩
  · refine ⟨list, live, by rw [step, h.holds.freeSocket_unlisted hlength hin, Option.map_some],
      h.holds, by rw [h.nextFd, hallocs], hallocs ▸ h.length, fun a fd => ?_⟩
    rw [hunfreed, ← h.unfreed]
    refine (and_iff_left_of_imp ?_).symm
    rintro ⟨k, hk, -⟩ rfl
    exact hin (List.mem_map_of_mem hk)

/-- **A run.** -/
theorem Reached.run {before : List ListCall} (h : Reached before list live)
    (hint : NETSTACK_FD_START + allocs (before ++ calls) < 2 ^ 31)
    (hfuel : allocs (before ++ calls) < fuel) (hfresh : Run.Meets (step fuel) Fresh calls list) :
    ∃ list' live', Run.run (step fuel) calls list = some list' ∧
      Reached (before ++ calls) list' live' := by
  induction calls generalizing before list live with
  | nil => exact ⟨list, live, rfl, (List.append_nil before).symm ▸ h⟩
  | cons call calls ih =>
    obtain ⟨hfirst, hrest⟩ := hfresh
    rw [List.append_cons] at hint hfuel ⊢
    have hle : allocs (before ++ [call]) ≤ allocs (before ++ [call] ++ calls) :=
      (List.sublist_append_left _ _).countP_le
    have hstep : ∃ list' live', step fuel call list = some list' ∧
        Reached (before ++ [call]) list' live' := by
      rw [allocs_append] at hle
      cases call with
      | alloc address readMem writeMem =>
        refine h.alloc hfirst ?_ fuel readMem writeMem
        simp only [ListCall.isAlloc, if_true] at hle
        omega
      | free socket => exact h.free (by omega) socket
    obtain ⟨list', live', hlist', h'⟩ := hstep
    rw [Run.run_cons_some hlist']
    exact ih h' hint hfuel (hrest list' hlist')

/-- No two sockets of the list have the same descriptor. -/
theorem Holds.find_eq_some (h : Holds list live) {fd : ℤ} {a : ℕ} :
    (live.find? fun p => p.2.fd = fd).map Prod.fst = some a ↔
      ∃ socket, (a, socket) ∈ live ∧ socket.fd = fd := by
  constructor
  · intro hfind
    obtain ⟨⟨_, k⟩, hk, rfl⟩ := Option.map_eq_some_iff.mp hfind
    exact ⟨k, List.mem_of_find?_eq_some hk, by simpa using List.find?_some hk⟩
  · rintro ⟨k, hk, hfd⟩
    have hsome : (live.find? fun p => p.2.fd = fd).isSome :=
      List.find?_isSome.mpr ⟨(a, k), hk, by simpa using hfd⟩
    obtain ⟨p, hp⟩ := Option.isSome_iff_exists.mp hsome
    have hpfd : p.2.fd = fd := by simpa using List.find?_some hp
    have hsame : p = (a, k) := List.inj_on_of_nodup_map h.increasing.nodup
      (List.mem_of_find?_eq_some hp) hk (hpfd.trans hfd.symm)
    rw [hp, hsame, Option.map_some]

/-- **Any calls of `allocSocket` and `freeSocket`.** The list is one without a cycle, `tail` is its
last node, and the descriptors go up along it. A descriptor is found at the place where it was
allocated, as long as it has not been freed; what is not in the list is not freed. -/
theorem socketList_run (address : ℕ) (unset : SocketNode) (calls : List ListCall) (fuel : ℕ)
    (hint : allocs calls < 2 ^ 31 - NETSTACK_FD_START) (hfuel : allocs calls < fuel)
    (hfresh : Run.Meets (step fuel) Fresh calls (initSocketList address unset)) :
    ∃ list live, Run.run (step fuel) calls (initSocketList address unset) = some list ∧
      Holds list live ∧
      (∀ fd, ∃ res, findSocket fuel fd list = some res ∧
        ∀ a, res = some a ↔ Unfreed calls a fd) ∧
      ∀ socket, socket ∉ live.map Prod.fst →
        freeSocket fuel socket list = some (list, -1) := by
  obtain ⟨list, live, hrun, hreached⟩ :=
    (reached_nil address unset).run (by rw [List.nil_append]; omega) hfuel hfresh
  have hlength : live.length < fuel := hreached.length.trans_lt hfuel
  refine ⟨list, live, hrun, hreached.holds, fun fd => ?_, fun socket hnot => ?_⟩
  · refine ⟨_, hreached.holds.findSocket hlength.le fd, fun a => ?_⟩
    rw [hreached.holds.find_eq_some]
    exact hreached.unfreed a fd
  · exact hreached.holds.freeSocket_unlisted hlength hnot

/-- The memory of the first socket is used for the third. -/
def reusedCalls : List ListCall :=
  [.alloc 1 (fun _ => 0) (fun _ => 0), .alloc 2 (fun _ => 0) (fun _ => 0), .free 1,
    .alloc 1 (fun _ => 0) (fun _ => 0)]

def unsetNode : SocketNode := ⟨LabNetstack.allocSocket 0 (fun _ => 0) (fun _ => 0), none⟩

theorem socketList_run_reused :
    ∃ list live, Run.run (step 4) reusedCalls (initSocketList 0 unsetNode) = some list ∧
      Holds list live ∧
      (∀ fd, ∃ res, findSocket 4 fd list = some res ∧
        ∀ a, res = some a ↔ Unfreed reusedCalls a fd) ∧
      ∀ socket, socket ∉ live.map Prod.fst → freeSocket 4 socket list = some (list, -1) := by
  refine socketList_run 0 unsetNode reusedCalls 4 (by decide) (by decide) ⟨rfl, fun t ht => ?_⟩
  obtain rfl := Option.some.inj ht
  refine ⟨rfl, fun t ht => ?_⟩
  obtain rfl := Option.some.inj ht
  refine ⟨trivial, fun t ht => ?_⟩
  obtain rfl := Option.some.inj ht
  exact ⟨rfl, fun _ _ => trivial⟩

end SocketNodes

end LabNetstack
