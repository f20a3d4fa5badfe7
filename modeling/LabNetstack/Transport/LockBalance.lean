import LabNetstack.Lib.LockBalance
import LabNetstack.Transport.Locks

/-!
# Which calls return with a lock

`findSocket`, `matchSocket` and `allocSocket` return with the mutex of a socket, which their caller
has to unlock on every way to its end. `connectLab` looks for its socket first and at its arguments
then: when it refuses them, it returns with the socket locked, and a later walk over the list waits
for it with the list locked.

## Main results

* `Locks.lock_balance` — which calls return with the mutexes they began with, and what that means
  for all threads together
-/

namespace LabNetstack

namespace Locks

open Mutex

variable {ops rest : List Op} {found : Socket → List Op} {held held' : Set (Option ℤ)}
  {seen : List SocketList} {fd : ℤ}

/-- `connectLab` refuses its arguments, and sees a list with its socket. -/
def Leaks (ops : List Op) (list : SocketList) : Prop :=
  ∃ fd, ops = connectLab fd false ∧ (list.findSocket fd).isSome

/-! ### The functions that keep a socket -/

/-- The sockets that are passed. -/
theorem returns_passed (passed : List Socket) :
    Returns ((passed.flatMap fun it => [.lock it.fd, .unlock it.fd]) ++ rest) held seen held' ↔
      (∀ it ∈ passed, some it.fd ∉ held) ∧ Returns rest held seen held' := by
  induction passed with
  | nil => simp
  | cons it passed ih =>
    rw [List.flatMap_cons, List.append_assoc, List.cons_append, List.cons_append, List.nil_append,
      returns_lock_unlock, ih, List.forall_mem_cons, and_assoc]

/-- **A walk** ends with the socket it stops at, or with none. -/
theorem returns_walk {passed : List Socket} {stop : Option Socket} (hfree : none ∉ held) :
    Returns (walk passed stop found ++ rest) (insert none held) seen held' ↔
      (∀ it ∈ passed, some it.fd ∉ held) ∧
        match stop with
        | some res =>
          some res.fd ∉ held ∧ Returns (found res ++ rest) (insert (some res.fd) held) seen held'
        | none => Returns rest held seen held' := by
  unfold walk
  rw [List.append_assoc, returns_passed]
  refine and_congr (by simp) ?_
  cases stop with
  | none => exact returns_unlockOuter_insert hfree
  | some res => exact returns_lock_unlockOuter hfree

/-- **`findSocket`**. -/
theorem returns_findSocket : Returns (findSocket fd found ++ rest) held seen held' ↔
    none ∉ held ∧ ∃ list seen', seen = list :: seen' ∧
      (∀ it ∈ list.sockets.takeWhile fun it => it.fd ≠ fd, some it.fd ∉ held) ∧
        match list.findSocket fd with
        | some res =>
          some res.fd ∉ held ∧ Returns (found res ++ rest) (insert (some res.fd) held) seen' held'
        | none => Returns rest held seen' held' := by
  rw [findSocket, List.cons_append, List.nil_append, returns_lockOuter]
  refine and_congr_right fun hfree => ?_
  simp only [returns_walk hfree]

/-- A function that unlocks the socket it has found. -/
theorem Returns.of_findSocket
    (h : Returns ((findSocket fd fun res => .unlock res.fd :: found res) ++ rest) held seen held') :
    ∃ seen', Returns rest held seen' held' ∨
      ∃ res, Returns (found res ++ rest) held seen' held' := by
  obtain ⟨-, list, seen', -, -, hreturns⟩ := returns_findSocket.mp h
  refine ⟨seen', ?_⟩
  split at hreturns
  next res hfound =>
    refine Or.inr ⟨res, ?_⟩
    exact (returns_unlock_insert hreturns.1).mp hreturns.2
  next => exact Or.inl hreturns

/-- `allocSocket`, whose callers unlock the new socket. -/
theorem Returns.of_allocSocket
    (h : Returns ((allocSocket fun fd => [.unlock fd]) ++ rest) held seen held') :
    ∃ seen', Returns rest held seen' held' := by
  rw [allocSocket, List.cons_append, List.nil_append, returns_lockOuter] at h
  obtain ⟨hfree, list, seen', -, hreturns⟩ := h
  refine ⟨seen', ?_⟩
  obtain ⟨hnew, hreturns⟩ := (returns_lock_unlockOuter hfree).mp hreturns
  exact (returns_unlock_insert hnew).mp hreturns

/-! ### The calls -/

/-- A lock of the list, without one of a socket. -/
theorem Returns.of_lookup (h : Returns (.lockOuter (fun _ => [.unlockOuter]) :: rest) held seen
    held') : ∃ seen', Returns rest held seen' held' := by
  obtain ⟨hfree, list, seen', -, hreturns⟩ := returns_lockOuter.mp h
  exact ⟨seen', (returns_unlockOuter_insert hfree).mp hreturns⟩

theorem balanced_scans {scans : ℕ} (h : Returns
    (List.replicate scans (.lockOuter fun _ => [.unlockOuter] : Op)) held seen held') :
    held' = held := by
  induction scans generalizing seen with
  | zero => exact (returns_nil.mp h).2
  | succ scans ih =>
    obtain ⟨seen', hrest⟩ := Returns.of_lookup h
    exact ih hrest

theorem balanced_freeSocket (h : Returns (freeSocket fd) held seen held') : held' = held := by
  obtain ⟨hfree, list, seen', -, hreturns⟩ := returns_lockOuter.mp h
  rw [List.append_nil, List.cons_append, List.nil_append, returns_unlockOuter_insert hfree]
    at hreturns
  split_ifs at hreturns
  · exact (returns_nil.mp (returns_lock_unlock.mp hreturns).2).2
  · exact (returns_nil.mp hreturns).2

theorem balanced_handleTCPMain {packet : TCPPacket}
    (h : Returns (handleTCPMain packet) held seen held') : held' = held := by
  obtain ⟨hfree, list, seen', -, hreturns⟩ := returns_lockOuter.mp h
  have hreturns := ((returns_walk hfree).mp hreturns).2
  split at hreturns
  next it hmatch =>
    obtain ⟨hit, hreturns⟩ := hreturns
    -- what the handler locks, it unlocks
    have hhandled : ∃ seen', Returns ([.unlock it.fd] : List Op) (insert (some it.fd) held) seen'
        held' := by
      rw [List.append_nil, TCPHandleListen] at hreturns
      split_ifs at hreturns
      · exact Returns.of_allocSocket hreturns
      · exact ⟨_, hreturns⟩
      · exact ⟨_, hreturns⟩
    obtain ⟨seen'', hunlock⟩ := hhandled
    exact (returns_nil.mp ((returns_unlock_insert hit).mp hunlock)).2
  next => exact (returns_nil.mp hreturns).2

/-- A function that unlocks the socket it has found, and what it locks afterwards. -/
theorem balanced_findSocket
    (hfound : ∀ res seen, Returns (found res) held seen held' → held' = held)
    (h : Returns (findSocket fd fun res => .unlock res.fd :: found res) held seen held') :
    held' = held := by
  rw [← List.append_nil (findSocket fd _)] at h
  obtain ⟨seen', hnil | ⟨res, hres⟩⟩ := Returns.of_findSocket h
  · exact (returns_nil.mp hnil).2
  · rw [List.append_nil] at hres
    exact hfound res seen' hres

theorem balanced_copyLab {copies : Bool} (h : Returns (copyLab fd copies) held seen held') :
    held' = held := by
  refine balanced_findSocket (fun res seen hres => ?_) h
  cases copies with
  | false => exact (returns_nil.mp hres).2
  | true => exact (returns_nil.mp (returns_lock_unlock.mp hres).2).2

/-- What a refused `connectLab` returns with. -/
theorem returns_connectLab (h : Returns (connectLab fd false) held seen held') :
    ∃ list, seen = [list] ∧ match list.findSocket fd with
      | some res => some res.fd ∉ held ∧ held' = insert (some res.fd) held
      | none => held' = held := by
  rw [← List.append_nil (connectLab fd false)] at h
  obtain ⟨-, list, seen', rfl, -, hreturns⟩ := returns_findSocket.mp h
  cases hfound : list.findSocket fd with
  | some res =>
    simp only [hfound, Bool.false_eq_true, if_false, List.nil_append, returns_nil] at hreturns
    obtain ⟨hres, rfl, hheld⟩ := hreturns
    refine ⟨list, rfl, ?_⟩
    rw [hfound]
    exact ⟨hres, hheld⟩
  | none =>
    simp only [hfound, returns_nil] at hreturns
    obtain ⟨rfl, hheld⟩ := hreturns
    refine ⟨list, rfl, ?_⟩
    rw [hfound]
    exact hheld

theorem Leaks.ne {list : SocketList} (hleaks : Leaks ops list) (hseen : list ∈ seen.head?)
    (h : Returns ops held seen held') : held' ≠ held := by
  obtain ⟨fd, rfl, hfound⟩ := hleaks
  obtain ⟨list', rfl, hreturns⟩ := returns_connectLab h
  obtain rfl := Option.some.inj hseen
  obtain ⟨res, hres⟩ := Option.isSome_iff_exists.mp hfound
  rw [hres] at hreturns
  obtain ⟨hfree, rfl⟩ := hreturns
  exact fun heq => hfree (heq ▸ Set.mem_insert _ _)

/-- **Every other call** returns with the mutexes it began with. -/
theorem balanced_prog {call : Call} (h : Returns call.prog held seen held')
    (hseen : ∀ list ∈ seen.head?, ¬ Leaks call.prog list) : held' = held := by
  cases call with
  | handleTCPMain packet => exact balanced_handleTCPMain h
  | asyncSendTCPPacket =>
    obtain ⟨hfree, list, seen', -, hreturns⟩ := returns_lockOuter.mp h
    exact (returns_nil.mp ((returns_walk hfree).mp hreturns).2).2
  | api i call =>
    have hfind : ∀ fd, Returns (findSocket fd fun socket => [.unlock socket.fd]) held seen held' →
        held' = held :=
      fun fd => balanced_findSocket fun res seen hres => (returns_nil.mp hres).2
    cases call with
    | socketLab valid =>
      cases valid with
      | false => exact (returns_nil.mp h).2
      | true =>
        obtain ⟨seen', hnil⟩ := @Returns.of_allocSocket [] _ _ _ h
        exact (returns_nil.mp hnil).2
    | bindLab fd valid =>
      cases valid with
      | false => exact (returns_nil.mp h).2
      | true => exact hfind fd h
    | listenLab fd => exact hfind fd h
    | acceptLab fd scans => exact balanced_findSocket (fun res seen => balanced_scans) h
    | connectLab fd valid =>
      cases valid with
      | false =>
        obtain ⟨list, rfl, hreturns⟩ := returns_connectLab h
        have hnone : list.findSocket fd = none := by
          rw [← Option.not_isSome_iff_eq_none]
          exact fun hsome => hseen list rfl ⟨fd, rfl, hsome⟩
        rwa [hnone] at hreturns
      | true => exact hfind fd h
    | readLab fd copies | writeLab fd copies => exact balanced_copyLab h
    | closeLab fd => exact balanced_findSocket (fun res seen => balanced_freeSocket) h

/-! ### All threads -/

variable {acts : List Action} {s : State Thread ℤ SocketList}

/-- There is a way to the end, on which the list is always the same. -/
def HasEnd (ops : List Op) (held : Set (Option ℤ)) (list : SocketList) : Prop :=
  ∃ n held', Returns ops held (List.replicate n list) held'

theorem hasEnd_findSocket {list : SocketList}
    (h : ∀ res : Socket, HasEnd (found res) {some res.fd} list) :
    HasEnd (findSocket fd found) ∅ list := by
  have hreturns := fun n held' => @returns_findSocket [] found ∅ held' (List.replicate n list) fd
  simp only [List.append_nil] at hreturns
  cases hres : list.findSocket fd with
  | none =>
    refine ⟨1, ∅, (hreturns 1 ∅).mpr ⟨Set.notMem_empty _, list, [], rfl, by simp, ?_⟩⟩
    simp only [hres]
    exact .nil
  | some res =>
    obtain ⟨n, held', hfound⟩ := h res
    refine ⟨n + 1, held', (hreturns (n + 1) held').mpr ⟨Set.notMem_empty _, list, _, rfl,
      by simp, ?_⟩⟩
    simp only [hres]
    exact ⟨Set.notMem_empty _, by simpa using hfound⟩

theorem hasEnd_unlock {list : SocketList} (h : ∀ res : Socket, HasEnd (found res) ∅ list) :
    HasEnd (findSocket fd fun res => .unlock res.fd :: found res) ∅ list := by
  refine hasEnd_findSocket fun res => ?_
  obtain ⟨n, held', hfound⟩ := h res
  exact ⟨n, held', returns_unlock.mpr ⟨rfl, by simpa using hfound⟩⟩

/-- A call of the application has a way to its end, if it begins without a lock. -/
theorem hasEnd_prog (call : Api) (list : SocketList) : HasEnd call.prog ∅ list := by
  have hnil : HasEnd [] ∅ list := ⟨0, ∅, .nil⟩
  cases call with
  | socketLab valid =>
    cases valid with
    | false => exact hnil
    | true =>
      refine ⟨1, ∅, returns_lockOuter.mpr ⟨Set.notMem_empty _, list, [], rfl, ?_⟩⟩
      refine (returns_lock_unlockOuter (Set.notMem_empty _)).mpr ⟨Set.notMem_empty _, ?_⟩
      exact (returns_unlock_insert (Set.notMem_empty _)).mpr .nil
  | bindLab fd valid =>
    cases valid with
    | false => exact hnil
    | true => exact hasEnd_unlock fun _ => hnil
  | listenLab fd => exact hasEnd_unlock fun _ => hnil
  | acceptLab fd scans =>
    refine hasEnd_unlock fun _ => ⟨scans, ∅, ?_⟩
    induction scans with
    | zero => exact .nil
    | succ scans ih =>
      refine returns_lockOuter.mpr ⟨Set.notMem_empty _, list, _, rfl, ?_⟩
      exact (returns_unlockOuter_insert (Set.notMem_empty _)).mpr ih
  | connectLab fd valid =>
    cases valid with
    | false => exact hasEnd_findSocket fun res => ⟨0, {some res.fd}, .nil⟩
    | true => exact hasEnd_unlock fun _ => hnil
  | readLab fd copies | writeLab fd copies =>
    refine hasEnd_unlock fun _ => ?_
    cases copies with
    | false => exact hnil
    | true => exact ⟨0, ∅, returns_lock_unlock.mpr ⟨Set.notMem_empty _, .nil⟩⟩
  | closeLab fd =>
    refine hasEnd_unlock fun res => ⟨1, ∅, ?_⟩
    refine returns_lockOuter.mpr ⟨Set.notMem_empty _, list, [], rfl, ?_⟩
    rw [List.append_nil, List.cons_append, List.nil_append,
      returns_unlockOuter_insert (Set.notMem_empty _)]
    split_ifs
    · exact returns_lock_unlock.mpr ⟨Set.notMem_empty _, .nil⟩
    · exact .nil

/-- Whatever is called next, it does not wait. -/
def Unblocked (s : State Thread ℤ SocketList) : Prop :=
  ∀ i (call : Api) (list : SocketList), ∃ held' s₁, step (.call (.api i call)) s = some s₁ ∧
    Finishes Call.thread Call.prog (.app i) [list] held' s₁

theorem unblocked (hsettled : Settled s) (hidle : ∀ t, s.todo t = []) : Unblocked s := by
  intro i call list
  obtain ⟨houter, hinner⟩ := hsettled.free hidle
  obtain ⟨n, held', hreturns⟩ := hasEnd_prog call list
  refine ⟨held', { s with todo := Function.update s.todo (.app i) call.prog }, ?_, ?_⟩
  · show Mutex.step Call.thread Call.prog (.call (.api i call)) s = _
    simp only [Mutex.step, Call.thread, hidle, Call.prog]
  · have hfinishes : Finishes Call.thread Call.prog (.app i) (list :: List.replicate n list) held'
        { s with todo := Function.update s.todo (.app i) call.prog } := by
      refine hreturns.finishes list ⟨?_, ?_⟩ (Function.update_self ..) ?_
      · simp [houter]
      · simp [hinner]
      · rw [owned_other Iff.rfl fun _ => Iff.rfl, hsettled (.app i) (hidle (.app i))]
    refine hfinishes.mono fun list' hmem => ?_
    rcases List.mem_cons.mp hmem with rfl | hmem
    · exact List.mem_singleton_self _
    · exact List.mem_singleton.mpr (List.eq_of_mem_replicate hmem)

/-- **The balance of the locks.** A call returns with the mutexes that it began with exactly if it
is not a refused `connectLab` that finds its socket. In a run without one, a thread that is in no
call holds no mutex; and when all calls are done, every mutex is free and no call waits. -/
theorem lock_balance {call : Call} (h : Returns call.prog held seen held') :
    (held' = held ↔ ¬ ∃ list ∈ seen.head?, Leaks call.prog list) ∧
      ∀ acts s, Run.Meets step (Avoids Leaks) acts start → Run.run step acts start = some s →
        Settled s ∧ ((∀ t, s.todo t = []) →
          (s.outer = none ∧ ∀ m, s.inner m = none) ∧ Unblocked s) := by
  constructor
  · constructor
    · rintro heq ⟨list, hseen, hleaks⟩
      exact hleaks.ne hseen h heq
    · intro hnone
      exact balanced_prog h fun list hseen hleaks => hnone ⟨list, hseen, hleaks⟩
  · intro acts s hc hrun
    have hsettled : Settled s := by
      refine Settled.run (fun ops list => ?_) (fun call seen held' => ?_) hc hrun
      · rintro ⟨fd, rfl, -⟩
        exact ⟨_, _, rfl⟩
      · exact balanced_prog
    exact ⟨hsettled, fun hidle => ⟨hsettled.free hidle, unblocked hsettled hidle⟩⟩

/-- The way of a call that finds the listener. -/
theorem returns_listener {ops : Socket → List Op}
    (h : Returns (ops listener) {some 5} [] held') :
    Returns (findSocket 5 ops) ∅ [⟨[listener], 6⟩] held' := by
  rw [← List.append_nil (findSocket 5 ops)]
  refine returns_findSocket.mpr ⟨Set.notMem_empty _, _, [], rfl, by simp, ?_⟩
  have hfound : SocketList.findSocket ⟨[listener], 6⟩ 5 = some listener := rfl
  rw [hfound]
  refine ⟨Set.notMem_empty _, ?_⟩
  rw [List.append_nil, show listener.fd = 5 from rfl, insert_empty_eq]
  exact h

theorem lock_balance_listenLab :
    ¬ ∃ list ∈ ([⟨[listener], 6⟩] : List SocketList).head?,
      Leaks (Call.prog (.api 0 (.listenLab 5))) list := by
  have hreturns : Returns (Call.prog (.api 0 (.listenLab 5))) ∅ [⟨[listener], 6⟩] ∅ := by
    refine returns_listener (returns_unlock.mpr ⟨rfl, ?_⟩)
    simp [listener, LabNetstack.allocSocket]
  exact (lock_balance hreturns).1.mp rfl

/-- A `connectLab` that is refused, step by step. -/
def refused : List Action :=
  .call (.api 0 (.connectLab 5 false)) :: List.replicate 3 (.next (.app 0) ⟨[listener], 6⟩)

/-- A refused `connectLab` keeps its socket, also when no call is left. -/
theorem not_lock_balance :
    (¬ ∀ (call : Call) (held : Set (Option ℤ)) (seen : List SocketList) (held' : Set (Option ℤ)),
      Returns call.prog held seen held' → held' = held) ∧
    ¬ ∀ (acts : List Action) (s : State Thread ℤ SocketList), Run.run step acts start = some s →
      (∀ t, s.todo t = []) → ∀ m, s.inner m = none := by
  constructor
  · intro hclaim
    have hreturns : Returns (Call.prog (.api 0 (.connectLab 5 false))) ∅ [⟨[listener], 6⟩]
        {some 5} := returns_listener .nil
    exact Set.singleton_ne_empty _ (hclaim _ _ _ _ hreturns)
  · intro hclaim
    let s := (Run.run step refused start).get (by decide)
    have hidle : ∀ t, s.todo t = [] := by
      intro t
      cases t with
      | loop => rfl
      | app i =>
        cases i with
        | zero => rfl
        | succ i => rfl
    have hfree : s.inner 5 = none := hclaim refused s (Option.some_get _).symm hidle 5
    exact absurd hfree (by decide)

end Locks

end LabNetstack
