import LabNetstack.Transport.Process

/-!
# What `acceptLab` returns

There is no queue of connections to accept: `acceptLab` looks for a socket that names its listener
as its parent and is established. A call that returns a child takes the name away, so no other call
returns it. But a child that is closed before any call has found it is never found again.

## Main results

* `Process.returned_once` — no child is returned twice, in any run
* `Process.acceptedOnce_iff` — in which runs every established child waits until it is returned
-/

namespace LabNetstack

open RingMemory

namespace Process

variable {p p' : Process} {act : Action} {list : SocketList} {k k' it : Socket} {fd l c : ℤ}

/-- The descriptor of a call that does something to its socket. -/
def Action.owned : Action → Option ℤ
  | .acceptLab _ => none
  | act => act.fd

/-- The application passes descriptors that it has been given: that of a child only when `acceptLab`
has returned it. -/
def Given (act : Action) (p : Process) : Prop :=
  ∀ fd ∈ act.owned, ∀ k ∈ p.list.sockets, k.fd = fd → k.parentListenFd = 0
deriving Decidable

/-- `TCPHandleListen` has created `c` for the listener `l`, `c` has been established, and no call
has returned it. -/
structure Waits (p : Process) (l c : ℤ) : Prop where
  child : (l, c) ∈ p.children
  reached : c ∈ p.reached
  kept : c ∉ p.returned.map Prod.snd

/-- What the scan of `acceptLab` looks for. -/
def Found (list : SocketList) (l c : ℤ) : Prop :=
  ∃ k ∈ list.sockets, k.fd = c ∧ k.parentListenFd = l ∧ k.state = .establisted
deriving Decidable

/-- Every child that has been established is returned by one call at most, for its own listener, and
waits to be returned. -/
structure AcceptedOnce (p : Process) : Prop where
  once : (p.returned.map Prod.snd).Nodup
  own : ∀ call ∈ p.returned, call ∈ p.children
  found : ∀ l c, p.Waits l c → Found p.list l c
  /-- Further calls return it, as long as the listener is there. -/
  returns : ∀ l c, p.Waits l c → (p.list.findSocket l).isSome →
    ∃ p', Run.Leads step (· = .acceptLab l) p p' ∧ (l, c) ∈ p'.returned

/-- The condition on a step: a segment does not close a child that has not been returned. -/
def KeepsChild : Action → Process → Prop
  | .segment _ _ packet, p =>
    ∀ k ∈ p.list.matchSocket packet, k.state = .establisted → k.parentListenFd ≠ 0 →
      ¬ packet.Closes k
  | _, _ => True

/-! ### No child is returned twice -/

/-- What every step keeps. -/
structure Registered (p : Process) : Prop where
  ordered : Ordered p.list
  once : (p.returned.map Prod.snd).Nodup
  own : ∀ call ∈ p.returned, call ∈ p.children
  nodup : (p.children.map Prod.snd).Nodup
  lt : ∀ child ∈ p.children, 0 < child.1 ∧ child.2 < p.list.nextFd
  parent : ∀ k ∈ p.list.sockets, k.parentListenFd ≠ 0 →
    (k.parentListenFd, k.fd) ∈ p.children ∧ k.fd ∉ p.returned.map Prod.snd

/-- No socket names a parent that it has not named before. -/
def Inherits (list list' : SocketList) : Prop :=
  ∀ k' ∈ list'.sockets, k'.parentListenFd ≠ 0 →
    ∃ k ∈ list.sockets, k.fd = k'.fd ∧ k.parentListenFd = k'.parentListenFd

theorem Inherits.refl (list : SocketList) : Inherits list list := fun k hk _ => ⟨k, hk, rfl, rfl⟩

theorem Inherits.update (hk : k ∈ list.sockets) (hfd : k'.fd = k.fd)
    (hparent : k'.parentListenFd = k.parentListenFd ∨ k'.parentListenFd = 0) :
    Inherits list (list.update k') := by
  intro it hit hne
  rcases mem_update.mp hit with ⟨rfl, -⟩ | ⟨hit, -⟩
  · rcases hparent with hsame | hzero
    · exact ⟨k, hk, hfd.symm, hsame.symm⟩
    · exact absurd hzero hne
  · exact ⟨it, hit, rfl, rfl⟩

/-- A socket whose role stays, its state aside. -/
theorem Inherits.of_role {state : TCPState} (hk : k ∈ list.sockets)
    (hrole : k'.role = { k.role with state := state }) : Inherits list (list.update k') :=
  .update hk (fd_of_role hrole) (Or.inl (congrArg Role.parentListenFd hrole))

theorem Inherits.add (hparent : k.parentListenFd = 0) (n : ℤ) :
    Inherits list ⟨list.sockets ++ [k], n⟩ := by
  intro it hit hne
  rcases List.mem_append.mp hit with hit | hit
  · exact ⟨it, hit, rfl, rfl⟩
  · rw [List.mem_singleton.mp hit] at hne
    exact absurd hparent hne

/-- The new sockets of a list that has none. -/
theorem born_eq_nil {n : ℤ} (hlt : ∀ it ∈ list.sockets, it.fd < n) :
    (list.sockets.filter fun it => it.fd = n).map (fun it => (it.parentListenFd, it.fd)) = [] := by
  rw [List.map_eq_nil_iff, List.filter_eq_nil_iff]
  intro it hit
  simpa using (hlt it hit).ne

theorem born_add {n : ℤ} (hlt : ∀ it ∈ list.sockets, it.fd < n) (hfd : k.fd = n) :
    ((list.sockets ++ [k]).filter fun it => it.fd = n).map (fun it => (it.parentListenFd, it.fd))
      = [(k.parentListenFd, n)] := by
  rw [List.filter_append, List.map_append, born_eq_nil hlt, List.nil_append,
    List.filter_singleton, hfd]
  simp [hfd]

namespace Registered

/-- A step without births and returns. -/
theorem quiet (h : Registered p) (hlist : Inherits p.list p'.list) (hordered : Ordered p'.list)
    (hle : p.list.nextFd ≤ p'.list.nextFd) (hchildren : p'.children = p.children)
    (hreturned : p'.returned = p.returned) : Registered p' where
  ordered := hordered
  once := hreturned ▸ h.once
  own := by
    rw [hreturned, hchildren]
    exact h.own
  nodup := hchildren ▸ h.nodup
  lt child hchild := by
    obtain ⟨hpos, hlt⟩ := h.lt child (hchildren ▸ hchild)
    exact ⟨hpos, hlt.trans_le hle⟩
  parent k' hk' hne := by
    obtain ⟨k, hk, hfd, hparent⟩ := hlist k' hk' hne
    rw [hchildren, hreturned, ← hfd, ← hparent]
    exact h.parent k hk (hparent ▸ hne)

/-- **A birth.** -/
theorem child (h : Registered p) {child : Socket} (hk : k ∈ p.list.sockets)
    (hfd : child.fd = p.list.nextFd) (hparent : child.parentListenFd = k.fd) (reached : List ℤ) :
    Registered { p with
      list := ⟨p.list.sockets ++ [child], p.list.nextFd + 1⟩
      children := p.children ++ [(k.fd, p.list.nextFd)]
      reached := reached } where
  ordered := h.ordered.add hfd
  once := h.once
  own call hcall := List.mem_append_left _ (h.own call hcall)
  nodup := by
    rw [List.map_append, List.map_singleton, List.nodup_append]
    refine ⟨h.nodup, List.nodup_singleton _, fun c hc c' hc' => ?_⟩
    obtain ⟨e, he, rfl⟩ := List.mem_map.mp hc
    rw [List.mem_singleton.mp hc']
    exact (h.lt e he).2.ne
  lt e he := by
    rcases List.mem_append.mp he with he | he
    · exact ⟨(h.lt e he).1, (h.lt e he).2.trans (lt_add_one _)⟩
    · rw [List.mem_singleton.mp he]
      exact ⟨h.ordered.pos k hk, lt_add_one _⟩
  parent it hit hne := by
    rcases List.mem_append.mp hit with hit | hit
    · obtain ⟨hchild, hkept⟩ := h.parent it hit hne
      exact ⟨List.mem_append_left _ hchild, hkept⟩
    · rw [List.mem_singleton.mp hit, hfd, hparent]
      refine ⟨List.mem_append_right _ (List.mem_singleton_self _), fun hreturned => ?_⟩
      obtain ⟨call, hcall, heq⟩ := List.mem_map.mp hreturned
      exact (h.lt call (h.own call hcall)).2.ne heq

/-- **A return.** -/
theorem accept (h : Registered p) (hfd : 0 < fd) (hk : p.list.acceptable fd = some k) :
    Registered { p with
      list := p.list.update { k with parentListenFd := 0 }
      returned := p.returned ++ [(fd, k.fd)] } := by
  obtain ⟨hmem, hparent, -⟩ := acceptable_some hk
  obtain ⟨hchild, hkept⟩ := h.parent k hmem (by rw [hparent]; exact hfd.ne')
  rw [hparent] at hchild
  refine ⟨h.ordered.update _, ?_, fun call hcall => ?_, h.nodup, h.lt, fun it hit hne => ?_⟩
  · rw [List.map_append, List.map_singleton, List.nodup_append]
    refine ⟨h.once, List.nodup_singleton _, fun c hc c' hc' heq => ?_⟩
    rw [heq, List.mem_singleton.mp hc'] at hc
    exact hkept hc
  · rcases List.mem_append.mp hcall with hcall | hcall
    · exact h.own call hcall
    · rw [List.mem_singleton.mp hcall]
      exact hchild
  · rcases mem_update.mp hit with ⟨rfl, -⟩ | ⟨hit, hother⟩
    · exact absurd rfl hne
    · obtain ⟨hchild', hkept'⟩ := h.parent it hit hne
      refine ⟨hchild', ?_⟩
      rw [List.map_append, List.mem_append, not_or]
      exact ⟨hkept', fun hself => hother (List.mem_singleton.mp hself)⟩

/-- **Every step.** -/
theorem step (h : Registered p) (hs : Process.step act p = some p') : Registered p' := by
  have hordered := h.ordered.step rfl hs
  cases moves_of_step hs with
  | missing => exact h
  | socketLab => exact h.quiet (Inherits.add rfl _) hordered (lt_add_one _).le rfl rfl
  | bindLab addr port k hk =>
    exact h.quiet (Inherits.update (findSocket_some hk).1 rfl (Or.inl rfl)) hordered le_rfl rfl rfl
  | listenLab k hk =>
    exact h.quiet (Inherits.update (findSocket_some hk).1 rfl (Or.inl rfl)) hordered le_rfl rfl rfl
  | connectLab addr port next k k' hk hrole =>
    exact h.quiet (Inherits.update (findSocket_some hk).1 (fd_of_role hrole)
      (Or.inl (congrArg Role.parentListenFd hrole))) hordered le_rfl rfl rfl
  | acceptLab fd k hfd hk =>
    obtain ⟨listener, hlistener⟩ := Option.isSome_iff_exists.mp hfd
    obtain ⟨hmem, rfl⟩ := findSocket_some hlistener
    exact h.accept (h.ordered.pos listener hmem) hk
  | writeLab buf k k' hk hrole =>
    exact h.quiet (Inherits.of_role (findSocket_some hk).1 hrole) hordered le_rfl rfl rfl
  | readLab nbyte k k' hk hrole =>
    exact h.quiet (Inherits.of_role (findSocket_some hk).1 hrole) hordered le_rfl rfl rfl
  | closeLab k k' hk hrole =>
    exact h.quiet (Inherits.of_role (findSocket_some hk).1 hrole) hordered le_rfl rfl rfl
  | leaveCloseLab => exact { h with }
  | freeSocket fd hfd =>
    exact h.quiet (fun k hk _ => ⟨k, mem_of_mem_freeSocket hk, rfl, rfl⟩) hordered le_rfl rfl rfl
  | tick nowtime =>
    refine h.quiet (fun k' hk' _ => ?_) hordered le_rfl rfl rfl
    obtain ⟨k, hk, rfl⟩ := mem_asyncSendTCPPacket.mp hk'
    have hrole := role_asyncSendTCPPacket nowtime k
    exact ⟨k, hk, (fd_of_role hrole).symm,
      (congrArg Role.parentListenFd hrole).symm⟩
  | segment readMem writeMem packet list hlist =>
    have hsame : Inherits p.list list → list.nextFd = p.list.nextFd → Registered { p with
        list := list
        children := p.children ++ (list.sockets.filter fun it => it.fd = p.list.nextFd).map
          fun it => (it.parentListenFd, it.fd)
        reached := p.reached ++
          (list.sockets.filter fun it => it.state = .establisted).map Socket.fd } := by
      intro hinherits hnext
      refine h.quiet hinherits hordered hnext.ge ?_ rfl
      simp only
      rw [born_eq_nil (fun it hit => hnext ▸ hordered.lt it hit), List.append_nil]
    rcases hlist with ⟨-, rfl⟩ | ⟨k, hmatch, hlist⟩
    · exact hsame (Inherits.refl _) rfl
    · cases hlist with
      | ignored => exact hsame (Inherits.refl _) rfl
      | child child hlisten hsyn hrole =>
        have hfd : child.fd = p.list.nextFd := fd_of_role hrole
        have hparent : child.parentListenFd = k.fd := congrArg Role.parentListenFd hrole
        rw [born_add h.ordered.lt hfd, hparent]
        exact h.child (mem_of_matchSocket hmatch) hfd hparent _
      | handled k' out hopen hrun =>
        have hrole := (role_handleTCPMain hrun).1
        exact hsame (Inherits.of_role (mem_of_matchSocket hmatch) hrole) rfl

end Registered

theorem registered_start (device : IPAddr) : Registered (start device) :=
  ⟨ordered_start device, List.nodup_nil, by simp [start], List.nodup_nil, by simp [start],
    by simp [start]⟩

/-- **No child is returned twice.** -/
theorem returned_once {device : IPAddr} {acts : List Action}
    (hrun : Run.run step acts (start device) = some p) :
    (p.returned.map Prod.snd).Nodup ∧ ∀ call ∈ p.returned, call ∈ p.children := by
  have h : Registered p :=
    Run.invariant (fun _ _ _ h hs => Registered.step h hs) (registered_start device) hrun
  exact ⟨h.once, h.own⟩

/-! ### A child waits -/

/-- What a run keeps in which no waiting child is closed. -/
structure AcceptOk (p : Process) : Prop where
  registered : Registered p
  reached_lt : ∀ c ∈ p.reached, c < p.list.nextFd
  child : ∀ l c, (l, c) ∈ p.children → c ∉ p.returned.map Prod.snd →
    ∃ k ∈ p.list.sockets, k.fd = c ∧ k.parentListenFd = l ∧
      k.state = if c ∈ p.reached then .establisted else .sysRecv

/-- The children that have not been returned are as they were. -/
def Keeps (list list' : SocketList) : Prop :=
  ∀ k ∈ list.sockets, k.parentListenFd ≠ 0 → ∃ k' ∈ list'.sockets,
    k'.fd = k.fd ∧ k'.parentListenFd = k.parentListenFd ∧ k'.state = k.state

theorem Keeps.refl (list : SocketList) : Keeps list list := fun k hk _ => ⟨k, hk, rfl, rfl, rfl⟩

/-- A call on another socket. -/
theorem Keeps.update (hgiven : ∀ k ∈ list.sockets, k.fd = k'.fd → k.parentListenFd = 0) :
    Keeps list (list.update k') := by
  intro k hk hne
  exact ⟨k, mem_update.mpr (Or.inr ⟨hk, fun hfd => hne (hgiven k hk hfd)⟩), rfl, rfl, rfl⟩

namespace AcceptOk

/-- A step that leaves the children alone. -/
theorem quiet (h : AcceptOk p) (hregistered : Registered p') (hkeeps : Keeps p.list p'.list)
    (hle : p.list.nextFd ≤ p'.list.nextFd) (hchildren : p'.children = p.children)
    (hreached : p'.reached = p.reached) (hreturned : p'.returned = p.returned) : AcceptOk p' where
  registered := hregistered
  reached_lt c hc := (h.reached_lt c (hreached ▸ hc)).trans_le hle
  child l c hchild hkept := by
    rw [hchildren] at hchild
    rw [hreturned] at hkept
    obtain ⟨k, hk, rfl, rfl, hstate⟩ := h.child l c hchild hkept
    obtain ⟨k', hk', hfd, hparent, hsame⟩ := hkeeps k hk (h.registered.lt _ hchild).1.ne'
    exact ⟨k', hk', hfd, hparent, by rw [hsame, hstate, hreached]⟩

theorem established_iff (hordered : Ordered list) (hk : k ∈ list.sockets) :
    k.fd ∈ (list.sockets.filter fun it => it.state = .establisted).map Socket.fd ↔
      k.state = .establisted := by
  rw [List.mem_map]
  constructor
  · rintro ⟨it, hit, hfd⟩
    rw [List.mem_filter, decide_eq_true_eq] at hit
    exact hordered.eq_of_fd hit.1 hk hfd ▸ hit.2
  · exact fun hopen => ⟨k, List.mem_filter.mpr ⟨hk, decide_eq_true hopen⟩, rfl⟩

/-- A child after a segment: its state says again whether it has been established. -/
theorem state_eq {reached : List ℤ} (hordered : Ordered list) (hk : k ∈ list.sockets)
    (hstate : k.state = .establisted ∨ (k.state = .sysRecv ∧ k.fd ∉ reached)) :
    k.state = if k.fd ∈ reached ++
      (list.sockets.filter fun it => it.state = .establisted).map Socket.fd
      then .establisted else .sysRecv := by
  have hiff := established_iff hordered hk
  rcases hstate with hopen | ⟨hearly, hnot⟩
  · rw [if_pos (List.mem_append_right _ (hiff.mpr hopen)), hopen]
  · have hclosed : k.state ≠ .establisted := by
      rw [hearly]
      decide
    rw [if_neg, hearly]
    rw [List.mem_append, not_or]
    exact ⟨hnot, mt hiff.mp hclosed⟩

/-- The children are there after a segment. -/
theorem child_segment (h : AcceptOk p) {readMem writeMem : Mem Byte} {packet : TCPPacket}
    {list : SocketList} (hc : KeepsChild (.segment readMem writeMem packet) p)
    (hlist : (p.list.matchSocket packet = none ∧ list = p.list) ∨
      ∃ k, p.list.matchSocket packet = some k ∧ Handled p.list packet k list)
    (hchild : (l, c) ∈ p.children) (hkept : c ∉ p.returned.map Prod.snd) :
    ∃ k ∈ list.sockets, k.fd = c ∧ k.parentListenFd = l ∧
      (k.state = .establisted ∨ (k.state = .sysRecv ∧ k.fd ∉ p.reached)) := by
  obtain ⟨k, hk, rfl, rfl, hstate⟩ := h.child l c hchild hkept
  have hstate' : k.state = .establisted ∨ (k.state = .sysRecv ∧ k.fd ∉ p.reached) := by
    split_ifs at hstate with hreached
    · exact Or.inl hstate
    · exact Or.inr ⟨hstate, hreached⟩
  rcases hlist with ⟨-, rfl⟩ | ⟨k₀, hmatch, hlist⟩
  · exact ⟨k, hk, rfl, rfl, hstate'⟩
  · cases hlist with
    | ignored => exact ⟨k, hk, rfl, rfl, hstate'⟩
    | child child hlisten hsyn hrole =>
      exact ⟨k, List.mem_append_left _ hk, rfl, rfl, hstate'⟩
    | handled k' out hopen hrun =>
      obtain ⟨hrole, hnext⟩ := role_handleTCPMain hrun
      have hfd : k'.fd = k₀.fd := fd_of_role hrole
      have hparent : k'.parentListenFd = k₀.parentListenFd := congrArg Role.parentListenFd hrole
      have hmem := mem_of_matchSocket hmatch
      by_cases hself : k.fd = k₀.fd
      · -- the segment is for this child
        obtain rfl := h.registered.ordered.eq_of_fd hk hmem hself
        refine ⟨k', mem_update.mpr (Or.inl ⟨rfl, ?_⟩), hfd, hparent, ?_⟩
        · rw [hfd]
          exact List.mem_map_of_mem hmem
        · rcases hnext with hsame | ⟨-, hopened⟩ | ⟨hest, -, hcloses⟩
          · rw [hsame, hfd]
            exact hstate'
          · exact Or.inl hopened
          · exact absurd hcloses (hc k hmatch hest (h.registered.lt _ hchild).1.ne')
      · exact ⟨k, mem_update.mpr (Or.inr ⟨hk, by rwa [hfd]⟩), rfl, rfl, hstate'⟩

/-- A socket with a new descriptor has just been created for a `SYN`. -/
theorem newborn_state {packet : TCPPacket} {list' : SocketList} (hordered : Ordered list)
    (hlist : (list.matchSocket packet = none ∧ list' = list) ∨
      ∃ k, list.matchSocket packet = some k ∧ Handled list packet k list')
    (hit : it ∈ list'.sockets) (hfd : it.fd = list.nextFd) : it.state = .sysRecv := by
  have hold : it ∉ list.sockets := fun hit => (hordered.lt it hit).ne hfd
  rcases hlist with ⟨-, rfl⟩ | ⟨k, hmatch, hlist⟩
  · exact absurd hit hold
  · cases hlist with
    | ignored => exact absurd hit hold
    | child child hlisten hsyn hrole =>
      rcases List.mem_append.mp hit with hit | hit
      · exact absurd hit hold
      · rw [List.mem_singleton.mp hit]
        exact congrArg Role.state hrole
    | handled k' out hopen hrun =>
      rcases mem_update.mp hit with ⟨rfl, hmem⟩ | ⟨hit, -⟩
      · obtain ⟨k₁, hk₁, heq⟩ := List.mem_map.mp hmem
        exact absurd (heq.trans hfd) (hordered.lt k₁ hk₁).ne
      · exact absurd hit hold

/-- **A segment.** -/
theorem segment (h : AcceptOk p) {readMem writeMem : Mem Byte} {packet : TCPPacket}
    {list : SocketList} (hc : KeepsChild (.segment readMem writeMem packet) p)
    (hlist : (p.list.matchSocket packet = none ∧ list = p.list) ∨
      ∃ k, p.list.matchSocket packet = some k ∧ Handled p.list packet k list)
    (hregistered : Registered { p with
      list := list
      children := p.children ++ (list.sockets.filter fun it => it.fd = p.list.nextFd).map
        fun it => (it.parentListenFd, it.fd)
      reached := p.reached ++
        (list.sockets.filter fun it => it.state = .establisted).map Socket.fd }) :
    AcceptOk { p with
      list := list
      children := p.children ++ (list.sockets.filter fun it => it.fd = p.list.nextFd).map
        fun it => (it.parentListenFd, it.fd)
      reached := p.reached ++
        (list.sockets.filter fun it => it.state = .establisted).map Socket.fd } := by
  have hordered : Ordered list := hregistered.ordered
  have hle : p.list.nextFd ≤ list.nextFd := by
    rcases hlist with ⟨-, rfl⟩ | ⟨k, -, hlist⟩
    · exact le_rfl
    · cases hlist with
      | ignored | handled => exact le_rfl
      | child => exact (lt_add_one _).le
  refine ⟨hregistered, fun c hc => ?_, fun l c hchild hkept => ?_⟩
  · rcases List.mem_append.mp hc with hc | hc
    · exact (h.reached_lt c hc).trans_le hle
    · obtain ⟨it, hit, rfl⟩ := List.mem_map.mp hc
      exact hordered.lt it (List.mem_filter.mp hit).1
  · rcases List.mem_append.mp hchild with hchild | hborn
    · obtain ⟨k, hk, rfl, hparent, hstate⟩ := h.child_segment hc hlist hchild hkept
      exact ⟨k, hk, rfl, hparent, state_eq hordered hk hstate⟩
    · -- the child that has just been created
      obtain ⟨it, hit, heq⟩ := List.mem_map.mp hborn
      obtain ⟨rfl, rfl⟩ := Prod.mk.inj heq
      rw [List.mem_filter, decide_eq_true_eq] at hit
      obtain ⟨hmem, hfd⟩ := hit
      refine ⟨it, hmem, rfl, rfl, state_eq hordered hmem (Or.inr ⟨?_, fun hreached => ?_⟩)⟩
      · exact newborn_state h.registered.ordered hlist hmem hfd
      · exact (h.reached_lt _ hreached).ne hfd

/-- **A call that returns.** -/
theorem accept (h : AcceptOk p) (hregistered : Registered { p with
      list := p.list.update { k with parentListenFd := 0 }
      returned := p.returned ++ [(fd, k.fd)] }) : AcceptOk { p with
      list := p.list.update { k with parentListenFd := 0 }
      returned := p.returned ++ [(fd, k.fd)] } where
  registered := hregistered
  reached_lt := h.reached_lt
  child l c hchild hkept := by
    rw [List.map_append, List.mem_append, not_or] at hkept
    obtain ⟨it, hit, rfl, hparent, hstate⟩ := h.child l c hchild hkept.1
    have hother : it.fd ≠ k.fd := fun hfd => hkept.2 (List.mem_singleton.mpr hfd)
    exact ⟨it, mem_update.mpr (Or.inr ⟨hit, hother⟩), rfl, hparent, hstate⟩

/-- **One step.** -/
theorem step (h : AcceptOk p) (hgiven : Given act p) (hs : Process.step act p = some p')
    (hc : KeepsChild act p) : AcceptOk p' := by
  have hregistered := h.registered.step hs
  cases moves_of_step hs with
  | missing => exact h
  | socketLab =>
    refine h.quiet hregistered (fun k hk _ => ?_) (lt_add_one _).le rfl rfl rfl
    exact ⟨k, List.mem_append_left _ hk, rfl, rfl, rfl⟩
  | bindLab addr port k hk =>
    exact h.quiet hregistered (Keeps.update (hgiven k.fd rfl)) le_rfl rfl rfl rfl
  | listenLab k hk =>
    exact h.quiet hregistered (Keeps.update (hgiven k.fd rfl)) le_rfl rfl rfl rfl
  | connectLab addr port next k k' hk hrole =>
    have hfd : k'.fd = k.fd := fd_of_role hrole
    exact h.quiet hregistered (Keeps.update (hfd ▸ hgiven k.fd rfl)) le_rfl rfl rfl rfl
  | acceptLab fd k hfd hk => exact h.accept hregistered
  | writeLab buf k k' hk hrole =>
    have hfd : k'.fd = k.fd := fd_of_role hrole
    exact h.quiet hregistered (Keeps.update (hfd ▸ hgiven k.fd rfl)) le_rfl rfl rfl rfl
  | readLab nbyte k k' hk hrole =>
    have hfd : k'.fd = k.fd := fd_of_role hrole
    exact h.quiet hregistered (Keeps.update (hfd ▸ hgiven k.fd rfl)) le_rfl rfl rfl rfl
  | closeLab k k' hk hrole =>
    have hfd : k'.fd = k.fd := fd_of_role hrole
    exact h.quiet hregistered (Keeps.update (hfd ▸ hgiven k.fd rfl)) le_rfl rfl rfl rfl
  | leaveCloseLab => exact h.quiet hregistered (Keeps.refl _) le_rfl rfl rfl rfl
  | freeSocket fd hfd =>
    refine h.quiet hregistered (fun k hk hne => ?_) le_rfl rfl rfl rfl
    exact ⟨k, mem_freeSocket hk fun heq => hne (hgiven fd rfl k hk heq), rfl, rfl, rfl⟩
  | tick nowtime =>
    refine h.quiet hregistered (fun k hk _ => ?_) le_rfl rfl rfl rfl
    have hrole := role_asyncSendTCPPacket nowtime k
    exact ⟨_, mem_asyncSendTCPPacket.mpr ⟨k, hk, rfl⟩, fd_of_role hrole,
      congrArg Role.parentListenFd hrole, congrArg Role.state hrole⟩
  | segment readMem writeMem packet list hlist => exact h.segment hc hlist hregistered

theorem found (h : AcceptOk p) (hwaits : p.Waits l c) : Found p.list l c := by
  obtain ⟨k, hk, hfd, hparent, hstate⟩ := h.child l c hwaits.child hwaits.kept
  rw [if_pos hwaits.reached] at hstate
  exact ⟨k, hk, hfd, hparent, hstate⟩

/-- A waiting child that a segment closes is not found again. -/
theorem keepsChild (h : AcceptOk p) (hs : Process.step act p = some p')
    (hfound : ∀ l c, p'.Waits l c → Found p'.list l c) : KeepsChild act p := by
  have hordered := h.registered.ordered.step rfl hs
  cases moves_of_step hs with
  | segment readMem writeMem packet list hlist =>
    intro k hmatch hopen hne hcloses
    rcases hlist with ⟨hnone, -⟩ | ⟨k₀, hmatch', hlist⟩
    · rw [hnone] at hmatch
      cases hmatch
    · obtain rfl := Option.some.inj (hmatch'.symm.trans hmatch)
      cases hlist with
      | ignored hlisten | child _ hlisten =>
        rw [hopen] at hlisten
        cases hlisten
      | handled k' out _ hrun =>
        have hfd : k'.fd = k₀.fd := fd_of_role (role_handleTCPMain hrun).1
        have hclosed : k'.state = .closed := by
          rw [handleTCPMain, hopen] at hrun
          exact (established_closed_iff hrun hopen).mpr hcloses
        have hmem := mem_of_matchSocket hmatch
        obtain ⟨hchild, hkept⟩ := h.registered.parent k₀ hmem hne
        have hreached : k₀.fd ∈ p.reached := by
          obtain ⟨it, hit, hsame, -, hstate⟩ := h.child _ _ hchild hkept
          obtain rfl := h.registered.ordered.eq_of_fd hit hmem hsame
          by_contra hnot
          rw [hopen, if_neg hnot] at hstate
          cases hstate
        obtain ⟨it, hit, hsame, -, hstate⟩ := hfound k₀.parentListenFd k₀.fd
          ⟨List.mem_append_left _ hchild, List.mem_append_left _ hreached, hkept⟩
        have hmem' : k' ∈ (p.list.update k').sockets :=
          mem_update.mpr (Or.inl ⟨rfl, hfd ▸ List.mem_map_of_mem hmem⟩)
        obtain rfl := hordered.eq_of_fd hit hmem' (hsame.trans hfd.symm)
        rw [hclosed] at hstate
        cases hstate
  | missing fd hfd =>
    cases act with
    | segment => cases hfd
    | _ => trivial
  | socketLab | bindLab | listenLab | connectLab | acceptLab | writeLab | readLab | closeLab
  | leaveCloseLab | freeSocket | tick => trivial

end AcceptOk

/-! ### Further calls -/

/-- How many sockets a call of `acceptLab` could return. -/
def candidates (list : SocketList) (l : ℤ) : ℕ :=
  list.sockets.countP fun it => it.parentListenFd = l ∧ it.state = .establisted

theorem candidates_lt (hl : l ≠ 0) (hk : list.acceptable l = some k) :
    candidates (list.update { k with parentListenFd := 0 }) l < candidates list l := by
  obtain ⟨hpred, before, after, hsockets, hbefore⟩ := List.find?_eq_some_iff_append.mp hk
  have hle : ∀ its : List Socket, ((its.map fun it => if it.fd = k.fd then
      { k with parentListenFd := 0 } else it).countP fun it =>
        it.parentListenFd = l ∧ it.state = .establisted)
      ≤ its.countP fun it => it.parentListenFd = l ∧ it.state = .establisted := by
    intro its
    rw [List.countP_map]
    refine List.countP_mono_left fun it _ hit => ?_
    rw [Function.comp_apply, decide_eq_true_eq] at hit
    split_ifs at hit
    · exact absurd hit.1.symm hl
    · exact decide_eq_true hit
  have hbefore := hle before
  have hafter := hle after
  rw [candidates, candidates, SocketList.update, hsockets, List.map_append, List.map_cons,
    List.countP_append, List.countP_append, List.countP_cons, List.countP_cons, if_pos rfl,
    if_pos hpred, if_neg (by simp [hl.symm])]
  simp only at hbefore hafter ⊢
  omega

/-- **A child that waits is returned.** -/
theorem exists_return (hl : l ≠ 0) (hfound : Found p.list l c)
    (hlistener : (p.list.findSocket l).isSome) :
    ∃ p', Run.Leads step (· = .acceptLab l) p p' ∧ (l, c) ∈ p'.returned := by
  induction hn : candidates p.list l using Nat.strong_induction_on generalizing p with
  | _ n ih =>
    obtain ⟨it, hit, hfd, hparent, hopen⟩ := hfound
    obtain ⟨k, hk⟩ : ∃ k, p.list.acceptable l = some k := by
      rw [← Option.isSome_iff_exists, SocketList.acceptable, List.find?_isSome]
      exact ⟨it, hit, decide_eq_true ⟨hparent, hopen⟩⟩
    have hstep : step (.acceptLab l) p = some { p with
        list := p.list.update { k with parentListenFd := 0 }
        returned := p.returned ++ [(l, k.fd)] } := by
      obtain ⟨listener, hlistener⟩ := Option.isSome_iff_exists.mp hlistener
      rw [step, onSocket, hlistener]
      simp only [hk, Option.map_some]
    have hfirst : Run.Leads step (· = .acceptLab l) p _ := Run.Leads.single rfl hstep
    by_cases hself : k.fd = c
    · refine ⟨_, hfirst, List.mem_append_right _ ?_⟩
      rw [hself]
      exact List.mem_singleton_self _
    · -- an earlier child is returned first
      have hother : it.fd ≠ k.fd := fun hfd' => hself (hfd'.symm.trans hfd)
      obtain ⟨p', hleads, hreturned⟩ := ih _ (hn ▸ candidates_lt hl hk)
        (p := { p with
          list := p.list.update { k with parentListenFd := 0 }
          returned := p.returned ++ [(l, k.fd)] })
        ⟨it, mem_update.mpr (Or.inr ⟨hit, hother⟩), hfd, hparent, hopen⟩
        (by rwa [SocketList.isSome_findSocket, SocketList.fds_update,
          ← SocketList.isSome_findSocket]) rfl
      exact ⟨p', hfirst.trans hleads, hreturned⟩

theorem AcceptOk.acceptedOnce (h : AcceptOk p) : p.AcceptedOnce where
  once := h.registered.once
  own := h.registered.own
  found _ _ := h.found
  returns _ _ hwaits hlistener :=
    exists_return (h.registered.lt _ hwaits.child).1.ne' (h.found hwaits) hlistener

/-- **Established connections are accepted exactly once.** In a run of an application that passes
descriptors it has been given, every established child waits until one call returns it exactly if
no segment closes a child that has not been returned. -/
theorem acceptedOnce_iff {device : IPAddr} {acts : List Action}
    (hgiven : Run.Meets step Given acts (start device))
    (hrun : Run.run step acts (start device) = some p) :
    (∀ before after t, acts = before ++ after → Run.run step before (start device) = some t →
      t.AcceptedOnce) ↔ Run.Meets step KeepsChild acts (start device) := by
  have hstart : AcceptOk (start device) :=
    ⟨registered_start device, by simp [start], by simp [start]⟩
  exact (Run.meets_iff (p := AcceptOk) (fun _ => AcceptOk.acceptedOnce)
    (fun _ _ _ hact h => h.step hact) (fun _ _ _ _ h hs hq => h.keepsChild hs hq.found) hgiven
    hstart hrun).symm

/-- A segment from port 5 of the client 2 to port 80 of the server 1. -/
def clientSegment (seqNum ackNum : BitVec 32) (ctrl : BitVec 8) (data : List Byte) : Action :=
  .segment (fun _ => 0) (fun _ => 0)
    ⟨2, 1, createTCPHeader 5 80 seqNum ackNum ctrl 0xffff, data⟩

/-- A server listens, and a client connects. -/
def served : List Action :=
  [.socketLab (fun _ => 0) (fun _ => 0), .bindLab 123456789 1 80, .listenLab 123456789,
    clientSegment (-1) 0 ctSyn [], clientSegment 0 0 ctAck []]

theorem acceptedOnce_iff_served :
    (∀ before after t, served ++ [.acceptLab 123456789] = before ++ after →
      Run.run step before (start 1) = some t → t.AcceptedOnce) ↔
    Run.Meets step KeepsChild (served ++ [.acceptLab 123456789]) (start 1) :=
  acceptedOnce_iff (by decide)
    (Option.some_get (x := Run.run step (served ++ [.acceptLab 123456789]) (start 1))
      (by decide)).symm

/-- The client sends a byte and closes before anybody accepts. -/
def servedLate : List Action :=
  served ++ [clientSegment 0 0 0 [7], clientSegment 1 0 ctFin [], .tick 1,
    clientSegment 1 1 ctAck []]

/-- A connection can be lost to its server. -/
theorem not_acceptedOnce : ¬ ∀ (device : IPAddr) (acts : List Action) (p : Process),
    Run.Meets step Given acts (start device) → Run.run step acts (start device) = some p →
    p.AcceptedOnce := by
  intro hclaim
  let p := (Run.run step servedLate (start 1)).get (by decide)
  have haccepted : p.AcceptedOnce := hclaim 1 servedLate p (by decide) (Option.some_get _).symm
  have hwaits : p.Waits 123456789 123456790 := ⟨by decide, by decide, by decide⟩
  exact absurd (haccepted.found _ _ hwaits) (by decide)

end Process

end LabNetstack
