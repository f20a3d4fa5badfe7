import LabNetstack.Application.Echo
import LabNetstack.Stack.FromConnect
import LabNetstack.Transport.SocketNodes

/-!
# The echo over the stack

The echo client and the echo server at the two ends of a connection, from the call of `connectLab`
on. The client goes on as soon as `connectLab` returns, which may be long before `acceptLab` does.
Through `socket.c` the calls of `read`, `write` and `close` become calls of `readLab`, `writeLab` and
`closeLab`; each may take as long as it likes, and everything that a run of the stack consists of may
happen in between. `closeLab` takes three steps: it is called, its wait loop ends, and the socket is
freed.

The four streams of the two ends follow each other: the server has read a part of what the client
has written, it has written a part of what it has read, and the client has read a part of that. So
the line that the client gets is the one that it has sent; and as long as the client has more to
come, neither side closes, so that no call fails.

## Main results

* `Echo.Good.step` — one event
* `Echo.run_echo` — every line comes back as it was sent
-/

namespace LabNetstack

open RingMemory

/-- A read returns no more than it was asked for, and nothing only at the end of the connection. -/
theorem readLab_size {k k' : Socket} {nbyte : ℕ} {bytes : List Byte}
    (h : readLab k nbyte = some (bytes, k')) :
    bytes.length ≤ nbyte ∧ (bytes = [] → k.state = .closed) := by
  simp only [readLab] at h
  split_ifs at h with hpos hclosed
  · obtain ⟨rfl, -⟩ := Prod.mk.inj (Option.some.inj h)
    have hlength := length_copyOut k.readBuffer k.recvBack (recvByte k nbyte)
    have hsize : (recvByte k nbyte).toNat ≤ nbyte := by
      rw [recvByte, toNat_clamp]
      exact Nat.min_le_left ..
    refine ⟨hlength.trans_le hsize, fun hnil => ?_⟩
    rw [hnil, List.length_nil] at hlength
    exact absurd ((zero_lt_iff_toNat _).mp hpos) (by omega)
  · obtain ⟨rfl, -⟩ := Prod.mk.inj (Option.some.inj h)
    exact ⟨Nat.zero_le _, fun _ => hclosed⟩

/-- A write that is not refused writes something. -/
theorem writeLab_size {k k' : Socket} {buf : List Byte} {n : ℤ}
    (h : writeLab k buf = some (n, k')) (hopen : writeRefused k = false)
    (hstate : k.state ≠ .closed) : ∃ m : ℕ, n = m ∧ 0 < m ∧ m ≤ buf.length := by
  simp only [writeLab, hopen, Bool.false_eq_true, if_false, if_neg hstate] at h
  split_ifs at h with hpos
  obtain ⟨rfl, -⟩ := Prod.mk.inj (Option.some.inj h)
  refine ⟨_, rfl, (zero_lt_iff_toNat _).mp hpos, ?_⟩
  rw [sendByte, toNat_clamp]
  exact Nat.min_le_left ..

namespace Syscall

/-- `__wrap_read`, `__wrap_write` and `__wrap_close`, for a descriptor of the stack: one that is not
below `NETSTACK_FD_START`. -/
def actions (fd : ℤ) : Syscall → List Process.Action
  | read nbyte => [.readLab fd nbyte]
  | write buf => [.writeLab fd buf]
  | close => [.closeLab fd, .leaveCloseLab fd, .freeSocket fd]

/-- What the caller sees when the call returns; `none` while it waits. The stack does not touch
`errno`. -/
def answer (p : Process) (fd : ℤ) (eintr : Bool) (call : Syscall) : Option Answer :=
  match p.list.findSocket fd with
  | none => some ⟨-1, [], eintr⟩
  | some socket =>
    match call with
    | read nbyte => (readLab socket nbyte).map fun (bytes, _) => ⟨bytes.length, bytes, eintr⟩
    | write buf => (writeLab socket buf).map fun (n, _) => ⟨n, [], eintr⟩
    | close => some ⟨0, [], eintr⟩

/-- The last step of `close` frees the socket. -/
theorem freeSocket_last {fd fd' : ℤ} {n : ℕ}
    (h : (close.actions fd)[n]? = some (.freeSocket fd')) :
    n + 1 = (close.actions fd).length := by
  match n, h with
  | 2, _ => rfl

/-- The steps of `close` move no bytes. -/
theorem close_moves_nothing {p : Process} {fd fd' : ℤ} {action : Process.Action}
    (h : action ∈ close.actions fd) : p.wrote fd' action = [] ∧ p.got fd' action = [] := by
  simp only [actions, List.mem_cons, List.not_mem_nil, or_false] at h
  rcases h with rfl | rfl | rfl <;> exact ⟨rfl, rfl⟩

end Syscall

namespace Connection

variable {ι : Type*} (c : Connection ι)

/-- The event is not a call on one of the two sockets. -/
def Spares : Stack.Event ι → Prop
  | .call v action => ∀ x, v = c.node x → c.fd x ∉ action.fd
  | .network _ | .receive _ _ _ _ => True

instance [DecidableEq ι] : DecidablePred c.Spares
  | .call v action => inferInstanceAs (Decidable (∀ x, v = c.node x → c.fd x ∉ action.fd))
  | .network _ | .receive _ _ _ _ => .isTrue trivial

variable {c} {d : Duo} {up : ι → Upper} {x : Side} {eintr : Bool} {answer : Answer}
  {E : Side → Process → Peer → Prop}

/-- **A call of `read` at an end.** Until somebody closes, it returns something. -/
theorem Carried.answer_read (h : c.Carried E up d)
    (hend : c.Connected x (up (c.node x)).process.list (d.peer x)) {nbyte : ℕ}
    (hanswer : Syscall.answer (up (c.node x)).process (c.fd x) eintr (.read nbyte) = some answer) :
    answer.ret = answer.bytes.length ∧
      (up (c.node x)).process.got (c.fd x) (.readLab (c.fd x) nbyte) = answer.bytes ∧
      answer.bytes.length ≤ nbyte ∧ (d.Open → answer.bytes ≠ []) := by
  obtain ⟨k, hfind, -, -, -, hrep⟩ := hend.find (h.ordered _)
  simp only [Syscall.answer, hfind] at hanswer
  obtain ⟨⟨bytes, k'⟩, hrun, rfl⟩ := Option.map_eq_some_iff.mp hanswer
  have hgot : (up (c.node x)).process.got (c.fd x) (.readLab (c.fd x) nbyte) = bytes := by
    simp only [Process.got, hfind, Option.bind_some, hrun, if_true]
  obtain ⟨hsize, hempty⟩ := readLab_size hrun
  refine ⟨rfl, hgot, hsize, fun ho hnil => ?_⟩
  have hclosed := hrep.state_eq_closed_iff.mp (hempty hnil)
  rw [ho.closed h.loose] at hclosed
  cases hclosed

/-- **A call of `write` at an end** writes something, until somebody closes. -/
theorem Carried.answer_write (h : c.Carried E up d)
    (hend : c.Connected x (up (c.node x)).process.list (d.peer x)) (ho : d.Open) {buf : List Byte}
    (hanswer : Syscall.answer (up (c.node x)).process (c.fd x) eintr (.write buf) = some answer) :
    ∃ n : ℕ, answer.ret = n ∧ 0 < n ∧ n ≤ buf.length ∧
      (up (c.node x)).process.wrote (c.fd x) (.writeLab (c.fd x) buf) = buf.take n := by
  obtain ⟨k, hfind, -, -, -, hrep⟩ := hend.find (h.ordered _)
  simp only [Syscall.answer, hfind] at hanswer
  obtain ⟨⟨n, k'⟩, hrun, rfl⟩ := Option.map_eq_some_iff.mp hanswer
  have hwrote : (up (c.node x)).process.wrote (c.fd x) (.writeLab (c.fd x) buf) =
      buf.take n.toNat := by
    simp only [Process.wrote, hfind, Option.bind_some, hrun, if_true]
  have hopen : writeRefused k = false := by
    rw [hrep.writeRefused_iff, ho.closed h.loose, ho.rcv_fin h.loose, Bool.or_self]
  have hstate : k.state ≠ .closed := by
    rw [ne_eq, hrep.state_eq_closed_iff, ho.closed h.loose]
    exact Bool.false_ne_true
  obtain ⟨m, rfl, hpos, hsize⟩ := writeLab_size hrun hopen hstate
  exact ⟨m, rfl, hpos, hsize, hwrote⟩

end Connection

/-! ### The two streams of an end -/

namespace Stack

variable {ι : Type*} [DecidableEq ι] {c : Connection ι} {up up' : ι → Upper} {event : Event ι}

/-- Events that are not about an end leave its streams alone. -/
theorem Moves.spared (h : Moves up event up') (hspares : c.Spares event) (x : Side) :
    (up' (c.node x)).written (c.fd x) = (up (c.node x)).written (c.fd x) ∧
      (up' (c.node x)).returned (c.fd x) = (up (c.node x)).returned (c.fd x) := by
  have hupdate : ∀ v action upper, (up v).step action = some upper →
      (v = c.node x → c.fd x ∉ action.fd) →
      (Function.update up v upper (c.node x)).written (c.fd x) =
          (up (c.node x)).written (c.fd x) ∧
        (Function.update up v upper (c.node x)).returned (c.fd x) =
          (up (c.node x)).returned (c.fd x) := by
    intro v action upper hstep hother
    by_cases hv : v = c.node x
    · have hfd := hother hv
      subst hv
      rw [Function.update_self, Upper.step_written hstep, Upper.step_returned hstep,
        Process.wrote_of_fd hfd, Process.got_of_fd hfd, List.append_nil, List.append_nil]
      exact ⟨rfl, rfl⟩
    · rw [Function.update_of_ne (Ne.symm hv)]
      exact ⟨rfl, rfl⟩
  cases h with
  | network | nothing => exact ⟨rfl, rfl⟩
  | call v action upper hstep => exact hupdate v action upper hstep (hspares x)
  | segment i chance readMem writeMem u v packet upper hsent hstep =>
    exact hupdate v _ upper hstep fun _ => nofun

/-- A call on an end is about its streams only. -/
theorem Moves.own {x : Side} {action : Process.Action}
    (h : Moves up (.call (c.node x) action) up') :
    (up' (c.node x)).written (c.fd x) =
        (up (c.node x)).written (c.fd x) ++ (up (c.node x)).process.wrote (c.fd x) action ∧
      (up' (c.node x)).returned (c.fd x) =
        (up (c.node x)).returned (c.fd x) ++ (up (c.node x)).process.got (c.fd x) action ∧
      up' (c.node x.other) = up (c.node x.other) := by
  cases h with
  | call v action upper hstep =>
    have hother : c.node x.other ≠ c.node x := fun heq => Side.other_ne x (Connection.node_inj heq)
    rw [Function.update_self, Function.update_of_ne hother]
    exact ⟨Upper.step_written hstep _, Upper.step_returned hstep _, rfl⟩

/-- What `acceptLab` has returned at an end has been connected. -/
theorem Begun.settled_of_returned {topo : Topology ι} {s s' : Mesh ι Upper} {d d' : Duo}
    (h : Begun topo c s d) (hmoves : Moves (uppers s) event (uppers s')) {frees : Prop} {x : Side}
    (hlasts : c.Lasts x frees (uppers s (c.node x)).process (uppers s' (c.node x)).process
      (d.peer x) (d'.peer x))
    (hold : c.fd x ∈ (uppers s (c.node x)).process.returned.map Prod.snd →
      c.Settled x (uppers s (c.node x)).process (d.peer x))
    (hfd : c.fd x ∈ (uppers s' (c.node x)).process.returned.map Prod.snd) :
    c.Settled x (uppers s' (c.node x)).process (d'.peer x) := by
  refine hlasts.settled ?_
  rcases hmoves.step_or (c.node x) with hsame | ⟨action, hstep⟩
  · exact hold (hsame ▸ hfd)
  rcases Process.returned_of_step (Upper.step_process hstep) hfd with hmem | ⟨k, hk, hkfd, hstate⟩
  · exact hold hmem
  · refine h.joins.settled_of_state (hkfd ▸ (h.joins.ordered _).findSocket hk) ?_
    rw [hstate]
    cases x <;> decide

end Stack

/-! ### The two programs and the stack -/

namespace Echo

/-- The stack, with the two programs above it. -/
structure State (ι : Type*) where
  stack : Mesh ι Upper
  client : Client
  server : Server
  /-- How many steps the call has taken that a program is in. -/
  taken : Side → ℕ

/-- Something that is not about the two sockets; or the call that a program is in takes a step. When
it returns, it leaves `errno` at `EINTR` or not. -/
inductive Event (ι : Type*)
  | stack (event : Stack.Event ι)
  | client (eintr : Bool)
  | server (eintr : Bool)

variable {ι : Type*} [DecidableEq ι] (topo : Topology ι) (c : Connection ι)

/-- The program has its socket: `connectLab` has returned to the client, and `acceptLab` has returned
the socket of the server. -/
def Handed (stack : Mesh ι Upper) : Side → Prop
  | .a => ∀ k ∈ (Stack.uppers stack (c.node .a)).process.list.findSocket (c.fd .a),
      k.state ≠ .sysSent
  | .b => c.fd .b ∈ (Stack.uppers stack (c.node .b)).process.returned.map Prod.snd

instance (stack : Mesh ι Upper) : DecidablePred (Handed c stack)
  | .a => inferInstanceAs (Decidable (∀ k ∈
      (Stack.uppers stack (c.node .a)).process.list.findSocket (c.fd .a), k.state ≠ .sysSent))
  | .b => inferInstanceAs (Decidable (c.fd .b ∈
      (Stack.uppers stack (c.node .b)).process.returned.map Prod.snd))

/-- A call on the socket of an end takes one more step, after `n` others. It returns with the last
one, or at once where there is no socket. -/
def syscall (x : Side) (eintr : Bool) (call : Syscall) (n : ℕ) (stack : Mesh ι Upper) :
    Option (Mesh ι Upper × Option Answer) :=
  if c.fd x < NETSTACK_FD_START ∨ ¬ Handed c stack x then none
  else
    let process := (Stack.uppers stack (c.node x)).process
    let actions := call.actions (c.fd x)
    actions[n]?.bind fun action =>
      (call.answer process (c.fd x) eintr).bind fun answer =>
        (Stack.step topo (.call (c.node x) action) stack).map fun stack =>
          (stack, if n + 1 = actions.length ∨ (process.list.findSocket (c.fd x)).isNone then
            some answer else none)

def step : Event ι → State ι → Option (State ι)
  | .stack event, s =>
    if c.Spares event then
      (Stack.step topo event s.stack).map fun stack => { s with stack := stack }
    else none
  | .client eintr, s => s.client.call.bind fun call =>
    (syscall topo c .a eintr call (s.taken .a) s.stack).map fun (stack, answer) => { s with
      stack := stack
      client := answer.elim s.client s.client.resume
      taken := Function.update s.taken .a (answer.elim (s.taken .a + 1) fun _ => 0) }
  | .server eintr, s => s.server.call.bind fun call =>
    (syscall topo c .b eintr call (s.taken .b) s.stack).map fun (stack, answer) => { s with
      stack := stack
      server := answer.elim s.server s.server.resume
      taken := Function.update s.taken .b (answer.elim (s.taken .b + 1) fun _ => 0) }

/-- Nobody takes the numbers or the descriptors of the connection. -/
def Undisturbed (event : Event ι) (s : State ι) : Prop :=
  ∀ s' ∈ step topo c event s, c.Separate (Stack.uppers s'.stack)

instance [Fintype ι] (event : Event ι) (s : State ι) : Decidable (Undisturbed topo c event s) :=
  inferInstanceAs (Decidable (∀ s' ∈ step topo c event s, c.Separate (Stack.uppers s'.stack)))

def written (stack : Mesh ι Upper) (x : Side) : List Byte :=
  (Stack.uppers stack (c.node x)).written (c.fd x)

def returned (stack : Mesh ι Upper) (x : Side) : List Byte :=
  (Stack.uppers stack (c.node x)).returned (c.fd x)

/-- The program at the end is in its call of `close`. -/
def State.Closing (s : State ι) : Side → Prop
  | .a => s.client.state = .closing
  | .b => s.server.state = .closing

/-- It has returned from it. -/
def State.Closed (s : State ι) : Side → Prop
  | .a => s.client.state = .closed
  | .b => s.server.state = .closed

/-- The two programs are where the four streams say, and nobody closes before the client does. -/
structure Good (file : List Byte) (s : State ι) (d : Duo) : Prop where
  begun : Stack.Begun topo c s.stack d
  client : s.client.Ok file (written c s.stack .a) (returned c s.stack .a)
  server : s.server.Ok (written c s.stack .b) (returned c s.stack .b)
  /-- Only `close` takes more than one step. -/
  closing : ∀ x, s.taken x ≠ 0 → s.Closing x
  unfreed : ∀ x, ¬ s.Closed x →
    c.Unfreed x (Stack.uppers s.stack (c.node x)).process (d.peer x)
  accepted : Handed c s.stack .b →
    c.Settled .b (Stack.uppers s.stack (c.node .b)).process (d.peer .b)
  live : s.client.state ≠ .closed → s.taken .a = 0 →
    d.Open ∧ s.server.state ≠ .closing ∧ s.server.state ≠ .closed

/-- What a step of a call at an end comes to, while there is a socket. -/
structure Turn (x : Side) (call : Syscall) (s : State ι) (stack : Mesh ι Upper)
    (action : Process.Action) (d d' : Duo) : Prop where
  connected : c.Connected x (Stack.uppers s.stack (c.node x)).process.list (d.peer x)
  next : (call.actions (c.fd x))[s.taken x]? = some action
  step : Stack.step topo (.call (c.node x) action) s.stack = some stack
  begun : Stack.Begun topo c stack d'
  opened : d.Open → call ≠ .close → d'.Open
  lasts : ∀ y,
    c.Lasts y (Stack.Event.call (c.node x) action = .call (c.node y) (.freeSocket (c.fd y)))
      (Stack.uppers s.stack (c.node y)).process (Stack.uppers stack (c.node y)).process
      (d.peer y) (d'.peer y)
  written : Echo.written c stack x = Echo.written c s.stack x ++
    (Stack.uppers s.stack (c.node x)).process.wrote (c.fd x) action
  returned : Echo.returned c stack x = Echo.returned c s.stack x ++
    (Stack.uppers s.stack (c.node x)).process.got (c.fd x) action
  writtenOther : Echo.written c stack x.other = Echo.written c s.stack x.other
  returnedOther : Echo.returned c stack x.other = Echo.returned c s.stack x.other

variable {topo c} {file : List Byte} {s s' : State ι} {d d' : Duo} {event : Event ι} {x y : Side}
  {n : ℕ} {eintr : Bool} {call : Syscall} {stack : Mesh ι Upper} {result : Option Answer}
  {action : Process.Action}

/-! ### One event -/

/-- A step of a call. -/
theorem syscall_eq_some (h : syscall topo c x eintr call n s.stack = some (stack, result)) :
    Handed c s.stack x ∧ ∃ action answer, (call.actions (c.fd x))[n]? = some action ∧
      call.answer (Stack.uppers s.stack (c.node x)).process (c.fd x) eintr = some answer ∧
      Stack.step topo (.call (c.node x) action) s.stack = some stack ∧
      (((Stack.uppers s.stack (c.node x)).process.list.findSocket (c.fd x)).isSome →
        result = if n + 1 = (call.actions (c.fd x)).length then some answer else none) := by
  rw [syscall] at h
  split_ifs at h with hrefused
  obtain ⟨-, hhanded⟩ := not_or.mp hrefused
  obtain ⟨action, haction, h⟩ := Option.bind_eq_some_iff.mp h
  obtain ⟨answer, hanswer, h⟩ := Option.bind_eq_some_iff.mp h
  obtain ⟨stack', hstack, heq⟩ := Option.map_eq_some_iff.mp h
  obtain ⟨rfl, rfl⟩ := Prod.mk.inj heq
  refine ⟨not_not.mp hhanded, action, answer, haction, hanswer, hstack, fun hsome => ?_⟩
  simp only [Option.isNone_iff_eq_none, Option.ne_none_iff_isSome.mpr hsome, or_false]

omit [DecidableEq ι] in
/-- Only the last step of `close` frees a socket of the two, and its own. -/
theorem frees_cases (hn : (call.actions (c.fd x))[n]? = some action)
    (hfree : Stack.Event.call (c.node x) action = .call (c.node y) (.freeSocket (c.fd y))) :
    y = x ∧ call = .close ∧ n + 1 = (call.actions (c.fd x)).length := by
  obtain ⟨hnode, rfl⟩ := Stack.Event.call.inj hfree
  cases call with
  | close => exact ⟨Connection.node_inj hnode.symm, rfl, Syscall.freeSocket_last hn⟩
  | read | write => cases List.mem_singleton.mp (List.mem_of_getElem? hn)

/-- All other calls return with their first step. -/
theorem returns_of_ne_close {fd : ℤ} {answer : Answer} (hne : call ≠ .close)
    (hn : (call.actions fd)[n]? = some action)
    (hresult : result = if n + 1 = (call.actions fd).length then some answer else none) :
    some answer = result := by
  obtain ⟨hlt, -⟩ := List.getElem?_eq_some_iff.mp hn
  have hlength : (call.actions fd).length = 1 := by
    cases call with
    | close => exact absurd rfl hne
    | read | write => rfl
  rw [hresult, if_pos (by omega)]

/-- `close` leaves the streams alone. -/
theorem streams_of_close (h : Turn topo c x .close s stack action d d') :
    written c stack x = written c s.stack x ∧ returned c stack x = returned c s.stack x := by
  obtain ⟨hwrote, hgot⟩ := Syscall.close_moves_nothing (List.mem_of_getElem? h.next)
  rw [h.written, h.returned, hwrote, hgot, List.append_nil, List.append_nil]
  exact ⟨rfl, rfl⟩

namespace Good

omit [DecidableEq ι] in
theorem taken_eq_zero (h : Good topo c file s d) (hnot : ¬ s.Closing x) : s.taken x = 0 :=
  not_not.mp fun hne => hnot (h.closing x hne)

omit [DecidableEq ι] in
/-- Neither stream is longer than the file. -/
theorem short (h : Good topo c file s d) (hfile : file.length < 2 ^ 16) :
    Stack.Short c s.stack := by
  have hclient := h.client.length_written_le
  have hserver := congrArg List.length h.server.echo
  have hread := (h.begun.joins.returned_isPrefix .a).length_le
  rw [List.length_append] at hserver
  intro x
  cases x with
  | a => exact hclient.trans_lt hfile
  | b =>
    calc (written c s.stack .b).length
        ≤ (returned c s.stack .b).length := by omega
      _ ≤ (written c s.stack .a).length := hread
      _ ≤ file.length := hclient
      _ < 2 ^ 16 := hfile

omit [DecidableEq ι] in
/-- What comes back to the client has been written by it. -/
theorem echoed (h : Stack.Begun topo c stack d) {server : Server}
    (hserver : server.Ok (written c stack .b) (returned c stack .b)) :
    returned c stack .a <+: written c stack .a := by
  have hback : returned c stack .a <+: written c stack .b := h.joins.returned_isPrefix .b
  have hforth : returned c stack .b <+: written c stack .a := h.joins.returned_isPrefix .a
  rw [← hserver.echo] at hforth
  exact hback.trans ((List.prefix_append ..).trans hforth)

omit [DecidableEq ι] in
/-- Once the client has all that it has written, the server has nothing left to write. -/
theorem held_eq_nil (h : Good topo c file s d)
    (hall : returned c s.stack .a = written c s.stack .a) : s.server.held = [] := by
  have hback : returned c s.stack .a <+: written c s.stack .b :=
    h.begun.joins.returned_isPrefix .b
  have hforth : returned c s.stack .b <+: written c s.stack .a :=
    h.begun.joins.returned_isPrefix .a
  have hback := hback.length_le
  have hforth := hforth.length_le
  have hecho := congrArg List.length h.server.echo
  rw [List.length_append] at hecho
  rw [hall] at hback
  exact List.eq_nil_of_length_eq_zero (by omega)

omit [DecidableEq ι] in
/-- As long as the server has something to write, the client has not called `close`. -/
theorem open_of_held (h : Good topo c file s d) (hheld : s.server.held ≠ []) : d.Open := by
  have hwhere := h.client.state
  rw [Client.Where] at hwhere
  -- at its end the client has all that it has written
  have hend : s.client.state ≠ .closing ∧ s.client.state ≠ .closed := by
    constructor
    all_goals
      intro hstate
      simp only [hstate] at hwhere
      exact hheld (h.held_eq_nil (hwhere.2.2.trans hwhere.2.1.symm))
  exact (h.live hend.2 (h.taken_eq_zero (x := .a) hend.1)).1

omit [DecidableEq ι] in
/-- A program that has its socket is connected until it has closed. -/
theorem connected (h : Good topo c file s d) (hhanded : Handed c s.stack x)
    (hopen : ¬ s.Closed x) :
    c.Connected x (Stack.uppers s.stack (c.node x)).process.list (d.peer x) := by
  refine h.unfreed x hopen ?_
  cases x with
  | b => exact h.accepted hhanded
  | a =>
    rcases h.begun.joins.ends .a with ⟨hmissing, -⟩ | ⟨⟨k, hk, hfd, -, call, hawaits, -⟩, -⟩ | hend
    · cases hmissing.1
    · have hfind := (h.begun.joins.ordered _).findSocket hk
      exact absurd hawaits.state_eq (hhanded k (hfd ▸ hfind))
    · exact hend

/-- What an event of the stack leaves as it is, whatever becomes of the programs. -/
theorem next (h : Good topo c file s d) {event : Stack.Event ι}
    (hs : Stack.step topo event s.stack = some s'.stack) (hbegun : Stack.Begun topo c s'.stack d')
    (hlasts : ∀ y, c.Lasts y (event = .call (c.node y) (.freeSocket (c.fd y)))
      (Stack.uppers s.stack (c.node y)).process (Stack.uppers s'.stack (c.node y)).process
      (d.peer y) (d'.peer y))
    (hfrees : ∀ y, event = .call (c.node y) (.freeSocket (c.fd y)) → s'.Closed y)
    (hclosed : ∀ y, s.Closed y → s'.Closed y) (hclosing : ∀ y, s'.taken y ≠ 0 → s'.Closing y)
    (hclient : s'.client.Ok file (written c s'.stack .a) (returned c s'.stack .a))
    (hserver : s'.server.Ok (written c s'.stack .b) (returned c s'.stack .b))
    (hlive : s'.client.state ≠ .closed → s'.taken .a = 0 →
      d'.Open ∧ s'.server.state ≠ .closing ∧ s'.server.state ≠ .closed) :
    Good topo c file s' d' where
  begun := hbegun
  client := hclient
  server := hserver
  closing := hclosing
  unfreed y hopen := (hlasts y).unfreed (fun hfree => hopen (hfrees y hfree))
    (h.unfreed y fun hbefore => hopen (hclosed y hbefore))
  accepted hhanded :=
    h.begun.settled_of_returned (h.begun.accounted.step hs).2 (hlasts .b) h.accepted hhanded
  live := hlive

/-- Something that is not about the two sockets. -/
theorem onStack (h : Good topo c file s d) (hfile : file.length < 2 ^ 16) {event : Stack.Event ι}
    (hspares : c.Spares event) (hsep : c.Separate (Stack.uppers stack))
    (hs : Stack.step topo event s.stack = some stack) :
    ∃ d', Good topo c file { s with stack := stack } d' := by
  have hreserved : Stack.Reserved topo c event s.stack := by
    refine ⟨?_, fun stack' hstack' => ?_⟩
    · cases event with
      | network | receive => trivial
      | call v action =>
        cases action with
        | writeLab => exact fun x hv hfd => absurd (congrArg some hfd) (hspares x hv)
        | segment => cases hs
        | bindLab | listenLab | connectLab =>
          exact fun x hv hfd => hspares x hv (congrArg some hfd)
        | _ => trivial
    · rw [hs] at hstack'
      exact Option.some.inj hstack' ▸ hsep
  obtain ⟨d', hbegun, hopen, hlasts⟩ := h.begun.step hreserved (h.short hfile) hs
  have hmoves := (h.begun.accounted.step hs).2
  obtain ⟨hwa, hra⟩ := hmoves.spared hspares .a
  obtain ⟨hwb, hrb⟩ := hmoves.spared hspares .b
  have hclient : s.client.Ok file (written c stack .a) (returned c stack .a) := by
    rw [written, returned, hwa, hra]
    exact h.client
  have hserver : s.server.Ok (written c stack .b) (returned c stack .b) := by
    rw [written, returned, hwb, hrb]
    exact h.server
  refine ⟨d', h.next hs hbegun hlasts ?_ (fun _ => id) h.closing hclient hserver
    fun hlive htaken => ?_⟩
  · rintro y rfl
    exact absurd rfl (hspares y rfl)
  · obtain ⟨ho, hserver⟩ := h.live hlive htaken
    refine ⟨hopen ho ?_, hserver⟩
    rintro x rfl
    exact hspares x rfl rfl

/-- **A step of a call of one of the programs**, as the stack takes it. -/
theorem onSyscall (h : Good topo c file s d) (hfile : file.length < 2 ^ 16)
    (hsep : c.Separate (Stack.uppers stack)) (hopen : ¬ s.Closed x)
    (hwrite : ∀ buf, call = .write buf → d.Open)
    (hs : syscall topo c x eintr call (s.taken x) s.stack = some (stack, result)) :
    ∃ action answer d', Turn topo c x call s stack action d d' ∧
      call.answer (Stack.uppers s.stack (c.node x)).process (c.fd x) eintr = some answer ∧
      result = if s.taken x + 1 = (call.actions (c.fd x)).length then some answer else none := by
  obtain ⟨hhanded, action, answer, hn, hanswer, hstack, hresult⟩ := syscall_eq_some hs
  have hend := h.connected hhanded hopen
  obtain ⟨k, hfind, -⟩ := hend.find (h.begun.joins.ordered _)
  have haction := List.mem_of_getElem? hn
  have hreserved : Stack.Reserved topo c (.call (c.node x) action) s.stack := by
    refine ⟨?_, fun stack' hstack' => ?_⟩
    · cases call with
      | read =>
        obtain rfl := List.mem_singleton.mp haction
        trivial
      | write buf =>
        obtain rfl := List.mem_singleton.mp haction
        intro y hnode _ k hk
        obtain rfl := Connection.node_inj hnode
        have hrep := hend.rep_of_findSocket (h.begun.joins.ordered _) hk
        rw [hrep.hasFlag_call, (hwrite buf rfl).call]
      | close =>
        simp only [Syscall.actions, List.mem_cons, List.not_mem_nil, or_false] at haction
        rcases haction with rfl | rfl | rfl <;> trivial
    · rw [hstack] at hstack'
      exact Option.some.inj hstack' ▸ hsep
  obtain ⟨d', hbegun, hkeeps, hlasts⟩ := h.begun.step hreserved (h.short hfile) hstack
  obtain ⟨hwritten, hreturned, hother⟩ := ((h.begun.accounted.step hstack).2).own
  refine ⟨action, answer, d', ⟨hend, hn, hstack, hbegun, fun ho hclose => hkeeps ho fun y heq => ?_,
    hlasts, hwritten, hreturned, ?_, ?_⟩, hanswer, hresult (hfind ▸ rfl)⟩
  · obtain ⟨-, rfl⟩ := Stack.Event.call.inj heq
    cases call with
    | close => exact hclose rfl
    | read | write => cases List.mem_singleton.mp haction
  · rw [written, hother, written]
  · rw [returned, hother, returned]

/-- What is left to show of a step of the client. -/
theorem nextClient (h : Good topo c file s d) (hturn : Turn topo c .a call s stack action d d')
    (hlive : s.client.state ≠ .closed) (ho : call ≠ .close → d.Open) {client : Client} {taken : ℕ}
    (hclient : client.Ok file (written c stack .a) (returned c stack .a))
    (hclosing : taken ≠ 0 → client.state = .closing)
    (hclose : call = .close → client.state = .closed ∨
      taken ≠ 0 ∧ s.taken .a + 1 ≠ (call.actions (c.fd .a)).length)
    (hzero : call ≠ .close → s.taken .a = 0) :
    Good topo c file { s with
      stack := stack, client := client, taken := Function.update s.taken .a taken } d' := by
  have hserver : s.server.Ok (written c stack .b) (returned c stack .b) := by
    rw [show Side.b = Side.a.other from rfl, hturn.writtenOther, hturn.returnedOther]
    exact h.server
  refine h.next hturn.step hturn.begun hturn.lasts (fun y hfree => ?_) (fun y hclosed => ?_)
    (fun y htaken => ?_) hclient hserver fun hlive' htaken => ?_
  · obtain ⟨rfl, hcalled, hlast⟩ := frees_cases hturn.next hfree
    exact (hclose hcalled).resolve_right fun hmore => hmore.2 hlast
  · cases y with
    | a => exact absurd hclosed hlive
    | b => exact hclosed
  · cases y with
    | a => exact hclosing (by simpa using htaken)
    | b => exact h.closing .b (by simpa using htaken)
  · have htaken : taken = 0 := by simpa using htaken
    have hne : call ≠ .close := fun hcalled =>
      (hclose hcalled).elim hlive' fun hmore => hmore.1 htaken
    exact ⟨hturn.opened (ho hne) hne, (h.live hlive (hzero hne)).2⟩

/-- **The call that the client is in takes a step.** -/
theorem onClient (h : Good topo c file s d) (hfile : file.length < 2 ^ 16)
    (hcall : s.client.call = some call) (hsep : c.Separate (Stack.uppers stack))
    (hs : syscall topo c .a eintr call (s.taken .a) s.stack = some (stack, result)) :
    ∃ d', Good topo c file { s with
      stack := stack
      client := result.elim s.client s.client.resume
      taken := Function.update s.taken .a (result.elim (s.taken .a + 1) fun _ => 0) } d' := by
  have hlive : s.client.state ≠ .closed := by
    intro hstate
    rw [Client.call, hstate] at hcall
    cases hcall
  have hzero : call ≠ .close → s.taken .a = 0 := by
    refine fun hne => h.taken_eq_zero fun hstate => hne ?_
    rw [State.Closing] at hstate
    rw [Client.call, hstate] at hcall
    exact (Option.some.inj hcall).symm
  have ho : call ≠ .close → d.Open := fun hne => (h.live hlive (hzero hne)).1
  have hwrite : ∀ buf, call = .write buf → d.Open := by
    rintro buf rfl
    exact ho Syscall.noConfusion
  obtain ⟨action, answer, d', hturn, hanswer, hresult⟩ :=
    h.onSyscall (x := .a) hfile hsep hlive hwrite hs
  have haction := List.mem_of_getElem? hturn.next
  rcases h.client.call_cases hcall with
    ⟨nleft, buf, hstate, rfl, hlength⟩ | ⟨stored, hstate, rfl⟩ | ⟨hstate, rfl⟩
  · obtain rfl := List.mem_singleton.mp haction
    obtain rfl := returns_of_ne_close Syscall.noConfusion hturn.next hresult
    obtain ⟨n, hret, hpos, hle, hwrote⟩ :=
      h.begun.joins.answer_write hturn.connected (ho Syscall.noConfusion) hanswer
    have hgot : (Stack.uppers s.stack (c.node .a)).process.got (c.fd .a)
        (.writeLab (c.fd .a) buf) = [] := rfl
    refine ⟨d', h.nextClient hturn hlive ho ?_ (fun hne => absurd rfl hne)
      (fun hcalled => Syscall.noConfusion hcalled) hzero⟩
    rw [hturn.written, hturn.returned, hwrote, hgot, List.append_nil]
    exact h.client.wrote hstate hpos (hlength ▸ hle) hret hcall
  · obtain rfl := List.mem_singleton.mp haction
    obtain rfl := returns_of_ne_close Syscall.noConfusion hturn.next hresult
    obtain ⟨hret, hgot, hsize, hsome⟩ := h.begun.joins.answer_read hturn.connected hanswer
    obtain ⟨b, hb⟩ := List.length_eq_one_iff.mp
      (Nat.le_antisymm hsize (List.length_pos_iff.mpr (hsome (ho Syscall.noConfusion))))
    have hwrote : (Stack.uppers s.stack (c.node .a)).process.wrote (c.fd .a)
        (.readLab (c.fd .a) 1) = [] := rfl
    have hserver : s.server.Ok (written c stack .b) (returned c stack .b) := by
      rw [show Side.b = Side.a.other from rfl, hturn.writtenOther, hturn.returnedOther]
      exact h.server
    refine ⟨d', h.nextClient hturn hlive ho ?_ (fun hne => absurd rfl hne)
      (fun hcalled => Syscall.noConfusion hcalled) hzero⟩
    -- the byte has come all the way round
    have hecho := echoed hturn.begun hserver
    rw [hturn.written, hturn.returned, hwrote, hgot, hb, List.append_nil] at hecho ⊢
    rw [hb] at hret
    exact h.client.read hstate hret hb hecho
  · have hstreams : written c stack .a = written c s.stack .a ∧
        returned c stack .a = returned c s.stack .a := streams_of_close hturn
    by_cases hlast : s.taken .a + 1 = (Syscall.close.actions (c.fd .a)).length
    · rw [if_pos hlast] at hresult
      subst hresult
      refine ⟨d', h.nextClient hturn hlive ho ?_ (fun hne => absurd rfl hne) (fun _ => Or.inl ?_)
        hzero⟩
      · rw [hstreams.1, hstreams.2]
        exact h.client.close hstate
      · show (s.client.resume answer).state = .closed
        rw [Client.resume, hstate]
    · rw [if_neg hlast] at hresult
      subst hresult
      refine ⟨d', h.nextClient hturn hlive ho ?_ (fun _ => hstate)
        (fun _ => Or.inr ⟨Nat.succ_ne_zero _, hlast⟩) hzero⟩
      rw [hstreams.1, hstreams.2]
      exact h.client

/-- What is left to show of a step of the server. -/
theorem nextServer (h : Good topo c file s d) (hturn : Turn topo c .b call s stack action d d')
    (hopen : s.server.state ≠ .closed) {server : Server} {taken : ℕ}
    (hserver : server.Ok (written c stack .b) (returned c stack .b))
    (hclosing : taken ≠ 0 → server.state = .closing)
    (hclose : call = .close → s.server.state = .closing ∧ (server.state = .closed ∨
      s.taken .b + 1 ≠ (call.actions (c.fd .b)).length))
    (hgoes : d.Open → call ≠ .close → server.state ≠ .closing ∧ server.state ≠ .closed) :
    Good topo c file { s with
      stack := stack, server := server, taken := Function.update s.taken .b taken } d' := by
  have hclient : s.client.Ok file (written c stack .a) (returned c stack .a) := by
    rw [show Side.a = Side.b.other from rfl, hturn.writtenOther, hturn.returnedOther]
    exact h.client
  refine h.next hturn.step hturn.begun hturn.lasts (fun y hfree => ?_) (fun y hclosed => ?_)
    (fun y htaken => ?_) hclient hserver fun hlive htaken => ?_
  · obtain ⟨rfl, hcalled, hlast⟩ := frees_cases hturn.next hfree
    exact (hclose hcalled).2.resolve_right fun hmore => hmore hlast
  · cases y with
    | a => exact hclosed
    | b => exact absurd hclosed hopen
  · cases y with
    | a => exact h.closing .a (by simpa using htaken)
    | b => exact hclosing (by simpa using htaken)
  · obtain ⟨ho, hnot, -⟩ := h.live hlive (by simpa using htaken)
    have hne : call ≠ .close := fun hcalled => hnot (hclose hcalled).1
    exact ⟨hturn.opened ho hne, hgoes ho hne⟩

/-- **The call that the server is in takes a step.** -/
theorem onServer (h : Good topo c file s d) (hfile : file.length < 2 ^ 16)
    (hcall : s.server.call = some call) (hsep : c.Separate (Stack.uppers stack))
    (hs : syscall topo c .b eintr call (s.taken .b) s.stack = some (stack, result)) :
    ∃ d', Good topo c file { s with
      stack := stack
      server := result.elim s.server s.server.resume
      taken := Function.update s.taken .b (result.elim (s.taken .b + 1) fun _ => 0) } d' := by
  have hopen : s.server.state ≠ .closed := by
    intro hstate
    rw [Server.call, hstate] at hcall
    cases hcall
  have hwrite : ∀ buf, call = .write buf → d.Open := by
    rintro buf rfl
    rcases h.server.call_cases hcall with ⟨-, nleft, -, -, hlength, hpos⟩ | ⟨-, hne⟩ | ⟨-, hne⟩
    · exact h.open_of_held (List.length_pos_iff.mp (hlength ▸ hpos))
    · cases hne
    · cases hne
  obtain ⟨action, answer, d', hturn, hanswer, hresult⟩ :=
    h.onSyscall (x := .b) hfile hsep hopen hwrite hs
  have haction := List.mem_of_getElem? hturn.next
  rcases h.server.call_cases hcall with
    ⟨buf, nleft, hstate, rfl, hlength, hpos⟩ | ⟨hstate, rfl⟩ | ⟨hstate, rfl⟩
  · obtain rfl := List.mem_singleton.mp haction
    obtain rfl := returns_of_ne_close Syscall.noConfusion hturn.next hresult
    obtain ⟨n, hret, hpos, hle, hwrote⟩ :=
      h.begun.joins.answer_write hturn.connected (hwrite _ rfl) hanswer
    have hgot : (Stack.uppers s.stack (c.node .b)).process.got (c.fd .b)
        (.writeLab (c.fd .b) s.server.held) = [] := rfl
    refine ⟨d', h.nextServer hturn hopen ?_ (fun hne => absurd rfl hne)
      (fun hcalled => Syscall.noConfusion hcalled) fun _ _ => Server.resume_writing hstate⟩
    rw [hturn.written, hturn.returned, hwrote, hgot, List.append_nil]
    exact h.server.wrote hstate hpos (hlength ▸ hle) hret
  · obtain rfl := List.mem_singleton.mp haction
    obtain rfl := returns_of_ne_close Syscall.noConfusion hturn.next hresult
    obtain ⟨hret, hgot, -, hsome⟩ := h.begun.joins.answer_read hturn.connected hanswer
    have hwrote : (Stack.uppers s.stack (c.node .b)).process.wrote (c.fd .b)
        (.readLab (c.fd .b) MAXLINE) = [] := rfl
    refine ⟨d', h.nextServer hturn hopen ?_ (fun hne => absurd rfl hne)
      (fun hcalled => Syscall.noConfusion hcalled) fun ho _ => ?_⟩
    · rw [hturn.written, hturn.returned, hwrote, hgot, List.append_nil]
      exact h.server.read hstate hret
    · have hpos := List.length_pos_iff.mpr (hsome ho)
      exact Server.resume_reading hstate (by omega)
  · have hstreams : written c stack .b = written c s.stack .b ∧
        returned c stack .b = returned c s.stack .b := streams_of_close hturn
    by_cases hlast : s.taken .b + 1 = (Syscall.close.actions (c.fd .b)).length
    · rw [if_pos hlast] at hresult
      subst hresult
      refine ⟨d', h.nextServer hturn hopen ?_ (fun hne => absurd rfl hne)
        (fun _ => ⟨hstate, Or.inl ?_⟩) fun _ hne => absurd rfl hne⟩
      · rw [hstreams.1, hstreams.2]
        exact h.server.close hstate
      · show (s.server.resume answer).state = .closed
        rw [Server.resume, hstate]
    · rw [if_neg hlast] at hresult
      subst hresult
      refine ⟨d', h.nextServer hturn hopen ?_ (fun _ => hstate)
        (fun _ => ⟨hstate, Or.inr hlast⟩) fun _ hne => absurd rfl hne⟩
      rw [hstreams.1, hstreams.2]
      exact h.server

/-- **One event.** -/
theorem step (h : Good topo c file s d) (hfile : file.length < 2 ^ 16)
    (hmeets : Undisturbed topo c event s) (hs : Echo.step topo c event s = some s') :
    ∃ d', Good topo c file s' d' := by
  have hsep := hmeets s' hs
  cases event with
  | stack event =>
    rw [Echo.step] at hs
    split_ifs at hs with hspares
    obtain ⟨stack, hstack, rfl⟩ := Option.map_eq_some_iff.mp hs
    exact h.onStack hfile hspares hsep hstack
  | client eintr =>
    obtain ⟨call, hcall, hs⟩ := Option.bind_eq_some_iff.mp hs
    obtain ⟨⟨stack, result⟩, hresult, rfl⟩ := Option.map_eq_some_iff.mp hs
    exact h.onClient hfile hcall hsep hresult
  | server eintr =>
    obtain ⟨call, hcall, hs⟩ := Option.bind_eq_some_iff.mp hs
    obtain ⟨⟨stack, result⟩, hresult, rfl⟩ := Option.map_eq_some_iff.mp hs
    exact h.onServer hfile hcall hsep hresult

end Good

/-! ### A whole session -/

/-- Both programs at their first call. -/
def start (stack : Mesh ι Upper) (file : List Byte) : State ι :=
  ⟨stack, Client.start file, Server.start, fun _ => 0⟩

/-- `connectLab` has been called. -/
theorem Good.start {before : List (Stack.Event ι)} {s₀ s₁ : Mesh ι Upper}
    (hbefore : Run.run (Stack.step topo) before (Stack.start topo) = some s₀)
    (hplanned : c.Planned (Stack.uppers s₀))
    (hunaccepted : c.fd .b ∉ (Stack.uppers s₀ (c.node .b)).process.returned.map Prod.snd)
    {addr : IPAddr} {port : Port}
    (hconnect : Stack.step topo (.call (c.node .a) (.connectLab (c.fd .a) addr port)) s₀ = some s₁)
    (hseparate : c.Separate (Stack.uppers s₁)) (file : List Byte) :
    Good topo c file (Echo.start s₁ file) (Duo.start 1 1) := by
  obtain ⟨haccounted, hordered⟩ := Stack.run_accounted hbefore
  have hbegun := Stack.Begun.start haccounted hordered (Stack.run_numbered hbefore) hplanned
    hconnect hseparate
  have hpeer : ∀ x, (Duo.start 1 1).peer x = Peer.start := fun x => by cases x <;> rfl
  have hwritten : ∀ x, written c s₁ x = [] := fun x => by
    have hsame := hbegun.joins.written x
    rwa [hpeer] at hsame
  have hreturned : ∀ x, returned c s₁ x = [] := fun x => by
    have hsame := hbegun.joins.returned x
    rwa [hpeer] at hsame
  refine ⟨hbegun, ?_, ?_, fun x hne => absurd rfl hne, fun x _ hsettled => ?_, fun hhanded => ?_,
    fun _ _ => ⟨Duo.open_start 1 1, Server.State.noConfusion, Server.State.noConfusion⟩⟩
  · rw [Echo.start, hwritten, hreturned]
    exact Client.Ok.start file
  · rw [Echo.start, hwritten, hreturned]
    exact Server.Ok.start
  · -- no `FIN` has been sent
    cases hsettled with
    | connected hend => exact hend
    | gone _ hfin =>
      rw [hpeer] at hfin
      cases hfin
  · obtain ⟨-, -, hother⟩ := ((haccounted.step hconnect).2).own
    have hsame : Stack.uppers s₁ (c.node .b) = Stack.uppers s₀ (c.node .b) := hother
    have hhanded : c.fd .b ∈ (Stack.uppers s₁ (c.node .b)).process.returned.map Prod.snd := hhanded
    rw [hsame] at hhanded
    exact absurd hhanded hunaccepted

/-- **Every line comes back as it was sent.** However the calls of the two programs fall among
everything else that the stack does, and whatever the links lose, repeat or reorder: `readline` has
returned each line to the client as `fgets` had read it, no line of the file has been left out, and
the client does not take the server for gone. What the server has read it has written, but for what
it is at, and the count that it prints is right. Once the client calls `close`, it has got the whole
file. -/
theorem run_echo {before : List (Stack.Event ι)} {s₀ s₁ : Mesh ι Upper} {events : List (Event ι)}
    (hbefore : Run.run (Stack.step topo) before (Stack.start topo) = some s₀)
    (hplanned : c.Planned (Stack.uppers s₀))
    (hunaccepted : c.fd .b ∉ (Stack.uppers s₀ (c.node .b)).process.returned.map Prod.snd)
    {addr : IPAddr} {port : Port}
    (hconnect : Stack.step topo (.call (c.node .a) (.connectLab (c.fd .a) addr port)) s₀ = some s₁)
    (hseparate : c.Separate (Stack.uppers s₁)) (hfile : file.length < 2 ^ 16)
    (hrun : Run.run (step topo c) events (start s₁ file) = some s)
    (hmeets : Run.Meets (step topo c) (Undisturbed topo c) events (start s₁ file)) :
    (∀ e ∈ s.client.log, e.recvline = e.line ∧ 0 < e.ret) ∧
      (s.client.log.map Client.Entry.line).flatten ++ s.client.current ++ s.client.file = file ∧
      s.client.state ≠ .exited ∧
      written c s.stack .b ++ s.server.held = returned c s.stack .b ∧
      s.server.acc + s.server.begun = (written c s.stack .b).length ∧
      (s.client.state = .closing ∨ s.client.state = .closed →
        (s.client.log.map Client.Entry.recvline).flatten = file) := by
  have hstart := Good.start hbefore hplanned hunaccepted hconnect hseparate file
  obtain ⟨d, hgood⟩ := Run.invariant_of_meets (p := fun s => ∃ d, Good topo c file s d)
    (fun event s s' hmeets ⟨d, h⟩ hs => h.step hfile hmeets hs) ⟨_, hstart⟩ hmeets hrun
  have hwhere := hgood.client.state
  rw [Client.Where] at hwhere
  refine ⟨hgood.client.log, hgood.client.file, fun hexited => ?_, hgood.server.echo,
    hgood.server.acc, fun hdone => ?_⟩
  · simp only [hexited] at hwhere
  · have hsame : s.client.log.map Client.Entry.recvline = s.client.log.map Client.Entry.line :=
      List.map_congr_left fun e he => (hgood.client.log e he).1
    have hfile := hgood.client.file
    rw [hsame, ← hfile, Client.current]
    rcases hdone with hstate | hstate
    all_goals
      simp only [hstate] at hwhere
      simp only [hstate, hwhere.1, List.append_nil]
      rfl

/-- A file of one line, from the client to the server and back, across the host in the middle. The
line is written before the server has the acknowledgement of its answer, and at the end both sockets
are freed. -/
def session : List (Event (Fin 3)) :=
  let arrive (n : ℕ) : List (Event (Fin 3)) := List.replicate n (.stack Stack.arrive)
  arrive 4 ++ [.client false, .stack (.call 0 (.tick 1))] ++ arrive 4 ++
    [.stack (.call 2 (.acceptLab 123456789)), .server false, .server false,
      .stack (.call 2 (.tick 1))] ++ arrive 6 ++
    [.client false, .client false, .client false, .client false, .stack (.call 0 (.tick 2))] ++
    arrive 4 ++ [.stack (.call 2 (.tick 2))] ++ arrive 4 ++
    [.client false, .client false, .server false, .server false, .server false, .server false]

/-- After the session. -/
def finished : State (Fin 3) :=
  (Run.run (step Mesh.lineTopology Stack.connection) session
    (start Stack.dialled [104, 105, newline])).get (by decide +kernel)

theorem run_echo_session :
    finished.client.state = .closed ∧ finished.server.state = .closed ∧
      finished.client.log.map Client.Entry.recvline = [[104, 105, newline]] ∧
      (∀ e ∈ finished.client.log, e.recvline = e.line ∧ 0 < e.ret) ∧
      (finished.client.log.map Client.Entry.line).flatten ++ finished.client.current ++
        finished.client.file = [104, 105, newline] ∧
      finished.client.state ≠ .exited ∧
      written Stack.connection finished.stack .b ++ finished.server.held =
        returned Stack.connection finished.stack .b ∧
      finished.server.acc + finished.server.begun =
        (written Stack.connection finished.stack .b).length ∧
      (finished.client.state = .closing ∨ finished.client.state = .closed →
        (finished.client.log.map Client.Entry.recvline).flatten = [104, 105, newline]) := by
  have hbefore : Run.run (Stack.step Mesh.lineTopology) Stack.preparing
      (Stack.start Mesh.lineTopology) = some Stack.prepared := (Option.some_get _).symm
  have hunaccepted : Stack.connection.fd .b ∉ (Stack.uppers Stack.prepared
      (Stack.connection.node .b)).process.returned.map Prod.snd := by decide
  have hconnect : Stack.step Mesh.lineTopology (.call (Stack.connection.node .a)
      (.connectLab (Stack.connection.fd .a) 4 80)) Stack.prepared = some Stack.dialled :=
    (Option.some_get _).symm
  have hseparate : Stack.connection.Separate (Stack.uppers Stack.dialled) := by decide
  have hrun : Run.run (step Mesh.lineTopology Stack.connection) session
      (start Stack.dialled [104, 105, newline]) = some finished := (Option.some_get _).symm
  have hmeets : Run.Meets (step Mesh.lineTopology Stack.connection)
      (Undisturbed Mesh.lineTopology Stack.connection) session
      (start Stack.dialled [104, 105, newline]) := by decide +kernel
  have hclosed : finished.client.state = .closed ∧ finished.server.state = .closed := by
    decide +kernel
  have hlog : finished.client.log.map Client.Entry.recvline = [[104, 105, newline]] := by
    decide +kernel
  exact ⟨hclosed.1, hclosed.2, hlog, run_echo hbefore Stack.planned_prepared hunaccepted hconnect
    hseparate (by decide) hrun hmeets⟩

end Echo

end LabNetstack
