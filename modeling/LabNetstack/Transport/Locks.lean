import LabNetstack.Lib.Mutex
import LabNetstack.Transport.SocketList

/-!
# The locks of the socket list

The mutex of the socket list, and the mutexes of the sockets, as every function of both threads
locks and unlocks them. What `findSocket`, `matchSocket` and `allocSocket` do with the mutexes of
the sockets depends on the list they find: `findSocket` and `matchSocket` walk over it and keep the
mutex of the socket they stop at. Which list that is, and what the other threads have made of its
sockets, is left open: it may be any.

Everything here unlocks a socket before it locks the list, with two exceptions. `TCPHandleListen`
calls `allocSocket` while `handleTCPMain` keeps the listener; and `connectLab` returns with the
mutex of its socket when it refuses its arguments. `mutex2`, on which `connectLab` waits with no
other mutex, and the mutex of `getPort` are left out.

## Main results

* `Locks.no_cyclicWait` — when no thread that holds a socket waits for one that holds the list
* `Locks.hangs_iff` — what leads to a list that is never unlocked again
-/

namespace LabNetstack

namespace Locks

open Mutex

/-- The outer mutex is that of the list, the inner ones are those of the sockets. -/
abbrev Op := Mutex.Op ℤ SocketList

inductive Thread
  | loop
  | app (i : ℕ)
deriving DecidableEq

/-- A call of the application, with what decides its way: whether its arguments are accepted, how
often `acceptLab` scans the list, and whether `readLab` and `writeLab` come to their copy. -/
inductive Api
  | socketLab (valid : Bool)
  | bindLab (fd : ℤ) (valid : Bool)
  | listenLab (fd : ℤ)
  | acceptLab (fd : ℤ) (scans : ℕ)
  | connectLab (fd : ℤ) (valid : Bool)
  | readLab (fd : ℤ) (copies : Bool)
  | writeLab (fd : ℤ) (copies : Bool)
  | closeLab (fd : ℤ)

inductive Call
  | handleTCPMain (packet : TCPPacket)
  | asyncSendTCPPacket
  | api (i : ℕ) (call : Api)

/-- The loop thread is one thread; the application may have many. -/
def Call.thread : Call → Thread
  | .handleTCPMain _ | .asyncSendTCPPacket => .loop
  | .api i _ => .app i

/-! ### The functions -/

/-- A walk over the list: it passes some sockets, and keeps the one it stops at. -/
def walk (passed : List Socket) (stop : Option Socket) (found : Socket → List Op) : List Op :=
  (passed.flatMap fun it => [.lock it.fd, .unlock it.fd]) ++
    match stop with
    | some res => [.lock res.fd, .unlockOuter] ++ found res
    | none => [.unlockOuter]

/-- `findSocket`, and what its caller does with the socket. -/
def findSocket (fd : ℤ) (found : Socket → List Op) : List Op :=
  [.lockOuter fun list =>
    walk (list.sockets.takeWhile fun it => it.fd ≠ fd) (list.findSocket fd) found]

/-- `allocSocket`, and what its caller does with the new socket, which it holds. -/
def allocSocket (new : ℤ → List Op) : List Op :=
  [.lockOuter fun list => [.lock list.nextFd, .unlockOuter] ++ new list.nextFd]

/-- `freeSocket`, whose walk locks no socket. -/
def freeSocket (fd : ℤ) : List Op :=
  [.lockOuter fun list => [.unlockOuter] ++
    if fd ∈ list.sockets.map Socket.fd then [.lock fd, .unlock fd] else []]

/-- `matchSocket`, and what its caller does with the match. The second loop begins again. -/
def matchSocket (packet : TCPPacket) (found : Socket → List Op) : List Op :=
  [.lockOuter fun list =>
    let first (it : Socket) : Bool := packet.tcpHeader.desport = it.srcport ∧
      packet.dst = it.srcaddr ∧ packet.tcpHeader.srcport = it.desport ∧ packet.src = it.desaddr
    let second (it : Socket) : Bool := packet.tcpHeader.desport = it.srcport ∧ it.state = .listen
    let again := if list.sockets.any first then [] else list.sockets.takeWhile fun it => !second it
    walk ((list.sockets.takeWhile fun it => !first it) ++ again) (list.matchSocket packet) found]

/-- `TCPHandleListen`. The other handlers lock nothing. -/
def TCPHandleListen (packet : TCPPacket) : List Op :=
  if packet.IsSyn then allocSocket fun fd => [.unlock fd] else []

def handleTCPMain (packet : TCPPacket) : List Op :=
  matchSocket packet fun it =>
    (if it.state = .listen then TCPHandleListen packet else []) ++ [.unlock it.fd]

def asyncSendTCPPacket : List Op :=
  [.lockOuter fun list => walk list.sockets none fun _ => []]

def socketLab (valid : Bool) : List Op :=
  if valid then allocSocket fun fd => [.unlock fd] else []

def bindLab (fd : ℤ) (valid : Bool) : List Op :=
  if valid then findSocket fd fun socket => [.unlock socket.fd] else []

def listenLab (fd : ℤ) : List Op := findSocket fd fun socket => [.unlock socket.fd]

def acceptLab (fd : ℤ) (scans : ℕ) : List Op :=
  findSocket fd fun socket =>
    .unlock socket.fd :: List.replicate scans (.lockOuter fun _ => [.unlockOuter])

/-- `connectLab` looks at its arguments when it has found the socket. -/
def connectLab (fd : ℤ) (valid : Bool) : List Op :=
  findSocket fd fun socket => if valid then [.unlock socket.fd] else []

/-- `readLab` and `writeLab`: the socket is locked again for the copy. -/
def copyLab (fd : ℤ) (copies : Bool) : List Op :=
  findSocket fd fun socket =>
    .unlock socket.fd :: if copies then [.lock socket.fd, .unlock socket.fd] else []

def readLab (fd : ℤ) (copies : Bool) : List Op := copyLab fd copies

def writeLab (fd : ℤ) (copies : Bool) : List Op := copyLab fd copies

def closeLab (fd : ℤ) : List Op :=
  findSocket fd fun socket => .unlock socket.fd :: freeSocket socket.fd

def Api.prog : Api → List Op
  | .socketLab valid => Locks.socketLab valid
  | .bindLab fd valid => Locks.bindLab fd valid
  | .listenLab fd => Locks.listenLab fd
  | .acceptLab fd scans => Locks.acceptLab fd scans
  | .connectLab fd valid => Locks.connectLab fd valid
  | .readLab fd copies => Locks.readLab fd copies
  | .writeLab fd copies => Locks.writeLab fd copies
  | .closeLab fd => Locks.closeLab fd

def Call.prog : Call → List Op
  | .handleTCPMain packet => Locks.handleTCPMain packet
  | .asyncSendTCPPacket => Locks.asyncSendTCPPacket
  | .api _ call => call.prog

/-! ### Discipline -/

variable {rest : List Op} {found : Socket → List Op}

theorem tidy_walk (passed : List Socket) (stop : Option Socket) (hrest : Tidy false rest)
    (hfound : ∀ k, Tidy false (found k ++ rest)) : Tidy true (walk passed stop found ++ rest) := by
  have hstop : Tidy true ((match stop with
      | some res => [.lock res.fd, .unlockOuter] ++ found res
      | none => [.unlockOuter]) ++ rest) := by
    cases stop with
    | none => exact .unlockOuter hrest
    | some res => exact .lockWith (.unlockOuter (hfound res))
  simp only [walk, List.append_assoc]
  induction passed with
  | nil => exact hstop
  | cons it passed ih => exact .lockWith (.unlock ih)

theorem tidy_findSocket (fd : ℤ) (hrest : Tidy false rest)
    (hfound : ∀ k, Tidy false (found k ++ rest)) : Tidy false (findSocket fd found ++ rest) :=
  .lockOuter fun _ => tidy_walk _ _ hrest hfound

theorem tidy_allocSocket (hrest : Tidy false rest) :
    Tidy false ((allocSocket fun fd => [.unlock fd]) ++ rest) :=
  .lockOuter fun _ => .lockWith (.unlockOuter (.unlock hrest))

theorem tidy_freeSocket (fd : ℤ) : Tidy false (freeSocket fd) := by
  refine .lockOuter fun list => ?_
  split_ifs
  · exact .unlockOuter (.lockWithout (.unlock .nil) fun hneeds => hneeds.1 rfl)
  · exact .unlockOuter .nil

theorem tidy_handleTCPMain (packet : TCPPacket) : Tidy false (handleTCPMain packet) := by
  refine .lockOuter fun list => tidy_walk _ _ .nil fun it => ?_
  rw [List.append_assoc, TCPHandleListen]
  have hunlock : Tidy false ([.unlock it.fd] ++ [] : List Op) := .unlock .nil
  split_ifs
  · exact tidy_allocSocket hunlock
  · exact hunlock
  · exact hunlock

theorem tidy_acceptLab (fd : ℤ) (scans : ℕ) : Tidy false (acceptLab fd scans) := by
  rw [← List.append_nil (acceptLab fd scans)]
  refine tidy_findSocket fd .nil fun socket => ?_
  rw [List.append_nil]
  refine .unlock ?_
  induction scans with
  | zero => exact .nil
  | succ scans ih => exact .lockOuter fun _ => .unlockOuter ih

theorem tidy_copyLab (fd : ℤ) (copies : Bool) : Tidy false (copyLab fd copies) := by
  rw [← List.append_nil (copyLab fd copies)]
  refine tidy_findSocket fd .nil fun socket => .unlock ?_
  cases copies with
  | false => exact .nil
  | true => exact .lockWithout (.unlock .nil) fun hneeds => hneeds.1 rfl

theorem tidy_closeLab (fd : ℤ) : Tidy false (closeLab fd) := by
  rw [← List.append_nil (closeLab fd)]
  refine tidy_findSocket fd .nil fun socket => ?_
  rw [List.append_nil]
  refine .unlock ?_
  exact tidy_freeSocket socket.fd

/-- **Every call is disciplined.** -/
theorem tidy_prog (call : Call) : Tidy false call.prog := by
  have hfind : ∀ fd, Tidy false (findSocket fd fun socket => [.unlock socket.fd]) := by
    intro fd
    rw [← List.append_nil (findSocket fd _)]
    exact tidy_findSocket fd .nil fun socket => .unlock .nil
  cases call with
  | handleTCPMain packet => exact tidy_handleTCPMain packet
  | asyncSendTCPPacket => exact .lockOuter fun list => tidy_walk _ _ .nil fun _ => .nil
  | api i call =>
    cases call with
    | socketLab valid =>
      cases valid with
      | false => exact .nil
      | true => exact @tidy_allocSocket [] .nil
    | bindLab fd valid =>
      cases valid with
      | false => exact .nil
      | true => exact hfind fd
    | listenLab fd => exact hfind fd
    | acceptLab fd scans => exact tidy_acceptLab fd scans
    | connectLab fd valid =>
      show Tidy false (connectLab fd valid)
      rw [← List.append_nil (connectLab fd valid)]
      refine tidy_findSocket fd .nil fun socket => ?_
      cases valid with
      | false => exact .nil
      | true => exact .unlock .nil
    | readLab fd copies | writeLab fd copies => exact tidy_copyLab fd copies
    | closeLab fd => exact tidy_closeLab fd

/-! ### All threads -/

abbrev Action := Mutex.Action Call Thread SocketList

def step : Action → State Thread ℤ SocketList → Option (State Thread ℤ SocketList) :=
  Mutex.step Call.thread Call.prog

/-- The condition on a step, for these calls. -/
def Clear : Action → State Thread ℤ SocketList → Prop := Mutex.Clear Call.thread Call.prog

instance (act : Action) (s : State Thread ℤ SocketList) : Decidable (Clear act s) :=
  Mutex.decidableClear Call.thread Call.prog act s

variable {acts : List Action} {s : State Thread ℤ SocketList}

/-- **The list and its sockets.** No thread that holds a socket's mutex and waits for that of the
list is waited for by the one that holds it, in a run whose steps are clear: the list is not locked
for a walk to a socket whose owner has to lock the list first, and a thread that `connectLab` has
left with a socket does not begin a call while such a walk is on its way. -/
theorem no_cyclicWait (hclear : Run.Meets step Clear acts start)
    (hrun : Run.run step acts start = some s) : ¬ CyclicWait s :=
  Mutex.not_cyclicWait tidy_prog hclear hrun

/-- A listener on port 80. -/
def listener : Socket :=
  { LabNetstack.allocSocket 5 (fun _ => 0) (fun _ => 0) with srcport := 80, state := .listen }

/-- A connection of the listener. -/
def connected : Socket :=
  { LabNetstack.allocSocket 6 (fun _ => 0) (fun _ => 0) with
    srcport := 80, desport := 5, srcaddr := 1, desaddr := 2, state := .establisted }

/-- A segment of the connection is handled, and the loop thread holds the socket when a thread of
the application reads from it: that locks the list and waits for the socket. -/
def dataWhileReading : List Action :=
  .call (.handleTCPMain ⟨2, 1, createTCPHeader 5 80 0 0 0 0xffff, [7]⟩) ::
    List.replicate 5 (.next .loop ⟨[listener, connected], 7⟩) ++
    .call (.api 0 (.readLab 6 true)) ::
    List.replicate 3 (.next (.app 0) ⟨[listener, connected], 7⟩)

theorem no_cyclicWait_reading :
    let s := (Run.run step dataWhileReading start).get (by decide)
    s.inner 6 = some .loop ∧ s.outer = some (.app 0) ∧ ¬ CyclicWait s :=
  ⟨by decide, by decide, no_cyclicWait (by decide) (Option.some_get _).symm⟩

/-- A `SYN` for port 80 is handled up to `allocSocket`, and another thread looks for a socket. -/
def synWhileReading : List Action :=
  .call (.handleTCPMain ⟨2, 1, createTCPHeader 5 80 (-1) 0 ctSyn 0xffff, []⟩) ::
    List.replicate 5 (.next .loop ⟨[listener], 6⟩) ++
    [.call (.api 0 (.readLab 5 true)), .next (.app 0) ⟨[listener], 6⟩]

/-- The loop thread and a thread of the application can wait for each other. -/
theorem exists_cyclicWait : ¬ ∀ (acts : List Action) (s : State Thread ℤ SocketList),
    Run.run step acts start = some s → ¬ CyclicWait s := by
  intro hclaim
  let s := (Run.run step synWhileReading start).get (by decide)
  refine hclaim synWhileReading s (Option.some_get _).symm ?_
  exact ⟨.loop, .app 0, 5, by decide, ⟨_, _, rfl⟩, by decide, _, rfl⟩

/-- The first step that is not clear leaves a list that is never unlocked again. -/
theorem hangs_iff (hrun : Run.run step acts start = some s) :
    (∀ before after t, acts = before ++ after → Run.run step before start = some t → ¬ Hangs t) ↔
      Run.Meets step Clear acts start :=
  Mutex.hangs_iff tidy_prog hrun

end Locks

end LabNetstack
