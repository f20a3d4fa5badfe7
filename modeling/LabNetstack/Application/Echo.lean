import LabNetstack.Application.Unp

/-!
# The echo client and the echo server

`echo_client.c` and `echo_server.c`, each from the point where it has a connected socket: `str_cli`
and then `close`, and `str_echo` with the `close` at its end. A program is what it has while it is
in a call, the call that it is in, and what it makes of the answer.

What each of them has done can be told from what it has written and read. The server has written
what it has read, but for the bytes that it still has in its buffer. The client has written some
lines, and has read them all again, but for the one that it is at.

## Main results

* `Client.Ok.wrote`, `Client.Ok.read` — the client, call by call, as long as what it reads is what it
  has written
* `Server.Ok.wrote`, `Server.Ok.read` — the server, call by call
-/

namespace LabNetstack

inductive Syscall
  | read (nbyte : ℕ)
  | write (buf : List Byte)
  | close

/-! ### The client -/

namespace Client

/-- A line that `str_cli` has sent, and what `readline` has returned for it and stored. -/
structure Entry where
  line : List Byte
  ret : ℤ
  recvline : List Byte

inductive State
  /-- In `writen`, with so many bytes left. -/
  | writing (nleft : ℕ)
  /-- In `readline`, with these bytes stored. -/
  | reading (stored : List Byte)
  /-- At the call of `close`. -/
  | closing
  | closed
  /-- After `exit(1)`. -/
  | exited
deriving DecidableEq

end Client

structure Client where
  /-- What is left of the file. -/
  file : List Byte
  sendline : List Byte
  log : List Client.Entry
  state : Client.State

namespace Client

/-- The head of the loop of `str_cli`. -/
def next (client : Client) : Client :=
  match fgets MAXLINE client.file with
  | none => { client with state := .closing }
  | some (sendline, file) => { client with
      file := file
      sendline := sendline
      state := if 0 < strlen sendline then .writing (strlen sendline) else .reading [] }

def start (file : List Byte) : Client := next ⟨file, [], [], .closing⟩

/-- The call that the client is in. The pointer of `writen` must not be before the buffer. -/
def call (client : Client) : Option Syscall :=
  match client.state with
  | .writing nleft =>
    if nleft ≤ strlen client.sendline then
      some (.write ((client.sendline.drop (strlen client.sendline - nleft)).take nleft))
    else none
  | .reading _ => some (.read 1)
  | .closing => some .close
  | .closed => none
  | .exited => none

/-- What `writen` returns is not looked at, and of what `readline` returns only that it is not 0. -/
def resume (client : Client) (answer : Answer) : Client :=
  match client.state with
  | .writing nleft =>
    match writenTurn (strlen client.sendline) nleft answer with
    | .inl nleft => { client with state := .writing nleft }
    | .inr _ => { client with state := .reading [] }
  | .reading stored =>
    match readlineTurn MAXLINE stored answer with
    | .inl stored => { client with state := .reading stored }
    | .inr (ret, recvline) =>
      let client := { client with log := client.log ++ [⟨client.sendline, ret, recvline⟩] }
      if ret = 0 then { client with state := .exited } else next client
  | .closing => { client with state := .closed }
  | .closed => client
  | .exited => client

/-- The lines that have come back, one after the other. -/
def sent (client : Client) : List Byte := (client.log.map Entry.line).flatten

/-- The line that the client is at. -/
def current (client : Client) : List Byte :=
  match client.state with
  | .writing _ => client.sendline
  | .reading _ => client.sendline
  | _ => []

/-- What `str_cli` sends of a line. -/
def string (client : Client) : List Byte := client.sendline.take (strlen client.sendline)

/-- What the bytes written and read say of where the client is. -/
def Where (client : Client) (written returned : List Byte) : Prop :=
  match client.state with
  | .writing nleft => IsLine client.sendline ∧ 0 < nleft ∧ nleft ≤ strlen client.sendline ∧
      written = client.sent ++ client.sendline.take (strlen client.sendline - nleft) ∧
      returned = client.sent
  | .reading stored => IsLine client.sendline ∧ stored.length + 1 < MAXLINE ∧
      written = client.sent ++ client.string ∧ returned = client.sent ++ stored
  | .closing | .closed => client.file = [] ∧ written = client.sent ∧ returned = client.sent
  | .exited => False

/-- Every line has come back as it was, and nothing of the file has been left out. -/
structure Ok (file : List Byte) (client : Client) (written returned : List Byte) : Prop where
  log : ∀ e ∈ client.log, e.recvline = e.line ∧ 0 < e.ret
  file : client.sent ++ client.current ++ client.file = file
  state : client.Where written returned

namespace Ok

variable {file written returned : List Byte} {client : Client} {answer : Answer} {nleft : ℕ}
  {stored : List Byte}

/-- Between two lines. -/
theorem next (hlog : ∀ e ∈ client.log, e.recvline = e.line ∧ 0 < e.ret)
    (hfile : client.sent ++ client.file = file) :
    client.next.Ok file client.sent client.sent := by
  rw [Client.next]
  cases hgets : fgets MAXLINE client.file with
  | none =>
    have hend : client.file = [] := by
      rw [fgets] at hgets
      split_ifs at hgets with hend
      exact hend
    exact ⟨hlog, by rw [← hfile]; exact congrArg (· ++ client.file) (List.append_nil _),
      hend, rfl, rfl⟩
  | some got =>
    obtain ⟨line, rest⟩ := got
    obtain ⟨hline, hrest⟩ := fgets_isLine hgets
    by_cases hpos : 0 < strlen line
    · simp only [if_pos hpos]
      refine ⟨hlog, ?_, hline, hpos, le_rfl, ?_, rfl⟩
      · rw [← hfile, ← hrest, ← List.append_assoc]
        rfl
      · rw [Nat.sub_self, List.take_zero, List.append_nil]
        rfl
    · simp only [if_neg hpos]
      have hzero : strlen line = 0 := Nat.eq_zero_of_not_pos hpos
      refine ⟨hlog, ?_, hline, by decide, ?_, (List.append_nil _).symm⟩
      · rw [← hfile, ← hrest, ← List.append_assoc]
        rfl
      · rw [string, hzero, List.take_zero, List.append_nil]
        rfl

theorem start (file : List Byte) : (Client.start file).Ok file [] [] :=
  next (fun _ he => absurd he List.not_mem_nil) rfl

/-- The three calls that the client can be in. -/
theorem call_cases (h : client.Ok file written returned) {call : Syscall}
    (hcall : client.call = some call) :
    (∃ nleft buf, client.state = .writing nleft ∧ call = .write buf ∧ buf.length = nleft) ∨
      (∃ stored, client.state = .reading stored ∧ call = .read 1) ∨
      client.state = .closing ∧ call = .close := by
  have hwhere := h.state
  rw [Where] at hwhere
  rw [Client.call] at hcall
  have hlen := strlen_le client.sendline
  cases hstate : client.state with
  | writing nleft =>
    simp only [hstate] at hwhere hcall
    rw [if_pos hwhere.2.2.1] at hcall
    refine Or.inl ⟨nleft, _, rfl, (Option.some.inj hcall).symm, ?_⟩
    rw [List.length_take, List.length_drop]
    omega
  | reading stored =>
    simp only [hstate] at hcall
    exact Or.inr (Or.inl ⟨stored, rfl, (Option.some.inj hcall).symm⟩)
  | closing =>
    simp only [hstate] at hcall
    exact Or.inr (Or.inr ⟨rfl, (Option.some.inj hcall).symm⟩)
  | closed =>
    simp only [hstate] at hcall
    cases hcall
  | exited =>
    simp only [hstate] at hcall
    cases hcall

/-- **A call of `write` returns.** -/
theorem wrote (h : client.Ok file written returned) (hstate : client.state = .writing nleft) {n : ℕ}
    (hpos : 0 < n) (hn : n ≤ nleft) (hret : answer.ret = n) {buf : List Byte}
    (hbuf : client.call = some (.write buf)) :
    (client.resume answer).Ok file (written ++ buf.take n) returned := by
  have hwhere := h.state
  rw [Where, hstate] at hwhere
  obtain ⟨hline, -, hle, hwritten, hreturned⟩ := hwhere
  have hcurrent : client.current = client.sendline := by rw [current, hstate]
  have hlen := strlen_le client.sendline
  rw [call, hstate] at hbuf
  obtain rfl : _ = buf := Syscall.write.inj (Option.some.inj ((if_pos hle).symm.trans hbuf))
  have hnext :
      written ++ ((client.sendline.drop (strlen client.sendline - nleft)).take nleft).take n =
        client.sent ++ client.sendline.take (strlen client.sendline - (nleft - n)) := by
    rw [hwritten, List.append_assoc, List.take_take, Nat.min_eq_left hn, ← List.take_add]
    congr 2
    omega
  have hturn : ¬ (answer.ret = 0 ∨ answer.ret < 0 ∧ answer.eintr = false) := by omega
  have hleft : (nleft - answer.ret : ℤ).toNat = nleft - n := by omega
  rw [hnext, resume, hstate]
  simp only [writenTurn, if_neg hturn, hleft]
  by_cases hmore : 0 < nleft - n
  · rw [if_pos hmore]
    exact ⟨h.log, hcurrent ▸ h.file, hline, hmore, (Nat.sub_le ..).trans hle, rfl, hreturned⟩
  · rw [if_neg hmore]
    refine ⟨h.log, hcurrent ▸ h.file, hline, by decide, ?_, ?_⟩
    · rw [Nat.eq_zero_of_not_pos hmore, Nat.sub_zero]
      rfl
    · rw [hreturned]
      exact (List.append_nil _).symm

/-- **A call of `read` returns** a byte, which has been written before. -/
theorem read (h : client.Ok file written returned) (hstate : client.state = .reading stored)
    {c : Byte} (hret : answer.ret = 1) (hbytes : answer.bytes = [c])
    (hecho : returned ++ [c] <+: written) :
    (client.resume answer).Ok file written (returned ++ [c]) := by
  have hwhere := h.state
  rw [Where, hstate] at hwhere
  obtain ⟨hline, -, hwritten, hreturned⟩ := hwhere
  have hcurrent : client.current = client.sendline := by rw [current, hstate]
  have hstring : stored ++ [c] <+: client.string := by
    rwa [hwritten, hreturned, List.append_assoc, List.prefix_append_right_inj] at hecho
  have hread : stored ++ [c] <+: client.sendline := hstring.trans (List.take_prefix ..)
  rw [resume, hstate]
  rcases readlineTurn_line hline hread hret hbytes with
    ⟨hturn, hroom⟩ | ⟨hall, ret, hpos, hturn⟩
  · simp only [hturn]
    refine ⟨h.log, hcurrent ▸ h.file, hline, hroom, hwritten, ?_⟩
    rw [hreturned, List.append_assoc]
    rfl
  · -- the line is complete
    simp only [hturn, if_neg hpos.ne']
    have hsendline : client.string = client.sendline := by
      rw [hall] at hstring
      exact (List.take_prefix ..).eq_of_length_le hstring.length_le
    have hnext := @next file { client with
        log := client.log ++ [⟨client.sendline, ret, client.sendline⟩] } ?_ ?_
    · rw [hwritten, hreturned, List.append_assoc, hall, hsendline]
      simpa [sent, hstate] using hnext
    · intro e he
      rcases List.mem_append.mp he with hold | hnew
      · exact h.log e hold
      · obtain rfl := List.mem_singleton.mp hnew
        exact ⟨rfl, hpos⟩
    · have hfile := h.file
      rw [hcurrent] at hfile
      simpa [sent] using hfile

/-- **`close` is called**, and that is all. -/
theorem close (h : client.Ok file written returned) (hstate : client.state = .closing) :
    (client.resume answer).Ok file written returned := by
  have hwhere := h.state
  rw [Where, hstate] at hwhere
  have hfile := h.file
  rw [current, hstate] at hfile
  rw [resume, hstate]
  exact ⟨h.log, hfile, hwhere⟩

/-- Nothing more is written than is in the file. -/
theorem length_written_le (h : client.Ok file written returned) :
    written.length ≤ file.length := by
  have hwhere := h.state
  have hfile := congrArg List.length h.file
  rw [Where] at hwhere
  rw [current] at hfile
  simp only [List.length_append] at hfile
  cases hstate : client.state with
  | writing nleft =>
    simp only [hstate] at hwhere hfile
    rw [hwhere.2.2.2.1, List.length_append, List.length_take]
    omega
  | reading stored =>
    simp only [hstate] at hwhere hfile
    rw [hwhere.2.2.1, List.length_append, string, List.length_take]
    omega
  | closing | closed =>
    simp only [hstate] at hwhere hfile
    rw [hwhere.2.1]
    omega
  | exited =>
    simp only [hstate] at hwhere

end Ok

end Client

/-! ### The server -/

namespace Server

inductive State
  /-- In `read`. -/
  | reading
  /-- In `writen`, with this buffer and so many bytes of it left. -/
  | writing (buf : List Byte) (nleft : ℕ)
  /-- At the call of `close`. -/
  | closing
  | closed
deriving DecidableEq

end Server

structure Server where
  /-- The count that `str_echo` prints. -/
  acc : ℕ
  state : Server.State

namespace Server

def start : Server := ⟨0, .reading⟩

/-- The call that the server is in. -/
def call (server : Server) : Option Syscall :=
  match server.state with
  | .reading => some (.read MAXLINE)
  | .writing buf nleft =>
    if nleft ≤ buf.length then some (.write (buf.drop (buf.length - nleft))) else none
  | .closing => some .close
  | .closed => none

/-- What `writen` returns is not looked at. -/
def resume (server : Server) (answer : Answer) : Server :=
  match server.state with
  | .reading =>
    if 0 < answer.ret then { server with state := .writing answer.bytes answer.bytes.length }
    else if answer.ret < 0 ∧ answer.eintr then server
    else { server with state := .closing }
  | .writing buf nleft =>
    match writenTurn buf.length nleft answer with
    | .inl nleft => { server with state := .writing buf nleft }
    | .inr _ => { acc := server.acc + buf.length, state := .reading }
  | .closing => { server with state := .closed }
  | .closed => server

/-- Whatever `writen` returns, the server goes on. -/
theorem resume_writing {server : Server} {answer : Answer} {buf : List Byte} {nleft : ℕ}
    (hstate : server.state = .writing buf nleft) :
    (server.resume answer).state ≠ .closing ∧ (server.resume answer).state ≠ .closed := by
  rw [resume, hstate]
  dsimp only
  split <;> exact ⟨State.noConfusion, State.noConfusion⟩

/-- So it does as long as `read` returns something. -/
theorem resume_reading {server : Server} {answer : Answer} (hstate : server.state = .reading)
    (hpos : 0 < answer.ret) :
    (server.resume answer).state ≠ .closing ∧ (server.resume answer).state ≠ .closed := by
  rw [resume, hstate]
  simp only [if_pos hpos]
  exact ⟨State.noConfusion, State.noConfusion⟩

/-- What the server has read and not written yet. -/
def held (server : Server) : List Byte :=
  match server.state with
  | .writing buf nleft => buf.drop (buf.length - nleft)
  | _ => []

/-- The part of the buffer that is written already. -/
def begun (server : Server) : ℕ :=
  match server.state with
  | .writing buf nleft => buf.length - nleft
  | _ => 0

/-- What has been read has been written, or is still held, and the count is right. -/
structure Ok (server : Server) (written returned : List Byte) : Prop where
  echo : written ++ server.held = returned
  acc : server.acc + server.begun = written.length
  left : ∀ buf nleft, server.state = .writing buf nleft → 0 < nleft ∧ nleft ≤ buf.length

namespace Ok

variable {written returned buf : List Byte} {server : Server} {answer : Answer} {nleft : ℕ}

theorem start : Server.start.Ok [] [] :=
  ⟨rfl, rfl, fun _ _ h => nomatch h⟩

/-- The three calls that the server can be in. What it writes is what it holds. -/
theorem call_cases (h : server.Ok written returned) {call : Syscall}
    (hcall : server.call = some call) :
    (∃ buf nleft, server.state = .writing buf nleft ∧ call = .write server.held ∧
        server.held.length = nleft ∧ 0 < nleft) ∨
      (server.state = .reading ∧ call = .read MAXLINE) ∨
      server.state = .closing ∧ call = .close := by
  rw [Server.call] at hcall
  cases hstate : server.state with
  | writing buf nleft =>
    obtain ⟨hpos, hle⟩ := h.left buf nleft hstate
    have hheld : server.held = buf.drop (buf.length - nleft) := by rw [held, hstate]
    simp only [hstate, if_pos hle] at hcall
    refine Or.inl ⟨buf, nleft, rfl, hheld ▸ (Option.some.inj hcall).symm, ?_, hpos⟩
    rw [hheld, List.length_drop]
    omega
  | reading =>
    simp only [hstate] at hcall
    exact Or.inr (Or.inl ⟨rfl, (Option.some.inj hcall).symm⟩)
  | closing =>
    simp only [hstate] at hcall
    exact Or.inr (Or.inr ⟨rfl, (Option.some.inj hcall).symm⟩)
  | closed =>
    simp only [hstate] at hcall
    cases hcall

/-- **A call of `read` returns.** -/
theorem read (h : server.Ok written returned) (hstate : server.state = .reading)
    (hret : answer.ret = answer.bytes.length) :
    (server.resume answer).Ok written (returned ++ answer.bytes) := by
  have hecho := h.echo
  have hacc := h.acc
  rw [held, hstate, List.append_nil] at hecho
  rw [begun, hstate, Nat.add_zero] at hacc
  rw [resume, hstate]
  by_cases hpos : 0 < answer.ret
  · simp only [if_pos hpos]
    refine ⟨?_, ?_, fun buf nleft heq => ?_⟩
    · show written ++ answer.bytes.drop (answer.bytes.length - answer.bytes.length) = _
      rw [hecho, Nat.sub_self, List.drop_zero]
    · show server.acc + (answer.bytes.length - answer.bytes.length) = _
      rw [Nat.sub_self, Nat.add_zero, hacc]
    · obtain ⟨rfl, rfl⟩ := State.writing.inj heq
      exact ⟨by omega, le_rfl⟩
  · have hneg : ¬ (answer.ret < 0 ∧ answer.eintr) := by omega
    have hnil : answer.bytes = [] := List.eq_nil_of_length_eq_zero (by omega)
    simp only [if_neg hpos, if_neg hneg, hnil, List.append_nil]
    exact ⟨(List.append_nil _).trans hecho, hacc, fun _ _ heq => nomatch heq⟩

/-- **A call of `write` returns.** -/
theorem wrote (h : server.Ok written returned) (hstate : server.state = .writing buf nleft) {n : ℕ}
    (hpos : 0 < n) (hn : n ≤ nleft) (hret : answer.ret = n) :
    (server.resume answer).Ok (written ++ server.held.take n) returned := by
  obtain ⟨hleft, hle⟩ := h.left buf nleft hstate
  have hheld : server.held = buf.drop (buf.length - nleft) := by rw [held, hstate]
  have hbegun : server.begun = buf.length - nleft := by rw [begun, hstate]
  have hecho := h.echo
  have hacc := h.acc
  rw [hheld] at hecho ⊢
  rw [hbegun] at hacc
  have hturn : ¬ (answer.ret = 0 ∨ answer.ret < 0 ∧ answer.eintr = false) := by omega
  have hrest : (nleft - answer.ret : ℤ).toNat = nleft - n := by omega
  have hsplit : (buf.drop (buf.length - nleft)).take n ++ buf.drop (buf.length - (nleft - n)) =
      buf.drop (buf.length - nleft) := by
    have hsum : buf.length - (nleft - n) = buf.length - nleft + n := by omega
    rw [hsum, ← List.drop_drop, List.take_append_drop]
  have hcount : (written ++ (buf.drop (buf.length - nleft)).take n).length =
      server.acc + (buf.length - (nleft - n)) := by
    rw [List.length_append, List.length_take, List.length_drop]
    omega
  rw [resume, hstate]
  simp only [writenTurn, if_neg hturn, hrest]
  by_cases hmore : 0 < nleft - n
  · rw [if_pos hmore]
    refine ⟨?_, hcount.symm, fun buf' nleft' heq => ?_⟩
    · show written ++ _ ++ buf.drop (buf.length - (nleft - n)) = returned
      rw [List.append_assoc, hsplit, hecho]
    · obtain ⟨rfl, rfl⟩ := State.writing.inj heq
      exact ⟨hmore, (Nat.sub_le ..).trans hle⟩
  · rw [if_neg hmore]
    have hzero : nleft - n = 0 := Nat.eq_zero_of_not_pos hmore
    rw [hzero, Nat.sub_zero] at hsplit hcount
    rw [List.drop_length, List.append_nil] at hsplit
    refine ⟨?_, hcount.symm, fun _ _ heq => nomatch heq⟩
    rw [hsplit, hecho]
    exact List.append_nil _

theorem close (h : server.Ok written returned) (hstate : server.state = .closing) :
    (server.resume answer).Ok written returned := by
  have hecho := h.echo
  have hacc := h.acc
  rw [held, hstate] at hecho
  rw [begun, hstate] at hacc
  rw [resume, hstate]
  exact ⟨hecho, hacc, fun _ _ heq => nomatch heq⟩

end Ok

end Server

end LabNetstack
