import LabNetstack.Transport.Closing
import LabNetstack.Transport.Connecting

/-!
# Dead ends, read off the sockets

The dead ends of the closing handshake as conditions on the sockets and the segments in flight:
the flags in `clstate`, the 16-bit pointers of the rings, and the bits and numbers of the TCP
headers. An end that has been given back is done: it had all its flags, and is closed.

## Main results

* `Net.View.stuck_iff` — an end is in a dead end exactly when the connection is that it stands for
-/

namespace LabNetstack

open WrapCounter StopAndWait

namespace Net

variable (c : Config) (n : Net) (x : Side)

/-- The socket of an end; there is none before the `SYN` arrives, and once it is given back. -/
def socket : Option Socket := (n.host x).findSocket (c.identity x).fd

/-- A flag of an end; one that has been given back had them all. -/
def Flag (flag : CLOSEState) : Prop := ∀ k ∈ n.socket c x, k.hasFlag flag = true
deriving Decidable

/-- An end has something outstanding that the other side has taken, and the acknowledgement of it
is lost. -/
def AckLost (k k' : Socket) (l : List TCPPacket) : Prop :=
  k.sendBack ≠ k.ackBack ∧ k'.recvFront = k.sendBack ∧
    ∀ packet ∈ l, packet.IsAck → (htonl packet.tcpHeader.ackNum).setWidth 16 ≠ k.sendBack
deriving Decidable

/-- The other side has no room for all that an end has left to send. -/
def NoRoom (k k' : Socket) : Prop :=
  (k'.recvFront - k.ackBack).toNat + (k'.recvBack - 1 - k'.recvFront).toNat
    < (k.sendFront - k.ackBack).toNat
deriving Decidable

/-- An end cannot get everything acknowledged, and so never sends its `FIN`. -/
def Blocked : Prop :=
  ∃ k ∈ n.socket c x, ∃ k' ∈ n.socket c x.other, k.hasFlag CLOSEState.finSent = false ∧
    (AckLost k k' (n.chan x.other) ∨ NoRoom k k')
deriving Decidable

/-- The `FIN` of an end is lost, and will not be sent again. -/
def FinLost : Prop :=
  n.Flag c x CLOSEState.finSent ∧
    (∀ k ∈ n.socket c x, k.hasFlag CLOSEState.ackRecv = true ∨ k.ackFront = k.ackBack) ∧
    (∀ packet ∈ n.chan x, ¬ packet.IsFin) ∧ ¬ n.Flag c x.other CLOSEState.finRecv
deriving Decidable

/-- The other side has no reason to close, and will not get one. -/
def Unprompted : Prop :=
  ¬ n.Flag c x.other CLOSEState.finSent ∧ ¬ n.Flag c x.other CLOSEState.call ∧ n.FinLost c x
deriving Decidable

/-- An acknowledgement comes before anything that an end waiting for `ackNum` would answer. -/
def AckFirst (ackNum : BitVec 32) : List TCPPacket → Prop
  | [] => False
  | packet :: l =>
    packet.IsAck ∨ (¬ packet.IsFin ∧ htonl packet.tcpHeader.seqNum ≠ ackNum ∧ AckFirst ackNum l)

instance decidableAckFirst (ackNum : BitVec 32) : ∀ l, Decidable (AckFirst ackNum l)
  | [] => .isFalse id
  | packet :: l =>
    have := decidableAckFirst ackNum l
    inferInstanceAs (Decidable (packet.IsAck ∨
      (¬ packet.IsFin ∧ htonl packet.tcpHeader.seqNum ≠ ackNum ∧ AckFirst ackNum l)))

/-- The `FIN` of an end will not be acknowledged: the other side is closed, or closes first. -/
def Unanswered : Prop :=
  n.Flag c x CLOSEState.finSent ∧ ¬ n.Flag c x CLOSEState.ackRecv ∧
    (∀ packet ∈ n.chan x.other, ¬ packet.IsAck) ∧
    ∀ k ∈ n.socket c x.other, k.state = .closed ∨
      (k.hasFlag CLOSEState.finSent = true ∧ k.hasFlag CLOSEState.finRecv = true ∧
        AckFirst k.ackNum (n.chan x))
deriving Decidable

/-- An end will never have all of its close flags. -/
def Stuck : Prop :=
  n.Blocked c x ∨ n.Blocked c x.other ∨ n.FinLost c x.other ∨ n.Unprompted c x ∨ n.Unanswered c x
deriving Decidable

end Net

/-! ### What the conditions look at -/

/-- As far as the dead ends are concerned, a socket stands for an end of the connection. Unlike
`Socket.Rep` this also holds of the server's end before it is connected. -/
structure Socket.Shows (k : Socket) (p : Peer) : Prop where
  state : k.state = .closed ↔ p.closed = true
  clstate : k.clstate = packClose p.call p.snd.fin p.rcv.fin p.ackRecv
  sendFront : k.sendFront = BitVec.ofNat 16 p.snd.written.length
  sendBack : k.sendBack = BitVec.ofNat 16 p.snd.sent
  ackBack : k.ackBack = BitVec.ofNat 16 p.snd.acked
  ackFront : p.snd.fin = true → k.ackFront = BitVec.ofNat 16 (p.snd.acked + p.snd.window)
  recvFront : k.recvFront = BitVec.ofNat 16 p.rcv.accepted.length
  recvBack : k.recvBack = BitVec.ofNat 16 p.rcv.taken
  ackNum : k.ackNum = BitVec.ofNat 32 p.rcv.accepted.length

theorem Socket.Rep.shows {k : Socket} {p : Peer} (h : k.Rep p) : k.Shows p :=
  ⟨h.state_eq_closed_iff, h.clstate, h.sendFront, h.sendBack, h.ackBack, fun _ => h.ackFront,
    h.recvFront, h.recvBack, h.ackNum⟩

theorem shows_child (c : Config) (called : Bool) :
    (c.child.withCall called).Shows (Peer.started called) where
  state := by
    rw [Config.state_withCall]
    exact iff_of_false (by decide : TCPState.sysRecv ≠ .closed) Bool.false_ne_true
  clstate := by
    cases called with
    | false => rfl
    | true =>
      exact (by decide : (0 ||| CLOSEState.call : CLOSEState) = packClose true false false false)
  sendFront := by cases called <;> rfl
  sendBack := by cases called <;> rfl
  ackBack := by cases called <;> rfl
  ackFront hfin := absurd hfin Bool.false_ne_true
  recvFront := by cases called <;> rfl
  recvBack := by cases called <;> rfl
  ackNum := by cases called <;> rfl

namespace Socket.Shows

variable {k : Socket} {p : Peer}

theorem call (h : k.Shows p) : k.hasFlag CLOSEState.call = p.call := by
  rw [Socket.hasFlag, h.clstate, packClose_test_call]

theorem finSent (h : k.Shows p) : k.hasFlag CLOSEState.finSent = p.snd.fin := by
  rw [Socket.hasFlag, h.clstate, packClose_test_finSent]

theorem finRecv (h : k.Shows p) : k.hasFlag CLOSEState.finRecv = p.rcv.fin := by
  rw [Socket.hasFlag, h.clstate, packClose_test_finRecv]

theorem ackRecv (h : k.Shows p) : k.hasFlag CLOSEState.ackRecv = p.ackRecv := by
  rw [Socket.hasFlag, h.clstate, packClose_test_ackRecv]

end Socket.Shows

namespace TCPPacket.Rep

variable {packet : TCPPacket}

theorem isAck_iff {m : Msg} (h : packet.Rep m) : packet.IsAck ↔ ∃ a, m = .ack a := by
  cases h with
  | seg m hctrl =>
    have hno : packet.tcpHeader.ctrl &&& ctAck = 0 := by
      rw [hctrl]
      split_ifs <;> decide
    simp [IsAck, hno]
  | ack a hackBit => exact iff_of_true hackBit ⟨a, rfl⟩

theorem isFin_iff {m : Msg} (h : packet.Rep m) :
    packet.IsFin ↔ ∃ m' : Segment Byte, m = .seg m' ∧ m'.fin = true := by
  cases h with
  | seg m hctrl =>
    have hbit : packet.IsFin ↔ m.fin = true := by
      rw [IsFin, hctrl]
      cases m.fin <;> decide
    simp [hbit]
  | ack a _ hfinBit => simp [IsFin, hfinBit]

end TCPPacket.Rep

namespace Net

variable (c : Config) (n : Net) (d : Duo)

/-- What the hosts and the channels show of the connection. Repetitions of the `SYN` may come
before everything else. -/
structure View : Prop where
  inv : d.Inv
  ends : ∀ x k, n.socket c x = some k → k.Shows (d.peer x)
  gone : ∀ x, n.socket c x = none → (d.peer x).closed = true
  chans : ∀ x, ∃ s l, n.chan x = s ++ l ∧ (∀ packet ∈ s, ¬ packet.IsAck ∧ ¬ packet.IsFin) ∧
    List.Forall₂ TCPPacket.Rep l (d.chan x) ∧ ((d.peer x.other).snd.fin = true → s = [])

namespace View

variable {c n d} {x : Side}

/-- An end that has been given back has every flag; the others show theirs. -/
theorem flag_iff (h : View c n d) {flag : CLOSEState} {b : Peer → Bool}
    (hb : ∀ (k : Socket) (p : Peer), k.Shows p → k.hasFlag flag = b p)
    (hclosed : (d.peer x).closed = true → b (d.peer x) = true) :
    n.Flag c x flag ↔ b (d.peer x) = true := by
  rw [Flag]
  cases hk : n.socket c x with
  | none => simp [hclosed (h.gone x hk)]
  | some k => simp [hb k _ (h.ends x k hk)]

theorem finSent_iff (h : View c n d) :
    n.Flag c x CLOSEState.finSent ↔ (d.peer x).snd.fin = true :=
  h.flag_iff (b := fun p => p.snd.fin) (fun _ _ => Socket.Shows.finSent)
    fun hc => ((h.inv.flags x).closed_fin hc).1

theorem finRecv_iff (h : View c n d) :
    n.Flag c x CLOSEState.finRecv ↔ (d.peer x).rcv.fin = true :=
  h.flag_iff (b := fun p => p.rcv.fin) (fun _ _ => Socket.Shows.finRecv)
    fun hc => ((h.inv.flags x).closed_fin hc).2.1

theorem ackRecv_iff (h : View c n d) :
    n.Flag c x CLOSEState.ackRecv ↔ (d.peer x).ackRecv = true :=
  h.flag_iff (b := fun p => p.ackRecv) (fun _ _ => Socket.Shows.ackRecv)
    fun hc => ((h.inv.flags x).closed_fin hc).2.2

theorem noAck_iff (h : View c n d) :
    (∀ packet ∈ n.chan x, ¬ packet.IsAck) ↔ Msg.acks (d.chan x) = [] := by
  obtain ⟨s, l, hchan, hs, hl, -⟩ := h.chans x
  have hiff : (∃ packet ∈ l, packet.IsAck) ↔ ∃ m ∈ d.chan x, ∃ a, m = .ack a :=
    Channel.exists_mem_iff hl fun packet m _ hrep => hrep.isAck_iff
  rw [List.eq_nil_iff_forall_not_mem, hchan]
  constructor
  · intro hnone a ha
    obtain ⟨packet, hp, hack⟩ := hiff.mpr ⟨_, Msg.mem_acks.mp ha, a, rfl⟩
    exact hnone packet (List.mem_append_right _ hp) hack
  · intro hnone packet hp hack
    rcases List.mem_append.mp hp with hp | hp
    · exact (hs packet hp).1 hack
    · obtain ⟨m, hm, a, rfl⟩ := hiff.mp ⟨packet, hp, hack⟩
      exact hnone a (Msg.mem_acks.mpr hm)

theorem noFin_iff (h : View c n d) :
    (∀ packet ∈ n.chan x, ¬ packet.IsFin) ↔ ∀ m ∈ Msg.segs (d.chan x), m.fin = false := by
  obtain ⟨s, l, hchan, hs, hl, -⟩ := h.chans x
  have hiff : (∃ packet ∈ l, packet.IsFin) ↔
      ∃ m ∈ d.chan x, ∃ m' : Segment Byte, m = .seg m' ∧ m'.fin = true :=
    Channel.exists_mem_iff hl fun packet m _ hrep => hrep.isFin_iff
  rw [hchan]
  constructor
  · intro hnone m hm
    by_contra hfin
    obtain ⟨packet, hp, hfinBit⟩ := hiff.mpr ⟨_, Msg.mem_segs.mp hm, m, rfl, by simpa using hfin⟩
    exact hnone packet (List.mem_append_right _ hp) hfinBit
  · intro hnone packet hp hfinBit
    rcases List.mem_append.mp hp with hp | hp
    · exact (hs packet hp).2 hfinBit
    · obtain ⟨m, hm, m', rfl, hfin⟩ := hiff.mp ⟨packet, hp, hfinBit⟩
      simp [hnone m' (Msg.mem_segs.mpr hm)] at hfin

/-! ### The dead ends -/

/-- As long as the `FIN` is not out, both ends are there. -/
theorem exists_of_unfinished (h : View c n d) (hfin : (d.peer x).snd.fin = false) :
    ∃ k k', n.socket c x = some k ∧ n.socket c x.other = some k' := by
  obtain ⟨hopen, hopen'⟩ := h.inv.open_of_fin hfin
  have hsome : ∀ z, (d.peer z).closed = false → ∃ k, n.socket c z = some k := by
    intro z hz
    cases hk : n.socket c z with
    | none => simp [h.gone z hk] at hz
    | some k => exact ⟨k, rfl⟩
  obtain ⟨k, hk⟩ := hsome x hopen
  obtain ⟨k', hk'⟩ := hsome x.other hopen'
  exact ⟨k, k', hk, hk'⟩

variable {k k' : Socket}

theorem ackLost_iff (h : View c n d) (hk : n.socket c x = some k)
    (hk' : n.socket c x.other = some k') :
    AckLost k k' (n.chan x.other) ↔ d.Wedged x := by
  have hdir := h.inv.dir x
  rw [Duo.Dir] at hdir
  have hmss := hdir.sent_le_mss
  have hacc := hdir.acc_le
  have hacked := hdir.acked_le
  have hsmall : mss < 2 ^ 16 - 1 := by decide
  have hshows := h.ends x k hk
  have hshows' := h.ends x.other k' hk'
  have hout : k.sendBack ≠ k.ackBack ↔ (d.peer x).snd.sent ≠ (d.peer x).snd.acked := by
    rw [hshows.sendBack, hshows.ackBack, ne_comm, ne_comm (b := (d.peer x).snd.acked), not_iff_not]
    exact ofNat_inj_of_le hdir.acked_le_sent (by omega)
  have htaken : k'.recvFront = k.sendBack ↔
      (d.peer x.other).rcv.accepted.length = (d.peer x).snd.sent := by
    rw [hshows'.recvFront, hshows.sendBack]
    exact ofNat_inj_of_le hacc (by omega)
  have hacks : (∀ packet ∈ n.chan x.other, packet.IsAck →
        (htonl packet.tcpHeader.ackNum).setWidth 16 ≠ k.sendBack) ↔
      ∀ a ∈ Msg.acks (d.chan x.other), a.value ≠ (d.peer x).snd.sent := by
    obtain ⟨s, l, hchan, hs, hl, -⟩ := h.chans x.other
    have hiff : (∃ packet ∈ l, packet.IsAck ∧
          (htonl packet.tcpHeader.ackNum).setWidth 16 = k.sendBack) ↔
        ∃ m ∈ d.chan x.other, ∃ a, m = .ack a ∧ a.value = (d.peer x).snd.sent := by
      refine Channel.exists_mem_iff hl fun packet m hm hrep => ?_
      rw [hrep.isAck_iff]
      cases hrep with
      | seg m => simp
      | ack a _ _ hnum =>
        obtain ⟨hle, hge⟩ := hdir.ack_num_cases (Msg.mem_acks.mpr hm)
        have hfin : a.fin.toNat ≤ 1 := Bool.toNat_le a.fin
        have hval : a.value = a.num + a.fin.toNat := rfl
        have hsame : (BitVec.ofNat 32 a.value).setWidth 16 = BitVec.ofNat 16 (d.peer x).snd.sent ↔
            a.value = (d.peer x).snd.sent := by
          rw [BitVec.setWidth_ofNat_of_le (by decide)]
          rcases Nat.le_total a.value (d.peer x).snd.sent with hle' | hle'
          · exact ofNat_inj_of_le hle' (by omega)
          · rw [eq_comm, ofNat_inj_of_le hle' (by omega), eq_comm]
        rw [hnum, hshows.sendBack, hsame]
        simp
    rw [hchan]
    constructor
    · intro hnone a ha hval
      obtain ⟨packet, hp, hack, hnum⟩ := hiff.mpr ⟨_, Msg.mem_acks.mp ha, a, rfl, hval⟩
      exact hnone packet (List.mem_append_right _ hp) hack hnum
    · intro hnone packet hp hack hnum
      rcases List.mem_append.mp hp with hp | hp
      · exact (hs packet hp).1 hack
      · obtain ⟨m, hm, a, rfl, hval⟩ := hiff.mp ⟨packet, hp, hack, hnum⟩
        exact hnone a (Msg.mem_acks.mpr hm) hval
  rw [AckLost, hout, htaken, hacks]
  constructor
  · rintro ⟨houtstanding, htaken', hunanswered⟩
    exact ⟨houtstanding, htaken', hunanswered⟩
  · exact fun hw => ⟨hw.outstanding, hw.taken, hw.unanswered⟩

theorem noRoom_iff (h : View c n d) (hk : n.socket c x = some k)
    (hk' : n.socket c x.other = some k') :
    NoRoom k k' ↔ (d.peer x.other).rcv.taken + cap < (d.peer x).snd.written.length := by
  have hdir := h.inv.dir x
  rw [Duo.Dir] at hdir
  have hshows := h.ends x k hk
  have hshows' := h.ends x.other k' hk'
  have hcap : cap = 2 ^ 16 - 1 := by decide
  have := hdir.acked_le
  have := hdir.acc_le
  have := hdir.sent_le
  have := hdir.ring_le
  have := hdir.taken_le
  have := hdir.unread_le
  rw [NoRoom, hshows'.recvFront, hshows'.recvBack, hshows.ackBack, hshows.sendFront,
    toNat_ofNat_sub (by omega) (by omega), toNat_room (by omega) (by omega),
    toNat_ofNat_sub (by omega) (by omega)]
  omega

theorem blocked_iff (h : View c n d) : n.Blocked c x ↔ d.Blocked x := by
  constructor
  · rintro ⟨k, hk, k', hk', hfin, hwhy⟩
    refine ⟨by rw [← (h.ends x k hk).finSent, hfin], ?_⟩
    exact hwhy.imp (h.ackLost_iff hk hk').mp (h.noRoom_iff hk hk').mp
  · rintro ⟨hfin, hwhy⟩
    obtain ⟨k, k', hk, hk'⟩ := h.exists_of_unfinished hfin
    refine ⟨k, hk, k', hk', by rw [(h.ends x k hk).finSent, hfin], ?_⟩
    exact hwhy.imp (h.ackLost_iff hk hk').mpr (h.noRoom_iff hk hk').mpr

theorem finLost_iff (h : View c n d) : n.FinLost c x ↔ d.FinLost x := by
  rw [FinLost, Duo.FinLost, h.finSent_iff, h.noFin_iff, h.finRecv_iff, Bool.not_eq_true]
  refine and_congr_right fun hfin => and_congr_left fun _ => ?_
  have hdir := h.inv.dir x
  rw [Duo.Dir] at hdir
  have hwindow := hdir.window_le
  have hcap : cap < 2 ^ 16 := by decide
  cases hk : n.socket c x with
  | none => simp [((h.inv.flags x).closed_fin (h.gone x hk)).2.2]
  | some k =>
    have hshows := h.ends x k hk
    have hzero : k.ackFront = k.ackBack ↔ (d.peer x).snd.window = 0 := by
      rw [hshows.ackFront hfin, hshows.ackBack, eq_comm,
        ofNat_inj_of_le (Nat.le_add_right ..) (by omega)]
      omega
    simp [hshows.ackRecv, hzero]

theorem unprompted_iff (h : View c n d) : n.Unprompted c x ↔ d.Unprompted x := by
  rw [Unprompted, Duo.Unprompted, h.finSent_iff, h.finLost_iff, Bool.not_eq_true]
  refine and_congr_right fun hfin => and_congr_left fun _ => ?_
  obtain ⟨k', k, hk', -⟩ := h.exists_of_unfinished hfin
  simp [Flag, hk', (h.ends x.other k' hk').call]

theorem ackFirst_iff (h : View c n d) {l : List TCPPacket} {m : List Msg}
    (hl : List.Forall₂ TCPPacket.Rep l m) (hm : ∀ a ∈ m, a ∈ d.chan x)
    (hk' : n.socket c x.other = some k') :
    AckFirst k'.ackNum l ↔ Duo.AckFirst (d.peer x.other).rcv.accepted.length m := by
  induction hl with
  | nil => exact Iff.rfl
  | @cons packet a l m hrep _ ih =>
    have hrest := ih fun b hb => hm b (List.mem_cons_of_mem _ hb)
    rw [AckFirst, hrep.isAck_iff, hrep.isFin_iff, hrest]
    cases hrep with
    | ack a => simp [Duo.AckFirst]
    | seg a _ hseq =>
      have hdir := h.inv.dir x
      rw [Duo.Dir] at hdir
      have hok := hdir.fwd_ok a (Msg.mem_segs.mpr (hm _ (List.mem_cons_self ..)))
      have hle := hok.seq_le.trans hdir.acked_le
      have hrecent := hok.recent
      have hsmall : mss < 2 ^ 32 := by decide
      have hnum : htonl packet.tcpHeader.seqNum ≠ k'.ackNum ↔
          a.seq ≠ (d.peer x.other).rcv.accepted.length := by
        rw [hseq, (h.ends x.other k' hk').ackNum, not_iff_not]
        exact ofNat_inj_of_le hle (by omega)
      rw [hnum]
      simp [Duo.AckFirst]

theorem unanswered_iff (h : View c n d) : n.Unanswered c x ↔ d.Unanswered x := by
  rw [Unanswered, Duo.Unanswered, h.finSent_iff, h.ackRecv_iff, h.noAck_iff, Bool.not_eq_true]
  refine and_congr_right fun _ => and_congr_right fun _ => and_congr_right fun _ => ?_
  cases hk' : n.socket c x.other with
  | none => simp [h.gone x.other hk']
  | some k' =>
    have hshows := h.ends x.other k' hk'
    simp only [Option.mem_def, Option.some.injEq, forall_eq', hshows.state, hshows.finSent,
      hshows.finRecv]
    refine or_congr_right (and_congr_right fun hfin => and_congr_right fun _ => ?_)
    obtain ⟨s, l, hchan, -, hl, hnil⟩ := h.chans x
    rw [hchan, hnil hfin, List.nil_append]
    exact h.ackFirst_iff hl (fun _ ha => ha) hk'

/-- **Dead ends are seen.** -/
theorem stuck_iff (h : View c n d) : n.Stuck c x ↔ d.Stuck x := by
  rw [Stuck, Duo.Stuck, h.blocked_iff, h.blocked_iff, h.finLost_iff, h.unprompted_iff,
    h.unanswered_iff]

end View

end Net

end LabNetstack
