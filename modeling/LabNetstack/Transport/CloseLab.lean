import LabNetstack.Transport.DeadEnds
import LabNetstack.Transport.Finishing

/-!
# Where `closeLab` can return

`closeLab` waits in a loop for all five close flags, or for a closed socket. Whether the timers and
loss-free deliveries can still bring it there is a question about the state it waits in. A socket
that listens never gets there; a handshake that has lost a segment is not repaired, since only
connected sockets have a timer; and a connection gets there exactly when neither of its ends is in a
dead end.

## Main results

* `Net.Open.finishes_iff`, `Net.HalfOpen.finishes_iff`, `Net.SynReceived.finishes_iff`,
  `Net.SynSent.finishes_iff` — the way out from each stage
* `Net.Reachable.closeLab_finishes_iff` — the way out from any state, read off the sockets
-/

namespace LabNetstack

open StopAndWait

namespace Net

variable (c : Config) (n : Net)

/-- The wait loop of `closeLab` on the socket `fd` can come to its end. -/
def Finishes (x : Side) (fd : ℤ) : Prop :=
  ∃ n', n.Leads c n' ∧ ∃ k, (n'.host x).findSocket fd = some k ∧ closeLabExits k = true

/-- The segment that the handshake waits for, if it waits for one, is in flight. -/
def Connects : Prop :=
  ∀ k ∈ n.socket c .a,
    (k.state = .sysSent →
      ∃ packet ∈ n.chan (if (n.socket c .b).isSome then .b else .a), packet.IsSyn) ∧
    (k.state ≠ .sysSent → ∀ k' ∈ n.socket c .b, k'.state = .sysRecv →
      ∃ packet ∈ n.chan .a, packet.IsAck)
deriving Decidable

/-- What `closeLab` on the socket `k` of `x` needs: an end that is closed, or the handshake on its
way to an end, and no dead end behind it. -/
def CanFinish (x : Side) (k : Socket) : Prop :=
  k.state = .closed ∨ (k.state = .sysSent ∧ n.Connects c) ∨
    ((k.state = .sysRecv ∨ k.state = .establisted) ∧ n.Connects c ∧ ¬ n.Stuck c x)
deriving Decidable

variable {c n} {n' : Net} {d d' : Duo} {x : Side} {k : Socket} {fd : ℤ}

/-! ### Going on, and going on for ever -/

theorem Finishes.of_leads (hleads : n.Leads c n') (h : n'.Finishes c x fd) : n.Finishes c x fd := by
  obtain ⟨n'', hleads', hend⟩ := h
  exact ⟨n'', Run.Leads.trans hleads hleads', hend⟩

theorem finishes_of_exits (hk : (n.host x).findSocket fd = some k)
    (hexits : closeLabExits k = true) :
    n.Finishes c x fd := ⟨n, .refl n, k, hk, hexits⟩

/-- What the timers and the deliveries cannot change does not end. -/
theorem not_finishes {P : Net → Prop}
    (hstep : ∀ (act : Action) (n n' : Net), act.Automatic → P n → step c act n = some n' → P n')
    (hwaits : ∀ n k, P n → (n.host x).findSocket fd = some k → closeLabExits k = false) (h : P n) :
    ¬ n.Finishes c x fd := by
  rintro ⟨n', hleads, k, hk, hexits⟩
  have hwait := hwaits n' k (Run.Leads.invariant (q := P) hstep hleads h) hk
  rw [hexits] at hwait
  cases hwait

/-! ### Both ends connected -/

namespace Open

theorem rep_of_socket (h : Open c n d) (hk : n.socket c x = some k) : k.Rep (d.peer x) := by
  obtain ⟨called, o, hlist, hend⟩ := h.hosts x
  have ho : n.socket c x = o := by
    refine Config.findSocket_end hlist fun it hit => ?_
    obtain rfl := Option.mem_def.mp hit
    exact congrArg Identity.fd hend.1
  obtain rfl : o = some k := ho.symm.trans hk
  exact hend.2

theorem view (h : Open c n d) : View c n d where
  inv := h.inv
  ends _ _ hk := (h.rep_of_socket hk).shows
  gone x hk := by
    obtain ⟨called, o, hlist, hend⟩ := h.hosts x
    cases o with
    | none => exact hend
    | some k =>
      have hsome : n.socket c x = some k := by
        refine Config.findSocket_end hlist fun it hit => ?_
        rw [← Option.some.inj hit]
        exact congrArg Identity.fd hend.1
      rw [hk] at hsome
      cases hsome
  chans x := ⟨[], n.chan x, rfl, by simp, (h.chans x).imp fun _ _ hc => hc.rep, fun _ => rfl⟩

theorem simulates {act : Action} (hact : act.Automatic) (h : Open c n d)
    (hs : step c act n = some n') : ∃ d', d.Leads d' ∧ Open c n' d' := by
  cases act with
  | tick x now =>
    obtain ⟨d', hd, h'⟩ := Run.rel_some_left (h.tick x now) hs
    exact ⟨d', .single (i := .tick x now) trivial hd, h'⟩
  | deliver x =>
    obtain ⟨d', hd, h'⟩ := Run.rel_some_left (h.deliver x) hs
    exact ⟨d', .single (i := .deliver x) trivial hd, h'⟩
  | call | free | lose | repeatAt => exact hact.elim

theorem simulated {act : LabNetstack.Action} (hact : act.Automatic) (h : Open c n d)
    (hd : Duo.step act d = some d') : ∃ n', n.Leads c n' ∧ Open c n' d' := by
  cases act with
  | tick x now =>
    obtain ⟨n', hs, h'⟩ := Run.rel_some_right (h.tick x now) hd
    exact ⟨n', .single (i := .tick x now) trivial hs, h'⟩
  | deliver x =>
    obtain ⟨n', hs, h'⟩ := Run.rel_some_right (h.deliver x) hd
    exact ⟨n', .single (i := .deliver x) trivial hs, h'⟩
  | write | read | close | lose | repeatAt => exact hact.elim

/-- The hosts can go wherever the timers and the channels lead the connection. -/
theorem leads (h : Open c n d) (hleads : d.Leads d') : ∃ n', n.Leads c n' ∧ Open c n' d' :=
  Run.Leads.simulate (r := fun d n => Open c n d)
    (fun _ _ _ _ hact hr hd => hr.simulated hact hd) hleads h

/-- **The way out of a connection.** -/
theorem finishes_iff (h : Open c n d) (hk : (n.socket c x).isSome)
    (hcall : (d.peer x).call = true) :
    n.Finishes c x (c.identity x).fd ↔ ¬ d.Stuck x := by
  rw [← h.inv.finishes_iff hcall]
  constructor
  · rintro ⟨n', hleads, k', hk', hexits⟩
    obtain ⟨d', hleads', h'⟩ := Run.Leads.simulate (r := Open c)
      (fun _ _ _ _ hact hr hs => hr.simulates hact hs) hleads h
    exact ⟨d', hleads', (h'.rep_of_socket hk').finished_of_exits (h'.inv.flags x) hexits⟩
  · rintro ⟨d', hleads, hfin⟩
    obtain ⟨n', hleads', h'⟩ := h.leads hleads
    obtain ⟨k', hk'⟩ := Option.isSome_iff_exists.mp (Leads.findSocket c hleads' hk)
    have hcall' : (d'.peer x).call = true := (Duo.Leads.history hleads x).2.2.trans hcall
    refine ⟨n', hleads', k', hk', ?_⟩
    have hall := packClose_eq_all (d'.peer x).call (d'.peer x).snd.fin (d'.peer x).rcv.fin
      (d'.peer x).ackRecv
    rw [closeLabExits, (h'.rep_of_socket hk').clstate, beq_iff_eq.mpr (hall.mpr ⟨hcall', hfin⟩),
      Bool.true_or]

end Open

/-! ### Only the client connected -/

namespace HalfOpen

theorem socket_a (h : HalfOpen c n d) :
    ∃ k, n.socket c .a = some k ∧ k.state ≠ .sysSent ∧ k.Rep (d.peer .a) := by
  obtain ⟨k, hlist, hid, hrep⟩ := h.client
  refine ⟨k, ?_, ?_, hrep⟩
  · exact @Config.findSocket_end c false .a _ (some k) hlist fun it hit =>
      Option.some.inj hit ▸ congrArg Identity.fd hid
  · rw [hrep.state]
    split_ifs <;> decide

theorem socket_b (h : HalfOpen c n d) :
    ∃ called, n.socket c .b = some (c.child.withCall called) ∧ d.peer .b = Peer.started called := by
  obtain ⟨called, called', hlist, hpeer⟩ := h.server
  exact ⟨called', Config.findSocket_end (o := some _) hlist (fd_b (o := some called')), hpeer⟩

theorem view (h : HalfOpen c n d) : View c n d where
  inv := h.inv
  ends := by
    obtain ⟨k, hk, -, hrep⟩ := h.socket_a
    obtain ⟨called, hk', hpeer⟩ := h.socket_b
    refine Side.forall_of_other .a (fun it hit => ?_) fun it hit => ?_
    · rw [← Option.some.inj (hk.symm.trans hit)]
      exact hrep.shows
    · rw [← Option.some.inj (hk'.symm.trans hit), show Side.a.other = .b from rfl, hpeer]
      exact shows_child c called
  gone := by
    obtain ⟨k, hk, -⟩ := h.socket_a
    obtain ⟨called, hk', -⟩ := h.socket_b
    refine Side.forall_of_other .a (fun hnone => ?_) fun hnone => ?_
    · rw [hk] at hnone
      cases hnone
    · rw [show Side.a.other = .b from rfl, hk'] at hnone
      cases hnone
  chans := by
    obtain ⟨s, l, hchan, hsyn, hl, -⟩ := h.towards
    have hctrl : (ctSyn &&& ctAck = 0) ∧ (ctSyn &&& ctFin = 0) := by decide
    refine Side.forall_of_other .a ⟨s, l, hchan, fun packet hp => ?_,
      hl.imp fun _ _ hc => hc.rep, fun hfin => ?_⟩ ?_
    · rw [hsyn packet hp]
      exact ⟨not_not_intro hctrl.1, not_not_intro hctrl.2⟩
    · rw [show Side.a.other = .b from rfl, h.snd_fin] at hfin
      cases hfin
    · exact ⟨[], n.chan .b, rfl, by simp, h.back.1.imp fun _ _ hc => hc.rep, fun _ => rfl⟩

/-- Taking the acknowledgement of the handshake does not lead into a dead end. -/
theorem stuck_of_deliver (h : HalfOpen c n d) {rest : List Msg}
    (hchan : d.chan .a = .ack startAck :: rest) (hd : d.deliver .a = some d') (hs : d'.Stuck x) :
    d.Stuck x := by
  obtain ⟨called, -, hb⟩ := h.socket_b
  obtain ⟨m, rest', hm, hrest, hsame, hpeer, hout⟩ := Duo.deliver_cases hd
  obtain ⟨rfl, rfl⟩ := List.cons.inj (hchan.symm.trans hm)
  rw [show Side.a.other = .b from rfl, hb, handle_startAck] at hpeer hout
  have hpeers : d'.peer = d.peer := by
    funext z
    cases z
    · exact hsame
    · rw [hpeer, hb]
  have hback : d'.chan .b = d.chan .b := by simpa using hout
  have hsegs : ∀ z, Msg.segs (d'.chan z) = Msg.segs (d.chan z) :=
    Side.forall_of_other .a (by rw [hchan, hrest, Msg.segs_cons_ack])
      (by rw [show Side.a.other = .b from rfl, hback])
  -- the server's end has sent nothing yet
  have hfresh : (d.peer .b).snd.fin = false ∧ (d.peer .b).snd.sent = (d.peer .b).snd.acked := by
    rw [hb]
    exact ⟨rfl, rfl⟩
  have hblocked : ∀ z, d'.Blocked z → d.Blocked z := by
    rintro z ⟨hfin, hwhy⟩
    rw [hpeers] at hfin hwhy
    refine ⟨hfin, hwhy.imp_left fun hw => ?_⟩
    obtain ⟨hsent, htaken, hnone⟩ := hw
    rw [hpeers] at hsent htaken hnone
    cases z with
    | a => exact ⟨hsent, htaken, hback ▸ hnone⟩
    | b => exact absurd hfresh.2 hsent
  have hlost : ∀ z, d'.FinLost z → d.FinLost z := by
    rintro z ⟨hfin, hquiet, hnone, hrcv⟩
    rw [hpeers] at hfin hquiet hrcv
    exact ⟨hfin, hquiet, hsegs z ▸ hnone, hrcv⟩
  rcases hs with hs | hs | hs | ⟨hfin, hcall, hs⟩ | ⟨hfin, hack, hnone, hwhy⟩
  · exact Or.inl (hblocked _ hs)
  · exact Or.inr (Or.inl (hblocked _ hs))
  · exact Or.inr (Or.inr (Or.inl (hlost _ hs)))
  · rw [hpeers] at hfin hcall
    exact Or.inr (Or.inr (Or.inr (Or.inl ⟨hfin, hcall, hlost _ hs⟩)))
  · rw [hpeers] at hfin hack hwhy
    cases x with
    | b =>
      rw [hfresh.1] at hfin
      cases hfin
    | a =>
      rcases hwhy with hclosed | ⟨hfinOther, -⟩
      · simp [show Side.a.other = .b from rfl, hb, Peer.started, Peer.start] at hclosed
      · rw [show Side.a.other = .b from rfl, hfresh.1] at hfinOther
        cases hfinOther

/-- While an acknowledgement is in flight the server's end will be connected. -/
theorem opens (h : HalfOpen c n d) (hacks : Msg.acks (d.chan .a) ≠ []) :
    ∃ n' d', n.Leads c n' ∧ Open c n' d' ∧ d.deliver .a = some d' ∧
      ∀ x, d'.Stuck x → d.Stuck x := by
  induction hn : n.chan .a generalizing n with
  | nil =>
    obtain ⟨s, l, hchan, -, hl, -⟩ := h.towards
    rw [hn] at hchan
    rw [(List.append_eq_nil_iff.mp hchan.symm).2, List.forall₂_nil_left_iff] at hl
    simp [hl] at hacks
  | cons packet rest ih =>
    obtain ⟨n', hn', hrest, h'⟩ := h.deliver_a hn
    have hleads : n.Leads c n' := .single (i := .deliver .a) trivial hn'
    rcases h' with h' | ⟨rest', hchan, d', hd', h'⟩ | ⟨hnone, -⟩
    · obtain ⟨n'', d', hleads', hend⟩ := ih h' hrest
      exact ⟨n'', d', Run.Leads.trans hleads hleads', hend⟩
    · exact ⟨n', d', hleads, h', hd', fun x => h.stuck_of_deliver hchan hd'⟩
    · exact absurd hnone hacks

/-- **A step without the application.** With no acknowledgement in flight the server's end keeps
waiting. -/
theorem step {act : Action} (hact : act.Automatic) (h : HalfOpen c n d)
    (hs : Net.step c act n = some n') :
    (Msg.acks (d.chan .a) = [] ∧ ∃ d', HalfOpen c n' d' ∧ Msg.acks (d'.chan .a) = []) ∨
      (Msg.acks (d.chan .a) ≠ [] ∧ ∃ d', d.Leads d' ∧ (HalfOpen c n' d' ∨ Open c n' d')) := by
  have hsame : ∀ d', d.Leads d' → HalfOpen c n' d' →
      Msg.acks (d'.chan .a) = Msg.acks (d.chan .a) →
      (Msg.acks (d.chan .a) = [] ∧ ∃ d', HalfOpen c n' d' ∧ Msg.acks (d'.chan .a) = []) ∨
        (Msg.acks (d.chan .a) ≠ [] ∧ ∃ d', d.Leads d' ∧ (HalfOpen c n' d' ∨ Open c n' d')) := by
    intro d' hleads h' hacks
    by_cases hnone : Msg.acks (d.chan .a) = []
    · exact Or.inl ⟨hnone, d', h', hacks.trans hnone⟩
    · exact Or.inr ⟨hnone, d', hleads, Or.inl h'⟩
  cases act with
  | tick z now =>
    obtain ⟨d', hleads, h', hacks⟩ := h.tick hs
    exact hsame d' hleads h' hacks
  | deliver z =>
    cases z with
    | a =>
      rw [Net.step] at hs
      cases hn : n.chan .a with
      | nil => simp [Net.deliver, hn] at hs
      | cons packet rest =>
        obtain ⟨n₁, hn₁, -, h₁⟩ := h.deliver_a hn
        obtain rfl := Option.some.inj (hs.symm.trans hn₁)
        rcases h₁ with h' | ⟨rest', hchan, d', hd', h'⟩ | ⟨hnone, d', h', hnone'⟩
        · exact hsame d (.refl d) h' rfl
        · refine Or.inr ⟨by simp [hchan], d', ?_, Or.inr h'⟩
          exact .single (i := .deliver .a) trivial hd'
        · exact Or.inl ⟨hnone, d', h', hnone'⟩
    | b =>
      obtain ⟨d', hd', h', hchan⟩ := h.deliver_b hs
      exact hsame d' (.single (i := .deliver .b) trivial hd') h' (by rw [hchan])
  | call | free | lose | repeatAt => exact hact.elim

/-- What the timers and the deliveries make of a connection that waits for an acknowledgement in
vain, or is in a dead end. -/
def Lost (c : Config) (x : Side) (n : Net) : Prop :=
  (∃ d, HalfOpen c n d ∧ (Msg.acks (d.chan .a) = [] ∨ d.Stuck x)) ∨ ∃ d, Open c n d ∧ d.Stuck x

theorem Lost.step {act : Action} (hact : act.Automatic) (h : Lost c x n)
    (hs : Net.step c act n = some n') : Lost c x n' := by
  rcases h with ⟨d, h, hwhy⟩ | ⟨d, h, hstuck⟩
  · rcases h.step hact hs with ⟨-, d', h', hnone⟩ | ⟨hacks, d', hleads, h'⟩
    · exact Or.inl ⟨d', h', Or.inl hnone⟩
    · have hstuck := (hwhy.resolve_left hacks).leads h.inv hleads
      exact h'.imp (fun h' => ⟨d', h', Or.inr hstuck⟩) fun h' => ⟨d', h', hstuck⟩
  · obtain ⟨d', hleads, h'⟩ := h.simulates hact hs
    exact Or.inr ⟨d', h', hstuck.leads h.inv hleads⟩

theorem Lost.waits (h : Lost c x n) (hk : n.socket c x = some k) : closeLabExits k = false := by
  rcases h with ⟨d, h, -⟩ | ⟨d, h, hstuck⟩
  · exact h.waits hk
  · by_contra hexits
    exact hstuck.not_finished h.inv
      ((h.rep_of_socket hk).finished_of_exits (h.inv.flags x) (by simpa using hexits))

/-- **The way out of a connection that is still to be acknowledged.** -/
theorem finishes_iff (h : HalfOpen c n d) (hk : (n.socket c x).isSome)
    (hcall : (d.peer x).call = true) :
    n.Finishes c x (c.identity x).fd ↔ Msg.acks (d.chan .a) ≠ [] ∧ ¬ d.Stuck x := by
  constructor
  · intro hfinishes
    by_contra hlost
    have hwhy : Msg.acks (d.chan .a) = [] ∨ d.Stuck x := by
      rwa [not_and_or, not_ne_iff, not_not] at hlost
    exact not_finishes (P := Lost c x) (fun act n n' hact h hs => h.step hact hs)
      (fun n k h hk => h.waits hk) (Or.inl ⟨d, h, hwhy⟩) hfinishes
  · rintro ⟨hacks, hstuck⟩
    obtain ⟨n', d', hleads, h', hd', hstuck'⟩ := h.opens hacks
    refine .of_leads hleads ((h'.finishes_iff (Leads.findSocket c hleads hk) ?_).mpr ?_)
    · rw [(Duo.deliver_history hd' x).2.2, hcall]
    · exact fun hs => hstuck (hstuck' x hs)

end HalfOpen

/-! ### The handshake -/

theorem socket_client {socket : Socket} {called : Bool}
    (hlist : (n.host .a).sockets = [socket.withCall called])
    (hfd : socket.fd = (c.identity .a).fd) : n.socket c .a = some (socket.withCall called) := by
  have hlist' : (n.host .a).sockets
      = c.front called .a ++ (some (socket.withCall called)).toList := hlist
  refine Config.findSocket_end hlist' fun it hit => ?_
  rw [← Option.some.inj hit, Config.fd_withCall, hfd]

namespace SynReceived

variable {called : Side → Bool}

theorem socket_a (h : SynReceived c n called) :
    n.socket c .a = some (c.connect.1.withCall (called .a)) := socket_client h.client rfl

theorem socket_b (h : SynReceived c n called) :
    n.socket c .b = some (c.child.withCall (called .b)) := by
  obtain ⟨called', hlist⟩ := h.server
  exact Config.findSocket_end (o := some _) hlist (fd_b (o := some _))

/-- **The way out before the client is connected.** -/
theorem finishes_iff (h : SynReceived c n called) (hcalled : called x = true) :
    n.Finishes c x (c.identity x).fd ↔ n.chan .b ≠ [] := by
  constructor
  · intro hfinishes hnil
    refine not_finishes (P := fun n => SynReceived c n called ∧ n.chan .b = []) ?_ ?_ ⟨h, hnil⟩
      hfinishes
    · rintro act n n' hact ⟨h, hnil⟩ hs
      cases act with
      | tick z now =>
        obtain rfl := Option.some.inj ((tick_quiet c (h.isConnection z)).symm.trans hs)
        exact ⟨h, hnil⟩
      | deliver z =>
        rw [step] at hs
        cases hn : n.chan z with
        | nil => simp [Net.deliver, hn] at hs
        | cons packet rest =>
          cases z with
          | a =>
            obtain ⟨n₁, hn₁, h₁, hsame⟩ := h.deliver_a hn
            obtain rfl := Option.some.inj (hs.symm.trans hn₁)
            exact ⟨h₁, hsame.trans hnil⟩
          | b => simp [hnil] at hn
      | call | free | lose | repeatAt => exact hact.elim
    · exact fun n k h hk => h.1.waits hk
  · intro hne
    obtain ⟨packet, rest, hn⟩ := List.exists_cons_of_ne_nil hne
    obtain ⟨n', hn', h'⟩ := h.deliver_b hn
    have hleads : n.Leads c n' := .single (i := .deliver .b) trivial hn'
    have hsome : (n.socket c x).isSome := by
      cases x
      · rw [h.socket_a]
        rfl
      · rw [h.socket_b]
        rfl
    refine .of_leads hleads ((h'.finishes_iff (Leads.findSocket c hleads hsome) hcalled).mpr ?_)
    refine ⟨by simp [Duo.started, Duo.start], ?_⟩
    -- on a fresh connection there are no dead ends
    rintro (⟨-, hw | hroom⟩ | ⟨-, hw | hroom⟩ | ⟨hfin, -⟩ | ⟨-, -, hfin, -⟩ | ⟨hfin, -⟩)
    · exact hw.outstanding rfl
    · exact absurd hroom (Nat.not_lt_zero _)
    · exact hw.outstanding rfl
    · exact absurd hroom (Nat.not_lt_zero _)
    all_goals cases hfin

end SynReceived

namespace SynSent

variable {called : Bool}

theorem socket_a (h : SynSent c n called) : n.socket c .a = some (c.connect.1.withCall called) :=
  socket_client h.client rfl

theorem socket_b (h : SynSent c n called) : n.socket c .b = none := by
  obtain ⟨called', hlist⟩ := h.server
  exact Config.findSocket_end (o := none) hlist (by simp)

/-- **The way out before the `SYN` is answered.** -/
theorem finishes_iff (h : SynSent c n true) :
    n.Finishes c .a (c.identity .a).fd ↔ n.chan .a ≠ [] := by
  constructor
  · intro hfinishes hnil
    refine not_finishes (P := fun n => SynSent c n true ∧ n.chan .a = []) ?_ ?_ ⟨h, hnil⟩ hfinishes
    · rintro act n n' hact ⟨h, hnil⟩ hs
      cases act with
      | tick z now =>
        obtain rfl := Option.some.inj ((tick_quiet c (h.isConnection z)).symm.trans hs)
        exact ⟨h, hnil⟩
      | deliver z =>
        have hz : n.chan z = [] := by
          cases z
          · exact hnil
          · exact h.back
        simp [step, Net.deliver, hz] at hs
      | call | free | lose | repeatAt => exact hact.elim
    · exact fun n k h hk => h.1.waits hk
  · intro hne
    obtain ⟨packet, rest, hn⟩ := List.exists_cons_of_ne_nil hne
    obtain ⟨n', hn', h', hout⟩ := h.deliver_a hn
    exact .of_leads (.single (i := .deliver .a) trivial hn')
      ((h'.finishes_iff rfl).mpr (by simp [hout]))

end SynSent

/-! ### Read off the sockets -/

theorem isSyn_syn : c.syn.IsSyn := (by decide : ctSyn &&& ctSyn ≠ 0)

theorem isSyn_synAck : c.synAck.IsSyn := (by decide : (ctSyn ||| ctAck) &&& ctSyn ≠ 0)

/-- Every packet of a channel being the same, one is there when any is. -/
theorem exists_isSyn_iff {l : List TCPPacket} {packet : TCPPacket} (hsyn : packet.IsSyn)
    (hall : ∀ it ∈ l, it = packet) : (∃ it ∈ l, it.IsSyn) ↔ l ≠ [] := by
  constructor
  · rintro ⟨it, hit, -⟩
    exact List.ne_nil_of_mem hit
  · intro hne
    obtain ⟨it, rest, rfl⟩ := List.exists_cons_of_ne_nil hne
    have hfirst := hall it (List.mem_cons_self ..)
    exact ⟨it, List.mem_cons_self .., hfirst ▸ hsyn⟩

theorem canFinish_sysSent (hk : k.state = .sysSent) : n.CanFinish c x k ↔ n.Connects c := by
  simp [CanFinish, hk]

theorem canFinish_sysRecv (hk : k.state = .sysRecv) :
    n.CanFinish c x k ↔ n.Connects c ∧ ¬ n.Stuck c x := by
  simp [CanFinish, hk]

theorem canFinish_establisted (hk : k.state = .establisted) :
    n.CanFinish c x k ↔ n.Connects c ∧ ¬ n.Stuck c x := by
  simp [CanFinish, hk]

/-- `closeLab` has been called on a socket that had no close flags exactly when it says so. -/
theorem hasFlag_withCall {socket : Socket} (hcl : socket.clstate = 0) (called : Bool) :
    (socket.withCall called).hasFlag CLOSEState.call = called := by
  cases called with
  | false =>
    rw [Socket.hasFlag, show (socket.withCall false).clstate = 0 from hcl]
    decide
  | true =>
    rw [Socket.hasFlag, show (socket.withCall true).clstate = 0 ||| CLOSEState.call from hcl ▸ rfl]
    decide

theorem state_connect : c.connect.1.state = .sysSent := rfl

theorem state_fresh : c.child.state = .sysRecv := rfl

theorem SynSent.connects_iff {called : Bool} (h : SynSent c n called) :
    n.Connects c ↔ n.chan .a ≠ [] := by
  rw [← exists_isSyn_iff isSyn_syn h.towards]
  simp [Connects, h.socket_a, h.socket_b, state_connect]

theorem SynReceived.connects_iff {called : Side → Bool} (h : SynReceived c n called) :
    n.Connects c ↔ n.chan .b ≠ [] := by
  rw [← exists_isSyn_iff isSyn_synAck h.back]
  simp [Connects, h.socket_a, h.socket_b, state_connect]

theorem HalfOpen.connects_iff (h : HalfOpen c n d) :
    n.Connects c ↔ Msg.acks (d.chan .a) ≠ [] := by
  obtain ⟨k, hk, hstate, -⟩ := h.socket_a
  obtain ⟨called, hk', -⟩ := h.socket_b
  rw [ne_eq, ← h.view.noAck_iff]
  simp [Connects, hk, hk', hstate, state_fresh]

theorem Open.connects (h : Open c n d) : n.Connects c := by
  intro k hk
  have hstates : ∀ x k, n.socket c x = some k → k.state ≠ .sysSent ∧ k.state ≠ .sysRecv := by
    intro x k hk
    rw [(h.rep_of_socket hk).state]
    split_ifs <;> decide
  exact ⟨fun hsent => absurd hsent (hstates _ k hk).1,
    fun _ k' hk' hrecv => absurd hrecv (hstates _ k' hk').2⟩

/-- Before the client is connected no end is in a dead end: nothing has been sent. -/
theorem SynReceived.not_stuck {called : Side → Bool} (h : SynReceived c n called) (x : Side) :
    ¬ n.Stuck c x := by
  have hsocket : ∀ z, ∃ k, n.socket c z = some k ∧ k.hasFlag CLOSEState.finSent = false ∧
      k.sendBack = k.ackBack ∧ k.sendFront = k.ackBack := by
    have hwith : ∀ socket : Socket, socket.clstate = 0 → socket.sendBack = socket.ackBack →
        socket.sendFront = socket.ackBack → ∀ called,
        (socket.withCall called).hasFlag CLOSEState.finSent = false ∧
          (socket.withCall called).sendBack = (socket.withCall called).ackBack ∧
          (socket.withCall called).sendFront = (socket.withCall called).ackBack := by
      intro socket hcl hback hfront called
      cases called with
      | false => exact ⟨by rw [Socket.hasFlag, Socket.withCall]; simp [hcl], hback, hfront⟩
      | true =>
        refine ⟨?_, hback, hfront⟩
        rw [Socket.hasFlag, show (socket.withCall true).clstate =
          0 ||| CLOSEState.call from hcl ▸ rfl]
        decide
    exact Side.forall_of_other .a ⟨_, h.socket_a, hwith c.connect.1 rfl rfl rfl _⟩
      ⟨_, h.socket_b, hwith c.child rfl rfl rfl _⟩
  have hfin : ∀ z, ¬ n.Flag c z CLOSEState.finSent := by
    intro z hflag
    obtain ⟨k, hk, hno, -⟩ := hsocket z
    rw [hflag k hk] at hno
    cases hno
  have hblocked : ∀ z, ¬ n.Blocked c z := by
    rintro z ⟨k, hk, k', -, -, hlost | hroom⟩
    · obtain ⟨k₀, hk₀, -, hback, -⟩ := hsocket z
      obtain rfl := Option.some.inj (hk₀.symm.trans hk)
      exact hlost.1 hback
    · obtain ⟨k₀, hk₀, -, -, hfront⟩ := hsocket z
      obtain rfl := Option.some.inj (hk₀.symm.trans hk)
      rw [NoRoom, hfront, BitVec.sub_self] at hroom
      exact absurd hroom (Nat.not_lt_zero _)
  rintro (hb | hb | ⟨hf, -⟩ | ⟨-, -, hf, -⟩ | ⟨hf, -⟩)
  · exact hblocked _ hb
  · exact hblocked _ hb
  all_goals exact hfin _ hf

/-! ### Which socket a descriptor names -/

/-- A host has the listening socket, if it is the server, and its end of the connection, if there
is one. -/
def Listed (c : Config) (n : Net) (x : Side) : Prop :=
  ∃ (called : Bool) (o : Option Socket), (n.host x).sockets = c.front called x ++ o.toList ∧
    ∀ k ∈ o, k.fd = (c.identity x).fd

theorem listed_client {socket : Socket} (hlist : (n.host .a).sockets = [socket])
    (hfd : socket.fd = (c.identity .a).fd) : Listed c n .a := by
  refine ⟨false, some socket, hlist, fun it hit => ?_⟩
  rw [← Option.some.inj hit, hfd]

theorem Stage.listed (h : Stage c n) : ∀ x, Listed c n x := by
  have hfd : ∀ called, (c.connect.1.withCall called).fd = (c.identity .a).fd :=
    fun called => Config.fd_withCall c.connect.1 called
  cases h with
  | idle h =>
    obtain ⟨called, hlist⟩ := h.server
    refine Side.forall_of_other .a ?_ ⟨called, none, hlist, by simp⟩
    rcases h.client with hnil | ⟨called, hlist⟩
    · exact ⟨false, none, hnil, by simp⟩
    · exact listed_client hlist (Config.fd_withCall c.client called)
  | synSent called' h =>
    obtain ⟨called, hlist⟩ := h.server
    exact Side.forall_of_other .a (listed_client h.client (hfd called'))
      ⟨called, none, hlist, by simp⟩
  | synReceived called' h =>
    obtain ⟨called, hlist⟩ := h.server
    exact Side.forall_of_other .a (listed_client h.client (hfd (called' .a)))
      ⟨called, some _, hlist, fd_b (o := some _)⟩
  | halfOpen d h =>
    obtain ⟨called, called', hlist, -⟩ := h.server
    obtain ⟨k, hlist', hid, -⟩ := h.client
    exact Side.forall_of_other .a (listed_client hlist' (congrArg Identity.fd hid))
      ⟨called, some _, hlist, fd_b (o := some _)⟩
  | opened d h =>
    intro x
    obtain ⟨called, o, hlist, hend⟩ := h.hosts x
    refine ⟨called, o, hlist, fun k hk => ?_⟩
    obtain rfl := Option.mem_def.mp hk
    exact congrArg Identity.fd hend.1

/-- A descriptor names the listening socket, or the end of the connection. -/
theorem Stage.findSocket (h : Stage c n) (hk : (n.host x).findSocket fd = some k) :
    (x = .b ∧ fd = c.listenFd ∧ ∃ called, k = c.listener.withCall called) ∨
      (fd = (c.identity x).fd ∧ n.socket c x = some k) := by
  obtain ⟨called, o, hlist, ho⟩ := h.listed x
  rcases Config.findSocket_cases hlist hk with ⟨rfl, ⟨rfl, rfl⟩ | rfl⟩
  · exact Or.inl ⟨rfl, Config.fd_withCall c.listener called, called, rfl⟩
  · exact Or.inr ⟨ho k rfl, Config.findSocket_end hlist ho⟩

/-- **The listening socket.** `closeLab` on it never returns. -/
theorem Stage.not_finishes_listener (h : Stage c n) : ¬ n.Finishes c .b c.listenFd := by
  refine not_finishes (P := Stage c) (fun act n n' _ h hs => h.step hs) ?_ h
  intro n k h hk
  rcases h.findSocket hk with ⟨-, -, called, rfl⟩ | ⟨hfd, -⟩
  · exact closeLabExits_withCall (by decide : TCPState.listen ≠ .closed) rfl called
  · exact absurd hfd c.fd_lt.ne

/-! ### Every stage -/

theorem Idle.socket_b (h : Idle c n) : n.socket c .b = none := by
  obtain ⟨called, hlist⟩ := h.server
  exact Config.findSocket_end (o := none) hlist (by simp)

theorem Idle.canFinish (h : Idle c n) (hk : n.socket c x = some k) :
    n.Finishes c x (c.identity x).fd ∧ n.CanFinish c x k := by
  have hclosed : k.state = .closed := by
    cases x with
    | a =>
      rcases h.client with hnil | ⟨called, hlist⟩
      · simp [socket, SocketList.findSocket, hnil] at hk
      · obtain ⟨rfl, -⟩ := findSocket_a hlist hk
        exact Config.state_withCall c.client called
    | b =>
      rw [h.socket_b] at hk
      cases hk
  exact ⟨finishes_of_exits hk (by simp [closeLabExits, hclosed]), Or.inl hclosed⟩

/-- What `closeLab` needs, stage by stage. -/
theorem Stage.finishes_iff (h : Stage c n) (hk : (n.host x).findSocket fd = some k)
    (hcall : k.hasFlag CLOSEState.call = true) : n.Finishes c x fd ↔ n.CanFinish c x k := by
  rcases h.findSocket hk with ⟨rfl, rfl, called, rfl⟩ | ⟨rfl, hsocket⟩
  · have hlisten : c.listener.state = .listen := rfl
    exact iff_of_false h.not_finishes_listener (by simp [CanFinish, hlisten])
  have hsome : (n.socket c x).isSome := by rw [hsocket, Option.isSome_some]
  cases h with
  | idle h =>
    obtain ⟨hfinishes, hcan⟩ := h.canFinish hsocket
    exact iff_of_true hfinishes hcan
  | synSent called h =>
    cases x with
    | a =>
      obtain rfl := Option.some.inj (h.socket_a.symm.trans hsocket)
      rw [hasFlag_withCall rfl] at hcall
      subst hcall
      rw [h.finishes_iff, canFinish_sysSent (Config.state_withCall ..), h.connects_iff]
    | b =>
      rw [h.socket_b] at hsocket
      cases hsocket
  | synReceived called h =>
    have hcalled : called x = true := by
      cases x with
      | a =>
        obtain rfl := Option.some.inj (h.socket_a.symm.trans hsocket)
        exact (hasFlag_withCall rfl (called .a)).symm.trans hcall
      | b =>
        obtain rfl := Option.some.inj (h.socket_b.symm.trans hsocket)
        exact (hasFlag_withCall rfl (called .b)).symm.trans hcall
    rw [h.finishes_iff hcalled, ← h.connects_iff]
    cases x with
    | a =>
      obtain rfl := Option.some.inj (h.socket_a.symm.trans hsocket)
      rw [canFinish_sysSent (Config.state_withCall ..)]
    | b =>
      obtain rfl := Option.some.inj (h.socket_b.symm.trans hsocket)
      rw [canFinish_sysRecv (Config.state_withCall ..), and_iff_left (h.not_stuck .b)]
  | halfOpen d h =>
    rw [h.finishes_iff hsome ((h.view.ends x k hsocket).call.symm.trans hcall), ← h.connects_iff,
      ← h.view.stuck_iff]
    cases x with
    | a =>
      obtain ⟨k₀, hk₀, hstate, hrep⟩ := h.socket_a
      obtain rfl := Option.some.inj (hk₀.symm.trans hsocket)
      have hopen : (d.peer .a).closed = false := (h.inv.open_of_fin h.snd_fin).2
      rw [canFinish_establisted (by rw [hrep.state, hopen]; rfl)]
    | b =>
      obtain ⟨called, hk₀, -⟩ := h.socket_b
      obtain rfl := Option.some.inj (hk₀.symm.trans hsocket)
      rw [canFinish_sysRecv (Config.state_withCall ..)]
  | opened d h =>
    have hrep := h.rep_of_socket hsocket
    by_cases hclosed : k.state = .closed
    · exact iff_of_true (finishes_of_exits hsocket (by simp [closeLabExits, hclosed]))
        (Or.inl hclosed)
    · have hopen : k.state = .establisted := by
        rw [hrep.state] at hclosed ⊢
        split_ifs at hclosed ⊢
        · exact absurd rfl hclosed
        · rfl
      rw [h.finishes_iff hsome (hrep.hasFlag_call.symm.trans hcall), canFinish_establisted hopen,
        h.view.stuck_iff, and_iff_right h.connects]

end Net

/-- A client at port 1 and a server at port 2. -/
def Config.one : Config where
  toHandshake := { Handshake.zero with childFd := 1, clientPort := 1, serverPort := 2 }
  port_ne := Or.inl (by decide)
  listens := Or.inl rfl
  fd_lt := by decide

namespace Net

theorem reachable_get {c : Config} {acts : List Action}
    (hs : (Run.run (step c) acts c.connecting).isSome) :
    ((Run.run (step c) acts c.connecting).get hs).Reachable c :=
  ⟨acts, Or.inr (Option.some_get hs).symm⟩

end Net

end LabNetstack
