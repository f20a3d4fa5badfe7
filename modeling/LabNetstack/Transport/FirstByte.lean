import LabNetstack.Transport.CloseLab

/-!
# The first byte of a half-open connection

The client is connected as soon as the `SYN` is answered, and may write at once. The server's end
waits for the acknowledgement of that answer, and takes nothing else: the client's data carries no
`CT_ACK`, and the handshake has no timer that would send the acknowledgement again. So the first
byte gets through exactly if the acknowledgement does.

## Main results

* `Net.HalfOpen.takes_iff` — the first byte of a connection that is still to be acknowledged
* `Net.Reachable.firstByte_iff` — the same, read off the sockets
-/

namespace LabNetstack

open RingMemory StopAndWait

namespace Net

variable (c : Config) (n : Net)

/-- The timers and the channels can connect the server's end and bring it `byte` to read. -/
def Takes (byte : Byte) : Prop :=
  ∃ n', n.Leads c n' ∧ ∃ k ∈ n'.socket c .b, k.state = .establisted ∧ k.recvFront ≠ k.recvBack ∧
    k.readBuffer k.recvBack.toNat = byte

variable {c n} {d d' : Duo} {k k' : Socket} {byte : Byte}

/-! ### Both ends connected -/

/-- **Getting through.** What a connected client has written gets to the other end, if there is
room for it. -/
theorem exists_accepted (hinv : d.Inv) (hfin : (d.peer .a).snd.fin = false)
    (hwritten : (d.peer .a).snd.written ≠ [])
    (hroom : (d.peer .a).snd.written.length ≤ (d.peer .b).rcv.taken + cap) :
    ∃ d', d.Leads d' ∧ (d'.peer .a).snd.fin = false ∧ (d'.peer .b).rcv.accepted ≠ [] := by
  obtain ⟨d₁, hleads, hquiet, hinv₁, hfin₁⟩ := Duo.exists_quiet (x := .a)
    (P := fun e => e.Inv ∧ (e.peer .a).snd.fin = false)
    (fun z e e' he hd => ⟨he.1.deliver hd, by rw [Duo.deliver_snd_fin hd, he.2]⟩) ⟨hinv, hfin⟩
  by_cases hnil : (d₁.peer .b).rcv.accepted = []
  · have hidle : (d₁.peer .a).snd.acked = 0 := by
      have hle := (hinv₁.dir .a).acked_le
      rw [show Side.a.other = .b from rfl, hnil] at hle
      exact Nat.le_zero.mp hle
    have hsame := (Duo.Leads.history hleads .a).1
    have htaken := (Duo.Leads.history hleads .b).2.1
    obtain ⟨d₂, hdrains, hdone⟩ := hinv₁.drain hquiet hfin₁
      (by rw [show Side.a.other = .b from rfl, hsame, htaken]; exact hroom)
      (by rw [show Side.a.other = .b from rfl, hnil, hidle]; rfl)
    refine ⟨d₂, Run.Leads.trans hleads hdrains.leads, by rw [hdrains.sender]; exact hfin₁, ?_⟩
    intro hnil₂
    have hle := ((hinv₁.leads hdrains.leads).dir .a).acked_le
    rw [show Side.a.other = .b from rfl, hnil₂, hdone, hsame] at hle
    exact hwritten (List.length_eq_zero_iff.mp (Nat.le_zero.mp hle))
  · exact ⟨d₁, hleads, hfin₁, hnil⟩

/-- The oldest byte that has not been read yet. -/
theorem head_unread {p : Peer} (h : k.Rep p) (hp : p.Bounded)
    (hne : p.rcv.accepted.drop p.rcv.taken ≠ []) :
    k.recvFront ≠ k.recvBack ∧
      (p.rcv.accepted.drop p.rcv.taken).head? = some (k.readBuffer k.recvBack.toNat) := by
  constructor
  · intro heq
    have hunread := h.toNat_unread hp
    rw [heq, BitVec.sub_self] at hunread
    exact hne (List.drop_eq_nil_of_le (Nat.le_of_sub_eq_zero hunread.symm))
  · rw [h.readRing.head? hne, h.recvBack, BitVec.toNat_ofNat]
    rfl

/-- The oldest byte that has not been acknowledged yet. -/
theorem head_unacked {p : Peer} (h : k.Rep p) (hp : p.Bounded) (hne : k.sendFront ≠ k.ackBack) :
    (p.snd.written.drop p.snd.acked).head? = some (k.writeBuffer k.ackBack.toNat) := by
  have hwritten : p.snd.written.drop p.snd.acked ≠ [] := by
    intro hnil
    have hle := hp.acked_le_sent.trans hp.sent_le
    have hall : p.snd.written.length = p.snd.acked :=
      (List.drop_eq_nil_iff.mp hnil).antisymm hle
    exact hne (by rw [h.sendFront, h.ackBack, hall])
  rw [h.writeRing.head? hwritten, h.ackBack, BitVec.toNat_ofNat]
  rfl

namespace HalfOpen

/-- Nothing has been acknowledged to the client, nothing has been read from it. -/
theorem acked_a (h : HalfOpen c n d) : (d.peer .a).snd.acked = 0 ∧ (d.peer .b).rcv.taken = 0 := by
  obtain ⟨_, _, _, hpeer⟩ := h.server
  have hle := (h.inv.dir .a).acked_le
  rw [show Side.a.other = .b from rfl, hpeer] at hle
  exact ⟨Nat.le_zero.mp hle, by rw [hpeer]; rfl⟩

/-- With no acknowledgement in flight the server's end keeps waiting. -/
theorem not_takes (h : HalfOpen c n d) (hnone : Msg.acks (d.chan .a) = []) : ¬ n.Takes c byte := by
  rintro ⟨n', hleads, k, hk, hstate, -⟩
  obtain ⟨d', h', -⟩ : ∃ d, HalfOpen c n' d ∧ Msg.acks (d.chan .a) = [] := by
    refine Run.Leads.invariant (q := fun n => ∃ d, HalfOpen c n d ∧ Msg.acks (d.chan .a) = []) ?_
      hleads ⟨d, h, hnone⟩
    rintro act n₁ n₂ hact ⟨d₁, h₁, hnone₁⟩ hs
    exact (h₁.step hact hs).elim And.right fun hacks => absurd hnone₁ hacks.1
  obtain ⟨called, hk', -⟩ := h'.socket_b
  obtain rfl := Option.some.inj (hk'.symm.trans hk)
  rw [Config.state_withCall] at hstate
  exact absurd hstate (by decide : TCPState.sysRecv ≠ .establisted)

/-- **The first byte.** -/
theorem takes_iff (h : HalfOpen c n d) (hk : n.socket c .a = some k)
    (hwritten : k.sendFront ≠ k.ackBack) :
    n.Takes c (k.writeBuffer k.ackBack.toNat) ↔ Msg.acks (d.chan .a) ≠ [] := by
  refine ⟨fun htakes hnone => h.not_takes hnone htakes, fun hacks => ?_⟩
  obtain ⟨k₀, hk₀, -, hrep⟩ := h.socket_a
  obtain rfl := Option.some.inj (hk₀.symm.trans hk)
  obtain ⟨hacked, htaken⟩ := h.acked_a
  have hfirst := head_unacked hrep (h.inv.bounded .a) hwritten
  rw [hacked, List.drop_zero] at hfirst
  have hne : (d.peer .a).snd.written ≠ [] := by
    rintro hnil
    simp [hnil] at hfirst
  have hfin : (d.peer .a).snd.fin = false := by
    by_contra hf
    have hall := (h.inv.dir .a).fin_drained (by simpa using hf)
    rw [hacked] at hall
    exact hne (List.length_eq_zero_iff.mp hall.symm)
  -- the handshake first, and then the data
  obtain ⟨n₁, d₁, hleads, h₁, hd₁, -⟩ := h.opens hacks
  have hsame := (Duo.deliver_history hd₁ .a).1
  have htaken₁ := (Duo.deliver_history hd₁ .b).2.1
  obtain ⟨d₂, hleads', hfin₂, haccepted⟩ := exists_accepted h₁.inv
    (by rw [Duo.deliver_snd_fin hd₁, hfin]) (by rw [hsame]; exact hne) (by
      have hring := (h.inv.dir .a).ring_le
      rw [hsame, htaken₁, htaken]
      omega)
  obtain ⟨n₂, hleads₂, h₂⟩ := h₁.leads hleads'
  have hsome : (n.socket c .b).isSome := by
    obtain ⟨called, hb, -⟩ := h.socket_b
    rw [hb, Option.isSome_some]
  have hleads₀ := Run.Leads.trans hleads hleads₂
  obtain ⟨k', hk'⟩ := Option.isSome_iff_exists.mp (Leads.findSocket c hleads₀ hsome)
  have hrep' := h₂.rep_of_socket hk'
  have htaken₂ : (d₂.peer .b).rcv.taken = 0 :=
    ((Duo.Leads.history hleads' .b).2.1.trans htaken₁).trans htaken
  obtain ⟨hunread, hhead⟩ := head_unread hrep' (h₂.inv.bounded .b)
    (by rw [htaken₂]; exact haccepted)
  refine ⟨n₂, hleads₀, k', hk', ?_, hunread, ?_⟩
  · rw [hrep'.state, show (d₂.peer .b).closed = false from (h₂.inv.open_of_fin hfin₂).2]
    rfl
  · obtain ⟨more, hmore⟩ := (h₂.inv.dir .a).accepted_isPrefix
    rw [(Duo.Leads.history hleads' .a).1, hsame, show Side.a.other = .b from rfl] at hmore
    rw [← hmore, List.head?_append_of_ne_nil _ haccepted] at hfirst
    rw [htaken₂, List.drop_zero] at hhead
    exact Option.some.inj (hhead.symm.trans hfirst)

end HalfOpen

/-! ### Read off the sockets -/

theorem Stage.takes_iff (h : Stage c n) (ha : n.socket c .a = some k)
    (hb : n.socket c .b = some k') (hclient : k.state = .establisted)
    (hserver : k'.state = .sysRecv) (hwritten : k.sendFront ≠ k.ackBack) :
    n.Takes c (k.writeBuffer k.ackBack.toNat) ↔ ∃ packet ∈ n.chan .a, packet.IsAck := by
  cases h with
  | idle h =>
    rw [h.socket_b] at hb
    cases hb
  | synSent called h =>
    rw [h.socket_b] at hb
    cases hb
  | synReceived called h =>
    obtain rfl := Option.some.inj (h.socket_a.symm.trans ha)
    rw [Config.state_withCall] at hclient
    exact absurd hclient (by decide : TCPState.sysSent ≠ .establisted)
  | halfOpen d h =>
    rw [h.takes_iff ha hwritten, ne_eq, ← h.view.noAck_iff]
    simp
  | opened d h =>
    rw [(h.rep_of_socket hb).state] at hserver
    split_ifs at hserver

/-- **Where a half-open connection recovers.** With the client connected and the server's end still
waiting, the timers and loss-free deliveries bring the client's first byte to the server's end
exactly when an acknowledgement is in flight. -/
theorem Reachable.firstByte_iff (h : n.Reachable c) (ha : n.socket c .a = some k)
    (hb : n.socket c .b = some k') (hclient : k.state = .establisted)
    (hserver : k'.state = .sysRecv) (hwritten : k.sendFront ≠ k.ackBack) :
    n.Takes c (k.writeBuffer k.ackBack.toNat) ↔ ∃ packet ∈ n.chan .a, packet.IsAck :=
  h.stage.takes_iff ha hb hclient hserver hwritten

/-- The handshake up to the client's acknowledgement, and a byte that it writes. -/
def firstWrite : List Action := [.deliver .a, .deliver .b, .call .a 0 (.write [7])]

theorem firstByte_iff_firstWrite :
    let n := (Run.run (step Config.one) firstWrite Config.one.connecting).get (by decide)
    let k := (n.socket Config.one .a).get (by decide)
    n.Takes Config.one (k.writeBuffer k.ackBack.toNat) ↔ ∃ packet ∈ n.chan .a, packet.IsAck := by
  intro n k
  have hb : n.socket Config.one .b = some ((n.socket Config.one .b).get (by decide)) :=
    (Option.some_get _).symm
  exact (reachable_get (by decide)).firstByte_iff (Option.some_get _).symm hb (by decide)
    (by decide) (by decide)

/-- The acknowledgement of the handshake is lost before the client writes. -/
def lostHandshake : List Action := [.deliver .a, .deliver .b, .lose .a 0, .call .a 0 (.write [7])]

/-- A half-open connection does not always recover. -/
theorem not_firstByte : ¬ ∀ (c : Config) (n : Net) (k k' : Socket), n.Reachable c →
    n.socket c .a = some k → n.socket c .b = some k' → k.state = .establisted →
    k'.state = .sysRecv → k.sendFront ≠ k.ackBack →
    n.Takes c (k.writeBuffer k.ackBack.toNat) := by
  intro hclaim
  let n := (Run.run (step Config.one) lostHandshake Config.one.connecting).get (by decide)
  have hreach : n.Reachable Config.one := reachable_get (by decide)
  have ha : n.socket Config.one .a = some ((n.socket Config.one .a).get (by decide)) :=
    (Option.some_get _).symm
  have hb : n.socket Config.one .b = some ((n.socket Config.one .b).get (by decide)) :=
    (Option.some_get _).symm
  have hrecovers := hclaim _ n _ _ hreach ha hb (by decide) (by decide) (by decide)
  exact absurd ((hreach.stage.takes_iff ha hb (by decide) (by decide) (by decide)).mp hrecovers)
    (by decide)

end Net

end LabNetstack
