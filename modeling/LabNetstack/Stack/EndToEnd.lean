import LabNetstack.Routing.Network
import LabNetstack.Stack.Connection

/-!
# From one application to the other

The layers put together, as `initTransportLayer` does: hosts with sockets above and routes below, and
links between them that lose frames, carry them twice, and let them overtake each other. A call of
an application, a round of the timer or a segment may make a host send; what it sends goes through
`sendIPPacket`, from host to host along whatever routes there are at the time, and back up through
the callbacks of three layers, if it arrives at all.

The network below comes to this: what `handleTCPMain` is called with has been sent before, by some
host, as it is. The connection above asks for no more. So the bytes that one application reads are
those that the other has written, through everything that lies between them.

## Main results

* `Stack.Accounted.step` — one event, as the hosts see it above their network layers
* `Stack.run_stream` — a connection from end to end
-/

namespace LabNetstack

open RingMemory

namespace Stack

variable {ι : Type*} [DecidableEq ι] (topo : Topology ι)

/-- A call or a round of the timer on a host; something below the transport layer; or a copy that
reaches the end of its link. -/
inductive Event (ι : Type*)
  | call (v : ι) (action : Process.Action)
  | network (event : Network.Event ι)
  | receive (i : ℕ) (chance : Chance) (readMem writeMem : Mem Byte)

/-- `handleTCPMain`, as it is registered with `setTCPPacketReceiveCallback`. -/
def main (readMem writeMem : Mem Byte) : TCPPacketReceiveCallback Upper :=
  fun _ data len tcpHeader ipHeader upper => upper.step
    (.segment readMem writeMem ⟨ipHeader.src, ipHeader.dst, tcpHeader, data.take len.toNat⟩)

/-- How `sendTCPPacket` ends. -/
def hand (v : ι) (packet : TCPPacket) : Network.Event ι :=
  .call v (.sendIPPacket packet.src packet.dst IPPROTO_TCP packet.bytes true)

/-- What the transport layer has sent beyond the first `n` segments goes out. -/
def flush (v : ι) (n : ℕ) (s : Mesh ι Upper) : Option (Mesh ι Upper) :=
  Run.run (Network.step topo []) (((s.host v).upper.sent.drop n).map (hand v)) s

def setUpper (s : Mesh ι Upper) (v : ι) (upper : Upper) : Mesh ι Upper :=
  { s with host := Function.update s.host v { s.host v with upper := upper } }

/-- Nobody but the transport layer sends segments. -/
def step : Event ι → Mesh ι Upper → Option (Mesh ι Upper)
  | .call _ (.segment _ _ _), _ => none
  | .call v action, s =>
    ((s.host v).upper.step action).bind fun upper =>
      flush topo v (s.host v).upper.sent.length (setUpper s v upper)
  | .network (.receive _ _), _ => none
  | .network (.call v (.sendIPPacket src dest proto buf noRetry)), s =>
    if proto = IPPROTO_TCP then none
    else Network.step topo [] (.call v (.sendIPPacket src dest proto buf noRetry)) s
  | .network event, s => Network.step topo [] event s
  | .receive i chance readMem writeMem, s =>
    match s.air[i]? with
    | none => none
    | some (v, _) =>
      (Network.step topo [main readMem writeMem] (.receive i chance) s).bind
        (flush topo v (s.host v).upper.sent.length)

/-- `initTransportLayer` on every host. -/
def start : Mesh ι Upper :=
  Network.start topo fun v =>
    Upper.start (((topo.devices v).head?.map Device.ipAddr).getD 0)

/-- The hosts above their network layers. -/
def uppers (s : Mesh ι Upper) : ι → Upper := fun v => (s.host v).upper

/-- Whatever is on the links has been sent, and so has every segment among it. -/
def Accounted (s : Mesh ι Upper) : Prop :=
  ∃ events, Network.Genuine topo events s ∧ ∀ u src dest buf noRetry,
    .call u (.sendIPPacket src dest IPPROTO_TCP buf noRetry) ∈ events →
      ∃ packet ∈ (uppers s u).sent, packet.src = src ∧ packet.dst = dest ∧ packet.bytes = buf

/-- An event as the hosts see it above their network layers. -/
inductive Moves (up : ι → Upper) : Event ι → (ι → Upper) → Prop
  | network (event : Network.Event ι) : Moves up (.network event) up
  | nothing (i : ℕ) (chance : Chance) (readMem writeMem : Mem Byte) :
      Moves up (.receive i chance readMem writeMem) up
  | call (v : ι) (action : Process.Action) (upper : Upper) (h : (up v).step action = some upper) :
      Moves up (.call v action) (Function.update up v upper)
  | segment (i : ℕ) (chance : Chance) (readMem writeMem : Mem Byte) (u v : ι) (packet : TCPPacket)
      (upper : Upper) (hsent : packet ∈ (up u).sent)
      (h : (up v).step (.segment readMem writeMem packet) = some upper) :
      Moves up (.receive i chance readMem writeMem) (Function.update up v upper)

variable {topo} {s s' : Mesh ι Upper} {event : Event ι} {v : ι} {upper : Upper} {n : ℕ}

theorem uppers_setUpper : uppers (setUpper s v upper) = Function.update (uppers s) v upper := by
  funext w
  by_cases hw : w = v
  · subst hw
    simp [uppers, setUpper]
  · simp [uppers, setUpper, hw]

/-- A host takes a step, or nothing happens to it. -/
theorem Moves.step_or {up up' : ι → Upper} (h : Moves up event up') (w : ι) :
    up' w = up w ∨ ∃ action, (up w).step action = some (up' w) := by
  have hupdate : ∀ v action upper, (up v).step action = some upper →
      Function.update up v upper w = up w ∨
        ∃ action, (up w).step action = some (Function.update up v upper w) := by
    intro v action upper hstep
    by_cases hw : w = v
    · subst hw
      rw [Function.update_self]
      exact Or.inr ⟨action, hstep⟩
    · exact Or.inl (Function.update_of_ne hw ..)
  cases h with
  | network | nothing => exact Or.inl rfl
  | call v action upper hstep => exact hupdate v action upper hstep
  | segment i chance readMem writeMem u v packet upper hsent hstep => exact hupdate v _ upper hstep

/-- What has been sent stays sent. -/
theorem Moves.sent {up up' : ι → Upper} (h : Moves up event up') {u : ι} {packet : TCPPacket}
    (hpacket : packet ∈ (up u).sent) : packet ∈ (up' u).sent := by
  rcases h.step_or u with hsame | ⟨action, hstep⟩
  · rwa [hsame]
  · rw [Upper.step_sent hstep]
    exact List.mem_append_left _ hpacket

/-- What has been written stays written. -/
theorem Moves.written {up up' : ι → Upper} (h : Moves up event up') (u : ι) (fd : ℤ) :
    (up u).written fd <+: (up' u).written fd := by
  rcases h.step_or u with hsame | ⟨action, hstep⟩
  · rw [hsame]
  · rw [Upper.step_written hstep]
    exact List.prefix_append ..

/-- The descriptors stay in order. -/
theorem Moves.ordered {up up' : ι → Upper} (h : Moves up event up')
    (hup : ∀ v, Process.Ordered (up v).process.list) (w : ι) :
    Process.Ordered (up' w).process.list := by
  rcases h.step_or w with hsame | ⟨action, hstep⟩
  · exact hsame ▸ hup w
  · exact (hup w).step rfl (Upper.step_process hstep)

/-! ### One event -/

/-- Without callbacks nothing reaches the hosts above their network layers. -/
theorem uppers_of_nil {events : List (Network.Event ι)} {event : Network.Event ι}
    (h : Network.Genuine topo events s) (hs : Network.step topo [] event s = some s') :
    uppers s' = uppers s := by
  funext w
  rcases (h.step hs).2 w with hsame | ⟨u, src, dest, buf, id, -, -, -, hcall⟩
  · exact hsame
  · exact (Option.some.inj hcall).symm

/-- **What a host sends is on the links**, as far as it gets there. -/
theorem Accounted.run (h : Accounted topo s) {packets : List TCPPacket}
    (hpackets : ∀ packet ∈ packets, packet ∈ (uppers s v).sent)
    (hrun : Run.run (Network.step topo []) (packets.map (hand v)) s = some s') :
    Accounted topo s' ∧ uppers s' = uppers s := by
  induction packets generalizing s with
  | nil => exact Option.some.inj hrun ▸ ⟨h, rfl⟩
  | cons packet packets ih =>
    obtain ⟨t, ht, hrun⟩ := Option.bind_eq_some_iff.mp hrun
    obtain ⟨events, hgenuine, haccounted⟩ := h
    have hsame := uppers_of_nil hgenuine ht
    have hnext : Accounted topo t := by
      refine ⟨_, (hgenuine.step ht).1, fun u src dest buf noRetry hmem => ?_⟩
      rw [hsame]
      rcases List.mem_append.mp hmem with hold | hnew
      · exact haccounted u src dest buf noRetry hold
      · simp only [hand, List.mem_singleton, Network.Event.call.injEq,
          NetworkLayer.Action.sendIPPacket.injEq] at hnew
        obtain ⟨rfl, rfl, rfl, -, rfl, -⟩ := hnew
        exact ⟨packet, hpackets packet (List.mem_cons_self ..), rfl, rfl, rfl⟩
    obtain ⟨hlast, hsame'⟩ := ih hnext
      (fun packet' hmem => hsame.symm ▸ hpackets packet' (List.mem_cons_of_mem _ hmem)) hrun
    exact ⟨hlast, hsame'.trans hsame⟩

theorem Accounted.flush (h : Accounted topo s) (hrun : flush topo v n s = some s') :
    Accounted topo s' ∧ uppers s' = uppers s :=
  h.run (fun _ hpacket => List.mem_of_mem_drop hpacket) hrun

/-- The links do not depend on what is above the network layer. -/
theorem Accounted.setUpper (h : Accounted topo s)
    (hsent : ∀ packet ∈ (uppers s v).sent, packet ∈ upper.sent) :
    Accounted topo (setUpper s v upper) := by
  obtain ⟨events, hgenuine, haccounted⟩ := h
  refine ⟨events, ⟨fun w => ?_, fun w => ?_, hgenuine.air⟩, fun u src dest buf noRetry hmem => ?_⟩
  · by_cases hw : w = v
    · subst hw
      simp only [Stack.setUpper, Function.update_self]
      have hquiet := hgenuine.quiet w
      exact ⟨⟨hquiet.linked.devices, hquiet.linked.manRouteTable, hquiet.linked.onlineRouteTable,
        hquiet.linked.tmpRouteTable⟩, hquiet.arpList, hquiet.resendIPTaskList⟩
    · simp only [Stack.setUpper, Function.update_of_ne hw]
      exact hgenuine.quiet w
  · by_cases hw : w = v
    · subst hw
      simp only [Stack.setUpper, Function.update_self]
      exact hgenuine.wire w
    · simp only [Stack.setUpper, Function.update_of_ne hw]
      exact hgenuine.wire w
  · obtain ⟨packet, hpacket, hfields⟩ := haccounted u src dest buf noRetry hmem
    refine ⟨packet, ?_, hfields⟩
    rw [uppers_setUpper]
    by_cases hu : u = v
    · subst hu
      rw [Function.update_self]
      exact hsent packet hpacket
    · rwa [Function.update_of_ne hu]

omit [DecidableEq ι] in
/-- What `handleTCPMain` is called with has been sent. -/
theorem Accounted.segment {events : List (Network.Event ι)}
    (haccounted : ∀ u src dest buf noRetry,
      .call u (.sendIPPacket src dest IPPROTO_TCP buf noRetry) ∈ events →
        ∃ packet ∈ (uppers s u).sent, packet.src = src ∧ packet.dst = dest ∧ packet.bytes = buf)
    {readMem writeMem : Mem Byte} {upper' : Upper}
    (h : Network.Arrives topo [main readMem writeMem] events v upper upper') :
    ∃ u, ∃ packet ∈ (uppers s u).sent,
      upper.step (.segment readMem writeMem packet) = some upper' := by
  obtain ⟨u, src, dest, buf, id, hhanded, -, -, hcall⟩ := h
  generalize hproto : IPPROTO_TCP = proto at hhanded
  cases hhanded with
  | broadcast _ _ => exact absurd hproto (by decide)
  | sendIPPacket hsend =>
    subst hproto
    obtain ⟨packet, hpacket, rfl, rfl, rfl⟩ := haccounted u src dest buf _ hsend
    refine ⟨u, packet, hpacket, ?_⟩
    have hread : TCPHeader.layout.read packet.bytes = packet.tcpHeader :=
      TCPHeader.layout.read_append _ _
    have hdata : packet.bytes.drop 20 = packet.data := TCPHeader.layout.drop_append _ _
    have hlen : ((packet.bytes.length - 20 : ℕ) : ℤ).toNat = packet.data.length := by
      rw [Int.toNat_natCast, packet.length_bytes, Nat.add_sub_cancel]
    simp only [List.foldlM_cons, List.foldlM_nil, bind_pure] at hcall
    rw [main, hread, hdata, hlen, List.take_length] at hcall
    exact hcall

/-- **One event.** Above the network layers it is a call on a host, or a segment that has been sent,
or nothing. -/
theorem Accounted.step (h : Accounted topo s) (hs : step topo event s = some s') :
    Accounted topo s' ∧ Moves (uppers s) event (uppers s') := by
  cases event with
  | call v action =>
    have hs : ((s.host v).upper.step action).bind (fun upper =>
        Stack.flush topo v (s.host v).upper.sent.length (Stack.setUpper s v upper)) = some s' := by
      cases action with
      | segment => cases hs
      | _ => exact hs
    obtain ⟨upper, hupper, hs⟩ := Option.bind_eq_some_iff.mp hs
    have hset : Accounted topo (Stack.setUpper s v upper) := by
      refine h.setUpper fun packet hpacket => ?_
      rw [Upper.step_sent hupper]
      exact List.mem_append_left _ hpacket
    obtain ⟨hnext, hsame⟩ := hset.flush hs
    refine ⟨hnext, ?_⟩
    rw [hsame, uppers_setUpper]
    exact .call v action upper hupper
  | network event =>
    have hstep : Network.step topo [] event s = some s' ∧ ∀ u src dest buf noRetry,
        event ≠ .call u (.sendIPPacket src dest IPPROTO_TCP buf noRetry) := by
      cases event with
      | receive => cases hs
      | call u action =>
        cases action with
        | sendIPPacket src dest proto buf noRetry =>
          rw [Stack.step] at hs
          split_ifs at hs with hproto
          exact ⟨hs, fun u src dest buf noRetry heq => by simp_all⟩
        | _ => exact ⟨hs, by simp⟩
      | _ => exact ⟨hs, by simp⟩
    obtain ⟨hstep, hother⟩ := hstep
    obtain ⟨events, hgenuine, haccounted⟩ := h
    have hsame := uppers_of_nil hgenuine hstep
    refine ⟨⟨_, (hgenuine.step hstep).1, fun u src dest buf noRetry hmem => ?_⟩,
      hsame ▸ .network event⟩
    rw [hsame]
    rcases List.mem_append.mp hmem with hold | hnew
    · exact haccounted u src dest buf noRetry hold
    · exact absurd (List.mem_singleton.mp hnew).symm (hother u src dest buf noRetry)
  | receive i chance readMem writeMem =>
    rw [Stack.step] at hs
    split at hs
    · cases hs
    next v rest hi =>
      obtain ⟨t, ht, hs⟩ := Option.bind_eq_some_iff.mp hs
      obtain ⟨events, hgenuine, haccounted⟩ := h
      obtain ⟨hgenuine', hupper⟩ := hgenuine.step ht
      -- only the host at the end of the link takes part
      have hothers : ∀ w, w ≠ v → uppers t w = uppers s w := by
        intro w hw
        simp only [Network.step, hi] at ht
        obtain ⟨host, -, rfl⟩ := Option.map_eq_some_iff.mp ht
        simp only [uppers, Mesh.host_put, if_neg hw]
      have hupdate : uppers t = Function.update (uppers s) v (uppers t v) := by
        funext w
        by_cases hw : w = v
        · subst hw
          rw [Function.update_self]
        · rw [Function.update_of_ne hw, hothers w hw]
      have hmoves : Moves (uppers s) (.receive i chance readMem writeMem) (uppers t) := by
        rcases hupper v with hsame | harrives
        · have hsame : uppers t v = uppers s v := hsame
          rw [hupdate, hsame, Function.update_eq_self]
          exact .nothing ..
        · obtain ⟨u, packet, hsent, hstep⟩ := Accounted.segment haccounted harrives
          rw [hupdate]
          exact .segment i chance readMem writeMem u v packet _ hsent hstep
      have hmid : Accounted topo t := by
        refine ⟨_, hgenuine', fun u src dest buf noRetry hmem => ?_⟩
        rcases List.mem_append.mp hmem with hold | hnew
        · obtain ⟨packet, hpacket, hfields⟩ := haccounted u src dest buf noRetry hold
          exact ⟨packet, hmoves.sent hpacket, hfields⟩
        · cases List.mem_singleton.mp hnew
      obtain ⟨hnext, hsame⟩ := hmid.flush hs
      exact ⟨hnext, hsame.symm ▸ hmoves⟩

/-! ### A connection -/

variable {c : Connection ι} {before events : List (Event ι)} {s₀ : Mesh ι Upper}

/-- The condition on an event: the applications of the connection do what they may, and nobody takes
its numbers. -/
def Orderly (topo : Topology ι) (c : Connection ι) (event : Event ι) (s : Mesh ι Upper) : Prop :=
  (match event with
    | .call v action => c.Allows v (uppers s v).process action
    | .network _ | .receive _ _ _ _ => True) ∧
  ∀ s' ∈ step topo event s, c.Exclusive (uppers s')

instance [Fintype ι] (c : Connection ι) (event : Event ι) (s : Mesh ι Upper) :
    Decidable (Orderly topo c event s) := by
  cases event <;> unfold Orderly <;> infer_instance

omit [DecidableEq ι] in
theorem accounted_start : Accounted topo (start topo) :=
  ⟨[], Network.genuine_start _, fun _ _ _ _ _ hmem => absurd hmem List.not_mem_nil⟩

/-- What is known of every state. -/
theorem run_accounted (hrun : Run.run (step topo) events (start topo) = some s) :
    Accounted topo s ∧ ∀ v, Process.Ordered (uppers s v).process.list := by
  refine Run.invariant (p := fun s => Accounted topo s ∧
    ∀ v, Process.Ordered (uppers s v).process.list) ?_ ?_ hrun
  · rintro event t t' ⟨haccounted, hordered⟩ hstep
    obtain ⟨hnext, hmoves⟩ := haccounted.step hstep
    exact ⟨hnext, hmoves.ordered hordered⟩
  · exact ⟨accounted_start, fun v => Process.ordered_start _⟩

/-- The connection is in the state `d`, and the links carry what has been sent. -/
structure Joined (topo : Topology ι) (c : Connection ι) (s : Mesh ι Upper) (d : Duo) : Prop where
  accounted : Accounted topo s
  carries : c.Carries (uppers s) d

/-- No connection has written so much that its numbers come round. -/
def Short (c : Connection ι) (s : Mesh ι Upper) : Prop :=
  ∀ x, ((uppers s (c.node x)).written (c.fd x)).length < 2 ^ 16

namespace Joined

variable {d : Duo}

/-- **One event of the whole stack is one of the connection, or none.** -/
theorem step (h : Joined topo c s d) (hmeets : Orderly topo c event s) (hshort : Short c s)
    (hs : step topo event s = some s') :
    ∃ d', Joined topo c s' d' ∧
      (d.Open → (∀ x, event ≠ .call (c.node x) (.closeLab (c.fd x))) → d'.Open) := by
  obtain ⟨hallows, hexclusive⟩ := hmeets
  obtain ⟨hnext, hmoves⟩ := h.accounted.step hs
  have hex := hexclusive s' hs
  -- the hosts after the event
  generalize hup : uppers s' = up at hmoves hex
  cases hmoves with
  | network | nothing => exact ⟨d, ⟨hnext, hup ▸ h.carries⟩, fun ho _ => ho⟩
  | call v action upper hupper =>
    obtain ⟨d', hd', hreflects⟩ := h.carries.call hex hallows hupper
    refine ⟨d', ⟨hnext, hup ▸ hd'⟩, fun ho hclose => hreflects.open h.carries.loose ho ?_⟩
    rintro x rfl rfl
    exact hclose x rfl
  | segment i chance readMem writeMem u v packet upper hsent hupper =>
    obtain ⟨d', hd', hreflects⟩ := h.carries.deliver hex hshort hsent hupper
    exact ⟨d', ⟨hnext, hup ▸ hd'⟩, fun ho _ => hreflects.open h.carries.loose ho (by simp)⟩

theorem run {d₀ : Duo} (h : Joined topo c s₀ d₀)
    (hmeets : Run.Meets (Stack.step topo) (Orderly topo c) events s₀)
    (hrun : Run.run (Stack.step topo) events s₀ = some s) (hshort : Short c s) :
    ∃ d, Joined topo c s d := by
  have hkeep : ∀ event t t', Orderly topo c event t →
      (Accounted topo t ∧ (Short c t → ∃ d, Joined topo c t d)) →
      Stack.step topo event t = some t' →
      Accounted topo t' ∧ (Short c t' → ∃ d, Joined topo c t' d) := by
    rintro event t t' horderly ⟨haccounted, hjoined⟩ hstep
    obtain ⟨hnext, hmoves⟩ := haccounted.step hstep
    refine ⟨hnext, fun hshort' => ?_⟩
    -- it was short before
    have hshort : Short c t :=
      fun x => (hmoves.written (c.node x) (c.fd x)).length_le.trans_lt (hshort' x)
    obtain ⟨d, hd⟩ := hjoined hshort
    obtain ⟨d', hd', -⟩ := hd.step horderly hshort hstep
    exact ⟨d', hd'⟩
  have hlast := Run.invariant_of_meets (p := fun t => Accounted topo t ∧
    (Short c t → ∃ d, Joined topo c t d)) hkeep ⟨h.accounted, fun _ => ⟨_, h⟩⟩ hmeets hrun
  exact hlast.2 hshort

end Joined

/-- **From end to end.** Once a connection is open, in a run in which nobody else takes its numbers
and neither side has written 64 KiB: what has been read at one end is a prefix of what was written
at the other; an end that has seen the `FIN` has all of it, and so it has when `closeLab` has
returned at the other; and whatever bears its numbers and has ever been sent may arrive at it,
without an assertion that fails. -/
theorem run_stream (hbefore : Run.run (step topo) before (start topo) = some s₀)
    (hopened : c.Opened (uppers s₀)) (hrun : Run.run (step topo) events s₀ = some s)
    (hmeets : Run.Meets (step topo) (Orderly topo c) events s₀)
    (hshort : Short c s) (x : Side) :
    (uppers s (c.node x.other)).returned (c.fd x.other) <+:
        (uppers s (c.node x)).written (c.fd x) ∧
      (∀ k, (uppers s (c.node x.other)).process.list.findSocket (c.fd x.other) = some k →
        k.hasFlag CLOSEState.finRecv = true ∨ c.Over (uppers s) x →
        (uppers s (c.node x.other)).returned (c.fd x.other) ++
            copyOut k.readBuffer k.recvBack (k.recvFront - k.recvBack) =
          (uppers s (c.node x)).written (c.fd x)) ∧
      ∀ k, (uppers s (c.node x)).process.list.findSocket (c.fd x) = some k →
        ∀ u, ∀ packet ∈ (uppers s u).sent, packet.tuple = c.tuple x →
          (handleTCPMain k packet).isSome := by
  obtain ⟨haccounted, hordered⟩ := run_accounted hbefore
  obtain ⟨d, hd⟩ := Joined.run ⟨haccounted, hopened.carries hordered⟩ hmeets hrun hshort
  have hrep : ∀ y k, (uppers s (c.node y)).process.list.findSocket (c.fd y) = some k →
      k.Rep (d.peer y) :=
    fun y k hk => (hd.carries.ends y).rep_of_findSocket (hd.carries.ordered _) hk
  refine ⟨hd.carries.returned_isPrefix x, fun k hk hdone => ?_,
    fun k hk u packet hsent hnumbers => ?_⟩
  · refine hd.carries.all_read x
      ((hrep x.other k hk).copyOut_unread (hd.carries.loose.bounded x.other)) ?_
    rcases hdone with hfin | hover
    · exact hd.carries.accepted_of_finRecv x (hrep x.other k hk) hfin
    · have hfin := (hd.carries.ends x).fin_of_over (hd.carries.ordered _)
        (hd.carries.loose.flags x) hover
      exact ((hd.carries.loose.dir x).ends.complete hfin).2.2.2
  · obtain ⟨k', packets, -, -, hrun, -⟩ := hd.carries.takes hshort hsent hnumbers (hrep x k hk)
    rw [hrun, Option.isSome_some]

/-! ### Two hosts and a router -/

/-- A copy arrives, the oldest that there is. -/
def arrive : Event (Fin 3) := .receive 0 ⟨0, 0⟩ (fun _ => 0) (fun _ => 0)

/-- Manual routes both ways, and a handshake across the host in the middle. -/
def opening : List (Event (Fin 3)) :=
  [.network (.call 0 (.setRoutingTable 4 BROAD_IP (Mesh.lineDevice 2).macAddr fun _ => true)),
    .network (.call 1 (.setRoutingTable 4 BROAD_IP (Mesh.lineDevice 4).macAddr
      fun device => device.ipAddr = 3)),
    .network (.call 1 (.setRoutingTable 1 BROAD_IP (Mesh.lineDevice 1).macAddr
      fun device => device.ipAddr = 2)),
    .network (.call 2 (.setRoutingTable 1 BROAD_IP (Mesh.lineDevice 3).macAddr fun _ => true)),
    .call 2 (.socketLab (fun _ => 0) (fun _ => 0)), .call 2 (.bindLab 123456789 4 80),
    .call 2 (.listenLab 123456789), .call 0 (.socketLab (fun _ => 0) (fun _ => 0)),
    .call 0 (.connectLab 123456789 4 80), arrive, arrive, arrive, arrive, arrive, arrive,
    .call 2 (.acceptLab 123456789)]

/-- Three bytes are written and `closeLab` is called; the segment and the acknowledgment of the
`FIN` are carried twice. `closeLab` returns, then two bytes are read, and what is still under way
arrives where there is no socket any more. -/
def exchange : List (Event (Fin 3)) :=
  [.call 0 (.writeLab 123456789 [1, 2, 3]), .call 0 (.closeLab 123456789), .call 0 (.tick 1),
    .network (.repeatAt 0), arrive, arrive, arrive, arrive, arrive, arrive, .call 0 (.tick 2),
    arrive, arrive, arrive, arrive, .call 2 (.tick 2), .network (.repeatAt 0), arrive, arrive,
    arrive, .call 0 (.leaveCloseLab 123456789), .call 0 (.freeSocket 123456789), arrive, arrive,
    .call 2 (.readLab 123456790 2), arrive]

/-- The client has the first port that `getPort` gives out. -/
def connection : Connection (Fin 3) where
  node := fun | .a => 0 | .b => 2
  fd := fun | .a => 123456789 | .b => 123456790
  numbers := ⟨1, htons 50001, 4, 80⟩
  node_ne := by decide

/-- After the handshake. -/
def connected : Mesh (Fin 3) Upper :=
  (Run.run (step Mesh.lineTopology) opening (start Mesh.lineTopology)).get (by decide)

theorem opened_connected : connection.Opened (uppers connected) := by
  refine ⟨fun x => ?_, by decide, fun x => ?_, fun x => ?_, by decide⟩
  · cases x with
    | a => exact ⟨_, List.mem_singleton_self _, rfl, rfl,
        ⟨rfl, rfl, rfl, rfl, rfl, rfl, rfl, rfl, rfl, rfl, rfl, rfl⟩⟩
    | b => exact ⟨_, List.mem_cons_of_mem _ (List.mem_singleton_self _), rfl, rfl,
        ⟨rfl, rfl, rfl, rfl, rfl, rfl, rfl, rfl, rfl, rfl, rfl, rfl⟩⟩
  · cases x <;> rfl
  · cases x <;> rfl

/-- After the exchange. -/
def exchanged : Mesh (Fin 3) Upper :=
  (Run.run (step Mesh.lineTopology) exchange connected).get (by decide +kernel)

theorem run_stream_exchange :
    (uppers exchanged 2).returned 123456790 = [1, 2] ∧
    (uppers exchanged 0).process.list.findSocket 123456789 = none ∧
    (uppers exchanged 2).returned 123456790 <+: (uppers exchanged 0).written 123456789 ∧
    (∀ k, (uppers exchanged 2).process.list.findSocket 123456790 = some k →
      k.hasFlag CLOSEState.finRecv = true ∨ connection.Over (uppers exchanged) .a →
        (uppers exchanged 2).returned 123456790 ++
          copyOut k.readBuffer k.recvBack (k.recvFront - k.recvBack) =
        (uppers exchanged 0).written 123456789) ∧
    ∀ k, (uppers exchanged 0).process.list.findSocket 123456789 = some k →
      ∀ u, ∀ packet ∈ (uppers exchanged u).sent, packet.tuple = connection.tuple .a →
        (handleTCPMain k packet).isSome := by
  have hmeets : Run.Meets (step Mesh.lineTopology) (Orderly Mesh.lineTopology connection) exchange
      connected := by decide +kernel
  have hshort : ∀ x, ((uppers exchanged (connection.node x)).written (connection.fd x)).length <
      2 ^ 16 := by decide +kernel
  have hbefore : Run.run (step Mesh.lineTopology) opening (start Mesh.lineTopology) =
      some connected := (Option.some_get _).symm
  have hrun : Run.run (step Mesh.lineTopology) exchange connected = some exchanged :=
    (Option.some_get _).symm
  have hread : (uppers exchanged 2).returned 123456790 = [1, 2] := by decide +kernel
  have hfreed : (uppers exchanged 0).process.list.findSocket 123456789 = none := by decide +kernel
  exact ⟨hread, hfreed, run_stream hbefore opened_connected hrun hmeets hshort .a⟩

end Stack

end LabNetstack
