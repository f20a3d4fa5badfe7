import LabNetstack.Stack.EndToEnd
import LabNetstack.Stack.Handshake

/-!
# From `connectLab` on

The run of the whole stack in which a connection comes about: the handshake goes across the routers
like everything else, its segments may be lost, come twice or come late, and the applications need
not wait for it. At the other end of its life `closeLab` returns, and what is still under way comes
to a host that has no socket for it.

## Main results

* `Stack.run_connection` — what is known of the two ends in every state
-/

namespace LabNetstack

open RingMemory

namespace Stack

variable {ι : Type*} [DecidableEq ι] {topo : Topology ι} {c : Connection ι}
  {before events : List (Event ι)} {event : Event ι} {s s' s₀ s₁ : Mesh ι Upper} {d : Duo}

/-- The condition on an event: the applications of the connection do what they may, and nobody takes
its numbers or its descriptors. -/
def Reserved (topo : Topology ι) (c : Connection ι) (event : Event ι) (s : Mesh ι Upper) : Prop :=
  (match event with
    | .call v action => c.Allows v (uppers s v).process action
    | .network _ | .receive _ _ _ _ => True) ∧
  ∀ s' ∈ step topo event s, c.Separate (uppers s')

instance [Fintype ι] (c : Connection ι) (event : Event ι) (s : Mesh ι Upper) :
    Decidable (Reserved topo c event s) :=
  match event with
  | .call v action => inferInstanceAs (Decidable (c.Allows v (uppers s v).process action ∧
      ∀ s' ∈ step topo (.call v action) s, c.Separate (uppers s')))
  | .network event => inferInstanceAs (Decidable (True ∧
      ∀ s' ∈ step topo (.network event) s, c.Separate (uppers s')))
  | .receive i chance readMem writeMem => inferInstanceAs (Decidable (True ∧
      ∀ s' ∈ step topo (.receive i chance readMem writeMem) s, c.Separate (uppers s')))

/-- The connection has got as far as `d`, and the links carry what has been sent. -/
structure Begun (topo : Topology ι) (c : Connection ι) (s : Mesh ι Upper) (d : Duo) : Prop where
  accounted : Accounted topo s
  joins : c.Joins (uppers s) d

namespace Begun

/-- `connectLab` has been called. -/
theorem start (haccounted : Accounted topo s₀)
    (hordered : ∀ v, Process.Ordered (uppers s₀ v).process.list)
    (hnumbered : ∀ v, ∀ packet ∈ (uppers s₀ v).sent, packet.Numbered)
    (hplanned : c.Planned (uppers s₀)) {addr : IPAddr} {port : Port}
    (hconnect : Stack.step topo (.call (c.node .a) (.connectLab (c.fd .a) addr port)) s₀ = some s₁)
    (hseparate : c.Separate (uppers s₁)) : Begun topo c s₁ (Duo.start 1 1) := by
  obtain ⟨hnext, hmoves⟩ := haccounted.step hconnect
  refine ⟨hnext, ?_⟩
  generalize uppers s₁ = up at hmoves hseparate ⊢
  cases hmoves with
  | call _ _ upper hupper => exact hplanned.joins hordered hnumbered hseparate hupper

/-- **One event of the whole stack.** Nobody closes but who calls `closeLab`, and no socket of the two
is freed but by `freeSocket`. -/
theorem step (h : Begun topo c s d) (hmeets : Reserved topo c event s) (hshort : Short c s)
    (hs : step topo event s = some s') :
    ∃ d', Begun topo c s' d' ∧
      (d.Open → (∀ x, event ≠ .call (c.node x) (.closeLab (c.fd x))) → d'.Open) ∧
      ∀ x, c.Lasts x (event = .call (c.node x) (.freeSocket (c.fd x)))
        (uppers s (c.node x)).process (uppers s' (c.node x)).process (d.peer x) (d'.peer x) := by
  obtain ⟨hallows, hseparate⟩ := hmeets
  obtain ⟨hnext, hmoves⟩ := h.accounted.step hs
  have hsep := hseparate s' hs
  -- the hosts after the event
  generalize hup : uppers s' = up at hmoves hsep
  cases hmoves with
  | network | nothing => exact ⟨d, ⟨hnext, hup ▸ h.joins⟩, fun ho _ => ho, fun _ => .refl⟩
  | call v action upper hupper =>
    obtain ⟨d', hd', hreflects, hlasts⟩ := h.joins.call hsep hallows hupper
    refine ⟨d', ⟨hnext, hup ▸ hd'⟩, fun ho hclose => hreflects.open h.joins.loose ho ?_,
      fun x => (hlasts x).mono ?_⟩
    · rintro x rfl rfl
      exact hclose x rfl
    · rintro ⟨rfl, rfl⟩
      rfl
  | segment i chance readMem writeMem u v packet upper hsent hupper =>
    obtain ⟨d', hd', hreflects, hlasts⟩ := h.joins.deliver hsep hshort hsent hupper
    exact ⟨d', ⟨hnext, hup ▸ hd'⟩, fun ho _ => hreflects.open h.joins.loose ho (by simp),
      fun x => (hlasts x).mono False.elim⟩

theorem run (h : Begun topo c s₁ d)
    (hmeets : Run.Meets (Stack.step topo) (Reserved topo c) events s₁)
    (hrun : Run.run (Stack.step topo) events s₁ = some s) (hshort : Short c s) :
    ∃ d, Begun topo c s d := by
  have hkeep : ∀ event t t', Reserved topo c event t →
      (Accounted topo t ∧ (Short c t → ∃ d, Begun topo c t d)) →
      Stack.step topo event t = some t' →
      Accounted topo t' ∧ (Short c t' → ∃ d, Begun topo c t' d) := by
    rintro event t t' hreserved ⟨haccounted, hbegun⟩ hstep
    obtain ⟨hnext, hmoves⟩ := haccounted.step hstep
    refine ⟨hnext, fun hshort' => ?_⟩
    -- it was short before
    have hshort : Short c t :=
      fun x => (hmoves.written (c.node x) (c.fd x)).length_le.trans_lt (hshort' x)
    obtain ⟨d, hd⟩ := hbegun hshort
    obtain ⟨d', hd', -⟩ := hd.step hreserved hshort hstep
    exact ⟨d', hd'⟩
  have hlast := Run.invariant_of_meets (p := fun t => Accounted topo t ∧
    (Short c t → ∃ d, Begun topo c t d)) hkeep ⟨h.accounted, fun _ => ⟨_, h⟩⟩ hmeets hrun
  exact hlast.2 hshort

end Begun

/-- Whatever has begun with a `SYN` has begun with the same number. -/
theorem run_numbered (hrun : Run.run (step topo) events (start topo) = some s) :
    ∀ v, ∀ packet ∈ (uppers s v).sent, packet.Numbered := by
  have hlast := Run.invariant (p := fun s => Accounted topo s ∧
    ∀ v, ∀ packet ∈ (uppers s v).sent, packet.Numbered) ?_ ?_ hrun
  · exact hlast.2
  · rintro event t t' ⟨haccounted, hnumbered⟩ hstep
    obtain ⟨hnext, hmoves⟩ := haccounted.step hstep
    refine ⟨hnext, fun v packet hpacket => ?_⟩
    rcases hmoves.step_or v with hsame | ⟨action, hupper⟩
    · exact hnumbered v packet (hsame ▸ hpacket)
    · rw [Upper.step_sent hupper] at hpacket
      rcases List.mem_append.mp hpacket with hold | hnew
      · exact hnumbered v packet hold
      · exact Process.sent_numbered hnew
  · exact ⟨accounted_start, fun _ _ hpacket => absurd hpacket List.not_mem_nil⟩

/-- **A connection from `connectLab` on**, in a run in which nobody else takes its numbers or its
descriptors and neither side writes 64 KiB. -/
theorem run_connection (hbefore : Run.run (step topo) before (start topo) = some s₀)
    (hplanned : c.Planned (uppers s₀)) {addr : IPAddr} {port : Port}
    (hconnect : step topo (.call (c.node .a) (.connectLab (c.fd .a) addr port)) s₀ = some s₁)
    (hseparate : c.Separate (uppers s₁)) (hrun : Run.run (step topo) events s₁ = some s)
    (hmeets : Run.Meets (step topo) (Reserved topo c) events s₁) (hshort : Short c s) :
    c.Reliable (uppers s) := by
  obtain ⟨haccounted, hordered⟩ := run_accounted hbefore
  have hbegun := Begun.start haccounted hordered (run_numbered hbefore) hplanned hconnect hseparate
  obtain ⟨d, hd⟩ := hbegun.run hmeets hrun hshort
  exact hd.joins.reliable hshort

/-! ### Two hosts and a router -/

/-- Manual routes, a server that listens, and a client with a socket. -/
def preparing : List (Event (Fin 3)) := opening.take 8

def prepared : Mesh (Fin 3) Upper :=
  (Run.run (step Mesh.lineTopology) preparing (start Mesh.lineTopology)).get (by decide)

theorem planned_prepared : connection.Planned (uppers prepared) := by
  refine ⟨⟨_, List.mem_singleton_self _, rfl, rfl, rfl, rfl, rfl⟩, by decide, by decide,
    fun x => ?_, fun x => ?_, by decide⟩
  · cases x <;> rfl
  · cases x <;> rfl

/-- The `SYN` has left. -/
def dialled : Mesh (Fin 3) Upper :=
  (step Mesh.lineTopology (.call 0 (.connectLab 123456789 4 80)) prepared).get (by decide)

/-- The `SYN` is carried twice on the first link; its copy comes when the server is connected, before
the bytes that the client has written. Two of them are read, and `closeLab` returns to the client. -/
def connecting : List (Event (Fin 3)) :=
  .network (.repeatAt 0) ::
    [0, 1, 1, 1, 1, 1].map (fun i => .receive i ⟨0, 0⟩ (fun _ => 0) fun _ => 0) ++
    [.call 0 (.writeLab 123456789 [1, 2, 3]), .call 0 (.tick 1), arrive, arrive, arrive, arrive,
      .call 2 (.readLab 123456790 2), .call 0 (.closeLab 123456789), arrive, arrive,
      .call 0 (.tick 2), arrive, arrive, arrive, arrive, .call 2 (.tick 2), arrive, arrive, arrive,
      .call 0 (.leaveCloseLab 123456789), .call 0 (.freeSocket 123456789), arrive]

def underWay : Mesh (Fin 3) Upper :=
  (Run.run (step Mesh.lineTopology) connecting dialled).get (by decide +kernel)

theorem run_connection_exchange :
    (uppers underWay 2).returned 123456790 = [1, 2] ∧
      (uppers underWay 0).process.list.findSocket 123456789 = none ∧
      connection.Reliable (uppers underWay) := by
  have hbefore : Run.run (step Mesh.lineTopology) preparing (start Mesh.lineTopology) =
      some prepared := (Option.some_get _).symm
  have hmeets : Run.Meets (step Mesh.lineTopology) (Reserved Mesh.lineTopology connection)
      connecting dialled := by decide +kernel
  have hshort : ∀ x, ((uppers underWay (connection.node x)).written (connection.fd x)).length <
      2 ^ 16 := by decide +kernel
  have hconnect : step Mesh.lineTopology
      (.call (connection.node .a) (.connectLab (connection.fd .a) 4 80)) prepared = some dialled :=
    (Option.some_get _).symm
  have hseparate : connection.Separate (uppers dialled) := by decide
  have hrun : Run.run (step Mesh.lineTopology) connecting dialled = some underWay :=
    (Option.some_get _).symm
  have hread : (uppers underWay 2).returned 123456790 = [1, 2] := by decide +kernel
  have hfreed : (uppers underWay 0).process.list.findSocket 123456789 = none := by decide +kernel
  exact ⟨hread, hfreed,
    run_connection hbefore planned_prepared hconnect hseparate hrun hmeets hshort⟩

end Stack

end LabNetstack
