import Mathlib.Data.Fintype.Basic
import LabNetstack.Routing.Convergence

/-!
# Rounds can be carried out

Nothing in a network that is ready for a round can keep it from taking one: when enough time has
passed every host broadcasts, every copy under way is received, and every host updates its table.

## Main results

* `Mesh.Ready.exists_round` — from a network that is ready there is a round
* `Mesh.Ready.exists_rounds` — and as many as one likes
* `Mesh.converged_vanishedNode` — a route to a node that is gone disappears
-/

namespace LabNetstack

/-- A periodic task runs when enough time has passed. -/
theorem exists_tooEarly_eq_false (interval : ℕ) (last : Option ℕ) :
    ∃ now, tooEarly interval now last = false := by
  cases last with
  | none => exact ⟨0, rfl⟩
  | some last => exact ⟨last + interval, decide_eq_false (Nat.lt_irrefl _)⟩

/-- There is always a way to sort. -/
theorem exists_isQsort (entries : List RouteEntry) : ∃ sorted, IsQsort entries sorted := by
  refine ⟨entries.mergeSort fun a b => a.key ≤ b.key, List.mergeSort_perm .., ?_⟩
  have hsorted : (entries.mergeSort fun a b => a.key ≤ b.key).Pairwise
      fun a b => decide (a.key ≤ b.key) :=
    List.pairwise_mergeSort (fun a b c hab hbc => by simp only [decide_eq_true_eq] at *; omega)
      (fun a b => by simp only [Bool.or_eq_true, decide_eq_true_eq]; omega) entries
  exact hsorted.imp fun {a b} h => (compareRouteEntries_nonpos_iff a b).mpr (of_decide_eq_true h)

namespace Mesh

variable {ι τ : Type*} [DecidableEq ι] {topo : Topology ι}
  (callbacks : List (TCPPacketReceiveCallback τ)) {s : Mesh ι τ}
  {table : ι → List RouteEntry} {told : ι → Prop}

/-- Every node can be made to broadcast. -/
theorem exists_broadcasts (h : Collecting topo table told s)
    (hfit : ∀ v, (table v).length ≤ maxEntries) (nodes : List ι) :
    ∃ (events : List (Event ι)) (s' : Mesh ι τ), (∀ event ∈ events, event.Collects) ∧
      (∀ v ∈ nodes, ∃ now, Event.broadcast v now ∈ events) ∧
      Run.run (step topo callbacks) events s = some s' ∧
      Collecting topo table (fun _ => False) s' := by
  induction nodes generalizing s told with
  | nil => exact ⟨[], s, by simp, by simp, rfl, h.mono fun _ => False.elim⟩
  | cons v nodes ih =>
    obtain ⟨now, hdue⟩ := exists_tooEarly_eq_false broadInterval (s.host v).lastBroad
    have hstep : step topo callbacks (.broadcast v now) s
        = some (s.put topo v (broadcastRouteTable now (s.host v))) := by
      rw [step, hdue]
      rfl
    obtain ⟨events, s', hcollects, hall, hrun, hs'⟩ := ih (h.broadcast hfit hstep)
    refine ⟨.broadcast v now :: events, s', ?_, ?_, (Run.run_cons_some hstep _).trans hrun, hs'⟩
    · intro event hevent
      rcases List.mem_cons.mp hevent with rfl | hmem
      · exact trivial
      · exact hcollects event hmem
    · intro w hw
      rcases List.mem_cons.mp hw with rfl | hmem
      · exact ⟨now, List.mem_cons_self ..⟩
      · obtain ⟨now', hmem'⟩ := hall w hmem
        exact ⟨now', List.mem_cons_of_mem _ hmem'⟩

/-- A copy under way can be received, and is gone then. -/
theorem Collecting.exists_receive (h : Collecting topo table told s)
    (hfit : ∀ v, (table v).length ≤ maxEntries) {i : ℕ} (hi : i < s.air.length) (chance : Chance) :
    ∃ s', step topo callbacks (.receive i chance) s = some s' ∧ s'.air = s.air.eraseIdx i := by
  obtain ⟨host, hhost, hwire⟩ : ∃ host, receiveFrame callbacks chance s.air[i].2.1 s.air[i].2.2
      (s.host s.air[i].1) = some host ∧ host.wire = [] := by
    obtain ⟨u, -, hadvert⟩ := h.air _ (List.getElem_mem hi)
    obtain ⟨macAddr, hhost⟩ := receiveFrame_advert hadvert (hfit u) callbacks chance s.air[i].2.1
      (s.host s.air[i].1)
    exact ⟨_, hhost, h.wire _⟩
  refine ⟨{ s with air := s.air.eraseIdx i }.put topo s.air[i].1 host, ?_, ?_⟩
  · simp only [step, List.getElem?_eq_getElem hi, hhost, Option.map_some]
  · rw [put, hwire]
    exact List.append_nil _

/-- What is under way is received, from the front. -/
theorem exists_receives (h : Collecting topo table told s)
    (hfit : ∀ v, (table v).length ≤ maxEntries) :
    ∃ (events : List (Event ι)) (s' : Mesh ι τ), (∀ event ∈ events, event.Collects) ∧
      Run.run (step topo callbacks) events s = some s' ∧ s'.air = [] ∧
      Collecting topo table told s' := by
  obtain ⟨n, hn⟩ : ∃ n, s.air.length = n := ⟨_, rfl⟩
  induction n generalizing s with
  | zero => exact ⟨[], s, by simp, rfl, List.eq_nil_of_length_eq_zero hn, h⟩
  | succ n ih =>
    obtain ⟨t, hstep, hair⟩ := h.exists_receive callbacks hfit (i := 0) (by omega) ⟨0, 0⟩
    obtain ⟨events, s', hcollects, hrun, hs'⟩ := ih (h.receive hfit hstep)
      (by rw [hair, List.length_eraseIdx_of_lt (by omega)]; omega)
    refine ⟨.receive 0 ⟨0, 0⟩ :: events, s', ?_, (Run.run_cons_some hstep _).trans hrun, hs'⟩
    intro event hevent
    rcases List.mem_cons.mp hevent with rfl | hmem
    · exact trivial
    · exact hcollects event hmem

variable (topo) in
/-- And to update. -/
theorem exists_updates (hwire : ∀ v, (s.host v).wire = []) (nodes : List ι) :
    ∃ (updates : List (ι × ℕ × List RouteEntry)) (s' : Mesh ι τ), updates.map Prod.fst = nodes ∧
      Run.run (step topo callbacks) (updates.map fun (v, now, sorted) => .update v now sorted) s
        = some s' := by
  induction nodes generalizing s with
  | nil => exact ⟨[], s, rfl, rfl⟩
  | cons v nodes ih =>
    obtain ⟨now, hdue⟩ := exists_tooEarly_eq_false updateInterval (s.host v).lastUpdate
    obtain ⟨sorted, hsort⟩ := exists_isQsort
      (addDefaultRouteTable (s.host v).deviceList (s.host v).tmpRouteTable)
    obtain ⟨host, hhost⟩ : ∃ host, updateRouteTable now sorted (s.host v) = some host :=
      ⟨_, by rw [updateRouteTable, hdue, if_neg Bool.false_ne_true, if_pos hsort]⟩
    have hstep : step topo callbacks (.update v now sorted) s = some (s.put topo v host) := by
      rw [step, hdue, if_neg Bool.false_ne_true, hhost, Option.map_some]
    obtain ⟨hupdated, hothers, -⟩ := update_step hwire hstep
    obtain ⟨updates, s', hnodes, hrun⟩ := ih (s := s.put topo v host) fun w => by
      by_cases hw : w = v
      · rw [hw]
        exact hupdated.wire
      · rw [hothers w hw, hwire w]
    exact ⟨(v, now, sorted) :: updates, s', by rw [List.map_cons, hnodes],
      (Run.run_cons_some hstep _).trans hrun⟩

variable [Fintype ι] {addresses : Finset IPAddr}

/-- **Progress.** A network that is ready can take a round. -/
theorem Ready.exists_round (h : Ready topo addresses s) : ∃ s', Round topo callbacks s s' := by
  obtain ⟨broadcasts, s₁, hcollects₁, hall, hrun₁, h₁⟩ :=
    exists_broadcasts callbacks h.collecting h.length Finset.univ.toList
  obtain ⟨receives, s₂, hcollects₂, hrun₂, hair, h₂⟩ :=
    exists_receives callbacks h₁ h.length
  obtain ⟨updates, s₃, hnodes, hrun₃⟩ :=
    exists_updates topo callbacks h₂.wire Finset.univ.toList
  refine ⟨s₃, broadcasts ++ receives, s₂, updates, ?_, ?_, Run.run_trans hrun₁ hrun₂, hair, ?_, ?_,
    hrun₃⟩
  · intro event hevent
    rcases List.mem_append.mp hevent with hmem | hmem
    · exact hcollects₁ event hmem
    · exact hcollects₂ event hmem
  · intro v
    obtain ⟨now, hmem⟩ := hall v (Finset.mem_toList.mpr (Finset.mem_univ v))
    exact ⟨now, List.mem_append_left _ hmem⟩
  · rw [hnodes]
    exact Finset.nodup_toList _
  · intro v
    rw [hnodes]
    exact Finset.mem_toList.mpr (Finset.mem_univ v)

theorem Ready.exists_rounds (h : Ready topo addresses s) (n : ℕ) :
    ∃ s', Rounds topo callbacks s n s' := by
  induction n with
  | zero => exact ⟨s, .zero⟩
  | succ n ih =>
    obtain ⟨s', hrounds⟩ := ih
    obtain ⟨s'', hround⟩ := (hrounds.rounds h).1.exists_round callbacks
    exact ⟨s'', hrounds.succ hround⟩

/-! ### A node that is gone -/

/-- Two nodes with a device each, and a link between them. -/
def pairDevice : Bool → Device
  | true => ⟨0, BROAD_MAC, 1⟩
  | false => ⟨0, BROAD_MAC, 2⟩

def pairTopology : Topology Bool where
  devices v := [pairDevice v]
  links v _ := [(!v, pairDevice !v)]
  mem_devices h := by
    rw [List.mem_singleton, Prod.mk.injEq] at h
    rw [h.1, h.2]
    exact List.mem_singleton_self _

/-- One of them has a route to a third node, which is gone. -/
def pairMesh : Mesh Bool Unit where
  host v :=
    { deviceList := [pairDevice v]
      manRouteTable := []
      onlineRouteTable := if v then [⟨3, BROAD_IP, 0, 5, BROAD_MAC⟩] else []
      tmpRouteTable := []
      arpList := []
      resendIPTaskList := []
      id := 0
      lastBroad := none
      lastUpdate := none
      random_drop := 0
      wire := []
      upper := () }
  air := []

theorem ready_pairMesh : Ready pairTopology {1, 2, 3} pairMesh := by
  constructor <;> decide

theorem hopDist_pairTopology : pairTopology.IsHopDist true 2 1 := by
  refine ⟨.hop ⟨pairDevice false, List.mem_singleton_self _, pairDevice true,
    List.mem_singleton_self _⟩ (.here ⟨pairDevice false, List.mem_singleton_self _, rfl⟩), ?_⟩
  rintro (_ | k) hpath
  · cases hpath with
    | here hown => exact absurd hown (by decide)
  · exact Nat.succ_pos k

/-- Nobody owns the third address, so that no path leads to it. -/
theorem not_path_vanished (v : Bool) (k : ℕ) :
    ¬ DistanceVector.Path pairTopology.Hears pairTopology.Owns (3 : IPAddr) v k := by
  intro hpath
  have hnobody : ∀ v, ¬ pairTopology.Owns v 3 := by decide
  induction hpath with
  | here hown => exact hnobody _ hown
  | hop _ _ ih => exact ih

theorem converged_vanishedNode :
    ∃ s', Rounds pairTopology [] pairMesh 21 s' ∧
      (∃ e, ((s'.host true).onlineRouteTable.filter fun e => e.ipAddr = 2) = [e] ∧
        e.dist.toNat = 1) ∧
      ∀ e ∈ (s'.host true).onlineRouteTable, e.ipAddr ≠ 3 := by
  obtain ⟨s', hrounds⟩ := ready_pairMesh.exists_rounds [] 21
  refine ⟨s', hrounds, ?_, ?_⟩
  · exact (Rounds.converged ready_pairMesh hrounds le_rfl true 2).1 1 (by decide)
      hopDist_pairTopology
  · exact (Rounds.converged ready_pairMesh hrounds le_rfl true 3).2 fun k _ hdist =>
      not_path_vanished true k hdist.1

end Mesh

end LabNetstack
