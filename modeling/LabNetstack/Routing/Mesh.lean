import LabNetstack.Lib.DistanceVector
import LabNetstack.Lib.Run
import LabNetstack.Routing.Advert

/-!
# A network of hosts

Hosts run the whole stack. What a host hands to pcap is put on the links of the device, one copy
for each device at the other end, and the copies arrive in any order. The periodic tasks run when
their timers let them; a call that a timer turns away does nothing and is not an event.

A *round* is what the protocol needs to make progress once: every host broadcasts, everything on
the links arrives, and then every host updates its table.
-/

namespace LabNetstack

open DistanceVector

/-- The devices of every node, and the devices at the other end of each. A link need not carry in
both directions. -/
structure Topology (ι : Type*) where
  devices : ι → List Device
  links : ι → Device → List (ι × Device)
  mem_devices : ∀ {u v device device'}, (v, device') ∈ links u device → device' ∈ devices v

namespace Topology

variable {ι : Type*} (topo : Topology ι)

/-- What `u` broadcasts reaches `v`. -/
def Hears (v u : ι) : Prop :=
  ∃ device ∈ topo.devices u, ∃ device', (v, device') ∈ topo.links u device

/-- The address is one of the node's own. -/
def Owns (v : ι) (a : IPAddr) : Prop := ∃ device ∈ topo.devices v, device.ipAddr = a

instance (v : ι) (a : IPAddr) : Decidable (topo.Owns v a) :=
  inferInstanceAs (Decidable (∃ device ∈ topo.devices v, device.ipAddr = a))

/-- The least number of links from the node to one that owns the address. -/
abbrev IsHopDist (v : ι) (a : IPAddr) (k : ℕ) : Prop :=
  DistanceVector.IsHopDist topo.Hears topo.Owns v a k

end Topology

/-- The hosts, and the copies that are on the links: where each goes, on which device, and the
frame. -/
structure Mesh (ι τ : Type*) where
  host : ι → Host τ
  air : List (ι × Device × List Byte)

/-- `sorted` is what `qsort` leaves of the collected entries. -/
inductive Event (ι : Type*)
  | broadcast (v : ι) (now : ℕ)
  | receive (i : ℕ) (chance : Chance)
  | update (v : ι) (now : ℕ) (sorted : List RouteEntry)
deriving DecidableEq

/-- The events before the update. -/
def Event.Collects {ι : Type*} : Event ι → Prop
  | .broadcast _ _ => True
  | .receive _ _ => True
  | .update _ _ _ => False

namespace Mesh

variable {ι τ : Type*} [DecidableEq ι] (topo : Topology ι)
  (callbacks : List (TCPPacketReceiveCallback τ))

/-- The copies of what a node has handed to pcap. -/
def copies (v : ι) (sent : List (Device × List Byte)) : List (ι × Device × List Byte) :=
  sent.flatMap fun (device, frame) => (topo.links v device).map fun (u, device') =>
    (u, device', frame)

/-- A node has done something. -/
def put (s : Mesh ι τ) (v : ι) (host : Host τ) : Mesh ι τ where
  host := Function.update s.host v { host with wire := [] }
  air := s.air ++ copies topo v host.wire

def step : Event ι → Mesh ι τ → Option (Mesh ι τ)
  | .broadcast v now, s =>
    if tooEarly broadInterval now (s.host v).lastBroad then none
    else some (s.put topo v (broadcastRouteTable now (s.host v)))
  | .receive i chance, s =>
    match s.air[i]? with
    | none => none
    | some (v, device, frame) =>
      (receiveFrame callbacks chance device frame (s.host v)).map fun host =>
        { s with air := s.air.eraseIdx i }.put topo v host
  | .update v now sorted, s =>
    if tooEarly updateInterval now (s.host v).lastUpdate then none
    else (updateRouteTable now sorted (s.host v)).map fun host => s.put topo v host

/-- A round from `s` to `s'`. -/
structure Round (s s' : Mesh ι τ) : Prop where
  split : ∃ (collect : List (Event ι)) (m : Mesh ι τ) (updates : List (ι × ℕ × List RouteEntry)),
    (∀ event ∈ collect, event.Collects) ∧ (∀ v, ∃ now, Event.broadcast v now ∈ collect) ∧
    Run.run (step topo callbacks) collect s = some m ∧ m.air = [] ∧
    (updates.map Prod.fst).Nodup ∧ (∀ v, v ∈ updates.map Prod.fst) ∧
    Run.run (step topo callbacks) (updates.map fun (v, now, sorted) => .update v now sorted) m
      = some s'

inductive Rounds (s : Mesh ι τ) : ℕ → Mesh ι τ → Prop
  | zero : Rounds s 0 s
  | succ {n : ℕ} {s' s'' : Mesh ι τ} (h : Rounds s n s') (hs : Round topo callbacks s' s'') :
      Rounds s (n + 1) s''

/-- Between two rounds: nothing is under way, and every table is one that the protocol can start
from. `addresses` are all that there are. -/
structure Ready (addresses : Finset IPAddr) (s : Mesh ι τ) : Prop where
  air : s.air = []
  deviceList : ∀ v, (s.host v).deviceList = topo.devices v
  wire : ∀ v, (s.host v).wire = []
  tmp : ∀ v, (s.host v).tmpRouteTable = []
  mask : ∀ v, ∀ e ∈ (s.host v).onlineRouteTable, e.mask = BROAD_IP
  dist : ∀ v, ∀ e ∈ (s.host v).onlineRouteTable, e.dist ≤ 20
  length : ∀ v, (s.host v).onlineRouteTable.length ≤ maxEntries
  mem : ∀ v, ∀ e ∈ (s.host v).onlineRouteTable, e.ipAddr ∈ addresses
  owned : ∀ v, ∀ device ∈ topo.devices v, device.ipAddr ∈ addresses
  few : addresses.card ≤ maxEntries

end Mesh

end LabNetstack
