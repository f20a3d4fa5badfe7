import LabNetstack.Lib.Steps
import LabNetstack.Routing.Sending

/-!
# How often a packet is transmitted

`sendIPPacket` gives a packet a time-to-live of 255, and nobody looks at it again: what
`deliverIPPacket` sends on are the bytes that came in. How often a packet is transmitted is up to the
tables alone, and when they send it around in a circle there is no end to it.

They do so by themselves. When a node has disappeared, its neighbours go on telling each other of a
route to it, until the distance has grown beyond 20.

Every copy is followed with the number of times that the packet has been transmitted to get there.
Several nodes may take a frame; of a packet that is never taken twice these numbers count all the
transmissions.

## Main results

* `Journey.ttl_sent` — what is transmitted has still the time-to-live that it was given
* `Journey.transmitted_le_iff` — 255 transmissions are enough exactly if the next hops end in time
* `Journey.hopsEnd_iff_cycle` — in a small network, if they do not lead into a circle
-/

namespace LabNetstack

open CountedSteps Layout

section Host

variable {τ : Type*} {host host' : Host τ} {packet data buf : List Byte} {dest : IPAddr}
  {ipHeader : IpHeader}

/-- Where a packet for the address goes: what the route says, on the device that it points to. -/
def Host.egress (host : Host τ) (ip : IPAddr) : Option (MacAddr × Device) :=
  (queryRouteTable host ip).bind fun (dstmac, address) =>
    (host.deviceList.find? fun d => d.address = address).map fun device => (dstmac, device)

/-- The frame that it goes in. -/
def Host.frames (host : Host τ) (ip : IPAddr) (packet : List Byte) : List (Device × List Byte) :=
  (host.egress ip).toList.map fun (dstmac, device) =>
    (device, packetFrame dstmac device.macAddr packet)

/-- `sendIPPacket` puts a packet on a link: it is neither empty nor too long for a frame, and there
is a route, but no entry in the ARP list. -/
structure Sends (host : Host τ) (dest : IPAddr) (buf : List Byte) : Prop where
  pos : 0 < buf.length
  le : buf.length ≤ 0x10000 - 34
  miss : ∀ node ∈ host.arpList, node.1 ≠ dest
  route : (host.egress dest).isSome

/-- `handleIPPacket` sends on a packet: it is for somebody else, the loss simulation can let it
through, and there is a route. -/
structure Forwards (host : Host τ) (ipHeader : IpHeader) (data : List Byte) : Prop where
  other : isMyPacket host ipHeader = false
  passes : ∃ chance, randomDrop host.random_drop chance data ipHeader = false
  route : (host.egress ipHeader.dst).isSome

theorem Host.transmitAt_frames {dstmac : MacAddr} {address : BitVec 64}
    (hquery : queryRouteTable host dest = some (dstmac, address)) (hpos : 0 < packet.length)
    (hfit : packet.length ≤ 0x10000 - 14) :
    host.transmitAt packet dstmac address =
      { host with wire := host.wire ++ host.frames dest packet } := by
  rw [transmitAt, frames, egress, hquery, Option.bind_some]
  dsimp only
  cases hfind : host.deviceList.find? fun d => d.address = address with
  | none =>
    rw [Option.map_none, Option.toList_none, List.map_nil, List.append_nil]
  | some device =>
    exact transmit_eq hpos hfit dstmac device

theorem Host.frames_of_none (h : host.egress dest = none) (packet : List Byte) :
    host.frames dest packet = [] := by
  rw [frames, h]
  rfl

/-- One frame, if there is a route. -/
theorem Host.exists_frames (h : (host.egress dest).isSome) (packet : List Byte) :
    ∃ out, host.frames dest packet = [out] := by
  obtain ⟨found, hegress⟩ := Option.isSome_iff_exists.mp h
  rw [frames, hegress]
  exact ⟨_, rfl⟩

theorem deliverIPPacket_frames (hpos : 0 < packet.length) (hfit : packet.length ≤ 0x10000 - 14)
    (ip : IPAddr) (host : Host τ) :
    deliverIPPacket packet (BitVec.ofNat 32 packet.length) ip host =
      some { host with wire := host.wire ++ host.frames ip packet } := by
  cases hquery : queryRouteTable host ip with
  | none =>
    have hnone : host.egress ip = none := by rw [Host.egress, hquery, Option.bind_none]
    rw [deliverIPPacket, hquery, Host.frames_of_none hnone, List.append_nil]
  | some found => rw [deliverIPPacket_eq (by omega) hquery, Host.transmitAt_frames hquery hpos hfit]

/-! ### Sending and receiving -/

theorem Sends.sendIPPacket (h : Sends host dest buf) (hdest : dest ≠ BROAD_IP) (src : IPAddr)
    (proto : BitVec 8) (noRetry : Bool) :
    (LabNetstack.sendIPPacket src dest proto buf noRetry host).1 = { host with
      id := host.id + 1
      wire := host.wire ++ host.frames dest (ipPacket src dest proto buf host.id) } := by
  have hlen := length_ipPacket src dest proto buf host.id
  have hle := h.le
  cases hquery : queryRouteTable host dest with
  | none =>
    have hroute := h.route
    rw [Host.egress, hquery, Option.bind_none] at hroute
    cases hroute
  | some found =>
    have hquery' : queryRouteTable { host with id := host.id + 1 } dest = some found := hquery
    rw [sendIPPacket_miss h.miss hdest h.pos (by omega) hquery]
    dsimp only
    rw [Host.transmitAt_frames hquery' (by omega) (by omega)]
    rfl

/-- Otherwise nothing goes out. -/
theorem sendIPPacket_of_not_sends (h : ¬ Sends host dest buf) (hdest : dest ≠ BROAD_IP)
    (src : IPAddr) (proto : BitVec 8) (noRetry : Bool) :
    ∃ id tasks, (sendIPPacket src dest proto buf noRetry host).1 =
      { host with id := id, resendIPTaskList := tasks } := by
  by_cases hrefused : buf.length > 0x10000 - IpHeader.layout.size ∨ buf.length ≤ 0
  · rw [sendIPPacket, if_pos hrefused]
    exact ⟨host.id, host.resendIPTaskList, rfl⟩
  rw [IpHeader.size_layout] at hrefused
  have hlen := length_ipPacket src dest proto buf host.id
  cases hquery : queryRouteTable host dest with
  | none =>
    have hquery' : queryRouteTable { host with id := host.id + 1 } dest = none := hquery
    rw [sendIPPacket, if_neg (by rw [IpHeader.size_layout]; omega)]
    simp only [if_neg hdest, hquery']
    exact ⟨host.id + 1, host.resendIPTaskList, rfl⟩
  | some found =>
    by_cases hhit : ∃ node ∈ host.arpList, node.1 = dest
    · rw [sendIPPacket_hit hhit hdest (by omega) (by omega) (hquery ▸ rfl) src proto noRetry]
      cases noRetry with
      | true => exact ⟨host.id + 1, host.resendIPTaskList, rfl⟩
      | false => exact ⟨host.id + 1, _, rfl⟩
    have hmiss : ∀ node ∈ host.arpList, node.1 ≠ dest := fun node hnode hip =>
      hhit ⟨node, hnode, hip⟩
    have hquery' : queryRouteTable { host with id := host.id + 1 } dest = some found := hquery
    refine ⟨host.id + 1, host.resendIPTaskList, ?_⟩
    rw [sendIPPacket_miss hmiss hdest (by omega) (by omega) hquery]
    by_cases hlong : 0x10000 - 34 < buf.length
    · exact transmitAt_of_lt (by omega) ..
    have hnone : { host with id := host.id + 1 }.egress dest = none := by
      by_contra hsome
      exact h ⟨by omega, by omega, hmiss, Option.isSome_iff_ne_none.mpr hsome⟩
    dsimp only
    rw [Host.transmitAt_frames hquery' (by omega) (by omega), Host.frames_of_none hnone,
      List.append_nil]

variable {ethHdr : EthHeader}

theorem Forwards.handleIPPacket (h : Forwards host ipHeader data)
    (htype : ethHdr.type = ETHTYPE_IPv4) (hle : data.length ≤ 0x10000 - 34)
    (callbacks : List (IPPacketReceiveCallback τ)) (device : Device) :
    ∃ chance, handleIPPacket callbacks chance (ipHeader.packet data)
        (BitVec.ofNat 32 (ipHeader.packet data).length) ethHdr device host =
      some { host with wire := host.wire ++ host.frames ipHeader.dst (ipHeader.packet data) } := by
  have hlen := ipHeader.length_packet data
  obtain ⟨chance, hpasses⟩ := h.passes
  refine ⟨chance, ?_⟩
  rw [handleIPPacket_of_not_isMyPacket htype (ipHeader.size_le_packet data)
    (by rw [IpHeader.read_packet]; exact h.other)
    (by rw [IpHeader.read_packet, IpHeader.drop_packet]; exact hpasses), IpHeader.read_packet,
    deliverIPPacket_frames (by omega) (by omega)]

/-- **Whatever a node does with a packet** that it takes: it sends it on, or nothing goes out. -/
theorem handleIPPacket_cases (htype : ethHdr.type = ETHTYPE_IPv4) (hle : data.length ≤ 0x10000 - 34)
    {callbacks : List (Delivery → τ → τ)} {chance : Chance} {device : Device}
    (h : handleIPPacket (callbacks.map upperCallback) chance (ipHeader.packet data)
      (BitVec.ofNat 32 (ipHeader.packet data).length) ethHdr device host = some host') :
    (∃ upper, host' = { host with upper := upper }) ∨
      Forwards host ipHeader data ∧
        host' = { host with
          wire := host.wire ++ host.frames ipHeader.dst (ipHeader.packet data) } := by
  have hlen := ipHeader.length_packet data
  have hsize := ipHeader.size_le_packet data
  have hdata : randomDrop host.random_drop chance ((ipHeader.packet data).drop IpHeader.layout.size)
      (IpHeader.layout.read (ipHeader.packet data)) =
        randomDrop host.random_drop chance data ipHeader := by
    rw [IpHeader.read_packet, IpHeader.drop_packet]
  cases hdrop : randomDrop host.random_drop chance data ipHeader with
  | true =>
    rw [handleIPPacket_of_dropped htype hsize (hdata.trans hdrop)] at h
    exact Or.inl ⟨host.upper, (Option.some.inj h).symm⟩
  | false =>
    cases hmine : isMyPacket host ipHeader with
    | true =>
      rw [handleIPPacket_of_isMyPacket htype hsize (by rw [IpHeader.read_packet]; exact hmine),
        hdata, hdrop, if_neg Bool.false_ne_true, foldlM_upperCallback] at h
      exact Or.inl ⟨_, (Option.some.inj h).symm⟩
    | false =>
      rw [handleIPPacket_of_not_isMyPacket htype hsize (by rw [IpHeader.read_packet]; exact hmine)
        (hdata.trans hdrop), IpHeader.read_packet,
        deliverIPPacket_frames (by omega) (by omega)] at h
      obtain rfl := Option.some.inj h
      cases hroute : host.egress ipHeader.dst with
      | none =>
        rw [Host.frames_of_none hroute, List.append_nil]
        exact Or.inl ⟨host.upper, rfl⟩
      | some _ => exact Or.inr ⟨⟨hmine, ⟨chance, hdrop⟩, hroute ▸ rfl⟩, rfl⟩

end Host

/-! ### Following the packet -/

/-- The hosts, the copies under way and what has been handed to pcap, each with the number of times
that the packet has been transmitted to get there. -/
structure Journey (ι τ : Type*) where
  host : ι → Host τ
  air : List ((ι × Device × List Byte) × ℕ)
  sent : List ((ι × Device × List Byte) × ℕ)

namespace Journey

variable {ι τ : Type*} [DecidableEq ι] (topo : Topology ι) (callbacks : List (Delivery → τ → τ))

/-- A node has done something about what was transmitted `n` times. -/
def put (t : Journey ι τ) (v : ι) (n : ℕ) (host : Host τ) : Journey ι τ where
  host := Function.update t.host v { host with wire := [] }
  air := t.air ++ (Mesh.copies topo v host.wire).map fun copy => (copy, n + 1)
  sent := t.sent ++ host.wire.map fun out => ((v, out), n + 1)

/-- A copy is received. -/
def step : ℕ × Chance → Journey ι τ → Option (Journey ι τ)
  | (i, chance), t =>
    match t.air[i]? with
    | none => none
    | some ((v, device, frame), n) =>
      (handleFrame (t.host v).deviceList [handleIPPacket (callbacks.map upperCallback) chance]
        device ⟨BitVec.ofNat 32 frame.length⟩ frame (t.host v)).map fun host =>
          { t with air := t.air.eraseIdx i }.put topo v n host

/-- The packet enters at `v`. -/
def enter (host : ι → Host τ) (v : ι) (src dest : IPAddr) (proto : BitVec 8) (buf : List Byte)
    (noRetry : Bool) : Journey ι τ :=
  { host := host, air := [], sent := [] : Journey ι τ }.put topo v 0
    (sendIPPacket src dest proto buf noRetry (host v)).1

/-- The numbers are forgotten. -/
def transit (t : Journey ι τ) : Transit ι τ where
  host := t.host
  air := t.air.map Prod.fst
  sent := t.sent.map Prod.fst

theorem transit_put (t : Journey ι τ) (v : ι) (n : ℕ) (host : Host τ) :
    (t.put topo v n host).transit = t.transit.put topo v host := by
  simp only [transit, put, Transit.put, Mesh.put, List.map_append, List.map_map, Function.comp_def,
    List.map_id']

/-- A journey is what `Transit` says, with the numbers added. -/
theorem transit_step (event : ℕ × Chance) (t : Journey ι τ) :
    (step topo callbacks event t).map transit = Transit.step topo callbacks event t.transit := by
  obtain ⟨i, chance⟩ := event
  have hair : t.transit.air[i]? = (t.air[i]?).map Prod.fst := List.getElem?_map ..
  simp only [step, Transit.step, hair]
  cases t.air[i]? with
  | none => rfl
  | some copy =>
    obtain ⟨⟨v, device, frame⟩, n⟩ := copy
    have herase : { t with air := t.air.eraseIdx i }.transit =
        { t.transit with air := t.transit.air.eraseIdx i } := by
      simp only [transit, List.eraseIdx_map]
    simp only [Option.map_some, Option.map_map, Function.comp_def, transit_put, herase]
    rfl

theorem transit_enter (s : Mesh ι τ) (hair : s.air = []) (v : ι) (src dest : IPAddr)
    (proto : BitVec 8) (buf : List Byte) (noRetry : Bool) :
    (enter topo s.host v src dest proto buf noRetry).transit =
      Transit.send topo s v src dest proto buf noRetry := by
  obtain ⟨host, air⟩ := s
  obtain rfl : air = [] := hair
  rw [enter, transit_put]
  rfl

/-! ### The next hops -/

/-- `w` takes the frame in which `v` sends a packet for the address. -/
def Takes (host : ι → Host τ) (ip : IPAddr) (v w : ι) : Prop :=
  ∃ dstmac device', (host v).egress ip = some (dstmac, device') ∧
    ∃ device, (w, device) ∈ topo.links v device' ∧ isMine (host w).deviceList dstmac

/-- **A next hop**: `w` takes what `v` sends, and sends it on. -/
def Onward (host : ι → Host τ) (ipHeader : IpHeader) (data : List Byte) (v w : ι) : Prop :=
  Takes topo host ipHeader.dst v w ∧ Forwards (host w) ipHeader data

variable {topo callbacks} {host : ι → Host τ} {v w u : ι} {ipHeader : IpHeader} {data : List Byte}
  {t t' : Journey ι τ} {src dest : IPAddr} {proto : BitVec 8} {buf : List Byte} {noRetry : Bool}
  {n : ℕ}

/-- What decides about forwarding is as it was. -/
def Kept (host : ι → Host τ) (t : Journey ι τ) : Prop :=
  ∀ w, ∃ id tasks upper, t.host w =
    { host w with id := id, resendIPTaskList := tasks, upper := upper }

/-- Whatever has been sent is the packet, after as many hops as the number says, and the copies
under way are of that. -/
structure Followed (topo : Topology ι) (host : ι → Host τ) (v : ι) (ipHeader : IpHeader)
    (data : List Byte) (t : Journey ι τ) : Prop where
  kept : Kept host t
  sent : ∀ out ∈ t.sent, ∃ m, out.2 = m + 1 ∧ Steps (Onward topo host ipHeader data) m v out.1.1 ∧
    out.1.2 ∈ (host out.1.1).frames ipHeader.dst (ipHeader.packet data)
  air : ∀ c ∈ t.air, ∃ out, (out, c.2) ∈ t.sent ∧ c.1 ∈ Mesh.copies topo out.1 [out.2]

omit [DecidableEq ι] in
theorem mem_frames {ip : IPAddr} {packet : List Byte} {host : Host τ} {out : Device × List Byte} :
    out ∈ host.frames ip packet ↔ ∃ dstmac, host.egress ip = some (dstmac, out.1) ∧
      out.2 = packetFrame dstmac out.1.macAddr packet := by
  rw [Host.frames, List.mem_map]
  constructor
  · rintro ⟨⟨dstmac, device⟩, hegress, rfl⟩
    exact ⟨dstmac, Option.mem_toList.mp hegress, rfl⟩
  · rintro ⟨dstmac, hegress, hframe⟩
    exact ⟨(dstmac, out.1), Option.mem_toList.mpr hegress, Prod.ext rfl hframe.symm⟩

omit [DecidableEq ι] in
theorem Followed.erase (h : Followed topo host v ipHeader data t) (i : ℕ) :
    Followed topo host v ipHeader data { t with air := t.air.eraseIdx i } where
  kept := h.kept
  sent := h.sent
  air c hc := h.air c (List.mem_of_mem_eraseIdx hc)

/-- A node hands over the packet, or nothing. -/
theorem Followed.put (h : Followed topo host v ipHeader data t) {new : Host τ}
    (hnew : ∃ id tasks upper wire, new =
      { host w with id := id, resendIPTaskList := tasks, upper := upper, wire := wire })
    (hwire : (host w).wire = [])
    (hframes : ∀ out ∈ new.wire, out ∈ (host w).frames ipHeader.dst (ipHeader.packet data))
    (hsteps : new.wire ≠ [] → Steps (Onward topo host ipHeader data) n v w) :
    Followed topo host v ipHeader data (t.put topo w n new) := by
  obtain ⟨id, tasks, upper, wire, rfl⟩ := hnew
  refine ⟨fun x => ?_, fun out hout => ?_, fun c hc => ?_⟩
  · by_cases hx : x = w
    · subst hx
      refine ⟨id, tasks, upper, ?_⟩
      simp only [Journey.put, Function.update_self, hwire]
    · obtain ⟨id', tasks', upper', hx'⟩ := h.kept x
      exact ⟨id', tasks', upper', (Function.update_of_ne hx ..).trans hx'⟩
  · rcases List.mem_append.mp hout with hout | hout
    · exact h.sent out hout
    · obtain ⟨o, ho, rfl⟩ := List.mem_map.mp hout
      exact ⟨n, rfl, hsteps (List.ne_nil_of_mem ho), hframes o ho⟩
  · rcases List.mem_append.mp hc with hc | hc
    · obtain ⟨out, hout, hcopy⟩ := h.air c hc
      exact ⟨out, List.mem_append_left _ hout, hcopy⟩
    · obtain ⟨copy, hcopy, rfl⟩ := List.mem_map.mp hc
      obtain ⟨device, hdevice, hlink⟩ := Mesh.mem_copies.mp hcopy
      refine ⟨(w, device, copy.2.2), List.mem_append_right _ (List.mem_map_of_mem hdevice), ?_⟩
      exact Mesh.mem_copies.mpr ⟨device, List.mem_singleton_self _, hlink⟩

omit [DecidableEq ι] in
/-- The copy that is received next. -/
theorem Followed.getElem (h : Followed topo host v ipHeader data t) {i : ℕ} {device : Device}
    {frame : List Byte} (hi : t.air[i]? = some ((w, device, frame), n)) :
    ∃ u m dstmac device', n = m + 1 ∧ Steps (Onward topo host ipHeader data) m v u ∧
      (host u).egress ipHeader.dst = some (dstmac, device') ∧ (w, device) ∈ topo.links u device' ∧
      frame = packetFrame dstmac device'.macAddr (ipHeader.packet data) := by
  obtain ⟨⟨u, device', frame'⟩, hout, hcopy⟩ := h.air _ (List.mem_of_getElem? hi)
  obtain ⟨m, hm, hsteps, hframe⟩ := h.sent _ hout
  obtain ⟨d, hd, hlink⟩ := Mesh.mem_copies.mp hcopy
  obtain ⟨rfl, rfl⟩ := Prod.mk.inj (List.mem_singleton.mp hd)
  obtain ⟨dstmac, hegress, hframe⟩ := mem_frames.mp hframe
  exact ⟨u, m, dstmac, d, hm, hsteps, hegress, hlink, hframe⟩

/-- **One copy**, whichever it is. The node that it comes to hands over nothing, or the packet. -/
theorem Followed.step_cases (h : Followed topo host v ipHeader data t)
    (hwire : ∀ w, (host w).wire = []) (hle : data.length ≤ 0x10000 - 34) {i : ℕ} {chance : Chance}
    (hstep : step topo callbacks (i, chance) t = some t') :
    ∃ w device frame n id tasks upper wire, t.air[i]? = some ((w, device, frame), n) ∧
      t' = { t with air := t.air.eraseIdx i }.put topo w n
        { host w with id := id, resendIPTaskList := tasks, upper := upper, wire := wire } ∧
      (wire = [] ∨
        isMine (host w).deviceList (EthHeader.layout.read frame).desAddr ∧
          Forwards (host w) ipHeader data ∧
          wire = (host w).frames ipHeader.dst (ipHeader.packet data)) := by
  simp only [step] at hstep
  split at hstep
  · cases hstep
  next w device frame n hi =>
    obtain ⟨-, -, dstmac, device', -, -, -, -, rfl⟩ := h.getElem hi
    obtain ⟨new, hnew, rfl⟩ := Option.map_eq_some_iff.mp hstep
    obtain ⟨id, tasks, upper, hhost⟩ := h.kept w
    rw [hhost] at hnew
    have hlen := ipHeader.length_packet data
    by_cases hmine : isMine (host w).deviceList dstmac
    · rw [handleFrame_packetFrame (by omega) (by omega) hmine] at hnew
      rcases handleIPPacket_cases rfl hle hnew with ⟨upper', rfl⟩ | ⟨hforwards, rfl⟩
      · exact ⟨w, device, _, n, id, tasks, upper', _, hi, rfl, Or.inl (hwire w)⟩
      · refine ⟨w, device, _, n, id, tasks, upper, _, hi, rfl, Or.inr ⟨?_, ?_, ?_⟩⟩
        · rw [desAddr_packetFrame]
          exact hmine
        · exact ⟨hforwards.other, hforwards.passes, hforwards.route⟩
        · exact congrArg (· ++ _) (hwire w)
    · rw [handleFrame_of_not_isMine (size_le_packetFrame ..)
        (by rw [desAddr_packetFrame]; exact hmine)] at hnew
      obtain rfl := Option.some.inj hnew
      exact ⟨w, device, _, n, id, tasks, upper, _, hi, rfl, Or.inl (hwire w)⟩

/-- Every transmission comes after a next hop. -/
theorem Followed.step (h : Followed topo host v ipHeader data t) (hwire : ∀ w, (host w).wire = [])
    (hle : data.length ≤ 0x10000 - 34) {event : ℕ × Chance}
    (hstep : Journey.step topo callbacks event t = some t') :
    Followed topo host v ipHeader data t' := by
  obtain ⟨w, device, frame, n, id, tasks, upper, wire, hi, rfl, hcases⟩ :=
    h.step_cases hwire hle hstep
  obtain ⟨u, m, dstmac, device', rfl, hsteps, hegress, hlink, rfl⟩ := h.getElem hi
  rcases hcases with rfl | ⟨hmine, hforwards, rfl⟩
  · exact (h.erase event.1).put ⟨id, tasks, upper, [], rfl⟩ (hwire w)
      (fun out hout => absurd hout List.not_mem_nil) fun hne => absurd rfl hne
  · rw [desAddr_packetFrame] at hmine
    exact (h.erase event.1).put ⟨id, tasks, upper, _, rfl⟩ (hwire w) (fun out hout => hout)
      fun _ => ⟨u, hsteps, ⟨dstmac, device', hegress, device, hlink, hmine⟩, hforwards⟩

/-- The packet that enters. -/
theorem followed_enter (h : Sends (host v) dest buf) (hdest : dest ≠ BROAD_IP)
    (hwire : ∀ w, (host w).wire = []) (src : IPAddr) (proto : BitVec 8) (noRetry : Bool) :
    Followed topo host v (sentHeader src dest proto buf.length (host v).id) buf
      (enter topo host v src dest proto buf noRetry) := by
  have hstart : Followed topo host v (sentHeader src dest proto buf.length (host v).id) buf
      { host := host, air := [], sent := [] } :=
    ⟨fun w => ⟨_, _, _, rfl⟩, fun _ hout => absurd hout List.not_mem_nil,
      fun _ hc => absurd hc List.not_mem_nil⟩
  rw [enter, h.sendIPPacket hdest]
  refine hstart.put ⟨_, _, _, _, rfl⟩ (hwire v) (fun out hout => ?_) fun _ => rfl
  simp only [hwire, List.nil_append] at hout
  exact hout

/-- Nothing is sent on if nothing goes out. -/
theorem sent_of_not_sends (h : ¬ Sends (host v) dest buf) (hdest : dest ≠ BROAD_IP)
    (hwire : ∀ w, (host w).wire = []) {events : List (ℕ × Chance)}
    (hrun : Run.run (Journey.step topo callbacks) events
      (enter topo host v src dest proto buf noRetry) = some t) : t.sent = [] := by
  obtain ⟨id, tasks, hsend⟩ := sendIPPacket_of_not_sends h hdest src proto noRetry
  have hstart : (enter topo host v src dest proto buf noRetry).air = [] ∧
      (enter topo host v src dest proto buf noRetry).sent = [] := by
    simp only [enter, Journey.put, hsend, hwire, Mesh.copies, List.flatMap_nil, List.map_nil,
      List.append_nil, and_self]
  refine (Run.invariant (p := fun t => t.air = [] ∧ t.sent = []) (fun event t t' ht hstep => ?_)
    hstart hrun).2
  simp only [Journey.step, ht.1, List.getElem?_nil] at hstep
  cases hstep

theorem Followed.run (h : Followed topo host v ipHeader data t) (hwire : ∀ w, (host w).wire = [])
    (hle : data.length ≤ 0x10000 - 34) {events : List (ℕ × Chance)}
    (hrun : Run.run (Journey.step topo callbacks) events t = some t') :
    Followed topo host v ipHeader data t' :=
  Run.invariant (fun _ _ _ ht hstep => ht.step hwire hle hstep) h hrun

/-! ### Following the next hops -/

/-- `u` has sent the packet, and that was the transmission `n`. -/
structure Passed (topo : Topology ι) (host : ι → Host τ) (packet : List Byte) (ip : IPAddr)
    (u : ι) (n : ℕ) (t : Journey ι τ) : Prop where
  sent : ∀ out ∈ (host u).frames ip packet, ((u, out), n) ∈ t.sent
  air : ∀ copy ∈ Mesh.copies topo u ((host u).frames ip packet), (copy, n) ∈ t.air

theorem passed_put {new : Host τ} {packet : List Byte} {ip : IPAddr}
    (hnew : new.wire = (host u).frames ip packet) :
    Passed topo host packet ip u (n + 1) (t.put topo u n new) := by
  constructor
  · intro out hout
    exact List.mem_append_right _ (List.mem_map_of_mem (hnew ▸ hout))
  · intro copy hcopy
    exact List.mem_append_right _ (List.mem_map_of_mem (hnew ▸ hcopy))

/-- **A next hop** can be taken. -/
theorem Followed.onward (h : Followed topo host v ipHeader data t)
    (hwire : ∀ w, (host w).wire = []) (hle : data.length ≤ 0x10000 - 34)
    (hpassed : Passed topo host (ipHeader.packet data) ipHeader.dst u n t)
    (hnext : Onward topo host ipHeader data u w) (callbacks : List (Delivery → τ → τ)) :
    ∃ event t', Journey.step topo callbacks event t = some t' ∧
      Passed topo host (ipHeader.packet data) ipHeader.dst w (n + 1) t' := by
  obtain ⟨⟨dstmac, device', hegress, device, hlink, hmine⟩, hforwards⟩ := hnext
  have hframe : (device', packetFrame dstmac device'.macAddr (ipHeader.packet data)) ∈
      (host u).frames ipHeader.dst (ipHeader.packet data) := mem_frames.mpr ⟨dstmac, hegress, rfl⟩
  obtain ⟨i, hi⟩ := List.getElem?_of_mem (hpassed.air
    (w, device, packetFrame dstmac device'.macAddr (ipHeader.packet data))
    (Mesh.mem_copies.mpr ⟨device', hframe, hlink⟩))
  obtain ⟨id, tasks, upper, hhost⟩ := h.kept w
  have hlen := ipHeader.length_packet data
  have hforwards' : Forwards (t.host w) ipHeader data := by
    rw [hhost]
    exact ⟨hforwards.other, hforwards.passes, hforwards.route⟩
  have htype : (⟨dstmac, device'.macAddr, ETHTYPE_IPv4⟩ : EthHeader).type = ETHTYPE_IPv4 := rfl
  obtain ⟨chance, hhandle⟩ :=
    hforwards'.handleIPPacket htype hle (callbacks.map upperCallback) device
  have hout : (t.host w).wire ++ (t.host w).frames ipHeader.dst (ipHeader.packet data) =
      (host w).frames ipHeader.dst (ipHeader.packet data) := by
    rw [hhost]
    exact congrArg (· ++ _) (hwire w)
  rw [hout] at hhandle
  refine ⟨(i, chance), { t with air := t.air.eraseIdx i }.put topo w n { t.host w with
    wire := (host w).frames ipHeader.dst (ipHeader.packet data) }, ?_, passed_put rfl⟩
  simp only [Journey.step, hi]
  rw [handleFrame_packetFrame (by omega) (by omega) (by rw [hhost]; exact hmine), hhandle,
    Option.map_some]

/-- **Along the next hops**, as far as they go. -/
theorem exists_run_of_steps (h : Sends (host v) dest buf) (hdest : dest ≠ BROAD_IP)
    (hwire : ∀ w, (host w).wire = []) (src : IPAddr) (proto : BitVec 8) (noRetry : Bool)
    (callbacks : List (Delivery → τ → τ))
    (hsteps : Steps (Onward topo host (sentHeader src dest proto buf.length (host v).id) buf) n v
      u) :
    ∃ events t, Run.run (Journey.step topo callbacks) events
        (enter topo host v src dest proto buf noRetry) = some t ∧
      Passed topo host (ipPacket src dest proto buf (host v).id) dest u (n + 1) t := by
  induction n generalizing u with
  | zero =>
    obtain rfl : v = u := hsteps
    refine ⟨[], _, rfl, passed_put ?_⟩
    rw [h.sendIPPacket hdest, hwire]
    rfl
  | succ n ih =>
    obtain ⟨w, hw, hnext⟩ := hsteps
    obtain ⟨events, t, hrun, hpassed⟩ := ih hw
    have hfollowed := (followed_enter h hdest hwire src proto noRetry).run hwire h.le hrun
    obtain ⟨event, t', hstep, hpassed'⟩ :=
      hfollowed.onward hwire h.le hpassed hnext callbacks
    exact ⟨events ++ [event], t', Run.run_trans hrun (Run.run_cons_some hstep []), hpassed'⟩

/-! ### The numbers -/

/-- What is transmitted has still the time-to-live that `sendIPPacket` gave it. -/
theorem ttl_sent (hdest : dest ≠ BROAD_IP) (hwire : ∀ w, (host w).wire = [])
    {events : List (ℕ × Chance)} (hrun : Run.run (step topo callbacks) events
      (enter topo host v src dest proto buf noRetry) = some t) :
    ∀ out ∈ t.sent, (IpHeader.layout.read (out.1.2.2.drop 14)).ttl = 255 := by
  intro out hout
  by_cases hsends : Sends (host v) dest buf
  · have hfollowed := (followed_enter hsends hdest hwire src proto noRetry).run hwire hsends.le hrun
    obtain ⟨m, -, -, hframe⟩ := hfollowed.sent out hout
    obtain ⟨dstmac, -, hframe⟩ := mem_frames.mp hframe
    rw [hframe, drop_packetFrame, IpHeader.read_packet]
    rfl
  · exact absurd (sent_of_not_sends hsends hdest hwire hrun ▸ hout) List.not_mem_nil

/-- **The next hops end in time.** If the packet is sent at all, they do not lead from the node at
which it enters through `n` others that all send it on. -/
def HopsEnd (topo : Topology ι) (host : ι → Host τ) (v : ι) (src dest : IPAddr) (proto : BitVec 8)
    (buf : List Byte) (n : ℕ) : Prop :=
  Sends (host v) dest buf →
    ¬ ∃ u, Steps (Onward topo host (sentHeader src dest proto buf.length (host v).id) buf) n v u

theorem transmitted_le_iff_hopsEnd (hdest : dest ≠ BROAD_IP) (hwire : ∀ w, (host w).wire = [])
    (src : IPAddr) (proto : BitVec 8) (noRetry : Bool) (callbacks : List (Delivery → τ → τ))
    (n : ℕ) :
    (∀ events t, Run.run (step topo callbacks) events
        (enter topo host v src dest proto buf noRetry) = some t → ∀ out ∈ t.sent, out.2 ≤ n) ↔
      HopsEnd topo host v src dest proto buf n := by
  constructor
  · rintro hle hsends ⟨u, hsteps⟩
    obtain ⟨events, t, hrun, hpassed⟩ :=
      exists_run_of_steps hsends hdest hwire src proto noRetry callbacks hsteps
    have hroute : ((host u).egress dest).isSome := by
      cases n with
      | zero =>
        obtain rfl : v = u := hsteps
        exact hsends.route
      | succ n =>
        obtain ⟨w, -, -, hforwards⟩ := hsteps
        exact hforwards.route
    obtain ⟨out, hout⟩ :=
      Host.exists_frames hroute (ipPacket src dest proto buf (host v).id)
    have hsent := hpassed.sent out (hout ▸ List.mem_singleton_self out)
    exact absurd (hle events t hrun _ hsent) (Nat.not_succ_le_self n)
  · intro hnot events t hrun out hout
    by_contra hlt
    by_cases hsends : Sends (host v) dest buf
    · have hfollowed :=
        (followed_enter hsends hdest hwire src proto noRetry).run hwire hsends.le hrun
      obtain ⟨m, hm, hsteps, -⟩ := hfollowed.sent out hout
      exact hnot hsends (hsteps.of_le (by omega))
    · exact absurd (sent_of_not_sends hsends hdest hwire hrun ▸ hout) List.not_mem_nil

/-! ### One packet and no copies of it -/

/-- Of those that a frame comes to one takes it, at most. -/
def TakenOnce (topo : Topology ι) (host : ι → Host τ) (ip : IPAddr) : Prop :=
  ∀ v dstmac device', (host v).egress ip = some (dstmac, device') →
    ((topo.links v device').filter fun c => isMine (host c.1).deviceList dstmac).length ≤ 1

/-- The copy passes the filter of `handleFrame`. -/
def live (host : ι → Host τ) (c : (ι × Device × List Byte) × ℕ) : Bool :=
  isMine (host c.1.1).deviceList (EthHeader.layout.read c.1.2.2).desAddr

/-- The transmissions are numbered through, and no copy but one of the last matters. -/
structure Counted (host : ι → Host τ) (t : Journey ι τ) : Prop where
  sent : t.sent.map Prod.snd = List.range' 1 t.sent.length
  length : (t.air.filter (live host)).length ≤ 1
  air : ∀ c ∈ t.air.filter (live host), c.2 = t.sent.length

omit [DecidableEq ι] in
/-- The copies of what one node hands over. -/
theorem length_live_copies {ip : IPAddr} (h : TakenOnce topo host ip) (w : ι) (packet : List Byte)
    (n : ℕ) :
    (((Mesh.copies topo w ((host w).frames ip packet)).map fun copy => (copy, n)).filter
      (live host)).length ≤ 1 := by
  rw [Host.frames]
  cases hegress : (host w).egress ip with
  | none => exact Nat.zero_le 1
  | some found =>
    obtain ⟨dstmac, device'⟩ := found
    refine le_trans (le_of_eq ?_) (h w dstmac device' hegress)
    simp only [Option.toList_some, List.map_cons, List.map_nil, Mesh.copies, List.flatMap_cons,
      List.flatMap_nil, List.append_nil, List.map_map, List.filter_map, List.length_map]
    congr 1
    refine List.filter_congr fun c _ => ?_
    simp only [Function.comp_apply, live, desAddr_packetFrame]

/-- The next transmission, when no other copy matters. -/
theorem counted_put (hsent : t.sent.map Prod.snd = List.range' 1 t.sent.length)
    (hair : t.air.filter (live host) = []) {ip : IPAddr} (htaken : TakenOnce topo host ip)
    (hroute : ((host w).egress ip).isSome) (packet : List Byte) {new : Host τ}
    (hnew : new.wire = (host w).frames ip packet) :
    Counted host (t.put topo w t.sent.length new) := by
  obtain ⟨out, hout⟩ := Host.exists_frames hroute packet
  have hcopies := length_live_copies htaken w packet (t.sent.length + 1)
  rw [hout] at hnew hcopies
  constructor
  · simp only [put, hnew, List.map_append, List.map_cons, List.map_nil, List.length_append,
      List.length_singleton, hsent]
    rw [List.range'_1_concat, Nat.add_comm 1]
  · simp only [put, hnew, List.filter_append, hair, List.nil_append]
    exact hcopies
  · intro c hc
    simp only [put, hnew, List.filter_append, hair, List.nil_append] at hc ⊢
    obtain ⟨copy, -, rfl⟩ := List.mem_map.mp (List.mem_filter.mp hc).1
    rw [List.length_append, List.length_map, List.length_singleton]

theorem Counted.step (h : Counted host t) (hfollowed : Followed topo host v ipHeader data t)
    (htaken : TakenOnce topo host ipHeader.dst) (hwire : ∀ w, (host w).wire = [])
    (hle : data.length ≤ 0x10000 - 34) {event : ℕ × Chance}
    (hstep : Journey.step topo callbacks event t = some t') : Counted host t' := by
  obtain ⟨w, device, frame, n, id, tasks, upper, wire, hi, rfl, hcases⟩ :=
    hfollowed.step_cases hwire hle hstep
  rcases hcases with rfl | ⟨hmine, hforwards, rfl⟩
  · have hsublist := (List.eraseIdx_sublist t.air event.1).filter (live host)
    simp only [Journey.put, Mesh.copies, List.flatMap_nil, List.map_nil, List.append_nil]
    exact ⟨h.sent, hsublist.length_le.trans h.length, fun c hc => h.air c (hsublist.subset hc)⟩
  · obtain ⟨hlt, hcopy⟩ := List.getElem?_eq_some_iff.mp hi
    have hlive : live host t.air[event.1] = true := by
      rw [hcopy]
      exact decide_eq_true hmine
    obtain rfl : n = t.sent.length := by
      have hnumber := h.air _ (List.mem_filter.mpr ⟨List.getElem_mem hlt, hlive⟩)
      rwa [hcopy] at hnumber
    have hrest : (t.air.eraseIdx event.1).filter (live host) = [] := by
      have hperm := (filter_eraseIdx_perm hlt (live host)).length_eq
      have hlength := h.length
      rw [List.filter_cons_of_pos hlive, List.length_cons] at hperm
      exact List.length_eq_zero_iff.mp (by omega)
    exact counted_put (t := { t with air := t.air.eraseIdx event.1 }) h.sent hrest htaken
      hforwards.route _ rfl

/-- Where no frame is taken twice, the numbers are those of all transmissions. -/
theorem sent_numbers (hdest : dest ≠ BROAD_IP) (hwire : ∀ w, (host w).wire = [])
    (htaken : TakenOnce topo host dest) {events : List (ℕ × Chance)}
    (hrun : Run.run (Journey.step topo callbacks) events
      (enter topo host v src dest proto buf noRetry) = some t) :
    t.sent.map Prod.snd = List.range' 1 t.sent.length := by
  by_cases hsends : Sends (host v) dest buf
  swap
  · rw [sent_of_not_sends hsends hdest hwire hrun]
    rfl
  have hcounted : Counted host (enter topo host v src dest proto buf noRetry) := by
    rw [enter, hsends.sendIPPacket hdest]
    refine counted_put (t := ⟨host, [], []⟩) rfl rfl htaken hsends.route
      (ipPacket src dest proto buf (host v).id) ?_
    simp only [hwire, List.nil_append]
  refine (Run.invariant (p := fun t => Counted host t ∧
    Followed topo host v (sentHeader src dest proto buf.length (host v).id) buf t)
    (fun event t t' ht hstep => ?_) ⟨hcounted, followed_enter hsends hdest hwire src proto noRetry⟩
    hrun).1.sent
  exact ⟨ht.1.step ht.2 htaken hwire hsends.le hstep, ht.2.step hwire hsends.le hstep⟩

theorem length_sent_le_iff (hdest : dest ≠ BROAD_IP) (hwire : ∀ w, (host w).wire = [])
    (htaken : TakenOnce topo host dest) (n : ℕ) :
    (∀ events t, Run.run (step topo callbacks) events
        (enter topo host v src dest proto buf noRetry) = some t → t.sent.length ≤ n) ↔
      ∀ events t, Run.run (step topo callbacks) events
        (enter topo host v src dest proto buf noRetry) = some t → ∀ out ∈ t.sent, out.2 ≤ n := by
  refine forall₃_congr fun events t hrun => ?_
  have hnumbers := sent_numbers hdest hwire htaken hrun
  constructor
  · intro hle out hout
    have hmem : out.2 ∈ t.sent.map Prod.snd := List.mem_map_of_mem hout
    rw [hnumbers, List.mem_range'_1] at hmem
    omega
  · intro hle
    by_contra hlt
    have hmem : t.sent.length ∈ t.sent.map Prod.snd := by
      rw [hnumbers, List.mem_range'_1]
      omega
    obtain ⟨out, hout, hlast⟩ := List.mem_map.mp hmem
    exact hlt (hlast ▸ hle out hout)

/-- **Forwarding ends** exactly if the next hops do: a packet is transmitted at most 255 times if
they lead from the node at which it enters through less than 255 others. Whatever tables the hosts
have, no more is needed, and no less will do. -/
theorem transmitted_le_iff (topo : Topology ι) (host : ι → Host τ) (v : ι) (src dest : IPAddr)
    (proto : BitVec 8) (buf : List Byte) (noRetry : Bool) (callbacks : List (Delivery → τ → τ))
    (hdest : dest ≠ BROAD_IP) (hwire : ∀ w, (host w).wire = []) :
    ((∀ events t, Run.run (step topo callbacks) events
        (enter topo host v src dest proto buf noRetry) = some t → ∀ out ∈ t.sent, out.2 ≤ 255) ↔
      HopsEnd topo host v src dest proto buf 255) ∧
    (TakenOnce topo host dest →
      ((∀ events t, Run.run (step topo callbacks) events
          (enter topo host v src dest proto buf noRetry) = some t → t.sent.length ≤ 255) ↔
        HopsEnd topo host v src dest proto buf 255)) := by
  constructor
  · exact transmitted_le_iff_hopsEnd hdest hwire src proto noRetry callbacks 255
  · intro htaken
    rw [length_sent_le_iff hdest hwire htaken]
    exact transmitted_le_iff_hopsEnd hdest hwire src proto noRetry callbacks 255

omit [DecidableEq ι] in
/-- In a network of up to 255 nodes it is only a circle that the next hops must not lead into. -/
theorem hopsEnd_iff_cycle [Fintype ι] (hcard : Fintype.card ι ≤ n) :
    HopsEnd topo host v src dest proto buf n ↔
      (Sends (host v) dest buf → ¬ ∃ c,
        Relation.ReflTransGen
          (Onward topo host (sentHeader src dest proto buf.length (host v).id) buf) v c ∧
        Relation.TransGen
          (Onward topo host (sentHeader src dest proto buf.length (host v).id) buf) c c) := by
  refine imp_congr_right fun _ => not_congr ⟨?_, ?_⟩
  · rintro ⟨u, hsteps⟩
    exact exists_cycle_of_steps hsteps hcard
  · rintro ⟨c, hreach, hcycle⟩
    exact exists_steps_of_cycle hreach hcycle n

end Journey

/-! ### A node disappears -/

namespace Mesh

/-- Three nodes on one link. -/
def sharedDevices : List (Fin 3 × Device) :=
  [(0, lineDevice 1), (1, lineDevice 2), (2, lineDevice 3)]

def sharedTopology : Topology (Fin 3) := .ofDevices sharedDevices fun _ _ => ()

/-- Every host as it is initialized. -/
def startMesh : Mesh (Fin 3) (List Delivery) where
  host v := NetworkLayer.start (sharedTopology.devices v) []
  air := []

/-- A route of the node with the device `own`, for the address of another. -/
def sharedRoute (own other via : Fin 256) (dist : BitVec 32) : RouteEntry :=
  ⟨BitVec.ofNat 32 other, BROAD_IP, BitVec.ofNat 64 own, dist, (lineDevice via).macAddr⟩

/-- The third node broadcasts once, and then never again. When the others have made an update of
what it said they tell each other of it, and make another. -/
def vanishing : List (Event (Fin 3)) :=
  [.broadcast 2 0, .receive 0 ⟨0, 0⟩, .receive 0 ⟨0, 0⟩,
    .update 0 0 [sharedRoute 1 1 1 0, sharedRoute 1 3 3 1],
    .update 1 0 [sharedRoute 2 2 2 0, sharedRoute 2 3 3 1],
    .broadcast 0 0, .broadcast 1 0, .receive 0 ⟨0, 0⟩, .receive 0 ⟨0, 0⟩, .receive 0 ⟨0, 0⟩,
    .receive 0 ⟨0, 0⟩,
    .update 0 updateInterval
      [sharedRoute 1 1 1 0, sharedRoute 1 2 2 1, sharedRoute 1 3 2 2],
    .update 1 updateInterval
      [sharedRoute 2 1 1 1, sharedRoute 2 2 2 0, sharedRoute 2 3 1 2]]

/-- What has become of the hosts. -/
structure Vanished (s : Mesh (Fin 3) (List Delivery)) : Prop where
  run : Run.run (step sharedTopology []) vanishing startMesh = some s
  wire : ∀ v, (s.host v).wire = []
  first : (s.host 0).egress 3 = some ((lineDevice 2).macAddr, lineDevice 1)
  second : (s.host 1).egress 3 = some ((lineDevice 1).macAddr, lineDevice 2)
  third : (s.host 2).egress 3 = some ((lineDevice 3).macAddr, lineDevice 3)

/-- Either of the two has its route to the third over the other. -/
theorem exists_vanished : ∃ s, Vanished s := by
  have heval : ((Run.run (step sharedTopology []) vanishing startMesh).map fun s =>
      [0, 1, 2].map fun v => ((s.host v).egress 3, (s.host v).wire.length)) =
      some [(some ((lineDevice 2).macAddr, lineDevice 1), 0),
        (some ((lineDevice 1).macAddr, lineDevice 2), 0),
        (some ((lineDevice 3).macAddr, lineDevice 3), 0)] := by
    decide +kernel
  obtain ⟨s, hrun, hvalues⟩ := Option.map_eq_some_iff.mp heval
  simp only [List.map_cons, List.map_nil, List.cons.injEq, Prod.mk.injEq, List.length_eq_zero_iff,
    and_true] at hvalues
  obtain ⟨⟨hfirst, hwire₀⟩, ⟨hsecond, hwire₁⟩, ⟨hthird, hwire₂⟩⟩ := hvalues
  refine ⟨s, hrun, fun v => ?_, hfirst, hsecond, hthird⟩
  match v with
  | 0 => exact hwire₀
  | 1 => exact hwire₁
  | 2 => exact hwire₂

namespace Vanished

variable {s : Mesh (Fin 3) (List Delivery)}

theorem config (h : Vanished s) (v : Fin 3) : (s.host v).deviceList = sharedTopology.devices v ∧
    (s.host v).arpList = [] := by
  have hconfig := config_run h.run v
  exact ⟨congrArg Prod.fst hconfig, congrArg (fun config => config.2.2.1) hconfig⟩

theorem sends (h : Vanished s) : Sends (s.host 0) 3 [1, 2, 3] where
  pos := by decide
  le := by decide
  miss node hnode := absurd ((h.config 0).2 ▸ hnode) List.not_mem_nil
  route := by
    rw [h.first]
    rfl

/-- Neither of the two is the third. -/
theorem forwards (h : Vanished s) {v : Fin 3} (hv : ¬ sharedTopology.Owns v 3)
    (hroute : ((s.host v).egress 3).isSome) (id : ℕ) :
    Forwards (s.host v) (sentHeader 1 3 17 3 id) [1, 2, 3] where
  other := by
    rw [isMyPacket, (h.config v).1, Bool.or_eq_false_iff, List.any_eq_false]
    refine ⟨decide_eq_false (by decide : (3 : IPAddr) ≠ BROAD_IP), fun device hdevice hip => ?_⟩
    exact hv ⟨device, hdevice, (of_decide_eq_true hip).symm⟩
  passes := ⟨⟨0, 0⟩, randomDrop_of_ne (by decide : (17 : BitVec 8) ≠ IPPROTO_TCP) ..⟩
  route := hroute

/-- **The circle.** -/
theorem cycle (h : Vanished s) (id : ℕ) :
    Relation.TransGen
      (Journey.Onward sharedTopology s.host (sentHeader 1 3 17 3 id) [1, 2, 3]) 0 0 := by
  have hfirst : Journey.Onward sharedTopology s.host (sentHeader 1 3 17 3 id) [1, 2, 3] 0 1 := by
    refine ⟨⟨_, _, h.first, lineDevice 2, by decide, ?_⟩,
      h.forwards (by decide) (by rw [h.second]; rfl) id⟩
    rw [(h.config 1).1]
    decide
  have hsecond : Journey.Onward sharedTopology s.host (sentHeader 1 3 17 3 id) [1, 2, 3] 1 0 := by
    refine ⟨⟨_, _, h.second, lineDevice 1, by decide, ?_⟩,
      h.forwards (by decide) (by rw [h.first]; rfl) id⟩
    rw [(h.config 0).1]
    decide
  exact .tail (.single hfirst) hsecond

theorem takenOnce (h : Vanished s) : Journey.TakenOnce sharedTopology s.host 3 := by
  have hdevices : ∀ v, (s.host v).deviceList = sharedTopology.devices v := fun v => (h.config v).1
  intro v dstmac device' hegress
  simp only [hdevices]
  match v with
  | 0 =>
    obtain ⟨rfl, rfl⟩ := Prod.mk.inj (Option.some.inj (h.first.symm.trans hegress))
    decide
  | 1 =>
    obtain ⟨rfl, rfl⟩ := Prod.mk.inj (Option.some.inj (h.second.symm.trans hegress))
    decide
  | 2 =>
    obtain ⟨rfl, rfl⟩ := Prod.mk.inj (Option.some.inj (h.third.symm.trans hegress))
    decide

end Vanished

end Mesh

namespace Journey

open Mesh

/-- A packet for the node that has disappeared goes back and forth for ever. -/
theorem not_transmitted_le :
    ∃ s, Run.run (Mesh.step sharedTopology []) vanishing startMesh = some s ∧
      ∀ n,
        (¬ ∀ events t, Run.run (step sharedTopology [keepDelivery]) events
          (enter sharedTopology s.host 0 1 3 17 [1, 2, 3] false) = some t →
            ∀ out ∈ t.sent, out.2 ≤ n) ∧
        ¬ ∀ events t, Run.run (step sharedTopology [keepDelivery]) events
          (enter sharedTopology s.host 0 1 3 17 [1, 2, 3] false) = some t →
            t.sent.length ≤ n := by
  obtain ⟨s, h⟩ := exists_vanished
  refine ⟨s, h.run, fun n => ?_⟩
  rw [length_sent_le_iff (by decide) h.wire h.takenOnce, and_self,
    transmitted_le_iff_hopsEnd (by decide) h.wire]
  exact fun hends => hends h.sends (exists_steps_of_cycle .refl (h.cycle _) n)

theorem transmitted_le_iff_vanished :
    ∃ s, Vanished s ∧
      ((∀ events t, Run.run (step sharedTopology [keepDelivery]) events
          (enter sharedTopology s.host 1 2 3 17 [1, 2, 3] false) = some t →
            ∀ out ∈ t.sent, out.2 ≤ 255) ↔
        HopsEnd sharedTopology s.host 1 2 3 17 [1, 2, 3] 255) ∧
      (TakenOnce sharedTopology s.host 3 →
        ((∀ events t, Run.run (step sharedTopology [keepDelivery]) events
            (enter sharedTopology s.host 1 2 3 17 [1, 2, 3] false) = some t →
              t.sent.length ≤ 255) ↔
          HopsEnd sharedTopology s.host 1 2 3 17 [1, 2, 3] 255)) := by
  obtain ⟨s, h⟩ := exists_vanished
  exact ⟨s, h, transmitted_le_iff sharedTopology s.host 1 2 3 17 [1, 2, 3] false [keepDelivery]
    (by decide) h.wire⟩

end Journey

end LabNetstack
