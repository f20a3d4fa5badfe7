import LabNetstack.Bytes

/-!
# Ethernet frames

`sendFrame` puts a header in front of its data and hands the result to pcap; `handleFrame` takes a
captured frame apart again and calls every registered callback. What the callbacks change is left
open: it is a type `σ`. A run has no result when a header is read past the bytes that were
captured.

## Main results

* `handleFrame_of_isMine` — what the callbacks get of a captured frame
* `handleFrame_sendFrame` — a frame that was sent reaches the callbacks as it was sent
-/

namespace LabNetstack

open Layout

/-! ### The header -/

/-- `struct MacAddr`. -/
structure MacAddr where
  a : Vector Byte 6
deriving DecidableEq

def BROAD_MAC : MacAddr := ⟨Vector.replicate 6 0xff⟩

def macAddrEqual (a b : MacAddr) : Bool := (List.finRange 6).all fun i => a.a[i] = b.a[i]

theorem macAddrEqual_iff {a b : MacAddr} : macAddrEqual a b = true ↔ a = b := by
  rw [macAddrEqual, List.all_eq_true]
  constructor
  · intro h
    rcases a with ⟨a⟩
    rcases b with ⟨b⟩
    refine congrArg MacAddr.mk (Vector.ext fun i hi => ?_)
    simpa using h ⟨i, hi⟩ (List.mem_finRange _)
  · rintro rfl i -
    exact decide_eq_true rfl

def MacAddr.layout : Struct MacAddr :=
  (Struct.array 6).iso ⟨.mk, MacAddr.a, fun _ => rfl, fun _ => rfl⟩

/-- `struct EthHeader`. `type` is in network order in the frame, in host order in a callback. -/
structure EthHeader where
  desAddr : MacAddr
  srcAddr : MacAddr
  type : BitVec 16
deriving DecidableEq

def createEthHeader (desAddr srcAddr : MacAddr) (type : BitVec 16) : EthHeader :=
  ⟨desAddr, srcAddr, type⟩

def EthHeader.layout : Struct EthHeader :=
  (MacAddr.layout.pair (MacAddr.layout.pair uint16)).iso
    ⟨fun (des, src, type) => ⟨des, src, type⟩, fun h => (h.desAddr, h.srcAddr, h.type),
      fun _ => rfl, fun _ => rfl⟩

@[simp] theorem MacAddr.size_layout : MacAddr.layout.size = 6 := rfl

@[simp] theorem EthHeader.size_layout : EthHeader.layout.size = 14 := rfl

def ETHTYPE_IPv4 : BitVec 16 := 0x0800

/-! ### Devices -/

/-- `struct Device`, the fields that the receive and send paths use. `address` is where the struct
lies, the value of a `struct Device *`. -/
structure Device where
  address : BitVec 64
  macAddr : MacAddr
  ipAddr : IPAddr
deriving DecidableEq

/-! ### Sending -/

/-- The frame that `sendFrame` hands to pcap. -/
def sendFrame (buf : List Byte) (ethType : BitVec 16) (destMac : MacAddr) (device : Device) :
    Option (List Byte) :=
  if buf.length > 0x10000 - EthHeader.layout.size ∨ buf.length ≤ 0 then none
  else some (EthHeader.layout.bytes (createEthHeader destMac device.macAddr (htons ethType)) ++ buf)

/-! ### Receiving -/

/-- `struct pcap_pkthdr`, the field that is used: how long the frame was. -/
structure PcapPkthdr where
  len : BitVec 32

/-- `frameReceiveCallback`. -/
abbrev FrameReceiveCallback (σ : Type*) := List Byte → BitVec 32 → EthHeader → Device → σ → Option σ

variable {σ : Type*}

def handleFrame (deviceList : List Device) (linkCallbackList : List (FrameReceiveCallback σ))
    (device : Device) (pkthdr : PcapPkthdr) (pktdata : List Byte) (s : σ) : Option σ :=
  match EthHeader.layout.read? pktdata with
  | none => none
  | some header =>
    let hdr := { header with type := ntohs header.type }
    let data := pktdata.drop EthHeader.layout.size
    let len := pkthdr.len - BitVec.ofNat 32 EthHeader.layout.size
    let isMyFrame := macAddrEqual hdr.desAddr BROAD_MAC ||
      deviceList.any fun device => macAddrEqual hdr.desAddr device.macAddr
    if isMyFrame then linkCallbackList.foldlM (fun s f => f data len hdr device s) s else some s

/-- A frame is ignored, or handed to the callbacks in turn. -/
theorem handleFrame_cases {deviceList : List Device} {callbacks : List (FrameReceiveCallback σ)}
    {device : Device} {pkthdr : PcapPkthdr} {pktdata : List Byte} {s s' : σ}
    (h : handleFrame deviceList callbacks device pkthdr pktdata s = some s') :
    s' = s ∨ ∃ data len hdr, callbacks.foldlM (fun s f => f data len hdr device s) s = some s' := by
  rw [handleFrame] at h
  split at h
  · exact absurd h (Option.some_ne_none _).symm
  · dsimp only at h
    split_ifs at h
    · exact Or.inr ⟨_, _, _, h⟩
    · exact Or.inl (Option.some.inj h).symm

/-- A frame is ours when it goes to everyone or to one of our addresses. -/
def isMine (deviceList : List Device) (destMac : MacAddr) : Prop :=
  destMac = BROAD_MAC ∨ ∃ device ∈ deviceList, destMac = device.macAddr

instance (deviceList : List Device) (destMac : MacAddr) : Decidable (isMine deviceList destMac) :=
  inferInstanceAs (Decidable (_ ∨ _))

theorem isMyFrame_iff {deviceList : List Device} {destMac : MacAddr} :
    (macAddrEqual destMac BROAD_MAC ||
      deviceList.any fun device => macAddrEqual destMac device.macAddr) = true ↔
      isMine deviceList destMac := by
  simp only [Bool.or_eq_true, List.any_eq_true, macAddrEqual_iff, isMine]

/-- A frame for somebody else is ignored. -/
theorem handleFrame_of_not_isMine {deviceList : List Device} {pktdata : List Byte}
    (hsize : EthHeader.layout.size ≤ pktdata.length)
    (hother : ¬ isMine deviceList (EthHeader.layout.read pktdata).desAddr)
    (callbacks : List (FrameReceiveCallback σ)) (device : Device) (pkthdr : PcapPkthdr) (s : σ) :
    handleFrame deviceList callbacks device pkthdr pktdata s = some s := by
  rw [handleFrame, Struct.read?, if_pos hsize]
  exact if_neg (isMyFrame_iff.not.mpr hother)

/-- **What the callbacks get.** Everything behind the fourteen bytes of the header, for a length of
fourteen less than pcap reports. -/
theorem handleFrame_of_isMine {deviceList : List Device} {pktdata : List Byte}
    (hsize : EthHeader.layout.size ≤ pktdata.length)
    (hmine : isMine deviceList (EthHeader.layout.read pktdata).desAddr)
    (callbacks : List (FrameReceiveCallback σ)) (device : Device) (pkthdr : PcapPkthdr) (s : σ) :
    handleFrame deviceList callbacks device pkthdr pktdata s =
      callbacks.foldlM (fun s f => f (pktdata.drop EthHeader.layout.size) (pkthdr.len - 14)
        { EthHeader.layout.read pktdata with type := ntohs (EthHeader.layout.read pktdata).type }
        device s) s := by
  rw [handleFrame, Struct.read?, if_pos hsize]
  exact if_pos (isMyFrame_iff.mpr hmine)

/-- **Across a link.** What one host sends to another, or to everyone, is handed to every callback
there, byte for byte and with its length; so is what the link appends to it. -/
theorem handleFrame_sendFrame (deviceList : List Device) {buf frame : List Byte}
    {type : BitVec 16} {destMac : MacAddr} {source : Device}
    (hsend : sendFrame buf type destMac source = some frame) (hmine : isMine deviceList destMac)
    (pad : List Byte) (callbacks : List (FrameReceiveCallback σ)) (device : Device) (s : σ) :
    handleFrame deviceList callbacks device ⟨BitVec.ofNat 32 (frame ++ pad).length⟩
      (frame ++ pad) s =
      callbacks.foldlM (fun s f => f (buf ++ pad) (BitVec.ofNat 32 (buf ++ pad).length)
        ⟨destMac, source.macAddr, type⟩ device s) s := by
  rw [sendFrame] at hsend
  split_ifs at hsend with hlen
  obtain rfl := Option.some.inj hsend
  have hread : EthHeader.layout.read (EthHeader.layout.bytes
      (createEthHeader destMac source.macAddr (htons type)) ++ buf ++ pad)
      = ⟨destMac, source.macAddr, htons type⟩ := by
    rw [List.append_assoc, EthHeader.layout.read_append, createEthHeader]
  have hsub : BitVec.ofNat 32 (EthHeader.layout.bytes
      (createEthHeader destMac source.macAddr (htons type)) ++ buf ++ pad).length - 14
      = BitVec.ofNat 32 (buf ++ pad).length := by
    rw [List.append_assoc, List.length_append, EthHeader.layout.length_bytes, BitVec.ofNat_add,
      BitVec.add_comm]
    exact BitVec.add_sub_cancel _ _
  have hsize : EthHeader.layout.size ≤ (EthHeader.layout.bytes
      (createEthHeader destMac source.macAddr (htons type)) ++ buf ++ pad).length := by
    rw [List.append_assoc, List.length_append, EthHeader.layout.length_bytes]
    exact Nat.le_add_right ..
  rw [handleFrame_of_isMine hsize (by rw [hread]; exact hmine)]
  simp only [hread, hsub, ntohs, htons_htons]
  rw [List.append_assoc, EthHeader.layout.drop_append]

end LabNetstack
