import LabNetstack.Network.ARP
import LabNetstack.Transport.Receive

/-!
# Truncated frames

None of the functions that take a captured frame apart compares a length with the size of the header
that it is about to read: each reads the header where it would be, takes its size off the length,
and hands on what comes out, in 32 bits. Here the frame lies in memory with something behind it,
and what is looked at is where in that memory the headers are read, and which piece of it each
layer hands to the next.

Sending is different: `sendIPPacket` and `sendFrame` refuse lengths that do not fit.

## Main results

* `Capture.inside_iff` — how long a frame has to be for all of this to stay inside of it
* `Capture.handleFrame_handed` — the pieces are those that the callbacks of the stack get
-/

namespace LabNetstack

open Layout

variable {τ : Type*}

/-- What is done with the memory that a frame was captured to: a header, or a field of one, is read
at `off`, or the `len` bytes there are handed to a callback, or sent on. -/
inductive Access
  | header (off size : ℕ)
  | handed (off : ℕ) (len : BitVec 32)
  | sent (off : ℕ) (len : BitVec 32)
deriving DecidableEq

/-- Within the first `n` bytes. -/
def Access.Inside (n : ℕ) : Access → Prop
  | .header off size => off + size ≤ n
  | .handed off len => off + len.toNat ≤ n
  | .sent off len => off + len.toNat ≤ n

instance (n : ℕ) : ∀ access : Access, Decidable (access.Inside n)
  | .header _ _ => inferInstanceAs (Decidable (_ ≤ _))
  | .handed _ _ => inferInstanceAs (Decidable (_ ≤ _))
  | .sent _ _ => inferInstanceAs (Decidable (_ ≤ _))

def Access.isHanded : Access → Bool
  | .header _ _ => false
  | .handed _ _ => true
  | .sent _ _ => false

namespace Capture

/-! ### The layers -/

def handleTCPPacket (off : ℕ) (pktlen : BitVec 32) (ipHdr : IpHeader) : List Access :=
  if ipHdr.protocol ≠ IPPROTO_TCP then []
  else
    [.header off TCPHeader.layout.size,
      .handed (off + IpHeader.layout.size) (pktlen - BitVec.ofNat 32 IpHeader.layout.size)]

/-- `randomDrop` reads the flags of TCP whatever the protocol. A packet that is kept goes to
`handleRouteTable` and `handleTCPPacket`, or to `deliverIPPacket` as it came. -/
def handleIPPacket (host : Host τ) (chance : Chance) (mem : List Byte) (off : ℕ)
    (pktlen : BitVec 32) (type : BitVec 16) : List Access :=
  if type ≠ ETHTYPE_IPv4 then []
  else
    let hdr := IpHeader.layout.read (mem.drop off)
    let data := off + IpHeader.layout.size
    let len := pktlen - BitVec.ofNat 32 IpHeader.layout.size
    .header off IpHeader.layout.size :: .header (data + 13) 1 ::
      if randomDrop host.random_drop chance (mem.drop data) hdr then []
      else if isMyPacket host hdr then
        .handed data len :: .handed data len :: handleTCPPacket data len hdr
      else [.sent off pktlen]

def handleARPPacket (off : ℕ) (type : BitVec 16) : List Access :=
  if type ≠ ETHTYPE_ARP then [] else [.header off ARPPacket.layout.size]

/-- `mem` is what lies in memory from the first byte of the frame on; the frame is the first
`pkthdr.len` bytes of it. -/
def handleFrame (host : Host τ) (chance : Chance) (mem : List Byte) (pkthdr : PcapPkthdr) :
    List Access :=
  let header := EthHeader.layout.read mem
  let type := ntohs header.type
  let data := EthHeader.layout.size
  let len := pkthdr.len - BitVec.ofNat 32 EthHeader.layout.size
  .header 0 EthHeader.layout.size ::
    if isMine host.deviceList header.desAddr then
      .handed data len :: handleARPPacket data type ++
        (.handed data len :: handleIPPacket host chance mem data len type)
    else []

/-! ### How long a frame has to be -/

/-- As long as the headers that its first bytes lead to. -/
structure LongEnough (host : Host τ) (chance : Chance) (mem : List Byte) (n : ℕ) : Prop where
  ethernet : 14 ≤ n
  arp : isMine host.deviceList (EthHeader.layout.read mem).desAddr →
    ntohs (EthHeader.layout.read mem).type = ETHTYPE_ARP → 42 ≤ n
  ip : isMine host.deviceList (EthHeader.layout.read mem).desAddr →
    ntohs (EthHeader.layout.read mem).type = ETHTYPE_IPv4 → 48 ≤ n
  tcp : isMine host.deviceList (EthHeader.layout.read mem).desAddr →
    ntohs (EthHeader.layout.read mem).type = ETHTYPE_IPv4 → ¬ Frame.Dropped host chance mem →
    isMyPacket host (Frame.ipHeader mem) = true → (Frame.ipHeader mem).protocol = IPPROTO_TCP →
    54 ≤ n

variable {host : Host τ} {chance : Chance} {mem : List Byte}

/-- What is behind the first `off` bytes is a piece of the frame, unless the subtraction wraps. -/
theorem handed_inside_iff {off : ℕ} {n : BitVec 32} :
    (Access.handed off (n - BitVec.ofNat 32 off)).Inside n.toNat ↔ off ≤ n.toNat := by
  have hn := n.isLt
  rw [Access.Inside, BitVec.toNat_sub, BitVec.toNat_ofNat]
  omega

theorem sent_inside_iff {off : ℕ} {n : BitVec 32} :
    (Access.sent off (n - BitVec.ofNat 32 off)).Inside n.toNat ↔ off ≤ n.toNat := handed_inside_iff

theorem sub_header (n : BitVec 32) (off size : ℕ) :
    n - BitVec.ofNat 32 off - BitVec.ofNat 32 size = n - BitVec.ofNat 32 (off + size) := by
  rw [BitVec.ofNat_add, BitVec.sub_sub]

theorem handleTCPPacket_inside_iff {off : ℕ} {n : BitVec 32} (ipHdr : IpHeader) :
    (∀ access ∈ handleTCPPacket off (n - BitVec.ofNat 32 off) ipHdr, access.Inside n.toNat) ↔
      (ipHdr.protocol = IPPROTO_TCP → off + 20 ≤ n.toNat) := by
  rw [handleTCPPacket, sub_header]
  by_cases hproto : ipHdr.protocol = IPPROTO_TCP
  · rw [if_neg (not_not.mpr hproto), List.forall_mem_cons, List.forall_mem_singleton,
      handed_inside_iff]
    exact ⟨fun h _ => h.1, fun h => ⟨h hproto, h hproto⟩⟩
  · rw [if_pos hproto]
    exact iff_of_true (fun _ h => absurd h List.not_mem_nil) fun h => absurd h hproto

/-- The packet of a frame. -/
theorem handleIPPacket_eq (host : Host τ) (chance : Chance) (mem : List Byte) (n : BitVec 32) :
    handleIPPacket host chance mem 14 (n - BitVec.ofNat 32 14) ETHTYPE_IPv4 =
      .header 14 20 :: .header 47 1 ::
        if Frame.Dropped host chance mem then []
        else if isMyPacket host (Frame.ipHeader mem) then
          .handed 34 (n - BitVec.ofNat 32 34) :: .handed 34 (n - BitVec.ofNat 32 34) ::
            handleTCPPacket 34 (n - BitVec.ofNat 32 34) (Frame.ipHeader mem)
        else [.sent 14 (n - BitVec.ofNat 32 14)] := by
  rw [handleIPPacket, if_neg (not_not.mpr rfl), sub_header]
  rfl

theorem handleIPPacket_inside_iff {n : BitVec 32} (type : BitVec 16) :
    (∀ access ∈ handleIPPacket host chance mem 14 (n - BitVec.ofNat 32 14) type,
      access.Inside n.toNat) ↔
      (type = ETHTYPE_IPv4 → 48 ≤ n.toNat ∧ (¬ Frame.Dropped host chance mem →
        isMyPacket host (Frame.ipHeader mem) = true →
          (Frame.ipHeader mem).protocol = IPPROTO_TCP → 54 ≤ n.toNat)) := by
  by_cases htype : type = ETHTYPE_IPv4
  · subst htype
    have hheader : (Access.header 14 20).Inside n.toNat ↔ 34 ≤ n.toNat := Iff.rfl
    have hflags : (Access.header 47 1).Inside n.toNat ↔ 48 ≤ n.toNat := Iff.rfl
    have hnil : ∀ access ∈ ([] : List Access), access.Inside n.toNat :=
      fun _ h => absurd h List.not_mem_nil
    have hshort : 48 ≤ n.toNat → 34 ≤ n.toNat ∧ 14 ≤ n.toNat := fun h => by omega
    rw [handleIPPacket_eq, List.forall_mem_cons, List.forall_mem_cons, hheader, hflags]
    by_cases hdrop : Frame.Dropped host chance mem
    · rw [if_pos hdrop]
      constructor
      · rintro ⟨-, hlen, -⟩ -
        exact ⟨hlen, fun hkept => absurd hdrop hkept⟩
      · intro h
        exact ⟨(hshort (h rfl).1).1, (h rfl).1, hnil⟩
    rw [if_neg hdrop]
    by_cases hmine : isMyPacket host (Frame.ipHeader mem) = true
    · rw [if_pos hmine, List.forall_mem_cons, List.forall_mem_cons, handed_inside_iff,
        handleTCPPacket_inside_iff]
      constructor
      · rintro ⟨-, hlen, -, -, htcp⟩ -
        exact ⟨hlen, fun _ _ => htcp⟩
      · intro h
        have hlen := (hshort (h rfl).1).1
        exact ⟨hlen, (h rfl).1, hlen, hlen, (h rfl).2 hdrop hmine⟩
    · rw [if_neg hmine, List.forall_mem_singleton, sent_inside_iff]
      constructor
      · rintro ⟨-, hlen, -⟩ -
        exact ⟨hlen, fun _ hm => absurd hm hmine⟩
      · intro h
        have hlen := hshort (h rfl).1
        exact ⟨hlen.1, (h rfl).1, hlen.2⟩
  · rw [handleIPPacket, if_pos htype]
    exact iff_of_true (fun _ h => absurd h List.not_mem_nil) fun h => absurd h htype

theorem handleARPPacket_inside_iff {n : ℕ} (type : BitVec 16) :
    (∀ access ∈ handleARPPacket 14 type, access.Inside n) ↔ (type = ETHTYPE_ARP → 42 ≤ n) := by
  rw [handleARPPacket]
  by_cases htype : type = ETHTYPE_ARP
  · rw [if_neg (not_not.mpr htype), List.forall_mem_singleton]
    exact ⟨fun h _ => h, fun h => h htype⟩
  · rw [if_pos htype]
    exact iff_of_true (fun _ h => absurd h List.not_mem_nil) fun h => absurd h htype

/-- **Truncated frames.** All that is read and handed on lies within the frame exactly if the frame
is as long as its headers want it. -/
theorem inside_iff (host : Host τ) (chance : Chance) (mem : List Byte) (len : BitVec 32) :
    (∀ access ∈ handleFrame host chance mem ⟨len⟩, access.Inside len.toNat) ↔
      LongEnough host chance mem len.toNat := by
  have hheader : (Access.header 0 14).Inside len.toNat ↔ 14 ≤ len.toNat := by
    rw [Access.Inside, Nat.zero_add]
  rw [handleFrame]
  dsimp only
  rw [List.forall_mem_cons, EthHeader.size_layout, hheader]
  by_cases hmine : isMine host.deviceList (EthHeader.layout.read mem).desAddr
  · rw [if_pos hmine, List.forall_mem_append, List.forall_mem_cons, List.forall_mem_cons,
      handed_inside_iff, handleARPPacket_inside_iff, handleIPPacket_inside_iff]
    constructor
    · rintro ⟨hlen, ⟨-, harp⟩, -, hip⟩
      exact ⟨hlen, fun _ => harp, fun _ htype => (hip htype).1, fun _ htype => (hip htype).2⟩
    · intro h
      exact ⟨h.ethernet, ⟨h.ethernet, h.arp hmine⟩, h.ethernet,
        fun htype => ⟨h.ip hmine htype, h.tcp hmine htype⟩⟩
  · rw [if_neg hmine]
    constructor
    · intro h
      exact ⟨h.1, fun hm => absurd hm hmine, fun hm => absurd hm hmine, fun hm => absurd hm hmine⟩
    · exact fun h => ⟨h.ethernet, fun _ hnil => absurd hnil List.not_mem_nil⟩

/-- A host with nothing in its tables. -/
def bareHost : Host Unit where
  deviceList := []
  manRouteTable := []
  onlineRouteTable := []
  tmpRouteTable := []
  arpList := []
  resendIPTaskList := []
  id := 0
  lastBroad := none
  lastUpdate := none
  random_drop := 0
  wire := []
  upper := ()

/-- The first twenty bytes are an IPv4 frame to everyone; behind it lies what would be an address to
everyone. -/
def shortFrame : List Byte :=
  List.replicate 6 0xff ++ List.replicate 6 0 ++ [0x08, 0x00] ++ List.replicate 16 0 ++
    List.replicate 4 0xff

/-- Of the frame the callbacks get nearly 2 ^ 32 bytes. -/
theorem not_inside : ¬ ∀ (host : Host Unit) (chance : Chance) (mem : List Byte) (len : BitVec 32),
    ∀ access ∈ handleFrame host chance mem ⟨len⟩, access.Inside len.toNat := by
  intro hclaim
  have hmem : Access.handed 34 0xfffffff2 ∈ handleFrame bareHost ⟨0, 0⟩ shortFrame ⟨20⟩ := by decide
  exact absurd (hclaim bareHost ⟨0, 0⟩ shortFrame 20 _ hmem) (by decide)

/-! ### What the callbacks get -/

/-- A callback that notes which piece of a frame of `n` bytes it is called with. -/
def note {η : Type*} (n : ℕ)
    (f : List Byte → BitVec 32 → η → Device → Host (List Access) → Option (Host (List Access)))
    (data : List Byte) (len : BitVec 32) (hdr : η) (device : Device) (host : Host (List Access)) :
    Option (Host (List Access)) :=
  f data len hdr device { host with upper := host.upper ++ [.handed (n - data.length) len] }

def noteTCP (n : ℕ) : TCPPacketReceiveCallback (List Access) := fun _ data len _ _ log =>
  some (log ++ [.handed (n - data.length) (BitVec.ofInt 32 len)])

/-- What the IP layer calls. What becomes of an advertisement is left out here. -/
def networkCallbacks (n : ℕ) : List (IPPacketReceiveCallback (List Access)) :=
  [note n fun _ _ _ _ host => some host, note n (LabNetstack.handleTCPPacket [noteTCP n])]

def linkCallbacks (n : ℕ) (chance : Chance) : List (FrameReceiveCallback (Host (List Access))) :=
  [note n LabNetstack.handleARPPacket,
    note n (LabNetstack.handleIPPacket (networkCallbacks n) chance)]

variable {frame : List Byte} {len : BitVec 32}

theorem handleTCPPacket_noted (hlen : frame.length = len.toNat) (hdr : IpHeader)
    (hlong : hdr.protocol = IPPROTO_TCP → 54 ≤ len.toNat) (device : Device)
    (host : Host (List Access)) :
    ∃ host', LabNetstack.handleTCPPacket [noteTCP len.toNat] (frame.drop 34)
        (len - BitVec.ofNat 32 34) hdr device host = some host' ∧
      host'.upper = host.upper ++
        (handleTCPPacket 34 (len - BitVec.ofNat 32 34) hdr).filter Access.isHanded := by
  by_cases hproto : hdr.protocol = IPPROTO_TCP
  · have hsize : TCPHeader.layout.size ≤ (frame.drop 34).length := by
      have := hlong hproto
      rw [List.length_drop, TCPHeader.size_layout]
      omega
    have hoff : len.toNat - ((frame.drop 34).drop 20).length = 54 := by
      have := hlong hproto
      rw [List.length_drop, List.length_drop]
      omega
    refine ⟨_, handleTCPPacket_of_tcp hproto hsize _ _ _, ?_⟩
    dsimp only
    rw [handleTCPPacket, if_neg (not_not.mpr hproto), hoff, BitVec.ofInt_toInt]
    rfl
  · refine ⟨host, by rw [LabNetstack.handleTCPPacket, if_pos hproto], ?_⟩
    rw [handleTCPPacket, if_pos hproto, List.filter_nil, List.append_nil]

theorem handleIPPacket_noted (hlen : frame.length = len.toNat) (chance : Chance) (hdr : EthHeader)
    (device : Device) (host : Host (List Access))
    (hinside : ∀ access ∈ handleIPPacket host chance frame 14 (len - BitVec.ofNat 32 14) hdr.type,
      access.Inside len.toNat) :
    ∃ host', LabNetstack.handleIPPacket (networkCallbacks len.toNat) chance (frame.drop 14)
        (len - BitVec.ofNat 32 14) hdr device host = some host' ∧
      host'.upper = host.upper ++
        (handleIPPacket host chance frame 14 (len - BitVec.ofNat 32 14) hdr.type).filter
          Access.isHanded := by
  by_cases htype : hdr.type = ETHTYPE_IPv4
  · obtain ⟨hflags, htcp⟩ := (handleIPPacket_inside_iff hdr.type).mp hinside htype
    have hsize : IpHeader.layout.size ≤ (frame.drop 14).length := by
      rw [List.length_drop, IpHeader.size_layout]
      omega
    have hdata : (frame.drop 14).drop IpHeader.layout.size = frame.drop 34 := List.drop_drop
    rw [htype, handleIPPacket_eq]
    by_cases hdropped : Frame.Dropped host chance frame
    · have hdrop := hdropped
      rw [Frame.Dropped, ← hdata] at hdrop
      refine ⟨host, handleIPPacket_of_dropped htype hsize hdrop _ _ _, ?_⟩
      rw [if_pos hdropped]
      exact (List.append_nil _).symm
    · have hkept : randomDrop host.random_drop chance ((frame.drop 14).drop IpHeader.layout.size)
          (IpHeader.layout.read (frame.drop 14)) = false := by
        rw [hdata]
        exact eq_false_of_ne_true hdropped
      rw [if_neg hdropped]
      by_cases hmine : isMyPacket host (Frame.ipHeader frame) = true
      · rw [handleIPPacket_of_isMyPacket htype hsize hmine, hkept, if_pos hmine,
          if_neg Bool.false_ne_true, hdata]
        have hpiece : len - BitVec.ofNat 32 14 - 20 = len - BitVec.ofNat 32 34 :=
          sub_header len 14 20
        have hoff : len.toNat - (frame.drop 34).length = 34 := by
          rw [List.length_drop]
          omega
        obtain ⟨host', hcall, hupper⟩ := handleTCPPacket_noted hlen (Frame.ipHeader frame)
          (htcp hdropped hmine) device
          { host with upper := host.upper ++ [.handed 34 (len - BitVec.ofNat 32 34)] ++
              [.handed 34 (len - BitVec.ofNat 32 34)] }
        refine ⟨host', ?_, ?_⟩
        · rw [hpiece, networkCallbacks, List.foldlM_cons, note, Option.bind_eq_bind,
            Option.bind_some, List.foldlM_cons, note, hoff]
          exact Option.bind_eq_some_iff.mpr ⟨host', hcall, rfl⟩
        · rw [hupper, List.append_assoc, List.append_assoc]
          rfl
      · rw [handleIPPacket_of_not_isMyPacket htype hsize (Bool.eq_false_iff.mpr hmine) hkept,
          if_neg hmine]
        have hpktlen : (len - BitVec.ofNat 32 14).toNat ≤ (frame.drop 14).length := by
          rw [List.length_drop, BitVec.toNat_sub, BitVec.toNat_ofNat]
          omega
        obtain ⟨wire, hsend⟩ := deliverIPPacket_frame hpktlen (Frame.ipHeader frame).dst host
        exact ⟨_, hsend, (List.append_nil _).symm⟩
  · refine ⟨host, by rw [LabNetstack.handleIPPacket, if_pos htype], ?_⟩
    rw [handleIPPacket, if_pos htype, List.filter_nil, List.append_nil]

/-- **What the callbacks get.** If all of it lies within the frame, the stack gets through it, and its
callbacks are handed these pieces. -/
theorem handleFrame_handed (hlen : frame.length = len.toNat) (chance : Chance) (device : Device)
    (host : Host (List Access))
    (hinside : ∀ access ∈ handleFrame host chance frame ⟨len⟩, access.Inside len.toNat) :
    ∃ host', LabNetstack.handleFrame host.deviceList (linkCallbacks len.toNat chance) device ⟨len⟩
        frame host = some host' ∧
      host'.upper = host.upper ++ (handleFrame host chance frame ⟨len⟩).filter Access.isHanded := by
  have hethernet := ((inside_iff host chance frame len).mp hinside).ethernet
  have hsize : EthHeader.layout.size ≤ frame.length := by
    rw [hlen, EthHeader.size_layout]
    exact hethernet
  by_cases hmine : isMine host.deviceList (EthHeader.layout.read frame).desAddr
  · rw [handleFrame_of_isMine hsize hmine]
    rw [handleFrame] at hinside ⊢
    dsimp only at hinside ⊢
    rw [if_pos hmine] at hinside ⊢
    rw [List.forall_mem_cons, List.forall_mem_append, List.forall_mem_cons,
      List.forall_mem_cons] at hinside
    obtain ⟨-, ⟨-, harp⟩, -, hip⟩ := hinside
    have hoff : len.toNat - (frame.drop 14).length = 14 := by
      rw [List.length_drop]
      omega
    let noted : Access := .handed 14 (len - BitVec.ofNat 32 14)
    let hdr := { EthHeader.layout.read frame with type := ntohs (EthHeader.layout.read frame).type }
    have harpsize : hdr.type = ETHTYPE_ARP → ARPPacket.layout.size ≤ (frame.drop 14).length := by
      intro htype
      have := (handleARPPacket_inside_iff hdr.type).mp harp htype
      rw [List.length_drop, ARPPacket.size_layout]
      omega
    obtain ⟨wire, arpList, hfirst⟩ := handleARPPacket_frame harpsize (len - BitVec.ofNat 32 14)
      device { host with upper := host.upper ++ [noted] }
    obtain ⟨host', hsecond, hupper⟩ := handleIPPacket_noted hlen chance hdr device
      { host with wire := wire, arpList := arpList, upper := host.upper ++ [noted] ++ [noted] } hip
    refine ⟨host', ?_, ?_⟩
    · rw [linkCallbacks, List.foldlM_cons, note, EthHeader.size_layout, hoff]
      refine Option.bind_eq_some_iff.mpr ⟨_, hfirst, Option.bind_eq_some_iff.mpr ⟨host', ?_, rfl⟩⟩
      dsimp only
      rw [note, hoff]
      exact hsecond
    · have hnone : (handleARPPacket 14 hdr.type).filter Access.isHanded = [] := by
        rw [handleARPPacket]
        split_ifs <;> rfl
      rw [hupper, List.filter_cons_of_neg (by decide), List.filter_append,
        List.filter_cons_of_pos rfl, List.filter_cons_of_pos rfl]
      change _ = host.upper ++ (noted :: (handleARPPacket 14 hdr.type).filter Access.isHanded ++ _)
      rw [hnone, List.append_assoc, List.append_assoc]
      rfl
  · refine ⟨host, handleFrame_of_not_isMine hsize hmine _ _ _ _, ?_⟩
    rw [handleFrame]
    dsimp only
    rw [if_neg hmine]
    exact (List.append_nil _).symm

end Capture

end LabNetstack
