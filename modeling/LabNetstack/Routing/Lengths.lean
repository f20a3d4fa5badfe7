import LabNetstack.Routing.Sending

/-!
# Lengths as the code computes with them

`sendIPPacket` and `sendFrame` get their length as an `int`. Both compare it with what is left of
0x10000 bytes behind their header, and as a `sizeof` stands in the comparison, it is one of unsigned
64-bit numbers. Up to there the numbers of the other modules are right. But the frame has a header
that the packet does not know of: the longest fourteen packets fit no frame, and `sendIPPacket`, which
does not look at what `sendFrame` returns, reports them as sent.

## Main results

* `lengthError_iff` — what the comparison comes to
* `sendIPPacketInt_eq` — the number of bytes is all that there is to the `int`
* `lengthsAgree_iff` — the lengths that are reported as they should be
-/

namespace LabNetstack

open Layout

variable {τ : Type*}

/-! ### The comparison -/

/-- `len > 0x10000 - sizeof(header) || len <= 0`. -/
def lengthError (len : BitVec 32) (header : ℕ) : Prop :=
  len.signExtend 64 > 0x10000 - BitVec.ofNat 64 header ∨ len.toInt ≤ 0
deriving Decidable

/-- `(size_t)len`. -/
theorem toNat_signExtend (len : BitVec 32) : ((len.signExtend 64).toNat : ℤ) =
    if len.toInt < 0 then len.toInt + 2 ^ 64 else len.toInt := by
  have hint := BitVec.toInt_signExtend_of_le (x := len) (show 32 ≤ 64 by decide)
  rw [← hint, BitVec.toInt_eq_toNat_cond]
  split_ifs <;> omega

theorem lengthError_iff {len : BitVec 32} {header : ℕ} (hheader : header ≤ 0x10000) :
    lengthError len header ↔ 0x10000 < len.toInt + header ∨ len.toInt ≤ 0 := by
  have hsign := toNat_signExtend len
  have hmax : (0x10000 - BitVec.ofNat 64 header : BitVec 64).toNat = 0x10000 - header := by
    rw [BitVec.toNat_sub, BitVec.toNat_ofNat, show (0x10000 : BitVec 64).toNat = 0x10000 from rfl]
    omega
  rw [lengthError, gt_iff_lt, BitVec.lt_def, hmax]
  split_ifs at hsign <;> omega

/-! ### The two functions -/

/-- `sendFrame`, as far as pcap. -/
def sendFrameInt (buf : List Byte) (len : BitVec 32) (ethType : BitVec 16) (destMac : MacAddr)
    (device : Device) : Option (List Byte) :=
  if lengthError len EthHeader.layout.size then none
  else
    let frame := EthHeader.layout.bytes
      (createEthHeader destMac device.macAddr (htons ethType)) ++ buf.take (len.signExtend 64).toNat
    let size := (len.signExtend 64 + BitVec.ofNat 64 EthHeader.layout.size).setWidth 32
    some (frame.take size.toNat)

/-- The same through a pointer. -/
def Host.transmitInt (host : Host τ) (buf : List Byte) (len : BitVec 32) (destMac : MacAddr)
    (device : Device) : Host τ :=
  match sendFrameInt buf len ETHTYPE_IPv4 destMac device with
  | some frame => { host with wire := host.wire ++ [(device, frame)] }
  | none => host

def Host.transmitAtInt (host : Host τ) (buf : List Byte) (len : BitVec 32) (destMac : MacAddr)
    (device : BitVec 64) : Host τ :=
  match host.deviceList.find? fun d => d.address = device with
  | some d => host.transmitInt buf len destMac d
  | none => host

/-- The header of a packet: `len + 20` is truncated to the 16 bits of the argument. -/
def headerInt (src dest : IPAddr) (proto : BitVec 8) (len : BitVec 32) (id : ℕ) : IpHeader :=
  createIpHeader IPVERSION_IPv4 (htons ((len + 20).setWidth 16)) (htons (BitVec.ofNat 16 id)) 255
    proto src dest

def sendIPPacketInt (src dest : IPAddr) (proto : BitVec 8) (buf : List Byte) (len : BitVec 32)
    (noRetry : Bool) (host : Host τ) : Host τ × ℤ :=
  if lengthError len IpHeader.layout.size then (host, -1)
  else
    let packet := IpHeader.layout.bytes (headerInt src dest proto len host.id) ++
      buf.take (len.signExtend 64).toNat
    let size := (len.signExtend 64 + BitVec.ofNat 64 IpHeader.layout.size).setWidth 32
    let host := { host with id := host.id + 1 }
    if dest = BROAD_IP then
      (host.deviceList.foldl
        (fun host device => host.transmitInt packet size BROAD_MAC device) host, 0)
    else
      match queryRouteTable host dest with
      | none => (host, -1)
      | some (dstmac, device) =>
        if queryARPList host dest ≠ 0 then (host.transmitAtInt packet size dstmac device, 0)
        else if noRetry then (host, -1)
        else ({ host with
          resendIPTaskList := host.resendIPTaskList ++
            [⟨src, dest, proto, buf.take (len.signExtend 64).toNat⟩] }, 0)

/-! ### The numbers -/

variable {buf : List Byte} {len : BitVec 32}

theorem toNat_signExtend_of_pos (h : 0 < len.toInt) :
    (len.signExtend 64).toNat = len.toInt.toNat := by
  have hsign := toNat_signExtend len
  rw [if_neg (by omega)] at hsign
  omega

/-- `len + sizeof(header)`. -/
theorem toNat_size (h : 0 < len.toInt) (hle : len.toInt ≤ 0x10000) {header : ℕ}
    (hheader : header ≤ 0x10000) :
    ((len.signExtend 64 + BitVec.ofNat 64 header).setWidth 32).toNat =
      len.toInt.toNat + header := by
  rw [BitVec.toNat_setWidth, BitVec.toNat_add, toNat_signExtend_of_pos h, BitVec.toNat_ofNat]
  omega

theorem toInt_size (h : 0 < len.toInt) (hle : len.toInt ≤ 0x10000) {header : ℕ}
    (hheader : header ≤ 0x10000) :
    ((len.signExtend 64 + BitVec.ofNat 64 header).setWidth 32).toInt = len.toInt + header := by
  have hnat := toNat_size h hle hheader
  rw [BitVec.toInt_eq_toNat_cond, hnat]
  omega

theorem length_take_toInt (hbuf : len.toInt ≤ buf.length) :
    (buf.take len.toInt.toNat).length = len.toInt.toNat := by
  rw [List.length_take]
  omega

/-- The frame has as many bytes as there are. -/
theorem sendFrameInt_eq (hbuf : len.toInt ≤ buf.length) (ethType : BitVec 16) (destMac : MacAddr)
    (device : Device) : sendFrameInt buf len ethType destMac device =
      sendFrame (buf.take len.toInt.toNat) ethType destMac device := by
  have herror : lengthError len EthHeader.layout.size ↔
      (buf.take len.toInt.toNat).length > 0x10000 - EthHeader.layout.size ∨
        (buf.take len.toInt.toNat).length ≤ 0 := by
    rw [lengthError_iff (by decide), length_take_toInt hbuf, EthHeader.size_layout]
    omega
  rw [sendFrameInt, sendFrame]
  by_cases herr : lengthError len EthHeader.layout.size
  · rw [if_pos herr, if_pos (herror.mp herr)]
  · rw [if_neg herr, if_neg (herror.not.mp herr)]
    rw [lengthError_iff (by decide), EthHeader.size_layout] at herr
    have hpos : 0 < len.toInt := by omega
    dsimp only
    rw [toNat_signExtend_of_pos hpos, toNat_size hpos (by omega) (by decide),
      List.take_of_length_le]
    rw [List.length_append, EthHeader.layout.length_bytes, length_take_toInt hbuf]
    omega

theorem Host.transmitInt_eq (host : Host τ) (hbuf : len.toInt ≤ buf.length) (destMac : MacAddr)
    (device : Device) : host.transmitInt buf len destMac device =
      host.transmit (buf.take len.toInt.toNat) destMac device := by
  cases hsend : sendFrame (buf.take len.toInt.toNat) ETHTYPE_IPv4 destMac device with
  | none => simp only [transmitInt, transmit, sendFrameInt_eq hbuf, hsend]
  | some frame => simp only [transmitInt, transmit, sendFrameInt_eq hbuf, hsend]

theorem Host.transmitAtInt_eq (host : Host τ) (hbuf : len.toInt ≤ buf.length) (destMac : MacAddr)
    (device : BitVec 64) : host.transmitAtInt buf len destMac device =
      host.transmitAt (buf.take len.toInt.toNat) destMac device := by
  cases hfound : host.deviceList.find? fun d => d.address = device with
  | none => simp only [transmitAtInt, transmitAt, hfound]
  | some d =>
    simp only [transmitAtInt, transmitAt, hfound]
    exact host.transmitInt_eq hbuf destMac d

/-- The total length is right modulo 2 ^ 16. -/
theorem headerInt_eq (h : 0 < len.toInt) (src dest : IPAddr) (proto : BitVec 8) (id : ℕ) :
    headerInt src dest proto len id = sentHeader src dest proto len.toInt.toNat id := by
  have hlen : (len + 20).setWidth 16 = BitVec.ofNat 16 (len.toInt.toNat + 20) := by
    refine BitVec.eq_of_toNat_eq ?_
    have hnat : len.toInt.toNat = len.toNat := by
      rw [BitVec.toInt_eq_toNat_cond] at h ⊢
      split_ifs at h ⊢ <;> omega
    rw [BitVec.toNat_setWidth, BitVec.toNat_add, BitVec.toNat_ofNat, hnat,
      show (20 : BitVec 32).toNat = 20 from rfl]
    omega
  rw [headerInt, sentHeader, hlen]

/-- **The `int` and the bytes.** As long as nothing is read behind the buffer, the call does with its
length what it does with the number of bytes. -/
theorem sendIPPacketInt_eq (hbuf : len.toInt ≤ buf.length) (src dest : IPAddr) (proto : BitVec 8)
    (noRetry : Bool) (host : Host τ) : sendIPPacketInt src dest proto buf len noRetry host =
      sendIPPacket src dest proto (buf.take len.toInt.toNat) noRetry host := by
  have herror : lengthError len IpHeader.layout.size ↔
      (buf.take len.toInt.toNat).length > 0x10000 - IpHeader.layout.size ∨
        (buf.take len.toInt.toNat).length ≤ 0 := by
    rw [lengthError_iff (by decide), length_take_toInt hbuf, IpHeader.size_layout]
    omega
  rw [sendIPPacketInt, sendIPPacket]
  by_cases herr : lengthError len IpHeader.layout.size
  · rw [if_pos herr, if_pos (herror.mp herr)]
  · rw [if_neg herr, if_neg (herror.not.mp herr)]
    rw [lengthError_iff (by decide), IpHeader.size_layout] at herr
    have hpos : 0 < len.toInt := by omega
    have hsize := toInt_size hpos (by omega) (show IpHeader.layout.size ≤ 0x10000 by decide)
    have hpacket : IpHeader.layout.bytes (headerInt src dest proto len host.id) ++
        buf.take len.toInt.toNat = ipPacket src dest proto (buf.take len.toInt.toNat) host.id := by
      rw [headerInt_eq hpos, ipPacket, length_take_toInt hbuf]
    have hlength := length_ipPacket src dest proto (buf.take len.toInt.toNat) host.id
    rw [length_take_toInt hbuf] at hlength
    have hall : (ipPacket src dest proto (buf.take len.toInt.toNat) host.id).take
        ((len.signExtend 64 + BitVec.ofNat 64 IpHeader.layout.size).setWidth 32).toInt.toNat =
          ipPacket src dest proto (buf.take len.toInt.toNat) host.id := by
      rw [hsize, List.take_of_length_le]
      rw [hlength, IpHeader.size_layout]
      omega
    have hfits : ((len.signExtend 64 + BitVec.ofNat 64 IpHeader.layout.size).setWidth 32).toInt ≤
        (ipPacket src dest proto (buf.take len.toInt.toNat) host.id).length := by
      rw [hsize, hlength, IpHeader.size_layout]
      omega
    by_cases hdest : dest = BROAD_IP
    · simp only [if_pos hdest, toNat_signExtend_of_pos hpos, hpacket, Host.transmitInt_eq _ hfits,
        hall]
    · dsimp only
      cases queryRouteTable { host with id := host.id + 1 } dest with
      | none => simp only [if_neg hdest]
      | some found =>
        simp only [if_neg hdest, toNat_signExtend_of_pos hpos, hpacket,
          Host.transmitAtInt_eq _ hfits, hall]

/-! ### What is reported -/

/-- A call returns zero exactly if it has handed pcap a frame with its header and all of its data, and
when it does, the header tells the length. -/
structure LengthsAgree (src dest : IPAddr) (proto : BitVec 8) (buf : List Byte) (len : BitVec 32)
    (noRetry : Bool) (host : Host τ) : Prop where
  sent : (sendIPPacketInt src dest proto buf len noRetry host).2 = 0 ↔
    ∃ device frame, (sendIPPacketInt src dest proto buf len noRetry host).1.wire =
        host.wire ++ [(device, frame)] ∧
      frame.drop EthHeader.layout.size =
        IpHeader.layout.bytes (headerInt src dest proto len host.id) ++ buf.take len.toInt.toNat
  total : (sendIPPacketInt src dest proto buf len noRetry host).2 = 0 →
    (ntohs (headerInt src dest proto len host.id).len).toNat = len.toInt + 20

section

variable {host : Host τ} {src dest : IPAddr} {proto : BitVec 8} {noRetry : Bool} {dstmac : MacAddr}
  {device : Device}

/-- A packet that fits no frame is reported as sent. -/
theorem not_lengthsAgree (harp : host.arpList = []) (hdest : dest ≠ BROAD_IP)
    (hquery : queryRouteTable host dest = some (dstmac, device.address))
    (hbuf : len.toInt ≤ buf.length) (hlow : 65503 ≤ len.toInt) (hhigh : len.toInt ≤ 65516) :
    ¬ LengthsAgree src dest proto buf len noRetry host := by
  rintro ⟨hsent, -⟩
  have hlength := length_take_toInt hbuf
  rw [sendIPPacketInt_eq hbuf,
    sendIPPacket_unicast harp hdest (by omega) (by omega) hquery,
    transmitAt_of_lt (by rw [length_ipPacket]; omega)] at hsent
  obtain ⟨_, _, hwire, -⟩ := hsent.mp rfl
  exact List.cons_ne_nil _ _ (List.append_right_eq_self.mp hwire.symm)

/-- One of an impossible length is refused. -/
theorem lengthsAgree_of_refused (hbad : len.toInt ≤ 0 ∨ 65516 < len.toInt) :
    LengthsAgree src dest proto buf len noRetry host := by
  have hrefused : sendIPPacketInt src dest proto buf len noRetry host = (host, -1) := by
    rw [sendIPPacketInt, if_pos]
    rw [lengthError_iff (by decide), IpHeader.size_layout]
    omega
  have hne : (-1 : ℤ) ≠ 0 := by decide
  constructor
  · rw [hrefused]
    refine iff_of_false hne ?_
    rintro ⟨_, _, hwire, -⟩
    exact List.cons_ne_nil _ _ (List.append_right_eq_self.mp hwire.symm)
  · rw [hrefused]
    exact fun hzero => absurd hzero hne

/-- One that fits a frame is sent, and its total length needs no more than 16 bits. -/
theorem lengthsAgree_of_fits (harp : host.arpList = []) (hdest : dest ≠ BROAD_IP)
    (hdevice : device ∈ host.deviceList) (hnodup : (host.deviceList.map Device.address).Nodup)
    (hquery : queryRouteTable host dest = some (dstmac, device.address))
    (hbuf : len.toInt ≤ buf.length) (hpos : 0 < len.toInt) (hle : len.toInt ≤ 65502) :
    LengthsAgree src dest proto buf len noRetry host := by
  have heq := sendIPPacketInt_eq hbuf src dest proto noRetry host
  have hlength := length_take_toInt hbuf
  have hsize := length_ipPacket src dest proto (buf.take len.toInt.toNat) host.id
  have htransmit := { host with id := host.id + 1 }.transmitAt_address hdevice
    (fun d hd haddress => List.inj_on_of_nodup_map hnodup hd hdevice haddress)
    (ipPacket src dest proto (buf.take len.toInt.toNat) host.id) dstmac
  have hheader := headerInt_eq hpos src dest proto host.id
  rw [sendIPPacket_unicast harp hdest (by omega) (by omega) hquery, htransmit,
    transmit_eq (by omega) (by omega)] at heq
  constructor
  · rw [heq]
    refine iff_of_true rfl ⟨device, _, rfl, ?_⟩
    rw [EthHeader.layout.drop_append, hheader, ipPacket, hlength]
  · intro
    rw [hheader]
    change ((ntohs (htons (BitVec.ofNat 16 (len.toInt.toNat + 20)))).toNat : ℤ) = _
    rw [ntohs, htons_htons, BitVec.toNat_ofNat]
    omega

/-- **The lengths that are reported as they should be**: all but those of the packets that fit no
frame. -/
theorem lengthsAgree_iff (harp : host.arpList = []) (hdest : dest ≠ BROAD_IP)
    (hdevice : device ∈ host.deviceList) (hnodup : (host.deviceList.map Device.address).Nodup)
    (hquery : queryRouteTable host dest = some (dstmac, device.address))
    (hbuf : len.toInt ≤ buf.length) :
    LengthsAgree src dest proto buf len noRetry host ↔
      ¬ (65503 ≤ len.toInt ∧ len.toInt ≤ 65516) := by
  constructor
  · rintro hagree ⟨hlow, hhigh⟩
    exact not_lengthsAgree harp hdest hquery hbuf hlow hhigh hagree
  · intro hother
    by_cases hbad : len.toInt ≤ 0 ∨ 65516 < len.toInt
    · exact lengthsAgree_of_refused hbad
    · exact lengthsAgree_of_fits harp hdest hdevice hnodup hquery hbuf (by omega) (by omega)

end

open NetworkLayer

theorem query_routed : queryRouteTable routed 4 =
    some ((Mesh.lineDevice 4).macAddr, (Mesh.lineDevice 1).address) := rfl

theorem lengthsAgree_iff_three :
    LengthsAgree 1 4 17 [1, 2, 3] 3 false routed ↔
      ¬ (65503 ≤ (3 : BitVec 32).toInt ∧ (3 : BitVec 32).toInt ≤ 65516) :=
  lengthsAgree_iff rfl (by decide) (List.mem_singleton_self _) (by decide) query_routed (by decide)

/-- The shortest packet that fits no frame. -/
theorem not_lengthsAgree_routed :
    ¬ ∀ (buf : List Byte) (len : BitVec 32), len.toInt ≤ buf.length →
      LengthsAgree 1 4 17 buf len false routed := by
  intro hclaim
  have hbuf : (65503 : BitVec 32).toInt ≤ (List.replicate 65503 (0 : Byte)).length := by
    rw [List.length_replicate]
    decide
  exact not_lengthsAgree rfl (by decide) query_routed hbuf (by decide) (by decide)
    (hclaim _ _ hbuf)

end LabNetstack
