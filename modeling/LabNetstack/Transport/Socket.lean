import LabNetstack.Bytes
import LabNetstack.Lib.RingMemory

/-!
# Sockets and segments

The data model of the transport layer: the TCP header as `createTCPHeader` fills it, the socket
with its two 64 KiB rings, and the segment that `sendTCPPacket` hands to the IP layer.

Every pointer of a ring is a `uint16_t` and every sequence number a `uint32_t`; both wrap. The
clock is a natural number of nanoseconds, which is what `clock_gettime` delivers before
`getSecondTime` turns it into a `double`.

`Socket` leaves out `buf_size`, which nothing reads, the list link and the two mutexes.
-/

namespace LabNetstack

open RingMemory

abbrev Port := BitVec 16

/-! ### The TCP header -/

/-- `struct TCPHeader`. The multi-byte fields are in network order. -/
structure TCPHeader where
  srcport : Port
  desport : Port
  seqNum : BitVec 32
  ackNum : BitVec 32
  hdrLen : BitVec 8
  ctrl : BitVec 8
  window : BitVec 16
  checkSum : BitVec 16
  urgPtr : BitVec 16
deriving DecidableEq

/-! `enum TCPCtrlBit`, the bits the handlers look at -/

def ctAck : BitVec 8 := 16

def ctSyn : BitVec 8 := 2

def ctFin : BitVec 8 := 1

def createTCPHeader (srcport desport : Port) (seqNum ackNum : BitVec 32) (ctrl : BitVec 8)
    (window : BitVec 16) : TCPHeader where
  srcport := srcport
  desport := desport
  seqNum := htonl seqNum
  ackNum := htonl ackNum
  hdrLen := 5 <<< 4
  ctrl := ctrl
  window := htons window
  checkSum := 0x7859
  urgPtr := 0

/-- What the IP layer carries for a segment: the two addresses of `sendIPPacket`, the header and
the data behind it. -/
structure TCPPacket where
  src : IPAddr
  dst : IPAddr
  tcpHeader : TCPHeader
  data : List Byte
deriving DecidableEq

/-- `CT_ACK` is set. -/
def TCPPacket.IsAck (packet : TCPPacket) : Prop := packet.tcpHeader.ctrl &&& ctAck ≠ 0
deriving Decidable

/-- `CT_FIN` is set. -/
def TCPPacket.IsFin (packet : TCPPacket) : Prop := packet.tcpHeader.ctrl &&& ctFin ≠ 0
deriving Decidable

/-- `CT_SYN` is set. -/
def TCPPacket.IsSyn (packet : TCPPacket) : Prop := packet.tcpHeader.ctrl &&& ctSyn ≠ 0
deriving Decidable

/-! ### The socket -/

/-- `enum TCPState`. -/
inductive TCPState
  | closed
  | listen
  | sysSent
  | sysRecv
  | establisted
  | closeWait
  | lastAck
  | finWait1
  | finWait2
  | closing
  | timeWait
deriving DecidableEq

/-- The enumerator's value, for the one place that masks it. -/
def TCPState.toBits : TCPState → BitVec 32
  | closed => 0
  | listen => 1
  | sysSent => 2
  | sysRecv => 3
  | establisted => 4
  | closeWait => 5
  | lastAck => 6
  | finWait1 => 7
  | finWait2 => 8
  | closing => 9
  | timeWait => 10

/-- `enum CLOSEState`, a set of flags. -/
abbrev CLOSEState := BitVec 32

namespace CLOSEState

def call : CLOSEState := 1

def finSent : CLOSEState := 2

def ackSent : CLOSEState := 4

def finRecv : CLOSEState := 8

def ackRecv : CLOSEState := 16

def close : CLOSEState := 30

def all : CLOSEState := 31

end CLOSEState

/-- `struct Socket`. -/
structure Socket where
  fd : ℤ
  desaddr : IPAddr
  desport : Port
  srcaddr : IPAddr
  srcport : Port
  state : TCPState
  clstate : CLOSEState
  readBuffer : Mem Byte
  writeBuffer : Mem Byte
  sendFront : BitVec 16
  sendBack : BitVec 16
  recvFront : BitVec 16
  recvBack : BitVec 16
  ackFront : BitVec 16
  ackBack : BitVec 16
  seqNum : BitVec 32
  ackNum : BitVec 32
  resendTime : ℕ
  isConnection : Bool
  parentListenFd : ℤ

/-- `socket->clstate & flag`, as a condition. -/
def Socket.hasFlag (socket : Socket) (flag : CLOSEState) : Bool := socket.clstate &&& flag != 0

/-- `sendTCPPacket`: the segment that leaves for `socket`'s peer. -/
def sendTCPPacket (tcpHeader : TCPHeader) (socket : Socket) (data : List Byte) : TCPPacket :=
  ⟨socket.srcaddr, socket.desaddr, tcpHeader, data⟩

/-- `allocSocket`: all zero but for the descriptor. The buffers are null pointers at first; what
`malloc` will later put behind them is unspecified, so it is a parameter. -/
def allocSocket (fd : ℤ) (readMem writeMem : Mem Byte) : Socket where
  fd := fd
  desaddr := 0
  desport := 0
  srcaddr := 0
  srcport := 0
  state := .closed
  clstate := 0
  readBuffer := readMem
  writeBuffer := writeMem
  sendFront := 0
  sendBack := 0
  recvFront := 0
  recvBack := 0
  ackFront := 0
  ackBack := 0
  seqNum := 0
  ackNum := 0
  resendTime := 0
  isConnection := false
  parentListenFd := 0

/-! ### Copies between a buffer and a ring

The same split at 64 KiB is written out twice in each direction; the comparison is in unsigned
arithmetic, where the sum of two 16-bit numbers does not wrap. -/

/-- `TCP_BUFFER_SIZE`. -/
def bufferSize : ℕ := 0x10000

/-- The copy into a ring at the end of `writeLab` and in the data branch of
`TCPHandleEstablished`. -/
def copyIn (buffer : Mem Byte) (front : BitVec 16) (data : List Byte) (len : BitVec 16) :
    Mem Byte :=
  if front.toNat + len.toNat ≤ bufferSize then
    store buffer front.toNat (data.take len.toNat)
  else
    let len1 : BitVec 16 := BitVec.ofNat 16 (bufferSize - front.toNat)
    let len2 := len - len1
    store (store buffer front.toNat (data.take len1.toNat)) 0
      ((data.drop len1.toNat).take len2.toNat)

/-- The copy out of a ring in `readLab`. -/
def copyOut (buffer : Mem Byte) (back len : BitVec 16) : List Byte :=
  if back.toNat + len.toNat ≤ bufferSize then
    load buffer back.toNat len.toNat
  else
    let len1 : BitVec 16 := BitVec.ofNat 16 (bufferSize - back.toNat)
    let len2 := len - len1
    load buffer back.toNat len1.toNat ++ load buffer 0 len2.toNat

/-- The copy out of the send ring in `asyncSendTCPPacket`, split by comparing the two ends. -/
def copyOutBetween (buffer : Mem Byte) (first last : BitVec 16) : List Byte :=
  if first.toNat ≤ last.toNat then
    load buffer first.toNat (last.toNat - first.toNat)
  else
    let len1 : BitVec 16 := BitVec.ofNat 16 (bufferSize - first.toNat)
    load buffer first.toNat len1.toNat ++ load buffer 0 last.toNat

/-! Each of the three is the ring operation of its kind. -/

/-- `len1` does not wrap: it is only computed for a copy that does not start at cell `0`. -/
theorem toNat_len1 {p : BitVec 16} (hp : 0 < p.toNat) :
    (BitVec.ofNat 16 (bufferSize - p.toNat)).toNat = bufferSize - p.toNat := by
  have hlt : bufferSize - p.toNat < 2 ^ 16 := by
    change _ < bufferSize
    have : p.toNat < bufferSize := p.isLt
    omega
  rw [BitVec.toNat_ofNat, Nat.mod_eq_of_lt hlt]

theorem toNat_len2 {p len : BitVec 16} (hp : 0 < p.toNat)
    (hwrap : bufferSize < p.toNat + len.toNat) :
    (len - BitVec.ofNat 16 (bufferSize - p.toNat)).toNat = len.toNat - (bufferSize - p.toNat) := by
  rw [BitVec.toNat_sub_of_le (by rw [BitVec.le_def, toNat_len1 hp]; omega), toNat_len1 hp]

theorem copyIn_eq_storeWrap {buffer : Mem Byte} {front len : BitVec 16} {data : List Byte}
    (hlen : len.toNat ≤ data.length) :
    copyIn buffer front data len
      = storeWrap bufferSize buffer front.toNat (data.take len.toNat) := by
  have hlt : len.toNat < bufferSize := len.isLt
  rw [copyIn, storeWrap, List.length_take, Nat.min_eq_left hlen]
  split_ifs with hfit
  · rfl
  · have hpos : 0 < front.toNat := by omega
    simp only [toNat_len1 hpos, toNat_len2 hpos (Nat.not_le.mp hfit)]
    rw [List.take_take, Nat.min_eq_left (by omega), List.drop_take]

theorem copyOut_eq_loadWrap (buffer : Mem Byte) (back len : BitVec 16) :
    copyOut buffer back len = loadWrap bufferSize buffer back.toNat len.toNat := by
  have hlt : len.toNat < bufferSize := len.isLt
  rw [copyOut, loadWrap]
  split_ifs with hfit
  · rfl
  · have hpos : 0 < back.toNat := by omega
    simp only [toNat_len1 hpos, toNat_len2 hpos (Nat.not_le.mp hfit)]

theorem length_copyOut (buffer : Mem Byte) (back len : BitVec 16) :
    (copyOut buffer back len).length = len.toNat := by
  have hback : back.toNat < bufferSize := back.isLt
  rw [copyOut_eq_loadWrap, length_loadWrap hback.le]

theorem copyOutBetween_eq_loadBetween (buffer : Mem Byte) (first last : BitVec 16) :
    copyOutBetween buffer first last
      = loadBetween bufferSize buffer first.toNat last.toNat := by
  rw [copyOutBetween, loadBetween]
  split_ifs with hle
  · rfl
  · simp only [toNat_len1 (show 0 < first.toNat by omega)]

end LabNetstack
