import LabNetstack.Transport.Socket

/-!
# The loop thread

`loopthread.c`: the handlers that take one incoming segment each, and `asyncSendTCPPacket`, which
the loop calls between segments. Each is a function from the socket to the socket it leaves and
the segments it sends, in order.

A failing `assert` aborts the process, and so does a call through one of the null entries of
`TCPHandleFunList`; both are `none`.

`TCPHandleEstablished` is three consecutive blocks, one for each question it asks of a segment
(does it acknowledge, does it finish, does it continue the stream), and so is its model.
-/

namespace LabNetstack

open RingMemory

/-! ### Handshake handlers -/

/-- `TCPHandleClosed` returns before it does anything. -/
def TCPHandleClosed (socket : Socket) : Socket × List TCPPacket := (socket, [])

/-- `TCPHandleListen`: a `SYN` fills in `connectSocket`, which `allocSocket` has just appended to
the socket list, and answers it. The listening socket itself does not change. -/
def TCPHandleListen (socket connectSocket : Socket) (packet : TCPPacket) :
    Option (Socket × TCPPacket) :=
  let tcpHeader := packet.tcpHeader
  if tcpHeader.ctrl &&& ctSyn ≠ 0 then
    let connectSocket := { connectSocket with
      desport := tcpHeader.srcport
      desaddr := packet.src
      srcport := socket.srcport
      srcaddr := if socket.srcaddr = 0 then packet.dst else socket.srcaddr
      seqNum := -1
      ackNum := ntohl tcpHeader.seqNum + 1
      clstate := 0 }
    let answer := createTCPHeader connectSocket.srcport connectSocket.desport
      connectSocket.seqNum connectSocket.ackNum (ctSyn ||| ctAck) 0xffff
    some ({ connectSocket with state := .sysRecv, parentListenFd := socket.fd },
      sendTCPPacket answer connectSocket [])
  else none

/-- `TCPHandleSyssent`. The buffers are allocated here; their contents stay unspecified. -/
def TCPHandleSyssent (socket : Socket) (packet : TCPPacket) : Socket × List TCPPacket :=
  let tcpHeader := packet.tcpHeader
  if tcpHeader.ctrl &&& ctSyn ≠ 0 ∧ tcpHeader.ctrl &&& ctAck ≠ 0 then
    let socket := { socket with
      ackNum := ntohl tcpHeader.seqNum + 1
      seqNum := socket.seqNum + 1
      sendFront := 0
      sendBack := 0
      ackFront := -1
      ackBack := 0
      recvFront := 0
      recvBack := 0 }
    let answer := createTCPHeader socket.srcport socket.desport 0 socket.ackNum ctAck 0xffff
    ({ socket with isConnection := true, state := .establisted },
      [sendTCPPacket answer socket []])
  else (socket, [])

/-- `TCPHandleSysrecv`. -/
def TCPHandleSysrecv (socket : Socket) (packet : TCPPacket) : Socket × List TCPPacket :=
  if packet.tcpHeader.ctrl &&& ctAck ≠ 0 then
    ({ socket with
      seqNum := socket.seqNum + 1
      sendFront := 0
      sendBack := 0
      ackFront := -1
      ackBack := 0
      recvBack := 0
      recvFront := 0
      state := .establisted
      isConnection := true }, [])
  else (socket, [])

/-! ### `TCPHandleEstablished` -/

/-- The acknowledgement that the handler answers with, on behalf of three of its branches. -/
def replyAck (socket : Socket) (ackNum : BitVec 32) : TCPPacket :=
  sendTCPPacket (createTCPHeader socket.srcport socket.desport socket.seqNum ackNum ctAck
    (socket.recvBack - 1 - socket.recvFront)) socket []

/-- The send side of the `CT_ACK` branch; the test is on the low 16 bits of the number. -/
def acceptAck (socket : Socket) (ackNum : BitVec 32) (window : BitVec 16) : Option Socket :=
  let ack16 : BitVec 16 := ackNum.setWidth 16
  if ack16 = socket.sendBack then
    let ackDiff : BitVec 16 := (ackNum - socket.seqNum).setWidth 16
    let ackBack := socket.ackBack + ackDiff
    if ackBack = ackNum.setWidth 16 then
      some { socket with ackBack := ackBack, ackFront := ackBack + window, seqNum := ackNum }
    else none
  else some socket

/-- The close flags of the `CT_ACK` branch. -/
def closeOnAck (socket : Socket) : Socket :=
  let socket :=
    if socket.hasFlag CLOSEState.finSent then
      { socket with clstate := socket.clstate ||| CLOSEState.ackRecv }
    else socket
  if socket.clstate &&& CLOSEState.close = CLOSEState.close then
    { socket with isConnection := false, state := .closed }
  else socket

/-- The `CT_ACK` branch. -/
def handleAck (socket : Socket) (tcpHeader : TCPHeader) : Option Socket :=
  if tcpHeader.ctrl &&& ctAck ≠ 0 then
    (acceptAck socket tcpHeader.ackNum tcpHeader.window).map closeOnAck
  else some socket

/-- The `CT_FIN` branch. -/
def handleFin (socket : Socket) (tcpHeader : TCPHeader) : Socket × List TCPPacket :=
  if tcpHeader.ctrl &&& ctFin ≠ 0 then
    let socket := { socket with clstate := socket.clstate ||| CLOSEState.finRecv }
    ({ socket with clstate := socket.clstate ||| CLOSEState.ackSent },
      [replyAck socket (socket.ackNum + 1)])
  else (socket, [])

/-- The data branch, and the answer to a probe. -/
def handleData (socket : Socket) (data : List Byte) (tcpHeader : TCPHeader) :
    Option (Socket × List TCPPacket) :=
  if 0 < data.length ∧ tcpHeader.seqNum = socket.ackNum then
    let receivedLen : BitVec 16 := BitVec.ofNat 16 data.length
    let maxAvaiable := socket.recvBack - 1 - socket.recvFront
    let validLen := if maxAvaiable < receivedLen then maxAvaiable else receivedLen
    if validLen = receivedLen then
      let socket := { socket with
        readBuffer := copyIn socket.readBuffer socket.recvFront data validLen
        ackNum := tcpHeader.seqNum + validLen.setWidth 32
        recvFront := socket.recvFront + validLen }
      some (socket, [replyAck socket socket.ackNum])
    else none
  else if tcpHeader.ctrl = 0 ∧ tcpHeader.seqNum = socket.ackNum then
    some (socket, [replyAck socket socket.ackNum])
  else some (socket, [])

def TCPHandleEstablished (socket : Socket) (packet : TCPPacket) :
    Option (Socket × List TCPPacket) :=
  let tcpHeader := { packet.tcpHeader with
    seqNum := htonl packet.tcpHeader.seqNum
    ackNum := htonl packet.tcpHeader.ackNum
    window := htons packet.tcpHeader.window }
  match handleAck socket tcpHeader with
  | none => none
  | some socket =>
    let (socket, finAnswer) := handleFin socket tcpHeader
    match handleData socket packet.data tcpHeader with
    | none => none
    | some (socket, dataAnswer) => some (socket, finAnswer ++ dataAnswer)

/-- `handleTCPMain` once `matchSocket` has found the socket of a connection. A listening socket is
not the end of a connection: what it does with a segment belongs to the host that owns the list. -/
def handleTCPMain (socket : Socket) (packet : TCPPacket) : Option (Socket × List TCPPacket) :=
  match socket.state with
  | .closed => some (TCPHandleClosed socket)
  | .sysSent => some (TCPHandleSyssent socket packet)
  | .sysRecv => some (TCPHandleSysrecv socket packet)
  | .establisted => TCPHandleEstablished socket packet
  | _ => none

/-! ### `asyncSendTCPPacket` -/

/-- `MAX_TCP_LEN`. -/
def maxTCPLen : BitVec 16 := 1024

/-- Half a second, between two transmissions of a segment. -/
def resendInterval : ℕ := 500000000

/-- Five seconds, between two transmissions of a `FIN`. -/
def finInterval : ℕ := 5000000000

/-- The stretch of the ring to send now, `start` and `end`, if any: the outstanding segment again,
a probe of a zero window, or the next bytes that the window allows. -/
def chooseSegment (nowtime : ℕ) (it : Socket) : Socket × Option (BitVec 16 × BitVec 16) :=
  if it.sendBack ≠ it.ackBack then
    if it.resendTime < nowtime then
      ({ it with resendTime := nowtime + resendInterval }, some (it.ackBack, it.sendBack))
    else (it, none)
  else if it.ackBack = it.ackFront then
    if it.resendTime < nowtime then
      ({ it with resendTime := nowtime + resendInterval }, some (it.ackBack, it.sendBack))
    else (it, none)
  else
    let len1 := it.sendFront - it.sendBack
    let len2 := it.ackFront - it.sendBack
    let len := if len1 < len2 then len1 else len2
    if 0 < len then
      let len := if maxTCPLen < len then maxTCPLen else len
      ({ it with sendBack := it.sendBack + len, resendTime := nowtime + resendInterval },
        some (it.sendBack, it.sendBack + len))
    else (it, none)

/-- The `if (send)` block: the chosen stretch leaves as one segment. -/
def sendSegment (nowtime : ℕ) (it : Socket) : Socket × List TCPPacket :=
  match chooseSegment nowtime it with
  | (it, none) => (it, [])
  | (it, some (first, last)) =>
    let tcpHeader := createTCPHeader it.srcport it.desport it.seqNum it.ackNum 0 0xffff
    (it, [sendTCPPacket tcpHeader it (copyOutBetween it.writeBuffer first last)])

/-- The rest of the loop body: send the `FIN`, or send it again. -/
def sendFin (nowtime : ℕ) (it : Socket) : Socket × List TCPPacket :=
  if it.ackBack = it.sendBack ∧ it.sendBack = it.sendFront then
    if it.hasFlag CLOSEState.finRecv && it.hasFlag CLOSEState.ackSent
        || it.hasFlag CLOSEState.call then
      if !it.hasFlag CLOSEState.finSent
          || !it.hasFlag CLOSEState.ackRecv && decide (it.resendTime < nowtime) then
        let it := { it with resendTime := nowtime + finInterval }
        let tcpHeader := createTCPHeader it.srcport it.desport it.seqNum it.ackNum ctFin 0xffff
        ({ it with clstate := it.clstate ||| CLOSEState.finSent },
          [sendTCPPacket tcpHeader it []])
      else (it, [])
    else (it, [])
  else (it, [])

/-- The body of the loop in `asyncSendTCPPacket`, for one socket of the list. -/
def asyncSendTCPPacket (nowtime : ℕ) (it : Socket) : Socket × List TCPPacket :=
  if !it.isConnection then (it, [])
  else
    let (it, segment) := sendSegment nowtime it
    let (it, fin) := sendFin nowtime it
    (it, segment ++ fin)

end LabNetstack
