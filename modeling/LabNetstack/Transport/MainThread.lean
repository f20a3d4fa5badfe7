import LabNetstack.Transport.LoopThread

/-!
# The application's calls

`mainthread.c`, for the socket that `findSocket` has found. `writeLab` and `readLab` decide the
size of the copy without the lock and copy with it; the stages are separate definitions, and the
two calls as single steps are their compositions.

A call that is still spinning in its wait loop has not returned; that is `none`.
-/

namespace LabNetstack

open RingMemory

/-- `getPort`: the port, in host order, and the counter it leaves. -/
def getPort (port : Port) : Port × Port :=
  if port = 0xffff then (0, port) else (port + 1, port + 1)

/-- `bindLab`. -/
def bindLab (socket : Socket) (addr : IPAddr) (port : Port) : Socket :=
  { socket with srcaddr := addr, srcport := port }

/-- `listenLab`. -/
def listenLab (socket : Socket) : Socket := { socket with state := .listen }

/-- `connectLab`, up to the point where it waits for the handshake: `port` is what `getPort`
returned and `device` the address of the first device, for a socket bound to neither. -/
def connectLab (socket : Socket) (port : Port) (device : IPAddr) (desaddr : IPAddr)
    (desport : Port) : Socket × TCPPacket :=
  let socket := { socket with
    srcport := if socket.srcport = 0 then htons port else socket.srcport
    srcaddr := if socket.srcaddr = 0 then device else socket.srcaddr
    desport := desport
    desaddr := desaddr
    seqNum := -1
    ackNum := 0 }
  let tcpHeader := createTCPHeader socket.srcport socket.desport socket.seqNum 0 ctSyn 0xffff
  ({ socket with state := .sysSent }, sendTCPPacket tcpHeader socket [])

/-! ### `readLab` -/

/-- The number of bytes a read would copy now. -/
def recvByte (socket : Socket) (nbyte : ℕ) : BitVec 16 :=
  let recvSpace := socket.recvFront - socket.recvBack
  if nbyte > recvSpace.toNat then recvSpace else BitVec.ofNat 16 nbyte

/-- The locked copy. -/
def readCommit (socket : Socket) (recvByte : BitVec 16) : List Byte × Socket :=
  (copyOut socket.readBuffer socket.recvBack recvByte,
    { socket with recvBack := socket.recvBack + recvByte })

/-- `readLab` as one step: the bytes it puts in the buffer, as many as it returns. -/
def readLab (socket : Socket) (nbyte : ℕ) : Option (List Byte × Socket) :=
  if 0 < recvByte socket nbyte then some (readCommit socket (recvByte socket nbyte))
  else if socket.state = .closed then some ([], socket)
  else none

/-! ### `writeLab` -/

/-- The entry check: the state has to allow writing. The second test masks `state`, not
`clstate`, with `CL_CALL`. -/
def writeRefused (socket : Socket) : Bool :=
  decide (socket.state ≠ .establisted) || socket.state.toBits &&& CLOSEState.call != 0
    || socket.hasFlag CLOSEState.finRecv

/-- The number of bytes a write would copy now. -/
def sendByte (socket : Socket) (nbyte : ℕ) : BitVec 16 :=
  let sendSpace := socket.ackBack - 1 - socket.sendFront
  if nbyte > sendSpace.toNat then sendSpace else BitVec.ofNat 16 nbyte

/-- The locked copy. -/
def writeCommit (socket : Socket) (buf : List Byte) (sendByte : BitVec 16) : Socket :=
  { socket with
    writeBuffer := copyIn socket.writeBuffer socket.sendFront buf sendByte
    sendFront := socket.sendFront + sendByte }

/-- `writeLab` as one step: what it returns, and the socket. -/
def writeLab (socket : Socket) (buf : List Byte) : Option (ℤ × Socket) :=
  if writeRefused socket then some (-1, socket)
  else if 0 < sendByte socket buf.length then
    some ((sendByte socket buf.length).toNat,
      writeCommit socket buf (sendByte socket buf.length))
  else if socket.state = .closed then some (0, socket)
  else none

/-! ### `closeLab` -/

/-- `closeLab`, up to its wait loop. -/
def closeLab (socket : Socket) : Socket :=
  { socket with clstate := socket.clstate ||| CLOSEState.call }

/-- The condition on which the wait loop of `closeLab` exits. -/
def closeLabExits (socket : Socket) : Bool :=
  socket.clstate == CLOSEState.all || socket.state == .closed

end LabNetstack
