/-
Packets arriving at a connection (`context/connection_impl.cpp`).

`onUdpPacket` opens a datagram, notes the address it came from, walks
over its frames and, unless something went wrong on the way, inserts the
packet's number into the receive history, from which acknowledgements
are written.

# What a frame does here

STREAM and RESET_STREAM act on the streams, PATH_CHALLENGE and
PATH_RESPONSE on the path, TRANSPORT_PARAMS on the peer's limits, CRYPTO
on the key, CONNECTION_CLOSE on the state. The other frames (ACK, flow
control, tokens, padding) leave all of these alone. What is sent in
answer to a packet is not part of this model.

# The clock and the random numbers

A step takes them as arguments (`RecvEnv`), with the outcome of the key
exchange that a CRYPTO frame starts.

`Receipt` is what a packet's passage leaves for the proofs: the packet,
and each STREAM frame handed to `ingestStreamFrame` with its answer.
-/
import Eular.Utp.Connection.HistorySlots
import Eular.Utp.Connection.Streams
import Eular.Utp.Send.SendPacket

/-
The peer's address and its validation (`util/network_path.{h,cpp}`).

A packet from a new address makes that address the candidate path; it is
used only after the peer has answered a PATH_CHALLENGE from there. The
clock and the random challenge are arguments.
-/

namespace Eular.Utp

/-- `Address`: the family `NONE`, or a host and a port. -/
inductive Address where
  | none
  | ip (host port : Nat)
deriving DecidableEq, Repr

def Address.isValid : Address → Bool
  | .none => false
  | .ip _ _ => true

/-- `NetworkPath::State`. -/
inductive PathState where
  | unknown
  | validated
  | validating
  | failed
deriving DecidableEq, Repr

/-- `NetworkPath`; `pendingChallenge` is `m_pendingChallenge` while
`m_hasPendingChallenge` is set. -/
structure NetworkPath where
  peerAddress : Address := .none
  state : PathState := .unknown
  pendingChallenge : Option (List UInt8) := none
  challengeDeadlineMs : Nat := 0
  challengeTimeoutMs : Nat := 1500
  retryCount : Nat := 0
  maxChallengeRetries : Nat := 3
deriving DecidableEq, Repr

namespace NetworkPath

def bindPeerAddress (path : NetworkPath) (address : Address) : NetworkPath :=
  { path with
    peerAddress := address
    retryCount := 0
    pendingChallenge := none
    challengeDeadlineMs := 0
    state := if address.isValid then .validated else .unknown }

/-- Whether the address changed, and the path after it. -/
def detectPeerAddressChange (path : NetworkPath) (newAddress : Address) : Bool × NetworkPath :=
  if !newAddress.isValid then (false, path)
  else if !path.peerAddress.isValid then (false, path.bindPeerAddress newAddress)
  else if path.peerAddress = newAddress then (false, path)
  else
    (true, { path with
      peerAddress := newAddress
      state := .validating
      retryCount := 0
      pendingChallenge := none
      challengeDeadlineMs := 0 })

def needPathValidation (path : NetworkPath) : Bool := path.state = .validating

def canRetryChallenge (path : NetworkPath) : Bool := path.retryCount < path.maxChallengeRetries

/-- `makePathChallenge`, `data` being the random bytes. -/
def makePathChallenge (path : NetworkPath) (nowMs : Nat) (data : List UInt8) : NetworkPath :=
  if path.state ≠ .validating then path
  else if path.pendingChallenge.isSome && nowMs < path.challengeDeadlineMs then path
  else if !path.canRetryChallenge then
    { path with state := .failed, pendingChallenge := none }
  else
    { path with
      pendingChallenge := some data
      challengeDeadlineMs := nowMs + path.challengeTimeoutMs
      retryCount := path.retryCount + 1 }

/-- Whether the response answers the challenge, and the path after it. -/
def onPathResponse (path : NetworkPath) (data : List UInt8) : Bool × NetworkPath :=
  if path.state = .validating ∧ path.pendingChallenge = some data then
    (true, { path with
      state := .validated
      retryCount := 0
      pendingChallenge := none
      challengeDeadlineMs := 0 })
  else (false, path)

/-- Whether the path failed for good, and the path after it. -/
def onTimeout (path : NetworkPath) (nowMs : Nat) : Bool × NetworkPath :=
  if path.pendingChallenge.isNone || path.state ≠ .validating then (false, path)
  else if nowMs < path.challengeDeadlineMs then (false, path)
  else
    let path := { path with pendingChallenge := none }
    if !path.canRetryChallenge then (true, { path with state := .failed }) else (false, path)

end NetworkPath

end Eular.Utp

namespace Eular.Utp

open Lib

-- ==== frames

def FrameStream.decode (data : List UInt8) : Option FrameStream :=
  if data.length < 1 + 1 + 2 + 4 + 8 then none
  else if data.head? ≠ some 1 then none
  else
    let streamDataLength := field data 2 2
    if data.length - (1 + 1 + 2 + 4 + 8) < streamDataLength then none
    else
      some
        { streamFlag := field data 1 1
          streamId := field data 4 4
          streamOffset := field data 8 8
          streamData := (data.drop (1 + 1 + 2 + 4 + 8)).take streamDataLength }

/-- `FrameResetStream::decode`: the stream id and the error code. -/
def decodeResetStream (data : List UInt8) : Option (Nat × Nat) :=
  if data.length < 1 + 2 + 4 + 8 then none
  else if data.head? ≠ some 6 then none
  else some (field data 3 4, field data 1 2)

/-- `FrameTransportParams::decode`. -/
def decodeTransportParams (data : List UInt8) : Option TransportParams :=
  if data.length < 1 + 2 + 4 + 2 + 2 + 2 + 1 + 8 + 8 + 8 then none
  else if data.head? ≠ some 16 then none
  else
    some
      { initMaxStreamsBidi := field data 9 2
        initMaxStreamsUni := field data 11 2
        initialMaxData := field data 14 8
        initialMaxStreamDataBidiLocal := field data 22 8
        initialMaxStreamDataBidiRemote := field data 30 8 }

/-- `FramePathResponse::decode`. -/
def decodePathResponse (data : List UInt8) : Option (List UInt8) :=
  if data.length < 1 + 8 then none
  else if data.head? ≠ some 10 then none
  else some ((data.drop 1).take 8)

-- ==== connection

/-- The part of `ConnectionImpl` that packets act on. -/
structure ConnectionImpl where
  state : ConnectionState
  localConnectionID : UInt32
  peerConnectionID : UInt32
  /-- The active path. -/
  peerAddress : Address
  networkPath : NetworkPath := {}
  aesCtx : Option AesGcmContext := none
  /-- `m_zeroRttConfig.enabled()`. -/
  zeroRttEnabled : Bool := false
  table : Streams
  receiveHistory : ReceiveHistory := {}
  /-- Why the connection was aborted, if it was. -/
  aborted : Option Status := none

/-- What came of a CRYPTO frame: it did not decode, the key exchange or the
context failed, or there is a key. -/
inductive CryptoOutcome where
  | ignored
  | failed (st : Status)
  | derived (ctx : AesGcmContext)
deriving DecidableEq, Repr

/-- What a packet's arrival takes from outside. -/
structure RecvEnv where
  nowMs : Nat
  /-- The random bytes of a PATH_CHALLENGE. -/
  challenge : List UInt8
  /-- The key exchange a CRYPTO frame starts, under a nonce prefix. -/
  deriveContext : List UInt8 → UInt32 → CryptoOutcome

namespace ConnectionImpl

/-- `m_state >= kStateCloseSent`. -/
def isClosingOrLater (conn : ConnectionImpl) : Bool :=
  match conn.state with
  | .closeSent | .closeReceived | .ptoTimedWait | .disconnected => true
  | .waitSendInitial | .initialSent | .handshakeSent | .handshakeReceived | .connected => false

def abortConnection (conn : ConnectionImpl) (reason : Status) : ConnectionImpl :=
  if conn.isClosingOrLater then conn
  else { conn with state := .closeSent, aborted := some reason }

def maybeSendPathChallenge (conn : ConnectionImpl) (env : RecvEnv) : ConnectionImpl :=
  if conn.networkPath.needPathValidation then
    { conn with networkPath := conn.networkPath.makePathChallenge env.nowMs env.challenge }
  else conn

def handlePathResponseFrame (conn : ConnectionImpl) (data : List UInt8) (source : Address) :
    ConnectionImpl :=
  if !conn.networkPath.needPathValidation || source ≠ conn.networkPath.peerAddress then conn
  else
    match decodePathResponse data with
    | none => conn
    | some response =>
      let (ok, path) := conn.networkPath.onPathResponse response
      if ok then { conn with networkPath := path, peerAddress := path.peerAddress } else conn

end ConnectionImpl

-- ==== the frame loop

/-- The local variables of the frame loop. -/
structure FrameLoop where
  conn : ConnectionImpl
  ingested : List (FrameStream × Status) := []
  streamBackpressured : Bool := false
  peerCloseReceived : Bool := false
  fatalPacketError : Bool := false

/-- What `onUdpPacket` has found out before the loop. -/
structure Arrival where
  source : Address
  closingState : Bool
  fromActivePath : Bool
  fromCandidatePath : Bool

/-- A frame the loop passes over: anything but CONNECTION_CLOSE while the
connection closes, and anything but path validation and CONNECTION_CLOSE
from a path that is not validated. -/
def Arrival.skips (a : Arrival) (frameType : FrameType) : Bool :=
  (a.closingState && frameType ≠ .connectionClose)
    || (!a.fromActivePath && a.fromCandidatePath && frameType ≠ .pathChallenge
        && frameType ≠ .pathResponse && frameType ≠ .connectionClose)

def FrameLoop.onStream (l : FrameLoop) (data : List UInt8) : FrameLoop :=
  let fail (l : FrameLoop) (st : Status) : FrameLoop :=
    { l with conn := l.conn.abortConnection st, fatalPacketError := true }
  match FrameStream.decode data with
  | none => fail l (.error .frameFormatError "decode stream frame failed")
  | some frame =>
    let r := l.conn.table.ingestStreamFrame frame
    let l := { l with
      conn := { l.conn with table := r.2 }
      ingested := l.ingested ++ [(frame, r.1)] }
    if r.1.ok then l
    else if r.1.code = .wouldBlock then { l with streamBackpressured := true }
    else fail l r.1

/-- The CRYPTO case: the key exchange, under the nonce prefix both sides
compute. -/
def FrameLoop.onCrypto (l : FrameLoop) (env : RecvEnv) (data : List UInt8) : FrameLoop :=
  match env.deriveContext data (l.conn.localConnectionID ^^^ l.conn.peerConnectionID) with
  | .ignored => l
  | .derived ctx => { l with conn := { l.conn with aesCtx := some ctx } }
  | .failed st => { l with conn := l.conn.abortConnection st, fatalPacketError := true }

/-- The switch of the frame loop. -/
def FrameLoop.onFrame (l : FrameLoop) (env : RecvEnv) (a : Arrival)
    (frame : FrameType × List UInt8) : FrameLoop :=
  if a.skips frame.1 then l
  else
    match frame.1 with
    | .stream => l.onStream frame.2
    | .resetStream =>
      match decodeResetStream frame.2 with
      | none => l
      | some (id, errorCode) =>
        { l with conn := { l.conn with table := l.conn.table.handleResetStreamFrame id
                                         errorCode } }
    | .pathResponse => { l with conn := l.conn.handlePathResponseFrame frame.2 a.source }
    | .transportParams =>
      match decodeTransportParams frame.2 with
      | none => l
      | some peerTP =>
        { l with conn := { l.conn with table := { l.conn.table with peerTP } } }
    | .crypto => l.onCrypto env frame.2
    | .connectionClose =>
      { l with conn := { l.conn with state := .closeReceived }, peerCloseReceived := true }
    | _ => l

/-- `stopFrameProcessing`. -/
def FrameLoop.stopped (l : FrameLoop) : Bool := l.peerCloseReceived || l.fatalPacketError

/-- The `while` loop of `onUdpPacket`. -/
def FrameLoop.run (env : RecvEnv) (a : Arrival) :
    FrameLoop → List (FrameType × List UInt8) → FrameLoop
  | l, [] => l
  | l, frame :: frames =>
    if l.stopped then l else FrameLoop.run env a (l.onFrame env a frame) frames

-- ==== onUdpPacket

/-- What a packet's passage leaves. -/
structure Receipt where
  packet : PacketIn
  ingested : List (FrameStream × Status)

/-- A packet whose number is not recorded, for what it is: `handshakePacket`,
`closePacket`. -/
def PacketIn.unacknowledged (packet : PacketIn) : Bool :=
  packet.header.types = UTP_TYPE_INITIAL || packet.header.types = UTP_TYPE_HANDSHAKE
    || packet.header.types = UTP_TYPE_CONNECTION_CLOSE
    || packet.frames.any fun frame => frame.1 = .connectionClose

namespace ConnectionImpl

/-- `m_state == CloseSent || m_state == CloseReceived`. -/
def closingState (conn : ConnectionImpl) : Bool :=
  conn.state = .closeSent || conn.state = .closeReceived

/-- What `onUdpPacket` does with the source address, and what it finds out
for the frame loop. -/
def arrive (conn : ConnectionImpl) (env : RecvEnv) (source : Address) : ConnectionImpl × Arrival :=
  let fromActivePath := conn.peerAddress.isValid && source = conn.peerAddress
  let conn' :=
    if !fromActivePath && !conn.closingState then
      let (changed, path) := conn.networkPath.detectPeerAddressChange source
      let conn := { conn with networkPath := path }
      if changed then conn.maybeSendPathChallenge env else conn
    else conn
  (conn',
    { source
      closingState := conn.closingState
      fromActivePath
      fromCandidatePath := conn'.networkPath.needPathValidation
        && conn'.networkPath.peerAddress.isValid && source = conn'.networkPath.peerAddress })

/-- The end of `onUdpPacket`: the packet number is recorded, and a client
whose handshake is answered is connected. -/
def finish (packet : PacketIn) (a : Arrival) (l : FrameLoop) : ConnectionImpl :=
  if l.fatalPacketError || l.peerCloseReceived || a.closingState then l.conn
  else
    let conn :=
      if packet.unacknowledged || l.streamBackpressured then l.conn
      else { l.conn with receiveHistory := l.conn.receiveHistory.insert packet.header.pn.toNat }
    if conn.state = .initialSent && packet.header.types = UTP_TYPE_HANDSHAKE then
      { conn with state := .connected }
    else conn

variable (gcm : Gcm)

/-- `ConnectionImpl::onUdpPacket` on a packet that decoded and carries this
connection's ID. -/
def onPacket (conn : ConnectionImpl) (env : RecvEnv) (source : Address) (packet : PacketIn) :
    ConnectionImpl × Receipt :=
  let conn := { conn with peerConnectionID := packet.header.scid }
  let (conn, a) := conn.arrive env source
  if conn.state = .ptoTimedWait || conn.state = .disconnected then
    (conn, { packet, ingested := [] })
  else
    let l := FrameLoop.run env a { conn } packet.frames
    (finish packet a l, { packet, ingested := l.ingested })

def UTP_TYPE_0RTT : UInt8 := 0x03

/-- The packet is for this connection. -/
def accepts (conn : ConnectionImpl) (h : UTPHeaderProto) : Bool :=
  let isPassiveInitial :=
    conn.state = .disconnected && h.types = UTP_TYPE_INITIAL && h.dcid = 0
  let isPassiveZeroRtt :=
    conn.state = .connected && h.types = UTP_TYPE_0RTT && h.dcid = 0
      && (conn.peerConnectionID = 0 || h.scid = conn.peerConnectionID)
  h.dcid = conn.localConnectionID || isPassiveInitial || isPassiveZeroRtt

/-- `ConnectionImpl::onUdpPacket` on a datagram. -/
def onUdpPacket (conn : ConnectionImpl) (env : RecvEnv) (source : Address) (msg : List UInt8) :
    ConnectionImpl × Option Receipt :=
  match decodeUdpPacketWithOptionalAead gcm conn.aesCtx msg (packetInAllocSize msg.length) with
  | none => (conn, none)
  | some packet =>
    if !conn.accepts packet.header then (conn, none)
    else
      let r := conn.onPacket env source packet
      (r.1, some r.2)

end ConnectionImpl

-- ==== the local side

def ConnectionState.value : ConnectionState → Nat
  | .waitSendInitial => 0
  | .initialSent => 1
  | .handshakeSent => 2
  | .handshakeReceived => 3
  | .connected => 4
  | .closeSent => 5
  | .closeReceived => 6
  | .ptoTimedWait => 7
  | .disconnected => 8

def StreamType.value : StreamType → Nat
  | .bidirectional => 0
  | .unidirectional => 1

namespace ConnectionImpl

/-- An error text of `createStreamInternal`. -/
def createStreamError (conn : ConnectionImpl) (code : UtpError) (text : String) (n : Nat) :
    Status :=
  .error code ("connection " ++ toString conn.localConnectionID.toNat ++ text ++ toString n)

def createStreamInternal (conn : ConnectionImpl) (streamType : StreamType) :
    Except Status Nat × ConnectionImpl :=
  let allowEarlyData := conn.state = .initialSent && conn.zeroRttEnabled
  if conn.state ≠ .connected && !allowEarlyData then
    (.error (conn.createStreamError .invalidState " cannot create stream in state "
      conn.state.value), conn)
  else
    let id := conn.table.collectClosedStreams.nextStreamId streamType
    let r := conn.table.openLocal streamType
      (conn.createStreamError .streamLimitError " stream limit reached for type "
        streamType.value)
      (conn.createStreamError .streamIdExhausted " stream id exhausted: " id)
    (r.1, { conn with table := r.2 })

def onPathValidationTimeout (conn : ConnectionImpl) (env : RecvEnv) : ConnectionImpl :=
  let (failed, path) := conn.networkPath.onTimeout env.nowMs
  let conn := { conn with networkPath := path }
  if failed then { conn with networkPath := path.bindPeerAddress conn.peerAddress }
  else if path.needPathValidation && path.pendingChallenge.isNone then
    conn.maybeSendPathChallenge env
  else conn

/-- `ConnectionImpl::beginCloseSent`, as `close` calls it. -/
def close (conn : ConnectionImpl) : ConnectionImpl :=
  if conn.state = .disconnected || conn.state = .ptoTimedWait then conn
  else { conn with state := .closeSent }

/-- `ConnectionImpl::enterPtoTimedWait`, once the CONNECTION_CLOSE is out. -/
def enterPtoTimedWait (conn : ConnectionImpl) : ConnectionImpl :=
  if conn.state = .closeSent then { conn with state := .ptoTimedWait } else conn

def onCloseDrainTimeout (conn : ConnectionImpl) : ConnectionImpl :=
  if conn.state = .closeSent || conn.state = .ptoTimedWait || conn.state = .closeReceived then
    { conn with state := .disconnected }
  else conn

end ConnectionImpl

-- ==== runs

/-- What the application and the writer do to a stream. -/
inductive AppOp where
  | read (capacity : Nat)
  | commitReadViews (bytes : Nat)
  | commitWrite (fin : Bool)
  | flushFin
  | reset (sent : Status)
deriving DecidableEq, Repr

def AppOp.toOp : AppOp → StreamImpl.Op
  | .read capacity => .read capacity
  | .commitReadViews bytes => .commitReadViews bytes
  | .commitWrite fin => .commitWrite fin
  | .flushFin => .flushFin
  | .reset sent => .reset sent

/-- What can happen to a connection. -/
inductive ConnOp where
  | datagram (env : RecvEnv) (source : Address) (msg : List UInt8)
  | createStream (streamType : StreamType)
  | stream (id : Nat) (op : AppOp)
  | collectClosedStreams
  | pathValidationTimeout (env : RecvEnv)
  | close
  | enterPtoTimedWait
  | closeDrainTimeout

/-- A connection, the receipts of its packets and the ids it created. -/
structure ConnRun where
  conn : ConnectionImpl
  receipts : List Receipt := []
  created : List Nat := []

variable (gcm : Gcm)

def ConnRun.step (r : ConnRun) : ConnOp → ConnRun
  | .datagram env source msg =>
    let (conn, receipt) := r.conn.onUdpPacket gcm env source msg
    { r with conn, receipts := r.receipts ++ receipt.toList }
  | .createStream streamType =>
    let (res, conn) := r.conn.createStreamInternal streamType
    match res with
    | .ok id => { r with conn, created := r.created ++ [id] }
    | .error _ => { r with conn }
  | .stream id op =>
    match r.conn.table.find id with
    | none => r
    | some s =>
      { r with conn := { r.conn with table := r.conn.table.store (s.step op.toOp) } }
  | .collectClosedStreams =>
    { r with conn := { r.conn with table := r.conn.table.collectClosedStreams } }
  | .pathValidationTimeout env => { r with conn := r.conn.onPathValidationTimeout env }
  | .close => { r with conn := r.conn.close }
  | .enterPtoTimedWait => { r with conn := r.conn.enterPtoTimedWait }
  | .closeDrainTimeout => { r with conn := r.conn.onCloseDrainTimeout }

end Eular.Utp
