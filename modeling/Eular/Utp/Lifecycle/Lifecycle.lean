/-
The life of a connection (`context/connection_impl.cpp`): its states, its
path, its timers, how it closes.

`onUdpPacket`, `onWrite` and the timer callbacks share a small part of
the connection, which decides which address the peer is believed to be
at, whether an address is being validated, and how the connection ends.
`Lifecycle` is that part.

# The rest of the connection

Streams, flow control, acknowledgements, keys and the send queues are
`rest`, and what the code does to them is a parameter (`Handlers`): each
handler takes what it needs of the environment and answers with the new
`rest`, what it sent to the peer, whether the application called
`close()` from one of its callbacks, and, for a frame, whether it is a
reason to abort. Nothing is assumed of the handlers, so what is proved
here holds whatever they do.

# What is written down

`wire` is every datagram that went out, with the address it was sent to
and the address that was active then; `closed` is every call of
`m_onClosed`. Timers are flags: an armed timer may fire, and firing
disarms it.
-/
import Eular.Utp.Connection.Connection

namespace Eular.Utp

open Lib

-- ==== error codes

def UTP_ERR_OK : Nat := 0x0000
def UTP_ERR_TIMEOUT : Nat := 0x0004
def UTP_ERR_IN_PROGRESS : Nat := 0x0009
def UTP_ERR_WOULD_BLOCK : Nat := 0x000a
def UTP_ERR_INVALID_STATE : Nat := 0x000b
def UTP_ERR_SOCKET_EVENT : Nat := 0x0028

-- ==== the path

namespace NetworkPath

/-- `NetworkPath::NetworkPath`. -/
def new (challengeTimeoutMs maxChallengeRetries : Nat) : NetworkPath where
  challengeTimeoutMs := if 0 < challengeTimeoutMs then challengeTimeoutMs else 1500
  maxChallengeRetries :=
    if 0 < maxChallengeRetries % 256 then maxChallengeRetries % 256 else 3

/-- What `makePathChallenge` answers. -/
def challengeStatus (path : NetworkPath) (nowMs : Nat) : Nat :=
  if path.state ≠ .validating then UTP_ERR_INVALID_STATE
  else if path.pendingChallenge.isSome && nowMs < path.challengeDeadlineMs then
    UTP_ERR_IN_PROGRESS
  else if !path.canRetryChallenge then UTP_ERR_TIMEOUT
  else UTP_ERR_OK

end NetworkPath

/-- An address a datagram can come from: `recvmsg` always fills one in. -/
structure PeerAddress where
  address : Address
  valid : address.isValid = true
deriving DecidableEq

/-- `DecodePathFrame` of a PATH_CHALLENGE. -/
def decodePathChallenge (data : List UInt8) : Option (List UInt8) :=
  if data.length < 1 + 8 then none
  else if data.head? ≠ some 9 then none
  else some ((data.drop 1).take 8)

/-- `FrameConnectionClose::decode`: the error code and the reason. -/
def decodeConnectionClose (data : List UInt8) : Option (Nat × String) :=
  if data.length < 1 + 2 + 2 then none
  else if data.head? ≠ some 4 then none
  else
    let reasonLength := field data 3 2
    if data.length - (1 + 2 + 2) < reasonLength then none
    else
      some (field data 1 2, String.ofList
        (((data.drop (1 + 2 + 2)).take reasonLength).map fun b => Char.ofNat b.toNat))

-- ==== the environment

/-- What a packet carries, as far as the path is concerned. -/
inductive Payload where
  | pathChallenge (data : List UInt8)
  | pathResponse (data : List UInt8)
  | other (bytes : List UInt8)
deriving DecidableEq, Repr

/-- The packet validates a path. -/
def Payload.isPath : Payload → Bool
  | .pathChallenge _ | .pathResponse _ => true
  | .other _ => false

/-- A datagram that went out, and the active address at the time. -/
structure Datagram where
  dest : Address
  active : Address
  payload : Payload
deriving DecidableEq, Repr

structure Handled (σ : Type) where
  rest : σ
  /-- What it sent, to the active address. -/
  sends : List (List UInt8) := []
  /-- The application called `close()` from a callback. -/
  closes : Bool := false
  /-- The STREAM case: `streamBackpressured`. -/
  backpressured : Bool := false
  /-- The error a frame aborts the connection with. -/
  fatal : Option (Nat × String) := none

/-- What `onUdpPacket` knows of a packet once its frames are done with. -/
structure Reception where
  header : UTPHeaderProto
  /-- Nothing in it but an ACK. -/
  ackOnly : Bool
  closePacket : Bool
  streamBackpressured : Bool
  hasHandshakeDoneFrame : Bool

/-- The rest of the connection: what it does at each point where the
code modelled here calls it. -/
structure Handlers (σ ε : Type) where
  /-- The packet a datagram decodes to, if it is for this connection. -/
  accept : σ → ConnectionState → List UInt8 → Option PacketIn
  /-- `sendPacket` to an address: the code it answers with. -/
  sendPacket : ε → σ → Address → Payload → Nat × σ
  /-- The case of the frame switch for a frame that is neither path
  validation nor CONNECTION_CLOSE. -/
  frame : ε → σ → FrameType → List UInt8 → Handled σ
  /-- What follows the frames: the receive history and acknowledgements. -/
  received : ε → σ → Reception → Handled σ
  /-- What an established connection does last with a packet:
  `flushPendingStreamWrites`, the HANDSHAKE_DONE timer. -/
  established : ε → σ → UTPHeaderProto → Handled σ
  /-- The payload of an INITIAL. -/
  initial : σ → List UInt8
  /-- The start of `onWrite`: early data and the session token. -/
  early : ε → σ → Handled σ
  /-- The end of `onWrite`: stream writes and the send control. -/
  write : ε → σ → Handled σ
  /-- `m_sendCtl->scheduledCount() > 0`. -/
  scheduled : σ → Bool
  /-- `m_sendCtl->onCanWrite`. -/
  onCanWrite : ε → σ → Handled σ
  /-- A call or timer that concerns only the rest. -/
  event : ε → σ → Handled σ

/-- What a step takes from outside: the clock, the random bytes of a
PATH_CHALLENGE, what the application does when it is told of an error or
of the end, whether a timer could be armed, and what `Handlers` need. -/
structure LifeEnv (ε : Type) where
  nowMs : Nat
  challenge : List UInt8
  onErrorCloses : Bool := false
  onClosedCloses : Bool := false
  timerArmed : Bool := true
  rest : ε

structure ConnectionCloseInfo where
  errorCode : Nat
  errorReason : String
  byPeer : Bool
deriving DecidableEq, Repr

-- ==== the connection

/-- `kMaxCloseResendCount`, `kConnectionReasonSize`. -/
def kMaxCloseResendCount : Nat := 3
def kConnectionReasonSize : Nat := 128

/-- `std::snprintf` into a buffer for a reason. -/
def boundedReason (reason : String) : String :=
  String.ofList (reason.toList.take (kConnectionReasonSize - 1))

structure Lifecycle (σ : Type) where
  state : ConnectionState
  /-- The active path. -/
  peerAddress : Address
  networkPath : NetworkPath
  pathValidationTimer : Bool := false
  connTimer : Bool := false
  closeDrainTimer : Bool := false
  /-- The connection is in `m_wantWriteConns`. -/
  wantWrite : Bool := true
  zeroRttEnabled : Bool := false
  handshakeRetryCount : Nat := 0
  handshakeMaxRetries : Nat := 0
  lastErrorCode : Nat := 0
  lastErrorReason : String := ""
  closeErrorCode : Nat := 0
  closeReason : String := ""
  closeByPeer : Bool := false
  closeFramePending : Bool := false
  closePeerResendCount : Nat := 0
  closedNotified : Bool := false
  rest : σ
  wire : List Datagram := []
  closed : List ConnectionCloseInfo := []

namespace Lifecycle

variable {σ ε : Type}

/-- A new connection: `ConnectionImpl::connect`, on a client. -/
def connect (path : NetworkPath) (peer : PeerAddress) (zeroRttEnabled : Bool)
    (handshakeMaxRetries : Nat) (rest : σ) : Lifecycle σ where
  state := .waitSendInitial
  peerAddress := peer.address
  networkPath := path.bindPeerAddress peer.address
  zeroRttEnabled
  handshakeMaxRetries
  rest

/-- A new connection: `ConnectionImpl::initPassive`, on a server. -/
def initPassive (path : NetworkPath) (peer : PeerAddress) (rest : σ) : Lifecycle σ where
  state := .connected
  peerAddress := peer.address
  networkPath := path.bindPeerAddress peer.address
  rest

/-- `m_state >= kStateCloseSent`. -/
def isClosingOrLater (c : Lifecycle σ) : Bool :=
  match c.state with
  | .closeSent | .closeReceived | .ptoTimedWait | .disconnected => true
  | .waitSendInitial | .initialSent | .handshakeSent | .handshakeReceived | .connected => false

/-- `m_state == CloseSent || m_state == CloseReceived`. -/
def closingState (c : Lifecycle σ) : Bool := c.state = .closeSent || c.state = .closeReceived

/-- The connection will see no more packets: PTO wait, or the end. -/
def done (c : Lifecycle σ) : Bool := c.state = .ptoTimedWait || c.state = .disconnected

-- ==== closing

def scheduleWrite (c : Lifecycle σ) : Lifecycle σ := { c with wantWrite := true }

def beginCloseSent (c : Lifecycle σ) (errorCode : Nat) (reason : String) : Lifecycle σ :=
  if c.done then c
  else
    { c with
      state := .closeSent
      connTimer := false
      pathValidationTimer := false
      closeErrorCode := errorCode
      closeReason := if errorCode = UTP_ERR_OK then "ok" else boundedReason reason
      closeByPeer := false
      closeFramePending := true
      closePeerResendCount := 0 }.scheduleWrite

def close (c : Lifecycle σ) : Lifecycle σ :=
  if c.state = .disconnected then c else c.beginCloseSent UTP_ERR_OK "ok"

/-- A callback of the application, which may call `close()`. -/
def callback (c : Lifecycle σ) (closes : Bool) : Lifecycle σ := if closes then c.close else c

def notifyConnectionClosed (c : Lifecycle σ) (env : LifeEnv ε) (errorCode : Nat)
    (reason : String) (byPeer : Bool) : Lifecycle σ :=
  if c.closedNotified then c
  else
    let info : ConnectionCloseInfo := { errorCode, errorReason := reason, byPeer }
    { c with closedNotified := true, closed := c.closed ++ [info] }.callback env.onClosedCloses

/-- `ConnectionImpl::recordConnectionError`, with `notify`. -/
def recordConnectionError (c : Lifecycle σ) (env : LifeEnv ε) (errorCode : Nat)
    (reason : String) : Lifecycle σ :=
  if errorCode = UTP_ERR_OK then c
  else if c.lastErrorCode ≠ UTP_ERR_OK then c
  else
    { c with
      lastErrorCode := errorCode
      lastErrorReason := boundedReason reason }.callback env.onErrorCloses

/-- The connection ends here: `m_state = kStateDisconnected`, the callback. -/
def disconnect (c : Lifecycle σ) (env : LifeEnv ε) (errorCode : Nat) (reason : String)
    (byPeer : Bool) : Lifecycle σ :=
  { c with state := .disconnected }.notifyConnectionClosed env errorCode reason byPeer

/-- The code and the text of an end: the last error, or what is given. -/
def lastErrorOr (c : Lifecycle σ) (errorCode : Nat) (reason : String) : Nat × String :=
  (if c.lastErrorCode = UTP_ERR_OK then errorCode else c.lastErrorCode,
    if c.lastErrorReason = "" then reason else c.lastErrorReason)

/-- What a handler leaves becomes the connection's. -/
def absorb (c : Lifecycle σ) (r : Handled σ) : Lifecycle σ :=
  let sent := r.sends.map fun bytes => Datagram.mk c.peerAddress c.peerAddress (.other bytes)
  { c with rest := r.rest, wire := c.wire ++ sent }.callback r.closes

variable (h : Handlers σ ε)

/-- `ConnectionImpl::sendPacket`: the code it answers with. -/
def sendPacket (c : Lifecycle σ) (env : LifeEnv ε) (dest : Address) (payload : Payload) :
    Nat × Lifecycle σ :=
  let r := h.sendPacket env.rest c.rest dest payload
  (r.1,
    if r.1 = UTP_ERR_OK then
      { c with rest := r.2, wire := c.wire ++ [⟨dest, c.peerAddress, payload⟩] }
    else { c with rest := r.2 })

/-- The payload of a CONNECTION_CLOSE with the connection's code and
reason. -/
def closePayload (c : Lifecycle σ) : Payload :=
  .other (bigEndian 1 4 ++ bigEndian 2 c.closeErrorCode ++ bigEndian 2 c.closeReason.length
    ++ c.closeReason.toList.map fun ch => UInt8.ofNat ch.toNat)

def sendConnectionCloseFrame (c : Lifecycle σ) (env : LifeEnv ε) : Nat × Lifecycle σ :=
  c.sendPacket h env c.peerAddress c.closePayload

def abortConnection (c : Lifecycle σ) (env : LifeEnv ε) (errorCode : Nat) (reason : String) :
    Lifecycle σ :=
  if c.isClosingOrLater then c
  else
    let c := { c with
      lastErrorCode := errorCode
      lastErrorReason := boundedReason reason
      closeErrorCode := errorCode
      state := .closeSent }
    { (c.sendConnectionCloseFrame h env).2 with closeDrainTimer := true }.notifyConnectionClosed
      env errorCode reason false

def enterPtoTimedWait (c : Lifecycle σ) : Lifecycle σ :=
  { c with
    connTimer := false
    pathValidationTimer := false
    state := if c.state ≠ .closeReceived then .ptoTimedWait else c.state
    closeDrainTimer := true }

-- ==== path validation

def maybeSendPathChallenge (c : Lifecycle σ) (env : LifeEnv ε) : Lifecycle σ :=
  if !c.networkPath.needPathValidation then c
  else
    let status := c.networkPath.challengeStatus env.nowMs
    let c := { c with networkPath := c.networkPath.makePathChallenge env.nowMs env.challenge }
    if status ≠ UTP_ERR_OK then c
    else if !c.networkPath.peerAddress.isValid then c
    else
      let (sent, c) := c.sendPacket h env c.networkPath.peerAddress (.pathChallenge env.challenge)
      if sent ≠ UTP_ERR_OK then c else { c with pathValidationTimer := true }

def handlePathChallengeFrame (c : Lifecycle σ) (env : LifeEnv ε) (data : List UInt8)
    (source : Address) : Lifecycle σ :=
  match decodePathChallenge data with
  | none => c
  | some challenge => (c.sendPacket h env source (.pathResponse challenge)).2

def handlePathResponseFrame (c : Lifecycle σ) (data : List UInt8) (source : Address) :
    Lifecycle σ :=
  if !c.networkPath.needPathValidation || source ≠ c.networkPath.peerAddress then c
  else
    match decodePathResponse data with
    | none => c
    | some response =>
      let (ok, path) := c.networkPath.onPathResponse response
      if ok then
        { c with networkPath := path, peerAddress := path.peerAddress,
                 pathValidationTimer := false }
      else { c with networkPath := path }

/-- The path after `onTimeout`, in `onPathValidationTimeout`. -/
def expireChallenge (c : Lifecycle σ) (env : LifeEnv ε) : Lifecycle σ :=
  { c with networkPath := (c.networkPath.onTimeout env.nowMs).2 }

def onPathValidationTimeout (c : Lifecycle σ) (env : LifeEnv ε) : Lifecycle σ :=
  let failed := (c.networkPath.onTimeout env.nowMs).1
  let c := c.expireChallenge env
  if failed then
    { c with
      networkPath := c.networkPath.bindPeerAddress c.peerAddress
      pathValidationTimer := false }
  else if c.networkPath.needPathValidation && c.networkPath.pendingChallenge.isNone then
    c.maybeSendPathChallenge h env
  else c

end Lifecycle

end Eular.Utp
