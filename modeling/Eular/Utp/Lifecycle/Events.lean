/-
What happens to a connection (`context/connection_impl.cpp`): a datagram,
a chance to write, a timer, a call of the application.

Each event is one function on `Lifecycle`, with the name it has in the
source, and `step` is the machine they make.
-/
import Eular.Utp.Lifecycle.Lifecycle

namespace Eular.Utp

open Lib

variable {σ ε : Type}

-- ==== the frame loop

/-- The local variables of the frame loop. `peerClose` is
`peerCloseReceived`, with the code and the reason that came with it. -/
structure LifeLoop (σ : Type) where
  conn : Lifecycle σ
  hasHandshakeDoneFrame : Bool := false
  streamBackpressured : Bool := false
  peerClose : Option (Nat × String) := none
  fatalPacketError : Bool := false

/-- A frame that a path may carry before it is validated. -/
def FrameType.validatesOrCloses (frameType : FrameType) : Bool :=
  frameType = .pathChallenge || frameType = .pathResponse || frameType = .connectionClose

namespace LifeLoop

/-- `stopFrameProcessing`. -/
def stopped (l : LifeLoop σ) : Bool := l.peerClose.isSome || l.fatalPacketError

def onConnectionClose (l : LifeLoop σ) (env : LifeEnv ε) (data : List UInt8) : LifeLoop σ :=
  let close := (decodeConnectionClose data).getD (UTP_ERR_OK, "")
  let conn := { l.conn with state := .closeReceived, closeByPeer := true }
  let reason := if close.2 = "" then "peer closed connection" else close.2
  { l with
    conn := conn.recordConnectionError env close.1 reason
    peerClose := some (close.1, boundedReason close.2) }

variable (h : Handlers σ ε)

/-- The cases that concern the rest of the connection. -/
def onRest (l : LifeLoop σ) (env : LifeEnv ε) (frameType : FrameType) (data : List UInt8) :
    LifeLoop σ :=
  let r := h.frame env.rest l.conn.rest frameType data
  let conn := l.conn.absorb r
  match r.fatal with
  | none => { l with conn, streamBackpressured := l.streamBackpressured || r.backpressured }
  | some (code, reason) =>
    { l with
      conn := (conn.recordConnectionError env code reason).abortConnection h env code reason
      fatalPacketError := true }

/-- The switch of the frame loop, behind the two checks before it. -/
def onFrame (l : LifeLoop σ) (env : LifeEnv ε) (a : Arrival) (frame : FrameType × List UInt8) :
    LifeLoop σ :=
  if a.skips frame.1 then l
  else
    match frame.1 with
    | .pathChallenge => { l with conn := l.conn.handlePathChallengeFrame h env frame.2 a.source }
    | .pathResponse => { l with conn := l.conn.handlePathResponseFrame frame.2 a.source }
    | .connectionClose => l.onConnectionClose env frame.2
    | .handshakeDone => { l with hasHandshakeDoneFrame := true }
    | frameType => l.onRest h env frameType frame.2

/-- The `while` loop of `onUdpPacket`. -/
def run (env : LifeEnv ε) (a : Arrival) : LifeLoop σ → List (FrameType × List UInt8) → LifeLoop σ
  | l, [] => l
  | l, frame :: frames => if l.stopped then l else run env a (l.onFrame h env a frame) frames

end LifeLoop

-- ==== the datagram

namespace Lifecycle

variable (h : Handlers σ ε)

def fromActivePath (c : Lifecycle σ) (source : Address) : Bool :=
  c.peerAddress.isValid && source = c.peerAddress

/-- The path after `detectPeerAddressChange`, in `onUdpPacket`. -/
def noteSource (c : Lifecycle σ) (source : Address) : Lifecycle σ :=
  { c with networkPath := (c.networkPath.detectPeerAddressChange source).2 }

/-- The source address makes a new candidate. -/
def newCandidate (c : Lifecycle σ) (source : Address) : Bool :=
  !c.fromActivePath source && !c.closingState
    && (c.networkPath.detectPeerAddressChange source).1

/-- What `onUdpPacket` does with the source address. -/
def arrive (c : Lifecycle σ) (env : LifeEnv ε) (source : Address) : Lifecycle σ :=
  if !c.fromActivePath source && !c.closingState then
    if c.newCandidate source then (c.noteSource source).maybeSendPathChallenge h env
    else c.noteSource source
  else c

/-- What `onUdpPacket` has found out before the frame loop. -/
def arrival (c : Lifecycle σ) (env : LifeEnv ε) (source : Address) : Arrival :=
  let c' := c.arrive h env source
  { source
    closingState := c.closingState
    fromActivePath := c.fromActivePath source
    fromCandidatePath := c'.networkPath.needPathValidation && c'.networkPath.peerAddress.isValid
      && source = c'.networkPath.peerAddress }

/-- The frame loop of `onUdpPacket`. -/
def frameLoop (c : Lifecycle σ) (env : LifeEnv ε) (source : Address)
    (frames : List (FrameType × List UInt8)) : LifeLoop σ :=
  LifeLoop.run h env (c.arrival h env source) { conn := c.arrive h env source } frames

/-- What `onUdpPacket` does once the peer has closed. -/
def onPeerClose (c : Lifecycle σ) (code : Nat) (reason : String) : Lifecycle σ :=
  if c.closePeerResendCount = 0 then
    { c with
      closeErrorCode := code
      closeReason :=
        if code = UTP_ERR_OK then "ok"
        else if reason = "" then "peer closed connection" else reason
      closeFramePending := true }.scheduleWrite
  else c

/-- What is left of a packet after its frames. -/
def reception (l : LifeLoop σ) (packet : PacketIn) : Reception where
  header := packet.header
  ackOnly := packet.frameTypes = FrameType.ack.bit
  closePacket := packet.header.types = UTP_TYPE_CONNECTION_CLOSE
    || packet.frames.any fun frame => frame.1 = .connectionClose
  streamBackpressured := l.streamBackpressured
  hasHandshakeDoneFrame := l.hasHandshakeDoneFrame

/-- The end of `onUdpPacket`. -/
def finishPacket (l : LifeLoop σ) (env : LifeEnv ε) (closing : Bool) (packet : PacketIn) :
    Lifecycle σ :=
  if l.fatalPacketError then l.conn
  else
    match l.peerClose with
    | some (code, reason) => l.conn.onPeerClose code reason
    | none =>
      if closing then l.conn
      else
        let c := l.conn.absorb (h.received env.rest l.conn.rest (reception l packet))
        let c :=
          if c.state = .initialSent && packet.header.types = UTP_TYPE_HANDSHAKE then
            { c with state := .connected, handshakeRetryCount := 0, connTimer := false }
          else c
        if c.state = .connected then c.absorb (h.established env.rest c.rest packet.header) else c

def onUdpPacket (c : Lifecycle σ) (env : LifeEnv ε) (source : Address) (msg : List UInt8) :
    Lifecycle σ :=
  match h.accept c.rest c.state msg with
  | none => c
  | some packet =>
    if c.done then c.arrive h env source
    else finishPacket h (c.frameLoop h env source packet.frames) env c.closingState packet

-- ==== the writer

/-- `onWrite` once the CONNECTION_CLOSE is out. -/
def closeFrameOut (c : Lifecycle σ) : Lifecycle σ :=
  let resent := c.state = .closeReceived && c.closePeerResendCount < kMaxCloseResendCount
  { c with
    closeFramePending := false
    closePeerResendCount :=
      if resent then c.closePeerResendCount + 1 else c.closePeerResendCount }.enterPtoTimedWait

/-- `onWrite` hands what is scheduled to the send control; the rest of the
closing waits until nothing is left. -/
def drainScheduled (c : Lifecycle σ) (env : LifeEnv ε) : Lifecycle σ :=
  let c := c.absorb (h.onCanWrite env.rest c.rest)
  if h.scheduled c.rest then c.scheduleWrite else c.closeFrameOut

/-- `onWrite` while the connection closes. -/
def writeClosing (c : Lifecycle σ) (env : LifeEnv ε) : Lifecycle σ :=
  if !c.closeFramePending then c
  else if h.scheduled c.rest then c.drainScheduled h env
  else
    let (code, c) := c.sendConnectionCloseFrame h env
    if code = UTP_ERR_OK then
      if h.scheduled c.rest then c.drainScheduled h env else c.closeFrameOut
    else if code = UTP_ERR_WOULD_BLOCK then c.scheduleWrite
    else
      let c := { c with closeFramePending := false }.recordConnectionError env code
        "sendPacket failed"
      let c := c.disconnect env code
        (if c.lastErrorReason = "" then "send connection close failed" else c.lastErrorReason)
        c.closeByPeer
      c.scheduleWrite

/-- An end before the connection was ever up: the timers are off. -/
def failBeforeSent (c : Lifecycle σ) (env : LifeEnv ε) (code : Nat) (reason : String) :
    Lifecycle σ :=
  let c := c.recordConnectionError env code reason
  let c := { c with connTimer := false, pathValidationTimer := false }
  let last := c.lastErrorOr code reason
  c.disconnect env last.1 last.2 false

/-- The INITIAL of `onWrite`: whether to go on, and the connection. -/
def writeInitial (c : Lifecycle σ) (env : LifeEnv ε) : Bool × Lifecycle σ :=
  let (code, c) :=
    if c.zeroRttEnabled then (UTP_ERR_OK, c)
    else c.sendPacket h env c.peerAddress (.other (h.initial c.rest))
  if code ≠ UTP_ERR_OK then
    (false, c.failBeforeSent env code "send initial packet failed")
  else
    let c := { c with state := .initialSent, connTimer := env.timerArmed }
    if env.timerArmed then (true, c)
    else
      (false, c.failBeforeSent env UTP_ERR_SOCKET_EVENT "failed to start connection timer")

/-- The connection as `onWrite` comes to its PATH_CHALLENGE. -/
def writeEarly (c : Lifecycle σ) (env : LifeEnv ε) : Lifecycle σ :=
  c.absorb (h.early env.rest c.rest)

/-- `onWrite` after the INITIAL. -/
def writeOpen (c : Lifecycle σ) (env : LifeEnv ε) : Lifecycle σ :=
  let c := c.writeEarly h env
  let c :=
    if c.networkPath.needPathValidation && c.networkPath.pendingChallenge.isNone then
      c.maybeSendPathChallenge h env
    else c
  c.absorb (h.write env.rest c.rest)

/-- `ConnectionImpl::onWrite`, called from `onWriteEvent`, which has taken
the connection off `m_wantWriteConns`. -/
def onWrite (c : Lifecycle σ) (env : LifeEnv ε) : Lifecycle σ :=
  let c := { c with wantWrite := false }
  if c.done then c
  else if c.closingState then c.writeClosing h env
  else if c.state = .waitSendInitial then
    let (go, c) := c.writeInitial h env
    if go then c.writeOpen h env else c
  else c.writeOpen h env

-- ==== timers

/-- The end of `ConnectionImpl::onConnTimeout`. -/
def connTimedOut (c : Lifecycle σ) (env : LifeEnv ε) : Lifecycle σ :=
  let c := c.recordConnectionError env UTP_ERR_TIMEOUT "connect timeout"
  let last := c.lastErrorOr UTP_ERR_TIMEOUT "connect timeout"
  (c.disconnect env last.1 last.2 false).scheduleWrite

/-- `ConnectionImpl::onConnTimeout`; `readable` is `SocketHasReadableData`. -/
def onConnTimeout (c : Lifecycle σ) (env : LifeEnv ε) (readable : Bool) : Lifecycle σ :=
  if c.state = .connected || c.state = .disconnected || c.state = .closeSent
      || c.state = .ptoTimedWait then c
  else if c.state = .initialSent then
    if readable then { c with connTimer := env.timerArmed }
    else if c.handshakeRetryCount < c.handshakeMaxRetries then
      let (code, c) := c.sendPacket h env c.peerAddress (.other (h.initial c.rest))
      if code = UTP_ERR_OK then
        { c with
          handshakeRetryCount := c.handshakeRetryCount + 1
          connTimer := env.timerArmed }
      else if code = UTP_ERR_WOULD_BLOCK then
        { c.scheduleWrite with connTimer := true }
      else (c.recordConnectionError env code "send initial packet failed").connTimedOut env
    else c.connTimedOut env
  else c.connTimedOut env

/-- `ConnectionImpl::onKeepaliveTimeout`: the connection is idle, and all
probes were missed or one more is sent. -/
def onKeepaliveTimeout (c : Lifecycle σ) (env : LifeEnv ε) (allMissed : Bool) : Lifecycle σ :=
  if c.state ≠ .connected then c
  else if allMissed then
    (c.recordConnectionError env UTP_ERR_TIMEOUT "keepalive timeout").abortConnection h env
      UTP_ERR_TIMEOUT "keepalive timeout"
  else (c.sendPacket h env c.peerAddress (.other [.ofNat FrameType.ping.value])).2

def onCloseDrainTimeout (c : Lifecycle σ) (env : LifeEnv ε) : Lifecycle σ :=
  if c.state ≠ .closeSent && c.state ≠ .ptoTimedWait && c.state ≠ .closeReceived then c
  else
    (c.disconnect env c.closeErrorCode c.closeReason c.closeByPeer).scheduleWrite

-- ==== the machine

end Lifecycle

/-- How a connection comes to be: from `connect`, or from `initPassive`. -/
inductive Opening (σ : Type) where
  | connect (challengeTimeoutMs maxChallengeRetries : Nat) (peer : PeerAddress)
      (zeroRttEnabled : Bool) (handshakeMaxRetries : Nat) (rest : σ)
  | initPassive (challengeTimeoutMs maxChallengeRetries : Nat) (peer : PeerAddress) (rest : σ)

def Opening.start : Opening σ → Lifecycle σ
  | .connect timeoutMs retries peer zeroRttEnabled handshakeMaxRetries rest =>
    .connect (.new timeoutMs retries) peer zeroRttEnabled handshakeMaxRetries rest
  | .initPassive timeoutMs retries peer rest => .initPassive (.new timeoutMs retries) peer rest

/-- What can happen to a connection. -/
inductive LifeOp (ε : Type) where
  | datagram (env : LifeEnv ε) (source : PeerAddress) (msg : List UInt8)
  | write (env : LifeEnv ε)
  | connTimeout (env : LifeEnv ε) (readable : Bool)
  | pathValidationTimeout (env : LifeEnv ε)
  | closeDrainTimeout (env : LifeEnv ε)
  | keepaliveTimeout (env : LifeEnv ε) (allMissed : Bool)
  | close
  | event (env : LifeEnv ε)

namespace Lifecycle

variable (h : Handlers σ ε)

/-- One event. A timer fires only when it is armed, and firing disarms it;
a write happens only when it was asked for. -/
def step (c : Lifecycle σ) : LifeOp ε → Lifecycle σ
  | .datagram env source msg => c.onUdpPacket h env source.address msg
  | .write env => if c.wantWrite then c.onWrite h env else c
  | .connTimeout env readable =>
    if c.connTimer then { c with connTimer := false }.onConnTimeout h env readable else c
  | .pathValidationTimeout env =>
    if c.pathValidationTimer then
      { c with pathValidationTimer := false }.onPathValidationTimeout h env
    else c
  | .closeDrainTimeout env =>
    if c.closeDrainTimer then { c with closeDrainTimer := false }.onCloseDrainTimeout env else c
  | .keepaliveTimeout env allMissed => c.onKeepaliveTimeout h env allMissed
  | .close => c.close
  | .event env => c.absorb (h.event env.rest c.rest)

end Lifecycle

end Eular.Utp
