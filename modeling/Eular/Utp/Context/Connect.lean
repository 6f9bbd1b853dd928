/-
Connecting (`context/context_impl.cpp`, `connectInternal`,
`startPendingConnectAttempt`, `handleConnectionState`).

`connect` makes a connection and notes it in `m_pendingConnections`. From
then on the context looks at a connection's state whenever the
connection has had a datagram or has written, and tells the application
what came of it: connected, not connected, or closed. A connection that
ends while its attempt is pending may be replaced by a new one.

# Objects and calls

`m_pendingConnections` is keyed by the connection object; `id` numbers
the objects. `call` numbers the calls of `connect` that started an
attempt; the code has no such number, it is what `delivered` refers to.
Callbacks are steps of their own: what the application does in one comes
after it.
-/
import Eular.Utp.Lifecycle.Events

namespace Eular.Utp

open Lib

def UTP_ERR_CANCELLED : Nat := 0x0003

/-- `Context::ConnectInfo`; the address is that of `ip` and `port`. -/
structure ConnectInfo where
  peer : Address
  timeout : Nat := 3000
  retries : Int := 0
  encrypted : Nat := 0
deriving DecidableEq

/-- `operator==` on `ConnectInfo`. -/
def ConnectInfo.sameTarget (a b : ConnectInfo) : Bool := a.peer = b.peer

structure PendingConnectAttempt where
  connectInfo : ConnectInfo
  hasZeroRtt : Bool
  retriesRemaining : Nat
  call : Nat
deriving DecidableEq

/-- A callback of the application. -/
inductive Delivery where
  /-- `m_onConnected`, for a connection of `connect` or a passive one. -/
  | connected (id : Nat) (call : Option Nat)
  /-- `m_onConnectError`. -/
  | connectError (call : Nat) (errorCode : Nat) (reason : String)
  /-- `m_onConnectionClosed`. -/
  | connectionClosed (id : Nat)
deriving DecidableEq, Repr

/-- The callback is the outcome of the call. -/
def Delivery.settles (call : Nat) : Delivery → Bool
  | .connected _ (some c) => c = call
  | .connectError c _ _ => c = call
  | _ => false

/-- A connection in `m_connections`. -/
structure ManagedConnection (σ : Type) where
  id : Nat
  connectInfo : ConnectInfo
  conn : Lifecycle σ

/-- What a new connection takes from outside: whether `allocLocalCid` found
an id, the settings of its path and handshake, and the rest of it. -/
structure StartEnv (σ : Type) where
  cidAllocated : Bool := true
  challengeTimeoutMs : Nat := 1500
  maxChallengeRetries : Nat := 3
  handshakeMaxRetries : Nat := 2
  rest : σ

structure ConnectContext (σ : Type) where
  connections : List (ManagedConnection σ) := []
  /-- `m_pendingConnections`. -/
  pending : Nat → Option PendingConnectAttempt := fun _ => none
  nextId : Nat := 0
  nextCall : Nat := 0
  delivered : List Delivery := []

namespace ConnectContext

variable {σ ε : Type}

/-- `findManagedConnection`. -/
def find (s : ConnectContext σ) (id : Nat) : Option (ManagedConnection σ) :=
  s.connections.find? fun m => m.id = id

def deliver (s : ConnectContext σ) (d : Delivery) : ConnectContext σ :=
  { s with delivered := s.delivered ++ [d] }

/-- `m_connections.erase`. -/
def eraseConnection (s : ConnectContext σ) (id : Nat) : ConnectContext σ :=
  { s with connections := s.connections.filter fun m => m.id ≠ id }

/-- `m_pendingConnections.erase`. -/
def erasePending (s : ConnectContext σ) (id : Nat) : ConnectContext σ :=
  { s with pending := Function.update s.pending id none }

/-- A new connection in `m_connections`. -/
def insert (s : ConnectContext σ) (info : ConnectInfo) (conn : Lifecycle σ) : ConnectContext σ :=
  { s with
    connections := s.connections ++ [⟨s.nextId, info, conn⟩]
    nextId := s.nextId + 1 }

/-- `startPendingConnectAttempt`: whether it is under way. -/
def startPendingConnectAttempt (s : ConnectContext σ) (env : StartEnv σ)
    (attempt : PendingConnectAttempt) : Bool × ConnectContext σ :=
  if !env.cidAllocated then (false, s)
  else if hvalid : attempt.connectInfo.peer.isValid = true then
    let opening : Opening σ :=
      .connect env.challengeTimeoutMs env.maxChallengeRetries ⟨attempt.connectInfo.peer, hvalid⟩
        attempt.hasZeroRtt env.handshakeMaxRetries env.rest
    (true, { s.insert attempt.connectInfo opening.start with
      pending := Function.update s.pending s.nextId (some attempt) })
  else (false, s)

/-- `connectInternal`; `socketValid` is `m_udpSocket.isValid()`. -/
def connectInternal (s : ConnectContext σ) (env : StartEnv σ) (socketValid : Bool)
    (info : ConnectInfo) (hasZeroRtt : Bool) : ConnectContext σ :=
  if !socketValid then s
  else if s.connections.any fun m => m.connectInfo.sameTarget info then s
  else
    let (started, s') := s.startPendingConnectAttempt env
      { connectInfo := info, hasZeroRtt, retriesRemaining := info.retries.toNat,
        call := s.nextCall }
    if started then { s' with nextCall := s.nextCall + 1 } else s

/-- The CloseSent, CloseReceived and PtoTimedWait branch of
`handleConnectionState`. -/
def onClosingState (s : ConnectContext σ) (m : ManagedConnection σ) : ConnectContext σ :=
  match s.pending m.id with
  | none => s
  | some attempt =>
    if 0 < attempt.retriesRemaining then s
    else
      let last := m.conn.lastErrorOr UTP_ERR_CANCELLED "connection closed during handshake"
      (s.erasePending m.id).deliver (.connectError attempt.call last.1 last.2)

/-- The Disconnected branch of `handleConnectionState`. -/
def onDisconnected (s : ConnectContext σ) (env : StartEnv σ) (m : ManagedConnection σ) :
    ConnectContext σ :=
  match s.pending m.id with
  | none => (s.deliver (.connectionClosed m.id)).eraseConnection m.id
  | some attempt =>
    let s := (s.erasePending m.id).eraseConnection m.id
    let last := m.conn.lastErrorOr UTP_ERR_INVALID_STATE "connection failed before established"
    let failed := Delivery.connectError attempt.call last.1 last.2
    if 0 < attempt.retriesRemaining then
      let (started, s') := s.startPendingConnectAttempt env
        { attempt with retriesRemaining := attempt.retriesRemaining - 1 }
      if started then s' else s.deliver failed
    else s.deliver failed

/-- The Connected branch of `handleConnectionState`. -/
def onConnectedState (s : ConnectContext σ) (m : ManagedConnection σ) : ConnectContext σ :=
  match s.pending m.id with
  | none => s
  | some attempt => (s.erasePending m.id).deliver (.connected m.id (some attempt.call))

def handleConnectionState (s : ConnectContext σ) (env : StartEnv σ) (id : Nat) :
    ConnectContext σ :=
  match s.find id with
  | none => s
  | some m =>
    match m.conn.state with
    | .connected => s.onConnectedState m
    | .closeSent | .closeReceived | .ptoTimedWait => s.onClosingState m
    | .disconnected => s.onDisconnected env m
    | .waitSendInitial | .initialSent | .handshakeSent | .handshakeReceived => s

-- ==== the machine

/-- What happens to a context that connects. -/
inductive ConnectOp (σ ε : Type) where
  /-- `connect`, `connect0Rtt` or `connect0RttWithState`. -/
  | connect (env : StartEnv σ) (socketValid : Bool) (info : ConnectInfo) (hasZeroRtt : Bool)
  /-- A passive connection is there: a promotion or an admitted 0-RTT
  packet, with the packets it is given right away. -/
  | passive (env : StartEnv σ) (info : ConnectInfo) (peer : PeerAddress)
      (packets : List (LifeEnv ε × List UInt8))
  /-- An event of a connection; `env` is for a retry. -/
  | conn (id : Nat) (op : LifeOp ε) (env : StartEnv σ)

variable (h : Handlers σ ε)

/-- A connection after an event. -/
def advance (s : ConnectContext σ) (id : Nat) (op : LifeOp ε) : ConnectContext σ :=
  { s with connections := s.connections.map fun m =>
      if m.id = id then { m with conn := m.conn.step h op } else m }

/-- The event is one after which the context looks at the connection:
`onReadEvent` and `onWriteEvent`. -/
def looksAfter (s : ConnectContext σ) (id : Nat) : LifeOp ε → Bool
  | .datagram .. => true
  | .write _ => (s.find id).any fun m => m.conn.wantWrite
  | _ => false

/-- A passive connection, told of as connected. -/
def accepted (s : ConnectContext σ) (env : StartEnv σ) (info : ConnectInfo) (peer : PeerAddress)
    (packets : List (LifeEnv ε × List UInt8)) : ConnectContext σ :=
  let opening : Opening σ :=
    .initPassive env.challengeTimeoutMs env.maxChallengeRetries peer env.rest
  let conn := packets.foldl (fun c p => c.onUdpPacket h p.1 peer.address p.2) opening.start
  (s.insert info conn).deliver (.connected s.nextId none)

def step (s : ConnectContext σ) : ConnectOp σ ε → ConnectContext σ
  | .connect env socketValid info hasZeroRtt => s.connectInternal env socketValid info hasZeroRtt
  | .passive env info peer packets => s.accepted h env info peer packets
  | .conn id op env =>
    if s.looksAfter id op then (s.advance h id op).handleConnectionState env id
    else s.advance h id op

end ConnectContext

end Eular.Utp
