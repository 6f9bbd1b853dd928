/-
Connections coming in (`context/context_impl.cpp`, `onReadEvent`,
`accept`, `processPendingHandshakeTimeouts`).

A datagram goes to the connection it names, to the pending entry it
names, or is looked at for a new peer: an INITIAL makes a pending entry,
which `accept` answers with a HANDSHAKE and a HANDSHAKE_DONE turns into
a connection; a 0-RTT packet with a good ticket makes a connection right
away. Entries that are never confirmed time out.

# Callbacks

The application is told of things in the middle of these steps, and may
call `connect` and `accept` from there. `Application` is what it does in
one callback: calls in order, with what it does in the callbacks of
those calls. What a connection does in an event, outside these tables,
is given to the step (`ConnectionEvent`).

# What is written down

`wire` is every datagram sent for an entry, with the entry's ID and the
packet number.
-/
import Eular.Lib.SecondaryIndex
import Eular.Utp.Context.Pending

namespace Eular.Utp

open Lib

-- ==== the state

/-- A connection in `m_connections`, as the tables see it; `packetNumber`
is `m_packetNumber`, the next one. -/
structure ContextConnection where
  localConnectionID : UInt32
  connectInfo : ConnectInfo
  peerConnectionID : UInt32 := 0
  packetNumber : UInt64 := 1
  aesCtx : Option AesGcmContext := none

/-- A datagram sent for an entry. -/
structure PendingDatagram where
  localCid : UInt32
  pn : UInt64
  bytes : List UInt8
deriving DecidableEq

/-- The part of `ContextImpl` that incoming connections act on. -/
structure IncomingContext where
  connections : List ContextConnection := []
  pendingIncoming : UInt32 → Option PendingIncomingConnection := fun _ => none
  pendingIncomingPeerIndex : PeerIndexKey → Option UInt32 := fun _ => none
  pendingIncomingQueue : List UInt32 := []
  waitHandshakeDone : List UInt32 := []
  zeroRttReplayCache : ReplayCache ZeroRttReplayKey := []
  wire : List PendingDatagram := []

-- ==== the environment

/-- What `connect` takes from outside: the ids drawn, whether the socket is
bound, and whom to connect to. -/
structure ConnectCall where
  draws : List UInt32
  socketValid : Bool := true
  info : ConnectInfo

/-- What `accept` takes from outside: the clock, and what the socket does
with the HANDSHAKE and with the CONNECTION_CLOSE after a failure. -/
structure AcceptCall where
  nowUs : Nat
  handshake : SocketSend := .sent
  close : SocketSend := .sent

/-- What the application does in a callback, or between two events. -/
inductive Application where
  | done
  | connect (call : ConnectCall) (next : Application)
  /-- `onConnectError` is what it does in the callback of a failed `accept`. -/
  | accept (call : AcceptCall) (onConnectError : Application) (next : Application)

/-- What a connection does with packets or a timer: the callbacks, the ID it
has learned of its peer, and how many packets it has sent. -/
structure ConnectionWork where
  callbacks : Application := .done
  peerConnectionID : Option UInt32 := none
  packetsSent : Nat := 0

/-- What `handleConnectionState` finds. -/
inductive ConnectionOutcome where
  | stays
  | ends
  /-- It has ended, and a pending attempt starts over. -/
  | retries (draws : List UInt32)

/-- An event of a connection, with what the application does once its outcome
is noted. -/
structure ConnectionEvent where
  work : ConnectionWork := {}
  outcome : ConnectionOutcome := .stays
  after : Application := .done

/-- What a datagram takes from outside. -/
structure IncomingEnv where
  nowUs : Nat
  /-- What the connection that takes the datagram does with it. -/
  event : ConnectionEvent := {}
  /-- What a connection that is new does with its first packets. -/
  work : ConnectionWork := {}
  draws : List UInt32
  /-- The key exchange, and the public key of our side. -/
  deriveContext : List UInt8 → UInt32 → CryptoOutcome
  publicKey : List UInt8
  keyKnown : Bool := true
  validateMs : Nat := 0
  rememberMs : Nat := 0
  /-- `m_onZeroRttDecision`, in the order it is called. -/
  onZeroRttDecision : List Application := []
  accepted : Bool := true
  onNewConnection : Application := .done
  onConnected : Application := .done
  onConnectError : Application := .done
  handshake : SocketSend := .sent
  close : SocketSend := .sent

/-- What a run of the handshake timer takes from outside. -/
structure TimeoutEnv where
  nowUs : Nat
  handshake : UInt32 → SocketSend := fun _ => .sent
  close : UInt32 → SocketSend := fun _ => .sent
  onConnectError : UInt32 → Application := fun _ => .done

-- ==== the tables

namespace IncomingContext

def find (s : IncomingContext) (cid : UInt32) : Option ContextConnection :=
  s.connections.find? fun c => c.localConnectionID = cid

/-- A new connection in `m_connections`. -/
def insert (s : IncomingContext) (conn : ContextConnection) : IncomingContext :=
  { s with connections := s.connections ++ [conn] }

/-- `m_connections.erase`. -/
def eraseConnection (s : IncomingContext) (cid : UInt32) : IncomingContext :=
  { s with connections := s.connections.filter fun c => c.localConnectionID ≠ cid }

/-- A pending entry is written back. -/
def store (s : IncomingContext) (cid : UInt32) (pending : PendingIncomingConnection) :
    IncomingContext :=
  { s with pendingIncoming := Function.update s.pendingIncoming cid (some pending) }

/-- A send for the entry `pending`, on the wire. -/
def note (s : IncomingContext) (pending : PendingIncomingConnection) (r : PendingSend) :
    IncomingContext :=
  { s with wire := s.wire ++ r.datagram.toList.map fun bytes =>
      ⟨pending.localCid, pending.packetNumber, bytes⟩ }

/-- `ContextImpl::allocLocalCid`, on eight random numbers. -/
def allocLocalCid (s : IncomingContext) (draws : List UInt32) : Option UInt32 :=
  (draws.take 8).find? fun cid =>
    cid ≠ 0 && (s.find cid).isNone && (s.pendingIncoming cid).isNone

def removePendingIncoming (s : IncomingContext) (localCid : UInt32) : IncomingContext :=
  match s.pendingIncoming localCid with
  | none => s
  | some pending =>
    { s with
      pendingIncomingPeerIndex :=
        Function.update s.pendingIncomingPeerIndex pending.key none
      waitHandshakeDone := s.waitHandshakeDone.filter fun cid => cid ≠ localCid
      pendingIncomingQueue := s.pendingIncomingQueue.filter fun cid => cid ≠ localCid
      pendingIncoming := Function.update s.pendingIncoming localCid none }

-- ==== what the application calls

def startPendingConnectAttempt (s : IncomingContext) (draws : List UInt32) (info : ConnectInfo) :
    IncomingContext :=
  match s.allocLocalCid draws with
  | none => s
  | some cid =>
    if info.peer.isValid then s.insert { localConnectionID := cid, connectInfo := info } else s

/-- `connectInternal`. -/
def connect (s : IncomingContext) (call : ConnectCall) : IncomingContext :=
  if !call.socketValid then s
  else if s.connections.any fun c => c.connectInfo.sameTarget call.info then s
  else s.startPendingConnectAttempt call.draws call.info

variable (cfg : IncomingConfig)

/-- `ContextImpl::accept`, with the code and text of its status; `onError`
is the callback of a failed one. -/
def accept (s : IncomingContext) (call : AcceptCall)
    (onError : IncomingContext → IncomingContext) : (Nat × String) × IncomingContext :=
  match s.pendingIncomingQueue with
  | [] => ((UTP_ERR_WOULD_BLOCK, "no pending incoming connections"), s)
  | localCid :: queue =>
    let s := { s with pendingIncomingQueue := queue }
    match s.pendingIncoming localCid with
    | none => ((UTP_ERR_INVALID_STATE, "pending connection not found"), s)
    | some pending =>
      if pending.handshakeSent then ((UTP_ERR_IN_PROGRESS, "handshake already sent"), s)
      else
        let r := pending.sendPendingHandshake cfg call.nowUs call.handshake
        let s := (s.note pending r).store localCid r.pending
        if !r.status.ok then
          let closed := r.pending.sendPendingConnectionClose call.close
            UtpError.internalError.value "send handshake failed"
          let s := (s.note r.pending closed).store localCid closed.pending
          ((UtpError.internalError.value, "send passive handshake failed"),
            (onError s).removePendingIncoming localCid)
        else
          let s := s.store localCid
            { r.pending with
              handshakeSent := true
              acceptStartUs := call.nowUs
              lastHandshakeSentUs := call.nowUs
              handshakeRetryCount := 0 }
          ((UTP_ERR_OK, ""), { s with waitHandshakeDone :=
              if localCid ∈ s.waitHandshakeDone then s.waitHandshakeDone
              else s.waitHandshakeDone.orderedInsert (· ≤ ·) localCid })

end IncomingContext

/-- What the application does, one call after the other. -/
def Application.run (cfg : IncomingConfig) : Application → IncomingContext → IncomingContext
  | .done, s => s
  | .connect call next, s => next.run cfg (s.connect call)
  | .accept call onConnectError next, s =>
    next.run cfg (s.accept cfg call fun s => onConnectError.run cfg s).2

namespace IncomingContext

variable (cfg : IncomingConfig)

-- ==== timeouts

/-- The first loop of `processPendingHandshakeTimeouts`, for one id: the
HANDSHAKE is sent again when it is due, and whether the entry expired. -/
def retryPending (env : TimeoutEnv) (s : IncomingContext) (localCid : UInt32) :
    Bool × IncomingContext :=
  match s.pendingIncoming localCid with
  | none => (true, s)
  | some pending =>
    if !pending.handshakeSent || pending.lastHandshakeSentUs = 0 then (false, s)
    else
      match cfg.retryDueUs pending.peerTp pending.lastHandshakeSentUs
          pending.handshakeRetryCount with
      | none => (false, s)
      | some dueUs =>
        if env.nowUs < dueUs then (false, s)
        else if pending.handshakeRetryCount < cfg.handshakeMaxRetries then
          let r := pending.sendPendingHandshake cfg env.nowUs (env.handshake localCid)
          let s := s.note pending r
          if r.status.ok then
            (false, s.store localCid
              { r.pending with
                lastHandshakeSentUs := env.nowUs
                handshakeRetryCount := pending.handshakeRetryCount + 1 })
          else (false, s.store localCid r.pending)
        else (true, s)

/-- The loop, over ids: the state and the expired ids. -/
def retryAll (env : TimeoutEnv) : IncomingContext → List UInt32 → IncomingContext × List UInt32
  | s, [] => (s, [])
  | s, cid :: cids =>
    let (expired, s) := s.retryPending cfg env cid
    let (s, rest) := s.retryAll env cids
    (s, if expired then cid :: rest else rest)

/-- The second loop, for one id. The entry is copied before the close is
sent. -/
def expire (env : TimeoutEnv) (s : IncomingContext) (localCid : UInt32) : IncomingContext :=
  match s.pendingIncoming localCid with
  | none => s
  | some pending =>
    let s := s.note pending (pending.sendPendingConnectionClose (env.close localCid)
      UTP_ERR_TIMEOUT "wait handshake done timeout")
    ((env.onConnectError localCid).run cfg s).removePendingIncoming localCid

def processPendingHandshakeTimeouts (s : IncomingContext) (env : TimeoutEnv) : IncomingContext :=
  let (s, expired) := s.retryAll cfg env s.waitHandshakeDone
  expired.foldl (fun s cid => s.expire cfg env cid) s

-- ==== connections

def connectionWork (s : IncomingContext) (cid : UInt32) (work : ConnectionWork) :
    IncomingContext :=
  let s := work.callbacks.run cfg s
  { s with connections := s.connections.map fun c =>
      if c.localConnectionID = cid then
        { c with
          peerConnectionID := work.peerConnectionID.getD c.peerConnectionID
          packetNumber := c.packetNumber + UInt64.ofNat work.packetsSent }
      else c }

/-- A connection at work, and what `handleConnectionState` makes of it. -/
def connectionEvent (s : IncomingContext) (cid : UInt32) (ev : ConnectionEvent) :
    IncomingContext :=
  let s := s.connectionWork cfg cid ev.work
  let s :=
    match ev.outcome with
    | .stays => s
    | .ends => s.eraseConnection cid
    | .retries draws =>
      match s.find cid with
      | none => s
      | some c => (s.eraseConnection cid).startPendingConnectAttempt draws c.connectInfo
  ev.after.run cfg s

/-- `createAndInsertPassiveConnection`, with `initPassive`. -/
def createAndInsertPassiveConnection (s : IncomingContext) (localCid : UInt32)
    (peerAddress : PeerAddress) (peerCid : UInt32) (encrypted : Nat)
    (aesCtx : Option AesGcmContext) (onConnectError : Application) : Bool × IncomingContext :=
  if peerCid = 0 then (false, s)
  else if (s.find localCid).isSome then (false, onConnectError.run cfg s)
  else
    (true, s.insert
      { localConnectionID := localCid
        connectInfo :=
          { peer := peerAddress.address, timeout := cfg.handshakeTimeout, encrypted }
        peerConnectionID := peerCid
        aesCtx })

-- ==== onReadEvent

/-- The header fields `onReadEvent` reads. -/
def readHeader (msg : List UInt8) : Option UTPHeaderProto :=
  if msg.length < UTP_HEADER_SIZE then none
  else
    some
      { scid := .ofNat (field msg 0 4)
        dcid := .ofNat (field msg 4 4)
        pn := .ofNat (field msg 8 8)
        payloadLength := .ofNat (field msg 16 2)
        types := .ofNat (field msg 18 1)
        reserve := .ofNat (field msg 19 1) }

/-- The connection of a peer: its address and its connection ID. -/
def ofPeer (s : IncomingContext) (peerAddress : PeerAddress) (peerCid : UInt32) :
    Option ContextConnection :=
  s.connections.find? fun c =>
    c.peerConnectionID = peerCid && c.connectInfo.peer = peerAddress.address

/-- A pending entry becomes a connection. The connection is then given the
packets that came before, and the one that confirmed the handshake. -/
def promote (s : IncomingContext) (env : IncomingEnv) (dcid : UInt32)
    (pending : PendingIncomingConnection) : IncomingContext :=
  let s := s.store dcid pending.movedFrom
  let (created, s) := s.createAndInsertPassiveConnection cfg pending.localCid
    pending.peerAddress pending.peerCid pending.encrypted pending.aesCtx env.onConnectError
  if !created then s
  else
    let s := env.onConnected.run cfg (s.removePendingIncoming dcid)
    s.connectionWork cfg pending.localCid env.work

variable (gcm : Gcm)

/-- A packet for a pending entry that has been answered. -/
def onPendingPacket (s : IncomingContext) (env : IncomingEnv) (dcid : UInt32)
    (pending : PendingIncomingConnection) (msg : List UInt8) : IncomingContext :=
  match decodeUdpPacketWithOptionalAead gcm pending.aesCtx msg (packetInAllocSize msg.length) with
  | none => s
  | some packet =>
    let (handshakeDone, pending) := pending.readFrames packet.frames
    if handshakeDone then s.promote cfg env dcid pending
    else s.store dcid (pending.buffer cfg msg)

variable (tokens : List UInt8 → Option TokenMeta)

/-- The encryption mode of a ticket. -/
def ticketEncryptionMode (token : FrameSessionToken) : Nat :=
  ((tokens token.token).bind fun m => decodeTokenEncryptionMode m.encryptionMode).getD 0

/-- A CONNECTION_CLOSE to a peer there is no entry for. -/
def refuse (s : IncomingContext) (env : IncomingEnv) (peerAddress : PeerAddress)
    (peerCid : UInt32) (errorCode : Nat) (reason : String) : IncomingContext :=
  let decision : PendingIncomingConnection := { localCid := 0, peerCid, peerAddress }
  s.note decision (decision.sendPendingConnectionClose env.close errorCode reason)

/-- A 0-RTT packet is let in: a connection is made, and answered with a
HANDSHAKE. -/
def admitZeroRtt (s : IncomingContext) (env : IncomingEnv) (peerAddress : PeerAddress)
    (scid : UInt32) (encrypted : Nat) : IncomingContext :=
  match s.allocLocalCid env.draws with
  | none => s
  | some localCid =>
    let (created, s) := s.createAndInsertPassiveConnection cfg localCid peerAddress scid
      encrypted none env.onConnectError
    if !created then s
    else
      let sendCtx : PendingIncomingConnection :=
        { localCid, peerCid := scid, peerAddress, initialReceivedUs := env.nowUs, encrypted }
      let s := s.note sendCtx (sendCtx.sendPendingHandshake cfg env.nowUs env.handshake)
      (env.onConnected.run cfg s).connectionWork cfg localCid env.work

/-- A 0-RTT packet for no connection that is there. -/
def onZeroRtt (s : IncomingContext) (env : IncomingEnv) (peerAddress : PeerAddress)
    (scid : UInt32) (msg : List UInt8) : IncomingContext :=
  match (ZeroRttDatagram.mk peerAddress msg).parse with
  | none => s
  | some (pn, token) =>
    let report (s : IncomingContext) := (env.onZeroRttDecision.headD .done).run cfg s
    match validateZeroRttTicket tokens cfg.zeroRtt env.keyKnown env.validateMs peerAddress
        token with
    | none => (report s).refuse env peerAddress scid UtpError.invalidParam.value "invalid_ticket"
    | some ticketCid =>
      let (new, zeroRttReplayCache) :=
        rememberZeroRttNonce cfg.zeroRtt s.zeroRttReplayCache ticketCid pn env.rememberMs
      let s := { s with zeroRttReplayCache }
      if !new then (report s).refuse env peerAddress scid UTP_ERR_CANCELLED "replay"
      else
        let s := env.onNewConnection.run cfg (report s)
        if !env.accepted then
          s.refuse env peerAddress scid UTP_ERR_CANCELLED "connection rejected"
        else s.admitZeroRtt cfg env peerAddress scid (ticketEncryptionMode tokens token)

/-- The CRYPTO frame of an INITIAL. -/
def onInitialCrypto (env : IncomingEnv) (pending : PendingIncomingConnection)
    (data : List UInt8) : PendingIncomingConnection :=
  match env.deriveContext data (pending.localCid ^^^ pending.peerCid) with
  | .ignored => pending
  | .failed _ =>
    { pending with
      encrypted := frameCryptoTypeToEncryptionMode (field data 1 1)
      x25519 := some (pending.x25519.getD env.publicKey) }
  | .derived ctx =>
    { pending with
      encrypted := frameCryptoTypeToEncryptionMode (field data 1 1)
      x25519 := some (pending.x25519.getD env.publicKey)
      aesCtx := some ctx }

/-- The SESSION_TOKEN frame of an INITIAL: what it does to the mode. -/
def onInitialToken (env : IncomingEnv) (pending : PendingIncomingConnection)
    (token : FrameSessionToken) : PendingIncomingConnection :=
  match validateZeroRttTicket tokens cfg.zeroRtt env.keyKnown env.validateMs pending.peerAddress
      token with
  | none => pending
  | some _ =>
    if pending.encrypted = 0 then
      { pending with encrypted := ticketEncryptionMode tokens token }
    else pending

/-- The token of a SESSION_TOKEN frame. -/
def sessionToken (frame : FrameType × List UInt8) : Option FrameSessionToken :=
  if frame.1 = .sessionToken then FrameSessionToken.decode frame.2 else none

/-- The frame loop over an INITIAL, with `decisions` for the callbacks of
its session tokens. -/
def readInitialFrames (env : IncomingEnv) :
    IncomingContext → PendingIncomingConnection → List Application →
      List (FrameType × List UInt8) → IncomingContext × PendingIncomingConnection
  | s, pending, _, [] => (s, pending)
  | s, pending, decisions, frame :: frames =>
    let pending := pending.parsePendingNegotiationFrame frame
    if frame.1 = .crypto ∧ pending.aesCtx.isNone then
      readInitialFrames env s (onInitialCrypto env pending frame.2) decisions frames
    else
      match sessionToken frame with
      | none => readInitialFrames env s pending decisions frames
      | some token =>
        readInitialFrames env ((decisions.headD .done).run cfg s)
          (onInitialToken cfg tokens env pending token) decisions.tail frames

/-- The three tables get a new entry. -/
def enqueue (s : IncomingContext) (pending : PendingIncomingConnection) : IncomingContext :=
  { s with
    pendingIncomingPeerIndex :=
      Function.update s.pendingIncomingPeerIndex pending.key (some pending.localCid)
    pendingIncoming := Function.update s.pendingIncoming pending.localCid (some pending)
    pendingIncomingQueue := s.pendingIncomingQueue ++ [pending.localCid] }

/-- After `m_onNewConnection`: a rejected entry goes, unless it has been
accepted in the callback. -/
def settle (s : IncomingContext) (env : IncomingEnv) (localCid : UInt32) : IncomingContext :=
  match s.pendingIncoming localCid with
  | none => s
  | some pending =>
    if env.accepted || pending.handshakeSent then s
    else
      let r := pending.sendPendingConnectionClose env.close UTP_ERR_CANCELLED
        "connection rejected"
      ((s.note pending r).store localCid r.pending).removePendingIncoming localCid

/-- The entry an INITIAL starts with. -/
def newPending (env : IncomingEnv) (peerAddress : PeerAddress) (peerCid localCid : UInt32)
    (packet : PacketIn) : PendingIncomingConnection :=
  { localCid, peerCid, peerAddress
    initialReceivedUs := env.nowUs
    encrypted :=
      if packet.frames.any fun frame => frame.1 = .crypto then kEncryptionAesGcm128 else 0 }

/-- The INITIAL handling of `onReadEvent`. -/
def onInitial (s : IncomingContext) (env : IncomingEnv) (peerAddress : PeerAddress)
    (scid : UInt32) (msg : List UInt8) : IncomingContext :=
  if (s.ofPeer peerAddress scid).isSome then s
  else if (s.pendingIncomingPeerIndex ⟨peerAddress, scid⟩).isSome then s
  else
    match PacketIn.decode msg with
    | none => s
    | some packet =>
      match s.allocLocalCid env.draws with
      | none => s
      | some localCid =>
        let (s, pending) := readInitialFrames cfg tokens env s
          (newPending env peerAddress scid localCid packet) env.onZeroRttDecision packet.frames
        (env.onNewConnection.run cfg (s.enqueue pending)).settle env localCid

/-- One datagram of `onReadEvent`. -/
def onDatagram (s : IncomingContext) (env : IncomingEnv) (peerAddress : PeerAddress)
    (msg : List UInt8) : IncomingContext :=
  match readHeader msg with
  | none => s
  | some header =>
    let zeroRtt : Bool := header.types = ConnectionImpl.UTP_TYPE_0RTT
    if (s.find header.dcid).isSome then s.connectionEvent cfg header.dcid env.event
    else
      match if zeroRtt then s.ofPeer peerAddress header.scid else none with
      | some conn => s.connectionEvent cfg conn.localConnectionID env.event
      | none =>
        match (s.pendingIncoming header.dcid).filter fun p => p.handshakeSent with
        | some pending => s.onPendingPacket cfg gcm env header.dcid pending msg
        | none =>
          if zeroRtt then s.onZeroRtt cfg tokens env peerAddress header.scid msg
          else if header.types = UTP_TYPE_INITIAL then
            s.onInitial cfg tokens env peerAddress header.scid msg
          else s

end IncomingContext

-- ==== the machine

/-- What happens to a context that is connected to. -/
inductive IncomingOp where
  | datagram (env : IncomingEnv) (peerAddress : PeerAddress) (msg : List UInt8)
  /-- `onPendingHandshakeTimeout`, or the start of `onReadEvent`. -/
  | timeouts (env : TimeoutEnv)
  /-- A timer or a write of a connection. -/
  | connection (cid : UInt32) (ev : ConnectionEvent)
  | application (calls : Application)

variable (cfg : IncomingConfig) (gcm : Gcm) (tokens : List UInt8 → Option TokenMeta)

def IncomingContext.step (s : IncomingContext) : IncomingOp → IncomingContext
  | .datagram env peerAddress msg => s.onDatagram cfg gcm tokens env peerAddress msg
  | .timeouts env => s.processPendingHandshakeTimeouts cfg env
  | .connection cid ev => s.connectionEvent cfg cid ev
  | .application calls => calls.run cfg s

end Eular.Utp
