/-
Flow control (`context/connection_impl.cpp`, `context/context_impl.cpp`).

A side may send on a stream up to a limit of the stream and a limit of
the connection. Both come from the transport parameters of the handshake
and are raised by MAX_STREAM_DATA and MAX_DATA frames, which the other
side sends as its application reads.

`FlowConn` is the part of an established `ConnectionImpl` this concerns.
A call takes the clock and what `sendPacket` answers for each frame it
sends (`FlowEnv`) and returns the frames that went out.

# Two sets of parameters

A client advertises the parameters it set up from its `Config`. A server
answers before it has a connection (`sendPendingHandshake`), and takes
only the numbers of streams from its `Config`; its windows are the
defaults of `TransportParams`.
-/
import Eular.Utp.Connection.Connection

namespace Eular.Utp

open Lib

/-- The part of `Config` that flow control uses. -/
structure Config where
  initMaxStreamsBidi : Nat := 32
  initMaxStreamsUni : Nat := 16
  initialMaxData : Nat := 8 * 1024 * 1024
  initialMaxStreamDataBidiLocal : Nat := 256 * 1024
  initialMaxStreamDataBidiRemote : Nat := 256 * 1024
deriving DecidableEq, Repr

def kDefaultInitialMaxStreamData : Nat := StreamImpl.kMaxRecvFragmentBytes
def kDefaultInitialMaxData : Nat := kDefaultInitialMaxStreamData * 4
def kFlowControlUpdateMinIntervalUs : Nat := 20000
def kFlowControlBlockedMinIntervalUs : Nat := 50000

/-- `value > 0 ? value : fallback`. -/
def positiveOr (value fallback : Nat) : Nat := if 0 < value then value else fallback

/-- The frames of flow control, and STREAM frames. -/
inductive FlowFrame where
  | stream (frame : FrameStream)
  | maxData (maximumData : Nat)
  | maxStreamData (streamId maximumStreamData : Nat)
  | dataBlocked (dataLimit : Nat)
  | streamDataBlocked (streamId streamDataLimit : Nat)
deriving DecidableEq, Repr

/-- The clock, and what `sendPacket` answers. -/
structure FlowEnv where
  nowUs : Nat
  sendPacket : FlowFrame → Status

/-- An established connection, as flow control sees it. The transport
parameters of both sides are in `table`. -/
structure FlowConn where
  /-- `m_state == kStateConnected`. -/
  connected : Bool := true
  table : Streams
  /-- `m_nextSendOffset` of the stream. -/
  nextSendOffset : Nat → Nat := fun _ => 0
  peerMaxData : Nat := 0
  peerMaxStreamData : Nat → Option Nat := fun _ => none
  localMaxDataAdvertised : Nat
  localMaxStreamDataAdvertised : Nat → Option Nat := fun _ => none
  localBytesConsumedTotal : Nat := 0
  localStreamBytesConsumed : Nat → Nat := fun _ => 0
  streamDataSentTotal : Nat := 0
  streamMaxSentOffset : Nat → Nat := fun _ => 0
  lastMaxDataSentUs : Nat := 0
  lastMaxStreamDataSentUs : Nat → Nat := fun _ => 0
  lastDataBlockedSentUs : Nat := 0
  lastStreamDataBlockedSentUs : Nat → Nat := fun _ => 0

-- ==== handshake

/-- `ConnectionImpl::bootstrapLocalTransportParams`: the parameters. -/
def localTransportParams (cfg : Config) : TransportParams where
  initMaxStreamsBidi := cfg.initMaxStreamsBidi
  initMaxStreamsUni := cfg.initMaxStreamsUni
  initialMaxData := cfg.initialMaxData
  initialMaxStreamDataBidiLocal := cfg.initialMaxStreamDataBidiLocal
  initialMaxStreamDataBidiRemote := cfg.initialMaxStreamDataBidiRemote

/-- `ContextImpl::sendPendingHandshake`: the parameters a server sends. -/
def pendingTransportParams (cfg : Config) : TransportParams where
  initMaxStreamsBidi := cfg.initMaxStreamsBidi
  initMaxStreamsUni := cfg.initMaxStreamsUni

namespace FlowConn

/-- `ConnectionImpl::bootstrapLocalTransportParams`: a new connection. -/
def bootstrap (cfg : Config) (isClientInitiator : Bool) : FlowConn where
  table := { isClientInitiator, localTP := localTransportParams cfg, peerTP := {} }
  localMaxDataAdvertised := cfg.initialMaxData

variable (c : FlowConn)

def handleMaxDataFrame (maximumData : Nat) : FlowConn :=
  if c.peerMaxData < maximumData then { c with peerMaxData := maximumData } else c

/-- The TRANSPORT_PARAMS case of `onUdpPacket`, on a client. -/
def onTransportParams (peerTP : TransportParams) : FlowConn :=
  { c with table := { c.table with peerTP } }.handleMaxDataFrame
    (positiveOr peerTP.initialMaxData kDefaultInitialMaxData)

/-- `ConnectionImpl::initPassive`, on a server. -/
def initPassive (peerTP : TransportParams) : FlowConn :=
  { c with table := { c.table with peerTP } }

-- ==== sending

def peerStreamDataLimit (id : Nat) : Nat :=
  match c.peerMaxStreamData id with
  | none =>
    positiveOr c.table.peerTP.initialMaxStreamDataBidiLocal kDefaultInitialMaxStreamData
  | some limit => limit

def handleMaxStreamDataFrame (id maximumStreamData : Nat) : FlowConn :=
  let set : FlowConn :=
    { c with
      peerMaxStreamData := Function.update c.peerMaxStreamData id (some maximumStreamData) }
  match c.peerMaxStreamData id with
  | none => set
  | some old => if old < maximumStreamData then set else c

def ensureFlowControlAdvertised (id : Nat) : FlowConn :=
  if !c.connected || id = 2 ^ 32 - 1 then c
  else
    match c.localMaxStreamDataAdvertised id with
    | some _ => c
    | none =>
      let initialStreamWindow :=
        positiveOr c.table.localTP.initialMaxStreamDataBidiRemote kDefaultInitialMaxStreamData
      { c with
        localMaxStreamDataAdvertised :=
          Function.update c.localMaxStreamDataAdvertised id (some initialStreamWindow) }

/-- It is time for another frame of the kind sent at `last`. -/
def dueByTime (last nowUs interval : Nat) : Bool :=
  last = 0 || (last < nowUs && interval ≤ nowUs - last)

def onStreamDataSent (id streamOffset len : Nat) : FlowConn :=
  let newEndOffset := add64 streamOffset len
  if c.streamMaxSentOffset id < newEndOffset then
    { c with
      streamDataSentTotal :=
        add64 c.streamDataSentTotal (newEndOffset - c.streamMaxSentOffset id)
      streamMaxSentOffset := Function.update c.streamMaxSentOffset id newEndOffset }
  else c

/-- `sendStreamFrame` finds the connection limit reached. -/
def dataBlocked (c : FlowConn) (env : FlowEnv) : FlowConn × List FlowFrame :=
  let frame := .dataBlocked c.peerMaxData
  if dueByTime c.lastDataBlockedSentUs env.nowUs kFlowControlBlockedMinIntervalUs
      && (env.sendPacket frame).ok then
    ({ c with lastDataBlockedSentUs := env.nowUs }, [frame])
  else (c, [])

/-- `sendStreamFrame` finds the limit of the stream reached. -/
def streamDataBlocked (c : FlowConn) (env : FlowEnv) (id : Nat) : FlowConn × List FlowFrame :=
  let frame := .streamDataBlocked id (c.peerStreamDataLimit id)
  if dueByTime (c.lastStreamDataBlockedSentUs id) env.nowUs kFlowControlBlockedMinIntervalUs
      && (env.sendPacket frame).ok then
    ({ c with
        lastStreamDataBlockedSentUs :=
          Function.update c.lastStreamDataBlockedSentUs id env.nowUs }, [frame])
  else (c, [])

variable (env : FlowEnv)

def sendStreamFrame (frame : FrameStream) :
    Status × FlowConn × List FlowFrame :=
  let len := frame.streamData.length
  let id := frame.streamId
  if !c.connected then (.error .connectionClosing "connection is closing", c, [])
  else if 65535 < len then (.error .overflow "stream data exceeds UINT16_MAX", c, [])
  else
    let c := if 0 < len then c.ensureFlowControlAdvertised id else c
    if 0 < len ∧ 2 ^ 64 ≤ c.streamDataSentTotal + len then
      (.error .overflow "total stream data sent overflow", c, [])
    else if 0 < len ∧ 0 < c.peerMaxData ∧ c.peerMaxData < c.streamDataSentTotal + len then
      (.error .wouldBlock "connection flow control blocked", c.dataBlocked env)
    else if 0 < len ∧ (c.peerStreamDataLimit id < frame.streamOffset
        ∨ c.peerStreamDataLimit id - frame.streamOffset < len) then
      (.error .wouldBlock "stream flow control blocked", c.streamDataBlocked env id)
    else
      let st := env.sendPacket (.stream frame)
      if st.ok then (st, c.onStreamDataSent id frame.streamOffset len, [.stream frame])
      else (st, c, [])

/-- `flushPendingSends`: the next bytes of a stream, or its FIN. -/
def flush (id : Nat) (data : List UInt8) (fin : Bool) :
    FlowConn × List FlowFrame :=
  match c.table.find id with
  | none => (c, [])
  | some s =>
    let frameFin := fin && s.localFinQueued && !s.localFinSent
    if data.isEmpty && !frameFin then (c, [])
    else
      let frame : FrameStream :=
        { streamFlag := if frameFin then 1 else 0
          streamId := id
          streamOffset := c.nextSendOffset id
          streamData := data }
      let (st, c, frames) := c.sendStreamFrame env frame
      if st.ok then
        ({ c with
            nextSendOffset := Function.update c.nextSendOffset id
              (add64 (c.nextSendOffset id) data.length)
            table := if frameFin then c.table.store s.flushFin else c.table }, frames)
      else (c, frames)

-- ==== receiving

def sendMaxDataFrame (maximumData : Nat) :
    Status × FlowConn × List FlowFrame :=
  let st := env.sendPacket (.maxData maximumData)
  if st.ok then (st, { c with lastMaxDataSentUs := env.nowUs }, [.maxData maximumData])
  else (st, c, [])

def sendMaxStreamDataFrame (id maximumStreamData : Nat) :
    Status × FlowConn × List FlowFrame :=
  let st := env.sendPacket (.maxStreamData id maximumStreamData)
  if st.ok then
    (st,
      { c with
        lastMaxStreamDataSentUs := Function.update c.lastMaxStreamDataSentUs id env.nowUs },
      [.maxStreamData id maximumStreamData])
  else (st, c, [])

/-- The connection level of `onStreamBytesConsumed`. -/
def raiseMaxData : FlowConn × List FlowFrame :=
  let initialDataWindow := positiveOr c.table.localTP.initialMaxData kDefaultInitialMaxData
  let targetMaxData := add64 initialDataWindow c.localBytesConsumedTotal
  let delta := sub64 targetMaxData c.localMaxDataAdvertised
  if initialDataWindow / 10 ≤ delta
      || dueByTime c.lastMaxDataSentUs env.nowUs kFlowControlUpdateMinIntervalUs then
    let (st, c, frames) := c.sendMaxDataFrame env targetMaxData
    if st.ok then ({ c with localMaxDataAdvertised := targetMaxData }, frames) else (c, frames)
  else (c, [])

/-- The stream level of `onStreamBytesConsumed`. -/
def raiseMaxStreamData (id : Nat) : FlowConn × List FlowFrame :=
  let baseMaxStreamData :=
    positiveOr c.table.localTP.initialMaxStreamDataBidiRemote kDefaultInitialMaxStreamData
  let targetMaxStreamData := add64 baseMaxStreamData (c.localStreamBytesConsumed id)
  let advertised := positiveOr ((c.localMaxStreamDataAdvertised id).getD 0) baseMaxStreamData
  let c := { c with
    localMaxStreamDataAdvertised :=
      Function.update c.localMaxStreamDataAdvertised id (some advertised) }
  if advertised < targetMaxStreamData
      && (baseMaxStreamData / 10 ≤ targetMaxStreamData - advertised
        || dueByTime (c.lastMaxStreamDataSentUs id) env.nowUs
          kFlowControlUpdateMinIntervalUs) then
    let (st, c, frames) := c.sendMaxStreamDataFrame env id targetMaxStreamData
    if st.ok then
      ({ c with
          localMaxStreamDataAdvertised :=
            Function.update c.localMaxStreamDataAdvertised id (some targetMaxStreamData) },
        frames)
    else (c, frames)
  else (c, [])

def onStreamBytesConsumed (id bytes : Nat) :
    FlowConn × List FlowFrame :=
  if bytes = 0 then (c, [])
  else
    let consumed := add64 (c.localStreamBytesConsumed id) bytes
    let c := { c with
      localBytesConsumedTotal := add64 c.localBytesConsumedTotal bytes
      localStreamBytesConsumed := Function.update c.localStreamBytesConsumed id consumed }
    if !c.connected then (c, [])
    else
      let (c, frames) := (c.ensureFlowControlAdvertised id).raiseMaxData env
      let (c, frames') := c.raiseMaxStreamData env id
      (c, frames ++ frames')

/-- The bytes a call of the application consumes. -/
def consumedBy (s : StreamImpl) : AppOp → Nat
  | .read capacity =>
    match (s.read capacity).1 with
    | .ok bytes => bytes.length
    | .error _ => 0
  | .commitReadViews bytes =>
    match (s.commitReadViews bytes).1 with
    | .ok n => n
    | .error _ => 0
  | _ => 0

/-- A call of the application on a stream. -/
def onApp (id : Nat) (op : AppOp) : FlowConn × List FlowFrame :=
  match c.table.find id with
  | none => (c, [])
  | some s =>
    { c with table := c.table.store (s.step op.toOp) }.onStreamBytesConsumed env id
      (consumedBy s op)

/-- A STREAM frame arrives: what `ingestStreamFrame` answers, and the
connection, aborted unless the answer is success or WOULD_BLOCK. -/
def onStreamFrame (frame : FrameStream) : Status × FlowConn :=
  let r := c.table.ingestStreamFrame frame
  let c := match c.table.findOrOpen frame.streamId with
    | .error _ => c
    | .ok _ => c.ensureFlowControlAdvertised frame.streamId
  (r.1, { c with table := r.2, connected := r.1.ok || r.1.code = .wouldBlock })

/-- A frame arrives: the frame loop of `onUdpPacket`. -/
def onFrame : FlowFrame → FlowConn × List FlowFrame
  | .stream frame => ((c.onStreamFrame frame).2, [])
  | .maxData maximumData => (c.handleMaxDataFrame maximumData, [])
  | .maxStreamData id maximumStreamData => (c.handleMaxStreamDataFrame id maximumStreamData, [])
  | .dataBlocked _ => (c.sendMaxDataFrame env c.localMaxDataAdvertised).2
  | .streamDataBlocked id _ =>
    let c := c.ensureFlowControlAdvertised id
    let advertised := (c.localMaxStreamDataAdvertised id).getD
      (positiveOr c.table.localTP.initialMaxStreamDataBidiRemote kDefaultInitialMaxStreamData)
    (c.sendMaxStreamDataFrame env id advertised).2

end FlowConn

end Eular.Utp
