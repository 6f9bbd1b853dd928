/-
`SendControl` (`context/send_ctl.{h,cpp}`): the queues of packets that
wait for something, and what moves a packet from one to another.

A packet the connection has sent and keeps waits in `m_unackedPackets`
for its acknowledgement. Loss detection and the retransmission timer
move it to `m_lostPackets`, from where `onCanWrite` sends it again
(`Eular.Utp.Send.CanWrite`). `m_scheduledPackets` holds packets that were
built and never handed to the socket.

# What is outside

Congestion control and the pacer are questions the environment answers
(`cwnd`, `canSchedule`), as are the clock, the round trip times, the
socket, and what the connection does around a send. `SendCtlEnv` is the
environment of one event.
-/
import Eular.Utp.Mtu
import Eular.Utp.Send.Queues
import Eular.Utp.Send.Split

namespace Eular.Utp

open Lib

/-- `kPathValidationSendCredit`, `kSendBatchCap`, `MAX_RESUBMITTED_ON_RTO`. -/
def kPathValidationSendCredit : Nat := 256
def kSendBatchCap : Nat := 32
def MAX_RESUBMITTED_ON_RTO : Nat := 2

/-- `AdaptiveReorderState`. -/
structure AdaptiveReorder where
  baseThresh : Nat := 3
  currentThresh : Nat := 3
  consecutiveLossEvents : Nat := 0
  ackedSinceLoss : Nat := 0
  lastExpandUs : Nat := 0
deriving DecidableEq, Repr

/-- `SendControl`, with the fields of the connection it works on. -/
structure SendControl extends Queues where
  largestAckedPackNo : UInt64 := 0
  largestAckedSentTime : Nat := 0
  lastRtoTime : Nat := 0
  lossTo : Nat := 0
  nConsecRtos : Nat := 0
  nTlp : Nat := 0
  nextLimit : Nat := 0
  reorderThresh : Nat := 3
  adaptiveReorder : AdaptiveReorder := {}
  /-- `m_retransTimer.isActive()`. -/
  retransTimer : Bool := false
  /-- `m_scheduleTimer` is running; the context wants to write. -/
  scheduleTimer : Bool := false
  wantWrite : Bool := false
  mtu : MtuDiscovery := {}
  /-- `ConnectionImpl::m_bytesOut`. -/
  bytesOut : Nat := 0

/-- A call of `sendPacket` with frames of the connection's own: one frame,
no frame table. -/
structure ControlRequest where
  packetType : UInt8
  payload : List UInt8
  hello : Bool := false
  noEncrypt : Bool := false
  sched : Bool := false
  frameTypeBitsOverride : Nat := 0

def ControlRequest.toRequest (req : ControlRequest) : SendRequest :=
  { packetType := req.packetType
    segments := [req.payload]
    packetFlags := { hello := req.hello, noEncrypt := req.noEncrypt, sched := req.sched }
    frameTypeBitsOverride := req.frameTypeBitsOverride }

abbrev Refusal := { st : Status // st.ok = false }

/-- What the connection does around one `sendStreamFrame`: the flow-control
frames it sends first, whether it refuses, the ACK frame that is owed
and the bytes of a HANDSHAKE_DONE that is due. -/
structure StreamAnswer where
  before : List ControlRequest := []
  refused : Option Refusal := none
  ackPayload : Option (List UInt8) := none
  handshakeTrailer : List UInt8 := []

/-- The environment of one event. What is asked more than once is answered
by packet, by datagram or by round. -/
structure SendCtlEnv where
  hasSocket : Bool := true
  addressValid : Bool := true
  /-- `m_peerAddress.family()`; the MTU search has a family of its own. -/
  peerIpv6 : Bool := false
  pathFailed : Bool := false
  state : ConnectionState := .connected
  aesCtx : Option AesGcmContext := none
  localConnectionID : UInt32 := 1
  peerConnectionID : UInt32 := 2
  /-- The SESSION_TOKEN frame, when early data is enabled. -/
  zeroRtt : Option (List UInt8) := none
  needPathValidation : Bool := false
  bytesIn : Nat := 0
  streamUnackedDataLimit : Nat := 0
  rawMemory : UInt64 → Nat → UInt8 := fun _ _ => 0
  udpSend : List UInt8 → Option Status := fun _ => none
  /-- How many of a batch of datagrams the socket takes. -/
  udpSendBatch : List (List UInt8) → Nat := List.length
  sentAt : UInt64 → Nat := fun _ => 0
  nowUs : Nat → Nat := fun _ => 0
  cwnd : Nat → Nat := fun _ => 1000000
  canSchedule : Nat → Bool := fun _ => true
  srtt : Nat := 0
  rttvar : Nat := 0
  streamAnswer : FrameStream → StreamAnswer := fun _ => {}
  /-- What the application sends when it is told a stream is writable. -/
  onWritable : QueuedPacket → List ControlRequest := fun _ => []

namespace SendControl

variable (s : SendControl)

/-- `ConnectionImpl::nextScheduleTime`, `scheduleWrite`. -/
def nextScheduleTime : SendControl := { s with scheduleTimer := true }
def scheduleWrite : SendControl := { s with wantWrite := true }

/-- A call of `MtuDiscovery`. -/
def mtuCall (call : MtuCall) (mtu : MtuDiscovery) : SendControl :=
  { s with mtu, toQueues := s.toQueues.note call }

def handleRegularLostPacket (q : QueuedPacket) : SendControl :=
  { s with toQueues := s.toQueues.lose q }

def handleLostMtuProbe (env : SendCtlEnv) (s : SendControl) (q : QueuedPacket) : SendControl :=
  { s with
    mtu := s.mtu.onProbeLost q.packno (env.nowUs 0 / 1000)
    toQueues := s.toQueues.loseProbe q }

-- ==== timers

def retransAlarm (now : Nat) : SendControl :=
  if s.unackedPackets.isEmpty then { s with retransTimer := false }
  else { s with retransTimer := true, lastRtoTime := now }

end SendControl

inductive RetransmissionMode where
  | handshake
  | loss
  | tlp
  | rto
deriving DecidableEq, Repr

inductive ExpireFilter where
  | all
  | handshakeOnly
  | lastOnly
deriving DecidableEq, Repr

namespace SendControl

def haveUnackedHandshakePackets (env : SendCtlEnv) (s : SendControl) : Bool :=
  env.state ≠ .connected && s.unackedPackets.any QueuedPacket.isHandshakePacket

def getRetransmissionMode (env : SendCtlEnv) (s : SendControl) : RetransmissionMode :=
  if s.haveUnackedHandshakePackets env then .handshake
  else if s.lossTo ≠ 0 then .loss
  else if s.nTlp < 2 then .tlp
  else .rto

def calculatePacketRto (env : SendCtlEnv) (s : SendControl) : Nat :=
  (if env.srtt = 0 then 500000 else max (env.srtt + 4 * env.rttvar) 200000)
    * 2 ^ min s.nConsecRtos 10

/-- `canSend`, asked for the `i`-th time. The tick that would be scheduled
needs the flag `SchedTick`, which nothing sets. -/
def canSend (env : SendCtlEnv) (s : SendControl) (i : Nat) : Bool :=
  s.bytesScheduled + s.bytesUnackedAll < env.cwnd i && env.canSchedule i

def canSendStreamUnackedBytes (env : SendCtlEnv) (s : SendControl) (streamBytes : Nat) : Bool :=
  streamBytes = 0 || env.streamUnackedDataLimit = 0
    || s.streamUnackedDataBytes + streamBytes ≤ env.streamUnackedDataLimit

def canSendOnCurrentPath (env : SendCtlEnv) (s : SendControl) (packetLen : Nat)
    (frameType : FrameType) : Bool :=
  !env.needPathValidation
    || [FrameType.pathChallenge, .pathResponse, .ping, .ack, .handshakeDone,
        .connectionClose].contains frameType
    || s.bytesOut + packetLen ≤ env.bytesIn * 3 + kPathValidationSendCredit

-- ==== sends

/-- `m_packetNumber` moves on. -/
def takeNumber (s : SendControl) (packetNumber : UInt64) : SendControl :=
  if packetNumber = s.packetNumber then s else { s with toQueues := s.toQueues.takeNumber }

def packetSent (s : SendControl) (q : QueuedPacket) : SendControl :=
  let s := { s with toQueues := s.toQueues.keep q }
  if q.retx then s.retransAlarm q.sentTime else s

/-- What `sendPacket` reads. -/
def sendEnv (env : SendCtlEnv) (s : SendControl) : SendEnv where
  hasSocket := env.hasSocket
  hasSendCtl := true
  addressValid := env.addressValid
  state := env.state
  pathFailed := env.pathFailed
  aesCtx := env.aesCtx
  localConnectionID := env.localConnectionID
  peerConnectionID := env.peerConnectionID
  packetNumber := s.packetNumber
  currentMaxPacketSize := s.mtu.currentMaxPacketSize
  absoluteMaxPacketSize := s.mtu.absoluteMaxPacketSize
  canSendOnCurrentPath := s.canSendOnCurrentPath env
  canSendStreamUnackedBytes := s.canSendStreamUnackedBytes env
  rawMemory := env.rawMemory s.packetNumber
  udpSend := env.udpSend

/-- A packet that left, as it is kept. -/
def queuedPacket (env : SendCtlEnv) (ptr : Nat) (packet : PacketOut)
    (streamId streamOffset : Nat) : QueuedPacket where
  ptr := ptr
  packet := { packet with poFlags := { packet.poFlags with unAcked := true } }
  streamId := streamId
  streamOffset := streamOffset
  sentTime := env.sentAt packet.packno

variable (gcm : Gcm)

def sendPacket (env : SendCtlEnv) (s : SendControl) (req : SendRequest)
    (streamId streamOffset : Nat) : Status × SendControl :=
  let taken := s.takeNumber (numberAfterSend (s.sendEnv env) req)
  match Utp.sendPacket gcm (s.sendEnv env) req with
  | .error st => (st, taken)
  | .ok sent =>
    let out := { taken with bytesOut := taken.bytesOut + sent.wire.length }
    match sent.kept with
    | none => (.success, out)
    | some packet =>
      (.success, out.packetSent (queuedPacket env s.nextPtr packet streamId streamOffset))

/-- Control frames, one after another, whatever becomes of each. -/
def sendControls (env : SendCtlEnv) (s : SendControl) (reqs : List ControlRequest) : SendControl :=
  reqs.foldl (fun s req => (s.sendPacket gcm env req.toRequest 0 0).2) s

end SendControl

-- ==== stream frames

variable (frame : FrameStream)

/-- The head of a STREAM frame, as `sendStreamFrame` lays it out. -/
def FrameStream.head : List UInt8 :=
  [1, if frame.isFin then 1 else 0] ++ bigEndian 2 frame.streamData.length
    ++ bigEndian 4 frame.streamId ++ bigEndian 8 frame.streamOffset

/-- The frame without a companion, or with a HANDSHAKE_DONE behind it. -/
def streamFrameRequest (trailer : List UInt8) : SendRequest :=
  { packetType := UTP_TYPE_CTRL
    segments := [frame.head, frame.streamData, trailer]
    frameTypeBitsOverride :=
      if trailer.isEmpty then 0
      else FrameType.stream.bit ||| FrameType.handshakeDone.bit ||| FrameType.handshakeDelay.bit
    streamDataBytes := frame.streamData.length
    frameMetas :=
      (FrameType.stream, FRAME_STREAM_HDR_SIZE + frame.streamData.length)
        :: (if trailer.isEmpty then [] else [(FrameType.handshakeDone, trailer.length)]) }

/-- The frame behind the ACK frame that is owed. -/
def ackStreamFrameRequest (ack trailer : List UInt8) : SendRequest :=
  { packetType := UTP_TYPE_CTRL
    segments := [ack, frame.head, frame.streamData, trailer]
    frameTypeBitsOverride :=
      FrameType.ack.bit ||| FrameType.stream.bit
        ||| (if trailer.isEmpty then 0
             else FrameType.handshakeDone.bit ||| FrameType.handshakeDelay.bit)
    streamDataBytes := frame.streamData.length
    transientAckBytes := min ack.length 65535
    frameMetas :=
      [(FrameType.ack, min ack.length 65535),
        (FrameType.stream, FRAME_STREAM_HDR_SIZE + frame.streamData.length)]
        ++ (if trailer.isEmpty then [] else [(FrameType.handshakeDone, trailer.length)]) }

/-- The frame as early data, behind the session ticket. -/
def earlyRequest (token : List UInt8) : SendRequest :=
  { packetType := ConnectionImpl.UTP_TYPE_0RTT
    segments := [token ++ frame.head ++ frame.streamData]
    frameTypeBitsOverride := FrameType.sessionToken.bit ||| FrameType.stream.bit
    streamDataBytes := frame.streamData.length
    frameMetas :=
      [(FrameType.sessionToken, token.length),
        (FrameType.stream, FRAME_STREAM_HDR_SIZE + frame.streamData.length)] }

/-- The request of `sendAckPacket`. -/
def ackPacketRequest (ack : List UInt8) : SendRequest :=
  { packetType := UTP_TYPE_CTRL, segments := [ack], frameTypeBitsOverride := FrameType.ack.bit }

namespace SendControl

variable (gcm : Gcm) (env : SendCtlEnv)

def packetPayloadBudget (s : SendControl) : Nat :=
  let budget := s.mtu.currentMaxPacketSize - UTP_HEADER_SIZE
  if env.aesCtx.isSome && GCM_TAG_SIZE < budget then budget - GCM_TAG_SIZE else budget

/-- The packet of a STREAM frame, once nothing stands against it. -/
def sendStreamPacket (s : SendControl) (frame : FrameStream) : Status × SendControl :=
  let answer := env.streamAnswer frame
  let trailer := answer.handshakeTrailer
  match answer.ackPayload with
  | none =>
    s.sendPacket gcm env (streamFrameRequest frame trailer) frame.streamId frame.streamOffset
  | some ack =>
    let combinedSize :=
      ack.length + FRAME_STREAM_HDR_SIZE + frame.streamData.length + trailer.length
    if combinedSize ≤ 65535 && combinedSize ≤ s.packetPayloadBudget env then
      s.sendPacket gcm env (ackStreamFrameRequest frame ack trailer) frame.streamId
        frame.streamOffset
    else
      -- the two do not fit in one packet: the ACK frame goes first
      let r := s.sendPacket gcm env (ackPacketRequest ack) 0 0
      if !r.1.ok && r.1.code ≠ .invalidState then r
      else
        r.2.sendPacket gcm env (streamFrameRequest frame trailer) frame.streamId frame.streamOffset

def sendStreamFrame (s : SendControl) (frame : FrameStream) : Status × SendControl :=
  if env.state = .closeSent || env.state = .closeReceived || env.state = .ptoTimedWait then
    (.error .connectionClosing "connection is closing", s)
  else if env.state ≠ .connected && !(env.state = .initialSent && env.zeroRtt.isSome) then
    (.error .wouldBlock "not connected", s)
  else if 65535 < frame.streamData.length then
    (.error .overflow "stream data exceeds UINT16_MAX", s)
  else
    let s := s.sendControls gcm env (env.streamAnswer frame).before
    match (env.streamAnswer frame).refused with
    | some st => (st.val, s)
    | none =>
      match env.state, env.zeroRtt with
      | .initialSent, some token =>
        s.sendPacket gcm env (earlyRequest frame token) frame.streamId frame.streamOffset
      | _, _ => s.sendStreamPacket gcm env frame

end SendControl

end Eular.Utp
