/-
The queues of the send control (`context/send_ctl.{h,cpp}`) and the ways
a packet moves between them.

Each of `m_unackedPackets`, `m_scheduledPackets` and `m_lostPackets` is an
intrusive list, and a number of counters is kept beside them. Everything
the send control does comes down to a few moves of one packet; they are
the functions on `Queues` below, and `QueueMove` names them.

A packet is told apart from others by `ptr`, the address of the
`PacketOut`. The counters are numbers of 64 bits in the source, `m_nScheduled`
one of 32. They are taken not to wrap: fewer than 2^32 packets are scheduled at
a time, and the queues hold fewer than 2^48.
-/
import Eular.Lib.KeyedQueue
import Eular.Utp.Send.Retransmit

namespace Eular.Utp

open Lib

/-- `UTP_FRAME_RETX_MASK`: every type but ACK, PADDING and PING. -/
def UTP_FRAME_RETX_MASK : Nat :=
  [FrameType.stream, .connectionClose, .resetStream, .streamsBlocked, .maxStreams,
    .pathChallenge, .pathResponse, .crypto, .sessionToken, .ackFrequency, .version,
    .handshakeDone, .transportParams, .handshakeDelay, .maxData, .maxStreamData,
    .dataBlocked, .streamDataBlocked].foldl (fun mask t => mask ||| t.bit) 0

/-- A `PacketOut` in a queue, with the fields the send control alone
reads. -/
structure QueuedPacket where
  ptr : Nat
  packet : PacketOut
  streamId : Nat := 0
  streamOffset : Nat := 0
  sentTime : Nat := 0
  trackOnSend : Bool := false

namespace QueuedPacket

variable (q : QueuedPacket)

def packno : UInt64 := q.packet.packno

/-- `PacketSentSize`. -/
def sentSize : Nat :=
  if q.packet.poFlags.encrypted && 0 < q.packet.encryptDataSize then q.packet.encryptDataSize
  else q.packet.dataSize

/-- `frame_types & m_retxFrames`. -/
def retx : Bool := q.packet.frameTypes &&& UTP_FRAME_RETX_MASK ≠ 0

def isMtuProbe : Bool := q.packet.poFlags.mtuProbe

def isHandshakePacket : Bool := q.packet.poFlags.hello

def isMtuRelevantDataPacket : Bool :=
  !q.isMtuProbe && q.packet.frameTypes.testBit FrameType.stream.value

end QueuedPacket

/-- What the send control tells `MtuDiscovery` about the packet at `ptr`. -/
inductive MtuCall where
  | probeSent (ptr : Nat)
  | probeAck (ptr : Nat)
  | probeLost (ptr : Nat)
  | dataAck (ptr : Nat)
  | dataLoss (ptr : Nat)
deriving DecidableEq, Repr

/-- The queues, with the counters kept beside them. -/
structure Queues where
  unackedPackets : List QueuedPacket := []
  scheduledPackets : List QueuedPacket := []
  lostPackets : List QueuedPacket := []
  bytesUnackedAll : Nat := 0
  bytesUnackedRetrans : Nat := 0
  nInflightAll : Nat := 0
  nInflightRetrans : Nat := 0
  bytesScheduled : Nat := 0
  nScheduled : Nat := 0
  /-- `ConnectionImpl::m_streamUnackedDataBytes`, `m_packetNumber`. -/
  streamUnackedDataBytes : Nat := 0
  packetNumber : UInt64 := 1
  -- what follows is no field of the source: addresses handed out, the
  -- packets not returned to the pool, whether an assertion failed, and a
  -- record of numbers taken, of packets acknowledged and of calls made
  nextPtr : Nat := 0
  live : List Nat := []
  assertFailed : Bool := false
  numbersTaken : Nat := 0
  acked : List QueuedPacket := []
  mtuCalls : List MtuCall := []

namespace Queues

-- ==== operations

variable (s : Queues)

def appendUnacked (q : QueuedPacket) : Queues :=
  { s with
    unackedPackets := s.unackedPackets ++ [q]
    streamUnackedDataBytes := s.streamUnackedDataBytes + q.packet.streamDataSize
    bytesUnackedAll := s.bytesUnackedAll + q.sentSize
    nInflightAll := s.nInflightAll + 1
    bytesUnackedRetrans := s.bytesUnackedRetrans + (if q.retx then q.sentSize else 0)
    nInflightRetrans := s.nInflightRetrans + (if q.retx then 1 else 0) }

/-- `unackedRemove`, with its assertion. -/
def unackedRemove (q : QueuedPacket) : Queues :=
  { s with
    unackedPackets := removeKey QueuedPacket.ptr q.ptr s.unackedPackets
    streamUnackedDataBytes := s.streamUnackedDataBytes - q.packet.streamDataSize
    assertFailed := s.assertFailed || s.bytesUnackedAll < q.sentSize
    bytesUnackedAll := s.bytesUnackedAll - q.sentSize
    nInflightAll := s.nInflightAll - 1
    bytesUnackedRetrans := s.bytesUnackedRetrans - (if q.retx then q.sentSize else 0)
    nInflightRetrans := s.nInflightRetrans - (if q.retx then 1 else 0) }

/-- `destroyPacket`, `putPacketOut`: the packet goes back to the pool. -/
def destroyPacket (q : QueuedPacket) : Queues :=
  { s with live := s.live.erase q.ptr }

/-- `packetNumber()`. -/
def takeNumber : Queues :=
  { s with packetNumber := s.packetNumber + 1, numbersTaken := s.numbersTaken + 1 }

def create : Queues :=
  { s with nextPtr := s.nextPtr + 1, live := s.live ++ [s.nextPtr] }

/-- A packet that was sent is kept. -/
def keep (q : QueuedPacket) : Queues := s.create.appendUnacked q

def schedule (q : QueuedPacket) : Queues :=
  { s.create with
    scheduledPackets := s.scheduledPackets ++ [q]
    bytesScheduled := s.bytesScheduled + q.sentSize
    nScheduled := s.nScheduled + 1 }

/-- A packet leaves `m_scheduledPackets`. -/
def unschedule (q : QueuedPacket) : Queues :=
  { s with
    scheduledPackets := removeKey QueuedPacket.ptr q.ptr s.scheduledPackets
    bytesScheduled := s.bytesScheduled - q.sentSize
    nScheduled := s.nScheduled - 1 }

/-- A scheduled packet as it goes to `m_unackedPackets`: the sealed copy is
released. -/
def flushedPacket (nowUs : Nat) (q : QueuedPacket) : QueuedPacket :=
  let packet := { q.packet with poFlags := { q.packet.poFlags with sched := false } }
  let packet := if packet.poFlags.encrypted then releaseSealedCopy packet else packet
  { q with
    packet := { packet with poFlags := { packet.poFlags with unAcked := true } }
    sentTime := nowUs
    trackOnSend := false }

def note (call : MtuCall) : Queues := { s with mtuCalls := s.mtuCalls ++ [call] }

/-- What MTU discovery is told about a packet that is acknowledged. -/
def ackCalls (q : QueuedPacket) : List MtuCall :=
  if q.isMtuProbe then [.probeAck q.ptr]
  else if q.isMtuRelevantDataPacket then [.dataAck q.ptr]
  else []

def ack (q : QueuedPacket) : Queues :=
  let s := (s.unackedRemove q).destroyPacket q
  { s with acked := s.acked ++ [q], mtuCalls := s.mtuCalls ++ ackCalls q }

def loseProbe (q : QueuedPacket) : Queues :=
  ((s.note (.probeLost q.ptr)).unackedRemove q).destroyPacket q

/-- The packet as it goes to `m_lostPackets`. -/
def lostPacket (q : QueuedPacket) : QueuedPacket :=
  { q with packet := handleRegularLostPacket q.packet }

/-- A packet is given up, and will be sent again. -/
def lose (q : QueuedPacket) : Queues :=
  let s := s.unackedRemove q
  { s with lostPackets := s.lostPackets ++ [lostPacket q] }

/-- A lost packet is edited in its place. -/
def edit (q : QueuedPacket) (packet : PacketOut) : Queues :=
  { s with lostPackets := replaceKey QueuedPacket.ptr { q with packet } s.lostPackets }

/-- The packet as it goes back to `m_unackedPackets`. -/
def resentPacket (nowUs : Nat) (q : QueuedPacket) : QueuedPacket :=
  { q with packet := afterRetransmit q.packet, sentTime := nowUs }

/-- A lost packet was sent again. -/
def resend (nowUs : Nat) (q : QueuedPacket) : Queues :=
  { s with lostPackets := removeKey QueuedPacket.ptr q.ptr s.lostPackets }.appendUnacked
    (resentPacket nowUs q)

/-- The frames of a lost packet all went out in others. -/
def retire (q : QueuedPacket) : Queues :=
  { s with lostPackets := removeKey QueuedPacket.ptr q.ptr s.lostPackets }.destroyPacket q

end Queues

-- ==== moves

inductive QueueMove where
  | takeNumber
  | keep (q : QueuedPacket)
  | schedule (q : QueuedPacket)
  | flush (nowUs : Nat) (q : QueuedPacket)
  | drop (q : QueuedPacket)
  | note (call : MtuCall)
  | ack (q : QueuedPacket)
  | loseProbe (q : QueuedPacket)
  | lose (q : QueuedPacket)
  | edit (q : QueuedPacket) (packet : PacketOut)
  | resend (nowUs : Nat) (q : QueuedPacket)
  | retire (q : QueuedPacket)

namespace Queues

/-- What a move does. A packet that is kept has taken a number. -/
def move (s : Queues) : QueueMove → Queues
  | .takeNumber => s.takeNumber
  | .keep q => s.takeNumber.keep q
  | .schedule q => s.schedule q
  | .flush nowUs q => (s.unschedule q).appendUnacked (flushedPacket nowUs q)
  | .drop q => (s.unschedule q).destroyPacket q
  | .note call => s.note call
  | .ack q => s.ack q
  | .loseProbe q => s.loseProbe q
  | .lose q => s.lose q
  | .edit q packet => s.edit q packet
  | .resend nowUs q => s.resend nowUs q
  | .retire q => s.retire q

end Queues

end Eular.Utp
