/-
Sending what waits (`context/send_ctl.cpp`): `schedulePacket`,
`flushScheduledPackets`, `retransmitLostBatch`, `retransmitLostPacket`,
`retransmitSplitStreamPacket` and `onCanWrite`, which drives them; and
the events of a run.

# A batch

`retransmitLostBatch` first prepares packets from the front of
`m_lostPackets`: each is edited where it stands, takes a new number and
is sealed again. It stops at the first that cannot go. A packet the path
refuses is split on the spot, which sends other packets, and ends the
batch. Then the socket takes some of the prepared packets, from the
first on, and those move to the end of `m_unackedPackets`; the others
stay lost.

# Who schedules

`sendPacket` is the only caller of `schedulePacket`, and has put
`kPoSched` on the packet by then, so that it is always refused
(`Eular.Utp.Send.SendPacket`). Here `schedulePacket` is an event of its
own, with any packet.
-/
import Eular.Utp.Send.LossDetection

namespace Eular.Utp

open Lib

namespace SendControl

variable (gcm : Gcm) (env : SendCtlEnv)

-- ==== scheduled

variable (s : SendControl)

/-- `schedulePacket`. The caller destroys a packet that is refused. -/
def schedulePacket (packet : PacketOut) (trackOnSend : Bool) :
    Status × SendControl :=
  if !env.hasSocket then (.error .invalidParam "invalid param", s)
  else if packet.poFlags.sched then (.error .invalidState "packet already scheduled", s)
  else
    let q : QueuedPacket :=
      { ptr := s.nextPtr, trackOnSend,
        packet := { packet with poFlags := { packet.poFlags with sched := true } } }
    (.success, { s with toQueues := s.toQueues.schedule q }.scheduleWrite)

/-- What happens to one scheduled packet the socket took. -/
def flushPacket (nowUs : Nat) (s : SendControl) (q : QueuedPacket) : SendControl :=
  let s := { s with bytesOut := s.bytesOut + q.packet.dataSize }
  if q.trackOnSend then
    let s := { s with
      toQueues := (s.toQueues.unschedule q).appendUnacked (Queues.flushedPacket nowUs q) }
    if q.retx then s.retransAlarm nowUs else s
  else { s with toQueues := (s.toQueues.unschedule q).destroyPacket q }

/-- The scheduled packets the socket takes: the first of at most
`maxPackets`. -/
def flushable (maxPackets : Nat) : List QueuedPacket :=
  let packets := s.scheduledPackets.take (min maxPackets kSendBatchCap)
  packets.take (env.udpSendBatch (packets.map fun q => q.packet.wire))

/-- `flushScheduledPackets`; the flag is `sentAny`. -/
def flushScheduledPackets (nowUs maxPackets : Nat) : SendControl × Bool :=
  if !env.hasSocket then (s, false)
  else
    let sent := s.flushable env maxPackets
    (sent.foldl (flushPacket nowUs) s, !sent.isEmpty)

-- ==== split

def splitCalls : SplitCalls SendControl where
  sendStreamFrame := fun s frame => s.sendStreamFrame gcm env frame
  sendPacket := fun s req => s.sendPacket gcm env req 0 0

def splitEnv : SplitEnv where
  currentMaxPacketSize := s.mtu.currentMaxPacketSize
  encrypted := env.aesCtx.isSome

/-- `retransmitSplitStreamPacket`: a packet whose frames all went out in
others is done with. -/
def retransmitSplitStreamPacket (s : SendControl) (q : QueuedPacket) : Status × SendControl :=
  let r := Utp.retransmitSplitStreamPacket (splitCalls gcm env) (s.splitEnv env) q.packet s
  if r.1.ok then
    (r.1, { r.2 with toQueues := r.2.toQueues.retire q })
  else r

-- ==== batch

/-- What `retransmitLostBatch` reads of the connection. The split follows
where `splitOk` says that the path refuses the packet. -/
def retransmitEnv : RetransmitEnv where
  packetNumber := s.packetNumber
  canSendStreamUnackedBytes := s.canSendStreamUnackedBytes env
  canSendOnCurrentPath := s.canSendOnCurrentPath env
  splitOk := true
  udpSent := fun wire => (env.udpSend wire).isNone

/-- One packet made ready, with the number it takes. -/
def prepareLost (q : QueuedPacket) : SendControl × QueuedPacket × Attempt :=
  let p := prepareLostPacket gcm (s.retransmitEnv env) env.aesCtx q.packet
  ({ s with toQueues := s.toQueues.edit q p.packet }.takeNumber p.packetNumber,
    { q with packet := p.packet }, p.attempt)

/-- What the preparing loop leaves: the packets that are ready, with their
datagrams, and whether a split sent something. -/
structure Batch where
  state : SendControl
  ready : List (QueuedPacket × List UInt8) := []
  splitTried : Bool := false
  splitSent : Bool := false

/-- The preparing loop, `batchCap` packets at most. -/
def prepareBatch (s : SendControl) : Nat → List QueuedPacket → Batch
  | 0, _ => { state := s }
  | _ + 1, [] => { state := s }
  | batchCap + 1, q :: rest =>
    match s.prepareLost gcm env q with
    | (s, _, .blocked _) => { state := s }
    | (s, q, .split) =>
      let r := s.retransmitSplitStreamPacket gcm env q
      { state := r.2, splitTried := true, splitSent := r.1.ok }
    | (s, q, .ready wire) =>
      let b := s.prepareBatch batchCap rest
      { b with ready := (q, wire) :: b.ready }

/-- A lost packet the socket took waits for its acknowledgement again. -/
def resendPacket (nowUs : Nat) (s : SendControl) (q : QueuedPacket) : SendControl :=
  { s with
    bytesOut := s.bytesOut + q.packet.dataSize
    toQueues := s.toQueues.resend nowUs q }

/-- The prepared packets the socket takes. -/
def taken (ready : List (QueuedPacket × List UInt8)) : List QueuedPacket :=
  (ready.take (env.udpSendBatch (ready.map Prod.snd))).map Prod.fst

/-- The second half of `retransmitLostBatch`. -/
def sendBatch (nowUs : Nat) (b : Batch) : SendControl :=
  let sent := taken env b.ready
  if sent.isEmpty then b.state
  else (sent.foldl (resendPacket nowUs) b.state).retransAlarm nowUs

/-- What `retransmitLostBatch` returns: the packets sent, and `sentAny`. -/
structure BatchResult where
  state : SendControl
  sent : Nat
  sentAny : Bool

def retransmitLostBatch (nowUs maxPackets : Nat) : BatchResult :=
  if !env.hasSocket then { state := s, sent := 0, sentAny := false }
  else
    let b := s.prepareBatch gcm env (min maxPackets kSendBatchCap) s.lostPackets
    let sent := (taken env b.ready).length
    { state := sendBatch env nowUs b, sent, sentAny := b.splitSent || 0 < sent }

def retransmitLostPacket (q : QueuedPacket) (nowUs : Nat) :
    Status × SendControl :=
  if !env.hasSocket then (.error .invalidParam "invalid param", s)
  else
    match s.prepareLost gcm env q with
    | (s, _, .blocked st) => (st, s)
    | (s, q, .split) =>
      let r := s.retransmitSplitStreamPacket gcm env q
      if r.1.code = .wouldBlock then (.error .wouldBlock "path validation blocked", r.2) else r
    | (s, q, .ready wire) =>
      match env.udpSend wire with
      | some udpSt =>
        (if udpSt.ok then .error .socketWrite "UDP send failed" else udpSt, s)
      | none =>
        let s := s.resendPacket nowUs q
        (.success, if q.retx then s.retransAlarm nowUs else s)

-- ==== onCanWrite

/-- The loop of `onCanWrite` over the lost packets, from round `i` on: the
rounds stop when one sends nothing. `fuel` bounds them. -/
def resendLoop : Nat → Nat → BatchResult → Nat → BatchResult
  | 0, _, r, _ => r
  | fuel + 1, i, r, budget =>
    if !r.state.lostPackets.isEmpty && r.state.canSend env i && r.sent < budget then
      let b := r.state.retransmitLostBatch gcm env (env.nowUs i) (budget - r.sent)
      let next : BatchResult :=
        { state := b.state, sent := r.sent + b.sent, sentAny := r.sentAny || b.sentAny }
      if b.sent = 0 then next else resendLoop fuel (i + 1) next budget
    else r

/-- The payload of a probe: PING, and PADDING up to the packet's size. -/
def buildMtuProbePayload (packetSize : Nat) : List UInt8 :=
  [5, 3] ++ bigEndian 2 (packetSize - UTP_HEADER_SIZE - 1 - 3)
    ++ List.replicate (packetSize - UTP_HEADER_SIZE - 1 - 3) 0

/-- The probe request of `onCanWrite`. -/
def probeRequest (packetSize : Nat) : SendRequest :=
  { packetType := UTP_TYPE_CTRL
    segments := [buildMtuProbePayload packetSize]
    packetFlags := { mtuProbe := true } }

/-- The probe goes out, and MTU discovery is told its number. -/
def sendMtuProbe (nowMs : Nat) : SendControl :=
  let probeMtu := s.mtu.nextProbeMtu
  let packetSize := MtuDiscovery.packetSizeFromMtu probeMtu env.peerIpv6
  if packetSize < UTP_HEADER_SIZE + 1 + 3 then s
  else
    let r := s.sendPacket gcm env (probeRequest packetSize) 0 0
    if r.1.ok then
      r.2.mtuCall (.probeSent s.nextPtr) (r.2.mtu.onProbeSent s.packetNumber probeMtu nowMs)
    else r.2

/-- The end of `onCanWrite`: a probe, when one is due. -/
def maybeSendMtuProbe (nowUs i : Nat) : SendControl :=
  if !s.canSend env i || env.state ≠ .connected then s
  else
    let s := { s with mtu := s.mtu.onProbeTimeout (nowUs / 1000) }
    if s.mtu.shouldProbe (nowUs / 1000) then s.sendMtuProbe gcm env (nowUs / 1000) else s

def sentBudget : Nat := if 0 < s.nextLimit then s.nextLimit else 2 ^ 32 - 1

/-- The rounds of `onCanWrite`. -/
def resendRounds (sentAny : Bool) : BatchResult :=
  resendLoop gcm env (s.lostPackets.length + 1) 0 { state := s, sent := 0, sentAny } s.sentBudget

/-- The middle of `onCanWrite`: lost packets go out again, and a write is
asked for if none could. -/
def resendLost (sentAny : Bool) : SendControl :=
  let r := s.resendRounds gcm env sentAny
  let s := { r.state with nextLimit := r.state.nextLimit - r.sent }
  if !s.lostPackets.isEmpty && !r.sentAny then s.nextScheduleTime else s

def onCanWrite : SendControl :=
  if !env.hasSocket then s
  else
    let rounds := s.lostPackets.length + 1
    let r := s.flushScheduledPackets env (env.nowUs 0) kSendBatchCap
    (r.1.resendLost gcm env r.2).maybeSendMtuProbe gcm env (env.nowUs rounds) rounds

end SendControl

-- ==== events

/-- A call the connection makes to send something. -/
inductive SendCall where
  | packet (req : ControlRequest)
  | streamFrame (frame : FrameStream)

/-- What can happen to a send control. -/
inductive SendCtlOp where
  | send (call : SendCall)
  | schedulePacket (packet : PacketOut) (trackOnSend : Bool)
  | flushScheduledPackets (maxPackets : Nat)
  | ack (ackInfo : AckInfo)
  | detectLosses
  | expireUnacked (filter : ExpireFilter)
  | retransTimer
  | retransmitLostBatch (maxPackets : Nat)
  | retransmitLostPacket (ptr : Nat)
  | retransmitSplitStreamPacket (ptr : Nat)
  | canWrite

namespace SendControl

variable (gcm : Gcm)

def call (env : SendCtlEnv) (s : SendControl) : SendCall → SendControl
  | .packet req => (s.sendPacket gcm env req.toRequest 0 0).2
  | .streamFrame frame => (s.sendStreamFrame gcm env frame).2

/-- The lost packet at an address. -/
def lostAt (s : SendControl) (ptr : Nat) : Option QueuedPacket :=
  s.lostPackets.find? fun q => q.ptr = ptr

def step (s : SendControl) : SendCtlEnv × SendCtlOp → SendControl
  | (env, .send c) => s.call gcm env c
  | (env, .schedulePacket packet trackOnSend) => (s.schedulePacket env packet trackOnSend).2
  | (env, .flushScheduledPackets n) => (s.flushScheduledPackets env (env.nowUs 0) n).1
  | (env, .ack ackInfo) => (s.onAckReceived gcm env ackInfo).scheduleWrite
  | (env, .detectLosses) => (s.detectLosses env (env.nowUs 0)).1
  | (env, .expireUnacked filter) => (s.expireUnacked env filter).1
  | (env, .retransTimer) => s.onRetransTimer env
  | (env, .retransmitLostBatch n) => (s.retransmitLostBatch gcm env (env.nowUs 0) n).state
  | (env, .retransmitLostPacket ptr) =>
    match s.lostAt ptr with
    | some q => (s.retransmitLostPacket gcm env q (env.nowUs 0)).2
    | none => s
  | (env, .retransmitSplitStreamPacket ptr) =>
    match s.lostAt ptr with
    | some q => (s.retransmitSplitStreamPacket gcm env q).2
    | none => s
  | (env, .canWrite) => s.onCanWrite gcm env

end SendControl

end Eular.Utp
