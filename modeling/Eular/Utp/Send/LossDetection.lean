/-
Acknowledgements and losses (`context/send_ctl.cpp`): `onAckReceived`,
`detectLosses`, `expireUnacked`, `onRetransTimer`.

Each walks `m_unackedPackets` from the front and takes out some of the
packets it meets; a packet is looked at once, so a walk is a fold over
the queue as it was when the walk began. What the application sends from a
callback in the middle of a walk goes to the end of the queue. The walk may
come to it, but its number is new, and an ACK frame under way names none that
is: it is passed over.
-/
import Eular.Utp.Send.SendControl

namespace Eular.Utp

open Lib

/-- `AckInfo`: the ranges are low and high ends. -/
structure AckInfo where
  largestAckPackno : UInt64
  ackRanges : List (UInt64 × UInt64)
deriving DecidableEq, Repr

def isPackNoAcked (ackInfo : AckInfo) (packno : UInt64) : Bool :=
  ackInfo.ackRanges.length ≤ 256
    && ackInfo.ackRanges.any fun range => range.1 ≤ packno && packno ≤ range.2

/-- Why `detectLosses` gives a packet up. -/
inductive LossVerdict where
  | kept
  | fack
  | earlyRetransmit
  | sentTime
deriving DecidableEq, Repr

namespace SendControl

variable (gcm : Gcm) (env : SendCtlEnv)

-- ==== reorder threshold

variable (s : SendControl)

def dynamicReorderThresholdCap : Nat :=
  let base := max 1 s.adaptiveReorder.baseThresh
  if env.srtt = 0 then base + 4
  else base + min 12 (2 + min 400 (env.rttvar * 100 / env.srtt) / 50)

variable (now : Nat)

def updateReorderThresholdOnLoss : SendControl :=
  let a := s.adaptiveReorder
  let lossEvents := min (a.consecutiveLossEvents + 1) (2 ^ 32 - 1)
  let counted := { a with ackedSinceLoss := 0, consecutiveLossEvents := lossEvents }
  if lossEvents < 2
      || (a.lastExpandUs ≠ 0 && a.lastExpandUs < now
        && now - a.lastExpandUs < max 1000 (env.srtt / 4)) then
    { s with adaptiveReorder := counted }
  else if a.currentThresh < s.dynamicReorderThresholdCap env then
    { s with
      reorderThresh := a.currentThresh + 1
      adaptiveReorder := { counted with
        currentThresh := a.currentThresh + 1, lastExpandUs := now,
        consecutiveLossEvents := 0 } }
  else { s with adaptiveReorder := counted }

def updateReorderThresholdOnAck (ackedPackets : Nat) : SendControl :=
  if ackedPackets = 0 then s
  else
    let a := s.adaptiveReorder
    let ackedSinceLoss := min (a.ackedSinceLoss + ackedPackets) (2 ^ 32 - 1)
    let base := max 1 a.baseThresh
    let thresh := min a.currentThresh (s.dynamicReorderThresholdCap env)
    let settle (thresh ackedSinceLoss : Nat) : SendControl :=
      { s with
        reorderThresh := thresh
        adaptiveReorder := { a with
          consecutiveLossEvents := 0, ackedSinceLoss, currentThresh := thresh } }
    if thresh ≤ base then settle base ackedSinceLoss
    else if ackedSinceLoss < max 8 (thresh * 2) then settle thresh ackedSinceLoss
    else settle (max (thresh - 1) base) 0

-- ==== losses

/-- `largestRetxPacketNo`: the last packet of the queue that is not given up
and is worth sending again. -/
def largestRetxPacketNo : UInt64 :=
  match s.unackedPackets.reverse.find? fun q => !q.packet.poFlags.lossRecorded && q.retx with
  | some q => q.packno
  | none => 0

/-- The tests of `detectLosses`, in their order. -/
def lossVerdict (largestRetxPackNo : UInt64) (q : QueuedPacket) :
    LossVerdict :=
  if q.packet.poFlags.lossRecorded then .kept
  else if q.packno + .ofNat s.reorderThresh < s.largestAckedPackNo then .fack
  else if largestRetxPackNo ≠ 0 && q.retx && !q.isMtuProbe
      && largestRetxPackNo ≤ s.largestAckedPackNo then .earlyRetransmit
  else if 0 < env.srtt && q.sentTime + env.srtt < s.largestAckedSentTime then .sentTime
  else .kept

/-- The loss of a data packet, as MTU discovery sees it. -/
def onDataPacketLoss (s : SendControl) (now : Nat) (q : QueuedPacket) : SendControl :=
  if q.isMtuRelevantDataPacket then
    s.mtuCall (.dataLoss q.ptr) (s.mtu.onDataPacketLoss q.sentSize (now / 1000))
  else s

/-- What `detectLosses` does about one packet. -/
def onVerdict (q : QueuedPacket) : LossVerdict → SendControl
  | .kept => s
  | .fack =>
    if q.isMtuProbe then s.handleLostMtuProbe env q
    else (s.onDataPacketLoss now q).handleRegularLostPacket q
  | .earlyRetransmit =>
    let s := s.onDataPacketLoss now q
    { s with lossTo := if 0 < env.srtt then env.srtt / 4 else s.lossTo }.handleRegularLostPacket
      q
  | .sentTime =>
    (if q.retx && !q.isMtuProbe then s.onDataPacketLoss now q else s).handleRegularLostPacket q

/-- The packets `detectLosses` looks at: up to the first number above the
largest acknowledged one. -/
def inspected : List QueuedPacket :=
  s.unackedPackets.takeWhile fun q => q.packno ≤ s.largestAckedPackNo

def detectLosses : SendControl × Bool :=
  let largestRetxPackNo := s.largestRetxPacketNo
  let hasLoss := s.inspected.any fun q => s.lossVerdict env largestRetxPackNo q ≠ .kept
  let lost := s.inspected.foldl
    (fun acc q => acc.onVerdict env now q (acc.lossVerdict env largestRetxPackNo q))
    { s with lossTo := 0 }
  (if hasLoss then lost.updateReorderThresholdOnLoss env now else lost, hasLoss)

/-- `expireUnacked` expires the packet. -/
def expires (filter : ExpireFilter) (q : QueuedPacket) : Bool :=
  (filter ≠ .handshakeOnly || q.isHandshakePacket) && !q.packet.poFlags.lossRecorded
    && (q.retx || q.isMtuProbe)

def expirePacket (q : QueuedPacket) : SendControl :=
  if q.isMtuProbe then s.handleLostMtuProbe env q else s.handleRegularLostPacket q

/-- `expireUnacked`; the flag says that some packet expired. -/
def expireUnacked (filter : ExpireFilter) : SendControl × Bool :=
  if filter = .lastOnly then
    match s.unackedPackets.reverse.find? QueuedPacket.retx with
    | some q => (s.handleRegularLostPacket q, true)
    | none => (s, false)
  else
    let expired := s.unackedPackets.filter (expires filter)
    (expired.foldl (fun s q => s.expirePacket env q) s, !expired.isEmpty)

/-- The backoff of `onRetransTimer`. -/
def onRto : SendControl :=
  if s.calculatePacketRto env ≤ now - s.lastRtoTime then
    { s with lastRtoTime := now, nConsecRtos := s.nConsecRtos + 1,
             nextLimit := MAX_RESUBMITTED_ON_RTO }
  else s

/-- What the timer gives up, by mode. -/
def expireByMode : RetransmissionMode → SendControl × Bool
  | .handshake => s.expireUnacked env .handshakeOnly
  | .loss => s.detectLosses env now
  | .tlp => { s with lastRtoTime := now, nTlp := s.nTlp + 1 }.expireUnacked env .lastOnly
  | .rto => (s.onRto env now).expireUnacked env .all

/-- `onRetransTimer`. A timer that has fired is not active any more. -/
def onRetransTimer : SendControl :=
  let now := env.nowUs 0
  let s := { s with retransTimer := false }
  if s.unackedPackets.isEmpty then { s with lossTo := 0 }
  else
    let r := s.expireByMode env now (s.getRetransmissionMode env)
    (if r.2 then r.1.nextScheduleTime else r.1).retransAlarm now

-- ==== acks

/-- MTU discovery after a packet is acknowledged. -/
def mtuAfterAck (nowUs : Nat) (q : QueuedPacket) : MtuDiscovery :=
  if q.isMtuProbe then s.mtu.onProbeAck q.packno (nowUs / 1000)
  else if q.isMtuRelevantDataPacket then s.mtu.onDataPacketAck q.sentSize (nowUs / 1000)
  else s.mtu

/-- `ConnectionImpl::onStreamPacketAcked`: the stream frees its buffer, and
the application may send from the callback that tells it so. -/
def onStreamPacketAcked (q : QueuedPacket) : SendControl :=
  if 0 < q.packet.streamDataSize then s.sendControls gcm env (env.onWritable q) else s

/-- The acknowledgement of one packet. -/
def ackPacket (nowUs : Nat) (s : SendControl) (q : QueuedPacket) : SendControl :=
  let s := { s with mtu := s.mtuAfterAck nowUs q }.onStreamPacketAcked gcm env q
  { s with toQueues := s.toQueues.ack q }

/-- The packet of the largest number, the later of two. -/
def largestAcked (acked : List QueuedPacket) : Option QueuedPacket :=
  acked.foldl (fun best q =>
    match best with
    | none => some q
    | some b => if b.packno ≤ q.packno then some q else some b) none

/-- The walk of `onAckReceived`, and what it does to the counters behind
it. -/
def onAcked (nowUs : Nat) (acked : List QueuedPacket) : SendControl :=
  let s := acked.foldl (ackPacket gcm env nowUs) s
  let s :=
    match largestAcked acked with
    | some q =>
      if 0 < q.packno then
        { s with
          largestAckedPackNo := max s.largestAckedPackNo q.packno
          largestAckedSentTime := q.sentTime }
      else s
    | none => s
  if acked.isEmpty then s else { s with nConsecRtos := 0, nTlp := 0, nextLimit := 0 }

/-- Loss detection after an acknowledgement. -/
def detectAfterAck (nowUs ackedPackets : Nat) : SendControl :=
  let r := s.detectLosses env nowUs
  let s := if r.2 then r.1 else r.1.updateReorderThresholdOnAck env ackedPackets
  let s := s.retransAlarm nowUs
  if r.2 then s.nextScheduleTime else s

def onAckReceived (ackInfo : AckInfo) : SendControl :=
  let nowUs := env.nowUs 0
  let ackProgress := s.largestAckedPackNo < ackInfo.largestAckPackno
  let acked := s.unackedPackets.filter fun q => isPackNoAcked ackInfo q.packno
  let s := { s with largestAckedPackNo := max s.largestAckedPackNo ackInfo.largestAckPackno }
  let s := s.onAcked gcm env nowUs acked
  if s.unackedPackets.isEmpty then { s with lossTo := 0, retransTimer := false }
  else if !acked.isEmpty || ackProgress then s.detectAfterAck env nowUs acked.length
  else s

end SendControl

end Eular.Utp
