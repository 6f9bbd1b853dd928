/-
What the send control tells the congestion controller
(`congestion/congestion.h`, `context/send_ctl.cpp`).

A controller is an object behind the virtual functions of `Congestion`.
The send control calls them in passing, from the functions that move
packets between its queues: `onPacketSent` just before a packet goes to
`m_unackedPackets`, `onAck` for each packet an ACK frame names, `onLost`
for each packet that is given up. `congestionCalls` lists the calls one
event makes, in their order, and a `CongestedSend` is a send control with
the controller those calls are made on.

# The calls of a send

Outside `onAckReceived` an event that sends packets takes none out of
`m_unackedPackets`, and in it the packets the application sends from a
callback are appended before anything else is taken out. So the packets
appended are the end of the queue as the sending function leaves it, and
`sentCalls` reads them there.

# What is left out

`destroyPacket` reports a packet that still carries the controller's
state. A lost packet does not, `onLost` has taken it, so nothing is
reported when `retransmitSplitStreamPacket` destroys one. Nothing sets
the flag `AppLimited`.

# Round-trip times

`RttStats` (`congestion/rtt.h`) is what the controllers read, and
`RttEstimates` has beside it the second estimate that
`SendControl::onAckReceived` keeps of the same samples for the statistics
(`context/send_ctl.cpp`, `connection_impl.h`).
-/
import Eular.Utp.Send.CanWrite

namespace Eular.Utp

open Lib

/-- `PacketInfo`, but for `packetState`. -/
structure PacketInfo where
  packetNo : UInt64
  sendTimeUs : Nat
  packetSize : Nat
deriving DecidableEq, Repr

def QueuedPacket.info (q : QueuedPacket) : PacketInfo :=
  { packetNo := q.packno, sendTimeUs := q.sentTime, packetSize := q.sentSize }

/-- What a controller reads from outside: the round trip times and a random
byte; and whether the send control's flag `WasQuiet` is set. -/
structure CongestionEnv where
  srtt : Nat := 0
  minRTT : Nat := 0
  randomValue : UInt8 := 0
  wasQuiet : Bool := false
deriving DecidableEq, Repr

/-- `Congestion`: `κ` is the controller's object, `β` what it hangs on a
packet (`packetState`). `onLoss` does nothing in any of them. -/
structure Congestion (κ β : Type) where
  getCwnd : CongestionEnv → κ → Nat
  onPacketSent : CongestionEnv → κ → PacketInfo → Option β → Nat → Bool → κ × Option β
  wasQuiet : κ → Nat → Nat → κ
  onBeginAck : κ → Nat → Nat → κ
  onAck : CongestionEnv → κ → PacketInfo → Option β → Nat → κ × Option β
  onLost : κ → PacketInfo → Option β → κ × Option β
  onEndAck : CongestionEnv → κ → Nat → κ
  onTimeout : κ → κ

/-- A call, or a test that may lead to one: `destroy` is `destroyPacket`,
`detected` the end of `detectLosses`. -/
inductive CongestionCall where
  | packetSent (q : QueuedPacket) (inFlight : Nat)
  | wasQuiet (nowUs inFlight : Nat)
  | beginAck (nowUs inFlight : Nat)
  | ack (q : QueuedPacket) (nowUs : Nat)
  | endAck (inFlight : Nat)
  | lost (q : QueuedPacket)
  | destroy (q : QueuedPacket)
  | detected (largestLostPackNo : UInt64)
  | timeout

-- ==== calls

/-- The packets appended to `m_unackedPackets`, each announced with the bytes
in flight before it. -/
def announce : Nat → List QueuedPacket → List CongestionCall
  | _, [] => []
  | inFlight, q :: rest => .packetSent q inFlight :: announce (inFlight + q.sentSize) rest

namespace SendControl

variable (gcm : Gcm) (env : SendCtlEnv)

/-- The calls of a function that only sends. -/
def sentCalls (s s' : SendControl) : List CongestionCall :=
  announce s.bytesUnackedAll (s'.unackedPackets.drop s.unackedPackets.length)

/-- What `detectLosses` reports about one packet. -/
def verdictCalls (q : QueuedPacket) : LossVerdict → List CongestionCall
  | .kept => []
  | .fack => if q.isMtuProbe then [.destroy q] else [.lost q]
  | .earlyRetransmit | .sentTime => [.lost q]

/-- The verdict sets `largestLostPackNo`. -/
def countsAsLost (q : QueuedPacket) : LossVerdict → Bool
  | .kept => false
  | .fack => !q.isMtuProbe
  | .earlyRetransmit => true
  | .sentTime => q.retx && !q.isMtuProbe

variable (s : SendControl)

/-- `largestLostPackNo` at the end of the loop: the last number it was set
to. -/
def largestLostPackNo : UInt64 :=
  match s.inspected.reverse.find? fun q =>
      countsAsLost q (s.lossVerdict env s.largestRetxPacketNo q) with
  | some q => q.packno
  | none => 0

/-- The calls of `detectLosses`. -/
def detectCalls : List CongestionCall :=
  s.inspected.flatMap (fun q => verdictCalls q (s.lossVerdict env s.largestRetxPacketNo q))
    ++ [.detected (s.largestLostPackNo env)]

/-- The calls of `expireUnacked`. -/
def expireCalls (filter : ExpireFilter) : List CongestionCall :=
  if filter = .lastOnly then
    match s.unackedPackets.reverse.find? QueuedPacket.retx with
    | some q => [.lost q]
    | none => []
  else
    (s.unackedPackets.filter (expires filter)).map fun q =>
      if q.isMtuProbe then .destroy q else .lost q

/-- The calls of `onRetransTimer`. -/
def retransTimerCalls : List CongestionCall :=
  if s.unackedPackets.isEmpty then []
  else
    match s.getRetransmissionMode env with
    | .handshake => s.expireCalls .handshakeOnly
    | .loss => s.detectCalls env
    | .tlp => s.expireCalls .lastOnly
    | .rto =>
      (if s.calculatePacketRto env ≤ env.nowUs 0 - s.lastRtoTime then [.timeout] else [])
        ++ s.expireCalls .all

/-- The calls of the walk of `onAckReceived`: a packet is acknowledged, and
the application may send from the callback that tells it so. -/
def walkCalls (nowUs : Nat) : SendControl → List QueuedPacket → List CongestionCall
  | _, [] => []
  | s, q :: rest =>
    let told := { s with mtu := s.mtuAfterAck nowUs q }
    .ack q nowUs :: sentCalls told (told.onStreamPacketAcked gcm env q)
      ++ walkCalls nowUs (s.ackPacket gcm env nowUs q) rest

variable (ackInfo : AckInfo)

/-- `onAckReceived` up to loss detection: the state before its walk, the
packets acknowledged, and the state after the walk. -/
def ackStart : SendControl :=
  { s with largestAckedPackNo := max s.largestAckedPackNo ackInfo.largestAckPackno }

def ackedPackets : List QueuedPacket :=
  s.unackedPackets.filter fun q => isPackNoAcked ackInfo q.packno

def ackEnd : SendControl :=
  (s.ackStart ackInfo).onAcked gcm env (env.nowUs 0) (s.ackedPackets ackInfo)

/-- The calls of the loss detection behind an acknowledgement. -/
def ackDetectCalls : List CongestionCall :=
  if (s.ackEnd gcm env ackInfo).unackedPackets.isEmpty then []
  else if !(s.ackedPackets ackInfo).isEmpty
      || s.largestAckedPackNo < ackInfo.largestAckPackno then
    (s.ackEnd gcm env ackInfo).detectCalls env
  else []

/-- The calls of `onAckReceived` up to `onEndAck`. -/
def ackRoundCalls (wasQuiet : Bool) (ackInfo : AckInfo) :
    List CongestionCall :=
  (if wasQuiet then [.wasQuiet (env.nowUs 0) s.bytesUnackedAll] else [])
    ++ .beginAck (env.nowUs 0) s.bytesUnackedAll
      :: walkCalls gcm env (env.nowUs 0) (s.ackStart ackInfo) (s.ackedPackets ackInfo)
    ++ [.endAck (s.ackEnd gcm env ackInfo).bytesUnackedAll]

/-- The calls of `onAckReceived`. -/
def ackCalls (wasQuiet : Bool) (ackInfo : AckInfo) : List CongestionCall :=
  s.ackRoundCalls gcm env wasQuiet ackInfo ++ s.ackDetectCalls gcm env ackInfo

def congestionCalls (wasQuiet : Bool) :
    SendCtlEnv × SendCtlOp → List CongestionCall
  | (env, .ack ackInfo) => s.ackCalls gcm env wasQuiet ackInfo
  | (env, .detectLosses) => s.detectCalls env
  | (_, .expireUnacked filter) => s.expireCalls filter
  | (env, .retransTimer) => s.retransTimerCalls env
  | event => sentCalls s (s.step gcm event)

end SendControl

-- ==== controller

/-- The controller, what it hung on each packet, and what the send control
keeps for it: `m_sendHistory._last_sent` and `m_largestSentAtCutback`. -/
structure CongestionSide (κ β : Type) where
  congestion : κ
  bwState : Nat → Option β := fun _ => none
  lastSent : UInt64 := 0
  largestSentAtCutback : UInt64 := 0
  /-- No field of the source: `_last_sent` as it was when a packet was last
  reported lost. -/
  lastSentAtLoss : UInt64 := 0

namespace CongestionSide

variable {κ β : Type} (cc : Congestion κ β) (cenv : CongestionEnv)

/-- `m_congestion->onLost`, from `handleRegularLostPacket` and from
`destroyPacket`. -/
def onLost (s : CongestionSide κ β) (q : QueuedPacket) : CongestionSide κ β :=
  let r := cc.onLost s.congestion q.info (s.bwState q.ptr)
  { s with congestion := r.1, bwState := Function.update s.bwState q.ptr r.2,
           lastSentAtLoss := s.lastSent }

def call (s : CongestionSide κ β) : CongestionCall → CongestionSide κ β
  | .packetSent q inFlight =>
    let r := cc.onPacketSent cenv s.congestion q.info (s.bwState q.ptr) inFlight false
    { s with congestion := r.1, bwState := Function.update s.bwState q.ptr r.2,
             lastSent := max s.lastSent q.packno }
  | .wasQuiet nowUs inFlight =>
    { s with congestion := cc.wasQuiet s.congestion nowUs inFlight }
  | .beginAck nowUs inFlight =>
    { s with congestion := cc.onBeginAck s.congestion nowUs inFlight }
  | .ack q nowUs =>
    let r := cc.onAck cenv s.congestion q.info (s.bwState q.ptr) nowUs
    { s with congestion := r.1, bwState := Function.update s.bwState q.ptr r.2 }
  | .endAck inFlight => { s with congestion := cc.onEndAck cenv s.congestion inFlight }
  | .lost q => s.onLost cc q
  | .destroy q => if (s.bwState q.ptr).isSome then s.onLost cc q else s
  | .detected largestLostPackNo =>
    -- `onLossEvent`
    if s.largestSentAtCutback < largestLostPackNo then
      { s with largestSentAtCutback := s.lastSent }
    else s
  | .timeout => { s with congestion := cc.onTimeout s.congestion }

end CongestionSide

/-- A send control and its congestion controller. -/
structure CongestedSend (κ β : Type) extends SendControl, CongestionSide κ β

namespace CongestedSend

variable {κ β : Type} (gcm : Gcm) (cc : Congestion κ β)

/-- The event, with the window the controller allows: no event changes the
window before it asks for it. -/
def event (s : CongestedSend κ β) (op : CongestionEnv × SendCtlEnv × SendCtlOp) :
    SendCtlEnv × SendCtlOp :=
  ({ op.2.1 with cwnd := fun _ => cc.getCwnd op.1 s.congestion }, op.2.2)

def calls (s : CongestedSend κ β) (op : CongestionEnv × SendCtlEnv × SendCtlOp) :
    List CongestionCall :=
  s.toSendControl.congestionCalls gcm op.1.wasQuiet (s.event cc op)

def step (s : CongestedSend κ β) (op : CongestionEnv × SendCtlEnv × SendCtlOp) :
    CongestedSend κ β where
  toSendControl := s.toSendControl.step gcm (s.event cc op)
  toCongestionSide := (s.calls gcm cc op).foldl (CongestionSide.call cc op.1) s.toCongestionSide

end CongestedSend

-- ==== round-trip times

/-- `RttStats`; `srtt` is scaled by eight. -/
structure RttStats where
  srtt : UInt64 := 0
  rttvar : UInt64 := 0
  minrtt : UInt64 := 0
deriving DecidableEq, Repr

namespace RttStats

/-- `ALPHA_SHIFT`, `BETA_SHIFT`. -/
def alphaShift : UInt64 := 3

def betaShift : UInt64 := 2

variable (s : RttStats)

def update (measuredRtt : Int64) : RttStats :=
  if s.srtt ≠ 0 then
    let srttUs := (s.srtt >>> alphaShift).toInt64
    let delta := measuredRtt - srttUs
    let absDelta := delta.abs.toUInt64
    let rttvar := s.rttvar - (s.rttvar >>> betaShift)
    { srtt := (s.srtt.toInt64 + delta).toUInt64
      rttvar := rttvar + (absDelta >>> betaShift)
      -- the comparison is of the unsigned values
      minrtt := if measuredRtt.toUInt64 < s.minrtt then measuredRtt.toUInt64 else s.minrtt }
  else
    { srtt := measuredRtt.toUInt64 <<< alphaShift
      rttvar := measuredRtt.toUInt64 <<< (betaShift - 1)
      minrtt := measuredRtt.toUInt64 }

/-- `srtt`, `rttVar`, `minRTT`. -/
def srttUs : UInt64 := s.srtt >>> alphaShift

def rttVar : UInt64 := s.rttvar

def minRTT : UInt64 := s.minrtt

end RttStats

/-- `m_obsRttUs`, `m_obsRttVarUs` and `m_rttStats` of the connection. -/
structure RttEstimates where
  obsRttUs : UInt64 := 0
  obsRttVarUs : UInt64 := 0
  rttStats : RttStats := {}
deriving DecidableEq, Repr

namespace RttEstimates

/-- The estimates of `onAckReceived`, of a sample above 0. -/
def sampled (e : RttEstimates) (sampleRttUs : UInt64) : RttEstimates :=
  let rttStats := e.rttStats.update sampleRttUs.toInt64
  if e.obsRttUs = 0 then
    { obsRttUs := sampleRttUs, obsRttVarUs := sampleRttUs / 2, rttStats }
  else
    let delta := if sampleRttUs < e.obsRttUs then e.obsRttUs - sampleRttUs
      else sampleRttUs - e.obsRttUs
    { obsRttUs := (e.obsRttUs * 7 + sampleRttUs) / 8
      obsRttVarUs := (e.obsRttVarUs * 3 + delta) / 4
      rttStats }

/-- What `onAckReceived` makes of an acknowledgement of packets the last of which was
sent at `sentTime`. -/
def onAckReceived (e : RttEstimates) (nowUs sentTime ackDelayUs : UInt64) : RttEstimates :=
  if sentTime < nowUs then
    let sampleRttUs := nowUs - sentTime
    let sampleRttUs :=
      if 0 < ackDelayUs && ackDelayUs < sampleRttUs then sampleRttUs - ackDelayUs else sampleRttUs
    if 0 < sampleRttUs then e.sampled sampleRttUs else e
  else e

end RttEstimates

end Eular.Utp
