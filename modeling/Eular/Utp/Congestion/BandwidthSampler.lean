/-
Bandwidth samples (`congestion/bw_sampler.{h,cpp}`) and their windowed
maximum (`congestion/minmax.{h,cpp}`).

The sampler notes what had been sent and acknowledged when a packet left,
and when the packet is acknowledged the two differences give a rate. All
sums and differences are of 64 bits and wrap as they do in the source.
What neither the constructor nor `onInit` sets keeps what the storage
held.
-/
import Mathlib

namespace Eular.Utp

/-- What can go wrong in a way the program does not survive. -/
inductive BbrFault where
  | assertion
  | indexOutOfRange
  | divisionByZero
deriving DecidableEq, Repr

-- ==== windowed max

structure MinMaxSample where
  time : UInt64
  value : UInt32
deriving DecidableEq, Repr

/-- `MinMax`; the three samples are the best, the second and the third. -/
structure MinMax where
  window : UInt64
  best : MinMaxSample
  second : MinMaxSample
  third : MinMaxSample
deriving DecidableEq, Repr

namespace MinMax

def clampToU32 (value : UInt64) : UInt32 :=
  if 0xFFFFFFFF < value then 0xFFFFFFFF else value.toUInt32

variable (m : MinMax)

/-- `reset`, `init`, `get`. -/
def reset (sample : MinMaxSample) : MinMax :=
  { m with best := sample, second := sample, third := sample }

def init (window : UInt64) : MinMax := { m with window }.reset ⟨0, 0⟩

def get : UInt64 := m.best.value.toUInt64

def subwinUpdate (sample : MinMaxSample) : MinMax :=
  let dt := sample.time - m.best.time
  if m.window < dt then
    let m := { m with best := m.second, second := m.third, third := sample }
    if m.window < sample.time - m.best.time then
      { m with best := m.second, second := m.third, third := sample }
    else m
  else if m.second.time = m.best.time && m.window / 4 < dt then
    { m with second := sample, third := sample }
  else if m.third.time = m.second.time && m.window / 2 < dt then { m with third := sample }
  else m

def updateMin (now meas : UInt64) : MinMax :=
  let sample : MinMaxSample := ⟨now, clampToU32 meas⟩
  if m.best.value = 0 || sample.value ≤ m.best.value
      || m.window < sample.time - m.third.time then
    m.reset sample
  else if sample.value ≤ m.second.value then
    { m with second := sample, third := sample }.subwinUpdate sample
  else if sample.value ≤ m.third.value then { m with third := sample }.subwinUpdate sample
  else m.subwinUpdate sample

def updateMax (now meas : UInt64) : MinMax :=
  let sample : MinMaxSample := ⟨now, clampToU32 meas⟩
  if m.best.value = 0 || m.best.value ≤ sample.value
      || m.window < sample.time - m.third.time then
    m.reset sample
  else if m.second.value ≤ sample.value then
    { m with second := sample, third := sample }.subwinUpdate sample
  else if m.third.value ≤ sample.value then { m with third := sample }.subwinUpdate sample
  else m.subwinUpdate sample

end MinMax

-- ==== sampler

/-- `BWPacketState`, with its `SendState`. -/
structure BWPacketState where
  totalBytesSent : UInt64
  totalBytesAcked : UInt64
  totalBytesLost : UInt64
  isAppLimited : Bool
  packetSize : UInt16
  sentAtLastAck : UInt64
  lastAckSentTime : UInt64
  lastAckAckTime : UInt64
deriving DecidableEq, Repr

/-- `BWSample`, one that is valid. -/
structure BWSample where
  bandwidth : UInt64
  rtt : UInt64
  isAppLimited : Bool
deriving DecidableEq, Repr

/-- `PacketInfo`, as the sampler reads it. -/
structure SampledPacket where
  packetNo : UInt64
  sendTimeUs : UInt64
  packetSize : UInt32
deriving DecidableEq, Repr

/-- `BandwidthSampler`; `appLimited` is the bit `BWS_APP_LIMITED`. -/
structure BandwidthSampler where
  appLimited : Bool
  totalSent : UInt64
  totalAcked : UInt64
  totalLost : UInt64
  lastAckedTotalSent : UInt64
  lastAckedSentTime : UInt64
  lastAckedPacketTime : UInt64
  lastSentPackNo : UInt64
  endOfAppLimitedPhase : UInt64
deriving DecidableEq, Repr

/-- `BW_FROM_BYTES_AND_DELTA`. -/
def bwFromBytesAndDelta (bytes usecs : UInt64) : Except BbrFault UInt64 :=
  if usecs = 0 then .error .divisionByZero else .ok (bytes * 8 * 1000000 / usecs)

/-- `BW_INFINITE`. -/
def bwInfinite : UInt64 := 0xFFFFFFFFFFFFFFFF

namespace BandwidthSampler

def construct (mem : BandwidthSampler) : BandwidthSampler :=
  { mem with appLimited := true, lastAckedSentTime := 0, lastAckedPacketTime := 0,
             lastSentPackNo := 0, endOfAppLimitedPhase := 0 }

variable (b : BandwidthSampler) (info : SampledPacket)

def onPacketSent (packetState : Option BWPacketState) (inFlight : UInt64) :
    BandwidthSampler × Option BWPacketState :=
  match packetState with
  | some packetState => (b, some packetState)
  | none =>
    let sentSize := info.packetSize.toUInt16
    let b := { b with
      lastSentPackNo := info.packetNo, totalSent := b.totalSent + sentSize.toUInt64 }
    let b :=
      if inFlight = 0 then
        { b with
          lastAckedPacketTime := info.sendTimeUs
          lastAckedTotalSent := b.totalSent
          lastAckedSentTime := info.sendTimeUs }
      else b
    (b, some {
      totalBytesSent := b.totalSent
      totalBytesAcked := b.totalAcked
      totalBytesLost := b.totalLost
      isAppLimited := b.appLimited
      packetSize := sentSize
      sentAtLastAck := b.lastAckedTotalSent
      lastAckSentTime := b.lastAckedSentTime
      lastAckAckTime := b.lastAckedPacketTime })

def sendRate (packetState : BWPacketState) : Except BbrFault UInt64 :=
  if packetState.lastAckSentTime < info.sendTimeUs then
    bwFromBytesAndDelta (packetState.totalBytesSent - packetState.sentAtLastAck)
      (info.sendTimeUs - packetState.lastAckSentTime)
  else .ok bwInfinite

/-- The sample, if there is one and it is `valid()`: a round trip time that is
negative as a signed number is not. -/
def sample (packetState : BWPacketState)
    (ackTime : UInt64) : Except BbrFault (Option BWSample) :=
  if packetState.lastAckSentTime = 0 then .ok none
  else do
    let sendRate ← sendRate info packetState
    if ackTime ≤ packetState.lastAckAckTime then return none
    let ackRate ← bwFromBytesAndDelta (b.totalAcked - packetState.totalBytesAcked)
      (ackTime - packetState.lastAckAckTime)
    let rtt := ackTime - info.sendTimeUs
    if 0x7FFFFFFFFFFFFFFF < rtt then return none
    return some {
      bandwidth := if sendRate < ackRate then sendRate else ackRate
      rtt
      isAppLimited := packetState.isAppLimited }

/-- `onPacketAcked`. The state hung on the packet is given back. -/
def onPacketAcked (packetState : Option BWPacketState) (ackTime : UInt64) :
    Except BbrFault (BandwidthSampler × Option BWSample) :=
  match packetState with
  | none => .ok (b, none)
  | some packetState => do
      let b := { b with
        totalAcked := b.totalAcked + info.packetSize.toUInt16.toUInt64
        lastAckedTotalSent := packetState.totalBytesSent
        lastAckedSentTime := info.sendTimeUs
        lastAckedPacketTime := ackTime
        appLimited := b.appLimited && info.packetNo ≤ b.endOfAppLimitedPhase }
      let sample ← b.sample info packetState ackTime
      return (b, sample)

/-- `onPacketLost`. The state hung on the packet is given back. -/
def onPacketLost (packetState : Option BWPacketState) : BandwidthSampler :=
  match packetState with
  | none => b
  | some _ => { b with totalLost := b.totalLost + info.packetSize.toUInt64 }

/-- `appLimited()`. -/
def becomeAppLimited : BandwidthSampler :=
  { b with appLimited := true, endOfAppLimitedPhase := b.lastSentPackNo }

end BandwidthSampler

end Eular.Utp
