/-
BBR (`congestion/bbr_v1.{h,cpp}`).

An acknowledgement is bracketed: `onBeginAck` opens a record, `onAck` and
`onLost` enter packets in it, and `onEndAck` works through it, one step of
the state machine after another. A step that an assertion guards, or
that indexes or divides, may fail.

# The real numbers

`BbrReals` is the floating-point arithmetic. Of the products nothing is
used but that no bandwidth times a growth target is none.

# The storage

`new` runs the constructor and `onInit` on a piece of storage. The members
neither of them sets (`m_recoveryState`, `m_recoveryWindow`, the numbers of
packets, the totals of the sampler) hold what the storage held.
`m_startupBytesLost` is left out: it is read only if
`startup_rate_reduction_multiplier_` is not zero, and that is defined as
zero.
-/
import Eular.Utp.Congestion.BandwidthSampler
import Eular.Utp.Congestion.Congestion

namespace Eular.Utp

open Lib

/-- The floating-point arithmetic, with literals in thousandths. -/
structure BbrReals (R : Type) where
  lit : Nat → R
  lt : R → R → Bool
  le : R → R → Bool
  /-- `1.0f / x`. -/
  inv : R → R
  /-- `static_cast<uint64_t>(gain * bdp)`. -/
  scale : R → UInt64 → UInt64
  /-- `BW_TIMES`. -/
  timesBw : UInt64 → R → UInt64
  /-- `m_minRttSinceLastProbe > m_minRtt * m_similarMinRttThreshold`. -/
  exceeds : UInt64 → UInt64 → R → Bool
  lt_lit : ∀ m n, m < n → lt (lit m) (lit n) = true
  le_lit : ∀ m n, m ≤ n → le (lit m) (lit n) = true
  timesBw_zero : ∀ r, lt (lit 1000) r = true → le r (lit 2000) = true → timesBw 0 r = 0

/-- What the constructor reads of `Config`. -/
structure BbrConfig (R : Type) where
  initCwndMss : UInt32
  minCwndMss : UInt32
  startupHighGain : R
  cwndGain : R
  startupGrowthTarget : R
  startupFullBwRounds : UInt32
  probeRttMs : UInt32
  minRttExpiryMs : UInt32
  probeRttMultiplier : R
  similarMinRttThreshold : R
  pacingGains : List R

/-- `BbrV1::Mode`. -/
inductive BbrMode where
  | startUp
  | drain
  | probeBW
  | probeRTT
deriving DecidableEq, Repr

/-- `BbrV1::RecoveryState`; `other` is a number that is none of them. -/
inductive RecoveryState where
  | notInRecovery
  | conservation
  | growth
  | other (value : UInt32)
deriving DecidableEq, Repr

/-- `BbrV1::Flags`. The last ten are options that nothing sets. -/
structure BbrFlags where
  inAck : Bool := false
  lastSampleAppLimited : Bool := false
  hasNonAppLimited : Bool := false
  appLimitedSinceLastProbeRtt : Bool := false
  isAtFullBandwidth : Bool := false
  exitingQuiescence : Bool := false
  probeRttRoundPassed : Bool := false
  probeRttDisabledIfAppLimited : Bool := false
  probeRttSkippedIfSimilarRtt : Bool := false
  exitStartupOnLoss : Bool := false
  flexibleAppLimited : Bool := false
  drainToTarget : Bool := false
  expireAckAggInStartup : Bool := false
  probeRttBasedOnBdp : Bool := false
  slowerStartup : Bool := false
  enableAckAggInStartup : Bool := false
  rateBasedStartup : Bool := false
deriving DecidableEq, Repr

structure AckState where
  sampleList : List BWSample := []
  ackTime : UInt64 := 0
  maxPackNo : UInt64 := 0
  ackedBytes : UInt64 := 0
  lostBytes : UInt64 := 0
  totalBytesAckedBefore : UInt64 := 0
  inflightBytes : UInt64 := 0
  hasLosses : Bool := false
deriving DecidableEq, Repr

structure BbrV1 (R : Type) where
  mode : BbrMode
  recoveryState : RecoveryState
  flags : BbrFlags
  cycleCurrentOffset : Nat
  bwSampler : BandwidthSampler
  maxBandwidth : MinMax
  maxAckHeight : MinMax
  initCwnd : UInt64
  minCwnd : UInt64
  maxCwnd : UInt64
  cwnd : UInt64
  aggregationEpochStartTime : UInt64
  aggregationEpochBytes : UInt64
  lastSentPackNo : UInt64
  currentRoundTripEnd : UInt64
  endRecoveryAt : UInt64
  roundCount : UInt64
  pacingRate : UInt64
  pacingGain : R
  highGain : R
  highCwndGain : R
  drainGain : R
  nStartupRtts : UInt32
  roundWoBwGain : UInt32
  cwndGain : R
  bwAtLastRound : UInt64
  lastCycleStart : UInt64
  exitProbeRttAt : UInt64
  minRttSinceLastProbe : UInt64
  minRtt : UInt64
  minRttTimestamp : UInt64
  recoveryWindow : UInt64
  ackState : AckState
  startupGrowthTarget : R
  probeRttTimeUs : UInt64
  minRttExpiryUs : UInt64
  configInitCwnd : UInt64
  configMinCwnd : UInt64
  configHighGain : R
  configCwndGain : R
  configStartupRounds : UInt32
  probeRttMultiplier : R
  similarMinRttThreshold : R
  pacingGains : List R
  -- no fields of the source: acknowledgements worked through, the bytes
  -- reported through `onLost`, and those `calculateRecoveryWindow` was given
  endAcks : Nat
  bytesReported : UInt64
  bytesSeen : UInt64

/-- `if (cond) { ... }`, where the branch may fail. -/
def onlyIf {α : Type} (cond : Bool) (branch : α → Except BbrFault α) (a : α) :
    Except BbrFault α :=
  if cond then branch a else .ok a

/-- `std::min`, `std::max`, `CLAMP`. -/
def minU64 (a b : UInt64) : UInt64 := if b < a then b else a
def maxU64 (a b : UInt64) : UInt64 := if a < b then b else a
def clampU64 (x lo hi : UInt64) : UInt64 := if x < lo then lo else if hi < x then hi else x

namespace BbrV1

variable {R : Type} (reals : BbrReals R) (cenv : CongestionEnv)

/-- `kDefaultTCPMSS`, `kMaxSegmentSize`, `kDefaultMaxCongestionWindowPackets`,
`kMaxOutgoingPacketSize`, `UTP_MAX_PACKNO`. -/
def kDefaultTCPMSS : UInt64 := 1460
def kMaxSegmentSize : UInt64 := kDefaultTCPMSS
def kDefaultMaxCongestionWindowPackets : UInt64 := 2000
def kMaxOutgoingPacketSize : UInt64 := 1452
def UTP_MAX_PACKNO : UInt64 := 0x3FFFFFFFFFFFFFFF

/-- `kPacingGain`, the default of `m_pacingGains`. -/
def kPacingGain : List R :=
  [reals.lit 1250, reals.lit 750, reals.lit 1000, reals.lit 1000, reals.lit 1000, reals.lit 1000,
    reals.lit 1000, reals.lit 1000]

def isValidPackNo (packno : UInt64) : Bool := packno ≤ UTP_MAX_PACKNO

/-- A configured value that lies between the bounds, or else the default. -/
def configured (value : R) (ok : Bool) (default : Nat) : R :=
  if ok then value else reals.lit default

-- ==== construction

def construct (mem : BbrV1 R) (cfg : BbrConfig R) : BbrV1 R :=
  let configInitCwnd := maxU64 1 cfg.initCwndMss.toUInt64 * kDefaultTCPMSS
  let configMinCwnd := maxU64 1 cfg.minCwndMss.toUInt64 * kDefaultTCPMSS
  { mem with
    bwSampler := mem.bwSampler.construct
    ackState := {}
    configInitCwnd := maxU64 configInitCwnd configMinCwnd
    configMinCwnd
    configHighGain := configured reals cfg.startupHighGain
      (reals.lt (reals.lit 1000) cfg.startupHighGain
        && reals.le cfg.startupHighGain (reals.lit 4000)) 2885
    configCwndGain := configured reals cfg.cwndGain
      (reals.le (reals.lit 1000) cfg.cwndGain && reals.le cfg.cwndGain (reals.lit 4000)) 2000
    startupGrowthTarget := configured reals cfg.startupGrowthTarget
      (reals.lt (reals.lit 1000) cfg.startupGrowthTarget
        && reals.le cfg.startupGrowthTarget (reals.lit 2000)) 1250
    configStartupRounds := max 1 cfg.startupFullBwRounds
    probeRttTimeUs := maxU64 50 cfg.probeRttMs.toUInt64 * 1000
    minRttExpiryUs := maxU64 1000 cfg.minRttExpiryMs.toUInt64 * 1000
    probeRttMultiplier := configured reals cfg.probeRttMultiplier
      (reals.lt (reals.lit 0) cfg.probeRttMultiplier
        && reals.le cfg.probeRttMultiplier (reals.lit 1000)) 750
    similarMinRttThreshold := configured reals cfg.similarMinRttThreshold
      (reals.le (reals.lit 1000) cfg.similarMinRttThreshold
        && reals.le cfg.similarMinRttThreshold (reals.lit 2000)) 1125
    pacingGains := if cfg.pacingGains.isEmpty then kPacingGain reals else cfg.pacingGains
    endAcks := 0
    bytesReported := 0
    bytesSeen := 0 }

variable (s : BbrV1 R)

def setStartupValues : BbrV1 R :=
  { s with pacingGain := s.highGain, cwndGain := s.highCwndGain }

def onInit : BbrV1 R :=
  { s with
    flags := {}
    mode := .startUp
    roundCount := 0
    maxBandwidth := s.maxBandwidth.init 10
    maxAckHeight := s.maxAckHeight.init 10
    aggregationEpochBytes := 0
    aggregationEpochStartTime := 0
    minRtt := 0
    minRttTimestamp := 0
    initCwnd := s.configInitCwnd
    cwnd := s.configInitCwnd
    maxCwnd := kDefaultMaxCongestionWindowPackets * kDefaultTCPMSS
    minCwnd := s.configMinCwnd
    highGain := s.configHighGain
    highCwndGain := s.configHighGain
    drainGain := reals.inv s.configHighGain
    pacingRate := 0
    pacingGain := reals.lit 1000
    nStartupRtts := s.configStartupRounds
    cycleCurrentOffset := 0
    lastCycleStart := 0
    roundWoBwGain := 0
    bwAtLastRound := 0
    exitProbeRttAt := 0 }.setStartupValues

/-- A controller on a piece of storage. -/
def new (mem : BbrV1 R) (cfg : BbrConfig R) : BbrV1 R := (construct reals mem cfg).onInit reals

-- ==== windows

/-- `m_rttStats->minRTT()`. -/
def rttStatsMinRTT : UInt64 := .ofNat cenv.minRTT

def getMinRtt : UInt64 :=
  if 0 < s.minRtt then s.minRtt
  else if rttStatsMinRTT cenv = 0 then 25000 else rttStatsMinRTT cenv

def getPacingRate : Except BbrFault UInt64 := do
  if s.pacingRate ≠ 0 then return s.pacingRate / 8
  let bw ← bwFromBytesAndDelta s.initCwnd (s.getMinRtt cenv)
  return reals.timesBw bw s.highCwndGain / 8

def getTargetCwnd (gain : R) : UInt64 :=
  let bdp := s.getMinRtt cenv * (s.maxBandwidth.get / 8) / 1000000
  let cwnd := reals.scale gain bdp
  let cwnd := if cwnd = 0 then reals.scale gain s.initCwnd else cwnd
  maxU64 cwnd s.minCwnd

def getProbeRttCwnd : UInt64 :=
  if s.flags.probeRttBasedOnBdp then s.getTargetCwnd reals cenv s.probeRttMultiplier
  else s.configMinCwnd

def inRecovery : Bool := s.recoveryState ≠ .notInRecovery

def getCwnd : UInt64 :=
  if s.mode = .probeRTT then s.getProbeRttCwnd reals cenv
  else if s.inRecovery && !(s.flags.rateBasedStartup && s.mode = .startUp) then
    minU64 s.cwnd s.recoveryWindow
  else s.cwnd

variable (inFlight : UInt64)

def isPipeSufficientlyFull : Bool :=
  if s.mode = .startUp then s.getTargetCwnd reals cenv (reals.lit 1500) ≤ inFlight
  else if reals.lt (reals.lit 1000) s.pacingGain then
    s.getTargetCwnd reals cenv s.pacingGain ≤ inFlight
  else s.getTargetCwnd reals cenv (reals.lit 1100) ≤ inFlight

/-- `appLimited`. -/
def becomeAppLimited (s : BbrV1 R) (inFlight : UInt64) : BbrV1 R :=
  if s.getCwnd reals cenv ≤ inFlight then s
  else if s.flags.flexibleAppLimited && s.isPipeSufficientlyFull reals cenv inFlight then s
  else
    { s with
      flags := { s.flags with appLimitedSinceLastProbeRtt := true }
      bwSampler := s.bwSampler.becomeAppLimited }

-- ==== calls

def onPacketSent (s : BbrV1 R) (info : SampledPacket) (packetState : Option BWPacketState)
    (inFlight : UInt64) (isAppLimited : Bool) : BbrV1 R × Option BWPacketState :=
  let r := s.bwSampler.onPacketSent info packetState inFlight
  let s := { s with bwSampler := r.1, lastSentPackNo := info.packetNo }
  (if isAppLimited then s.becomeAppLimited reals cenv inFlight else s, r.2)

def onBeginAck (ackTimeUs inFlight : UInt64) : Except BbrFault (BbrV1 R) :=
  if s.flags.inAck then .error .assertion
  else
    .ok { s with
      flags := { s.flags with inAck := true }
      ackState :=
        { ackTime := ackTimeUs, maxPackNo := 0xFFFFFFFFFFFFFFFF, inflightBytes := inFlight,
          totalBytesAckedBefore := s.bwSampler.totalAcked } }

def onAck (info : SampledPacket) (packetState : Option BWPacketState)
    (nowUs : UInt64) : Except BbrFault (BbrV1 R) :=
  if !s.flags.inAck then .error .assertion
  else do
    let (bwSampler, sample) ← s.bwSampler.onPacketAcked info packetState nowUs
    let a := s.ackState
    return { s with
      bwSampler
      ackState := { a with
        sampleList := a.sampleList ++ sample.toList
        maxPackNo :=
          if !isValidPackNo a.maxPackNo || a.maxPackNo < info.packetNo then info.packetNo
          else a.maxPackNo
        ackedBytes := a.ackedBytes + info.packetSize.toUInt64 } }

def onLost (info : SampledPacket) (packetState : Option BWPacketState) : BbrV1 R :=
  { s with
    bwSampler := s.bwSampler.onPacketLost info packetState
    ackState := { s.ackState with
      hasLosses := true, lostBytes := s.ackState.lostBytes + info.packetSize.toUInt64 }
    bytesReported := s.bytesReported + info.packetSize.toUInt64 }

-- ==== steps of onEndAck

/-- One sample, as the loop of `updateBandwidthAndMinRtt` takes it. -/
def takeSample (sample : BWSample) : BbrV1 R :=
  let flags :=
    if sample.isAppLimited then { s.flags with lastSampleAppLimited := true }
    else { s.flags with lastSampleAppLimited := false, hasNonAppLimited := true }
  let maxBandwidth :=
    if !sample.isAppLimited || s.maxBandwidth.get < sample.bandwidth then
      s.maxBandwidth.updateMax s.roundCount sample.bandwidth
    else s.maxBandwidth
  { s with flags, maxBandwidth }

/-- `sampleMinRtt` after the loop. -/
def sampleMinRtt (samples : List BWSample) : UInt64 :=
  samples.foldl (fun best sample =>
    if best = 0xFFFFFFFFFFFFFFFF || sample.rtt < best then sample.rtt else best)
    0xFFFFFFFFFFFFFFFF

def shouldExtendMinRttExpiry : Bool :=
  s.flags.appLimitedSinceLastProbeRtt && s.flags.probeRttDisabledIfAppLimited
    || s.flags.appLimitedSinceLastProbeRtt && s.flags.probeRttSkippedIfSimilarRtt
      && !reals.exceeds s.minRttSinceLastProbe s.minRtt s.similarMinRttThreshold

/-- `updateBandwidthAndMinRtt`; the flag is `minRttExpired`. -/
def updateBandwidthAndMinRtt : BbrV1 R × Bool :=
  let sampleMinRtt := sampleMinRtt s.ackState.sampleList
  let s := s.ackState.sampleList.foldl takeSample s
  if sampleMinRtt = 0xFFFFFFFFFFFFFFFF then (s, false)
  else
    let s := { s with minRttSinceLastProbe := minU64 s.minRttSinceLastProbe sampleMinRtt }
    let minRttExpired :=
      s.minRtt ≠ 0 && s.minRttTimestamp + s.minRttExpiryUs < s.ackState.ackTime
    if minRttExpired || sampleMinRtt < s.minRtt || s.minRtt = 0 then
      let extended := minRttExpired && s.shouldExtendMinRttExpiry reals
      ({ s with
        minRtt := if extended then s.minRtt else sampleMinRtt
        minRttTimestamp := s.ackState.ackTime
        minRttSinceLastProbe := 0xFFFFFFFFFFFFFFFF
        flags := { s.flags with appLimitedSinceLastProbeRtt := false } },
        minRttExpired && !extended)
    else (s, minRttExpired)

/-- What `Conservation`, which falls through, and `Growth` do. -/
def leaveRecovery : BbrV1 R :=
  if !s.ackState.hasLosses && s.endRecoveryAt < s.ackState.maxPackNo then
    { s with recoveryState := .notInRecovery }
  else s

def updateRecoveryState (isRoundStart : Bool) : BbrV1 R :=
  let s := if s.ackState.hasLosses then { s with endRecoveryAt := s.lastSentPackNo } else s
  match s.recoveryState with
  | .notInRecovery =>
    if s.ackState.hasLosses then
      { s with recoveryState := .conservation, recoveryWindow := 0,
               currentRoundTripEnd := s.lastSentPackNo }
    else s
  | .conservation =>
    (if isRoundStart then { s with recoveryState := .growth } else s).leaveRecovery
  | .growth => s.leaveRecovery
  | .other _ => s

def updateAckAggregationBytes (bytesAcked : UInt64) : BbrV1 R × UInt64 :=
  let ackTime := s.ackState.ackTime
  let expectedBytesAcked := s.maxBandwidth.get * (ackTime - s.aggregationEpochStartTime)
  if s.aggregationEpochBytes ≤ expectedBytesAcked then
    ({ s with aggregationEpochStartTime := ackTime, aggregationEpochBytes := bytesAcked }, 0)
  else
    let aggregationEpochBytes := s.aggregationEpochBytes + bytesAcked
    let diff := aggregationEpochBytes - expectedBytesAcked
    ({ s with aggregationEpochBytes, maxAckHeight := s.maxAckHeight.updateMax s.roundCount diff },
      diff)

/-- `m_pacingGains[offset]`. -/
def pacingGainAt (offset : Nat) : Except BbrFault R :=
  match s.pacingGains[offset]? with
  | some gain => .ok gain
  | none => .error .indexOutOfRange

def shouldAdvanceGainCycling : Bool :=
  let one := reals.lit 1000
  if reals.lt s.pacingGain one && inFlight ≤ s.getTargetCwnd reals cenv one then true
  else if reals.lt one s.pacingGain && !s.ackState.hasLosses
      && s.ackState.inflightBytes < s.getTargetCwnd reals cenv s.pacingGain then false
  else s.getMinRtt cenv ≤ s.ackState.ackTime - s.lastCycleStart

def updateGainCyclePhase : Except BbrFault (BbrV1 R) :=
  let one := reals.lit 1000
  if !s.shouldAdvanceGainCycling reals cenv inFlight then .ok s
  else if s.pacingGains.length = 0 then .error .divisionByZero
  else do
    let cycleCurrentOffset := (s.cycleCurrentOffset + 1) % 2 ^ 32 % s.pacingGains.length
    let gain ← s.pacingGainAt cycleCurrentOffset
    let advanced := { s with cycleCurrentOffset, lastCycleStart := s.ackState.ackTime }
    if s.flags.drainToTarget && reals.lt s.pacingGain one
        && !reals.lt gain one && !reals.lt one gain
        && s.getTargetCwnd reals cenv one < inFlight then
      return advanced
    else return { advanced with pacingGain := gain }

def checkIsFullBwReached : Except BbrFault (BbrV1 R) :=
  if s.flags.lastSampleAppLimited then .ok s
  else
    let target := reals.timesBw s.bwAtLastRound s.startupGrowthTarget
    let bw := s.maxBandwidth.get
    if target ≤ bw then
      .ok { s with
        bwAtLastRound := bw
        roundWoBwGain := 0
        maxAckHeight :=
          if s.flags.expireAckAggInStartup then s.maxAckHeight.reset ⟨s.roundCount, 0⟩
          else s.maxAckHeight }
    else
      let s := { s with roundWoBwGain := s.roundWoBwGain + 1 }
      if s.nStartupRtts ≤ s.roundWoBwGain || (s.flags.exitStartupOnLoss && s.inRecovery) then
        if s.flags.hasNonAppLimited then
          .ok { s with flags := { s.flags with isAtFullBandwidth := true } }
        else .error .assertion
      else .ok s

def onExitStartup : Except BbrFault Unit :=
  if s.mode = .startUp then .ok () else .error .assertion

variable (now : UInt64)

def enterProbeBWMode : Except BbrFault (BbrV1 R) :=
  let s := { s with mode := .probeBW, cwndGain := s.configCwndGain }
  if s.pacingGains.length - 1 = 0 then .error .divisionByZero
  else do
    let offset := cenv.randomValue.toNat % (s.pacingGains.length - 1)
    let cycleCurrentOffset := if 1 ≤ offset then offset + 1 else offset
    let pacingGain ← s.pacingGainAt cycleCurrentOffset
    return { s with cycleCurrentOffset, lastCycleStart := now, pacingGain }

def enterStartupMode : BbrV1 R := { s with mode := .startUp }.setStartupValues

/-- `maybeExitStartupOrDrain`. -/
def exitStartup : Except BbrFault (BbrV1 R) := do
  s.onExitStartup
  return { s with mode := .drain, pacingGain := s.drainGain, cwndGain := s.highCwndGain }

def maybeExitStartupOrDrain (now inFlight : UInt64) :
    Except BbrFault (BbrV1 R) := do
  let s ← onlyIf (s.mode = .startUp && s.flags.isAtFullBandwidth) exitStartup s
  onlyIf (s.mode = .drain && inFlight ≤ s.getTargetCwnd reals cenv (reals.lit 1000))
    (enterProbeBWMode cenv · now) s

/-- The parts of `maybeEnterOrExitProbeRtt` that are about ProbeRTT mode: the
exit is planned, a round passes, the time has come. -/
def planProbeRttExit (now inFlight : UInt64) : BbrV1 R :=
  if inFlight < s.getProbeRttCwnd reals cenv + kMaxOutgoingPacketSize then
    { s with
      flags := { s.flags with probeRttRoundPassed := false }
      exitProbeRttAt := now + s.probeRttTimeUs }
  else s

def passProbeRttRound (isRoundStart : Bool) : BbrV1 R :=
  if isRoundStart then { s with flags := { s.flags with probeRttRoundPassed := true } } else s

def exitProbeRtt : Except BbrFault (BbrV1 R) :=
  let s := { s with minRttTimestamp := now }
  if !s.flags.isAtFullBandwidth then .ok s.enterStartupMode else s.enterProbeBWMode cenv now

def probeRtt (isRoundStart : Bool) (inFlight : UInt64) :
    Except BbrFault (BbrV1 R) :=
  let s := { s with bwSampler := s.bwSampler.becomeAppLimited }
  if s.exitProbeRttAt = 0 then .ok (s.planProbeRttExit reals cenv now inFlight)
  else
    let s := s.passProbeRttRound isRoundStart
    onlyIf (s.exitProbeRttAt ≤ now && s.flags.probeRttRoundPassed) (exitProbeRtt cenv · now) s

/-- `maybeEnterOrExitProbeRtt`. -/
def enterProbeRtt : Except BbrFault (BbrV1 R) := do
  let s ← onlyIf (s.mode = .startUp) (fun s => s.onExitStartup.map fun _ => s) s
  return { s with mode := .probeRTT, pacingGain := reals.lit 1000, exitProbeRttAt := 0 }

def maybeEnterOrExitProbeRtt (isRoundStart minRttExpired : Bool)
    (inFlight : UInt64) : Except BbrFault (BbrV1 R) := do
  let s ← onlyIf (minRttExpired && !s.flags.exitingQuiescence && s.mode ≠ .probeRTT)
    (enterProbeRtt reals) s
  let s ← onlyIf (s.mode = .probeRTT) (probeRtt reals cenv · now isRoundStart inFlight) s
  return { s with flags := { s.flags with exitingQuiescence := false } }

def calculatePacingRate : Except BbrFault (BbrV1 R) :=
  let bw := s.maxBandwidth.get
  if bw = 0 then .ok s
  else
    let targetRate := reals.timesBw bw s.pacingGain
    if s.flags.isAtFullBandwidth then .ok { s with pacingRate := targetRate }
    else if s.pacingRate = 0 && rttStatsMinRTT cenv ≠ 0 then do
      let pacingRate ← bwFromBytesAndDelta s.initCwnd (rttStatsMinRTT cenv)
      return { s with pacingRate }
    else if s.endRecoveryAt ≠ 0 && s.flags.slowerStartup && s.flags.hasNonAppLimited then
      .ok { s with pacingRate := reals.timesBw bw (reals.lit 1500) }
    else if s.pacingRate < targetRate then .ok { s with pacingRate := targetRate }
    else .ok s

def calculateCwnd (bytesAcked excessAcked : UInt64) : BbrV1 R :=
  if s.mode = .probeRTT then s
  else
    let targetWindow := s.getTargetCwnd reals cenv s.cwndGain
    let targetWindow :=
      if s.flags.isAtFullBandwidth then targetWindow + s.maxAckHeight.get
      else if s.flags.enableAckAggInStartup then targetWindow + excessAcked
      else targetWindow
    let cwnd :=
      if s.flags.isAtFullBandwidth then minU64 targetWindow (s.cwnd + bytesAcked)
      else if s.cwnd < targetWindow || s.bwSampler.totalAcked < s.initCwnd then
        s.cwnd + bytesAcked
      else s.cwnd
    { s with cwnd := clampU64 cwnd s.minCwnd s.maxCwnd }

def calculateRecoveryWindow (bytesAcked bytesLost inFlight : UInt64) : BbrV1 R :=
  let s := { s with bytesSeen := s.bytesSeen + bytesLost }
  if s.flags.rateBasedStartup && s.mode = .startUp then s
  else if s.recoveryState = .notInRecovery then s
  else if s.recoveryWindow = 0 then
    { s with recoveryWindow := maxU64 s.minCwnd (inFlight + bytesAcked) }
  else
    let window :=
      if bytesLost ≤ s.recoveryWindow then s.recoveryWindow - bytesLost else kMaxSegmentSize
    let window := if s.recoveryState = .growth then window + bytesAcked else window
    let window := maxU64 (inFlight + bytesAcked) window
    { s with recoveryWindow := maxU64 s.minCwnd window }

/-- `isRoundStart`, where bytes were acknowledged, and the new round. -/
def isRoundStart : Bool :=
  s.currentRoundTripEnd < s.ackState.maxPackNo || !isValidPackNo s.currentRoundTripEnd

def startRound : BbrV1 R :=
  if s.isRoundStart then
    { s with roundCount := s.roundCount + 1, currentRoundTripEnd := s.lastSentPackNo }
  else s

/-- The first part of `onEndAck`: the new state, `isRoundStart`,
`minRttExpired` and `excessAcked`. -/
def endAckRound (bytesAcked : UInt64) : BbrV1 R × Bool × Bool × UInt64 :=
  if s.ackState.ackedBytes ≠ 0 then
    let updated := s.startRound.updateBandwidthAndMinRtt reals
    let aggregated :=
      (updated.1.updateRecoveryState s.isRoundStart).updateAckAggregationBytes bytesAcked
    (aggregated.1, s.isRoundStart, updated.2, aggregated.2)
  else (s, false, false, 0)

def onEndAck : Except BbrFault (BbrV1 R) :=
  if !s.flags.inAck then .error .assertion
  else do
    let s := { s with flags := { s.flags with inAck := false }, endAcks := s.endAcks + 1 }
    let bytesAcked := s.bwSampler.totalAcked - s.ackState.totalBytesAckedBefore
    let (s, isRoundStart, minRttExpired, excessAcked) := s.endAckRound reals bytesAcked
    let s ← onlyIf (s.mode = .probeBW) (updateGainCyclePhase reals cenv · inFlight) s
    let s ← onlyIf (isRoundStart && !s.flags.isAtFullBandwidth) (checkIsFullBwReached reals) s
    let s ← s.maybeExitStartupOrDrain reals cenv s.ackState.ackTime inFlight
    let s ← s.maybeEnterOrExitProbeRtt reals cenv s.ackState.ackTime isRoundStart minRttExpired
      inFlight
    let s ← s.calculatePacingRate reals cenv
    let s := s.calculateCwnd reals cenv bytesAcked excessAcked
    return s.calculateRecoveryWindow bytesAcked s.ackState.lostBytes inFlight

-- ==== controller

/-- `PacketInfo` in the widths of the source. -/
def sampled (info : PacketInfo) : SampledPacket :=
  ⟨info.packetNo, .ofNat info.sendTimeUs, .ofNat info.packetSize⟩

/-- `BbrV1` as a controller. After a fault nothing happens any more. -/
def controller : Congestion (Except BbrFault (BbrV1 R)) BWPacketState where
  getCwnd := fun cenv state =>
    match state with
    | .ok s => (s.getCwnd reals cenv).toNat
    | .error _ => 0
  onPacketSent := fun cenv state info packetState inFlight isAppLimited =>
    match state with
    | .ok s =>
      let r := s.onPacketSent reals cenv (sampled info) packetState (.ofNat inFlight)
        isAppLimited
      (.ok r.1, r.2)
    | .error fault => (.error fault, packetState)
  wasQuiet := fun state _ _ => state
  onBeginAck := fun state nowUs inFlight =>
    state.bind fun s => s.onBeginAck (.ofNat nowUs) (.ofNat inFlight)
  onAck := fun _ state info packetState nowUs =>
    (state.bind fun s => s.onAck (sampled info) packetState (.ofNat nowUs), none)
  onLost := fun state info packetState =>
    (state.map fun s => s.onLost (sampled info) packetState, none)
  onEndAck := fun cenv state inFlight =>
    state.bind fun s => s.onEndAck reals cenv (.ofNat inFlight)
  onTimeout := id

end BbrV1

end Eular.Utp
