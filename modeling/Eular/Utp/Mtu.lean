/-
Path MTU discovery (`mtu/mtu.{h,cpp}`).

One probe is in flight at a time: a packet larger than what is known to
get through, remembered by its number. Its acknowledgement raises the
lower bound of the search, its loss or the passing of its deadline
lowers the upper one. Losses of large data packets end in a fallback to
the smallest MTU, which also forgets the probe.

Sizes are 16-bit fields; a sum the source casts back to `uint16_t` is
reduced here too.
-/
import Mathlib

namespace Eular.Utp

def clampValue (value minValue maxValue : Nat) : Nat :=
  if value < minValue then minValue else if maxValue < value then maxValue else value

/-- The steps of the first phase; `binary` is the second. -/
def kProbeLadderMtu : List Nat := [1380, 1450, 1492, 1500]

inductive ProbePhase where
  | ladder
  | binary
  | stable
deriving DecidableEq, Repr

/-- `MtuDiscovery`, with its defaults. -/
structure MtuDiscovery where
  enabled : Bool := true
  /-- `m_family == IPv6`. -/
  ipv6 : Bool := false
  mtuMin : Nat := 1280
  mtuMax : Nat := 1500
  mtuBase : Nat := 1400
  probeStep : Nat := 16
  probeIntervalMs : Nat := 300000
  probeTimeoutMs : Nat := 2000
  blackholeLossThreshold : Nat := 3
  blackholeLossWindowMs : Nat := 3000
  blackholeCooldownMs : Nat := 5000
  currentMtu : Nat := 1400
  ceilingMtu : Nat := 1500
  searchLowMtu : Nat := 1400
  searchHighMtu : Nat := 1500
  probePhase : ProbePhase := .ladder
  nextProbeTimeMs : Nat := 0
  lastLargeAckMs : Nat := 0
  lastLargeLossMs : Nat := 0
  blackholeCooldownUntilMs : Nat := 0
  largeLossStreak : Nat := 0
  hasInFlightProbe : Bool := false
  inFlightProbePackNo : UInt64 := 0
  inFlightProbeMtu : Nat := 0
  inFlightProbeDeadlineMs : Nat := 0
deriving DecidableEq, Repr

namespace MtuDiscovery

def packetSizeFromMtu (mtu : Nat) (ipv6 : Bool) : Nat := mtu - ((if ipv6 then 40 else 20) + 8)

variable (m : MtuDiscovery)

/-- `currentMaxPacketSize`, `absoluteMaxPacketSize`. -/
def currentMaxPacketSize : Nat := packetSizeFromMtu m.currentMtu m.ipv6
def absoluteMaxPacketSize : Nat := packetSizeFromMtu m.ceilingMtu m.ipv6

def clearInFlightProbe : MtuDiscovery :=
  { m with hasInFlightProbe := false, inFlightProbePackNo := 0, inFlightProbeMtu := 0,
           inFlightProbeDeadlineMs := 0 }

/-- The first step above what is known to pass. -/
def nextLadderTarget : Nat :=
  (kProbeLadderMtu.find? fun ladder =>
    m.searchLowMtu < ladder && ladder ≤ m.ceilingMtu && ladder ≤ m.mtuMax
      && m.mtuMin ≤ ladder).getD m.searchLowMtu

/-- The middle between what passes and what does not. -/
def nextBinaryTarget : Nat :=
  if m.searchHighMtu ≤ m.searchLowMtu + m.probeStep then m.searchLowMtu
  else
    let low := (m.searchLowMtu + 1) % 2 ^ 16
    let high := m.searchHighMtu
    if high ≤ low then m.searchLowMtu
    else
      let mid := (low + (high - low) / 2) % 2 ^ 16
      if mid ≤ m.searchLowMtu then m.searchLowMtu else clampValue mid low high

def nextProbeMtu : Nat :=
  if !m.enabled || m.ceilingMtu ≤ m.searchLowMtu then m.searchLowMtu
  else
    match m.probePhase with
    | .ladder =>
      if m.searchLowMtu < m.nextLadderTarget then m.nextLadderTarget
      else if m.searchLowMtu < m.nextBinaryTarget then m.nextBinaryTarget
      else m.searchLowMtu
    | .binary =>
      if m.searchLowMtu < m.nextBinaryTarget then m.nextBinaryTarget else m.searchLowMtu
    | .stable => m.searchLowMtu

def shouldProbe (nowMs : Nat) : Bool :=
  m.enabled && !m.hasInFlightProbe && m.blackholeCooldownUntilMs ≤ nowMs
    && m.nextProbeTimeMs ≤ nowMs && m.searchLowMtu < m.nextProbeMtu

variable (packNo : UInt64)

def onProbeSent (probeMtu nowMs : Nat) : MtuDiscovery :=
  let clampedProbe := clampValue probeMtu ((m.searchLowMtu + 1) % 2 ^ 16) m.ceilingMtu
  if !m.enabled || packNo = 0 then m
  else if clampedProbe ≤ m.searchLowMtu then m
  else
    let ladderTarget := m.nextLadderTarget
    { m with
      hasInFlightProbe := true
      probePhase :=
        if m.probePhase = .ladder
            && (ladderTarget = m.searchLowMtu || clampedProbe ≠ ladderTarget) then .binary
        else m.probePhase
      inFlightProbePackNo := packNo
      inFlightProbeMtu := clampedProbe
      inFlightProbeDeadlineMs := nowMs + m.probeTimeoutMs }

/-- The probe `packNo` is the one in flight. -/
def probing : Bool :=
  m.hasInFlightProbe && packNo = m.inFlightProbePackNo

variable (nowMs : Nat)

/-- `onProbeAck`, when the probe is the one in flight. -/
def probeAcked : MtuDiscovery :=
  let m : MtuDiscovery := { m with
    searchLowMtu := max m.searchLowMtu m.inFlightProbeMtu
    lastLargeAckMs := nowMs
    largeLossStreak := 0 }.clearInFlightProbe
  let m : MtuDiscovery :=
    if m.probePhase = .ladder && m.nextLadderTarget ≤ m.searchLowMtu then
      { m with probePhase := .binary }
    else m
  if m.mtuMax ≤ m.searchLowMtu then
    { m with
      currentMtu := m.mtuMax, ceilingMtu := m.mtuMax, searchLowMtu := m.mtuMax,
      searchHighMtu := m.mtuMax, probePhase := .stable,
      nextProbeTimeMs := nowMs + m.probeIntervalMs }
  else if m.probePhase = .binary
      && m.searchHighMtu ≤ (m.searchLowMtu + m.probeStep) % 2 ^ 16 then
    { m with
      currentMtu := m.searchLowMtu, ceilingMtu := m.searchLowMtu, probePhase := .stable,
      nextProbeTimeMs := nowMs + m.probeIntervalMs }
  else { m with nextProbeTimeMs := nowMs + 1 }

def onProbeAck : MtuDiscovery :=
  if m.probing packNo then m.probeAcked nowMs else m

/-- `onProbeLost`, when the probe is the one in flight. -/
def probeLost : MtuDiscovery :=
  let m : MtuDiscovery :=
    if 0 < m.inFlightProbeMtu then
      let searchHighMtu := min m.searchHighMtu (m.inFlightProbeMtu - 1)
      { m with
        searchHighMtu, ceilingMtu := min m.ceilingMtu searchHighMtu, probePhase := .binary }
    else m
  let m := m.clearInFlightProbe
  if m.searchHighMtu ≤ (m.searchLowMtu + m.probeStep) % 2 ^ 16 then
    { m with
      currentMtu := m.searchLowMtu, ceilingMtu := m.searchLowMtu, probePhase := .stable,
      nextProbeTimeMs := nowMs + m.probeIntervalMs }
  else { m with nextProbeTimeMs := nowMs + 1 }

def onProbeLost : MtuDiscovery :=
  if m.probing packNo then m.probeLost nowMs else m

def onProbeTimeout : MtuDiscovery :=
  if !m.hasInFlightProbe || nowMs < m.inFlightProbeDeadlineMs then m
  else m.onProbeLost m.inFlightProbePackNo nowMs

def onDataPacketAck (packetSize nowMs : Nat) : MtuDiscovery :=
  if !m.enabled || packetSize + m.probeStep < m.currentMaxPacketSize then m
  else { m with lastLargeAckMs := nowMs, largeLossStreak := 0 }

/-- Large data packets that are lost in a row are a black hole. -/
def onDataPacketLoss (packetSize nowMs : Nat) : MtuDiscovery :=
  if !m.enabled || packetSize + m.probeStep < m.currentMaxPacketSize then m
  else
    let streak :=
      if m.lastLargeLossMs = 0 || m.lastLargeLossMs + m.blackholeLossWindowMs < nowMs then 0
      else m.largeLossStreak
    let streak := if streak < 255 then streak + 1 else streak
    let m := { m with lastLargeLossMs := nowMs, largeLossStreak := streak }
    if streak < m.blackholeLossThreshold then m
    else if m.lastLargeAckMs ≠ 0 && nowMs ≤ m.lastLargeAckMs + m.probeTimeoutMs * 2 then m
    else
      { m with
        currentMtu := m.mtuMin
        ceilingMtu := m.mtuMax
        probePhase := .ladder
        searchLowMtu := m.mtuMin
        searchHighMtu := m.mtuMax
        blackholeCooldownUntilMs := nowMs + m.blackholeCooldownMs
        nextProbeTimeMs := nowMs + m.blackholeCooldownMs
        largeLossStreak := 0 }.clearInFlightProbe

end MtuDiscovery

-- ==== life cycle

/-- What `init` reads of `Config`; a missing one reads as the defaults. -/
structure MtuConfig where
  enableDplpmtud : Bool := true
  mtuMin : UInt16 := 1280
  mtuMax : UInt16 := 1500
  mtuBase : UInt16 := 1400
  mtuProbeInterval : UInt32 := 300
  mtuProbeStep : UInt16 := 16
  mtuProbeTimeout : UInt16 := 2000
  mtuBlackholeLossThreshold : UInt8 := 3
  mtuBlackholeLossWindowMs : UInt16 := 3000
  mtuBlackholeCooldownMs : UInt16 := 5000
deriving DecidableEq, Repr

namespace MtuDiscovery

/-- `MinimumSupportedMtu`: the headers and one byte. -/
def minimumSupportedMtu (ipv6 : Bool) : Nat := (if ipv6 then 40 else 20) + 8 + 20 + 1

def normalizeMtu (mtu : Nat) (ipv6 : Bool) : Nat := clampValue mtu (minimumSupportedMtu ipv6) 1500

/-- A setting, or its default where it is zero. -/
def orDefault (setting default : Nat) : Nat := if setting = 0 then default else setting

def init (cfg : MtuConfig) (ipv6 : Bool) : MtuDiscovery :=
  let mtuMin := normalizeMtu cfg.mtuMin.toNat ipv6
  let mtuMax := clampValue cfg.mtuMax.toNat mtuMin 1500
  let mtuBase := clampValue cfg.mtuBase.toNat mtuMin mtuMax
  { enabled := cfg.enableDplpmtud
    ipv6, mtuMin, mtuMax, mtuBase
    probeStep := orDefault cfg.mtuProbeStep.toNat 16
    probeIntervalMs := max 1000 (cfg.mtuProbeInterval.toNat * 1000 % 2 ^ 32)
    probeTimeoutMs := orDefault cfg.mtuProbeTimeout.toNat 2000
    blackholeLossThreshold := orDefault cfg.mtuBlackholeLossThreshold.toNat 3
    blackholeLossWindowMs := orDefault cfg.mtuBlackholeLossWindowMs.toNat 3000
    blackholeCooldownMs := orDefault cfg.mtuBlackholeCooldownMs.toNat 5000
    currentMtu := mtuBase
    ceilingMtu := mtuMax
    searchLowMtu := mtuBase
    searchHighMtu := mtuMax }

/-- A new path is searched from the base MTU. -/
def onPathValidated (m : MtuDiscovery) (nowMs : Nat) : MtuDiscovery :=
  let m : MtuDiscovery := { m with
    currentMtu := m.mtuBase
    lastLargeAckMs := 0
    lastLargeLossMs := 0
    largeLossStreak := 0
    blackholeCooldownUntilMs := 0
    searchLowMtu := m.mtuBase
    nextProbeTimeMs := nowMs }.clearInFlightProbe
  if !m.enabled then
    { m with ceilingMtu := m.mtuBase, searchHighMtu := m.mtuBase, probePhase := .stable }
  else { m with ceilingMtu := m.mtuMax, searchHighMtu := m.mtuMax, probePhase := .ladder }

def setAddressFamily (m : MtuDiscovery) (ipv6 : Bool) : MtuDiscovery := { m with ipv6 }

end MtuDiscovery

/-- A call of `MtuDiscovery`, after `init`. -/
inductive MtuOp where
  | pathValidated (nowMs : Nat)
  | setAddressFamily (ipv6 : Bool)
  | probeSent (packNo : UInt64) (probeMtu nowMs : Nat)
  | probeAck (packNo : UInt64) (nowMs : Nat)
  | probeLost (packNo : UInt64) (nowMs : Nat)
  | probeTimeout (nowMs : Nat)
  | dataPacketAck (packetSize nowMs : Nat)
  | dataPacketLoss (packetSize nowMs : Nat)
deriving DecidableEq, Repr

def MtuDiscovery.step (m : MtuDiscovery) : MtuOp → MtuDiscovery
  | .pathValidated nowMs => m.onPathValidated nowMs
  | .setAddressFamily ipv6 => m.setAddressFamily ipv6
  | .probeSent packNo probeMtu nowMs => m.onProbeSent packNo probeMtu nowMs
  | .probeAck packNo nowMs => m.onProbeAck packNo nowMs
  | .probeLost packNo nowMs => m.onProbeLost packNo nowMs
  | .probeTimeout nowMs => m.onProbeTimeout nowMs
  | .dataPacketAck packetSize nowMs => m.onDataPacketAck packetSize nowMs
  | .dataPacketLoss packetSize nowMs => m.onDataPacketLoss packetSize nowMs

end Eular.Utp
