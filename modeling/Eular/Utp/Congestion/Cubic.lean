/-
CUBIC (`congestion/cubic.{h,cpp}`).

The window is a number of bytes. It grows with every packet that is
acknowledged, is multiplied by `m_beta` with every packet that is reported
lost, and falls to its minimum when the retransmission timer backs off.

# The real numbers

`CubicReals` is the floating-point arithmetic: the two products of a loss,
of which it is only known that they do not exceed the window, and the
curve, of which nothing is. The whole numbers are 64 bits wide. The sums
stay far below the bound, so only the product of `cubicIncrement`, whose
factor comes from the curve, is cut off.
-/
import Eular.Utp.Congestion.Congestion

namespace Eular.Utp

open Lib

namespace Cubic

/-- `kDefaultMss`, `kMaxCwnd`. -/
def kDefaultMss : Nat := 1460
def kMaxCwnd : Nat := 2000 * kDefaultMss

end Cubic

/-- The floating-point arithmetic, `R` being the type of `m_k`. -/
structure CubicReals (R : Type) where
  zero : R
  /-- `std::cbrt(deltaPackets / m_cubicC)`, from `m_lastMaxCwnd` and `m_cwnd`. -/
  cbrt : Nat → Nat → R
  /-- `targetBytes`, from `m_k`, the time, the start of the epoch, the round
  trip time and `m_originPointCwnd`. -/
  targetBytes : R → Nat → Nat → Nat → Nat → Nat
  /-- `m_cwnd * m_beta`. -/
  timesBeta : Nat → Nat
  timesBeta_le : ∀ x, timesBeta x ≤ x
  /-- `(m_cwnd * (2.0 - m_beta)) / 2.0`. -/
  betweenMax : Nat → Nat
  betweenMax_le : ∀ x, betweenMax x ≤ x

/-- What the constructor reads of `Config`, besides `cubic_beta` and
`cubic_c`. -/
structure CubicConfig where
  cubicInitCwndMss : Nat := 32
  cubicMinCwndMss : Nat := 4
deriving DecidableEq, Repr

structure Cubic (R : Type) where
  cwnd : Nat
  ssthresh : Nat
  ackedBytes : Nat
  epochStartUs : Nat
  lastMaxCwnd : Nat
  originPointCwnd : Nat
  k : R
  initCwnd : Nat
  minCwnd : Nat
  /-- No field of the source: how often `onLost` multiplied the window. -/
  reductions : Nat := 0

namespace Cubic

variable {R : Type} (reals : CubicReals R)

/-- `m_minCwnd` and `m_initCwnd`, as the constructor sets them. -/
def configMinCwnd (cfg : CubicConfig) : Nat :=
  min (max 1 cfg.cubicMinCwndMss * kDefaultMss) kMaxCwnd

def configInitCwnd (cfg : CubicConfig) : Nat :=
  min (max (max 1 cfg.cubicInitCwndMss * kDefaultMss) (configMinCwnd cfg)) kMaxCwnd

/-- The constructor and `onInit`. -/
def init (cfg : CubicConfig) : Cubic R where
  cwnd := configInitCwnd cfg
  ssthresh := kMaxCwnd
  ackedBytes := 0
  epochStartUs := 0
  lastMaxCwnd := 0
  originPointCwnd := 0
  k := reals.zero
  initCwnd := configInitCwnd cfg
  minCwnd := configMinCwnd cfg

variable (cenv : CongestionEnv)

def smoothedRttUs : Nat :=
  if 0 < cenv.srtt then max 1000 cenv.srtt else 25000

variable (c : Cubic R)

def resetEpoch : Cubic R :=
  { c with epochStartUs := 0, originPointCwnd := 0, k := reals.zero, ackedBytes := 0 }

def ensureEpoch (nowUs : Nat) : Cubic R :=
  if c.epochStartUs ≠ 0 then c
  else if c.cwnd < c.lastMaxCwnd then
    { c with epochStartUs := nowUs, originPointCwnd := c.lastMaxCwnd,
             k := reals.cbrt c.lastMaxCwnd c.cwnd }
  else { c with epochStartUs := nowUs, originPointCwnd := c.cwnd, k := reals.zero }

def cubicTargetCwnd (nowUs : Nat) : Nat :=
  if c.epochStartUs = 0 then c.cwnd
  else max c.minCwnd
    (reals.targetBytes c.k nowUs c.epochStartUs (smoothedRttUs cenv) c.originPointCwnd)

def cubicIncrement (ackedBytes nowUs : Nat) : Nat :=
  if ackedBytes = 0 then 0
  else
    let target := c.cubicTargetCwnd reals cenv nowUs
    let cwnd := max c.cwnd 1
    if target ≤ cwnd then max 1 (ackedBytes * kDefaultMss / (cwnd * 100))
    else max 1 (ackedBytes * (target - cwnd) % 2 ^ 64 / cwnd)

def renoIncrement (ackedBytes : Nat) : Nat :=
  if ackedBytes = 0 then 0 else max 1 (ackedBytes * kDefaultMss / max c.cwnd 1)

def onAck (info : PacketInfo) (nowUs : Nat) : Cubic R :=
  let acked := max info.packetSize 1
  let c := { c with ackedBytes := c.ackedBytes + acked }
  if c.cwnd < c.ssthresh then { c with cwnd := min (c.cwnd + acked) kMaxCwnd }
  else
    let c := c.ensureEpoch reals nowUs
    let inc := max (c.cubicIncrement reals cenv acked nowUs) (c.renoIncrement acked)
    { c with cwnd := min (c.cwnd + inc) kMaxCwnd }

def onLost : Cubic R :=
  let cwnd := max (reals.timesBeta c.cwnd) c.minCwnd
  { c with
    lastMaxCwnd := if c.cwnd < c.lastMaxCwnd then reals.betweenMax c.cwnd else c.cwnd
    cwnd
    ssthresh := cwnd
    reductions := c.reductions + 1 }.resetEpoch reals

def wasQuiet (inFlight : Nat) : Cubic R :=
  if inFlight = 0 then c.resetEpoch reals else c

def onTimeout : Cubic R :=
  { c with
    lastMaxCwnd := c.cwnd
    ssthresh := max (reals.timesBeta c.cwnd) c.minCwnd
    cwnd := c.minCwnd }.resetEpoch reals

/-- `Cubic` as a controller; it hangs nothing on a packet. -/
def controller : Congestion (Cubic R) Unit where
  getCwnd := fun _ c => c.cwnd
  onPacketSent := fun _ c _ packetState _ _ => (c, packetState)
  wasQuiet := fun c _ inFlight => c.wasQuiet reals inFlight
  onBeginAck := fun c _ _ => c
  onAck := fun cenv c info packetState nowUs => (c.onAck reals cenv info nowUs, packetState)
  onLost := fun c _ packetState => (c.onLost reals, packetState)
  onEndAck := fun _ c _ => c
  onTimeout := onTimeout reals

end Cubic

end Eular.Utp
