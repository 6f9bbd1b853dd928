/-
The congestion control of kcp (`kcp_protocol.c`, the `bbr_*` functions): a
BBRv1 in integers, with the window and the pacing rate it sets. What the
functions read of the control block besides, the segment size and the
number of segments in flight, is an argument.
-/
import Eular.Kcp.Segment

namespace Eular.Kcp

-- ==== constants

def KCP_BBR_BW_FILTER_LEN : Nat := 10

def KCP_BBR_STARTUP_GAIN_NUM : Nat := 2885

def KCP_BBR_GAIN_DEN : Nat := 1000

def KCP_BBR_CWND_GAIN_NUM : Nat := 2000

def KCP_BBR_MIN_CWND_PKTS : Nat := 4

def KCP_BBR_MIN_RTT_WIN_US : Nat := 10000000

def KCP_BBR_PROBE_RTT_US : Nat := 200000

/-- `kcp_bbr_probe_bw_gain_cycle`. -/
def bbrProbeBwGainCycle : List Nat := [1250, 750, 1000, 1000, 1000, 1000, 1000, 1000]

inductive KcpBbrMode where
  | STARTUP
  | DRAIN
  | PROBE_BW
  | PROBE_RTT
deriving DecidableEq, Repr

/-- The `bbr_*` fields of `KcpConnection`, with `cwnd` and `incr`, which
only these functions set. -/
structure KcpBbr where
  cwnd : Int
  incr : Nat
  mode : KcpBbrMode := .STARTUP
  cycleIdx : Nat := 0
  fullBwCnt : Nat := 0
  filledPipe : Bool := false
  bwFilter : List Nat := List.replicate KCP_BBR_BW_FILTER_LEN 0
  bwFilterIdx : Nat := 0
  btlbw : Nat := 0
  fullBw : Nat := 0
  minRttUs : Nat := 0
  minRttStamp : Nat := 0
  probeRttDoneStamp : Nat := 0
  cycleStamp : Nat := 0
  delivered : Nat := 0
  deliveredTs : Nat
  pacingGainNum : Nat := KCP_BBR_STARTUP_GAIN_NUM
  cwndGainNum : Nat := KCP_BBR_CWND_GAIN_NUM
  targetCwnd : Nat := KCP_BBR_MIN_CWND_PKTS
  pacingRate : Nat
  pacingCredit : Nat
  lastSendTs : Nat
deriving DecidableEq, Repr

/-- The difference of two 64-bit times. -/
def sub64 (a b : Nat) : Nat := u64 (a + 2 ^ 64 - b)

/-- `bbr_apply_gain_u64`. -/
def bbrApplyGainU64 (value gainNum : Nat) : Nat := u64 (value * gainNum) / KCP_BBR_GAIN_DEN

namespace KcpBbr

/-- `kcp_connection_init`, the part of these fields. -/
def init (mss now : Nat) : KcpBbr where
  cwnd := KCP_BBR_MIN_CWND_PKTS
  incr := u32 (KCP_BBR_MIN_CWND_PKTS * mss)
  deliveredTs := now
  pacingRate := mss * 1000
  pacingCredit := mss * KCP_BBR_MIN_CWND_PKTS
  lastSendTs := now

variable (b : KcpBbr)

/-- `bbr_bdp_bytes`. -/
def bdpBytes (mss gainNum : Nat) : Nat :=
  if b.btlbw = 0 || b.minRttUs = 0 then u64 (mss * KCP_BBR_MIN_CWND_PKTS)
  else bbrApplyGainU64 (u64 (b.btlbw * b.minRttUs) / 1000000) gainNum

/-- `bbr_target_cwnd_pkts`. -/
def targetCwndPkts (mss gainNum : Nat) : Nat :=
  max (u32 (u64 (b.bdpBytes mss gainNum + mss - 1) / mss)) KCP_BBR_MIN_CWND_PKTS

/-- `bbr_set_mode`. -/
def setMode (now : Nat) : KcpBbrMode → KcpBbr
  | .STARTUP =>
    { b with mode := .STARTUP, pacingGainNum := KCP_BBR_STARTUP_GAIN_NUM,
             cwndGainNum := KCP_BBR_CWND_GAIN_NUM }
  | .DRAIN =>
    { b with mode := .DRAIN, pacingGainNum := 347, cwndGainNum := KCP_BBR_CWND_GAIN_NUM }
  | .PROBE_BW =>
    { b with mode := .PROBE_BW, cycleIdx := 0, cycleStamp := now,
             pacingGainNum := bbrProbeBwGainCycle.getD 0 0,
             cwndGainNum := KCP_BBR_CWND_GAIN_NUM }
  | .PROBE_RTT =>
    { b with mode := .PROBE_RTT, probeRttDoneStamp := 0,
             pacingGainNum := KCP_BBR_GAIN_DEN, cwndGainNum := KCP_BBR_GAIN_DEN }

/-- `bbr_update_bw_filter`. -/
def updateBwFilter (sampleBw : Nat) : KcpBbr :=
  if sampleBw = 0 then b
  else
    let bwFilter := b.bwFilter.set b.bwFilterIdx sampleBw
    { b with bwFilter, bwFilterIdx := u8 ((b.bwFilterIdx + 1) % KCP_BBR_BW_FILTER_LEN),
             btlbw := bwFilter.foldl max 0 }

/-- `bbr_check_full_pipe`. -/
def checkFullPipe : KcpBbr :=
  if b.filledPipe || b.btlbw = 0 then b
  else if u64 (b.fullBw * 125) / 100 ≤ b.btlbw then
    { b with fullBw := b.btlbw, fullBwCnt := 0 }
  else
    let fullBwCnt := u8 (b.fullBwCnt + 1)
    { b with fullBwCnt, filledPipe := 3 ≤ fullBwCnt }

/-- `bbr_update_cycle_phase`. -/
def updateCyclePhase (now : Nat) : KcpBbr :=
  if b.mode ≠ .PROBE_BW then b
  else if sub64 now b.cycleStamp < max b.minRttUs 1000 then b
  else
    let cycleIdx := (b.cycleIdx + 1) % 8
    { b with cycleIdx, cycleStamp := now, pacingGainNum := bbrProbeBwGainCycle.getD cycleIdx 0 }

variable (mss : Nat)

/-- The end of `bbr_update_cwnd`: no window below the least one. -/
def atLeastMin (cwnd : Int) : KcpBbr :=
  let cwnd := max cwnd KCP_BBR_MIN_CWND_PKTS
  { b with cwnd, incr := u32 (u32OfInt cwnd * mss) }

/-- `bbr_update_cwnd`. -/
def updateCwnd (mss ackedBytes : Nat) : KcpBbr :=
  let ackedPkts := u32 (u64 (ackedBytes + mss - 1) / mss)
  let target :=
    if b.mode = .PROBE_RTT then KCP_BBR_MIN_CWND_PKTS else b.targetCwndPkts mss b.cwndGainNum
  let cwnd : Nat :=
    if u32OfInt b.cwnd < target then min (u32 (u32OfInt b.cwnd + max ackedPkts 1)) target
    else target
  { b with targetCwnd := target }.atLeastMin mss (i32 cwnd)

/-- `bbr_update_pacing_rate`. -/
def updatePacingRate : KcpBbr :=
  let rate := if 0 < b.btlbw then bbrApplyGainU64 b.btlbw b.pacingGainNum else u64 (mss * 1000)
  { b with pacingRate := max rate (u64 (mss * 100)) }

/-- `bbr_maybe_enter_probe_rtt`. -/
def maybeEnterProbeRtt (now : Nat) : KcpBbr :=
  if b.minRttUs = 0 then b
  else if b.mode = .PROBE_RTT then b
  else if KCP_BBR_MIN_RTT_WIN_US < sub64 now b.minRttStamp then b.setMode now .PROBE_RTT
  else b

/-- `bbr_on_ack`, the smallest round trip. -/
def updateMinRtt (now : Nat) (rttSampleUs : Int) : KcpBbr :=
  if 0 < rttSampleUs && (decide (rttSampleUs < b.minRttUs) || b.minRttUs = 0) then
    { b with minRttUs := u32OfInt rttSampleUs, minRttStamp := now }
  else b

/-- `bbr_on_ack`, the modes that end. -/
def leaveModes (nsndBuf : Int) (now : Nat) : KcpBbr :=
  let b := if b.mode = .STARTUP && b.filledPipe then b.setMode now .DRAIN else b
  let b :=
    if b.mode = .DRAIN && u32OfInt nsndBuf ≤ b.targetCwndPkts mss KCP_BBR_GAIN_DEN then
      b.setMode now .PROBE_BW
    else b
  if b.mode = .PROBE_RTT then
    let b :=
      if b.probeRttDoneStamp = 0 && u32OfInt nsndBuf ≤ KCP_BBR_MIN_CWND_PKTS then
        { b with probeRttDoneStamp := u64 (now + KCP_BBR_PROBE_RTT_US) }
      else b
    if 0 < b.probeRttDoneStamp && b.probeRttDoneStamp ≤ now then
      { b with minRttStamp := now }.setMode now (if b.filledPipe then .PROBE_BW else .STARTUP)
    else b
  else b

/-- `bbr_on_ack`. -/
def onAck (nsndBuf : Int) (now ackedBytes sampleBw : Nat)
    (rttSampleUs : Int) : KcpBbr :=
  if ackedBytes = 0 then b
  else
    let b := (b.updateBwFilter sampleBw).updateMinRtt now rttSampleUs
    let b := (b.maybeEnterProbeRtt now).checkFullPipe.leaveModes mss nsndBuf now
    ((b.updateCyclePhase now).updatePacingRate mss).updateCwnd mss ackedBytes

/-- `bbr_on_loss`, and the bound the flush itself ends with. -/
def onLoss : KcpBbr :=
  if b.cwnd < KCP_BBR_MIN_CWND_PKTS then
    { b with cwnd := KCP_BBR_MIN_CWND_PKTS, incr := u32 (KCP_BBR_MIN_CWND_PKTS * mss) }
  else b

/-- `bbr_rate_sample_for_segment`. -/
def rateSampleForSegment (segment : KcpSegment) (now ackedBefore : Nat) : Nat :=
  if segment.txDeliveredTs = 0 || now ≤ segment.txDeliveredTs then 0
  else
    let delivered := u64 (b.delivered + ackedBefore + segment.len)
    if delivered ≤ segment.txDelivered then 0
    else u64 ((delivered - segment.txDelivered) * 1000000) / (now - segment.txDeliveredTs)

/-- The credit a flush starts with. -/
def refill (mss now : Nat) : KcpBbr :=
  let b := if b.lastSendTs = 0 then { b with lastSendTs := now } else b
  if b.lastSendTs < now then
    let addCredit := u64 (b.pacingRate * (now - b.lastSendTs)) / 1000000
    let maxCredit := max (u64 (mss * 64)) (b.bdpBytes mss KCP_BBR_CWND_GAIN_NUM)
    { b with pacingCredit := min (u64 (b.pacingCredit + addCredit)) maxCredit, lastSendTs := now }
  else b

end KcpBbr

end Eular.Kcp
