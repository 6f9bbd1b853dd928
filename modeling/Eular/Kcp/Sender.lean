/-
The sending half of kcp's control block (`kcpp.c`, `kcp_send`;
`kcp_protocol.c`, `on_kcp_ack_pcaket`).

A message is cut into segments of `mss` bytes, which wait in `snd_queue`
until a flush numbers them and puts them into `snd_buf`. There they stay
until an ACK names them or lies beyond them.

The context has its socket, so that `SOCKET_CLOSED` is never answered.
What `malloc` grants is an input of the call.
-/
import Eular.Kcp.Bbr

namespace Eular.Kcp

/-- The fields of `KcpConnection` the sending side works on. -/
structure KcpSender where
  sndUna : Nat := 0
  sndNxt : Nat := 0
  psnNxt : Nat := 0
  sndWnd : Int := KCP_WND_SND
  rmtWnd : Int := KCP_WND_RCV
  rxRttval : Int := 0
  rxSrtt : Int := 0
  rxRto : Int := KCP_RTO_DEF * 1000
  rxMinrto : Int := KCP_RTO_MIN * 1000
  nsndBuf : Int := 0
  nsndQue : Int := 0
  nsndBufUnused : Int := 0
  sndQueue : List KcpSegment := []
  sndBuf : List KcpSegment := []
  /-- the length of `snd_buf_unused` -/
  sndBufUnused : Nat := 0
  txBytes : Nat := 0
  rtxBytes : Nat := 0
deriving DecidableEq, Repr

-- ==== kcp_send

/-- The loop of `kcp_send` that cuts a message; `i` is the fragment it is
at. -/
def fragments (mss psn fragmentation : Nat) : Nat → Nat → List UInt8 → List KcpSegment
  | 0, _, _ => []
  | n + 1, i, data =>
    { wnd := if i = 0 then fragmentation else 0, frg := i, psn, data := data.take mss }
      :: fragments mss psn fragmentation n (i + 1) (data.drop mss)

/-- `(size + mss - 1) / mss`. -/
def fragmentation (mss size : Nat) : Nat := (size + mss - 1) / mss

namespace KcpSender

variable (s : KcpSender)

/-- `kcp_segment_send_get`, where it gets one: of the free list, or else of
`malloc`. -/
def segmentSendGet : KcpSender :=
  if 0 < s.sndBufUnused then
    { s with sndBufUnused := s.sndBufUnused - 1, nsndBufUnused := i32 (s.nsndBufUnused - 1) }
  else s

/-- `kcp_segment_send_put`. -/
def segmentSendPut : KcpSender :=
  if s.nsndBufUnused < s.sndWnd then
    { s with sndBufUnused := s.sndBufUnused + 1, nsndBufUnused := i32 (s.nsndBufUnused + 1) }
  else s

/-- `kcp_send`, in the state `state` of the connection. An error comes with
what the call leaves. -/
def send (state : KcpConnectionState) (mss : Nat) (data : List UInt8)
    (malloc : Malloc := none) : Except (KcpError × KcpSender) KcpSender :=
  if data.isEmpty then .error (.INVALID_PARAM, s)
  else if KCP_MAX_PACKET_SIZE < data.length then .error (.PACKET_TOO_LARGE, s)
  else if state ≠ .CONNECTED then .error (.INVALID_STATE, s)
  else
    let count := fragmentation mss data.length
    if KCP_PACKET_SIZE < count then .error (.PACKET_TOO_LARGE, s)
    else
      -- the segments there are: those of the free list, and what `malloc` grants
      let got := malloc.elim count fun granted => min count (s.sndBufUnused + granted)
      let s := segmentSendGet^[got] s
      if got < count then .error (.NO_MEMORY, segmentSendPut^[got] s)
      else
        .ok { s with
          sndQueue := s.sndQueue ++ fragments mss s.psnNxt count count 0 data
          nsndQue := i32 (s.nsndQue + count)
          psnNxt := u32 (s.psnNxt + 1) }

-- ==== ACK

/-- What one ACK packet has acknowledged so far. -/
structure AckSample where
  ackedBytes : Nat := 0
  sampleBw : Nat := 0
  rttSampleUs : Int := -1
deriving DecidableEq, Repr

def clamp (x lo hi : Int) : Int := if x < lo then lo else if hi < x then hi else x

/-- The round trip an ACK of `pos` measures, in 32 bits as the source
computes it. -/
def rttOf (pos : KcpSegment) (ack : KcpAckHeader) (now : Nat) : Int :=
  i32 (i32 (i32 now - i32 pos.ts) - i32 (i32 ack.ackTs - i32 ack.packetTs))

def updateRto (interval rtt : Int) : KcpSender :=
  let s :=
    if s.rxSrtt = 0 then { s with rxSrtt := rtt, rxRttval := rtt.tdiv 2 }
    else
      let delta := i32 (rtt - s.rxSrtt)
      { s with
        rxSrtt := (i32 (i32 (s.rxSrtt * 7) + rtt)).tdiv 8
        rxRttval :=
          i32 ((i32 (3 * s.rxRttval) + i32 (if 0 < delta then delta else -delta)).tdiv 4) }
  let rto := i32 (s.rxSrtt + max (i32 (interval * 1000)) (i32 (4 * s.rxRttval)))
  { s with rxRto := clamp rto s.rxMinrto (KCP_RTO_MAX * 1000) }

/-- A segment leaves `snd_buf` for the free list (`HANDLE_SND_BUF`), and
its bytes and its rate are counted. -/
def acknowledge (b : KcpBbr) (now : Nat) (q : KcpSender × AckSample) (pos : KcpSegment) :
    KcpSender × AckSample :=
  let s := q.1
  ({ s with
      txBytes := u64 (s.txBytes + pos.len)
      rtxBytes := if 1 < pos.xmit then u64 (s.rtxBytes + pos.len) else s.rtxBytes
      sndBufUnused := s.sndBufUnused + 1
      nsndBufUnused := i32 (s.nsndBufUnused + 1)
      nsndBuf := i32 (s.nsndBuf - 1) },
    { q.2 with
      sampleBw := max q.2.sampleBw (b.rateSampleForSegment pos now q.2.ackedBytes)
      ackedBytes := u64 (q.2.ackedBytes + pos.len) })

/-- The first loop of `on_kcp_ack_pcaket`, on the segments left of
`snd_buf`: those before `ack.sn` are counted as passed over, the one that
bears it is acknowledged. -/
def ackSn (b : KcpBbr) (interval : Int) (ack : KcpAckHeader) (now : Nat) :
    KcpSender × AckSample → List KcpSegment → (KcpSender × AckSample) × List KcpSegment
  | q, [] => (q, [])
  | q, pos :: rest =>
    if pos.sn < ack.sn then
      let p := ackSn b interval ack now q rest
      (p.1, { pos with fastack := u32 (pos.fastack + 1) } :: p.2)
    else if pos.sn = ack.sn then
      let q :=
        if pos.xmit = 1 then
          let rtt := rttOf pos ack now
          (q.1.updateRto interval rtt,
            { q.2 with rttSampleUs := if 0 < rtt then rtt else q.2.rttSampleUs })
        else q
      (acknowledge b now q pos, rest)
    else (q, pos :: rest)

/-- The second loop: everything before `ack.una` is acknowledged. -/
def ackUna (b : KcpBbr) (una now : Nat) :
    KcpSender × AckSample → List KcpSegment → (KcpSender × AckSample) × List KcpSegment
  | q, [] => (q, [])
  | q, pos :: rest =>
    if pos.sn < una then ackUna b una now (acknowledge b now q pos) rest
    else (q, pos :: rest)

/-- The free list shrinks to the window; the counter keeps what it had. -/
def shrinkUnused : KcpSender :=
  { s with sndBufUnused := s.sndBufUnused - (i32 (s.nsndBufUnused - s.sndWnd)).toNat }

/-- `on_kcp_ack_pcaket`, past the check of the state and the update of the
keepalive. -/
def onAck (s : KcpSender) (b : KcpBbr) (mss : Nat) (interval : Int) (ack : KcpAckHeader)
    (now : Nat) : KcpSender × KcpBbr :=
  if ack.sn < s.sndUna then (s, b)
  else if s.sndNxt < ack.sn then (s, b)
  else
    let p := ackSn b interval ack now (s, {}) s.sndBuf
    let p := ackUna b ack.una now p.1 p.2
    let s := { p.1.1 with sndBuf := p.2 }.shrinkUnused
    let s := { s with sndUna := match s.sndBuf with | [] => s.sndNxt | first :: _ => first.sn }
    let sample := p.1.2
    if sample.ackedBytes = 0 then (s, b)
    else
      let b := { b with delivered := u64 (b.delivered + sample.ackedBytes), deliveredTs := now }
      (s, b.onAck mss s.nsndBuf now sample.ackedBytes sample.sampleBw sample.rttSampleUs)

end KcpSender

end Eular.Kcp
