/-
The flush of a connection (`on_kcp_write_timeout`): the ACKs and the other
headers first, then the segments the window has room for, then whatever of
`snd_buf` is due, packed into datagrams.

What the socket answers to a call of `kcp_send_packet` is an input. The
part of a call's datagrams it takes is on the network from then on; whether
the call failed decides how the flush goes on.
-/
import Eular.Kcp.Connection

namespace Eular.Kcp

-- ==== socket

/-- How a call of `kcp_send_packet` ends: without an error, or with one
that `errno` tells apart. -/
inductive SendStatus where
  | sent
  | again
  | failed
deriving DecidableEq, Repr

/-- A call's answer, and how many of its datagrams the socket took. -/
structure SendOutcome where
  accepted : Nat
  status : SendStatus
deriving DecidableEq, Repr

/-- The socket during one flush: the answers to come (when there are none
left it takes everything), what it was offered and what it took. -/
structure Wire where
  outcomes : List SendOutcome
  offered : List Datagram := []
  sent : List Datagram := []
deriving DecidableEq, Repr

/-- `kcp_send_packet`. -/
def Wire.send (w : Wire) (datagrams : List Datagram) : Wire × SendStatus :=
  match w.outcomes with
  | [] => ({ w with offered := w.offered ++ datagrams, sent := w.sent ++ datagrams }, .sent)
  | o :: rest =>
    ({ outcomes := rest
       offered := w.offered ++ datagrams
       sent := w.sent ++ datagrams.take o.accepted }, o.status)

-- ==== headers

/-- The datagram of headers being filled, and the command byte the header
buffer holds from the header before. -/
structure HeaderBuffer where
  wire : Wire
  buffer : Datagram := []
  cmd : Nat := 0
deriving DecidableEq, Repr

namespace HeaderBuffer

/-- The buffer is sent; nobody looks at the answer. -/
def sendBuffer (h : HeaderBuffer) : HeaderBuffer :=
  { h with wire := (h.wire.send [h.buffer]).1, buffer := [] }

/-- The buffer is sent when another header does not fit. -/
def makeRoom (mtu : Nat) (h : HeaderBuffer) : HeaderBuffer :=
  if mtu < datagramSize h.buffer + KCP_HEADER_SIZE then h.sendBuffer else h

def putAck (mtu wnd una now : Nat) (h : HeaderBuffer) (pos : KcpAck) : HeaderBuffer :=
  { h with
    buffer := h.buffer
      ++ [KcpPacket.ack { wnd, packetTs := pos.ts, ackTs := now, sn := pos.sn, una }]
    cmd := h.cmd ||| KCP_CMD_ACK }.makeRoom mtu

def putControl (mtu cmd wnd packetTs ts sn : Nat) (h : HeaderBuffer) : HeaderBuffer :=
  let h := h.makeRoom mtu
  { h with buffer := h.buffer ++ [KcpPacket.control (h.cmd ||| cmd) wnd packetTs ts sn]
           cmd := h.cmd ||| cmd }

def finish (h : HeaderBuffer) : HeaderBuffer := if h.buffer.isEmpty then h else h.sendBuffer

end HeaderBuffer

namespace KcpConnection

variable (c : KcpConnection) (now : Nat)

def windowProbe : KcpConnection :=
  if c.snd.rmtWnd = 0 then
    if c.probeWait = 0 then
      { c with probeWait := 1, winTsProbe := u32 (now + KCP_PROBE_INIT) }
    else if c.winTsProbe ≤ now then
      let probeWait := min (u32 (c.probeWait + c.probeWait / 2)) KCP_PROBE_LIMIT
      { c with probeWait, winTsProbe := u32 (now + probeWait),
               probe := { c.probe with askSend := true } }
    else c
  else { c with winTsProbe := 0, probeWait := 0 }

/-- The ACKs, as far as they are put into the buffer. -/
def flushAcks (wire : Wire) : HeaderBuffer :=
  c.rcv.ackItem.foldl
    (HeaderBuffer.putAck c.mtu (u16OfInt c.rcv.wndUnused) c.rcv.rcvNxt now) { wire }

def flushProbes (h : HeaderBuffer) : HeaderBuffer :=
  let h := if c.probe.askSend then h.putControl c.mtu KCP_CMD_WASK 0 now 0 0 else h
  if c.probe.askTell then
    h.putControl c.mtu KCP_CMD_WINS (u16OfInt c.rcv.wndUnused) now 0 0
  else h

/-- PING, when it is due, and PONG. -/
def flushPings (xxh64 : Nat → Nat) (c : KcpConnection) (now : Nat) (h : HeaderBuffer) :
    KcpConnection × HeaderBuffer :=
  let q :=
    if c.ping.keepaliveNextTs < now then
      ({ c with ping := c.ping.sendPing xxh64 now },
        h.putControl c.mtu KCP_CMD_PING 0 0 now (xxh64 now))
    else (c, h)
  if c.probe.pingRecv then
    (q.1, q.2.putControl c.mtu KCP_CMD_PONG 0 q.1.ping.keepalivePacketTs now q.1.ping.keepaliveSn)
  else q

-- ==== window

/-- `MIN(snd_wnd, rmt_wnd)`, and the congestion window unless it is off. -/
def sendWindow : Int :=
  let cwnd := min c.snd.sndWnd c.snd.rmtWnd
  if c.nocwnd = 0 then min cwnd c.bbr.cwnd else cwnd

/-- A segment as it enters `snd_buf`. -/
def numberSegment (segment : KcpSegment) : KcpSegment :=
  { segment with
    wnd := if 0 < segment.frg then u32OfInt c.rcv.wndUnused else segment.wnd
    ts := now
    sn := c.snd.sndNxt
    una := c.rcv.rcvNxt
    rto := u32OfInt c.snd.rxRto
    resendts := now
    fastack := 0
    xmit := 0
    txDelivered := c.bbr.delivered
    txDeliveredTs := if 0 < c.bbr.deliveredTs then c.bbr.deliveredTs else now }

/-- Segments go from `snd_queue` to `snd_buf` while the window has room. -/
def fillWindow (now : Nat) (c : KcpConnection) : List KcpSegment → KcpConnection
  | [] => { c with snd := { c.snd with sndQueue := [] } }
  | segment :: rest =>
    if (c.snd.sndNxt : Int) - (c.snd.sndUna + c.sendWindow) < 0 then
      fillWindow now
        { c with snd := { c.snd with
            sndBuf := c.snd.sndBuf ++ [c.numberSegment now segment]
            sndNxt := u32 (c.snd.sndNxt + 1)
            nsndQue := i32 (c.snd.nsndQue - 1)
            nsndBuf := i32 (c.snd.nsndBuf + 1) } } rest
    else { c with snd := { c.snd with sndQueue := segment :: rest } }

-- ==== segments

/-- How a flush ends. `hangs` is the packing loop that finds no buffer
large enough. -/
inductive FlushExit where
  | done
  | notDue
  | keepalive
  | tooManyRetrans
  | tryAgain
  | writeError
  | hangs
deriving DecidableEq, Repr

/-- The packing loop: the pacing credit, what it has noted, the caches that
are full, the one being filled, and how it was left, if it was. -/
structure Packing where
  credit : Nat
  packetLost : Bool := false
  needFlush : Bool := false
  full : List Datagram := []
  cache : Datagram := []
  wire : Wire
  exit : Option FlushExit := none
deriving DecidableEq, Repr

/-- The datagrams are sent; a call that fails ends the flush. -/
def Packing.send (p : Packing) (datagrams : List Datagram) : Packing :=
  let q := p.wire.send datagrams
  { p with wire := q.1, exit := match q.2 with
      | .sent => p.exit
      | .again => some .tryAgain
      | .failed => some .writeError }

/-- `kcp_segment_encode` into the cache, or into the next one. -/
def Packing.put (mtu : Nat) (p : Packing) (pos : KcpSegment) : Packing :=
  let packet := KcpPacket.push pos.encode
  if datagramSize p.cache + (KCP_HEADER_SIZE + pos.len) ≤ mtu then
    { p with cache := p.cache ++ [packet] }
  else
    let p := { p with full := p.full ++ [p.cache], cache := [] }
    let p :=
      if KCP_PACKET_COUNT ≤ p.full.length then { p.send p.full with full := [] } else p
    if p.exit.isSome then p
    else if KCP_HEADER_SIZE + pos.len ≤ mtu then { p with cache := [packet] }
    else { p with exit := some .hangs }

/-- What a flush decides about one segment of `snd_buf`. -/
structure Choice where
  pos : KcpSegment
  credit : Nat
  needSend : Bool := false
  isRetransmit : Bool := false
  packetLost : Bool := false
deriving DecidableEq, Repr

/-- First transmission, timeout, or fast retransmission. -/
def choose (now credit : Nat) (pos : KcpSegment) : Choice :=
  let resent := if 0 < c.fastresend then u32OfInt c.fastresend else 2 ^ 32 - 1
  let rtomin := if c.nodelay = 0 then u32OfInt (c.snd.rxRto / 8) else 0
  if pos.xmit = 0 then
    if pos.len ≤ credit then
      let rto := u32OfInt c.snd.rxRto
      { pos := { pos with xmit := 1, rto, resendts := u64 (now + rto + rtomin) }
        credit := credit - pos.len
        needSend := true }
    else { pos, credit }
  else if pos.resendts ≤ now then
    let rto :=
      if c.nodelay = 0 then max pos.rto (u32OfInt c.snd.rxRto)
      else
        let step := if c.nodelay < 2 then i32 pos.rto else c.snd.rxRto
        u32OfInt (pos.rto + step.tdiv 2)
    { pos := { pos with xmit := u32 (pos.xmit + 1), rto, resendts := u64 (now + rto) }
      credit
      needSend := true
      isRetransmit := true
      packetLost := true }
  else if resent ≤ pos.fastack
      && (pos.xmit ≤ u32OfInt c.fastlimit || decide (c.fastlimit ≤ 0)) then
    { pos := { pos with
        xmit := u32 (pos.xmit + 1), resendts := u64 (now + pos.rto), fastack := 0 }
      credit
      needSend := true
      isRetransmit := true }
  else { pos, credit }

/-- What is decided about a segment is noted. -/
def note (p : Packing) (d : Choice) : Packing :=
  { p with credit := d.credit, packetLost := p.packetLost || d.packetLost }

/-- A retransmission takes its bytes off the credit, if they are there. -/
def pay (p : Packing) (d : Choice) : Packing :=
  { p with
    credit := if d.isRetransmit && d.pos.len ≤ p.credit then p.credit - d.pos.len else p.credit
    needFlush := true }

/-- The loop over `snd_buf`; what it is left early at stays as it was. -/
def transmit (c : KcpConnection) (now : Nat) : Packing → List KcpSegment → Packing × List KcpSegment
  | p, [] => (p, [])
  | p, pos :: rest =>
    let d := c.choose now p.credit pos
    let p := note p d
    if KCP_RETRANSMISSION_MAX < d.pos.xmit then
      ({ p with exit := some .tooManyRetrans }, d.pos :: rest)
    else if d.needSend then
      let p := (pay p d).put c.mtu d.pos
      if p.exit.isSome then (p, d.pos :: rest)
      else
        let q := transmit c now p rest
        (q.1, d.pos :: q.2)
    else
      let q := transmit c now p rest
      (q.1, d.pos :: q.2)

/-- The rest of the packed datagrams. -/
def sendRest (p : Packing) : Packing :=
  if p.exit.isNone && p.needFlush then p.send (p.full ++ [p.cache]) else p

-- ==== flush

structure Flushed where
  conn : KcpConnection
  wire : Wire
  events : List KcpEvent
  exit : FlushExit
deriving DecidableEq, Repr

/-- The part of a flush before the segments, past its two early returns.
When the keepalive has run out (the last component), what is in the buffer
is not sent any more. -/
def flushHeaders (xxh64 : Nat → Nat) (c : KcpConnection) (now : Nat) (wire : Wire) :
    HeaderBuffer × KcpConnection × Bool :=
  let h := c.flushAcks now wire
  let c := { c.windowProbe now with rcv := { c.rcv with ackItem := [] } }
  let h := c.flushProbes now h
  let k := c.ping.onPingTimeout now
  let c := { c with ping := k.1 }
  if k.2 then (h, { c with state := .DISCONNECTED }, true)
  else
    let q := flushPings xxh64 c now h
    (q.2.finish, { q.1 with probe := {} }, false)

/-- The part of a flush that sends segments. -/
def flushSegments (wire : Wire) : Flushed :=
  let c := fillWindow now c c.snd.sndQueue
  let c := { c with bbr := c.bbr.refill c.mss now }
  let q := c.transmit now { credit := c.bbr.pacingCredit, wire } c.snd.sndBuf
  let p := sendRest q.1
  let c := { c with
    snd := { c.snd with sndBuf := q.2 }
    bbr := { c.bbr with pacingCredit := p.credit } }
  match p.exit with
  | none =>
    let c := { c with
      bbr := c.bbr.onLoss c.mss
      tsFlush := u64 (now / 1000 + u64OfInt c.interval) }
    ⟨c, p.wire, [.write (i32 (c.snd.sndWnd - c.snd.nsndBuf))], .done⟩
  | some .tooManyRetrans =>
    ⟨{ c with state := .DISCONNECTED }, p.wire, [.error .TOO_MANY_RETRANS], .tooManyRetrans⟩
  | some exit => ⟨c, p.wire, [], exit⟩

/-- `on_kcp_write_timeout`, at the time `now` and with what the socket will
answer. -/
def flush (xxh64 : Nat → Nat) (c : KcpConnection) (now : Nat) (outcomes : List SendOutcome) :
    Flushed :=
  if c.state ≠ .CONNECTED || now / 1000 < c.tsFlush then ⟨c, { outcomes }, [], .notDue⟩
  else
    let q := flushHeaders xxh64 c now { outcomes }
    if q.2.2 then ⟨q.2.1, q.1.wire, [.error .KEEPALIVE_ERROR], .keepalive⟩
    else q.2.1.flushSegments now q.1.wire

end KcpConnection

end Eular.Kcp
