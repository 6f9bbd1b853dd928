/-
The control block of a connected pair (`KcpConnection`): its two halves,
the keepalive, and what happens to them when a packet comes in
(`kcp_input_pcaket`) and when the application sends and reads. A step is
one packet, not one datagram: `kcp_parse_packet` takes the packets of a
datagram one by one, and `read_event_cb` runs between them.

`XXH64` of the time stamp, from which a PING takes its number, is the
parameter `xxh64`.
-/
import Eular.Kcp.Receiver
import Eular.Kcp.Sender

namespace Eular.Kcp

-- ==== keepalive

structure PingSession where
  packetSn : Nat
  packetTs : Nat
deriving DecidableEq, Repr

/-- `KcpPingCtx`, with the two counters of the connection. -/
structure KcpPingCtx where
  keepaliveTimeout : Nat := 5000
  keepaliveInterval : Nat := 10000000
  keepaliveNextTs : Nat := 0
  keepaliveRetries : Nat := 5
  keepaliveXretries : Nat := 0
  keepaliveRtt : Nat := 0
  keepaliveSn : Nat := 0
  keepalivePacketTs : Nat := 0
  pingRequestQueue : List PingSession := []
  pingCount : Nat := 0
  pongCount : Nat := 0
deriving DecidableEq, Repr

namespace KcpPingCtx

/-- A packet of the peer puts the next PING off. -/
def touch (k : KcpPingCtx) (now : Nat) : KcpPingCtx :=
  { k with keepaliveNextTs := u64 (now + k.keepaliveInterval) }

/-- `KCP_CMD_PING` in `kcp_input_pcaket`. -/
def onPing (k : KcpPingCtx) (sn now : Nat) : KcpPingCtx :=
  { k with
    keepalivePacketTs := now, keepaliveSn := sn
    pingCount := u32 (k.pingCount + 1) }.touch now

/-- `KCP_CMD_PONG` in `kcp_input_pcaket`: the queue is walked once, the PING
answered and those too old are dropped. -/
def onPong (packetTs ts sn now : Nat) (k : KcpPingCtx) : KcpPingCtx :=
  let walk (q : KcpPingCtx × List PingSession) (pos : PingSession) :=
    if pos.packetSn = sn then
      ({ q.1 with
          pongCount := u32 (q.1.pongCount + 1)
          keepaliveRtt := u32 (sub64 (sub64 now q.1.keepalivePacketTs) (sub64 ts packetTs))
          keepaliveSn := 0
          keepalivePacketTs := 0
          keepaliveXretries := 0 }.touch now, q.2)
    else if pos.packetTs + u32 (2 * q.1.keepaliveTimeout) < now then q
    else (q.1, q.2 ++ [pos])
  let q := k.pingRequestQueue.foldl walk (k, [])
  { q.1 with pingRequestQueue := q.2 }

/-- `on_kcp_ping_timeout`; whether the keepalive has run out. -/
def onPingTimeout (k : KcpPingCtx) (now : Nat) : KcpPingCtx × Bool :=
  match k.pingRequestQueue.getLast? with
  | none => (k, false)
  | some last =>
    if k.keepaliveTimeout + last.packetTs ≤ now then
      let k := { k with
        keepaliveNextTs := sub64 now 1
        pingRequestQueue := k.pingRequestQueue.dropLast
        keepaliveXretries := u16 (k.keepaliveXretries + 1) }
      (k, k.keepaliveRetries ≤ k.keepaliveXretries)
    else (k, false)

def sendPing (xxh64 : Nat → Nat) (k : KcpPingCtx) (now : Nat) : KcpPingCtx :=
  { k with pingRequestQueue := k.pingRequestQueue ++ [PingSession.mk (xxh64 now) now] }.touch now

end KcpPingCtx

-- ==== control block

/-- The flags of `probe`. -/
structure Probe where
  askSend : Bool := false
  askTell : Bool := false
  pingRecv : Bool := false
deriving DecidableEq, Repr

/-- `KcpConnection`, once it is connected. -/
structure KcpConnection where
  state : KcpConnectionState
  mtu : Nat
  mss : Nat
  tsFlush : Nat
  interval : Int := 30
  nodelay : Nat := 0
  fastresend : Int := 0
  /-- never initialised by the source -/
  fastlimit : Int
  nocwnd : Int := 0
  winTsProbe : Nat := 0
  probeWait : Nat := 0
  probe : Probe := {}
  snd : KcpSender := {}
  rcv : KcpReceiver := {}
  bbr : KcpBbr
  ping : KcpPingCtx
deriving DecidableEq, Repr

/-- What the control block tells the application. -/
inductive KcpEvent where
  | read (size : Int)
  | write (free : Int)
  | error (code : KcpError)
deriving DecidableEq, Repr

namespace KcpConnection

/-- `kcp_connection_init` with an MTU of `mtu`, and the connection
established at `now` (in microseconds). -/
def connected (mtu : Nat) (fastlimit : Int) (now : Nat) : KcpConnection where
  state := .CONNECTED
  mtu
  mss := mtu - KCP_HEADER_SIZE
  tsFlush := now / 1000 + 30
  fastlimit
  bbr := KcpBbr.init (mtu - KCP_HEADER_SIZE) now
  ping := KcpPingCtx.touch {} now

/-- `kcp_send`. -/
def send (c : KcpConnection) (data : List UInt8) (malloc : Malloc := none) :
    Except (KcpError × KcpConnection) KcpConnection :=
  match c.snd.send c.state c.mss data malloc with
  | .ok snd => .ok { c with snd }
  | .error (code, snd) => .error (code, { c with snd })

/-- `kcp_recv`. -/
def recv (c : KcpConnection) (size : Nat) : Except KcpError (KcpConnection × KcpReceiver.Read) :=
  match c.rcv.recv c.state size with
  | .ok (rcv, read, tell) =>
    .ok ({ c with rcv, probe := { c.probe with askTell := c.probe.askTell || tell } }, read)
  | .error code => .error code

-- ==== packets coming

/-- `on_kcp_push_pcaket`. -/
def onPush (c : KcpConnection) (p : KcpPush) (now : Nat) (malloc : Malloc := none) :
    KcpConnection × List KcpEvent :=
  let c := { c with ping := c.ping.touch now }
  let q := c.rcv.onPush p now malloc
  let c := { c with rcv := q.1 }
  match q.2 with
  | .nothing => (c, [])
  | .tell => ({ c with probe := { c.probe with askTell := true } }, [])
  | .read size => (c, [.read size])

/-- `on_kcp_ack_pcaket`. -/
def onAck (c : KcpConnection) (ack : KcpAckHeader) (now : Nat) : KcpConnection :=
  if c.state = .DISCONNECTED then c
  else
    let q := c.snd.onAck c.bbr c.mss c.interval ack now
    { c with ping := c.ping.touch now, snd := q.1, bbr := q.2 }

def setRmtWnd (c : KcpConnection) (wnd : Nat) : KcpConnection :=
  { c with snd := { c.snd with rmtWnd := wnd } }

/-- `kcp_input_pcaket`, on the commands a connected pair exchanges. -/
def input (c : KcpConnection) (packet : KcpPacket) (now : Nat) (malloc : Malloc := none) :
    KcpConnection × List KcpEvent :=
  match packet with
  | .ack header => ((c.setRmtWnd header.wnd).onAck header now, [])
  | .push p => (if 0 < p.frg then c.setRmtWnd p.wnd else c).onPush p now malloc
  | .control cmd wnd packetTs ts sn =>
    if cmd = KCP_CMD_WASK then ({ c with probe := { c.probe with askTell := true } }, [])
    else if cmd = KCP_CMD_WINS then (c.setRmtWnd wnd, [])
    else if cmd = KCP_CMD_PING then
      ({ c with ping := c.ping.onPing sn now, probe := { c.probe with pingRecv := true } }, [])
    else if cmd = KCP_CMD_PONG then ({ c with ping := c.ping.onPong packetTs ts sn now }, [])
    else (c, [])

end KcpConnection

end Eular.Kcp
