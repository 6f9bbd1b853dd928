/-
A connection from `kcp_connection_init` on: besides the transfer, what sets
its MTU, its estimates of the round trip and its configuration. That is the
SYN of the peer on either side, `kcp_configure`, and the end of a search for
the path MTU.

`SYN_SENT` is the state of a client that waits for the answer to its SYN,
`SYN_RECEIVED` that of a server that has called `kcp_accept`.
-/
import Eular.Kcp.Control
import Eular.Kcp.Endpoint
import Eular.Kcp.MtuProbe

namespace Eular.Kcp

-- ==== constants

def IPV4_HEADER_SIZE : Nat := 20

def IPV6_HEADER_SIZE : Nat := 40

def UDP_HEADER_SIZE : Nat := 8

/-- What the network puts in front of a datagram. -/
def ipUdpHeaderSize (ipv6 : Bool) : Nat :=
  (if ipv6 then IPV6_HEADER_SIZE else IPV4_HEADER_SIZE) + UDP_HEADER_SIZE

/-- `KCP_RTO_NDL`, in milliseconds. -/
def KCP_RTO_NDL : Int := 30

def KCP_INTERVAL_MIN : Int := 10

def KCP_INTERVAL_MAX : Int := 500

-- ==== pieces

/-- What a connection reads of its context and of its peer's address. -/
structure KcpSetting where
  udpMtu : Int
  ipv6 : Bool := false
  /-- the client has more than one candidate -/
  candidates : Bool := false
  /-- the context has an `on_accepted` -/
  onAccepted : Bool := true
deriving DecidableEq, Repr

/-- `kcp_syn_node_t`, the part a client reads; `mtu` is the first MTU option. -/
structure KcpSynNode where
  packetTs : Nat
  ts : Nat
  mtu : Option Nat
deriving DecidableEq, Repr

/-- `kcp_config_t`, with the keys that `flags` names. -/
structure KcpConfig where
  nodelay : Option Int := none
  interval : Option Int := none
  resend : Option Int := none
  nc : Option Int := none
deriving DecidableEq, Repr

namespace KcpSetting

/-- The MTU a SYN asks for: that of its option, else one's own. -/
def remoteMtu (k : KcpSetting) (option : Option Nat) : Nat :=
  match option with
  | some value => u32 value
  | none => u32OfInt k.udpMtu

end KcpSetting

namespace KcpConnection

/-- `kcp_connection_init`, and the state the handshake begins in. -/
def init (k : KcpSetting) (state : KcpConnectionState) (fastlimit : Int) (now : Nat) :
    KcpConnection where
  state
  mtu := u32OfInt k.udpMtu
  mss := sub32 (u32OfInt k.udpMtu) KCP_HEADER_SIZE
  tsFlush := 0
  fastlimit
  bbr := KcpBbr.init (sub32 (u32OfInt k.udpMtu) KCP_HEADER_SIZE) now
  ping := {}

variable (c : KcpConnection)

/-- A new MTU, and the segment size with it. -/
def setMtu (mtu : Nat) : KcpConnection :=
  { c with mtu, mss := sub32 mtu KCP_HEADER_SIZE }

/-- The connection is there: the first flush and the first PING are set. -/
def establish (now : Nat) : KcpConnection :=
  { c with
    tsFlush := u64 (now / 1000 + u64OfInt c.interval)
    ping := c.ping.touch (now / 1000 * 1000) }

theorem establish_fields (now : Nat) :
    (c.establish now).state = c.state ∧ (c.establish now).mtu = c.mtu
      ∧ (c.establish now).mss = c.mss ∧ (c.establish now).interval = c.interval
      ∧ (c.establish now).snd = c.snd := by
  unfold establish
  exact ⟨rfl, rfl, rfl, rfl, rfl⟩

/-- `on_kcp_syn_received` at a client: the SYN answers the one it sent at
`synTs`, and `sent` is whether the ACK went out. -/
def onSynReceived (k : KcpSetting) (c : KcpConnection) (synTs : Nat) (syn : KcpSynNode)
    (sent : Bool) (now : Nat) : KcpConnection :=
  let srtt := i32 (sub64 (sub64 now synTs) (sub64 syn.ts syn.packetTs))
  let c := { c with snd := { c.snd with rxSrtt := srtt, rxRttval := srtt.tdiv 2 } }
  if sent then
    if c.state = .SYN_SENT then
      ({ c with state := .CONNECTED }.setMtu (min (k.remoteMtu syn.mtu) c.mtu)).establish now
    else c
  else if c.state = .SYN_SENT ∧ k.candidates then c
  else { c with state := .DISCONNECTED }

/-- `kcp_accept`, the part of the MTU. When the SYN it answers with has to wait
for the socket, the option is passed over. -/
def accept (k : KcpSetting) (c : KcpConnection) (option : Option Nat) : KcpConnection :=
  c.setMtu (min c.mtu (k.remoteMtu option))

/-- The first ACK or PUSH that reaches a server after that. -/
def onAccepted (k : KcpSetting) (c : KcpConnection) (now : Nat) : KcpConnection :=
  let c := { c with state := .CONNECTED }
  if k.onAccepted then c.establish now else c

/-- The least timeout, in microseconds. -/
def minRto (nodelay : Int) : Int := (if nodelay = 0 then KCP_RTO_MIN else KCP_RTO_NDL) * 1000

/-- `CONFIG_KEY_NODELAY`, in `kcp_configure`. -/
def configureNodelay : Option Int → KcpConnection
  | some nodelay =>
    { c with
      nodelay := if nodelay = 0 then 0 else 1
      snd := { c.snd with rxMinrto := minRto nodelay } }
  | none => c

/-- `kcp_configure`; a value out of range ends it. -/
def configure (config : KcpConfig) : KcpConnection :=
  let c := c.configureNodelay config.nodelay
  let interval := config.interval.getD c.interval
  if config.interval.isSome ∧ (interval < KCP_INTERVAL_MIN ∨ KCP_INTERVAL_MAX < interval) then c
  else
    let c := { c with interval }
    let fastresend := config.resend.getD c.fastresend
    if config.resend.isSome ∧ KCP_FASTACK_LIMIT < fastresend then c
    else
      { c with
        fastresend
        nocwnd := match config.nc with
          | some nc => if nc = 0 then 0 else 1
          | none => c.nocwnd }

/-- `on_mtu_probe_completed`. -/
def onMtuProbeCompleted (k : KcpSetting) (c : KcpConnection) (mtu : Nat) (code : Int) :
    KcpConnection :=
  if code = NO_ERROR then
    if mtu < c.mtu then c else c.setMtu (sub32 mtu (ipUdpHeaderSize k.ipv6))
  else c

end KcpConnection

-- ==== machine

/-- What can happen to a connection. -/
inductive LifetimeOp where
  | synReceived (synTs : Nat) (syn : KcpSynNode) (sent : Bool) (now : Nat)
  | accept (option : Option Nat)
  | accepted (now : Nat)
  | configure (config : KcpConfig)
  | probeCompleted (mtu : Nat) (code : Int)
  | transfer (op : EndpointOp)
deriving DecidableEq, Repr

namespace KcpConnection

/-- One step. Only a server accepts, and it does so before it is connected. -/
def stepLifetime (xxh64 : Nat → Nat) (k : KcpSetting) (c : KcpConnection) :
    LifetimeOp → KcpConnection
  | .synReceived synTs syn sent now => c.onSynReceived k synTs syn sent now
  | .accept option => if c.state = .SYN_RECEIVED then c.accept k option else c
  | .accepted now => if c.state = .SYN_RECEIVED then c.onAccepted k now else c
  | .configure config => c.configure config
  | .probeCompleted mtu code => c.onMtuProbeCompleted k (u32 mtu) code
  | .transfer op => c.step xxh64 op

end KcpConnection

end Eular.Kcp
