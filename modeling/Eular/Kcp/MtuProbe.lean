/-
The search for the path MTU (`kcp_mtu.c`).

A probe is a packet the peer answers, and the socket does not fragment it.
The state is what `KcpMtuProbeCtx` has, and beside it what the path and the
peer know: the size of the probe that is out, the largest size that has got
through. A size is that of the whole datagram, with the IP and the UDP
header; `kcp_send_mtu_probe_packet` takes these two off the size it tries,
and then puts the header of kcp in front.

An answer is one that bears the number and the hash of the last probe.
-/
import Eular.Kcp.Segment

namespace Eular.Kcp

def ETHERNET_MTU : Nat := 1500

/-- `ETHERNET_MTU_V4_MIN` and `ETHERNET_MTU_V6_MIN`. -/
def minMtu (ipv6 : Bool) : Nat := if ipv6 then 1280 else 576

/-- The difference of two 32-bit numbers. -/
def sub32 (a b : Nat) : Nat := if b ≤ a then a - b else a + 2 ^ 32 - b

theorem sub32_of_le {a b : Nat} (hle : b ≤ a) : sub32 a b = a - b := if_pos hle

/-- How a call of `kcp_send_packet` with the probe ends. -/
inductive ProbeAnswer where
  | sent
  | emsgsize
  | error
deriving DecidableEq, Repr

structure KcpMtuProbeCtx where
  mtuCurrent : Nat
  mtuLbound : Nat
  mtuUbound : Nat
  retries : Nat
  /-- `probe_timeout_event` is pending -/
  timer : Bool := false
  /-- the MTUs `on_probe_completed` was called with -/
  completed : List Nat := []
  /-- the size of the last probe, if it was sent -/
  probed : Option Nat := none
  /-- the largest size known to pass -/
  known : Nat
  /-- the calls of `kcp_send_packet` -/
  attempts : Nat := 0
  /-- the assertion of `mtu_probe_update` has held so far -/
  asserted : Bool := true
deriving DecidableEq, Repr

namespace KcpMtuProbeCtx

variable (c : KcpMtuProbeCtx)

/-- `(mtu_lbound + mtu_ubound) / 2`. -/
def middle : Nat := u32 (c.mtuLbound + c.mtuUbound) / 2

/-- The socket takes the probe. With no retries there is nothing to send. -/
def sent : KcpMtuProbeCtx :=
  { c with
    probed := if c.retries = 0 then none else some (c.middle + KCP_HEADER_SIZE)
    attempts := c.attempts + 1 }

/-- The probe was too large for the socket. -/
def refused : KcpMtuProbeCtx :=
  { c with mtuUbound := sub32 c.middle 1, probed := none, attempts := c.attempts + 1 }

/-- `kcp_send_mtu_probe_packet`, with the socket's answers; when there are none
left it takes the probe. -/
def sendMtuProbePacket : List ProbeAnswer → KcpMtuProbeCtx → KcpMtuProbeCtx
  | [], c => c.sent
  | .sent :: _, c => c.sent
  | .emsgsize :: answers, c => sendMtuProbePacket answers c.refused
  | .error :: _, c => { c with probed := none, attempts := c.attempts + 1 }

/-- `kcp_mtu_probe`. -/
def mtuProbe (retry : Nat) (answers : List ProbeAnswer) : KcpMtuProbeCtx :=
  { sendMtuProbePacket answers
      { c with mtuLbound := c.mtuCurrent, mtuUbound := ETHERNET_MTU, retries := retry } with
    timer := true }

/-- `mtu_probe_update`. -/
def mtuProbeUpdate (answers : List ProbeAnswer) : KcpMtuProbeCtx :=
  let c := { c with asserted := c.asserted && c.mtuLbound ≤ c.mtuUbound, mtuCurrent := c.middle }
  if sub32 c.mtuUbound c.mtuLbound ≤ 16 then
    { c with
      mtuCurrent := c.mtuLbound
      mtuUbound := c.mtuLbound
      timer := false
      completed := c.completed ++ [c.mtuLbound] }
  else c.mtuProbe c.retries answers

/-- `kcp_mtu_probe_timeout_cb`. -/
def mtuProbeTimeout (answers : List ProbeAnswer) : KcpMtuProbeCtx :=
  { c with timer := false, mtuUbound := sub32 c.mtuUbound 1 }.mtuProbeUpdate answers

/-- `kcp_mtu_ack_received`, on the answer to the last probe. -/
def mtuAckReceived (answers : List ProbeAnswer) : KcpMtuProbeCtx :=
  let c := { c with known := max c.known (c.probed.getD 0) }
  if c.mtuUbound ≤ c.mtuLbound then { c with completed := c.completed ++ [c.mtuCurrent] }
  else { c with mtuLbound := u32 (c.mtuCurrent + 1) }.mtuProbeUpdate answers

/-- `kcp_process_icmp_fragmentation`. -/
def processIcmpFragmentation (nextHopMtu : Nat) (answers : List ProbeAnswer) :
    KcpMtuProbeCtx :=
  if 576 ≤ nextHopMtu ∧ nextHopMtu < 0x2000 then
    let c := { c with mtuUbound := min nextHopMtu c.mtuUbound }.mtuProbeUpdate answers
    { c with mtuCurrent := c.mtuUbound }
  else { c with mtuUbound := c.middle }.mtuProbeUpdate answers

/-- The context `kcp_connection_init` makes, and the first call of
`kcp_mtu_probe` on it. The bounds are not set before. -/
def start (ipv6 : Bool) (retry : Nat) (answers : List ProbeAnswer) : KcpMtuProbeCtx :=
  KcpMtuProbeCtx.mtuProbe
    { mtuCurrent := minMtu ipv6, mtuLbound := 0, mtuUbound := 0, retries := 0,
      known := minMtu ipv6 }
    retry answers

end KcpMtuProbeCtx

/-- What can happen to a search. -/
inductive MtuProbeOp where
  | timeout (answers : List ProbeAnswer)
  | answered (answers : List ProbeAnswer)
  | icmp (nextHopMtu : Nat) (answers : List ProbeAnswer)
deriving DecidableEq, Repr

namespace KcpMtuProbeCtx

def step (c : KcpMtuProbeCtx) : MtuProbeOp → KcpMtuProbeCtx
  | .timeout answers => c.mtuProbeTimeout answers
  | .answered answers => c.mtuAckReceived answers
  | .icmp nextHopMtu answers => c.processIcmpFragmentation nextHopMtu answers

end KcpMtuProbeCtx

end Eular.Kcp
