/-
What kcp's control block is made of (`kcp_protocol.h`, `kcp_config.h`,
`kcp_error.h`): segments, the packets a datagram carries, the queued
acknowledgements, the assemblies of the receiver.

A number of the C program is a `Nat` or an `Int` here, and every
assignment that can leave the range of its field goes through `u8`,
`u16`, `u32`, `u64` or `i32`. The connection ids of a segment are left
out: both are fixed for a connection, and `kcp_parse_packet` has compared
them before a packet gets here.
-/
import Mathlib

namespace Eular.Kcp

-- ==== fixed-width fields

def u8 (n : Nat) : Nat := n % 2 ^ 8

def u16 (n : Nat) : Nat := n % 2 ^ 16

def u32 (n : Nat) : Nat := n % 2 ^ 32

def u64 (n : Nat) : Nat := n % 2 ^ 64

variable (n : Int)

def i32 : Int := n.bmod (2 ^ 32)

/-- A signed number stored in an unsigned field. -/
def u16OfInt : Nat := (n % 2 ^ 16).toNat

def u32OfInt : Nat := (n % 2 ^ 32).toNat

def u64OfInt : Nat := (n % 2 ^ 64).toNat

theorem u16_of_lt {n : Nat} (h : n < 2 ^ 16) : u16 n = n := Nat.mod_eq_of_lt h

theorem u32_of_lt {n : Nat} (h : n < 2 ^ 32) : u32 n = n := Nat.mod_eq_of_lt h

theorem i32_of_le {n : Int} (h : -2 ^ 31 ≤ n) (h' : n < 2 ^ 31) : i32 n = n :=
  Int.bmod_eq_of_le (by omega) (by omega)

theorem i32_of_lt {n : Nat} (h : n < 2 ^ 31) : i32 n = n := i32_of_le (by omega) (by omega)

theorem i32_lt : i32 n < 2 ^ 31 := Int.bmod_lt (by omega)

theorem i32_add_i32 (m n : Int) : i32 (i32 m + n) = i32 (m + n) := Int.bmod_add_bmod

theorem i32_add_i32_right (m n : Int) : i32 (m + i32 n) = i32 (m + n) := Int.add_bmod_bmod

theorem i32_sub_i32_right (m n : Int) : i32 (m - i32 n) = i32 (m - n) := Int.sub_bmod_bmod

@[simp] theorem i32_i32 (m : Int) : i32 (i32 m) = i32 m := Int.bmod_bmod

theorem i32_sub_i32 (m n : Int) : i32 (i32 m - n) = i32 (m - n) := Int.bmod_sub_bmod

-- ==== constants

def KCP_HEADER_SIZE : Nat := 32

def KCP_PACKET_COUNT : Nat := 32

/-- The most fragments of one message. -/
def KCP_PACKET_SIZE : Nat := 64

def KCP_MAX_PACKET_SIZE : Nat := (576 - 20 - 8 - KCP_HEADER_SIZE) * KCP_PACKET_COUNT

def KCP_RETRANSMISSION_MAX : Nat := 10

/-- `KCP_RTO_MAX`, `KCP_RTO_DEF`, `KCP_RTO_MIN`, in milliseconds. -/
def KCP_RTO_MAX : Int := 6000

def KCP_RTO_DEF : Int := 200

def KCP_RTO_MIN : Int := 100

def KCP_WND_SND : Int := 128

def KCP_WND_RCV : Int := 256

def KCP_FASTACK_LIMIT : Int := 5

/-- `KCP_PROBE_INIT` and `KCP_PROBE_LIMIT`. -/
def KCP_PROBE_INIT : Nat := 7000

def KCP_PROBE_LIMIT : Nat := 120000

/-- `KcpCommand`, the codes of a connected pair. -/
def KCP_CMD_ACK : Nat := 2

def KCP_CMD_WASK : Nat := 4

def KCP_CMD_WINS : Nat := 5

def KCP_CMD_PING : Nat := 6

def KCP_CMD_PONG : Nat := 7

/-- `KcpError`, what a transfer can answer. -/
inductive KcpError where
  | OP_TRY_AGAIN
  | WRITE_ERROR
  | INVALID_PARAM
  | INVALID_STATE
  | BUFFER_TOO_SMALL
  | PACKET_TOO_LARGE
  | NO_MEMORY
  | TOO_MANY_RETRANS
  | KEEPALIVE_ERROR
deriving DecidableEq, Repr

inductive KcpConnectionState where
  | DISCONNECTED
  | SYN_SENT
  | SYN_RECEIVED
  | CONNECTED
  | FIN_SENT
  | FIN_RECEIVED
deriving DecidableEq, Repr

/-- How many requests `malloc` grants in one call before it refuses one;
`none` where it refuses none. -/
abbrev Malloc := Option Nat

/-- `malloc` does not grant as many requests. -/
def Malloc.refuses (malloc : Malloc) (requests : Nat) : Bool := malloc.any (· < requests)

-- ==== segments

/-- `KcpSengment`; its `len` is the length of the data. -/
structure KcpSegment where
  frg : Nat
  wnd : Nat
  ts : Nat := 0
  sn : Nat := 0
  psn : Nat
  una : Nat := 0
  rto : Nat := 0
  resendts : Nat := 0
  fastack : Nat := 0
  xmit : Nat := 0
  txDelivered : Nat := 0
  txDeliveredTs : Nat := 0
  data : List UInt8
deriving DecidableEq, Repr

def KcpSegment.len (s : KcpSegment) : Nat := s.data.length

/-- `KcpPacketAssembly`: the fragments of one message that have arrived,
in the order of their `frg`. -/
structure KcpPacketAssembly where
  psn : Nat
  startSn : Nat
  fragments : List KcpSegment := []
  expectedFrags : Nat := 0
  receivedFrags : Nat := 0
  totalSize : Int := 0
  hasHead : Bool := false
deriving DecidableEq, Repr

structure KcpAck where
  sn : Nat
  psn : Nat
  ts : Nat
deriving DecidableEq, Repr

-- ==== packets

/-- The header and data of one PUSH, as `kcp_proto_parse` reads them. -/
structure KcpPush where
  frg : Nat
  wnd : Nat
  ts : Nat
  sn : Nat
  psn : Nat
  una : Nat
  data : List UInt8
deriving DecidableEq, Repr

structure KcpAckHeader where
  wnd : Nat
  packetTs : Nat
  ackTs : Nat
  sn : Nat
  una : Nat
deriving DecidableEq, Repr

/-- What a connected side sends. A control packet keeps its command as a
number, since `kcp_proto_header_encode` ors the command into whatever the
buffer of the previous header held. -/
inductive KcpPacket where
  | ack (header : KcpAckHeader)
  | push (push : KcpPush)
  | control (cmd wnd packetTs ts sn : Nat)
deriving DecidableEq, Repr

/-- The packets of one datagram. -/
abbrev Datagram := List KcpPacket

def KcpPacket.size : KcpPacket → Nat
  | .push p => KCP_HEADER_SIZE + p.data.length
  | _ => KCP_HEADER_SIZE

def datagramSize (d : Datagram) : Nat := (d.map KcpPacket.size).sum

/-- `kcp_segment_encode`, as the peer parses it: the fields of a header
are narrower than those of a segment. -/
def KcpSegment.encode (s : KcpSegment) : KcpPush where
  frg := u8 s.frg
  wnd := u16 s.wnd
  ts := s.ts
  sn := s.sn
  psn := s.psn
  una := s.una
  data := s.data

end Eular.Kcp
