/-
0-RTT admission at a server (`context/context_impl.cpp`).

A client that has a session ticket may open a connection with its first
packet. The server opens the ticket, checks that it was given to that
host and is not too old, and remembers the ticket's connection ID with
the packet number, so that a copy of the packet is recognised.

# Tokens

A ticket is sealed by `TokenAuth` under a key of the server's, which is
replaced from time to time. What a genuine ticket holds is a parameter
(`tokens`); whether the key it was sealed under is still known is part
of each step.

# Two clocks

`validateZeroRttTicket` and `rememberZeroRttNonce` each read the clock,
the one in seconds and the other in milliseconds; a step takes both
readings.
-/
import Eular.Lib.ReplayCache
import Eular.Utp.Lifecycle.Lifecycle

namespace Eular.Utp

open Lib

-- ==== the ticket

/-- `TOKEN_SIZE`: nonce, `TOKEN_META_SIZE` bytes and tag. -/
def TOKEN_SIZE : Nat := 12 + 36 + 16

def kZeroRttResumption : Nat := 2

/-- `TokenMeta`: the part that admission reads. -/
structure TokenMeta where
  tokenType : Nat
  /-- Unix seconds. -/
  timestamp : Nat
  cid : Nat
  encryptionMode : Nat
  /-- The peer's host, with its address family. -/
  host : Nat
deriving DecidableEq, Repr

/-- The part of `Config` that admission reads, in seconds. -/
structure ZeroRttLimits where
  zeroRttTokenMaxLifetime : Nat := 600
  zeroRttReplayWindow : Nat := 10
deriving DecidableEq, Repr

structure FrameSessionToken where
  tokenValidityPeriod : Nat
  token : List UInt8
deriving DecidableEq, Repr

def FrameSessionToken.decode (data : List UInt8) : Option FrameSessionToken :=
  if data.length < 1 + 1 + 2 then none
  else if data.head? ≠ some 12 then none
  else
    let tokenSize := field data 1 1
    if data.length - (1 + 1 + 2) < tokenSize then none
    else
      some
        { tokenValidityPeriod := field data 2 2
          token := (data.drop (1 + 1 + 2)).take tokenSize }

/-- A 0-RTT datagram, as it came. -/
structure ZeroRttDatagram where
  peerAddress : PeerAddress
  bytes : List UInt8
deriving DecidableEq

/-- What `onReadEvent` reads of a 0-RTT datagram: the packet number and the
first session token. -/
def ZeroRttDatagram.parse (d : ZeroRttDatagram) : Option (UInt64 × FrameSessionToken) :=
  match PacketIn.decode d.bytes with
  | none => none
  | some packet =>
    if packet.header.types ≠ ConnectionImpl.UTP_TYPE_0RTT then none
    else
      match packet.frames.find? fun frame => frame.1 = .sessionToken with
      | none => none
      | some frame =>
        (FrameSessionToken.decode frame.2).map fun token => (packet.header.pn, token)

def decodeTokenEncryptionMode (mode : Nat) : Option Nat :=
  if mode ≤ 2 then some mode else none

def Address.host : Address → Option Nat
  | .none => Option.none
  | .ip host _ => some host

/-- A ticket's lifetime: the limit, and what the peer says if that is less. -/
def ZeroRttLimits.lifetime (cfg : ZeroRttLimits) (validityPeriod : Nat) : Nat :=
  if 0 < validityPeriod then min cfg.zeroRttTokenMaxLifetime validityPeriod
  else cfg.zeroRttTokenMaxLifetime

variable (tokens : List UInt8 → Option TokenMeta)

/-- `ContextImpl::validateZeroRttTicket`: the ticket's connection ID. -/
def validateZeroRttTicket (cfg : ZeroRttLimits) (keyKnown : Bool) (nowMs : Nat)
    (peerAddress : PeerAddress) (token : FrameSessionToken) : Option Nat :=
  if token.token.length ≠ TOKEN_SIZE then none
  else
    match if keyKnown then tokens token.token else none with
    | none => none
    | some tokenMeta =>
      let nowSec := nowMs / 1000
      if tokenMeta.tokenType ≠ kZeroRttResumption then none
      else if peerAddress.address.host ≠ some tokenMeta.host then none
      else if nowSec < tokenMeta.timestamp then none
      else if cfg.zeroRttTokenMaxLifetime = 0 then none
      else if cfg.lifetime token.tokenValidityPeriod < nowSec - tokenMeta.timestamp then none
      else if (decodeTokenEncryptionMode tokenMeta.encryptionMode).isNone then none
      else some tokenMeta.cid

-- ==== admission

structure ZeroRttReplayKey where
  ticketCid : Nat
  nonce : UInt64
deriving DecidableEq, Repr

/-- The window of an entry, in milliseconds. -/
def ZeroRttLimits.windowMs (cfg : ZeroRttLimits) : Nat := max cfg.zeroRttReplayWindow 1 * 1000

def rememberZeroRttNonce (cfg : ZeroRttLimits) (cache : ReplayCache ZeroRttReplayKey)
    (ticketCid : Nat) (nonce : UInt64) (nowMs : Nat) : Bool × ReplayCache ZeroRttReplayKey :=
  if ticketCid = 0 then (false, cache)
  else cache.remember cfg.windowMs ⟨ticketCid, nonce⟩ nowMs

/-- What came of a 0-RTT datagram. -/
inductive ZeroRttDecision where
  | ignored
  | invalidTicket
  | replay
  | accepted
deriving DecidableEq, Repr

/-- A datagram that was let in, and when. -/
structure Admission where
  datagram : ZeroRttDatagram
  key : ZeroRttReplayKey
  atMs : Nat
deriving DecidableEq

/-- The server's memory of 0-RTT packets, and what it has let in. -/
structure ZeroRttServer where
  cache : ReplayCache ZeroRttReplayKey := []
  nowMs : Nat := 0
  admitted : List Admission := []

structure ZeroRttArrival where
  datagram : ZeroRttDatagram
  /-- A connection with this peer and this ID is there, and takes it. -/
  existingConn : Bool := false
  /-- `TokenAuth` still has the key the ticket was sealed under. -/
  keyKnown : Bool := true
  /-- The clock, as `validateZeroRttTicket` and `rememberZeroRttNonce` read it. -/
  validateMs : Nat
  rememberMs : Nat

namespace ZeroRttServer

/-- The 0-RTT case of `onReadEvent`. -/
def onZeroRtt (cfg : ZeroRttLimits) (s : ZeroRttServer) (a : ZeroRttArrival) :
    ZeroRttDecision × ZeroRttServer :=
  let s := { s with nowMs := a.rememberMs }
  if a.existingConn then (.ignored, s)
  else
    match a.datagram.parse with
    | none => (.ignored, s)
    | some (pn, token) =>
      match validateZeroRttTicket tokens cfg a.keyKnown a.validateMs a.datagram.peerAddress
          token with
      | none => (.invalidTicket, s)
      | some ticketCid =>
        let (new, cache) := rememberZeroRttNonce cfg s.cache ticketCid pn a.rememberMs
        if new then
          (.accepted, { s with
            cache
            admitted := s.admitted ++ [⟨a.datagram, ⟨ticketCid, pn⟩, a.rememberMs⟩] })
        else (.replay, { s with cache })

def step (cfg : ZeroRttLimits) (s : ZeroRttServer) (a : ZeroRttArrival) : ZeroRttServer :=
  (s.onZeroRtt tokens cfg a).2

def Clock (s : ZeroRttServer) (a : ZeroRttArrival) : Prop :=
  s.nowMs ≤ a.validateMs ∧ a.validateMs ≤ a.rememberMs

instance (s : ZeroRttServer) (a : ZeroRttArrival) : Decidable (Clock s a) :=
  inferInstanceAs (Decidable (_ ∧ _))

end ZeroRttServer

end Eular.Utp
