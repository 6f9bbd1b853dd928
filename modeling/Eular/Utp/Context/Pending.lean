/-
An incoming connection before it is one (`context/context_impl.cpp`,
`PendingIncomingConnection`; `proto/frame/*.cpp`).

A server answers an INITIAL with a HANDSHAKE, sent again until the
client has confirmed the newest, and keeps until then an entry for the
client: its ID and address, the key, what it has negotiated, the packet
number it counts up, and the packets that came too early.

# What is written down

A send returns the datagram the socket took, beside the status and the
entry.
-/
import Eular.Utp.Context.ZeroRtt
import Eular.Utp.Context.Connect

namespace Eular.Utp

open Lib

-- ==== configuration

/-- `TransportParams`, as it is sent. -/
structure LocalTransportParams where
  flags : Nat := 0xff
  maxIdleTimeout : Nat := 600000
  handshakeTimeout : Nat := 5000
  initMaxStreamsBidi : Nat := 64
  initMaxStreamsUni : Nat := 32
  ackDelayExponent : Nat := 3
  initialMaxData : Nat := 64 * 1024 * 1024
  initialMaxStreamDataBidiLocal : Nat := 16 * 1024 * 1024
  initialMaxStreamDataBidiRemote : Nat := 16 * 1024 * 1024
deriving DecidableEq, Repr

/-- What a pending entry keeps of the peer's `TransportParams`. -/
structure PeerTransportParams extends TransportParams where
  flags : Nat := 0xff
  handshakeTimeout : Nat := 5000
deriving DecidableEq, Repr

/-- The part of `Config` that incoming connections are handled by. -/
structure IncomingConfig where
  handshakeTimeout : Nat := 800
  handshakeMaxRetries : Nat := 2
  pendingPreHandshakeBufferPackets : Nat := 16
  pendingPreHandshakeBufferBytes : Nat := 32 * 1024
  initMaxStreamsBidi : Nat := 32
  initMaxStreamsUni : Nat := 16
  ackDelayExponent : Nat := 3
  ackEveryNPackets : Nat := 4
  ackDelay : Nat := 25
  zeroRtt : ZeroRttLimits := {}
deriving DecidableEq, Repr

namespace IncomingConfig

variable (cfg : IncomingConfig)

/-- `PendingHandshakeBaseTimeoutMs`; bit 1 is `kHandshakeTimeout`. -/
def baseTimeoutMs (peerTp : PeerTransportParams) : Nat :=
  let localTimeoutMs := max cfg.handshakeTimeout 1
  if peerTp.flags.testBit 1 ∧ 0 < peerTp.handshakeTimeout then
    min localTimeoutMs peerTp.handshakeTimeout
  else localTimeoutMs

/-- `PendingHandshakeRoundTimeoutUs`; `none` is `UINT64_MAX`. -/
def roundTimeoutUs (peerTp : PeerTransportParams) (round : Nat) :
    Option Nat :=
  let baseTimeoutUs := cfg.baseTimeoutMs peerTp * 1000
  if 63 ≤ round then none
  else
    let scaled := baseTimeoutUs * 2 ^ round % 2 ^ 64
    if scaled < baseTimeoutUs then none else some scaled

/-- `PendingHandshakeRetryDueUs`; `none` is `UINT64_MAX`. -/
def retryDueUs (peerTp : PeerTransportParams)
    (lastHandshakeSentUs handshakeRetryCount : Nat) : Option Nat :=
  if lastHandshakeSentUs = 0 then none
  else
    match cfg.roundTimeoutUs peerTp handshakeRetryCount with
    | none => none
    | some timeoutUs =>
      let dueUs := (lastHandshakeSentUs + timeoutUs) % 2 ^ 64
      if dueUs < lastHandshakeSentUs then none else some dueUs

/-- `PendingPreHandshakeBufferMaxPackets`, `PendingPreHandshakeBufferMaxBytes`. -/
def bufferMaxPackets : Nat := max cfg.pendingPreHandshakeBufferPackets 1
def bufferMaxBytes : Nat := max cfg.pendingPreHandshakeBufferBytes 1024

end IncomingConfig

-- ==== frames

/-- `FrameVersion::encode`, with `UTP_PROTOCOL_VERSION`. -/
def versionFrame : List UInt8 := 14 :: bigEndian 4 2

def LocalTransportParams.encode (tp : LocalTransportParams) : List UInt8 :=
  16 :: (bigEndian 2 tp.flags ++ bigEndian 4 tp.maxIdleTimeout ++ bigEndian 2 tp.handshakeTimeout
    ++ bigEndian 2 tp.initMaxStreamsBidi ++ bigEndian 2 tp.initMaxStreamsUni
    ++ bigEndian 1 tp.ackDelayExponent ++ bigEndian 8 tp.initialMaxData
    ++ bigEndian 8 tp.initialMaxStreamDataBidiLocal
    ++ bigEndian 8 tp.initialMaxStreamDataBidiRemote)

/-- `FrameTransportParams::decode`, what is kept of it. -/
def decodePeerTransportParams (data : List UInt8) : Option PeerTransportParams :=
  (decodeTransportParams data).map fun tp =>
    { tp with flags := field data 1 2, handshakeTimeout := field data 7 2 }

/-- `kEncryptionAesGcm128`, `kEncryptionAesGcm256`. -/
def kEncryptionAesGcm128 : Nat := 1
def kEncryptionAesGcm256 : Nat := 2

def encryptionModeToFrameCryptoType (mode : Nat) : Nat :=
  if mode = kEncryptionAesGcm256 then 1 else 0

def frameCryptoTypeToEncryptionMode (type : Nat) : Nat :=
  if type = 1 then kEncryptionAesGcm256 else kEncryptionAesGcm128

/-- `FrameCrypto::encode`. -/
def cryptoFrame (cryptoType : Nat) (publicKey : List UInt8) : List UInt8 :=
  11 :: (bigEndian 1 cryptoType ++ bigEndian 1 0 ++ publicKey)

/-- `FrameAckFrequency::normalize` and `encode`, of the threshold and the
delay; the reordering threshold is 3. -/
def ackFrequencyFrame (threshold maxAckDelayMs : Nat) : List UInt8 :=
  13 ::
    (bigEndian 1 (if threshold = 0 then 5 else min threshold 64) ++ bigEndian 1 3
      ++ bigEndian 4 (if maxAckDelayMs = 0 then 25 else min maxAckDelayMs 1000))

/-- `BuildHandshakeDelayFrame`. -/
def handshakeDelayFrame (delayUs : Nat) : List UInt8 :=
  17 :: bigEndian 4 (min delayUs (2 ^ 32 - 1))

/-- `FrameHandshakeDone::decode`. -/
def decodeHandshakeDone (data : List UInt8) : Option UInt64 :=
  if data.length < 1 + 8 then none
  else if data.head? ≠ some 15 then none
  else some (.ofNat (field data 1 8))

/-- `FrameConnectionClose::encode`. -/
def connectionCloseFrame (errorCode : Nat) (reason : String) : List UInt8 :=
  4 :: (bigEndian 2 errorCode ++ bigEndian 2 reason.utf8ByteSize ++ reason.toUTF8.toList)

-- ==== entries

structure PeerIndexKey where
  peerAddress : PeerAddress
  peerCid : UInt32
deriving DecidableEq

/-- `PendingIncomingConnection`. Times are in microseconds; `x25519` is the
public key. -/
structure PendingIncomingConnection where
  localCid : UInt32
  peerCid : UInt32
  peerAddress : PeerAddress
  encrypted : Nat := 0
  packetNumber : UInt64 := 1
  acceptStartUs : Nat := 0
  initialReceivedUs : Nat := 0
  lastHandshakeSentUs : Nat := 0
  lastHandshakePacketNo : UInt64 := 0
  handshakeSent : Bool := false
  handshakeRetryCount : Nat := 0
  /-- `bufferedBeforeHandshakeDone`, with the storage. -/
  buffered : List (List UInt8) := []
  bufferedBytes : Nat := 0
  peerTp : PeerTransportParams := {}
  x25519 : Option (List UInt8) := none
  aesCtx : Option AesGcmContext := none

/-- What `m_udpSocket.send` comes to. -/
inductive SocketSend where
  | sent
  | unsent (st : Status)
deriving DecidableEq, Repr

/-- What a send leaves: the status, the entry, the datagram that went out. -/
structure PendingSend where
  status : Status
  pending : PendingIncomingConnection
  datagram : Option (List UInt8) := none

namespace PendingIncomingConnection

variable (pending : PendingIncomingConnection)

/-- The key of the entry in `m_pendingIncomingPeerIndex`. -/
def key : PeerIndexKey :=
  ⟨pending.peerAddress, pending.peerCid⟩

/-- `ContextImpl::sendPendingPacket`; the peer's address is a valid one. -/
def sendPendingPacket (send : SocketSend)
    (packetType : UInt8) (payload : List UInt8) : PendingSend :=
  if 65535 < payload.length then ⟨.error .invalidParam "invalid param", pending, none⟩
  else
    let header : UTPHeaderProto :=
      { scid := pending.localCid
        dcid := pending.peerCid
        pn := pending.packetNumber
        payloadLength := .ofNat payload.length
        types := packetType
        reserve := 0 }
    match send with
    | .sent =>
      ⟨.success, { pending with packetNumber := pending.packetNumber + 1 },
        some (header.serialize ++ payload)⟩
    | .unsent st =>
      if st.ok || st.code = .wouldBlock then
        ⟨.error .wouldBlock "UDP send would block", pending, none⟩
      else ⟨st, pending, none⟩

def handshakePayload (cfg : IncomingConfig) (pending : PendingIncomingConnection) (nowUs : Nat) :
    List UInt8 :=
  let localTp : LocalTransportParams :=
    { handshakeTimeout := cfg.handshakeTimeout
      initMaxStreamsBidi := cfg.initMaxStreamsBidi
      initMaxStreamsUni := cfg.initMaxStreamsUni
      ackDelayExponent := cfg.ackDelayExponent }
  let crypto :=
    match pending.x25519 with
    | some publicKey =>
      if pending.encrypted ≠ 0 then
        cryptoFrame (encryptionModeToFrameCryptoType pending.encrypted) publicKey
      else []
    | none => []
  let baseUs :=
    if 0 < pending.initialReceivedUs ∧ pending.initialReceivedUs ≤ nowUs then
      pending.initialReceivedUs
    else nowUs
  versionFrame ++ localTp.encode ++ crypto
    ++ ackFrequencyFrame (min cfg.ackEveryNPackets 255) cfg.ackDelay
    ++ handshakeDelayFrame (nowUs - baseUs)

def sendPendingHandshake (cfg : IncomingConfig) (pending : PendingIncomingConnection)
    (nowUs : Nat) (send : SocketSend) : PendingSend :=
  let r := pending.sendPendingPacket send UTP_TYPE_HANDSHAKE (pending.handshakePayload cfg nowUs)
  if r.status.ok then
    { r with pending := { r.pending with lastHandshakePacketNo := pending.packetNumber } }
  else r

def sendPendingConnectionClose (send : SocketSend)
    (errorCode : Nat) (reason : String) : PendingSend :=
  pending.sendPendingPacket send UTP_TYPE_CONNECTION_CLOSE (connectionCloseFrame errorCode reason)

def parsePendingNegotiationFrame (frame : FrameType × List UInt8) : PendingIncomingConnection :=
  if frame.1 = .transportParams then
    match decodePeerTransportParams frame.2 with
    | none => pending
    | some peerTp => { pending with peerTp }
  else pending

/-- The frame loop over a packet for a pending entry: whether a
HANDSHAKE_DONE confirms the newest HANDSHAKE. -/
def readFrames (pending : PendingIncomingConnection) :
    List (FrameType × List UInt8) → Bool × PendingIncomingConnection
  | [] => (false, pending)
  | frame :: frames =>
    let pending := pending.parsePendingNegotiationFrame frame
    if frame.1 = .handshakeDone then
      (decodeHandshakeDone frame.2 = some pending.lastHandshakePacketNo, pending)
    else pending.readFrames frames

/-- A packet that came before the handshake was done, kept if there is room. -/
def buffer (cfg : IncomingConfig) (pending : PendingIncomingConnection) (msg : List UInt8) :
    PendingIncomingConnection :=
  if pending.buffered.length < cfg.bufferMaxPackets
      ∧ pending.bufferedBytes + msg.length ≤ cfg.bufferMaxBytes then
    { pending with
      buffered := pending.buffered ++ [msg]
      bufferedBytes := pending.bufferedBytes + msg.length }
  else pending

/-- What a move leaves: numbers and addresses stay, buffers and keys go. -/
def movedFrom : PendingIncomingConnection :=
  { pending with buffered := [], x25519 := none, aesCtx := none }

end PendingIncomingConnection

end Eular.Utp
