/-
Two endpoints that share an AES-GCM key.

# The key

The client derives its context when the server's CRYPTO frame arrives
(`ConnectionImpl::onUdpPacket`), the server when the client's does
(`ContextImpl::onReadEvent`). X25519 gives both the same secret, the key
is that secret or its first half, and the nonce prefix is the exclusive
or of the two connection IDs, which is the same on both sides too.

# The numbers

Each side counts its packets by itself: `m_packetNumber` starts at 1, a
send takes the next number, and so does every retransmission
(`RewritePacketNumber`). The server's handshake packets go out before its
connection exists and are numbered apart; they are never sealed.

`Peers.log` records every call of the cipher, on either side.
-/
import Eular.Utp.Send.Retransmit

namespace Eular.Utp

open Lib

-- ==== key exchange

/-- X25519, as OpenSSL provides it: both sides derive the same secret. -/
structure X25519 where
  publicKey : List UInt8 → List UInt8
  deriveSharedSecret : List UInt8 → List UInt8 → List UInt8
  deriveSharedSecret_comm : ∀ a b,
    deriveSharedSecret a (publicKey b) = deriveSharedSecret b (publicKey a)

inductive FrameCryptoType where
  | aesGcm128
  | aesGcm256
deriving DecidableEq, Repr

/-- `InitAesContextByCryptoType`, `FrameCryptoTypeToEncryptionContext`. -/
def initAesContextByCryptoType (x25519 : X25519) (cryptoType : FrameCryptoType)
    (privateKey peerPublicKey : List UInt8) (noncePrefix : UInt32) : AesGcmContext :=
  let sharedSecret := x25519.deriveSharedSecret privateKey peerPublicKey
  match cryptoType with
  | .aesGcm256 => { key := sharedSecret, noncePrefix }
  | .aesGcm128 => { key := sharedSecret.take 16, noncePrefix }

-- ==== endpoints

structure Endpoint where
  aesCtx : AesGcmContext
  localConnectionID : UInt32
  peerConnectionID : UInt32
  /-- `m_packetNumber`. -/
  packetNumber : UInt64
  /-- The packets the send control keeps. -/
  tracked : List Tracked

variable (gcm : Gcm)

/-- What `sendPacket` reads, where the endpoint decides it. -/
def Endpoint.sendEnv (ep : Endpoint) (env : SendEnv) : SendEnv :=
  { env with
    aesCtx := some ep.aesCtx
    localConnectionID := ep.localConnectionID
    peerConnectionID := ep.peerConnectionID
    packetNumber := ep.packetNumber }

/-- A call of `sendPacket`: the endpoint after it, and the cipher's input. -/
def Endpoint.send (ep : Endpoint) (env : SendEnv) (req : SendRequest) :
    Endpoint × Option SealCall :=
  let env := ep.sendEnv env
  let tracked :=
    match sendPacket gcm env req with
    | .ok { wire, kept := some packet } =>
      ep.tracked ++ [{ packet, queue := .unacked, wires := [wire] }]
    | _ => ep.tracked
  ({ ep with packetNumber := numberAfterSend env req, tracked }, sendSealCall env req)

/-- A retransmission of the lost packet `t`, kept in place `i`. -/
def Endpoint.retransmit (ep : Endpoint) (i : Nat) (t : Tracked) (renv : RetransmitEnv) :
    Endpoint × Option SealCall :=
  let renv := { renv with packetNumber := ep.packetNumber }
  let prepared := prepareLostPacket gcm renv (some ep.aesCtx) t.packet
  ({ ep with
      packetNumber := prepared.packetNumber
      tracked := ep.tracked.set i (t.step gcm (some ep.aesCtx) (.retransmit renv)) },
    prepared.sealCall)

/-- An event in the life of the packet in place `i`. -/
def Endpoint.event (ep : Endpoint) (i : Nat) (op : TrackedOp) : Endpoint × Option SealCall :=
  match ep.tracked[i]? with
  | none => (ep, none)
  | some t =>
    match op with
    | .retransmit renv =>
      if t.queue = .lost then ep.retransmit gcm i t renv else (ep, none)
    | .lose | .ack =>
      ({ ep with tracked := ep.tracked.set i (t.step gcm (some ep.aesCtx) op) }, none)

-- ==== both sides

inductive Side where
  | client
  | server
deriving DecidableEq, Repr

/-- A call of the cipher, with the side that made it and the number of the
packet. -/
structure Sealed where
  side : Side
  packno : UInt64
  call : SealCall
deriving DecidableEq, Repr

/-- Both endpoints, and all that was ever sealed. -/
structure Peers where
  client : Endpoint
  server : Endpoint
  log : List Sealed

def Peers.endpoint (s : Peers) : Side → Endpoint
  | .client => s.client
  | .server => s.server

/-- The peers with another endpoint on a side. -/
def Peers.setEndpoint (s : Peers) (side : Side) (ep : Endpoint) : Peers :=
  match side with
  | .client => { s with client := ep }
  | .server => { s with server := ep }

inductive EndpointOp where
  | send (env : SendEnv) (req : SendRequest)
  | event (i : Nat) (op : TrackedOp)

/-- The effect on the side's endpoint. -/
def Endpoint.apply (ep : Endpoint) : EndpointOp → Endpoint × Option SealCall
  | .send env req => ep.send gcm env req
  | .event i op => ep.event gcm i op

/-- One step of the pair: a side acts, and what it sealed is logged. -/
def Peers.step (s : Peers) (op : Side × EndpointOp) : Peers :=
  let ep := s.endpoint op.1
  let (ep', call) := ep.apply gcm op.2
  let s' := s.setEndpoint op.1 ep'
  match call with
  | none => s'
  | some call => { s' with log := s.log ++ [{ side := op.1, packno := ep.packetNumber, call }] }

/-- The peers when the handshake is complete. The client's INITIAL
packets have taken the numbers below `clientNumber`. -/
def Peers.handshake (x25519 : X25519) (cryptoType : FrameCryptoType)
    (clientKey serverKey : List UInt8) (clientCid serverCid : UInt32) (clientNumber : UInt64) :
    Peers where
  client :=
    { aesCtx := initAesContextByCryptoType x25519 cryptoType clientKey
        (x25519.publicKey serverKey) (clientCid ^^^ serverCid)
      localConnectionID := clientCid
      peerConnectionID := serverCid
      packetNumber := clientNumber
      tracked := [] }
  server :=
    { aesCtx := initAesContextByCryptoType x25519 cryptoType serverKey
        (x25519.publicKey clientKey) (serverCid ^^^ clientCid)
      localConnectionID := serverCid
      peerConnectionID := clientCid
      packetNumber := 1
      tracked := [] }
  log := []

end Eular.Utp
