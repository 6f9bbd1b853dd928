/-
`ConnectionImpl::sendPacket` (`context/connection_impl.cpp`).

One call builds one packet: it decides from the packet's frames and the
connection's state whether the packet is sealed and whether it is kept
for retransmission, checks the size limits, takes a packet number, lays
the packet out, seals it and hands it to the socket.

# The two ways to seal

A packet that is kept is copied into its buffer in clear, and
`AesGcmContext::encrypt` seals a copy: the plaintext must survive for
the next transmission. A packet that is not kept is sealed by
`encryptScatter` straight from the caller's segments into its buffer.

The checks on null pointers have no counterpart here, and allocation
succeeds. `kPoSched` is refused by `schedulePacket` whenever it is asked
for: `sendPacket` has put the flag on the packet by then.
-/
import Eular.Utp.Send.PacketOut

namespace Eular.Utp

open Lib

/-- `ConnectionImpl::State`, in its order. -/
inductive ConnectionState where
  | waitSendInitial
  | initialSent
  | handshakeSent
  | handshakeReceived
  | connected
  | closeSent
  | closeReceived
  | ptoTimedWait
  | disconnected
deriving DecidableEq, Repr

def kFrameMax : Nat := 22

/-- `PACKET_OUT_MAX_SLICES`, `PACKET_OUT_MAX_FRAMES`. -/
def PACKET_OUT_MAX_SLICES : Nat := 8
def PACKET_OUT_MAX_FRAMES : Nat := 8

/-- `FirstFrameTypeBit`, `FirstFrameType`: the lowest type in a bitmap. -/
def firstFrameType (frameTypes : Nat) : FrameType :=
  (((List.range kFrameMax).find? fun b => frameTypes.testBit b).bind FrameType.ofValue).getD
    .invalid

/-- `MemoryManager::getPacketOut`: the size of the buffer handed out. -/
def packetOutAllocSize (size : Nat) : Nat :=
  if size ≤ 1232 then 1232
  else if size ≤ 1352 then 1352
  else if size ≤ 1452 then 1452
  else if size ≤ 4096 then 4096
  else 65535

/-- `MemoryManager::getPacketIn`. -/
def packetInAllocSize (size : Nat) : Nat :=
  if size ≤ 1280 then 1280 else if size ≤ 1500 then 1500 else 65535

/-- What `sendPacket` reads of the connection. -/
structure SendEnv where
  hasSocket : Bool
  hasSendCtl : Bool
  /-- `sendAddress.isValid()`. -/
  addressValid : Bool
  state : ConnectionState
  pathFailed : Bool
  aesCtx : Option AesGcmContext
  localConnectionID : UInt32
  peerConnectionID : UInt32
  /-- `m_packetNumber`: the next packet number. -/
  packetNumber : UInt64
  currentMaxPacketSize : Nat
  absoluteMaxPacketSize : Nat
  canSendOnCurrentPath : Nat → FrameType → Bool
  canSendStreamUnackedBytes : Nat → Bool
  /-- What the pooled buffer holds. -/
  rawMemory : Nat → UInt8
  /-- The socket's answer: `none` when the datagram was sent. -/
  udpSend : List UInt8 → Option Status

/-- The arguments of `sendPacket`. -/
structure SendRequest where
  packetType : UInt8
  segments : List (List UInt8)
  packetFlags : PacketOutFlags := {}
  frameTypeBitsOverride : Nat := 0
  streamDataBytes : Nat := 0
  transientAckBytes : Nat := 0
  /-- `FrameBuildMeta`: type and length of each frame. -/
  frameMetas : List (FrameType × Nat) := []

namespace SendRequest

variable (req : SendRequest)

/-- The payload: the segments one after another. -/
def payload : List UInt8 := req.segments.flatten

/-- `frameTypeBits`: given, or the type byte of the first segment that is
not empty. -/
def frameTypeBits : Nat :=
  if req.frameTypeBitsOverride ≠ 0 then req.frameTypeBitsOverride
  else
    let frameType := (req.payload.head?.map UInt8.toNat).getD 0
    if frameType < kFrameMax then 2 ^ frameType else 0

def effectiveFrameType : FrameType := firstFrameType req.frameTypeBits

def isClosePacket : Bool :=
  req.packetType = UTP_TYPE_CONNECTION_CLOSE
    || req.frameTypeBits.testBit FrameType.connectionClose.value

def isAckOnlyPacket : Bool := req.frameTypeBits = FrameType.ack.bit

/-- `shouldTrackPacket`: the packet is kept until it is acknowledged. -/
def shouldTrackPacket (env : SendEnv) : Bool :=
  let allowSendCtlRetrans :=
    env.state = .connected || env.state = .closeSent || env.state = .closeReceived
      || req.isClosePacket
  !req.isAckOnlyPacket && allowSendCtlRetrans

/-- `shouldEncrypt`, with the context it would use. -/
def encryptWith (env : SendEnv) : Option AesGcmContext :=
  if !req.packetFlags.noEncrypt
      && req.packetType ≠ UTP_TYPE_INITIAL && req.packetType ≠ UTP_TYPE_HANDSHAKE
      && req.effectiveFrameType ≠ .crypto && req.effectiveFrameType ≠ .version
  then env.aesCtx else none

def wirePacketLen (env : SendEnv) : Nat :=
  UTP_HEADER_SIZE + req.payload.length
    + (if (req.encryptWith env).isSome then GCM_TAG_SIZE else 0)

end SendRequest

/-- The checks `sendPacket` makes before it allocates. -/
def checkSend (env : SendEnv) (req : SendRequest) : Except Status Unit :=
  let wirePacketLen := req.wirePacketLen env
  if !env.hasSocket then .error (.error .socketWrite "udp socket is null")
  else if !env.addressValid then .error (.error .invalidParam "invalid send address")
  else if 65535 < req.payload.length then
    .error (.error .overflow "payload exceeds UINT16_MAX")
  else if env.pathFailed && !req.isClosePacket then .error (.error .invalidState "path failed")
  else if 65535 < wirePacketLen then .error (.error .overflow "packet exceeds UINT16_MAX")
  else if !req.packetFlags.mtuProbe && env.currentMaxPacketSize < wirePacketLen then
    .error (.error .wouldBlock "packet size exceeds current MTU")
  else if req.packetFlags.mtuProbe && env.absoluteMaxPacketSize < wirePacketLen then
    .error (.error .wouldBlock "MTU probe exceeds absolute max")
  else if !env.canSendOnCurrentPath wirePacketLen req.effectiveFrameType then
    .error (.error .pathValidationBlocked "path validation blocked")
  else if 0 < req.streamDataBytes && !env.canSendStreamUnackedBytes req.streamDataBytes then
    .error (.error .wouldBlock "congestion control blocked")
  else .ok ()

/-- The header `sendPacket` writes. -/
def sendHeader (env : SendEnv) (req : SendRequest) : UTPHeaderProto :=
  { scid := env.localConnectionID
    dcid := env.peerConnectionID
    pn := env.packetNumber
    payloadLength := .ofNat req.payload.length
    types := req.packetType
    reserve := 0 }

/-- The loop that fills `frame_meta`, from `framePayloadOffset` on. -/
def buildFrameMeta (transientAckBytes : Nat) : Nat → List (FrameType × Nat) → List FrameMetaInfo
  | _, [] => []
  | framePayloadOffset, (frameType, payloadBytes) :: metas =>
    { frameType, offset := framePayloadOffset, length := payloadBytes,
      frameFlags := defaultFlags frameType transientAckBytes }
    :: buildFrameMeta transientAckBytes ((framePayloadOffset + payloadBytes) % 2 ^ 16) metas

/-- The packet before its payload is placed. -/
def newPacketOut (env : SendEnv) (req : SendRequest) : PacketOut :=
  { packno := env.packetNumber
    frameTypes := req.frameTypeBits
    poFlags :=
      if (req.encryptWith env).isSome && req.shouldTrackPacket env then
        { req.packetFlags with keepPlaintext := true }
      else req.packetFlags
    dataSize := UTP_HEADER_SIZE + req.payload.length
    encryptDataSize := 0
    allocSize := packetOutAllocSize (req.wirePacketLen env)
    streamDataSize := min req.streamDataBytes (2 ^ 32 - 1)
    transientAckSize := req.transientAckBytes
    header := sendHeader env req
    body := env.rawMemory
    encryptData := .null
    frameMeta := buildFrameMeta req.transientAckBytes UTP_HEADER_SIZE req.frameMetas }

/-- The packet with its payload copied behind the header. -/
def packedPacket (env : SendEnv) (req : SendRequest) : PacketOut :=
  { newPacketOut env req with body := writeMem env.rawMemory 0 req.payload }

/-- `plainSegments`: at most eight of the segments that are not empty. -/
def plainSegments (req : SendRequest) : List (List UInt8) :=
  (req.segments.filter fun seg => !seg.isEmpty).take PACKET_OUT_MAX_SLICES

variable (gcm : Gcm)

/-- The payload of an untracked packet, sealed from the caller's segments.
The length field is rewritten after the header was authenticated. -/
def scatterEncryptOnly (ctx : AesGcmContext) (req : SendRequest) (packet : PacketOut) :
    Except Status PacketOut :=
  match ctx.encryptScatter gcm (plainSegments req) packet.header.serialize packet.packno
      (req.payload.length + GCM_TAG_SIZE) with
  | .error st => .error st
  | .ok cipher =>
    let size := UTP_HEADER_SIZE + cipher.length
    .ok { packet with
      header := { packet.header with payloadLength := .ofNat cipher.length }
      body := writeMem packet.body 0 cipher
      encryptData := .rawData
      encryptDataSize := size
      dataSize := size
      poFlags := { packet.poFlags with encrypted := true } }

/-- The packet as it goes to the socket. Its number is taken by now. -/
def buildPacket (env : SendEnv) (req : SendRequest) : Except Status PacketOut :=
  if PACKET_OUT_MAX_FRAMES < req.frameMetas.length then
    .error (.error .overflow "serialize failed")
  else
    match req.encryptWith env with
    | none => .ok (packedPacket env req)
    | some ctx =>
      if req.shouldTrackPacket env then
        match ctx.encrypt gcm (packedPacket env req) with
        | .error st => .error st
        | .ok packet => .ok { packet with dataSize := packet.encryptDataSize }
      else scatterEncryptOnly gcm ctx req (newPacketOut env req)

/-- After a tracked packet left, its sealed copy is released. -/
def releaseSealedCopy (packet : PacketOut) : PacketOut :=
  match packet.encryptData with
  | .buffer _ =>
    if packet.poFlags.keepPlaintext then
      { packet with encryptData := .null, encryptDataSize := 0 }
    else packet
  | .null | .rawData => packet

/-- What a successful `sendPacket` did: the datagram, and the packet the
send control keeps. -/
structure Sent where
  wire : List UInt8
  kept : Option PacketOut

def sendPacket (env : SendEnv) (req : SendRequest) : Except Status Sent :=
  match checkSend env req with
  | .error st => .error st
  | .ok () =>
    match buildPacket gcm env req with
    | .error st => .error st
    | .ok packet =>
      if req.packetFlags.sched then
        .error (.error .invalidState
          (if env.hasSendCtl then "packet already scheduled"
           else "send control unavailable for scheduled packet"))
      else
        match env.udpSend packet.wire with
        | some udpSt =>
          if udpSt.ok || udpSt.code = .wouldBlock then
            .error (.error .wouldBlock "UDP send would block")
          else .error udpSt
        | none =>
          .ok { wire := packet.wire
                kept :=
                  if req.shouldTrackPacket env && env.hasSendCtl then
                    some (releaseSealedCopy packet) else none }

-- ==== what a call leaves behind

/-- `m_packetNumber` after `sendPacket`: a number is taken once the checks
have passed, whatever happens then. -/
def numberAfterSend (env : SendEnv) (req : SendRequest) : UInt64 :=
  match checkSend env req with
  | .error _ => env.packetNumber
  | .ok () => env.packetNumber + 1

/-- The call of the cipher `sendPacket` makes, if it makes one. -/
def sendSealCall (env : SendEnv) (req : SendRequest) : Option SealCall :=
  match checkSend env req with
  | .error _ => none
  | .ok () =>
    if PACKET_OUT_MAX_FRAMES < req.frameMetas.length then none
    else
      (req.encryptWith env).map fun ctx =>
        if req.shouldTrackPacket env then ctx.encryptCall (packedPacket env req)
        else ctx.sealCall (plainSegments req).flatten (sendHeader env req).serialize
          env.packetNumber

end Eular.Utp
