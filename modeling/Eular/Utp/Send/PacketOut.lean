/-
Outgoing packets (`proto/packet_out.h`), the AES-GCM calls that seal them
(`crypto/aes_gcm_context.cpp`) and the editor that rewrites them before a
retransmission (`context/detail/packet_editor.cpp`).

# The buffer

`raw_data` is a header of twenty bytes and the bytes behind it. The
header is kept as its fields: every write the code makes into the first
twenty bytes is a write of one field. The bytes behind it are a memory,
`body`, since the code reads past what it wrote there: a pooled buffer
holds what the last packet left in it. Allocation succeeds throughout.

Sizes are 16-bit fields in the source; every assignment to one is
bounded by a check just before it, so they are numbers here.
-/
import Eular.Utp.Wire.PacketIn

namespace Eular.Utp

open Lib

/-- `PacketOutFlags`, the bits of `po_flags`. -/
structure PacketOutFlags where
  hello : Bool := false
  encrypted : Bool := false
  resetPackNo : Bool := false
  noEncrypt : Bool := false
  mtuProbe : Bool := false
  unAcked : Bool := false
  sched : Bool := false
  lost : Bool := false
  lossRecorded : Bool := false
  keepPlaintext : Bool := false
deriving DecidableEq, Repr

structure FrameMetaFlags where
  retransMustKeep : Bool := false
  transientOnRetrans : Bool := false
  droppableOnMtu : Bool := false
  splittable : Bool := false
deriving DecidableEq, Repr

/-- `FrameMetaInfo`: where in the packet a frame lies. -/
structure FrameMetaInfo where
  frameType : FrameType
  offset : Nat
  length : Nat
  frameFlags : FrameMetaFlags
deriving DecidableEq, Repr

def defaultFlags (frameType : FrameType) (transientAckBytes : Nat) : FrameMetaFlags :=
  if frameType = .ack ∧ 0 < transientAckBytes then
    { transientOnRetrans := true, droppableOnMtu := true }
  else if frameType = .stream then { retransMustKeep := true, splittable := true }
  else { retransMustKeep := true }

/-- The frame is an ACK frame or may be dropped when the packet is sent
again. -/
def FrameMetaInfo.isTransient (fm : FrameMetaInfo) : Bool :=
  fm.frameType = .ack || fm.frameFlags.transientOnRetrans

/-- `encrypt_data`: null, `raw_data` itself, or a buffer of its own. -/
inductive EncryptData where
  | null
  | rawData
  | buffer (bytes : List UInt8)
deriving DecidableEq, Repr

structure PacketOut where
  packno : UInt64
  frameTypes : Nat
  poFlags : PacketOutFlags
  dataSize : Nat
  encryptDataSize : Nat
  allocSize : Nat
  streamDataSize : Nat
  transientAckSize : Nat
  header : UTPHeaderProto
  body : Nat → UInt8
  encryptData : EncryptData
  frameMeta : List FrameMetaInfo

variable (packet : PacketOut)

/-- The bytes handed to the socket: `data_size` bytes of the sealed buffer
when there is one, else of `raw_data`. The slices of an unencrypted
packet are the header and the segments, the same bytes in order. -/
def PacketOut.wire : List UInt8 :=
  match packet.encryptData with
  | .buffer bytes => bytes.take packet.dataSize
  | .null | .rawData =>
    packet.header.serialize ++ readMem packet.body 0 (packet.dataSize - UTP_HEADER_SIZE)

-- ==== sealing

/-- One call of the cipher: what is sealed, and under what. -/
structure SealCall where
  key : List UInt8
  nonce : List UInt8
  aad : List UInt8
  plain : List UInt8
deriving DecidableEq, Repr

/-- The call that seals `plain` as packet `counter`. -/
def AesGcmContext.sealCall (ctx : AesGcmContext) (plain aad : List UInt8) (counter : UInt64) :
    SealCall :=
  { key := ctx.key, nonce := ctx.buildNonce counter, aad, plain }

/-- The call `AesGcmContext::encrypt(PacketOut*)` makes. -/
def AesGcmContext.encryptCall (ctx : AesGcmContext) (packet : PacketOut) : SealCall :=
  let plainPayloadLen := packet.dataSize - UTP_HEADER_SIZE
  ctx.sealCall (readMem packet.body 0 plainPayloadLen)
    { packet.header with payloadLength := .ofNat (plainPayloadLen + GCM_TAG_SIZE) }.serialize
    packet.packno

variable (gcm : Gcm)

/-- `AesGcmContext::encrypt(PacketOut*)`. The length field of the target
header already holds the ciphertext's length when the header is
authenticated. -/
def AesGcmContext.encrypt (ctx : AesGcmContext) (packet : PacketOut) :
    Except Status PacketOut :=
  if packet.dataSize < UTP_HEADER_SIZE then
    .error (.error .overflow
      ("packet too small for encrypt: data_size=" ++ toString packet.dataSize))
  else
    let plainPayloadLen := packet.dataSize - UTP_HEADER_SIZE
    let cipherPayloadLen := plainPayloadLen + GCM_TAG_SIZE
    let encryptedPacketLen := UTP_HEADER_SIZE + cipherPayloadLen
    if 65535 < encryptedPacketLen then
      .error (.error .overflow
        ("encrypted packet too large: " ++ toString encryptedPacketLen))
    else
      let target := { packet.header with payloadLength := .ofNat cipherPayloadLen }
      let cipher := ctx.sealBytes gcm (readMem packet.body 0 plainPayloadLen)
        target.serialize packet.packno
      let size := UTP_HEADER_SIZE + cipher.length
      let flags := { packet.poFlags with encrypted := true }
      if !packet.poFlags.keepPlaintext && encryptedPacketLen ≤ packet.allocSize then
        -- in place: the plaintext is gone
        .ok { packet with header := target, body := writeMem packet.body 0 cipher,
                          encryptData := .rawData, encryptDataSize := size, poFlags := flags }
      else
        .ok { packet with encryptData := .buffer (target.serialize ++ cipher),
                          encryptDataSize := size, poFlags := flags }

/-- `AesGcmContext::encryptScatter`, as `sendPacket` calls it: the segments
are sealed one after another into the packet's own buffer, behind the
header as it stands. -/
def AesGcmContext.encryptScatter (ctx : AesGcmContext) (segments : List (List UInt8))
    (aad : List UInt8) (counter : UInt64) (capacity : Nat) : Except Status (List UInt8) :=
  let required := segments.flatten.length + GCM_TAG_SIZE
  if capacity < required then
    .error (.error .overflow
      ("ciphertext buffer too small: required=" ++ toString required
        ++ ", provided=" ++ toString capacity))
  else .ok (ctx.sealBytes gcm segments.flatten aad counter)

-- ==== the editor

/-- `PacketEditor::RewritePacketNumber`, `packetNumber` being the number
the connection hands out. -/
def rewritePacketNumber (packetNumber : UInt64) : Option PacketOut :=
  if packet.dataSize < UTP_HEADER_SIZE then none
  else if packet.allocSize < 8 + 8 then none
  else
    some { packet with packno := packetNumber, header := { packet.header with pn := packetNumber } }

def rewritePayloadLength (payloadLen : Nat) : Option PacketOut :=
  if packet.allocSize < 16 + 2 then none
  else some { packet with header := { packet.header with payloadLength := .ofNat payloadLen } }

/-- The frames that stay when the ACK frame at `ackOffset` is cut out, at
their new offsets. -/
def shiftFrameMeta (ackOffset ackLength : Nat) (metas : List FrameMetaInfo) :
    List FrameMetaInfo :=
  (metas.filter fun fm => !fm.isTransient).map fun fm =>
    if ackOffset < fm.offset then { fm with offset := fm.offset - ackLength } else fm

/-- The bitmap of the listed frames; a HANDSHAKE_DONE frame always has a
HANDSHAKE_DELAY frame behind it. -/
def frameMetaBits (metas : List FrameMetaInfo) : Nat :=
  metas.foldl (fun bits fm =>
    if fm.frameType = .handshakeDone then
      bits ||| fm.frameType.bit ||| FrameType.handshakeDelay.bit
    else bits ||| fm.frameType.bit) 0

/-- Where `StripTransientAckPayload` takes the ACK frame to be. -/
def PacketOut.ackRange : Nat × Nat :=
  match packet.frameMeta.find? FrameMetaInfo.isTransient with
  | some fm => (fm.offset, fm.length)
  | none => (UTP_HEADER_SIZE, packet.transientAckSize)

def stripTransientAckPayload : Option PacketOut :=
  if packet.transientAckSize = 0 then some packet
  else if !packet.frameTypes.testBit FrameType.ack.value then
    some { packet with transientAckSize := 0 }
  else
    let (ackOffset, ackLength) := packet.ackRange
    let payloadLen := packet.dataSize - UTP_HEADER_SIZE
    let ackPayloadOffset := ackOffset - UTP_HEADER_SIZE
    if packet.dataSize < ackOffset + ackLength then none
    else if ackOffset < UTP_HEADER_SIZE || ackLength = 0 then none
    else if payloadLen < ackPayloadOffset + ackLength then none
    else
      let remainPayload := payloadLen - ackLength
      let body := writeMem packet.body ackPayloadOffset
        (readMem packet.body (ackPayloadOffset + ackLength)
          (payloadLen - (ackPayloadOffset + ackLength)))
      match rewritePayloadLength { packet with body } remainPayload with
      | none => none
      | some packet =>
        let frameMeta := shiftFrameMeta ackOffset ackLength packet.frameMeta
        some { packet with
          dataSize := UTP_HEADER_SIZE + remainPayload
          transientAckSize := 0
          frameMeta
          frameTypes :=
            if packet.frameMeta.any FrameMetaInfo.isTransient then frameMetaBits frameMeta
            else packet.frameTypes.ldiff FrameType.ack.bit
          encryptData := .null
          encryptDataSize := 0 }

end Eular.Utp
