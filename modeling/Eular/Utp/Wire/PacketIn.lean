/-
Received packets: the header (`proto/proto.h`), `PacketIn::decode`, the
AES-GCM context as the receiver uses it (`crypto/aes_gcm_context.cpp`),
and `DecodeUdpPacketWithOptionalAead`
(`context/packet_decode_helper.cpp`).

AES-GCM itself is OpenSSL's: an `Aead` here, with 16-byte tags. Its key
and nonce prefix are what a handshake negotiated.
-/
import Eular.Lib.Aead
import Eular.Utp.Wire.Frame

namespace Eular.Utp

open Lib

-- ==== header

def UTP_HEADER_SIZE : Nat := 20

/-- `UTP_TYPE_INITIAL`, `UTP_TYPE_HANDSHAKE`, `UTP_TYPE_CONNECTION_CLOSE`. -/
def UTP_TYPE_INITIAL : UInt8 := 0x01
def UTP_TYPE_HANDSHAKE : UInt8 := 0x02
def UTP_TYPE_CONNECTION_CLOSE : UInt8 := 0x04
def UTP_TYPE_CTRL : UInt8 := 0x05

structure UTPHeaderProto where
  scid : UInt32
  dcid : UInt32
  pn : UInt64
  payloadLength : UInt16
  types : UInt8
  reserve : UInt8
deriving DecidableEq, Repr

/-- The header as `Serialize::SerializeTo` lays it out. -/
def UTPHeaderProto.serialize (h : UTPHeaderProto) : List UInt8 :=
  bigEndian 4 h.scid.toNat ++ bigEndian 4 h.dcid.toNat ++ bigEndian 8 h.pn.toNat
    ++ bigEndian 2 h.payloadLength.toNat ++ bigEndian 1 h.types.toNat
    ++ bigEndian 1 h.reserve.toNat

/-- The `w`-byte field at `offset`, as `Serialize::DeserializeFrom` reads it. -/
def field (data : List UInt8) (offset w : Nat) : Nat :=
  ofBigEndian ((data.drop offset).take w)

/-- `ParseHeader`: the header and what follows it. -/
def parseHeader (data : List UInt8) : Option (UTPHeaderProto × List UInt8) :=
  if data.length < UTP_HEADER_SIZE then none
  else
    let header : UTPHeaderProto :=
      { scid := .ofNat (field data 0 4)
        dcid := .ofNat (field data 4 4)
        pn := .ofNat (field data 8 8)
        payloadLength := .ofNat (field data 16 2)
        types := .ofNat (field data 18 1)
        reserve := .ofNat (field data 19 1) }
    let rest := data.drop UTP_HEADER_SIZE
    if rest.length < header.payloadLength.toNat then none else some (header, rest)

theorem field_append {pre mid post : List UInt8} {offset w : Nat}
    (hpre : pre.length = offset) (hmid : mid.length = w) :
    field (pre ++ (mid ++ post)) offset w = ofBigEndian mid := by
  rw [field, List.drop_left' hpre, List.take_left' hmid]

@[simp] theorem UTPHeaderProto.length_serialize (h : UTPHeaderProto) :
    h.serialize.length = UTP_HEADER_SIZE := by
  simp [serialize, UTP_HEADER_SIZE]

theorem parseHeader_serialize (h : UTPHeaderProto) (rest : List UInt8) :
    parseHeader (h.serialize ++ rest)
      = if rest.length < h.payloadLength.toNat then none else some (h, rest) := by
  have hscid : field (h.serialize ++ rest) 0 4 = h.scid.toNat := by
    rw [UTPHeaderProto.serialize]
    simp only [List.append_assoc]
    rw [field, List.drop_zero, List.take_left' (length_bigEndian 4 _), ofBigEndian_bigEndian]
    exact Nat.mod_eq_of_lt h.scid.toNat_lt
  have hdcid : field (h.serialize ++ rest) 4 4 = h.dcid.toNat := by
    rw [UTPHeaderProto.serialize]
    simp only [List.append_assoc]
    rw [field_append (length_bigEndian 4 _) (length_bigEndian 4 _), ofBigEndian_bigEndian]
    exact Nat.mod_eq_of_lt h.dcid.toNat_lt
  have hpn : field (h.serialize ++ rest) 8 8 = h.pn.toNat := by
    rw [UTPHeaderProto.serialize, List.append_assoc, List.append_assoc, List.append_assoc,
      List.append_assoc, field_append (by simp) (length_bigEndian 8 _),
      ofBigEndian_bigEndian]
    exact Nat.mod_eq_of_lt h.pn.toNat_lt
  have hlen : field (h.serialize ++ rest) 16 2 = h.payloadLength.toNat := by
    rw [UTPHeaderProto.serialize, List.append_assoc, List.append_assoc, List.append_assoc,
      field_append (by simp) (length_bigEndian 2 _), ofBigEndian_bigEndian]
    exact Nat.mod_eq_of_lt h.payloadLength.toNat_lt
  have htypes : field (h.serialize ++ rest) 18 1 = h.types.toNat := by
    rw [UTPHeaderProto.serialize, List.append_assoc, List.append_assoc,
      field_append (by simp) (length_bigEndian 1 _), ofBigEndian_bigEndian]
    exact Nat.mod_eq_of_lt h.types.toNat_lt
  have hreserve : field (h.serialize ++ rest) 19 1 = h.reserve.toNat := by
    rw [UTPHeaderProto.serialize, List.append_assoc,
      field_append (by simp) (length_bigEndian 1 _), ofBigEndian_bigEndian]
    exact Nat.mod_eq_of_lt h.reserve.toNat_lt
  unfold parseHeader
  rw [if_neg (by simp), hscid, hdcid, hpn, hlen, htypes, hreserve,
    List.drop_left' h.length_serialize]
  simp only [UInt32.ofNat_toNat, UInt64.ofNat_toNat, UInt16.ofNat_toNat, UInt8.ofNat_toNat]

theorem UTPHeaderProto.serialize_injective {h h' : UTPHeaderProto}
    (heq : h.serialize = h'.serialize) : h = h' := by
  obtain ⟨pad, hpad⟩ : ∃ pad : List UInt8,
      h.payloadLength.toNat + h'.payloadLength.toNat = pad.length :=
    ⟨List.replicate (h.payloadLength.toNat + h'.payloadLength.toNat) 0, by simp⟩
  have hparse : parseHeader (h.serialize ++ pad) = parseHeader (h'.serialize ++ pad) := by
    rw [heq]
  rw [parseHeader_serialize, parseHeader_serialize, if_neg (by omega), if_neg (by omega)]
    at hparse
  simpa using hparse

-- ==== PacketIn

structure PacketIn where
  header : UTPHeaderProto
  payload : List UInt8
  frames : List (FrameType × List UInt8)
deriving DecidableEq, Repr

/-- `PacketIn::decode`: the header, the payload it announces, and the
frames of the payload. -/
def PacketIn.decode (data : List UInt8) : Option PacketIn :=
  match parseHeader data with
  | none => none
  | some (header, rest) =>
    let payload := rest.take header.payloadLength.toNat
    match Utp.frames payload with
    | none => none
    | some frames => some { header, payload, frames }

/-- The bitmap `frame_types`. -/
def PacketIn.frameTypes (p : PacketIn) : Nat := frameTypeBits p.frames

-- ==== AES-GCM

def GCM_TAG_SIZE : Nat := 16

/-- `AesGcmContext`: the key and the nonce prefix it was initialised with. -/
structure AesGcmContext where
  key : List UInt8
  noncePrefix : UInt32
deriving DecidableEq, Repr

/-- `AesGcmContext::buildNonce`: the prefix, then the packet number. -/
def AesGcmContext.buildNonce (ctx : AesGcmContext) (counter : UInt64) : List UInt8 :=
  bigEndian 4 ctx.noncePrefix.toNat ++ bigEndian 8 counter.toNat

/-- AES-GCM with the tag size the code assumes. -/
structure Gcm extends Aead where
  tagSize_eq : tagSize = GCM_TAG_SIZE

/-- Some cipher, for a connection that does not use one. -/
def unusedGcm : Gcm where
  toAead := oneTimeAead [] [] []
  tagSize_eq := rfl

variable (gcm : Gcm)

/-- The AEAD call of `AesGcmContext::encrypt` and `encryptScatter`. -/
def AesGcmContext.sealBytes (ctx : AesGcmContext) (plain aad : List UInt8)
    (counter : UInt64) : List UInt8 :=
  gcm.encrypt ctx.key (ctx.buildNonce counter) aad plain

/-- `AesGcmContext::decrypt`, `plainCapacity` being the room for the plain
text. -/
def AesGcmContext.decrypt (ctx : AesGcmContext) (cipher aad : List UInt8)
    (counter : UInt64) (plainCapacity : Nat) : Option (List UInt8) :=
  if cipher.length < GCM_TAG_SIZE then none
  else if plainCapacity < cipher.length - GCM_TAG_SIZE then none
  else gcm.decrypt ctx.key (ctx.buildNonce counter) aad cipher

/-- `DecodeUdpPacketWithOptionalAead` on a datagram `msg`, into a packet
buffer of `allocSize` bytes. All twenty bytes of the header are fields,
so copying them and then overwriting the two length bytes is serialising
the header with another length. -/
def decodeUdpPacketWithOptionalAead (aesCtx : Option AesGcmContext) (msg : List UInt8)
    (allocSize : Nat) : Option PacketIn :=
  match parseHeader msg with
  | none => none
  | some (header, payload) =>
    match aesCtx with
    | none => PacketIn.decode msg
    | some ctx =>
      if header.payloadLength.toNat < GCM_TAG_SIZE then none
      else if allocSize < UTP_HEADER_SIZE then none
      else if allocSize - UTP_HEADER_SIZE + GCM_TAG_SIZE < header.payloadLength.toNat then
        none
      else
        match ctx.decrypt gcm (payload.take header.payloadLength.toNat)
            (msg.take UTP_HEADER_SIZE) header.pn (allocSize - UTP_HEADER_SIZE) with
        | none => none
        | some plain =>
          let decodedSize := UTP_HEADER_SIZE + plain.length
          if allocSize < decodedSize ∨ msg.length < decodedSize then none
          else
            PacketIn.decode
              ({ header with payloadLength := .ofNat plain.length }.serialize ++ plain)

end Eular.Utp
