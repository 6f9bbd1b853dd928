/-
What the receiver makes of a packet `sendPacket` sealed.

A tracked packet is sealed by `AesGcmContext::encrypt`, which writes the
ciphertext's length into the header first and then authenticates it. The
receiver authenticates the header it received, so it accepts.

An untracked packet is sealed by `encryptScatter` under the header with
the plaintext's length, and the length field is rewritten afterwards. The
receiver authenticates another header and rejects the packet. The two
headers agree only if more than eight segments were given and those left
out were sixteen bytes long; then the packet is accepted, short of them.

So a sealed packet is received as it was sent exactly when it is tracked
(`receivedAsSent_iff`).
-/
import Eular.Utp.Send.SendPacket

/-
Sealed datagrams, and what the receiver makes of one.

`sealedWire` is the datagram the receiver expects: a header that
announces the ciphertext, and the payload sealed under that very header.
`decode_sealedWire` says that `DecodeUdpPacketWithOptionalAead` gives the
payload back, whatever its bytes are; whether the packet is then accepted
is the frame parser's matter. `encrypt_ok` says that
`AesGcmContext::encrypt` makes such a datagram, in place or not.
-/

namespace Eular.Utp

open Lib

variable {gcm : Gcm} {ctx : AesGcmContext}

@[simp] theorem AesGcmContext.length_sealBytes (plain aad : List UInt8) (counter : UInt64) :
    (ctx.sealBytes gcm plain aad counter).length = plain.length + GCM_TAG_SIZE := by
  rw [AesGcmContext.sealBytes, gcm.encrypt_length, gcm.tagSize_eq]

theorem le_packetInAllocSize {n : Nat} (h : n ≤ 65535) : n ≤ packetInAllocSize n := by
  unfold packetInAllocSize
  split
  · omega
  · split <;> omega

-- ==== decoding

theorem PacketIn.decode_serialize (h : UTPHeaderProto) {payload : List UInt8}
    (hlen : payload.length < 2 ^ 16) :
    PacketIn.decode ({ h with payloadLength := .ofNat payload.length }.serialize ++ payload)
      = (Utp.frames payload).map fun frames =>
          { header := { h with payloadLength := .ofNat payload.length }, payload, frames } := by
  have hsize : (UInt16.ofNat payload.length).toNat = payload.length := by
    rw [UInt16.toNat_ofNat']
    exact Nat.mod_eq_of_lt hlen
  unfold PacketIn.decode
  rw [parseHeader_serialize]
  simp only [hsize, lt_self_iff_false, if_false, List.take_length]
  cases Utp.frames payload with
  | none => rfl
  | some fs => rfl

/-- The datagram for `plain` under header `h`. -/
def sealedWire (gcm : Gcm) (ctx : AesGcmContext) (h : UTPHeaderProto) (plain : List UInt8) :
    List UInt8 :=
  let target := { h with payloadLength := .ofNat (plain.length + GCM_TAG_SIZE) }
  target.serialize ++ ctx.sealBytes gcm plain target.serialize h.pn

theorem length_sealedWire (h : UTPHeaderProto) (plain : List UInt8) :
    (sealedWire gcm ctx h plain).length = UTP_HEADER_SIZE + plain.length + GCM_TAG_SIZE := by
  simp only [sealedWire, List.length_append, UTPHeaderProto.length_serialize,
    AesGcmContext.length_sealBytes]
  omega

/-- Opening a datagram whose header announces `cipher` is decrypting
`cipher` under that header. -/
theorem decode_datagram (h : UTPHeaderProto) {cipher : List UInt8}
    (hannounced : h.payloadLength.toNat = cipher.length)
    (htag : GCM_TAG_SIZE ≤ cipher.length)
    (hsize : UTP_HEADER_SIZE + cipher.length ≤ 65535)
    (hplain : ∀ plain, gcm.decrypt ctx.key (ctx.buildNonce h.pn) h.serialize cipher = some plain →
      plain.length + GCM_TAG_SIZE = cipher.length) :
    decodeUdpPacketWithOptionalAead gcm (some ctx) (h.serialize ++ cipher)
        (packetInAllocSize (h.serialize ++ cipher).length)
      = (gcm.decrypt ctx.key (ctx.buildNonce h.pn) h.serialize cipher).bind fun plain =>
          PacketIn.decode ({ h with payloadLength := .ofNat plain.length }.serialize ++ plain) := by
  have hlen : (h.serialize ++ cipher).length = UTP_HEADER_SIZE + cipher.length := by
    rw [List.length_append, h.length_serialize]
  have halloc := le_packetInAllocSize hsize
  have htagSize : GCM_TAG_SIZE = 16 := rfl
  unfold decodeUdpPacketWithOptionalAead
  rw [parseHeader_serialize, if_neg (by omega)]
  simp only [hlen, hannounced, List.take_length, List.take_left' h.length_serialize]
  rw [if_neg (by omega), if_neg (by omega), if_neg (by omega)]
  unfold AesGcmContext.decrypt
  rw [if_neg (by omega), if_neg (by omega)]
  cases hdec : gcm.decrypt ctx.key (ctx.buildNonce h.pn) h.serialize cipher with
  | none => rfl
  | some plain =>
    have := hplain plain hdec
    simp only [Option.bind_some]
    rw [if_neg (by omega)]

theorem decode_sealedWire (h : UTPHeaderProto) {plain : List UInt8}
    (hsize : UTP_HEADER_SIZE + plain.length + GCM_TAG_SIZE ≤ 65535) :
    decodeUdpPacketWithOptionalAead gcm (some ctx) (sealedWire gcm ctx h plain)
        (packetInAllocSize (sealedWire gcm ctx h plain).length)
      = (Utp.frames plain).map fun frames =>
          { header := { h with payloadLength := .ofNat plain.length }, payload := plain,
            frames } := by
  have htagSize : GCM_TAG_SIZE = 16 := rfl
  have hheader : UTP_HEADER_SIZE = 20 := rfl
  have hannounced : (UInt16.ofNat (plain.length + GCM_TAG_SIZE)).toNat
      = plain.length + GCM_TAG_SIZE := by
    rw [UInt16.toNat_ofNat']
    apply Nat.mod_eq_of_lt
    omega
  have hopen := gcm.decrypt_encrypt ctx.key (ctx.buildNonce h.pn)
    { h with payloadLength := .ofNat (plain.length + GCM_TAG_SIZE) }.serialize plain
  simp only [sealedWire]
  rw [decode_datagram]
  · rw [AesGcmContext.sealBytes]
    simp only [hopen, Option.bind_some]
    exact PacketIn.decode_serialize _ (by omega)
  · rw [hannounced, AesGcmContext.length_sealBytes]
  · rw [AesGcmContext.length_sealBytes]
    omega
  · rw [AesGcmContext.length_sealBytes]
    omega
  · intro opened hsome
    rw [AesGcmContext.sealBytes] at hsome ⊢
    simp only [hopen, Option.some.injEq] at hsome
    rw [← hsome, gcm.encrypt_length, gcm.tagSize_eq]

-- ==== encrypt

/-- What `AesGcmContext::encrypt` leaves, wherever it put the
ciphertext. -/
structure Encrypted (gcm : Gcm) (ctx : AesGcmContext) (packet packet' : PacketOut) : Prop where
  header_le : UTP_HEADER_SIZE ≤ packet.dataSize
  size_le : packet.dataSize + GCM_TAG_SIZE ≤ 65535
  encryptDataSize : packet'.encryptDataSize = packet.dataSize + GCM_TAG_SIZE
  wire : { packet' with dataSize := packet'.encryptDataSize }.wire
    = sealedWire gcm ctx packet.header
        (readMem packet.body 0 (packet.dataSize - UTP_HEADER_SIZE))
  encrypted : packet'.poFlags.encrypted = true
  resetPackNo : packet'.poFlags.resetPackNo = packet.poFlags.resetPackNo
  keepPlaintext : packet'.poFlags.keepPlaintext = packet.poFlags.keepPlaintext
  body : packet.poFlags.keepPlaintext = true → packet'.body = packet.body
  allocSize : packet'.allocSize = packet.allocSize
  streamDataSize : packet'.streamDataSize = packet.streamDataSize
  transientAckSize : packet'.transientAckSize = packet.transientAckSize
  frameTypes : packet'.frameTypes = packet.frameTypes
  frameMeta : packet'.frameMeta = packet.frameMeta

/-- `AesGcmContext::encrypt` seals the plaintext it is given, for a packet
whose header carries its number. -/
theorem encrypt_ok {packet packet' : PacketOut} (hpn : packet.header.pn = packet.packno)
    (h : ctx.encrypt gcm packet = .ok packet') : Encrypted gcm ctx packet packet' := by
  have hheader : UTP_HEADER_SIZE = 20 := rfl
  have htag : GCM_TAG_SIZE = 16 := rfl
  unfold AesGcmContext.encrypt at h
  split at h
  · cases h
  · rename_i hdata
    simp only at h
    split at h
    · cases h
    · rename_i hbig
      split at h
      · cases h
        rename_i hplace
        have hkeep : packet.poFlags.keepPlaintext = false := by
          cases hk : packet.poFlags.keepPlaintext with
          | false => rfl
          | true => simp [hk] at hplace
        refine ⟨by omega, by omega, ?_, ?_, rfl, rfl, rfl, ?_, rfl, rfl, rfl, rfl, rfl⟩
        · simp only [AesGcmContext.length_sealBytes, length_readMem]
          omega
        · simp only [PacketOut.wire, sealedWire, length_readMem, hpn]
          rw [Nat.add_sub_cancel_left, readMem_writeMem]
        · intro hk
          rw [hkeep] at hk
          cases hk
      · cases h
        refine ⟨by omega, by omega, ?_, ?_, rfl, rfl, rfl, fun _ => rfl, rfl, rfl, rfl, rfl, rfl⟩
        · simp only [AesGcmContext.length_sealBytes, length_readMem]
          omega
        · simp only [PacketOut.wire, sealedWire, length_readMem, hpn]
          rw [List.take_of_length_le]
          rw [List.length_append, UTPHeaderProto.length_serialize]

end Eular.Utp

namespace Eular.Utp

open Lib

variable {gcm : Gcm} {ctx : AesGcmContext} {env : SendEnv} {req : SendRequest} {sent : Sent}
variable {packet : PacketOut}

-- ==== a successful send

/-- Everything a successful `sendPacket` implies. -/
structure SentBy (gcm : Gcm) (env : SendEnv) (req : SendRequest) (sent : Sent)
    (packet : PacketOut) : Prop where
  wirePacketLen : req.wirePacketLen env ≤ 65535
  built : buildPacket gcm env req = .ok packet
  wire : sent.wire = packet.wire
  kept : sent.kept = if req.shouldTrackPacket env && env.hasSendCtl then
    some (releaseSealedCopy packet) else none

theorem checkSend_ok (h : checkSend env req = .ok ()) : req.wirePacketLen env ≤ 65535 := by
  unfold checkSend at h
  by_contra hbig
  rw [not_le] at hbig
  simp only [hbig, if_true] at h
  split_ifs at h

theorem sendPacket_ok (h : sendPacket gcm env req = .ok sent) :
    ∃ packet, SentBy gcm env req sent packet := by
  unfold sendPacket at h
  split at h
  · cases h
  · rename_i hcheck
    split at h
    · cases h
    · rename_i packet hbuilt
      split at h
      · cases h
      · split at h
        · split at h <;> cases h
        · cases h
          exact ⟨packet, checkSend_ok hcheck, hbuilt, rfl, rfl⟩

theorem wirePacketLen_sealed (hctx : req.encryptWith env = some ctx) :
    req.wirePacketLen env = UTP_HEADER_SIZE + req.payload.length + GCM_TAG_SIZE := by
  rw [SendRequest.wirePacketLen, hctx]
  rfl

-- ==== the tracked path

/-- A tracked, sealed packet is what `encrypt` makes of the plain one. -/
theorem buildPacket_tracked (hctx : req.encryptWith env = some ctx)
    (htrack : req.shouldTrackPacket env = true) (h : buildPacket gcm env req = .ok packet) :
    ∃ packet', Encrypted gcm ctx (packedPacket env req) packet'
      ∧ packet = { packet' with dataSize := packet'.encryptDataSize } := by
  unfold buildPacket at h
  simp only [hctx, htrack, if_true] at h
  split at h
  · cases h
  · split at h
    · cases h
    · rename_i packet' henc
      cases h
      exact ⟨packet', encrypt_ok rfl henc, rfl⟩

theorem readMem_packedPacket (env : SendEnv) (req : SendRequest) :
    readMem (packedPacket env req).body 0 req.payload.length = req.payload := by
  rw [packedPacket, readMem_writeMem]

theorem wire_tracked (hctx : req.encryptWith env = some ctx)
    (htrack : req.shouldTrackPacket env = true) (h : buildPacket gcm env req = .ok packet) :
    packet.wire = sealedWire gcm ctx (sendHeader env req) req.payload := by
  obtain ⟨packet', henc, rfl⟩ := buildPacket_tracked hctx htrack h
  have hplain : (packedPacket env req).dataSize - UTP_HEADER_SIZE = req.payload.length :=
    Nat.add_sub_cancel_left ..
  rw [henc.wire, hplain, readMem_packedPacket]
  rfl

-- ==== the untracked path

/-- What `encryptScatter` is given to seal. -/
def scatterPlain (req : SendRequest) : List UInt8 := (plainSegments req).flatten

theorem length_scatterPlain_le (req : SendRequest) :
    (scatterPlain req).length ≤ req.payload.length := by
  have hsub : (plainSegments req).Sublist req.segments :=
    (List.take_sublist _ _).trans List.filter_sublist
  exact hsub.flatten.length_le

/-- The buffer is always large enough for `encryptScatter`. -/
theorem encryptScatter_segments (aad : List UInt8) (counter : UInt64) :
    ctx.encryptScatter gcm (plainSegments req) aad counter (req.payload.length + GCM_TAG_SIZE)
      = .ok (ctx.sealBytes gcm (scatterPlain req) aad counter) := by
  unfold AesGcmContext.encryptScatter
  exact if_neg (not_lt.mpr (Nat.add_le_add_right (length_scatterPlain_le req) _))

/-- The datagram of an untracked, sealed packet: the header says how long
the ciphertext is, but was authenticated before it did. -/
theorem wire_untracked (hctx : req.encryptWith env = some ctx)
    (htrack : req.shouldTrackPacket env = false) (h : buildPacket gcm env req = .ok packet) :
    packet.wire =
      { sendHeader env req with
        payloadLength := .ofNat ((scatterPlain req).length + GCM_TAG_SIZE) }.serialize
      ++ ctx.sealBytes gcm (scatterPlain req) (sendHeader env req).serialize
          env.packetNumber := by
  unfold buildPacket at h
  simp only [hctx, htrack, Bool.false_eq_true, if_false] at h
  split at h
  · cases h
  · unfold scatterEncryptOnly at h
    simp only [encryptScatter_segments] at h
    cases h
    simp only [PacketOut.wire, AesGcmContext.length_sealBytes, newPacketOut]
    rw [Nat.add_sub_cancel_left]
    congr 1
    have hread := readMem_writeMem env.rawMemory 0
      (ctx.sealBytes gcm (scatterPlain req) (sendHeader env req).serialize env.packetNumber)
    rw [AesGcmContext.length_sealBytes] at hread
    exact hread

-- ==== the receiver

/-- The receiver, with the same key and nonce prefix, accepts the datagram
and finds the header fields and the payload that were sent. -/
def ReceivedAsSent (gcm : Gcm) (ctx : AesGcmContext) (env : SendEnv) (req : SendRequest)
    (wire : List UInt8) : Prop :=
  ∃ packet,
    decodeUdpPacketWithOptionalAead gcm (some ctx) wire (packetInAllocSize wire.length)
        = some packet
      ∧ packet.header = sendHeader env req ∧ packet.payload = req.payload

theorem receivedAsSent_sealedWire
    (hsize : UTP_HEADER_SIZE + req.payload.length + GCM_TAG_SIZE ≤ 65535)
    (hframes : (Utp.frames req.payload).isSome) :
    ReceivedAsSent gcm ctx env req (sealedWire gcm ctx (sendHeader env req) req.payload) := by
  obtain ⟨fs, hfs⟩ := Option.isSome_iff_exists.mp hframes
  refine ⟨{ header := sendHeader env req, payload := req.payload, frames := fs }, ?_, rfl, rfl⟩
  rw [decode_sealedWire _ hsize, hfs]
  rfl

/-- A packet sealed under the header with the plaintext's length is not
received as it was sent. -/
theorem not_receivedAsSent_untracked
    (hsize : UTP_HEADER_SIZE + req.payload.length + GCM_TAG_SIZE ≤ 65535)
    (hauth : gcm.Authentic ctx.key (ctx.buildNonce env.packetNumber)
      (sendHeader env req).serialize (scatterPlain req)) :
    ¬ ReceivedAsSent gcm ctx env req
      ({ sendHeader env req with
          payloadLength := .ofNat ((scatterPlain req).length + GCM_TAG_SIZE) }.serialize
        ++ ctx.sealBytes gcm (scatterPlain req) (sendHeader env req).serialize
            env.packetNumber) := by
  have hheader : UTP_HEADER_SIZE = 20 := rfl
  have htag : GCM_TAG_SIZE = 16 := rfl
  have hle := length_scatterPlain_le req
  have hannounced : (UInt16.ofNat ((scatterPlain req).length + GCM_TAG_SIZE)).toNat
      = (scatterPlain req).length + GCM_TAG_SIZE := by
    rw [UInt16.toNat_ofNat']
    apply Nat.mod_eq_of_lt
    omega
  have hopen := gcm.decrypt_encrypt ctx.key (ctx.buildNonce env.packetNumber)
    (sendHeader env req).serialize (scatterPlain req)
  intro hreceived
  obtain ⟨packet, hdecode, -, hpayload⟩ := hreceived
  by_cases hsame : { sendHeader env req with
      payloadLength := .ofNat ((scatterPlain req).length + GCM_TAG_SIZE) } = sendHeader env req
  · -- the headers agree, so what was left out is as long as the tag
    have hshort : (scatterPlain req).length + GCM_TAG_SIZE = req.payload.length := by
      have hfield := congrArg (fun h => h.payloadLength.toNat) hsame
      simp only [hannounced, sendHeader] at hfield
      rw [UInt16.toNat_ofNat', Nat.mod_eq_of_lt (by omega)] at hfield
      exact hfield
    have hwire : { sendHeader env req with
          payloadLength := .ofNat ((scatterPlain req).length + GCM_TAG_SIZE) }.serialize
        ++ ctx.sealBytes gcm (scatterPlain req) (sendHeader env req).serialize env.packetNumber
        = sealedWire gcm ctx (sendHeader env req) (scatterPlain req) := by
      rw [sealedWire, hsame]
      rfl
    rw [hwire, decode_sealedWire _ (by omega)] at hdecode
    obtain ⟨fs, -, rfl⟩ := Option.map_eq_some_iff.mp hdecode
    have := congrArg List.length hpayload
    simp only at this
    omega
  · -- another header is authenticated than was sealed
    have hreject : gcm.decrypt ctx.key (ctx.buildNonce env.packetNumber)
        { sendHeader env req with
          payloadLength := .ofNat ((scatterPlain req).length + GCM_TAG_SIZE) }.serialize
        (ctx.sealBytes gcm (scatterPlain req) (sendHeader env req).serialize env.packetNumber)
        = none := by
      apply hauth
      intro hpair
      exact hsame (UTPHeaderProto.serialize_injective (Prod.mk.inj hpair).2)
    have hpn : ({ sendHeader env req with
        payloadLength := .ofNat ((scatterPlain req).length + GCM_TAG_SIZE) } :
          UTPHeaderProto).pn = env.packetNumber := rfl
    rw [decode_datagram, hpn, hreject] at hdecode
    · cases hdecode
    · rw [hannounced, AesGcmContext.length_sealBytes]
    · rw [AesGcmContext.length_sealBytes]
      omega
    · rw [AesGcmContext.length_sealBytes]
      omega
    · intro plain hplain
      rw [hpn, hreject] at hplain
      cases hplain

/-- A sealed packet that was sent is received as it was sent exactly when
it is tracked. -/
theorem receivedAsSent_iff (hsent : sendPacket gcm env req = .ok sent)
    (hctx : req.encryptWith env = some ctx) (hframes : (Utp.frames req.payload).isSome)
    (hauth : gcm.Authentic ctx.key (ctx.buildNonce env.packetNumber)
      (sendHeader env req).serialize (scatterPlain req)) :
    ReceivedAsSent gcm ctx env req sent.wire ↔ req.shouldTrackPacket env = true := by
  obtain ⟨packet, h⟩ := sendPacket_ok hsent
  have hsize : UTP_HEADER_SIZE + req.payload.length + GCM_TAG_SIZE ≤ 65535 := by
    rw [← wirePacketLen_sealed hctx]
    exact h.wirePacketLen
  rw [h.wire]
  cases htrack : req.shouldTrackPacket env with
  | true =>
    rw [wire_tracked hctx htrack h.built]
    exact ⟨fun _ => rfl, fun _ => receivedAsSent_sealedWire hsize hframes⟩
  | false =>
    rw [wire_untracked hctx htrack h.built]
    exact ⟨fun hr => absurd hr (not_receivedAsSent_untracked hsize hauth), fun hf => by cases hf⟩

-- ==== instances

/-- The key and nonce prefix of the connection below. -/
def sharedCtx : AesGcmContext := { key := List.replicate 16 1, noncePrefix := 0x3003 }

/-- An established connection about to send packet 7. -/
def connectedEnv : SendEnv where
  hasSocket := true
  hasSendCtl := true
  addressValid := true
  state := .connected
  pathFailed := false
  aesCtx := some sharedCtx
  localConnectionID := 0x1001
  peerConnectionID := 0x2002
  packetNumber := 7
  currentMaxPacketSize := 1232
  absoluteMaxPacketSize := 1452
  canSendOnCurrentPath := fun _ _ => true
  canSendStreamUnackedBytes := fun _ => true
  rawMemory := fun _ => 0
  udpSend := fun _ => none

def pingRequest : SendRequest where
  packetType := UTP_TYPE_CTRL
  segments := [[5]]

def ackRequest : SendRequest where
  packetType := UTP_TYPE_CTRL
  segments := [[2, 0, 0, 1, 0, 0, 0, 0, 0, 0, 0, 0, 0, 0, 0, 1]]

/-- A cipher for which what `req` seals in `connectedEnv` is authentic. -/
def oneTimeGcm (req : SendRequest) : Gcm where
  toAead := oneTimeAead
    (sharedCtx.buildNonce connectedEnv.packetNumber)
    (sendHeader connectedEnv req).serialize (scatterPlain req)
  tagSize_eq := rfl

theorem receivedAsSent_ping :
    ∃ sent, sendPacket (oneTimeGcm pingRequest) connectedEnv pingRequest = .ok sent
      ∧ ReceivedAsSent (oneTimeGcm pingRequest) sharedCtx connectedEnv pingRequest sent.wire :=
  ⟨_, rfl, (receivedAsSent_iff rfl rfl (by decide) (oneTimeAead_authentic _ _ _ _)).mpr rfl⟩

/-- An ACK that goes out alone is untracked, and the peer drops it. -/
theorem not_receivedAsSent_ack :
    ∃ sent, sendPacket (oneTimeGcm ackRequest) connectedEnv ackRequest = .ok sent
      ∧ (ackRequest.encryptWith connectedEnv).isSome
      ∧ (Utp.frames ackRequest.payload).isSome
      ∧ ¬ ReceivedAsSent (oneTimeGcm ackRequest) sharedCtx connectedEnv ackRequest
          sent.wire := by
  refine ⟨_, rfl, by decide, by decide, ?_⟩
  intro hreceived
  obtain ⟨packet, hdecode, -, -⟩ := hreceived
  have hnone : decodeUdpPacketWithOptionalAead (oneTimeGcm ackRequest) (some sharedCtx)
      ({ sendHeader connectedEnv ackRequest with
          payloadLength := .ofNat ((scatterPlain ackRequest).length + GCM_TAG_SIZE) }.serialize
        ++ sharedCtx.sealBytes (oneTimeGcm ackRequest) (scatterPlain ackRequest)
            (sendHeader connectedEnv ackRequest).serialize 7) 1280 = none := by
    decide
  exact absurd (hdecode.symm.trans hnone) (by simp)

end Eular.Utp
