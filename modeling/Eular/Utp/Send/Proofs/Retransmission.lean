/-
Sealed packets that are lost and sent again.

`AesGcmContext::encrypt` takes `data_size` for the length of the plaintext
packet. `sendPacket` and `retransmitLostPacket` then set `data_size` to
the length of the sealed one, so the next time round sixteen bytes too
many are sealed, and sixteen more each time after that. `Padded` is what
is true of a tracked packet between transmissions: its buffer holds the
payload, but `data_size` counts bytes behind it.

The first transmission is right, and no other is
(`preservesPayload_iff_first`).
-/
import Eular.Lib.Run
import Eular.Utp.Send.Retransmit
import Eular.Utp.Send.Proofs.TwoPaths

namespace Eular.Utp

open Lib

variable {packet packet' : PacketOut}

-- ==== what is expected

/-- The first ACK frame among `metas`: its offset in the payload, counted
from `offset`, and its length. -/
def findAckFrame : Nat → List (FrameType × Nat) → Option (Nat × Nat)
  | _, [] => none
  | offset, (frameType, len) :: metas =>
    if frameType = .ack then some (offset, len) else findAckFrame (offset + len) metas

namespace SendRequest

variable (req : SendRequest)

/-- The piggybacked ACK frame in the payload: offset and length. -/
def transientAckRange : Nat × Nat :=
  (findAckFrame 0 req.frameMetas).getD (0, req.transientAckBytes)

/-- The packet carries stream data and an ACK frame that need not be sent
again. -/
def hasTransientAck : Bool :=
  0 < req.streamDataBytes && 0 < req.transientAckBytes
    && req.frameTypeBits.testBit FrameType.ack.value

/-- The payload without the transient ACK frame. -/
def strippedPayload : List UInt8 :=
  if req.hasTransientAck then
    req.payload.take req.transientAckRange.1
      ++ req.payload.drop (req.transientAckRange.1 + req.transientAckRange.2)
  else req.payload

/-- The frame bytes transmission `n` has to carry; the original one is
transmission 0. -/
def payloadOfRound (n : Nat) : List UInt8 :=
  if n = 0 then req.payload else req.strippedPayload

/-- What the callers of `sendPacket` see to: the payload is a sequence of
frames, and what is said about the frames' places stays inside it. -/
structure Consistent : Prop where
  frames : (Utp.frames req.payload).isSome
  frameMetas : (req.frameMetas.map Prod.snd).sum ≤ req.payload.length
  transientAckBytes : req.transientAckBytes ≤ req.payload.length

end SendRequest

/-- The two halves of a faithful transmission: the receiver finds exactly
the expected frame bytes, and the datagram is as long as they need. -/
def OpensTo (gcm : Gcm) (ctx : AesGcmContext) (wire payload : List UInt8) : Prop :=
  ∃ packet,
    decodeUdpPacketWithOptionalAead gcm (some ctx) wire (packetInAllocSize wire.length)
        = some packet
      ∧ packet.payload = payload

def PreservesPayload (gcm : Gcm) (ctx : AesGcmContext) (wire payload : List UInt8) : Prop :=
  OpensTo gcm ctx wire payload
    ∧ wire.length = UTP_HEADER_SIZE + payload.length + GCM_TAG_SIZE

variable {gcm : Gcm} {ctx : AesGcmContext} {env : SendEnv} {req : SendRequest} {sent : Sent}

theorem findAckFrame_le {offset : Nat} {metas : List (FrameType × Nat)} {range : Nat × Nat}
    (h : findAckFrame offset metas = some range) :
    range.1 + range.2 ≤ offset + (metas.map Prod.snd).sum := by
  induction metas generalizing offset with
  | nil => cases h
  | cons fm metas ih =>
    simp only [findAckFrame] at h
    simp only [List.map_cons, List.sum_cons]
    split at h
    · cases h
      simp only
      omega
    · have := ih h
      omega

theorem SendRequest.Consistent.range_le (hc : req.Consistent) :
    req.transientAckRange.1 + req.transientAckRange.2 ≤ req.payload.length := by
  unfold SendRequest.transientAckRange
  cases hfind : findAckFrame 0 req.frameMetas with
  | none =>
    have := hc.transientAckBytes
    simp only [Option.getD_none]
    omega
  | some range =>
    have hle := findAckFrame_le hfind
    have := hc.frameMetas
    simp only [Option.getD_some]
    omega

theorem isTransient_build (frameType : FrameType) (offset len transientAckBytes : Nat) :
    FrameMetaInfo.isTransient
      { frameType, offset, length := len,
        frameFlags := defaultFlags frameType transientAckBytes }
      = decide (frameType = .ack) := by
  simp only [FrameMetaInfo.isTransient, defaultFlags]
  by_cases hack : frameType = .ack
  · simp [hack]
  · simp only [hack, false_and, if_false, decide_false, Bool.false_or]
    split <;> rfl

/-- `StripTransientAckPayload` finds the ACK frame where it is. -/
theorem find_buildFrameMeta (transientAckBytes : Nat) :
    ∀ (metas : List (FrameType × Nat)) (offset : Nat),
      UTP_HEADER_SIZE + offset + (metas.map Prod.snd).sum < 2 ^ 16 →
      ((buildFrameMeta transientAckBytes (UTP_HEADER_SIZE + offset) metas).find?
          FrameMetaInfo.isTransient).map (fun fm => (fm.offset, fm.length))
        = (findAckFrame offset metas).map fun r => (UTP_HEADER_SIZE + r.1, r.2) := by
  intro metas
  induction metas with
  | nil => intro offset _; rfl
  | cons fm metas ih =>
    intro offset hfit
    obtain ⟨frameType, len⟩ := fm
    simp only [List.map_cons, List.sum_cons] at hfit
    simp only [buildFrameMeta, findAckFrame, List.find?_cons, isTransient_build]
    by_cases hack : frameType = .ack
    · simp [hack]
    · simp only [hack, decide_false, if_false]
      rw [Nat.mod_eq_of_lt (by omega), Nat.add_assoc]
      exact ih _ (by omega)

-- ==== the packet at rest

/-- The buffer holds `payload`, and `data_size` counts at least one tag's
length of bytes behind it. -/
structure Padded (packet : PacketOut) (payload : List UInt8) : Prop where
  dataSize : ∃ tags, 0 < tags
    ∧ packet.dataSize = UTP_HEADER_SIZE + payload.length + tags * GCM_TAG_SIZE
  body : readMem packet.body 0 payload.length = payload
  encrypted : packet.poFlags.encrypted = true
  keepPlaintext : packet.poFlags.keepPlaintext = true
  allocSize : 1232 ≤ packet.allocSize

/-- The packet still describes the frames it was built with. -/
structure Unstripped (req : SendRequest) (packet : PacketOut) : Prop where
  frameTypes : packet.frameTypes = req.frameTypeBits
  transientAckSize : packet.transientAckSize = req.transientAckBytes
  frameMeta : packet.frameMeta
    = buildFrameMeta req.transientAckBytes UTP_HEADER_SIZE req.frameMetas

/-- A tracked packet between transmissions: with all its frames, or
without the transient ACK frame. -/
structure Kept (req : SendRequest) (packet : PacketOut) : Prop where
  streamDataSize : packet.streamDataSize = min req.streamDataBytes (2 ^ 32 - 1)
  padded : (Padded packet req.payload ∧ Unstripped req packet)
    ∨ (Padded packet req.strippedPayload ∧ packet.transientAckSize = 0)

theorem packetOutAllocSize_ge (n : Nat) : 1232 ≤ packetOutAllocSize n := by
  unfold packetOutAllocSize
  split_ifs <;> omega

/-- The frames are where `Unstripped` says they are. -/
theorem Unstripped.ackRange {packet : PacketOut} (hu : Unstripped req packet)
    (hfit : UTP_HEADER_SIZE + req.payload.length < 2 ^ 16) (hc : req.Consistent) :
    packet.ackRange
      = (UTP_HEADER_SIZE + req.transientAckRange.1, req.transientAckRange.2) := by
  have hmetas := hc.frameMetas
  have hfind := find_buildFrameMeta req.transientAckBytes req.frameMetas 0 (by omega)
  unfold PacketOut.ackRange SendRequest.transientAckRange
  rw [hu.frameMeta, hu.transientAckSize]
  rw [Nat.add_zero] at hfind
  cases hframe : findAckFrame 0 req.frameMetas with
  | none =>
    rw [hframe, Option.map_none, Option.map_eq_none_iff] at hfind
    rw [hfind]
    rfl
  | some range =>
    rw [hframe, Option.map_some] at hfind
    obtain ⟨fm, hfm, heq⟩ := Option.map_eq_some_iff.mp hfind
    rw [hfm]
    exact heq

/-- Cutting `len` bytes out of a memory at `a`. -/
theorem readMem_cut (m : Nat → UInt8) {payload : List UInt8} {a len more : Nat}
    (hle : a + len ≤ payload.length) (hbody : readMem m 0 payload.length = payload) :
    readMem (writeMem m a (readMem m (a + len) (payload.length + more - (a + len)))) 0
        (payload.length - len)
      = payload.take a ++ payload.drop (a + len) := by
  obtain ⟨rest, hrest⟩ := Nat.exists_eq_add_of_le hle
  have hbelow : readMem m 0 a = payload.take a := by
    rw [← hbody, hrest, Nat.add_assoc, take_readMem]
  have habove : readMem m (a + len) rest = payload.drop (a + len) := by
    rw [← hbody, hrest, drop_readMem, Nat.zero_add]
  have hwritten := readMem_writeMem m a (readMem m (a + len) (payload.length + more - (a + len)))
  rw [length_readMem, show payload.length + more - (a + len) = rest + more by omega] at hwritten
  have hmoved := take_readMem
    (writeMem m a (readMem m (a + len) (rest + more))) a rest more
  rw [hwritten, take_readMem] at hmoved
  rw [show payload.length - len = a + rest by omega,
    show payload.length + more - (a + len) = rest + more by omega, readMem_add,
    readMem_writeMem_of_le m _ (by omega), Nat.zero_add, ← hmoved, hbelow, habove]

/-- Dropping the transient ACK frame leaves the other frames in place, and
as many bytes behind them as there were. -/
theorem Kept.strip (hk : Kept req packet) (hc : req.Consistent)
    (hfit : UTP_HEADER_SIZE + req.payload.length < 2 ^ 16)
    (hstream : 0 < packet.streamDataSize) (htransient : 0 < packet.transientAckSize)
    (h : stripTransientAckPayload packet = some packet') :
    packet'.streamDataSize = packet.streamDataSize
      ∧ packet'.poFlags = packet.poFlags
      ∧ Padded packet' req.strippedPayload ∧ packet'.transientAckSize = 0 := by
  cases hk.padded with
  | inr hstripped => omega
  | inl hwhole =>
    obtain ⟨hpad, hun⟩ := hwhole
    have hrange := hc.range_le
    have hasData : 0 < req.streamDataBytes := by
      have := hk.streamDataSize
      omega
    have hasAck : 0 < req.transientAckBytes := hun.transientAckSize ▸ htransient
    unfold stripTransientAckPayload at h
    rw [if_neg (by omega), hun.frameTypes] at h
    split at h
    · -- no ACK frame after all
      rename_i hbit
      cases h
      have hnone : req.strippedPayload = req.payload := by
        rw [SendRequest.strippedPayload, if_neg]
        simp only [SendRequest.hasTransientAck, Bool.and_eq_true, not_and]
        intro _ hset
        rw [hset] at hbit
        cases hbit
      rw [hnone]
      exact ⟨rfl, rfl, ⟨hpad.dataSize, hpad.body, hpad.encrypted, hpad.keepPlaintext,
        hpad.allocSize⟩, rfl⟩
    · rename_i hbit
      have hcut : req.strippedPayload
          = req.payload.take req.transientAckRange.1
            ++ req.payload.drop (req.transientAckRange.1 + req.transientAckRange.2) := by
        rw [SendRequest.strippedPayload, if_pos]
        simp only [SendRequest.hasTransientAck, hasData, hasAck, decide_true, Bool.true_and]
        simpa using hbit
      have hlen : req.strippedPayload.length
          = req.payload.length - req.transientAckRange.2 := by
        rw [hcut, List.length_append, List.length_take, List.length_drop]
        omega
      obtain ⟨tags, htags, hsize⟩ := hpad.dataSize
      have halloc := hpad.allocSize
      rw [hun.ackRange hfit hc] at h
      simp only [rewritePayloadLength, Nat.add_sub_cancel_left] at h
      split_ifs at h
      cases h
      refine ⟨rfl, rfl, ⟨⟨tags, htags, ?_⟩, ?_, hpad.encrypted, hpad.keepPlaintext,
        hpad.allocSize⟩, rfl⟩
      · simp only
        omega
      · simp only
        rw [hlen, hcut, hsize, Nat.add_assoc, Nat.add_sub_cancel_left]
        exact readMem_cut _ hrange hpad.body

/-- What is ready to be edited: the frames to send again, and the packet
as it was otherwise. -/
theorem Kept.stripped (hk : Kept req packet) (hc : req.Consistent)
    (hfit : UTP_HEADER_SIZE + req.payload.length < 2 ^ 16)
    (h : (if 0 < packet.streamDataSize ∧ 0 < packet.transientAckSize then
        stripTransientAckPayload packet else some packet) = some packet') :
    packet'.poFlags = packet.poFlags ∧ Kept req packet' ∧ Padded packet' req.strippedPayload := by
  split at h
  · rename_i happly
    obtain ⟨hstream, hflags, hpad, hzero⟩ := hk.strip hc hfit happly.1 happly.2 h
    exact ⟨hflags, ⟨hstream.trans hk.streamDataSize, .inr ⟨hpad, hzero⟩⟩, hpad⟩
  · rename_i hskip
    cases h
    refine ⟨rfl, hk, ?_⟩
    cases hk.padded with
    | inr hstripped => exact hstripped.1
    | inl hwhole =>
      obtain ⟨hpad, hun⟩ := hwhole
      have hnone : req.strippedPayload = req.payload := by
        rw [SendRequest.strippedPayload, if_neg]
        simp only [SendRequest.hasTransientAck, Bool.and_eq_true, decide_eq_true_eq, not_and]
        intro happly
        have hsize := hk.streamDataSize
        rw [hun.transientAckSize] at hskip
        omega
      rw [hnone]
      exact hpad

-- ==== the datagrams in flight

/-- A datagram that seals more than `payload`. -/
def Overlong (gcm : Gcm) (ctx : AesGcmContext) (wire payload : List UInt8) : Prop :=
  ∃ header plain, wire = sealedWire gcm ctx header plain ∧ payload.length < plain.length
    ∧ UTP_HEADER_SIZE + plain.length + GCM_TAG_SIZE ≤ 65535

theorem Overlong.not_opensTo {wire payload : List UInt8} (h : Overlong gcm ctx wire payload) :
    ¬ OpensTo gcm ctx wire payload := by
  obtain ⟨header, plain, rfl, hlong, hsize⟩ := h
  intro hopens
  obtain ⟨packet, hdecode, hpayload⟩ := hopens
  rw [decode_sealedWire header hsize] at hdecode
  obtain ⟨fs, -, rfl⟩ := Option.map_eq_some_iff.mp hdecode
  have := congrArg List.length hpayload
  simp only at this
  omega

/-- Sealing a padded packet again seals the padding too, and pads it
further. -/
theorem Padded.encrypt {payload : List UInt8}
    (hpad : Padded packet payload) (henc : Encrypted gcm ctx packet packet') :
    Padded { packet' with dataSize := packet'.encryptDataSize } payload
      ∧ Overlong gcm ctx { packet' with dataSize := packet'.encryptDataSize }.wire payload := by
  have hheader : UTP_HEADER_SIZE = 20 := rfl
  obtain ⟨tags, htags, hsize⟩ := hpad.dataSize
  have hle := henc.size_le
  simp only [GCM_TAG_SIZE] at hsize hle
  refine ⟨⟨⟨tags + 1, by omega, ?_⟩, ?_, henc.encrypted, ?_, ?_⟩, ?_⟩
  · simp only [henc.encryptDataSize, GCM_TAG_SIZE]
    omega
  · simp only
    rw [henc.body hpad.keepPlaintext, hpad.body]
  · exact henc.keepPlaintext.trans hpad.keepPlaintext
  · exact henc.allocSize.symm ▸ hpad.allocSize
  · refine ⟨_, _, henc.wire, ?_, ?_⟩
    · rw [length_readMem]
      omega
    · rw [length_readMem, GCM_TAG_SIZE]
      omega

-- ==== the runs

/-- Renumbering changes nothing `Kept` and `Padded` speak of. -/
theorem rewritePacketNumber_some {packetNumber : UInt64}
    (h : rewritePacketNumber packet packetNumber = some packet') :
    packet' = { packet with packno := packetNumber,
                            header := { packet.header with pn := packetNumber } } := by
  unfold rewritePacketNumber at h
  split_ifs at h
  cases h
  rfl

theorem Kept.congr (hk : Kept req packet)
    (hsize : packet'.dataSize = packet.dataSize) (hbody : packet'.body = packet.body)
    (hencrypted : packet'.poFlags.encrypted = packet.poFlags.encrypted)
    (hkeep : packet'.poFlags.keepPlaintext = packet.poFlags.keepPlaintext)
    (halloc : packet'.allocSize = packet.allocSize)
    (hstream : packet'.streamDataSize = packet.streamDataSize)
    (htypes : packet'.frameTypes = packet.frameTypes)
    (htransient : packet'.transientAckSize = packet.transientAckSize)
    (hmeta : packet'.frameMeta = packet.frameMeta) : Kept req packet' := by
  refine ⟨hstream.trans hk.streamDataSize, ?_⟩
  have hpadded : ∀ {payload}, Padded packet payload → Padded packet' payload := by
    intro payload hpad
    exact ⟨hsize ▸ hpad.dataSize, hbody ▸ hpad.body, hencrypted.trans hpad.encrypted,
      hkeep.trans hpad.keepPlaintext, halloc ▸ hpad.allocSize⟩
  cases hk.padded with
  | inl hwhole =>
    exact .inl ⟨hpadded hwhole.1, htypes.trans hwhole.2.frameTypes,
      htransient.trans hwhole.2.transientAckSize, hmeta.trans hwhole.2.frameMeta⟩
  | inr hstripped => exact .inr ⟨hpadded hstripped.1, htransient.trans hstripped.2⟩

theorem Kept.encrypt (hk : Kept req packet)
    (henc : Encrypted gcm ctx packet packet') :
    Kept req { packet' with dataSize := packet'.encryptDataSize } := by
  refine ⟨henc.streamDataSize.trans hk.streamDataSize, ?_⟩
  cases hk.padded with
  | inl hwhole =>
    exact .inl ⟨(hwhole.1.encrypt henc).1, henc.frameTypes.trans hwhole.2.frameTypes,
      henc.transientAckSize.trans hwhole.2.transientAckSize,
      henc.frameMeta.trans hwhole.2.frameMeta⟩
  | inr hstripped =>
    exact .inr ⟨(hstripped.1.encrypt henc).1, henc.transientAckSize.trans hstripped.2⟩

/-- What an attempt leaves behind: the packet is kept, and a datagram that
is ready seals too much. -/
structure Attempted (gcm : Gcm) (ctx : AesGcmContext) (req : SendRequest)
    (res : Prepared) : Prop where
  kept : Kept req res.packet
  resetPackNo : res.packet.poFlags.resetPackNo = true
  overlong : ∀ wire, res.attempt = .ready wire → Overlong gcm ctx wire req.strippedPayload

theorem resealPacket_attempted {packet : PacketOut} (packetNumber : UInt64)
    (hpn : packet.header.pn = packet.packno) (hk : Kept req packet)
    (hpad : Padded packet req.strippedPayload) (hreset : packet.poFlags.resetPackNo = true) :
    Attempted gcm ctx req (resealPacket gcm (some ctx) packetNumber true packet) := by
  unfold resealPacket
  simp only [hpad.encrypted, Bool.true_or, Bool.and_self, if_true]
  split
  · exact ⟨hk, hreset, fun _ h => (by cases h)⟩
  · rename_i encrypted henc
    have henc' := encrypt_ok hpn henc
    refine ⟨hk.encrypt henc', henc'.resetPackNo.trans hreset, ?_⟩
    intro wire hready
    cases hready
    exact (hpad.encrypt henc').2

theorem renewPacket_attempted {packet : PacketOut} (packetNumber : UInt64)
    (hk : Kept req packet) (hpad : Padded packet req.strippedPayload)
    (hreset : packet.poFlags.resetPackNo = true) :
    Attempted gcm ctx req (renewPacket gcm (some ctx) packetNumber packet) := by
  unfold renewPacket
  rw [if_pos hreset]
  cases hrewrite : rewritePacketNumber packet packetNumber with
  | none => exact ⟨hk, hreset, fun _ h => (by cases h)⟩
  | some renumbered =>
    have hrenumbered := rewritePacketNumber_some hrewrite
    subst hrenumbered
    apply resealPacket_attempted
    · rfl
    · exact hk.congr rfl rfl rfl rfl rfl rfl rfl rfl rfl
    · exact ⟨hpad.dataSize, hpad.body, hpad.encrypted, hpad.keepPlaintext, hpad.allocSize⟩
    · exact hreset

theorem prepareLostPacket_attempted {packet : PacketOut} (renv : RetransmitEnv)
    (hk : Kept req packet) (hc : req.Consistent)
    (hfit : UTP_HEADER_SIZE + req.payload.length < 2 ^ 16)
    (hreset : packet.poFlags.resetPackNo = true) :
    Attempted gcm ctx req (prepareLostPacket gcm renv (some ctx) packet) := by
  unfold prepareLostPacket
  simp only
  split
  · exact ⟨hk, hreset, fun _ h => (by cases h)⟩
  · split
    · exact ⟨hk, hreset, fun _ h => (by cases h)⟩
    · rename_i stripped hstripped
      obtain ⟨hflags, hk', hpad⟩ := hk.stripped hc hfit hstripped
      have hreset' : stripped.poFlags.resetPackNo = true := by rw [hflags, hreset]
      split
      · split
        · exact ⟨hk', hreset', fun _ h => (by cases h)⟩
        · exact ⟨hk', hreset', fun _ h => (by cases h)⟩
      · exact renewPacket_attempted _ hk' hpad hreset'

/-- What is true of a tracked packet, all its life. -/
structure TrackedInv (gcm : Gcm) (ctx : AesGcmContext) (req : SendRequest)
    (first : List UInt8) (t : Tracked) : Prop where
  kept : Kept req t.packet
  resetPackNo : t.queue = .lost → t.packet.poFlags.resetPackNo = true
  wires : ∃ later, t.wires = first :: later
    ∧ ∀ wire ∈ later, Overlong gcm ctx wire req.strippedPayload

theorem TrackedInv.retransmit {first : List UInt8} {t : Tracked} (renv : RetransmitEnv)
    (hc : req.Consistent) (hfit : UTP_HEADER_SIZE + req.payload.length < 2 ^ 16)
    (ht : TrackedInv gcm ctx req first t) (hlost : t.queue = .lost) :
    TrackedInv gcm ctx req first (retransmitLostPacket gcm renv (some ctx) t) := by
  have hattempt : Attempted gcm ctx req (prepareLostPacket gcm renv (some ctx) t.packet) :=
    prepareLostPacket_attempted renv ht.kept hc hfit (ht.resetPackNo hlost)
  unfold retransmitLostPacket
  simp only
  split
  · exact ⟨hattempt.kept, fun _ => hattempt.resetPackNo, ht.wires⟩
  · exact ⟨hattempt.kept, fun h => (by cases h), ht.wires⟩
  · rename_i wire hready
    split
    · obtain ⟨later, hwires, hlater⟩ := ht.wires
      refine ⟨hattempt.kept.congr rfl rfl rfl rfl rfl rfl rfl rfl rfl, fun h => (by cases h),
        later ++ [wire], by rw [hwires]; rfl, ?_⟩
      intro w hw
      cases List.mem_append.mp hw with
      | inl hold => exact hlater w hold
      | inr hnew =>
        rw [List.mem_singleton.mp hnew]
        exact hattempt.overlong wire hready
    · exact ⟨hattempt.kept, fun _ => hattempt.resetPackNo, ht.wires⟩

theorem trackedInv_step {first : List UInt8} (hc : req.Consistent)
    (hfit : UTP_HEADER_SIZE + req.payload.length < 2 ^ 16) (t : Tracked) (op : TrackedOp)
    (ht : TrackedInv gcm ctx req first t) :
    TrackedInv gcm ctx req first (t.step gcm (some ctx) op) := by
  cases op with
  | lose =>
    simp only [Tracked.step]
    split
    · exact ⟨ht.kept.congr rfl rfl rfl rfl rfl rfl rfl rfl rfl, fun _ => rfl, ht.wires⟩
    · exact ht
  | ack => exact ⟨ht.kept, fun h => (by cases h), ht.wires⟩
  | retransmit renv =>
    simp only [Tracked.step]
    split
    · rename_i hlost
      exact ht.retransmit renv hc hfit hlost
    · exact ht

/-- The packet `sendPacket` hands to the send control. -/
theorem kept_sent {packet : PacketOut} (hsent : SentBy gcm env req sent packet)
    (hctx : req.encryptWith env = some ctx) (htrack : req.shouldTrackPacket env = true) :
    Kept req (releaseSealedCopy packet) := by
  obtain ⟨packet', henc, rfl⟩ := buildPacket_tracked hctx htrack hsent.built
  have hkeep : (packedPacket env req).poFlags.keepPlaintext = true := by
    simp [packedPacket, newPacketOut, hctx, htrack]
  have hbody := henc.body hkeep
  have hkept : Kept req { packet' with dataSize := packet'.encryptDataSize } := by
    refine ⟨henc.streamDataSize, .inl ⟨⟨⟨1, by omega, ?_⟩, ?_, henc.encrypted, ?_, ?_⟩,
      henc.frameTypes, henc.transientAckSize, henc.frameMeta⟩⟩
    · simp only [henc.encryptDataSize]
      rfl
    · simp only [hbody]
      exact readMem_packedPacket env req
    · exact henc.keepPlaintext.trans hkeep
    · exact henc.allocSize ▸ packetOutAllocSize_ge _
  unfold releaseSealedCopy
  split
  · split
    · exact hkept.congr rfl rfl rfl rfl rfl rfl rfl rfl rfl
    · exact hkept
  · exact hkept
  · exact hkept

/-- The life of a packet that `sendPacket` sealed and keeps: of all the
datagrams it leaves as, exactly the first carries the frames it should. -/
theorem preservesPayload_iff_first {packet : PacketOut} {wire : List UInt8}
    (ops : List TrackedOp) (n : Nat) (hsent : sendPacket gcm env req = .ok sent)
    (hctx : req.encryptWith env = some ctx) (hkept : sent.kept = some packet)
    (hc : req.Consistent)
    (hwire : (run (Tracked.step gcm (some ctx))
      { packet, queue := .unacked, wires := [sent.wire] } ops).wires[n]? = some wire) :
    PreservesPayload gcm ctx wire (req.payloadOfRound n) ↔ n = 0 := by
  obtain ⟨built, hby⟩ := sendPacket_ok hsent
  have hsize : UTP_HEADER_SIZE + req.payload.length + GCM_TAG_SIZE ≤ 65535 := by
    rw [← wirePacketLen_sealed hctx]
    exact hby.wirePacketLen
  have hfit : UTP_HEADER_SIZE + req.payload.length < 2 ^ 16 := by omega
  have htrack : req.shouldTrackPacket env = true := by
    rw [hby.kept] at hkept
    split at hkept
    · rename_i hboth
      exact (Bool.and_eq_true_iff.mp hboth).1
    · cases hkept
  have hpacket : packet = releaseSealedCopy built := by
    rw [hby.kept] at hkept
    split at hkept
    · exact (Option.some.inj hkept).symm
    · cases hkept
  have hinit : TrackedInv gcm ctx req sent.wire
      { packet, queue := .unacked, wires := [sent.wire] } :=
    ⟨hpacket ▸ kept_sent hby hctx htrack, fun h => (by cases h), [], rfl, by simp⟩
  have hinv := run_inv_of_step (trackedInv_step hc hfit) ops hinit
  obtain ⟨later, hwires, hlater⟩ := hinv.wires
  rw [hwires] at hwire
  cases n with
  | zero =>
    cases hwire
    have hfirst : sent.wire = sealedWire gcm ctx (sendHeader env req) req.payload := by
      rw [hby.wire, wire_tracked hctx htrack hby.built]
    have hreceived : ReceivedAsSent gcm ctx env req
        (sealedWire gcm ctx (sendHeader env req) req.payload) :=
      receivedAsSent_sealedWire hsize hc.frames
    obtain ⟨received, hdecode, -, hpayload⟩ := hreceived
    refine ⟨fun _ => rfl, fun _ => ?_⟩
    rw [hfirst]
    exact ⟨⟨received, hdecode, hpayload⟩, length_sealedWire _ _⟩
  | succ n =>
    have hmem : wire ∈ later := List.mem_of_getElem? (by simpa using hwire)
    have hround : req.payloadOfRound (n + 1) = req.strippedPayload := rfl
    rw [hround]
    refine ⟨fun hp => absurd hp.1 (hlater wire hmem).not_opensTo, fun h => by omega⟩

-- ==== instances

/-- One byte on stream 4, behind an ACK frame. -/
def streamRequest : SendRequest where
  packetType := UTP_TYPE_CTRL
  segments := [[2, 0, 0, 1, 0, 0, 0, 0, 0, 0, 0, 0, 0, 0, 0, 1],
    [1, 0, 0, 1, 0, 0, 0, 4, 0, 0, 0, 0, 0, 0, 0, 0], [0xaa]]
  frameTypeBitsOverride := 6
  streamDataBytes := 1
  transientAckBytes := 16
  frameMetas := [(.ack, 16), (.stream, 17)]

/-- Nothing is in the way of a retransmission as packet 8. -/
def openEnv : RetransmitEnv where
  packetNumber := 8
  canSendStreamUnackedBytes := fun _ => true
  canSendOnCurrentPath := fun _ _ => true
  splitOk := false
  udpSent := fun _ => true

/-- `streamRequest` is lost and sent again. -/
def lostOnce (packet : PacketOut) (first : List UInt8) : Tracked :=
  run (Tracked.step (oneTimeGcm streamRequest) (some sharedCtx))
    { packet, queue := .unacked, wires := [first] } [.lose, .retransmit openEnv]

theorem preservesPayload_stream :
    ∃ sent packet,
      sendPacket (oneTimeGcm streamRequest) connectedEnv streamRequest = .ok sent
      ∧ sent.kept = some packet
      ∧ (lostOnce packet sent.wire).wires[0]? = some sent.wire
      ∧ PreservesPayload (oneTimeGcm streamRequest) sharedCtx sent.wire
          (streamRequest.payloadOfRound 0) := by
  refine ⟨_, _, rfl, rfl, rfl, ?_⟩
  have hc : streamRequest.Consistent := ⟨by decide, by decide, by decide⟩
  exact (preservesPayload_iff_first [.lose, .retransmit openEnv] 0
    (show sendPacket _ connectedEnv _ = _ from rfl) rfl rfl hc rfl).mpr rfl

/-- The stream data comes back with sixteen bytes behind it. -/
theorem not_preservesPayload_stream :
    ∃ sent packet wire,
      sendPacket (oneTimeGcm streamRequest) connectedEnv streamRequest = .ok sent
      ∧ sent.kept = some packet
      ∧ streamRequest.Consistent
      ∧ (lostOnce packet sent.wire).wires[1]? = some wire
      ∧ streamRequest.strippedPayload
          = [1, 0, 0, 1, 0, 0, 0, 4, 0, 0, 0, 0, 0, 0, 0, 0, 0xaa]
      ∧ ¬ PreservesPayload (oneTimeGcm streamRequest) sharedCtx wire
          (streamRequest.payloadOfRound 1) := by
  refine ⟨_, _, _, rfl, rfl, ⟨by decide, by decide, by decide⟩, rfl, by decide, ?_⟩
  intro h
  exact absurd h.2 (by decide)

end Eular.Utp
