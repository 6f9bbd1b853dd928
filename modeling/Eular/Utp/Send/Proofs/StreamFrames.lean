/-
The STREAM frames in the packets that are kept.

A stream never reads again what it sent, so the bytes it sent are where
the packets have them: in `raw_data`, at the place the packet's frame
table names. Every packet is `Laid` so that each STREAM frame in its
table decodes to bytes of the stream it names, and stays so when the
packet is lost, its ACK frame is cut out, it takes a new number and is
sealed again; and no STREAM frame goes missing on the way.

# Chunks

A packet that is split gives its frames to other packets. The chunks of
a frame cover it: each byte is in one of them, and the last has the FIN
(`covers_chunks`).
-/
import Eular.Utp.Send.Proofs.Wakeups

namespace Eular.Utp

open Lib

variable {content : UInt32 → Nat → UInt8} {frame : FrameStream} {budget : Nat}

-- ==== frames

/-- The frame says of its stream what the application wrote. -/
structure FrameStream.Genuine (content : UInt32 → Nat → UInt8) (frame : FrameStream) : Prop where
  id : frame.streamId < 2 ^ 32
  fits : frame.streamOffset + frame.streamData.length < 2 ^ 64
  data : ∀ i < frame.streamData.length,
    frame.streamData[i]? = some (content (.ofNat frame.streamId) (frame.streamOffset + i))

/-- The frame as the wire has it: one bit for the FIN. -/
def FrameStream.onWire (frame : FrameStream) : FrameStream :=
  { frame with streamFlag := if frame.isFin then 1 else 0 }

@[simp] theorem FrameStream.onWire_isFin (frame : FrameStream) :
    frame.onWire.isFin = frame.isFin := by
  unfold onWire
  show Nat.testBit (if frame.isFin then 1 else 0) 0 = frame.isFin
  cases frame.isFin
  · rfl
  · rfl

theorem FrameStream.length_head (frame : FrameStream) :
    frame.head.length = FRAME_STREAM_HDR_SIZE := by
  simp [head, FRAME_STREAM_HDR_SIZE]

theorem FrameStream.decode_head (hlen : frame.streamData.length ≤ 65535)
    (hid : frame.streamId < 2 ^ 32) (hoffset : frame.streamOffset < 2 ^ 64) :
    decode (frame.head ++ frame.streamData) = some frame.onWire := by
  have hparts : frame.head ++ frame.streamData
      = [1] ++ ([if frame.isFin then 1 else 0] ++ (bigEndian 2 frame.streamData.length
          ++ (bigEndian 4 frame.streamId ++ (bigEndian 8 frame.streamOffset
            ++ frame.streamData)))) := by
    simp [head]
  have hflag : field (frame.head ++ frame.streamData) 1 1 = if frame.isFin then 1 else 0 := by
    rw [hparts, field_append (by simp) (by simp)]
    cases frame.isFin
    · rfl
    · rfl
  have hsize : field (frame.head ++ frame.streamData) 2 2 = frame.streamData.length := by
    rw [hparts, ← List.append_assoc, field_append (by simp) (length_bigEndian 2 _),
      ofBigEndian_bigEndian]
    exact Nat.mod_eq_of_lt (by omega)
  have hid' : field (frame.head ++ frame.streamData) 4 4 = frame.streamId := by
    rw [hparts, ← List.append_assoc, ← List.append_assoc,
      field_append (by simp) (length_bigEndian 4 _), ofBigEndian_bigEndian]
    exact Nat.mod_eq_of_lt (by omega)
  have hoffset' : field (frame.head ++ frame.streamData) 8 8 = frame.streamOffset := by
    rw [hparts, ← List.append_assoc, ← List.append_assoc, ← List.append_assoc,
      field_append (by simp) (length_bigEndian 8 _), ofBigEndian_bigEndian]
    exact Nat.mod_eq_of_lt (by omega)
  have hlength : (frame.head ++ frame.streamData).length
      = 1 + 1 + 2 + 4 + 8 + frame.streamData.length := by
    rw [List.length_append, length_head]
    rfl
  have hdrop : (frame.head ++ frame.streamData).drop (1 + 1 + 2 + 4 + 8) = frame.streamData :=
    List.drop_left' frame.length_head
  unfold decode
  rw [if_neg (by omega), if_neg (by rw [hparts]; simp)]
  simp only [hflag, hsize, hid', hoffset', hdrop, List.take_length]
  rw [if_neg (by omega)]
  rfl

-- ==== chunks

theorem FrameStream.mem_chunksFrom {frame chunk : FrameStream} {budget fuel : Nat} :
    ∀ {sentData : Nat}, chunk ∈ frame.chunksFrom budget fuel sentData →
      ∃ a len, chunk = frame.chunk a len ∧ a + len ≤ frame.streamData.length := by
  induction fuel with
  | zero => exact fun h => absurd h List.not_mem_nil
  | succ fuel ih =>
    intro sentData h
    rw [chunksFrom] at h
    split at h
    · rcases List.mem_cons.mp h with rfl | h
      · exact ⟨_, _, rfl, by omega⟩
      · exact ih h
    · exact absurd h List.not_mem_nil

/-- Every byte from `sentData` on is in a chunk. -/
theorem FrameStream.chunksFrom_covers (hbudget : 0 < budget)
    {fuel : Nat} : ∀ {sentData i : Nat}, frame.streamData.length ≤ sentData + fuel →
      sentData ≤ i → i < frame.streamData.length →
      ∃ a len, frame.chunk a len ∈ frame.chunksFrom budget fuel sentData
        ∧ a ≤ i ∧ i < a + len ∧ a + len ≤ frame.streamData.length := by
  induction fuel with
  | zero =>
    intro sentData i hfuel hfrom hlt
    omega
  | succ fuel ih =>
    intro sentData i hfuel hfrom hlt
    rw [chunksFrom, if_pos (by omega)]
    simp only
    by_cases hin : i < sentData + min budget (frame.streamData.length - sentData)
    · exact ⟨_, _, List.mem_cons_self, hfrom, hin, by omega⟩
    · obtain ⟨a, len, hmem, hrest⟩ := @ih
        (sentData + min budget (frame.streamData.length - sentData)) i
        (by omega) (by omega) hlt
      exact ⟨a, len, List.mem_cons_of_mem _ hmem, hrest⟩

theorem FrameStream.Genuine.chunk
    (h : frame.Genuine content) {a len : Nat} (hlen : a + len ≤ frame.streamData.length) :
    (frame.chunk a len).streamOffset = frame.streamOffset + a
      ∧ (frame.chunk a len).streamData.length = len
      ∧ (frame.chunk a len).Genuine content := by
  have hfits := h.fits
  have hoffset : (frame.chunk a len).streamOffset = frame.streamOffset + a :=
    Nat.mod_eq_of_lt (by omega)
  have hlength : (frame.chunk a len).streamData.length = len := by
    show ((frame.streamData.drop a).take len).length = len
    rw [List.length_take, List.length_drop]
    omega
  refine ⟨hoffset, hlength, h.id, by omega, ?_⟩
  intro i hi
  rw [hlength] at hi
  show ((frame.streamData.drop a).take len)[i]? = _
  rw [List.getElem?_take, if_pos hi, List.getElem?_drop, h.data (a + i) (by omega), hoffset,
    Nat.add_assoc]
  rfl

/-- Something a frame has, that a chunk of it has when the frame does: one
byte, or the FIN. -/
inductive StreamPart where
  | byte (id : UInt32) (offset : Nat)
  | fin (id : UInt32) (offset : Nat)

def FrameStream.Has (frame : FrameStream) : StreamPart → Prop
  | .byte id offset => frame.streamId = id.toNat ∧ frame.streamOffset ≤ offset
      ∧ offset < frame.streamOffset + frame.streamData.length
  | .fin id offset => frame.streamId = id.toNat ∧ frame.isFin = true
      ∧ frame.streamOffset + frame.streamData.length = offset

theorem FrameStream.has_onWire {part : StreamPart} :
    frame.onWire.Has part ↔ frame.Has part := by
  cases part with
  | byte id offset => exact Iff.rfl
  | fin id offset =>
    unfold Has
    rw [onWire_isFin]
    exact Iff.rfl

theorem FrameStream.genuine_chunks {frame chunk : FrameStream}
    (h : frame.Genuine content) (hchunk : chunk ∈ frame.chunks budget) :
    chunk.Genuine content := by
  have hfits := h.fits
  unfold chunks at hchunk
  split at hchunk
  · split at hchunk
    · rw [List.mem_singleton.mp hchunk]
      refine ⟨h.id, ?_, fun i hi => absurd hi (Nat.not_lt_zero i)⟩
      show frame.streamOffset + 0 < 2 ^ 64
      omega
    · exact absurd hchunk List.not_mem_nil
  · obtain ⟨a, len, rfl, hlen⟩ := mem_chunksFrom hchunk
    exact (h.chunk hlen).2.2

theorem FrameStream.covers_chunks
    (hbudget : 0 < budget) (h : frame.Genuine content) {part : StreamPart}
    (hpart : frame.Has part) : ∃ chunk ∈ frame.chunks budget, chunk.Has part := by
  unfold chunks
  split
  · next hempty =>
      have hnil := List.isEmpty_iff.mp hempty
      cases part with
      | byte id offset =>
        obtain ⟨-, hfrom, hto⟩ := hpart
        rw [hnil, List.length_nil] at hto
        omega
      | fin id offset =>
        obtain ⟨hid, hfin, hend⟩ := hpart
        rw [if_pos hfin]
        refine ⟨_, List.mem_singleton.mpr rfl, hid, Nat.testBit_one_zero, ?_⟩
        rw [hnil] at hend
        exact hend
  · next hempty =>
      have hpos : 0 < frame.streamData.length := by
        rw [List.length_pos_iff]
        simpa using hempty
      cases part with
      | byte id offset =>
        obtain ⟨hid, hfrom, hto⟩ := hpart
        obtain ⟨a, len, hmem, hle, hlt, hlen⟩ := @chunksFrom_covers frame _ hbudget
          frame.streamData.length 0 (offset - frame.streamOffset)
          (by omega) (by omega) (by omega)
        obtain ⟨hoffset, hlength, -⟩ := h.chunk hlen
        refine ⟨_, hmem, hid, ?_, ?_⟩
        · rw [hoffset]
          omega
        · rw [hoffset, hlength]
          omega
      | fin id offset =>
        obtain ⟨hid, hfin, hend⟩ := hpart
        obtain ⟨a, len, hmem, hle, hlt, hlen⟩ := @chunksFrom_covers frame _ hbudget
          frame.streamData.length 0 (frame.streamData.length - 1)
          (by omega) (by omega) (by omega)
        obtain ⟨hoffset, hlength, -⟩ := h.chunk hlen
        have hlast : a + len = frame.streamData.length := by omega
        refine ⟨_, hmem, hid, ?_, ?_⟩
        · show Nat.testBit (if frame.isFin && a + len = frame.streamData.length then 1 else 0) 0
            = true
          rw [hfin, if_pos (by simpa using hlast)]
          rfl
        · rw [hoffset, hlength]
          omega

-- ==== packets

/-- The frame is in the packet, at a place its table names. -/
def PacketOut.HasFrame (packet : PacketOut) (frame : FrameStream) : Prop :=
  ∃ fm ∈ packet.frameMeta, fm.frameType = .stream ∧ UTP_HEADER_SIZE ≤ fm.offset
    ∧ fm.offset + fm.length ≤ packet.dataSize
    ∧ FrameStream.decode (packet.frameBytes fm) = some frame

/-- What the table says of a STREAM frame is so. -/
structure PacketOut.StreamAt (packet : PacketOut) (content : UInt32 → Nat → UInt8)
    (streamId streamOffset : Nat) (fm : FrameMetaInfo) : Prop where
  stays : fm.frameFlags.transientOnRetrans = false
  nonempty : fm.length ≠ 0
  lower : UTP_HEADER_SIZE ≤ fm.offset
  upper : fm.offset + fm.length ≤ packet.dataSize
  behindAck : 0 < packet.transientAckSize → packet.ackRange.1 + packet.ackRange.2 ≤ fm.offset
  noProbe : packet.poFlags.mtuProbe = false
  frame : ∃ frame, FrameStream.decode (packet.frameBytes fm) = some frame
    ∧ frame.Genuine content ∧ frame.streamId = streamId ∧ frame.streamOffset = streamOffset
    ∧ frame.streamData.length = packet.streamDataSize

/-- It is so of every STREAM frame, and the packet keeps its plaintext. -/
structure PacketOut.Laid (packet : PacketOut) (content : UInt32 → Nat → UInt8)
    (streamId streamOffset : Nat) : Prop where
  plaintext : packet.poFlags.encrypted = true → packet.poFlags.keepPlaintext = true
  streams : ∀ fm ∈ packet.frameMeta, fm.frameType = .stream →
    packet.StreamAt content streamId streamOffset fm

namespace PacketOut

variable {content : UInt32 → Nat → UInt8} {streamId streamOffset : Nat}
  {packet packet' : PacketOut} {frame : FrameStream}

variable {fm : FrameMetaInfo}

theorem StreamAt.hasFrame
    (h : packet.StreamAt content streamId streamOffset fm) (hfm : fm ∈ packet.frameMeta)
    (hstream : fm.frameType = .stream)
    (hdecode : FrameStream.decode (packet.frameBytes fm) = some frame) : packet.HasFrame frame :=
  ⟨fm, hfm, hstream, h.lower, h.upper, hdecode⟩

theorem StreamAt.skipsFrame
    (h : packet.StreamAt content streamId streamOffset fm) (hstream : fm.frameType = .stream) :
    packet.skipsFrame fm = false := by
  unfold PacketOut.skipsFrame
  rw [h.stays, hstream]
  simp [h.nonempty]

theorem Laid.genuine (h : packet.Laid content streamId streamOffset)
    (hframe : packet.HasFrame frame) :
    frame.Genuine content ∧ frame.streamId = streamId ∧ frame.streamOffset = streamOffset
      ∧ frame.streamData.length = packet.streamDataSize := by
  obtain ⟨fm, hfm, hstream, -, -, hdecode⟩ := hframe
  obtain ⟨frame', hdecode', hrest⟩ := (h.streams fm hfm hstream).frame
  cases hdecode.symm.trans hdecode'
  exact hrest

/-- The second packet is laid out like the first, and has all its frames. -/
def Keeps (content : UInt32 → Nat → UInt8) (streamId streamOffset : Nat)
    (packet packet' : PacketOut) : Prop :=
  packet'.Laid content streamId streamOffset
    ∧ ∀ frame, packet.HasFrame frame → packet'.HasFrame frame

theorem Laid.resealed (h : packet.Laid content streamId streamOffset)
    (hresealed : Resealed packet packet') :
    Keeps content streamId streamOffset packet packet' := by
  have hbody := hresealed.body h.plaintext
  have hbytes : ∀ fm, packet'.frameBytes fm = packet.frameBytes fm := by
    intro fm
    unfold frameBytes
    rw [hbody]
  have hack : packet'.ackRange = packet.ackRange := by
    unfold ackRange
    rw [hresealed.frameMeta, hresealed.transientAckSize]
  refine ⟨⟨?_, ?_⟩, ?_⟩
  · rw [hresealed.poFlags]
    exact h.plaintext
  · intro fm hfm hstream
    rw [hresealed.frameMeta] at hfm
    have hat := h.streams fm hfm hstream
    refine ⟨hat.stays, hat.nonempty, hat.lower, hat.upper.trans hresealed.dataSize, ?_, ?_, ?_⟩
    · rw [hresealed.transientAckSize, hack]
      exact hat.behindAck
    · rw [hresealed.poFlags]
      exact hat.noProbe
    · rw [hbytes, hresealed.streamDataSize]
      exact hat.frame
  · rintro frame ⟨fm, hfm, hstream, hlower, hupper, hdecode⟩
    refine ⟨fm, ?_, hstream, hlower, hupper.trans hresealed.dataSize, ?_⟩
    · rw [hresealed.frameMeta]
      exact hfm
    · rw [hbytes]
      exact hdecode

/-- What cutting out the ACK frame of `n` bytes at `a` leaves. -/
structure Cut (packet packet' : PacketOut) (a n : Nat) : Prop where
  size : 0 < packet.transientAckSize
  range : packet.ackRange = (a, n)
  lower : UTP_HEADER_SIZE ≤ a
  nonempty : 0 < n
  upper : a + n ≤ packet.dataSize
  frameMeta : packet'.frameMeta = shiftFrameMeta a n packet.frameMeta
  body : packet'.body = writeMem packet.body (a - UTP_HEADER_SIZE)
    (readMem packet.body (a - UTP_HEADER_SIZE + n)
      (packet.dataSize - UTP_HEADER_SIZE - (a - UTP_HEADER_SIZE + n)))
  dataSize : packet'.dataSize = packet.dataSize - n
  transientAckSize : packet'.transientAckSize = 0
  poFlags : packet'.poFlags = packet.poFlags
  streamDataSize : packet'.streamDataSize = packet.streamDataSize

theorem stripTransientAckPayload_cases (h : stripTransientAckPayload packet = some packet') :
    packet' = packet ∨ packet' = { packet with transientAckSize := 0 }
      ∨ ∃ a n, Cut packet packet' a n := by
  unfold stripTransientAckPayload rewritePayloadLength at h
  generalize hr : packet.ackRange = r at h
  obtain ⟨a, n⟩ := r
  simp only at h
  split_ifs at h with hsize hbit hupper hlower hinside halloc
  · cases h
    exact .inl rfl
  · cases h
    exact .inr (.inl rfl)
  all_goals
    simp only [Bool.or_eq_true, decide_eq_true_eq, not_or, Nat.not_lt] at hlower
    simp only [Option.some.injEq] at h
    subst h
    refine .inr (.inr ⟨a, n, Nat.pos_of_ne_zero hsize, hr, hlower.1, Nat.pos_of_ne_zero hlower.2,
      Nat.not_lt.mp hupper, rfl, rfl, ?_, rfl, rfl, rfl⟩)
    have := hlower.1
    show UTP_HEADER_SIZE + (packet.dataSize - UTP_HEADER_SIZE - n) = packet.dataSize - n
    omega

theorem StreamAt.cut {a n : Nat} (hcut : Cut packet packet' a n)
    (h : packet.StreamAt content streamId streamOffset fm) (hfm : fm ∈ packet.frameMeta)
    (hstream : fm.frameType = .stream) :
    { fm with offset := fm.offset - n } ∈ packet'.frameMeta
      ∧ packet'.frameBytes { fm with offset := fm.offset - n } = packet.frameBytes fm
      ∧ packet'.StreamAt content streamId streamOffset { fm with offset := fm.offset - n } := by
  have hbehind := h.behindAck hcut.size
  rw [hcut.range] at hbehind
  have hlower := hcut.lower
  have hpos := hcut.nonempty
  have hupper := h.upper
  simp only at hbehind
  have hbytes : packet'.frameBytes { fm with offset := fm.offset - n } = packet.frameBytes fm := by
    unfold frameBytes
    rw [hcut.body]
    rw [readMem_writeMem_shift packet.body (by simp only; omega) (by simp only; omega)]
    congr 1
    simp only
    omega
  refine ⟨?_, hbytes, h.stays, h.nonempty, ?_, ?_, ?_, ?_, ?_⟩
  · rw [hcut.frameMeta]
    refine List.mem_map.mpr ⟨fm, List.mem_filter.mpr ⟨hfm, ?_⟩, if_pos (by omega)⟩
    unfold FrameMetaInfo.isTransient
    rw [hstream, h.stays]
    rfl
  · show UTP_HEADER_SIZE ≤ fm.offset - n
    omega
  · rw [hcut.dataSize]
    show fm.offset - n + fm.length ≤ packet.dataSize - n
    omega
  · intro hsize
    rw [hcut.transientAckSize] at hsize
    exact absurd hsize (Nat.lt_irrefl 0)
  · rw [hcut.poFlags]
    exact h.noProbe
  · rw [hbytes, hcut.streamDataSize]
    exact h.frame

theorem Laid.cut {a n : Nat} (hcut : Cut packet packet' a n)
    (h : packet.Laid content streamId streamOffset) :
    Keeps content streamId streamOffset packet packet' := by
  refine ⟨⟨?_, ?_⟩, ?_⟩
  · rw [hcut.poFlags]
    exact h.plaintext
  · intro fm' hfm' hstream'
    rw [hcut.frameMeta] at hfm'
    obtain ⟨fm, hfm, rfl⟩ := List.mem_map.mp hfm'
    have hmem := (List.mem_filter.mp hfm).1
    have hstream : fm.frameType = .stream := by
      split at hstream'
      · exact hstream'
      · exact hstream'
    have hat := h.streams fm hmem hstream
    have hbehind := hat.behindAck hcut.size
    rw [hcut.range] at hbehind
    have hpos := hcut.nonempty
    simp only at hbehind
    rw [if_pos (by omega)]
    exact (hat.cut hcut hmem hstream).2.2
  · rintro frame ⟨fm, hfm, hstream, -, -, hdecode⟩
    obtain ⟨hmem, hbytes, hat⟩ := (h.streams fm hfm hstream).cut hcut hfm hstream
    exact hat.hasFrame hmem hstream (hbytes ▸ hdecode)

theorem Laid.stripped (h : packet.Laid content streamId streamOffset)
    (hstrip : stripTransientAckPayload packet = some packet') :
    Keeps content streamId streamOffset packet packet' := by
  rcases stripTransientAckPayload_cases hstrip with rfl | rfl | ⟨a, n, hcut⟩
  · exact ⟨h, fun _ hframe => hframe⟩
  · refine ⟨⟨h.plaintext, fun fm hfm hstream => ?_⟩, fun _ hframe => hframe⟩
    have hat := h.streams fm hfm hstream
    exact ⟨hat.stays, hat.nonempty, hat.lower, hat.upper,
      fun hsize => absurd hsize (Nat.lt_irrefl 0),
      hat.noProbe, hat.frame⟩
  · exact h.cut hcut

theorem Laid.edit {gcm : Gcm} (h : packet.Laid content streamId streamOffset)
    (hedit : EditOf gcm packet packet') : Keeps content streamId streamOffset packet packet' := by
  obtain ⟨renv, aesCtx, rfl⟩ := hedit
  obtain ⟨base, hbase, hresealed⟩ := prepareLostPacket_resealed gcm renv aesCtx packet
  have hkeeps : Keeps content streamId streamOffset packet base := by
    rcases hbase with rfl | hstrip
    · exact ⟨h, fun _ hframe => hframe⟩
    · exact h.stripped hstrip
  have hsealed := hkeeps.1.resealed hresealed
  exact ⟨hsealed.1, fun frame hframe => hsealed.2 frame (hkeeps.2 frame hframe)⟩

end PacketOut

-- ==== requests

/-- The entry of a STREAM frame of `len` bytes behind `before` bytes. -/
def streamMeta (before len : Nat) : FrameMetaInfo where
  frameType := .stream
  offset := UTP_HEADER_SIZE + before
  length := FRAME_STREAM_HDR_SIZE + len
  frameFlags := { retransMustKeep := true, splittable := true }

/-- The table `sendPacket` makes of a request. -/
def SendRequest.table (req : SendRequest) : List FrameMetaInfo :=
  buildFrameMeta req.transientAckBytes UTP_HEADER_SIZE req.frameMetas

/-- The request puts the frame behind `before`, and its table says so. -/
structure CarryRequest (frame : FrameStream) (req : SendRequest) (before : List UInt8) : Prop where
  payload : ∃ after, req.payload = before ++ (frame.head ++ frame.streamData) ++ after
  streamDataBytes : req.streamDataBytes = frame.streamData.length
  clear : req.packetFlags.encrypted = false
  noProbe : req.packetFlags.mtuProbe = false
  ack : 0 < req.transientAckBytes → ∃ fm, req.table.find? FrameMetaInfo.isTransient = some fm
    ∧ fm.offset = UTP_HEADER_SIZE ∧ fm.length = before.length
  mem : streamMeta before.length frame.streamData.length ∈ req.table
  only : ∀ g ∈ req.table, g.frameType = .stream →
    g = streamMeta before.length frame.streamData.length

theorem CarryRequest.laid {env : SendEnv}
    {req : SendRequest} {before : List UInt8} {packet : PacketOut}
    (h : CarryRequest frame req before) (hkept : KeptOf env req packet)
    (hgenuine : frame.Genuine content) :
    packet.Laid content frame.streamId frame.streamOffset ∧ packet.HasFrame frame.onWire := by
  obtain ⟨after, hpayload⟩ := h.payload
  have hfits := hkept.fits
  have hlength : req.payload.length
      = before.length + (FRAME_STREAM_HDR_SIZE + frame.streamData.length) + after.length := by
    rw [hpayload, List.length_append, List.length_append, List.length_append, frame.length_head]
  have hwrap := hgenuine.fits
  have hlen : frame.streamData.length ≤ 65535 := by omega
  have hbytes : packet.frameBytes (streamMeta before.length frame.streamData.length)
      = frame.head ++ frame.streamData := by
    have hread := readMem_writeMem_mid env.rawMemory before (frame.head ++ frame.streamData) after
    rw [← hpayload, ← hkept.body] at hread
    rw [← hread]
    unfold PacketOut.frameBytes streamMeta
    rw [Nat.add_sub_cancel_left, List.length_append, frame.length_head]
  have hdecode : FrameStream.decode
      (packet.frameBytes (streamMeta before.length frame.streamData.length))
        = some frame.onWire := by
    rw [hbytes]
    exact FrameStream.decode_head hlen hgenuine.id (by omega)
  have hupper : (streamMeta before.length frame.streamData.length).offset
      + (streamMeta before.length frame.streamData.length).length ≤ packet.dataSize := by
    have := hkept.dataSize
    show UTP_HEADER_SIZE + before.length + (FRAME_STREAM_HDR_SIZE + frame.streamData.length) ≤ _
    omega
  have hat : packet.StreamAt content frame.streamId frame.streamOffset
      (streamMeta before.length frame.streamData.length) := by
    refine ⟨rfl, ?_, Nat.le_add_right _ _, hupper, ?_, ?_, frame.onWire, hdecode, ?_, rfl, rfl, ?_⟩
    · exact Nat.ne_of_gt (Nat.lt_of_lt_of_le (by decide) (Nat.le_add_right _ _))
    · intro hsize
      rw [hkept.transientAckSize] at hsize
      obtain ⟨fm, hfind, hoffset, hlen⟩ := h.ack hsize
      unfold PacketOut.ackRange
      rw [hkept.frameMeta]
      unfold SendRequest.table at hfind
      rw [hfind]
      show fm.offset + fm.length ≤ UTP_HEADER_SIZE + before.length
      rw [hoffset, hlen]
    · exact hkept.flags.1.trans h.noProbe
    · exact ⟨hgenuine.id, hgenuine.fits, hgenuine.data⟩
    · rw [hkept.streamDataSize, h.streamDataBytes]
      show frame.streamData.length = _
      omega
  refine ⟨⟨hkept.keepPlaintext h.clear, ?_⟩, hat.hasFrame ?_ rfl hdecode⟩
  · intro fm hfm hstream
    rw [hkept.frameMeta] at hfm
    rw [h.only fm hfm hstream]
    exact hat
  · rw [hkept.frameMeta]
    exact h.mem

theorem not_mem_buildFrameMeta {transientAckBytes offset : Nat} {metas : List (FrameType × Nat)}
    (hmetas : ∀ g ∈ metas, g.1 ≠ .stream) {fm : FrameMetaInfo}
    (hfm : fm ∈ buildFrameMeta transientAckBytes offset metas) : fm.frameType ≠ .stream := by
  obtain ⟨g, hg, htype, -⟩ := mem_buildFrameMeta hfm
  rw [htype]
  exact hmetas g hg

theorem trailer_ne_stream (trailer : List UInt8) :
    ∀ g ∈ (if trailer.isEmpty then [] else [(FrameType.handshakeDone, trailer.length)]
      : List (FrameType × Nat)), g.1 ≠ .stream := by
  intro g hg
  split at hg
  · exact absurd hg List.not_mem_nil
  · rw [List.mem_singleton.mp hg]
    exact FrameType.noConfusion

theorem carryRequest_stream (frame : FrameStream) (trailer : List UInt8) :
    CarryRequest frame (streamFrameRequest frame trailer) [] := by
  refine ⟨⟨trailer, ?_⟩, rfl, rfl, rfl, fun h => absurd h (Nat.lt_irrefl 0), List.mem_cons_self, ?_⟩
  · simp [streamFrameRequest, SendRequest.payload]
  · intro g hg hstream
    rcases List.mem_cons.mp hg with rfl | hg
    · rfl
    · exact absurd hstream (not_mem_buildFrameMeta (trailer_ne_stream trailer) hg)

theorem carryRequest_second {req : SendRequest} {before : List UInt8}
    {frameType : FrameType} {metas : List (FrameType × Nat)}
    (hfits : UTP_HEADER_SIZE + before.length < 2 ^ 16) (htype : frameType ≠ .stream)
    (hmetas : ∀ g ∈ metas, g.1 ≠ .stream)
    (htable : req.frameMetas = (frameType, before.length)
      :: (.stream, FRAME_STREAM_HDR_SIZE + frame.streamData.length) :: metas) :
    streamMeta before.length frame.streamData.length ∈ req.table
      ∧ ∀ g ∈ req.table, g.frameType = .stream →
        g = streamMeta before.length frame.streamData.length := by
  have hentry : ({ frameType := .stream, offset := (UTP_HEADER_SIZE + before.length) % 2 ^ 16
                   length := FRAME_STREAM_HDR_SIZE + frame.streamData.length
                   frameFlags := defaultFlags .stream req.transientAckBytes } : FrameMetaInfo)
      = streamMeta before.length frame.streamData.length := by
    rw [Nat.mod_eq_of_lt hfits]
    rfl
  unfold SendRequest.table
  rw [htable]
  simp only [buildFrameMeta, hentry]
  refine ⟨List.mem_cons_of_mem _ List.mem_cons_self, ?_⟩
  intro g hg hstream
  rcases List.mem_cons.mp hg with rfl | hg
  · exact absurd hstream htype
  · rcases List.mem_cons.mp hg with rfl | hg
    · rfl
    · exact absurd hstream (not_mem_buildFrameMeta hmetas hg)

theorem carryRequest_ackStream {ack trailer : List UInt8}
    (hfits : UTP_HEADER_SIZE + (ackStreamFrameRequest frame ack trailer).payload.length ≤ 65535) :
    CarryRequest frame (ackStreamFrameRequest frame ack trailer) ack := by
  have hlength : (ackStreamFrameRequest frame ack trailer).payload.length
      = ack.length + (frame.head.length + (frame.streamData.length + trailer.length)) := by
    simp [ackStreamFrameRequest, SendRequest.payload]
  have hack : min ack.length 65535 = ack.length := by omega
  have hsecond := @carryRequest_second frame (ackStreamFrameRequest frame ack trailer) ack .ack _
    (by omega) (by decide)
    (trailer_ne_stream trailer) (by simp only [ackStreamFrameRequest, hack]; rfl)
  refine ⟨⟨trailer, ?_⟩, rfl, rfl, rfl, fun _ => ⟨_, rfl, rfl, hack⟩, hsecond.1, hsecond.2⟩
  simp [ackStreamFrameRequest, SendRequest.payload]

theorem carryRequest_early {token : List UInt8}
    (hfits : UTP_HEADER_SIZE + (earlyRequest frame token).payload.length ≤ 65535) :
    CarryRequest frame (earlyRequest frame token) token := by
  have hlength : (earlyRequest frame token).payload.length
      = token.length + (frame.head.length + frame.streamData.length) := by
    simp [earlyRequest, SendRequest.payload]
  have hsecond := @carryRequest_second frame (earlyRequest frame token) token .sessionToken []
    (by omega) (by decide) (fun _ h => absurd h List.not_mem_nil) rfl
  refine ⟨⟨[], ?_⟩, rfl, rfl, rfl, fun h => absurd h (Nat.lt_irrefl 0), hsecond.1, hsecond.2⟩
  simp [earlyRequest, SendRequest.payload]

end Eular.Utp
