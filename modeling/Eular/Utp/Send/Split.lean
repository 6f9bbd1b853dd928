/-
`SendControl::retransmitSplitStreamPacket` (`context/send_ctl.cpp`).

A lost packet that the current path would not take as a whole is taken
apart: the STREAM frames in it go out again through `sendStreamFrame`,
cut to what the path takes now, and its other frames are collected into
packets of their own, which go out through `sendPacket`. The first call
that fails ends it, and whatever went out before stays out; the packet
then keeps its place among the lost ones.

What the two calls do is left open (`SplitCalls`), as functions on the
state `σ` of the connection: flow control and the send control look at
the same walk over the frames with different eyes.
-/
import Eular.Utp.Connection.Connection

namespace Eular.Utp

open Lib

/-- `UTP_ETHERNET_MTU`, the size of the scratch buffer. -/
def UTP_ETHERNET_MTU : Nat := 1500

def FRAME_STREAM_HDR_SIZE : Nat := 1 + 1 + 2 + 4 + 8

def streamPayloadBudgetHint (currentMaxPacketSize : Nat) (encrypted : Bool) : Nat :=
  let overhead := UTP_HEADER_SIZE + (if encrypted then GCM_TAG_SIZE else 0) + FRAME_STREAM_HDR_SIZE
  if currentMaxPacketSize ≤ overhead then 1 else currentMaxPacketSize - overhead

/-- What the split calls on the connection. -/
structure SplitCalls (σ : Type*) where
  sendStreamFrame : σ → FrameStream → Status × σ
  sendPacket : σ → SendRequest → Status × σ

/-- What it reads of the connection. -/
structure SplitEnv where
  currentMaxPacketSize : Nat
  encrypted : Bool

def SplitEnv.streamChunkBudget (env : SplitEnv) : Nat :=
  max (streamPayloadBudgetHint env.currentMaxPacketSize env.encrypted) 1

/-- Where the walk stands: the connection, and the batch of frames that are
not STREAM frames. -/
structure SplitState (σ : Type*) where
  conn : σ
  framePayload : List UInt8 := []
  frameMetas : List (FrameType × Nat) := []
  frameTypeBits : Nat := 0
  sentAny : Bool := false

-- ==== chunks

/-- The chunk of `len` bytes from `sentData` on. -/
def FrameStream.chunk (frame : FrameStream) (sentData len : Nat) : FrameStream :=
  { streamFlag := if frame.isFin && sentData + len = frame.streamData.length then 1 else 0
    streamId := frame.streamId
    streamOffset := add64 frame.streamOffset sentData
    streamData := (frame.streamData.drop sentData).take len }

/-- The `while (sentData < frame.stream_data_length)` loop: the chunks it
hands out, `fuel` being a bound on the bytes left. -/
def FrameStream.chunksFrom (frame : FrameStream) (budget : Nat) : Nat → Nat → List FrameStream
  | 0, _ => []
  | fuel + 1, sentData =>
    if sentData < frame.streamData.length then
      let chunkLen := min budget (frame.streamData.length - sentData)
      frame.chunk sentData chunkLen :: frame.chunksFrom budget fuel (sentData + chunkLen)
    else []

/-- The frames a STREAM frame goes out as. A lone FIN is one; an empty frame
without FIN is none. -/
def FrameStream.chunks (frame : FrameStream) (budget : Nat) : List FrameStream :=
  if frame.streamData.isEmpty then
    if frame.isFin then
      [{ streamFlag := 1, streamId := frame.streamId, streamOffset := frame.streamOffset,
         streamData := [] }]
    else []
  else frame.chunksFrom budget frame.streamData.length 0

-- ==== walk

section Walk

variable {σ : Type*} (calls : SplitCalls σ) (env : SplitEnv) (packet : PacketOut)

/-- One STREAM frame, chunk by chunk. -/
def sendChunks : List FrameStream → SplitState σ → Status × SplitState σ
  | [], s => (.success, s)
  | frame :: rest, s =>
    let r := calls.sendStreamFrame s.conn frame
    if r.1.ok then sendChunks rest { s with conn := r.2, sentAny := true }
    else (r.1, { s with conn := r.2 })

variable {s : SplitState σ}

variable {calls} in
theorem sendChunks_of_ok {frame : FrameStream} {rest : List FrameStream}
    (h : (calls.sendStreamFrame s.conn frame).1.ok = true) :
    sendChunks calls (frame :: rest) s
      = sendChunks calls rest
          { s with conn := (calls.sendStreamFrame s.conn frame).2, sentAny := true } :=
  if_pos h

variable {calls} in
theorem sendChunks_of_not_ok {frame : FrameStream} {rest : List FrameStream}
    (h : (calls.sendStreamFrame s.conn frame).1.ok = false) :
    sendChunks calls (frame :: rest) s
      = ((calls.sendStreamFrame s.conn frame).1,
          { s with conn := (calls.sendStreamFrame s.conn frame).2 }) :=
  if_neg (by rw [h]; decide)

/-- The request `flushFramePacket` makes. -/
def flushRequest (s : SplitState σ) : SendRequest :=
  { packetType := packet.header.types
    segments := [s.framePayload]
    packetFlags := { hello := packet.poFlags.hello, noEncrypt := packet.poFlags.noEncrypt }
    frameTypeBitsOverride := s.frameTypeBits
    frameMetas := s.frameMetas }

def flushFramePacket (s : SplitState σ) : Status × SplitState σ :=
  if s.framePayload.isEmpty then (.success, s)
  else
    let r := calls.sendPacket s.conn (flushRequest packet s)
    if r.1.ok then (.success, { conn := r.2, sentAny := true })
    else (r.1, { s with conn := r.2 })

def includeFrameBit (bits : Nat) (frameType : FrameType) : Nat :=
  if frameType = .handshakeDone then bits ||| frameType.bit ||| FrameType.handshakeDelay.bit
  else bits ||| frameType.bit

theorem testBit_includeFrameBit_self (bits : Nat) (frameType : FrameType) :
    (includeFrameBit bits frameType).testBit frameType.value = true := by
  unfold includeFrameBit FrameType.bit
  split
  · simp [Nat.testBit_or, Nat.testBit_two_pow_self]
  · simp [Nat.testBit_or, Nat.testBit_two_pow_self]

theorem testBit_includeFrameBit_of_testBit {bits i : Nat} (frameType : FrameType)
    (h : bits.testBit i = true) : (includeFrameBit bits frameType).testBit i = true := by
  unfold includeFrameBit
  split
  · simp [Nat.testBit_or, h]
  · simp [Nat.testBit_or, h]

def PacketOut.skipsFrame (packet : PacketOut) (fm : FrameMetaInfo) : Bool :=
  fm.length = 0 || fm.frameFlags.transientOnRetrans
    || (fm.frameType = .ack && 0 < packet.transientAckSize)

/-- The bytes of a frame in the packet's buffer. -/
def PacketOut.frameBytes (packet : PacketOut) (fm : FrameMetaInfo) : List UInt8 :=
  readMem packet.body (fm.offset - UTP_HEADER_SIZE) fm.length

/-- A STREAM frame: what is in the batch goes out first. -/
def resendStreamFrame (frameBytes : List UInt8) (s : SplitState σ) : Status × SplitState σ :=
  let r := flushFramePacket calls packet s
  if !r.1.ok then r
  else
    match FrameStream.decode frameBytes with
    | none => (.error .internalError "failed to decode stream frame", r.2)
    | some frame => sendChunks calls (frame.chunks env.streamChunkBudget) r.2

/-- The batch goes out if `frameLen` more bytes would grow it past what a
packet takes. -/
def makeRoom (frameLen : Nat) (s : SplitState σ) : Status × SplitState σ :=
  if 0 < s.framePayload.length
      && env.currentMaxPacketSize - UTP_HEADER_SIZE < s.framePayload.length + frameLen then
    flushFramePacket calls packet s
  else (.success, s)

/-- Another frame: it joins the batch. -/
def resendOtherFrame (fm : FrameMetaInfo) (frameBytes : List UInt8) (s : SplitState σ) :
    Status × SplitState σ :=
  if env.currentMaxPacketSize - UTP_HEADER_SIZE < fm.length then
    if fm.frameFlags.droppableOnMtu then (.success, s)
    else (.error .wouldBlock "frame too large for mtu", s)
  else
    let r := makeRoom calls env packet fm.length s
    if !r.1.ok then r
    else if UTP_ETHERNET_MTU < r.2.framePayload.length + fm.length
        || PACKET_OUT_MAX_FRAMES ≤ r.2.frameMetas.length then
      (.error .overflow "frame batch exceeds scratch buffer", r.2)
    else
      (.success,
        { r.2 with
          framePayload := r.2.framePayload ++ frameBytes
          frameMetas := r.2.frameMetas ++ [(fm.frameType, fm.length)]
          frameTypeBits := includeFrameBit r.2.frameTypeBits fm.frameType })

/-- One turn of the loop over `frame_meta`. -/
def resendFrame (fm : FrameMetaInfo) (s : SplitState σ) : Status × SplitState σ :=
  if packet.skipsFrame fm then (.success, s)
  else if fm.offset < UTP_HEADER_SIZE || packet.dataSize < fm.offset + fm.length then
    (.error .internalError "invalid frame meta offset/length", s)
  else if fm.frameType = .stream then
    resendStreamFrame calls env packet (packet.frameBytes fm) s
  else resendOtherFrame calls env packet fm (packet.frameBytes fm) s

/-- The loop over `frame_meta`. -/
def resendFrames : List FrameMetaInfo → SplitState σ → Status × SplitState σ
  | [], s => (.success, s)
  | fm :: rest, s =>
    let r := resendFrame calls env packet fm s
    if r.1.ok then resendFrames rest r.2 else r

/-- `SendControl::retransmitSplitStreamPacket`, up to taking the packet off
the lost queue, which follows on success. -/
def retransmitSplitStreamPacket (conn : σ) : Status × σ :=
  if packet.dataSize < UTP_HEADER_SIZE || packet.frameMeta.isEmpty then
    (.error .wouldBlock "invalid packet state for retransmission", conn)
  else if env.currentMaxPacketSize ≤ UTP_HEADER_SIZE then
    (.error .wouldBlock "mtu too small", conn)
  else
    let r := resendFrames calls env packet packet.frameMeta { conn }
    if !r.1.ok then (r.1, r.2.conn)
    else
      let r := flushFramePacket calls packet r.2
      if !r.1.ok then (r.1, r.2.conn)
      else if !r.2.sentAny then (.error .wouldBlock "no payload to send", r.2.conn)
      else (.success, r.2.conn)

-- ==== what it says

theorem flushFramePacket_status (s : SplitState σ) :
    (flushFramePacket calls packet s).1 = .success
      ∨ (flushFramePacket calls packet s).1
        = (calls.sendPacket s.conn (flushRequest packet s)).1 := by
  unfold flushFramePacket
  split
  · exact .inl rfl
  · simp only
    split
    · exact .inl rfl
    · exact .inr rfl

theorem resendOtherFrame_status (fm : FrameMetaInfo) (frameBytes : List UInt8)
    (s : SplitState σ) :
    (resendOtherFrame calls env packet fm frameBytes s).1 = .success
      ∨ (resendOtherFrame calls env packet fm frameBytes s).1
        = .error .wouldBlock "frame too large for mtu"
      ∨ (resendOtherFrame calls env packet fm frameBytes s).1
        = .error .overflow "frame batch exceeds scratch buffer"
      ∨ (resendOtherFrame calls env packet fm frameBytes s).1
        = (calls.sendPacket s.conn (flushRequest packet s)).1 := by
  have hroom : (makeRoom calls env packet fm.length s).1 = .success
      ∨ (makeRoom calls env packet fm.length s).1
        = (calls.sendPacket s.conn (flushRequest packet s)).1 := by
    unfold makeRoom
    split
    · exact flushFramePacket_status calls packet s
    · exact .inl rfl
  unfold resendOtherFrame
  split
  · split
    · exact .inl rfl
    · exact .inr (.inl rfl)
  · generalize makeRoom calls env packet fm.length s = r at hroom ⊢
    simp only
    split
    · cases hroom with
      | inl hok => exact .inl hok
      | inr hst => exact .inr (.inr (.inr hst))
    · split
      · exact .inr (.inr (.inl rfl))
      · exact .inl rfl

-- ==== what it leaves behind

/-- The batch is made of frames of the packet, none of them a STREAM frame. -/
structure SplitState.BatchOf (s : SplitState σ) : Prop where
  frames : ∀ g ∈ s.frameMetas, ∃ fm ∈ packet.frameMeta,
    packet.skipsFrame fm = false ∧ fm.frameType = g.1 ∧ g.1 ≠ .stream
  bits : ∀ g ∈ s.frameMetas, s.frameTypeBits.testBit g.1.value = true
  nonempty : s.framePayload ≠ [] → s.frameMetas ≠ []

/-- The frame is one of the chunks a STREAM frame of the packet goes out
as. -/
def PacketOut.StreamChunk (budget : Nat) (frame : FrameStream) : Prop :=
  ∃ fm ∈ packet.frameMeta, fm.frameType = .stream ∧ packet.skipsFrame fm = false
    ∧ ∃ whole, FrameStream.decode (packet.frameBytes fm) = some whole ∧ frame ∈ whole.chunks budget

/-- Every chunk of the frame is among `done`. -/
def PacketOut.WentOut (budget : Nat) (done : List FrameStream) (fm : FrameMetaInfo) : Prop :=
  fm.frameType = .stream → packet.skipsFrame fm = false →
    ∃ whole, FrameStream.decode (packet.frameBytes fm) = some whole
      ∧ ∀ frame ∈ whole.chunks budget, frame ∈ done

/-- What the two calls keep of a property of the chunks that are out, of
`sentAny` and of the connection. -/
structure SplitRule (Q : List FrameStream → Bool → σ → Prop) : Prop where
  chunk : ∀ done sentAny conn frame, Q done sentAny conn →
    packet.StreamChunk env.streamChunkBudget frame →
    if (calls.sendStreamFrame conn frame).1.ok then
      Q (done ++ [frame]) true (calls.sendStreamFrame conn frame).2
    else Q done sentAny (calls.sendStreamFrame conn frame).2
  flush : ∀ done (s : SplitState σ), Q done s.sentAny s.conn → s.BatchOf packet →
    s.framePayload ≠ [] →
    if (calls.sendPacket s.conn (flushRequest packet s)).1.ok then
      Q done true (calls.sendPacket s.conn (flushRequest packet s)).2
    else Q done s.sentAny (calls.sendPacket s.conn (flushRequest packet s)).2

/-- The walk stands where the property holds. -/
def SplitState.Holds (Q : List FrameStream → Bool → σ → Prop) (done : List FrameStream)
    (s : SplitState σ) : Prop :=
  s.BatchOf packet ∧ Q done s.sentAny s.conn

section Rule

variable {calls env packet} {Q : List FrameStream → Bool → σ → Prop}
  (hrule : SplitRule calls env packet Q)

variable {fm : FrameMetaInfo}

include hrule

theorem sendChunks_rule (frames : List FrameStream)
    (hframes : ∀ frame ∈ frames, packet.StreamChunk env.streamChunkBudget frame)
    (done : List FrameStream) (s : SplitState σ) (hs : s.Holds packet Q done) :
    ∃ done', (sendChunks calls frames s).2.Holds packet Q done' ∧ done ⊆ done'
      ∧ ((sendChunks calls frames s).1.ok = true → ∀ frame ∈ frames, frame ∈ done') := by
  induction frames generalizing done s with
  | nil => exact ⟨done, hs, List.Subset.refl _, fun _ _ h => absurd h List.not_mem_nil⟩
  | cons frame rest ih =>
    have hsent := hrule.chunk done s.sentAny s.conn frame hs.2
      (hframes frame List.mem_cons_self)
    by_cases hok : (calls.sendStreamFrame s.conn frame).1.ok = true
    · rw [if_pos hok] at hsent
      rw [sendChunks_of_ok hok]
      obtain ⟨done', hholds, hsub, hall⟩ := ih
        (fun f hf => hframes f (List.mem_cons_of_mem frame hf)) (done ++ [frame])
        { s with conn := (calls.sendStreamFrame s.conn frame).2, sentAny := true }
        ⟨⟨hs.1.frames, hs.1.bits, hs.1.nonempty⟩, hsent⟩
      refine ⟨done', hholds, fun f hf => hsub (List.mem_append_left _ hf), ?_⟩
      intro hrest f hf
      rcases List.mem_cons.mp hf with rfl | hf
      · exact hsub (List.mem_append_right _ List.mem_cons_self)
      · exact hall hrest f hf
    · rw [if_neg hok] at hsent
      have hok' := Bool.not_eq_true _ ▸ hok
      rw [sendChunks_of_not_ok hok']
      refine ⟨done, ⟨⟨hs.1.frames, hs.1.bits, hs.1.nonempty⟩, hsent⟩, List.Subset.refl _, ?_⟩
      intro h
      exact absurd h hok

theorem flushFramePacket_rule (done : List FrameStream) (s : SplitState σ)
    (hs : s.Holds packet Q done) : (flushFramePacket calls packet s).2.Holds packet Q done := by
  unfold flushFramePacket
  split
  · exact hs
  · next hpayload =>
      have hsent := hrule.flush done s hs.2 hs.1 (by simpa using hpayload)
      simp only
      split
      · next hok =>
          rw [if_pos hok] at hsent
          exact ⟨⟨fun g hg => absurd hg List.not_mem_nil, fun g hg => absurd hg List.not_mem_nil,
            fun h => absurd rfl h⟩, hsent⟩
      · next hok =>
          rw [if_neg hok] at hsent
          exact ⟨⟨hs.1.frames, hs.1.bits, hs.1.nonempty⟩, hsent⟩

theorem resendStreamFrame_rule (hfm : fm ∈ packet.frameMeta)
    (hstream : fm.frameType = .stream) (hskip : packet.skipsFrame fm = false)
    (done : List FrameStream) (s : SplitState σ) (hs : s.Holds packet Q done) :
    ∃ done', (resendStreamFrame calls env packet (packet.frameBytes fm) s).2.Holds packet Q done'
      ∧ done ⊆ done'
      ∧ ((resendStreamFrame calls env packet (packet.frameBytes fm) s).1.ok = true →
          packet.WentOut env.streamChunkBudget done' fm) := by
  have hflush := flushFramePacket_rule hrule done s hs
  unfold resendStreamFrame
  simp only
  split
  · next hok =>
      refine ⟨done, hflush, List.Subset.refl _, ?_⟩
      intro h
      rw [h] at hok
      exact absurd hok (by decide)
  · split
    · exact ⟨done, hflush, List.Subset.refl _,
        fun h => absurd h (by simp [Status.ok, Status.error])⟩
    · next whole hdecode =>
        obtain ⟨done', hholds, hsub, hall⟩ := sendChunks_rule hrule
          (whole.chunks env.streamChunkBudget)
          (fun frame hframe => ⟨fm, hfm, hstream, hskip, whole, hdecode, hframe⟩) done _ hflush
        exact ⟨done', hholds, hsub, fun hok _ _ => ⟨whole, hdecode, hall hok⟩⟩

theorem resendOtherFrame_rule (hfm : fm ∈ packet.frameMeta)
    (hstream : fm.frameType ≠ .stream) (hskip : packet.skipsFrame fm = false)
    (frameBytes : List UInt8) (done : List FrameStream) (s : SplitState σ)
    (hs : s.Holds packet Q done) :
    (resendOtherFrame calls env packet fm frameBytes s).2.Holds packet Q done := by
  have hroom : (makeRoom calls env packet fm.length s).2.Holds packet Q done := by
    unfold makeRoom
    split
    · exact flushFramePacket_rule hrule done s hs
    · exact hs
  unfold resendOtherFrame
  split
  · split
    · exact hs
    · exact hs
  · simp only
    split
    · exact hroom
    · split
      · exact hroom
      · refine ⟨⟨?_, ?_, fun _ => List.append_ne_nil_of_right_ne_nil _ (List.cons_ne_nil _ _)⟩,
          hroom.2⟩
        · intro g hg
          rcases List.mem_append.mp hg with hg | hg
          · exact hroom.1.frames g hg
          · rw [List.mem_singleton.mp hg]
            exact ⟨fm, hfm, hskip, rfl, hstream⟩
        · intro g hg
          rcases List.mem_append.mp hg with hg | hg
          · exact testBit_includeFrameBit_of_testBit _ (hroom.1.bits g hg)
          · rw [List.mem_singleton.mp hg]
            exact testBit_includeFrameBit_self _ _

theorem resendFrame_rule (hfm : fm ∈ packet.frameMeta)
    (done : List FrameStream) (s : SplitState σ) (hs : s.Holds packet Q done) :
    ∃ done', (resendFrame calls env packet fm s).2.Holds packet Q done' ∧ done ⊆ done'
      ∧ ((resendFrame calls env packet fm s).1.ok = true →
          packet.WentOut env.streamChunkBudget done' fm) := by
  unfold resendFrame
  split
  · next hskip =>
      refine ⟨done, hs, List.Subset.refl _, fun _ _ hno => ?_⟩
      exact absurd (hskip.symm.trans hno) (by decide)
  · next hskip =>
      have hskip' : packet.skipsFrame fm = false := by simpa using hskip
      split
      · exact ⟨done, hs, List.Subset.refl _, fun h => absurd h (by simp [Status.ok, Status.error])⟩
      · split
        · next hstream => exact resendStreamFrame_rule hrule hfm hstream hskip' done s hs
        · next hstream =>
            exact ⟨done, resendOtherFrame_rule hrule hfm hstream hskip' _ done s hs,
              List.Subset.refl _, fun _ h => absurd h hstream⟩

theorem resendFrames_rule (metas : List FrameMetaInfo) (hmetas : metas ⊆ packet.frameMeta)
    (done : List FrameStream) (s : SplitState σ) (hs : s.Holds packet Q done) :
    ∃ done', (resendFrames calls env packet metas s).2.Holds packet Q done' ∧ done ⊆ done'
      ∧ ((resendFrames calls env packet metas s).1.ok = true →
          ∀ fm ∈ metas, packet.WentOut env.streamChunkBudget done' fm) := by
  induction metas generalizing done s with
  | nil => exact ⟨done, hs, List.Subset.refl _, fun _ _ h => absurd h List.not_mem_nil⟩
  | cons fm rest ih =>
    obtain ⟨done₁, hholds, hsub, hwent⟩ :=
      resendFrame_rule hrule (hmetas List.mem_cons_self) done s hs
    unfold resendFrames
    simp only
    split
    · next hok =>
        obtain ⟨done₂, hholds₂, hsub₂, hwent₂⟩ :=
          ih (fun g hg => hmetas (List.mem_cons_of_mem fm hg)) done₁ _ hholds
        refine ⟨done₂, hholds₂, fun f hf => hsub₂ (hsub hf), ?_⟩
        intro hrest g hg
        rcases List.mem_cons.mp hg with rfl | hg
        · intro hstream hskip
          obtain ⟨whole, hdecode, hall⟩ := hwent hok hstream hskip
          exact ⟨whole, hdecode, fun frame hframe => hsub₂ (hall frame hframe)⟩
        · exact hwent₂ hrest g hg
    · next hok => exact ⟨done₁, hholds, hsub, fun h => absurd h hok⟩

/-- What both calls keep holds when the split ends, however it ends. When it
ends well, something and every chunk of every STREAM frame went out. -/
theorem retransmitSplitStreamPacket_rule (conn : σ) (hconn : Q [] false conn) :
    ∃ done sentAny, Q done sentAny (retransmitSplitStreamPacket calls env packet conn).2
      ∧ ((retransmitSplitStreamPacket calls env packet conn).1.ok = true →
          sentAny = true
            ∧ ∀ fm ∈ packet.frameMeta, packet.WentOut env.streamChunkBudget done fm) := by
  obtain ⟨done, hwalk, -, hwent⟩ := resendFrames_rule hrule packet.frameMeta
    (List.Subset.refl _) [] { conn }
    ⟨⟨fun g hg => absurd hg List.not_mem_nil, fun g hg => absurd hg List.not_mem_nil,
      fun h => absurd rfl h⟩, hconn⟩
  have hflush := flushFramePacket_rule hrule done _ hwalk
  unfold retransmitSplitStreamPacket
  split
  · exact ⟨[], false, hconn, fun h => absurd h (by simp [Status.ok, Status.error])⟩
  · split
    · exact ⟨[], false, hconn, fun h => absurd h (by simp [Status.ok, Status.error])⟩
    · simp only
      split
      · next hok =>
          refine ⟨done, _, hwalk.2, fun h => ?_⟩
          exact absurd h (by simpa using hok)
      · next hok =>
          split
          · next hflushed =>
              refine ⟨done, _, hflush.2, fun h => ?_⟩
              exact absurd h (by simpa using hflushed)
          · split
            · exact ⟨done, _, hflush.2, fun h => absurd h (by simp [Status.ok, Status.error])⟩
            · next hsent =>
                exact ⟨done, _, hflush.2,
                  fun _ => ⟨by simpa using hsent, hwent (by simpa using hok)⟩⟩

end Rule

variable {calls env packet}

theorem resendFrames_of_ok {fm : FrameMetaInfo} {rest : List FrameMetaInfo}
    (h : (resendFrame calls env packet fm s).1.ok = true) :
    resendFrames calls env packet (fm :: rest) s
      = resendFrames calls env packet rest (resendFrame calls env packet fm s).2 :=
  if_pos h

theorem resendFrames_of_not_ok {fm : FrameMetaInfo} {rest : List FrameMetaInfo}
    (h : (resendFrame calls env packet fm s).1.ok = false) :
    resendFrames calls env packet (fm :: rest) s = resendFrame calls env packet fm s :=
  if_neg (by rw [h]; decide)

theorem resendFrames_skipped (skipped rest : List FrameMetaInfo)
    (hskip : ∀ fm ∈ skipped, packet.skipsFrame fm = true) (s : SplitState σ) :
    resendFrames calls env packet (skipped ++ rest) s
      = resendFrames calls env packet rest s := by
  induction skipped with
  | nil => rfl
  | cons fm skipped ih =>
    have hfm : resendFrame calls env packet fm s = (.success, s) := by
      unfold resendFrame
      rw [if_pos (hskip fm List.mem_cons_self)]
    rw [List.cons_append, resendFrames_of_ok (by rw [hfm]; rfl), hfm]
    exact ih fun g hg => hskip g (List.mem_cons_of_mem fm hg)

variable (calls) in
/-- A split that starts ends with what the walk answers or, after it, with
what the last batch is answered. -/
theorem retransmitSplitStreamPacket_status (hwhole : UTP_HEADER_SIZE ≤ packet.dataSize)
    (hmetas : packet.frameMeta ≠ []) (hmtu : UTP_HEADER_SIZE < env.currentMaxPacketSize)
    (conn : σ) :
    ((resendFrames calls env packet packet.frameMeta { conn }).1.ok = false
        ∧ (retransmitSplitStreamPacket calls env packet conn).1
          = (resendFrames calls env packet packet.frameMeta { conn }).1)
      ∨ ((resendFrames calls env packet packet.frameMeta { conn }).1.ok = true
        ∧ ((retransmitSplitStreamPacket calls env packet conn).1 = .success
          ∨ (retransmitSplitStreamPacket calls env packet conn).1
            = .error .wouldBlock "no payload to send"
          ∨ (retransmitSplitStreamPacket calls env packet conn).1
            = (flushFramePacket calls packet
                (resendFrames calls env packet packet.frameMeta { conn }).2).1)) := by
  unfold retransmitSplitStreamPacket
  rw [if_neg, if_neg (Nat.not_le.mpr hmtu)]
  · generalize resendFrames calls env packet packet.frameMeta { conn } = r
    cases hok : r.1.ok with
    | false =>
      left
      exact ⟨rfl, by simp only [hok, Bool.not_false, if_true]⟩
    | true =>
      right
      refine ⟨rfl, ?_⟩
      simp only [hok, Bool.not_true, Bool.false_eq_true, if_false]
      split
      · exact .inr (.inr rfl)
      · split
        · exact .inr (.inl rfl)
        · exact .inl rfl
  · simp only [Bool.or_eq_true, decide_eq_true_eq, List.isEmpty_iff, not_or]
    exact ⟨Nat.not_lt.mpr hwhole, hmetas⟩

end Walk

end Eular.Utp
