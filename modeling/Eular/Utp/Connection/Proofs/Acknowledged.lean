/-
What is acknowledged was ingested.

The number of a packet enters the receive history after the frame loop.
Frames that are refused keep it out: a full buffer sets
`streamBackpressured`, every other refusal ends the loop with an error.
Frames that are passed over do not. That matters for one kind of packet:
from a path that is not validated yet STREAM frames are passed over, and
the number is recorded all the same, so the peer may forget data this
side never took in.

`acknowledged_of_run` is the run theorem, for runs without such packets.
-/
import Eular.Lib.Run
import Eular.Utp.Connection.Connection
import Eular.Utp.Connection.Proofs.History

namespace Eular.Utp

open Lib

variable {gcm : Gcm} {env : RecvEnv} {a : Arrival}
variable {l : FrameLoop}

/-- The STREAM frames of a list of frames, decoded. -/
def streamFrames (frames : List (FrameType × List UInt8)) : List (Option FrameStream) :=
  (frames.filter fun frame => frame.1 = .stream).map fun frame => FrameStream.decode frame.2

/-- Every STREAM frame of the packet was handed to `ingestStreamFrame`, and
none was refused. -/
structure FullyIngested (r : Receipt) : Prop where
  frames : streamFrames r.packet.frames = r.ingested.map fun p => some p.1
  ok : ∀ p ∈ r.ingested, p.2.ok = true

/-- Every byte of the frame came in some frame that was ingested. -/
def BytesIngested (receipts : List Receipt) (frame : FrameStream) : Prop :=
  ∀ x, frame.streamOffset ≤ x → x < frame.streamOffset + frame.streamData.length →
    ∃ receipt ∈ receipts, ∃ p ∈ receipt.ingested, p.2.ok = true
      ∧ p.1.streamId = frame.streamId
      ∧ p.1.streamOffset ≤ x ∧ x < p.1.streamOffset + p.1.streamData.length

/-- Every number in the receive history is that of a packet whose STREAM
frames were all ingested, or whose bytes had come in other packets. -/
def AcknowledgedIngested (r : ConnRun) : Prop :=
  ∀ pn, r.conn.receiveHistory.contains pn = true →
    ∃ receipt ∈ r.receipts, receipt.packet.header.pn.toNat = pn
      ∧ (FullyIngested receipt
        ∨ ∀ f ∈ streamFrames receipt.packet.frames, ∃ frame, f = some frame
            ∧ BytesIngested r.receipts frame)

variable (conn : ConnectionImpl)

/-- The packet carries a STREAM frame, comes from the candidate path of a
connection that takes packets, and is of a kind that is acknowledged. -/
def CandidateStream (env : RecvEnv) (source : Address)
    (packet : PacketIn) : Prop :=
  let a := (conn.arrive env source).2
  a.fromActivePath = false ∧ a.fromCandidatePath = true ∧ a.closingState = false
    ∧ conn.state ≠ .ptoTimedWait ∧ conn.state ≠ .disconnected
    ∧ packet.unacknowledged = false ∧ ∃ frame ∈ packet.frames, frame.1 = .stream

instance (conn : ConnectionImpl) (env : RecvEnv) (source : Address) (packet : PacketIn) :
    Decidable (CandidateStream conn env source packet) := by
  unfold CandidateStream
  infer_instance

/-- The condition on a step: no packet with STREAM frames arrives from the
candidate path, and some packet number below 2 ^ 32 is still missing. -/
def NoCandidateStream (gcm : Gcm) (r : ConnRun) : ConnOp → Prop
  | .datagram env source msg =>
    ∀ packet,
      decodeUdpPacketWithOptionalAead gcm r.conn.aesCtx msg (packetInAllocSize msg.length)
          = some packet →
        ¬ CandidateStream r.conn env source packet
          ∧ ∃ k < 2 ^ 32, k ≠ packet.header.pn.toNat
            ∧ ∀ receipt ∈ r.receipts, receipt.packet.header.pn.toNat ≠ k
  | _ => True

-- ==== the frame loop

/-- What a frame that does not end the loop leaves in the trace. -/
structure Traced (l l' : FrameLoop) (frames : List (FrameType × List UInt8)) : Prop where
  ingested : ∃ new, l'.ingested = l.ingested ++ new
    ∧ streamFrames frames = new.map (fun p => some p.1)
    ∧ ∀ p ∈ new, p.2.ok = true ∨ l'.streamBackpressured = true
  backpressured : l.streamBackpressured = true → l'.streamBackpressured = true

theorem traced_unchanged {l l' : FrameLoop} {frame : FrameType × List UInt8}
    (hingested : l'.ingested = l.ingested)
    (hback : l'.streamBackpressured = l.streamBackpressured) (hframe : frame.1 ≠ .stream) :
    Traced l l' [frame] := by
  refine ⟨⟨[], ?_, ?_, ?_⟩, ?_⟩
  · rw [hingested, List.append_nil]
  · simp [streamFrames, hframe]
  · intro p hp
    cases hp
  · intro h
    rw [hback, h]

theorem onStream_traced {data : List UInt8}
    (hgo : (l.onStream data).fatalPacketError = false) :
    Traced l (l.onStream data) [(.stream, data)] := by
  unfold FrameLoop.onStream at hgo ⊢
  cases hdecode : FrameStream.decode data with
  | none =>
    simp only [hdecode] at hgo
    cases hgo
  | some frame =>
    simp only [hdecode] at hgo ⊢
    have htrace : streamFrames [(.stream, data)]
        = [(frame, (l.conn.table.ingestStreamFrame frame).1)].map fun p => some p.1 := by
      simp [streamFrames, hdecode]
    by_cases hok : (l.conn.table.ingestStreamFrame frame).1.ok = true
    · rw [if_pos hok]
      refine ⟨⟨_, rfl, htrace, ?_⟩, fun h => h⟩
      intro p hp
      rw [List.mem_singleton.mp hp]
      exact .inl hok
    · rw [if_neg hok] at hgo ⊢
      by_cases hfull : (l.conn.table.ingestStreamFrame frame).1.code = .wouldBlock
      · rw [if_pos hfull]
        exact ⟨⟨_, rfl, htrace, fun _ _ => .inr rfl⟩, fun _ => rfl⟩
      · rw [if_neg hfull] at hgo
        cases hgo

theorem onFrame_traced {frame : FrameType × List UInt8}
    (hgo : (l.onFrame env a frame).stopped = false)
    (hskip : frame.1 = .stream → a.skips .stream = false) :
    Traced l (l.onFrame env a frame) [frame] := by
  obtain ⟨frameType, data⟩ := frame
  by_cases hstream : frameType = .stream
  · subst hstream
    have hnot := hskip rfl
    unfold FrameLoop.onFrame at hgo ⊢
    simp only [hnot, Bool.false_eq_true, if_false] at hgo ⊢
    refine onStream_traced ?_
    exact (Bool.or_eq_false_iff.mp hgo).2
  · have hingested : (l.onFrame env a (frameType, data)).ingested = l.ingested
        ∧ (l.onFrame env a (frameType, data)).streamBackpressured = l.streamBackpressured := by
      unfold FrameLoop.onFrame
      split
      · exact ⟨rfl, rfl⟩
      · cases frameType
        case stream => exact absurd rfl hstream
        case resetStream =>
          simp only
          cases decodeResetStream data <;> exact ⟨rfl, rfl⟩
        case transportParams =>
          simp only
          cases decodeTransportParams data <;> exact ⟨rfl, rfl⟩
        case crypto =>
          show (l.onCrypto env data).ingested = l.ingested
            ∧ (l.onCrypto env data).streamBackpressured = l.streamBackpressured
          unfold FrameLoop.onCrypto
          split <;> exact ⟨rfl, rfl⟩
        all_goals exact ⟨rfl, rfl⟩
    exact traced_unchanged hingested.1 hingested.2 hstream

theorem Traced.append {l l' l'' : FrameLoop} {xs ys : List (FrameType × List UInt8)}
    (h : Traced l l' xs) (h' : Traced l' l'' ys) : Traced l l'' (xs ++ ys) := by
  obtain ⟨new, hnew, hframes, hok⟩ := h.ingested
  obtain ⟨new', hnew', hframes', hok'⟩ := h'.ingested
  refine ⟨⟨new ++ new', ?_, ?_, ?_⟩, fun hb => h'.backpressured (h.backpressured hb)⟩
  · rw [hnew', hnew, List.append_assoc]
  · rw [streamFrames, List.filter_append, List.map_append, List.map_append, ← hframes,
      ← hframes']
    rfl
  · intro p hp
    cases List.mem_append.mp hp with
    | inl hold =>
      cases hok p hold with
      | inl hgood => exact .inl hgood
      | inr hb => exact .inr (h'.backpressured hb)
    | inr hnew => exact hok' p hnew

theorem run_stopped (h : l.stopped = true)
    (frames : List (FrameType × List UInt8)) : FrameLoop.run env a l frames = l := by
  cases frames with
  | nil => rfl
  | cons frame frames => rw [FrameLoop.run, if_pos h]

/-- A loop that runs to the end of the packet has handed over every STREAM
frame. -/
theorem run_traced {frames : List (FrameType × List UInt8)} :
    ∀ {l : FrameLoop}, (FrameLoop.run env a l frames).stopped = false →
      ((∃ frame ∈ frames, frame.1 = .stream) → a.skips .stream = false) →
      Traced l (FrameLoop.run env a l frames) frames := by
  induction frames with
  | nil =>
    intro l _ _
    exact ⟨⟨[], by rw [List.append_nil]; rfl, rfl, fun _ h => (by cases h)⟩, fun h => h⟩
  | cons frame frames ih =>
    intro l hgo hskip
    have hl : l.stopped = false := by
      cases hstop : l.stopped with
      | false => rfl
      | true =>
        rw [run_stopped hstop, hstop] at hgo
        cases hgo
    have hstep : FrameLoop.run env a l (frame :: frames)
        = FrameLoop.run env a (l.onFrame env a frame) frames := by
      rw [FrameLoop.run, if_neg (by rw [hl]; simp)]
    rw [hstep] at hgo ⊢
    have hnext : (l.onFrame env a frame).stopped = false := by
      cases hstop : (l.onFrame env a frame).stopped with
      | false => rfl
      | true =>
        rw [run_stopped hstop, hstop] at hgo
        cases hgo
    have hfirst : Traced l (l.onFrame env a frame) [frame] :=
      onFrame_traced hnext fun h => hskip ⟨frame, List.mem_cons_self .., h⟩
    have hrest := ih hgo fun h => by
      obtain ⟨f, hf, hs⟩ := h
      exact hskip ⟨f, List.mem_cons_of_mem _ hf, hs⟩
    exact hfirst.append hrest

-- ==== the history

theorem abortConnection_receiveHistory (st : Status) :
    (conn.abortConnection st).receiveHistory = conn.receiveHistory := by
  unfold ConnectionImpl.abortConnection
  split <;> rfl

theorem handlePathResponseFrame_receiveHistory (data : List UInt8)
    (source : Address) :
    (conn.handlePathResponseFrame data source).receiveHistory = conn.receiveHistory := by
  unfold ConnectionImpl.handlePathResponseFrame
  split
  · rfl
  · cases decodePathResponse data with
    | none => rfl
    | some response =>
      simp only
      split <;> rfl

theorem onStream_receiveHistory (l : FrameLoop) (data : List UInt8) :
    (l.onStream data).conn.receiveHistory = l.conn.receiveHistory := by
  unfold FrameLoop.onStream
  cases FrameStream.decode data with
  | none => exact abortConnection_receiveHistory ..
  | some frame =>
    simp only
    split
    · rfl
    · split
      · rfl
      · exact abortConnection_receiveHistory ..

theorem onFrame_receiveHistory (l : FrameLoop) (frame : FrameType × List UInt8) :
    (l.onFrame env a frame).conn.receiveHistory = l.conn.receiveHistory := by
  obtain ⟨frameType, data⟩ := frame
  unfold FrameLoop.onFrame
  split
  · rfl
  · cases frameType
    case stream => exact onStream_receiveHistory l data
    case resetStream =>
      simp only
      cases decodeResetStream data <;> rfl
    case transportParams =>
      simp only
      cases decodeTransportParams data <;> rfl
    case pathResponse => exact handlePathResponseFrame_receiveHistory ..
    case crypto =>
      show (l.onCrypto env data).conn.receiveHistory = _
      unfold FrameLoop.onCrypto
      split
      · rfl
      · rfl
      · exact abortConnection_receiveHistory ..
    all_goals rfl

theorem run_receiveHistory (frames : List (FrameType × List UInt8)) :
    ∀ l : FrameLoop, (FrameLoop.run env a l frames).conn.receiveHistory
      = l.conn.receiveHistory := by
  induction frames with
  | nil =>
    intro l
    rfl
  | cons frame frames ih =>
    intro l
    rw [FrameLoop.run]
    split
    · rfl
    · rw [ih, onFrame_receiveHistory]

/-- The path after the source address was noted. -/
def ConnectionImpl.pathOnArrival (env : RecvEnv) (source : Address) :
    NetworkPath :=
  if !(conn.peerAddress.isValid && source = conn.peerAddress) && !conn.closingState then
    let r := conn.networkPath.detectPeerAddressChange source
    if r.1 && r.2.needPathValidation then r.2.makePathChallenge env.nowMs env.challenge else r.2
  else conn.networkPath

/-- `arrive` touches nothing but the path. -/
theorem arrive_eq (env : RecvEnv) (source : Address) :
    conn.arrive env source
      = ({ conn with networkPath := conn.pathOnArrival env source },
          { source
            closingState := conn.closingState
            fromActivePath := conn.peerAddress.isValid && source = conn.peerAddress
            fromCandidatePath := (conn.pathOnArrival env source).needPathValidation
              && (conn.pathOnArrival env source).peerAddress.isValid
              && source = (conn.pathOnArrival env source).peerAddress }) := by
  have hfst : (conn.arrive env source).1
      = { conn with networkPath := conn.pathOnArrival env source } := by
    unfold ConnectionImpl.arrive ConnectionImpl.pathOnArrival
    simp only
    split
    · unfold ConnectionImpl.maybeSendPathChallenge
      cases (conn.networkPath.detectPeerAddressChange source).1
      · rfl
      · simp only [Bool.true_and, if_true]
        split <;> rfl
    · rfl
  refine Prod.ext hfst ?_
  have hpath : (conn.arrive env source).1.networkPath = conn.pathOnArrival env source := by
    rw [hfst]
  rw [← hpath]
  rfl

theorem finish_cases (packet : PacketIn) (a : Arrival) (l : FrameLoop) :
    (ConnectionImpl.finish packet a l).receiveHistory = l.conn.receiveHistory
      ∨ (l.stopped = false ∧ a.closingState = false ∧ packet.unacknowledged = false
          ∧ l.streamBackpressured = false
          ∧ (ConnectionImpl.finish packet a l).receiveHistory
              = l.conn.receiveHistory.insert packet.header.pn.toNat) := by
  have hstate : ∀ (conn : ConnectionImpl) (c : Prop) [Decidable c],
      (if c then { conn with state := .connected } else conn).receiveHistory
        = conn.receiveHistory := by
    intro conn c _
    split <;> rfl
  unfold ConnectionImpl.finish
  split
  · exact .inl rfl
  · next hgo =>
    simp only [hstate]
    split
    · exact .inl rfl
    · next hrecord =>
      simp only [Bool.or_eq_true, not_or, Bool.not_eq_true] at hgo hrecord
      refine .inr ⟨?_, hgo.2, hrecord.1, hrecord.2, rfl⟩
      rw [FrameLoop.stopped, hgo.1.1, hgo.1.2]
      rfl

/-- A packet whose number is recorded has been ingested, or it is the kind
of packet the frame loop passes over. -/
theorem onPacket_cases (env : RecvEnv) (source : Address)
    (packet : PacketIn) :
    (conn.onPacket env source packet).1.receiveHistory = conn.receiveHistory
      ∨ ((conn.onPacket env source packet).1.receiveHistory
            = conn.receiveHistory.insert packet.header.pn.toNat
          ∧ (CandidateStream conn env source packet
              ∨ FullyIngested (conn.onPacket env source packet).2)) := by
  set path := conn.pathOnArrival env source with hpath
  have harrive : { conn with peerConnectionID := packet.header.scid }.arrive env source
      = ({ conn with peerConnectionID := packet.header.scid, networkPath := path },
          (conn.arrive env source).2) := by
    rw [arrive_eq, arrive_eq]
    rfl
  unfold ConnectionImpl.onPacket
  simp only [harrive]
  set a := (conn.arrive env source).2 with ha
  split
  · exact .inl rfl
  · next hopen =>
    set l := FrameLoop.run env a
      { conn := { conn with peerConnectionID := packet.header.scid, networkPath := path } }
      packet.frames with hl
    have hhist : l.conn.receiveHistory = conn.receiveHistory := run_receiveHistory _ _
    rw [← hhist]
    cases finish_cases packet a l with
    | inl hnone => exact .inl hnone
    | inr h =>
      obtain ⟨hgo, hclosing, hkind, hroom, hinsert⟩ := h
      refine .inr ⟨hinsert, ?_⟩
      by_cases hcand : CandidateStream conn env source packet
      · exact .inl hcand
      · refine .inr ?_
        have hskip : (∃ frame ∈ packet.frames, frame.1 = .stream) →
            a.skips .stream = false := by
          intro hstream
          simp only [Bool.or_eq_true, decide_eq_true_eq, not_or] at hopen
          have hnot : ¬ (a.fromActivePath = false ∧ a.fromCandidatePath = true) := by
            intro hpaths
            exact hcand ⟨hpaths.1, hpaths.2, hclosing, hopen.1, hopen.2, hkind, hstream⟩
          unfold Arrival.skips
          rw [hclosing]
          cases hactive : a.fromActivePath with
          | true => rfl
          | false =>
            cases hfrom : a.fromCandidatePath with
            | false => rfl
            | true => exact absurd ⟨hactive, hfrom⟩ hnot
        obtain ⟨⟨new, hnew, hframes, hok⟩, -⟩ := run_traced hgo hskip
        rw [← hl, List.nil_append] at hnew
        refine ⟨?_, ?_⟩
        · show streamFrames packet.frames = l.ingested.map fun p => some p.1
          rw [hnew, hframes]
        · intro p hp
          have hp' : p ∈ new := hnew ▸ hp
          cases hok p hp' with
          | inl hgood => exact hgood
          | inr hback =>
            rw [← hl, hroom] at hback
            cases hback

-- ==== the run

/-- The numbers of packets that were ingested. -/
def ConnRun.Ingested (r : ConnRun) (pn : Nat) : Prop :=
  ∃ receipt ∈ r.receipts, receipt.packet.header.pn.toNat = pn ∧ FullyIngested receipt

theorem createStreamInternal_receiveHistory (streamType : StreamType) :
    (conn.createStreamInternal streamType).2.receiveHistory = conn.receiveHistory := by
  unfold ConnectionImpl.createStreamInternal
  simp only
  split <;> rfl

theorem onPathValidationTimeout_receiveHistory (env : RecvEnv) :
    (conn.onPathValidationTimeout env).receiveHistory = conn.receiveHistory := by
  unfold ConnectionImpl.onPathValidationTimeout ConnectionImpl.maybeSendPathChallenge
  simp only
  split
  · rfl
  · split
    · split <;> rfl
    · rfl

theorem datagram_recorded {r : ConnRun} {source : Address} {msg : List UInt8}
    (hrec : Recorded r.conn.receiveHistory r.Ingested)
    (hok : NoCandidateStream gcm r (.datagram env source msg)) :
    Recorded (r.step gcm (.datagram env source msg)).conn.receiveHistory
      (r.step gcm (.datagram env source msg)).Ingested := by
  unfold ConnRun.step ConnectionImpl.onUdpPacket
  simp only
  cases hdecode : decodeUdpPacketWithOptionalAead gcm r.conn.aesCtx msg
      (packetInAllocSize msg.length) with
  | none =>
    refine hrec.mono fun pn h => ?_
    obtain ⟨receipt, hmem, h⟩ := h
    exact ⟨receipt, List.mem_append_left _ hmem, h⟩
  | some packet =>
    simp only
    split
    · refine hrec.mono fun pn h => ?_
      obtain ⟨receipt, hmem, h⟩ := h
      exact ⟨receipt, List.mem_append_left _ hmem, h⟩
    · obtain ⟨hcand, k, hk, hne, hmiss⟩ := hok packet hdecode
      have hold : ∀ pn, r.Ingested pn →
          ConnRun.Ingested
            { r with
              conn := (r.conn.onPacket env source packet).1
              receipts := r.receipts ++ [(r.conn.onPacket env source packet).2] } pn := by
        intro pn h
        obtain ⟨receipt, hmem, h⟩ := h
        exact ⟨receipt, List.mem_append_left _ hmem, h⟩
      cases onPacket_cases r.conn env source packet with
      | inl hsame =>
        simp only [Option.toList]
        rw [hsame]
        exact hrec.mono hold
      | inr h =>
        obtain ⟨hinsert, hkind⟩ := h
        simp only [Option.toList]
        rw [hinsert]
        have hgap : ∃ k < 2 ^ 32, k ≠ packet.header.pn.toNat ∧ ¬ r.Ingested k := by
          refine ⟨k, hk, hne, ?_⟩
          intro hin
          obtain ⟨receipt, hmem, hpn, -⟩ := hin
          exact hmiss receipt hmem hpn
        refine (hrec.insert packet.header.pn.toNat_lt hgap).mono fun pn hpn => ?_
        cases hpn with
        | inr h => exact hold pn h
        | inl h =>
          refine ⟨_, List.mem_append_right _ (List.mem_singleton_self _), ?_⟩
          refine ⟨?_, hkind.resolve_left hcand⟩
          rw [h]
          unfold ConnectionImpl.onPacket
          simp only
          split <;> rfl

theorem step_recorded {r : ConnRun} {op : ConnOp}
    (hrec : Recorded r.conn.receiveHistory r.Ingested) (hok : NoCandidateStream gcm r op) :
    Recorded (r.step gcm op).conn.receiveHistory (r.step gcm op).Ingested := by
  cases op with
  | datagram env source msg => exact datagram_recorded hrec hok
  | createStream streamType =>
    rw [← createStreamInternal_receiveHistory r.conn streamType] at hrec
    unfold ConnRun.step
    simp only
    split
    · exact hrec
    · exact hrec
  | stream id op =>
    unfold ConnRun.step
    simp only
    split
    · exact hrec
    · exact hrec
  | collectClosedStreams => exact hrec
  | pathValidationTimeout env =>
    rw [← onPathValidationTimeout_receiveHistory r.conn env] at hrec
    exact hrec
  | close =>
    unfold ConnRun.step ConnectionImpl.close
    simp only
    split
    · exact hrec
    · exact hrec
  | enterPtoTimedWait =>
    unfold ConnRun.step ConnectionImpl.enterPtoTimedWait
    simp only
    split
    · exact hrec
    · exact hrec
  | closeDrainTimeout =>
    unfold ConnRun.step ConnectionImpl.onCloseDrainTimeout
    simp only
    split
    · exact hrec
    · exact hrec

/-- Along a run in which no packet with STREAM frames comes from a path
that is not validated, what is acknowledged was ingested. -/
theorem acknowledged_of_run {conn : ConnectionImpl} {ops : List ConnOp}
    (hnew : conn.receiveHistory = {})
    (hok : Meets (ConnRun.step gcm) (NoCandidateStream gcm) { conn } ops) :
    AcknowledgedIngested (run (ConnRun.step gcm) { conn } ops) := by
  have hstart : Recorded ({ conn } : ConnRun).conn.receiveHistory
      (({ conn } : ConnRun).Ingested) := by
    rw [show ({ conn } : ConnRun).conn.receiveHistory = {} from hnew]
    exact recorded_empty _
  have hend := run_inv (P := fun r => Recorded r.conn.receiveHistory r.Ingested)
    (fun r op hrec hok => step_recorded hrec hok) hstart hok
  intro pn hpn
  obtain ⟨receipt, hmem, hnumber, hfull⟩ := hend.contains hpn
  exact ⟨receipt, hmem, hnumber, .inl hfull⟩

-- ==== instances

/-- A server's connection without encryption, its handshake done. -/
def acceptedConn : ConnectionImpl where
  state := .connected
  localConnectionID := 0x1001
  peerConnectionID := 0x2002
  peerAddress := .ip 10 4433
  networkPath := { peerAddress := .ip 10 4433, state := .validated }
  table := { isClientInitiator := false, localTP := {}, peerTP := {} }

/-- Packet 1 of the client: a STREAM frame with the first byte of stream 0. -/
def streamDatagram : List UInt8 :=
  { scid := 0x2002, dcid := 0x1001, pn := 1, payloadLength := 17, types := UTP_TYPE_CTRL,
    reserve := 0 : UTPHeaderProto }.serialize
    ++ [1, 0, 0, 1, 0, 0, 0, 0, 0, 0, 0, 0, 0, 0, 0, 0, 65]

/-- The clock and the challenge of the arrivals below. -/
def someRecvEnv : RecvEnv where
  nowMs := 1000
  challenge := [1, 2, 3, 4, 5, 6, 7, 8]
  deriveContext _ _ := .ignored

theorem acknowledged_active_path :
    let r := run (ConnRun.step unusedGcm) { conn := acceptedConn }
      [.datagram someRecvEnv (.ip 10 4433) streamDatagram]
    r.conn.receiveHistory.contains 1 = true ∧ AcknowledgedIngested r := by
  refine ⟨by decide, acknowledged_of_run rfl ⟨?_, trivial⟩⟩
  intro packet _
  have hactive : (acceptedConn.arrive someRecvEnv (.ip 10 4433)).2.fromActivePath = true := by
    decide
  refine ⟨fun hcand => absurd hcand.1 (by rw [hactive]; decide), ?_⟩
  by_cases hzero : packet.header.pn.toNat = 0
  · exact ⟨1, by norm_num, by omega, fun _ h => (by cases h)⟩
  · exact ⟨0, by norm_num, by omega, fun _ h => (by cases h)⟩

/-- The same packet from an address the peer has not been seen at: its
STREAM frame is passed over and its number recorded. -/
theorem not_acknowledged_candidate_path :
    ¬ AcknowledgedIngested (run (ConnRun.step unusedGcm) { conn := acceptedConn }
        [.datagram someRecvEnv (.ip 11 4433) streamDatagram]) := by
  intro h
  have hnone : ∀ receipt ∈ (run (ConnRun.step unusedGcm) { conn := acceptedConn }
      [.datagram someRecvEnv (.ip 11 4433) streamDatagram]).receipts,
      receipt.ingested = [] ∧ streamFrames receipt.packet.frames
        = [some { streamFlag := 0, streamId := 0, streamOffset := 0, streamData := [65] }] := by
    decide
  obtain ⟨receipt, hmem, -, hdone⟩ := h 1 (by decide)
  obtain ⟨hempty, hframes⟩ := hnone receipt hmem
  cases hdone with
  | inl hfull =>
    have := hfull.frames
    rw [hempty, hframes] at this
    cases this
  | inr harrived =>
    obtain ⟨frame, hframe, hbytes⟩ := harrived _ (hframes ▸ List.mem_singleton_self _)
    cases hframe
    obtain ⟨other, hother, p, hp, -⟩ := hbytes 0 (by decide) (by decide)
    rw [(hnone other hother).1] at hp
    cases hp

end Eular.Utp
