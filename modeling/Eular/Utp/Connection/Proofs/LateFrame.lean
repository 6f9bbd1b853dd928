/-
Frames for streams that are gone.

`collectClosedStreams` forgets a stream completely, and a frame for an id
that is not in the table is treated as the first one of its stream. So a
late copy of a STREAM frame opens the stream again, announces it again
and delivers its bytes again, if the peer had opened it; if this side
had, the frame is an error and the connection is aborted. A late
RESET_STREAM is harmless only for a stream of this side.

`harmless_iff` says so for every frame of every packet in every run: the
late frame does no harm exactly when the frame loop does not get to it,
or it is a RESET_STREAM for a stream of this side.
-/
import Eular.Utp.Connection.Proofs.Acknowledged
import Eular.Utp.Connection.Proofs.StreamTable

namespace Eular.Utp

open Lib

variable {gcm : Gcm} {env : RecvEnv} {a : Arrival} {t : Streams} {id : Nat}
variable {l : FrameLoop} {data : List UInt8} {frame : FrameType × List UInt8}

variable (conn : ConnectionImpl)

/-- The frame is a STREAM or RESET_STREAM frame for stream `id`. -/
def Concerns (frame : FrameType × List UInt8) (id : Nat) : Prop :=
  (frame.1 = .stream ∧ ∃ f, FrameStream.decode frame.2 = some f ∧ f.streamId = id)
    ∨ (frame.1 = .resetStream ∧ ∃ errorCode, decodeResetStream frame.2 = some (id, errorCode))

/-- What a late frame should leave: the connection goes on, and the stream
stays gone. -/
structure Harmless (before after : FrameLoop) (id : Nat) : Prop where
  state : after.conn.state = before.conn.state
  aborted : after.conn.aborted = before.conn.aborted
  stream : after.conn.table.find id = none
  announced : after.conn.table.incoming = before.conn.table.incoming
  bytes : ∀ s ∈ after.conn.table.streams, s.streamId = id → s.readable = false

/-- The frame loop does not get to a frame of this type after the frames
`pre`: the connection no longer takes packets, the loop was stopped, or
frames of the type are passed over. -/
def PassedOver (env : RecvEnv) (source : Address) (packet : PacketIn)
    (pre : List (FrameType × List UInt8)) (frameType : FrameType) : Prop :=
  conn.state = .ptoTimedWait ∨ conn.state = .disconnected
    ∨ (conn.loopOver env source packet pre).stopped = true
    ∨ (conn.arrive env source).2.skips frameType = true

-- ==== who opened it

theorem validateIncomingStreamId_local
    (h : isLocalInitiatedStream id t.isClientInitiator = true) :
    t.validateIncomingStreamId id
      = .error .streamStateError "peer initiated stream flag mismatch" := by
  have hnot : isLocalInitiatedStream id (!t.isClientInitiator) = false := by
    unfold isLocalInitiatedStream streamIdIsClient streamIdIsServer at h ⊢
    cases hrole : t.isClientInitiator with
    | false =>
      simp only [hrole, Bool.not_false, Bool.false_eq_true, if_false, if_true,
        decide_eq_true_eq, decide_eq_false_iff_not] at h ⊢
      omega
    | true =>
      simp only [hrole, Bool.not_true, Bool.false_eq_true, if_false, if_true,
        decide_eq_true_eq, decide_eq_false_iff_not] at h ⊢
      omega
  unfold Streams.validateIncomingStreamId
  rw [if_pos (by rw [hnot]; rfl)]

theorem findOrOpen_local (h : isLocalInitiatedStream id t.isClientInitiator = true)
    (hfind : t.find id = none) :
    t.findOrOpen id = .error (.error .streamStateError "peer initiated stream flag mismatch") := by
  unfold Streams.findOrOpen
  rw [hfind]
  simp only
  rw [validateIncomingStreamId_local h]
  rfl

theorem findOrOpen_peer (h : (t.validateIncomingStreamId id).ok = true)
    (hfind : t.find id = none) :
    t.findOrOpen id
      = .ok ({ streamId := id },
          { t.store { streamId := id } with incoming := t.incoming ++ [id] }) := by
  unfold Streams.findOrOpen
  rw [hfind]
  simp only
  rw [if_neg (by rw [h]; decide)]

-- ==== the frame loop

theorem onStream_state
    (hgo : (l.onStream data).stopped = false) :
    (l.onStream data).conn.state = l.conn.state := by
  have hfatal := (Bool.or_eq_false_iff.mp hgo).2
  unfold FrameLoop.onStream at hfatal ⊢
  cases hdecode : FrameStream.decode data with
  | none =>
    simp only [hdecode] at hfatal
    cases hfatal
  | some frame =>
    simp only [hdecode] at hfatal ⊢
    split at hfatal
    · next hok => rw [if_pos hok]
    · next hok =>
      split at hfatal
      · next hfull => rw [if_neg hok, if_pos hfull]
      · cases hfatal

theorem onFrame_state
    (hgo : (l.onFrame env a frame).stopped = false) :
    (l.onFrame env a frame).conn.state = l.conn.state := by
  obtain ⟨frameType, data⟩ := frame
  unfold FrameLoop.onFrame at hgo ⊢
  split
  · rfl
  · next hskip =>
    rw [if_neg hskip] at hgo
    cases frameType
    case stream => exact onStream_state hgo
    case resetStream =>
      simp only
      cases decodeResetStream data <;> rfl
    case transportParams =>
      simp only
      cases decodeTransportParams data <;> rfl
    case pathResponse =>
      show (l.conn.handlePathResponseFrame data a.source).state = l.conn.state
      unfold ConnectionImpl.handlePathResponseFrame
      split
      · rfl
      · cases decodePathResponse data with
        | none => rfl
        | some response =>
          simp only
          split <;> rfl
    case crypto =>
      replace hgo : (l.onCrypto env data).stopped = false := hgo
      show (l.onCrypto env data).conn.state = l.conn.state
      unfold FrameLoop.onCrypto at hgo ⊢
      split
      · rfl
      · rfl
      · next h =>
        simp only [h, FrameLoop.stopped, Bool.or_true] at hgo
        cases hgo
    case connectionClose => cases hgo
    all_goals rfl

theorem run_append_singleton
    {frames : List (FrameType × List UInt8)} :
    ∀ l : FrameLoop, FrameLoop.run env a l (frames ++ [frame])
      = if (FrameLoop.run env a l frames).stopped then FrameLoop.run env a l frames
        else (FrameLoop.run env a l frames).onFrame env a frame := by
  induction frames with
  | nil =>
    intro l
    rfl
  | cons f frames ih =>
    intro l
    rw [List.cons_append, FrameLoop.run, FrameLoop.run]
    by_cases hstop : l.stopped = true
    · rw [if_pos hstop, if_pos hstop, if_pos hstop]
    · rw [if_neg hstop, if_neg hstop, ih]

theorem run_state {frames : List (FrameType × List UInt8)} :
    ∀ {l : FrameLoop}, (FrameLoop.run env a l frames).stopped = false →
      (FrameLoop.run env a l frames).conn.state = l.conn.state := by
  induction frames with
  | nil =>
    intro l _
    rfl
  | cons frame frames ih =>
    intro l hgo
    rw [FrameLoop.run] at hgo ⊢
    split at hgo
    · next hstop => rw [if_pos hstop]
    · next hstop =>
      rw [if_neg hstop, ih hgo]
      refine onFrame_state ?_
      cases hnext : (l.onFrame env a frame).stopped with
      | false => rfl
      | true =>
        rw [run_stopped hnext, hnext] at hgo
        cases hgo

-- ==== the late frame

theorem harmless_refl (hremoved : l.conn.table.find id = none) :
    Harmless l l id where
  state := rfl
  aborted := rfl
  stream := hremoved
  announced := rfl
  bytes := fun _ hs hid => absurd hid (lookup_eq_none hremoved hs)

theorem ingestStreamFrame_peer_incoming {frame : FrameStream}
    (hvalid : (t.validateIncomingStreamId frame.streamId).ok = true)
    (hfind : t.find frame.streamId = none) :
    (t.ingestStreamFrame frame).2.incoming = t.incoming ++ [frame.streamId] := by
  unfold Streams.ingestStreamFrame
  rw [findOrOpen_peer hvalid hfind]
  rfl

theorem handleResetStreamFrame_peer_incoming {errorCode : Nat}
    (hvalid : (t.validateIncomingStreamId id).ok = true) (hfind : t.find id = none) :
    (t.handleResetStreamFrame id errorCode).incoming = t.incoming ++ [id] := by
  unfold Streams.handleResetStreamFrame
  rw [findOrOpen_peer hvalid hfind]
  rfl

theorem onStream_incoming {frame : FrameStream}
    (hdecode : FrameStream.decode data = some frame) :
    (l.onStream data).conn.table.incoming
      = (l.conn.table.ingestStreamFrame frame).2.incoming := by
  unfold FrameLoop.onStream
  simp only [hdecode]
  split
  · rfl
  · split
    · rfl
    · rw [abortConnection_table]

theorem onStream_harmful {frame : FrameStream}
    (hdecode : FrameStream.decode data = some frame) (hid : frame.streamId = id)
    (hopen : l.conn.isClosingOrLater = false) (hremoved : l.conn.table.find id = none)
    (howner : isLocalInitiatedStream id l.conn.table.isClientInitiator = true
      ∨ (l.conn.table.validateIncomingStreamId id).ok = true) :
    ¬ Harmless l (l.onStream data) id := by
  intro hharm
  subst hid
  cases howner with
  | inl hlocal =>
    -- refused as a stream the peer may not open, and the connection is aborted
    have hingest : l.conn.table.ingestStreamFrame frame
        = (.error .streamStateError "peer initiated stream flag mismatch", l.conn.table) := by
      unfold Streams.ingestStreamFrame
      rw [findOrOpen_local hlocal hremoved]
    have hstate : (l.onStream data).conn.state = .closeSent := by
      unfold FrameLoop.onStream
      simp only [hdecode, hingest]
      rw [if_neg (by decide), if_neg (by decide)]
      unfold ConnectionImpl.abortConnection
      have hclosing : { l.conn with table := l.conn.table }.isClosingOrLater = false := hopen
      rw [if_neg (by rw [hclosing]; decide)]
    have hsame := hharm.state
    rw [hstate] at hsame
    unfold ConnectionImpl.isClosingOrLater at hopen
    rw [← hsame] at hopen
    cases hopen
  | inr hvalid =>
    have hannounced := hharm.announced
    rw [onStream_incoming hdecode, ingestStreamFrame_peer_incoming hvalid hremoved] at hannounced
    simp at hannounced

theorem onReset_harmless_iff {errorCode : Nat}
    (hremoved : l.conn.table.find id = none)
    (howner : isLocalInitiatedStream id l.conn.table.isClientInitiator = true
      ∨ (l.conn.table.validateIncomingStreamId id).ok = true) :
    Harmless l { l with conn := { l.conn with
        table := l.conn.table.handleResetStreamFrame id errorCode } } id
      ↔ isLocalInitiatedStream id l.conn.table.isClientInitiator = true := by
  constructor
  · intro hharm
    cases howner with
    | inl hlocal => exact hlocal
    | inr hvalid =>
      have hannounced : (l.conn.table.handleResetStreamFrame id errorCode).incoming
          = l.conn.table.incoming := hharm.announced
      rw [handleResetStreamFrame_peer_incoming hvalid hremoved] at hannounced
      simp at hannounced
  · intro hlocal
    have htable : l.conn.table.handleResetStreamFrame id errorCode = l.conn.table := by
      unfold Streams.handleResetStreamFrame
      rw [findOrOpen_local hlocal hremoved]
    rw [htable]
    exact harmless_refl hremoved

theorem onFrame_harmless_iff
    (hframe : Concerns frame id) (hskip : a.skips frame.1 = false)
    (hopen : l.conn.isClosingOrLater = false) (hremoved : l.conn.table.find id = none)
    (howner : isLocalInitiatedStream id l.conn.table.isClientInitiator = true
      ∨ (l.conn.table.validateIncomingStreamId id).ok = true) :
    Harmless l (l.onFrame env a frame) id
      ↔ frame.1 = .resetStream
        ∧ isLocalInitiatedStream id l.conn.table.isClientInitiator = true := by
  obtain ⟨frameType, data⟩ := frame
  unfold FrameLoop.onFrame
  rw [if_neg (by rw [hskip]; decide)]
  cases hframe with
  | inl hstream =>
    obtain ⟨htype, f, hdecode, hid⟩ := hstream
    replace htype : frameType = .stream := htype
    subst htype
    constructor
    · intro hharm
      exact absurd hharm (onStream_harmful hdecode hid hopen hremoved howner)
    · intro h
      cases h.1
  | inr hreset =>
    obtain ⟨htype, errorCode, hdecode⟩ := hreset
    replace htype : frameType = .resetStream := htype
    subst htype
    simp only [hdecode, true_and]
    exact onReset_harmless_iff hremoved howner

theorem closingState_of_not_skipped
    (hframe : Concerns frame id) (hskip : a.skips frame.1 = false) :
    a.closingState = false := by
  have hnot : decide (frame.1 ≠ .connectionClose) = true := by
    cases hframe with
    | inl h => rw [h.1]; rfl
    | inr h => rw [h.1]; rfl
  unfold Arrival.skips at hskip
  rw [hnot, Bool.and_true] at hskip
  exact (Bool.or_eq_false_iff.mp hskip).1

theorem isClosingOrLater_eq_false {conn : ConnectionImpl} (hclosing : conn.closingState = false)
    (hwait : conn.state ≠ .ptoTimedWait) (hgone : conn.state ≠ .disconnected) :
    conn.isClosingOrLater = false := by
  unfold ConnectionImpl.closingState at hclosing
  unfold ConnectionImpl.isClosingOrLater
  cases hstate : conn.state <;> simp_all

theorem arrive_peerConnectionID (source : Address) (scid : UInt32) :
    ({ conn with peerConnectionID := scid }.arrive env source).2
      = (conn.arrive env source).2 := by
  rw [arrive_eq, arrive_eq]
  rfl

theorem loopOver_append (env : RecvEnv) (conn : ConnectionImpl) (source : Address)
    (packet : PacketIn)
    (pre : List (FrameType × List UInt8)) (frame : FrameType × List UInt8) :
    ((conn.state = .ptoTimedWait ∨ conn.state = .disconnected
          ∨ (conn.loopOver env source packet pre).stopped = true)
        ∧ conn.loopOver env source packet (pre ++ [frame])
            = conn.loopOver env source packet pre)
      ∨ (conn.state ≠ .ptoTimedWait ∧ conn.state ≠ .disconnected
        ∧ (conn.loopOver env source packet pre).stopped = false
        ∧ (conn.loopOver env source packet pre).conn.state = conn.state
        ∧ conn.loopOver env source packet (pre ++ [frame])
            = (conn.loopOver env source packet pre).onFrame env (conn.arrive env source).2
                frame) := by
  have hstate : ({ conn with peerConnectionID := packet.header.scid }.arrive env source).1.state
      = conn.state := by
    rw [arrive_eq]
  rw [← arrive_peerConnectionID conn source packet.header.scid]
  unfold ConnectionImpl.loopOver
  simp only
  generalize { conn with peerConnectionID := packet.header.scid }.arrive env source = r
    at hstate ⊢
  rw [hstate]
  split
  · next hout =>
    refine .inl ⟨?_, rfl⟩
    simp only [Bool.or_eq_true, decide_eq_true_eq] at hout
    cases hout with
    | inl h => exact .inl h
    | inr h => exact .inr (.inl h)
  · next hin =>
    simp only [Bool.or_eq_true, decide_eq_true_eq, not_or] at hin
    rw [run_append_singleton]
    cases hstop : (FrameLoop.run env r.2 { conn := r.1 } pre).stopped with
    | true => exact .inl ⟨.inr (.inr rfl), if_pos rfl⟩
    | false =>
      refine .inr ⟨hin.1, hin.2, rfl, ?_, if_neg (by decide)⟩
      rw [run_state hstop, ← hstate]

/-- Any frame for a stream that is gone, anywhere in a packet, in any state
a run leads to. -/
theorem harmless_iff {conn : ConnectionImpl} {ops : List ConnOp} {source : Address}
    {packet : PacketIn} {pre : List (FrameType × List UInt8)}
    {frame : FrameType × List UInt8} (hnew : conn.table.New)
    (hopened : id ∈ (run (ConnRun.step gcm) { conn } ops).created
      ∨ id ∈ ((run (ConnRun.step gcm) { conn } ops).conn.loopOver env source packet
          pre).conn.table.incoming)
    (hremoved : ((run (ConnRun.step gcm) { conn } ops).conn.loopOver env source packet
      pre).conn.table.find id = none)
    (hframe : Concerns frame id) :
    Harmless ((run (ConnRun.step gcm) { conn } ops).conn.loopOver env source packet pre)
        ((run (ConnRun.step gcm) { conn } ops).conn.loopOver env source packet
          (pre ++ [frame])) id
      ↔ PassedOver (run (ConnRun.step gcm) { conn } ops).conn env source packet pre frame.1
        ∨ (frame.1 = .resetStream
          ∧ isLocalInitiatedStream id conn.table.isClientInitiator = true) := by
  have hids := ids_of_run gcm hnew ops
  have hrole := role_of_run gcm conn ops
  generalize run (ConnRun.step gcm) { conn } ops = r at *
  have hev := evolves_loopOver env r.conn source packet pre
  have howner : isLocalInitiatedStream id
        (r.conn.loopOver env source packet pre).conn.table.isClientInitiator = true
      ∨ ((r.conn.loopOver env source packet pre).conn.table.validateIncomingStreamId id).ok
          = true := by
    cases hopened with
    | inl hcreated => exact .inl (hev.role ▸ hids.created id hcreated)
    | inr hincoming =>
      have hlater : IdsInv { r with conn := (r.conn.loopOver env source packet pre).conn } :=
        hids.evolves hev rfl
      exact .inr (hlater.incoming id hincoming)
  obtain ⟨hpassed, hsame⟩ | ⟨hwait, hgone, hgo, hstate, hnext⟩ :=
    loopOver_append env r.conn source packet pre frame
  · rw [hsame]
    refine iff_of_true (harmless_refl hremoved) (.inl ?_)
    cases hpassed with
    | inl h => exact .inl h
    | inr h =>
      cases h with
      | inl h => exact .inr (.inl h)
      | inr h => exact .inr (.inr (.inl h))
  · rw [hnext]
    cases hskip : (r.conn.arrive env source).2.skips frame.1 with
    | true =>
      have hkeep : (r.conn.loopOver env source packet pre).onFrame env
          (r.conn.arrive env source).2 frame = r.conn.loopOver env source packet pre := by
        unfold FrameLoop.onFrame
        rw [if_pos hskip]
      rw [hkeep]
      exact iff_of_true (harmless_refl hremoved) (.inl (.inr (.inr (.inr hskip))))
    | false =>
      have hclosing : r.conn.closingState = false := by
        have hclosed := closingState_of_not_skipped hframe hskip
        rw [arrive_eq] at hclosed
        exact hclosed
      have hopen : (r.conn.loopOver env source packet pre).conn.isClosingOrLater = false := by
        unfold ConnectionImpl.isClosingOrLater
        rw [hstate]
        exact isClosingOrLater_eq_false hclosing hwait hgone
      rw [onFrame_harmless_iff hframe hskip hopen hremoved howner, hev.role, hrole]
      constructor
      · exact .inr
      · intro h
        cases h with
        | inr hreset => exact hreset
        | inl hpassed =>
          obtain h | h | h | h := hpassed
          · exact absurd h hwait
          · exact absurd h hgone
          · rw [hgo] at h
            cases h
          · rw [hskip] at h
            cases h

-- ==== instances

/-- A packet of the client with the frames `frames`. -/
def clientPacket (pn : UInt64) (frames : List (FrameType × List UInt8)) : PacketIn where
  header := { scid := 0x2002, dcid := 0x1001, pn, payloadLength := 17, types := UTP_TYPE_CTRL,
              reserve := 0 }
  payload := []
  frames

/-- RESET_STREAM for stream 1, with error code 7. -/
def resetFrame : FrameType × List UInt8 :=
  (.resetStream, [6, 0, 7, 0, 0, 0, 1, 0, 0, 0, 0, 0, 0, 0, 0])

/-- The server opens stream 1 and resets it; the peer's RESET_STREAM comes
when the stream is gone. -/
theorem harmless_late_reset :
    let ops : List ConnOp :=
      [.createStream .bidirectional, .stream 1 (.reset .success), .collectClosedStreams]
    let conn := (run (ConnRun.step unusedGcm) { conn := acceptedConn } ops).conn
    let packet := clientPacket 1 [resetFrame]
    Harmless (conn.loopOver someRecvEnv (.ip 10 4433) packet [])
      (conn.loopOver someRecvEnv (.ip 10 4433) packet [resetFrame]) 1 := by
  refine (harmless_iff ⟨rfl, fun _ => rfl, rfl⟩ (.inl ?_) ?_ ?_).mpr (.inr ⟨rfl, rfl⟩)
  · decide
  · decide
  · exact .inr ⟨rfl, 7, by decide⟩

/-- The only byte of stream 0, with FIN. -/
def finFrame : FrameType × List UInt8 :=
  (.stream, [1, 1, 0, 1, 0, 0, 0, 0, 0, 0, 0, 0, 0, 0, 0, 0, 65])

/-- The client sends one byte and finishes, the server reads it and
finishes too, and the stream is collected. A copy of the client's frame
opens it again. -/
theorem not_harmless_late_stream :
    let msg : List UInt8 :=
      { scid := 0x2002, dcid := 0x1001, pn := 1, payloadLength := 17, types := UTP_TYPE_CTRL,
        reserve := 0 : UTPHeaderProto }.serialize ++ finFrame.2
    let ops : List ConnOp :=
      [.datagram someRecvEnv (.ip 10 4433) msg, .stream 0 (.read 1), .stream 0 (.commitWrite true),
        .stream 0 .flushFin, .collectClosedStreams]
    let conn := (run (ConnRun.step unusedGcm) { conn := acceptedConn } ops).conn
    let before := conn.loopOver someRecvEnv (.ip 10 4433) (clientPacket 2 [finFrame]) []
    let after := conn.loopOver someRecvEnv (.ip 10 4433) (clientPacket 2 [finFrame]) [finFrame]
    before.conn.table.incoming = [0] ∧ before.conn.table.find 0 = none ∧ Concerns finFrame 0
      ∧ ¬ Harmless before after 0 := by
  refine ⟨by decide, by decide, .inl ⟨rfl, ?_⟩, ?_⟩
  · exact ⟨{ streamFlag := 1, streamId := 0, streamOffset := 0, streamData := [65] },
      by decide, rfl⟩
  · intro h
    exact absurd h.announced (by decide)

end Eular.Utp
