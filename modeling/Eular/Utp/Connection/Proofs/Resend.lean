/-
Flow control and retransmission.

`onStreamDataSent` counts a byte once: the running total grows only when
a STREAM frame reaches past the furthest byte sent on its stream. The
check in `sendStreamFrame` does not know the difference. It adds the
length of the frame to the total whether its bytes are new or not, so
bytes that were counted when they first went out need room in the window
a second time when they are lost and have to go out again in pieces.

`split_refused_iff` says exactly when that goes wrong, in every state
two endpoints can reach.
-/
import Eular.Utp.Connection.Proofs.FlowLimits
import Eular.Utp.Connection.Proofs.PeerLimits
import Eular.Utp.Send.Split

namespace Eular.Utp

open Lib

variable {frame : FrameStream}

-- ==== the resend

/-- The split, as flow control sees it: the side and the frames that go out.
`other` answers for the packets without STREAM frames. -/
def flowCalls (env : FlowEnv) (other : SendRequest → Status) :
    SplitCalls (FlowConn × List FlowFrame) where
  sendStreamFrame := fun s frame =>
    let r := s.1.sendStreamFrame env frame
    (r.1, r.2.1, s.2 ++ r.2.2)
  sendPacket := fun s req => (other req, s)

/-- A lost packet is split and sent again. -/
def FlowConn.resend (c : FlowConn) (env : FlowEnv) (other : SendRequest → Status)
    (split : SplitEnv) (packet : PacketOut) : Status × FlowConn × List FlowFrame :=
  retransmitSplitStreamPacket (flowCalls env other) split packet (c, [])

/-- What can happen at a side of a link, losses included. -/
inductive ResendOp where
  | event (op : LinkOp)
  | resend (env : FlowEnv) (other : SendRequest → Status) (split : SplitEnv) (packet : PacketOut)

/-- One event at one of the sides. -/
def Link.resendStep (l : Link) : Side × ResendOp → Link
  | (side, .event op) => l.step (side, op)
  | (.client, .resend env other split packet) =>
    let r := l.client.resend env other split packet
    { l with client := r.2.1, toServer := l.toServer ++ r.2.2 }
  | (.server, .resend env other split packet) =>
    let r := l.server.resend env other split packet
    { l with server := r.2.1, toClient := l.toClient ++ r.2.2 }

def Link.at (l : Link) : Side → FlowConn
  | .client => l.client
  | .server => l.server

-- ==== the statement

/-- The answers by which `sendStreamFrame` says that flow control does not
let a frame go. -/
def FlowRefused (st : Status) : Prop :=
  st = .error .wouldBlock "connection flow control blocked"
    ∨ st = .error .wouldBlock "stream flow control blocked"

instance (st : Status) : Decidable (FlowRefused st) :=
  inferInstanceAs (Decidable (_ ∨ _))

theorem not_flowRefused_error {code : UtpError} {message : String} (h : code ≠ .wouldBlock) :
    ¬ FlowRefused (.error code message) := by
  rintro (heq | heq)
  · exact h (congrArg Status.code heq)
  · exact h (congrArg Status.code heq)

theorem FlowRefused.not_ok {st : Status} (h : FlowRefused st) : st.ok = false := by
  rcases h with rfl | rfl
  · rfl
  · rfl

/-- `sendPacket` has other texts for its own refusals. -/
structure Plain (env : FlowEnv) (other : SendRequest → Status) : Prop where
  flow : ∀ frame, ¬ FlowRefused (env.sendPacket frame)
  other : ∀ req, ¬ FlowRefused (other req)

/-- The packet carries the STREAM frame `frame` and no other one, and it is
the first frame that is not skipped. A 0-RTT packet is none of these: its
SESSION_TOKEN frame comes first. -/
structure CarriesStream (packet : PacketOut) (frame : FrameStream) : Prop where
  whole : UTP_HEADER_SIZE ≤ packet.dataSize
  metas : ∃ skipped fm rest, packet.frameMeta = skipped ++ fm :: rest
    ∧ (∀ g ∈ skipped, packet.skipsFrame g = true)
    ∧ packet.skipsFrame fm = false
    ∧ UTP_HEADER_SIZE ≤ fm.offset ∧ fm.offset + fm.length ≤ packet.dataSize
    ∧ fm.frameType = .stream
    ∧ FrameStream.decode (packet.frameBytes fm) = some frame
    ∧ ∀ g ∈ rest, g.frameType ≠ .stream

namespace FlowConn

variable (c : FlowConn) (frame : FrameStream)

/-- The bytes of the frame are counted in `m_streamDataSentTotal`. -/
def Counted : Prop :=
  frame.streamOffset + frame.streamData.length ≤ c.streamMaxSentOffset frame.streamId

/-- The frame gets past what `sendStreamFrame` looks at before it looks at
flow control. -/
def reachesFlowControl : Bool :=
  c.connected && frame.streamData.length ≤ 65535
    && (frame.streamData.length = 0
      || c.streamDataSentTotal + frame.streamData.length < 2 ^ 64)

/-- The bytes of the frame, taken as new ones, are within both limits. -/
def RoomFor : Prop :=
  0 < frame.streamData.length →
    (c.peerMaxData = 0 ∨ c.streamDataSentTotal + frame.streamData.length ≤ c.peerMaxData)
      ∧ frame.streamOffset + frame.streamData.length ≤ c.peerStreamDataLimit frame.streamId

/-- There is room for every piece of the frame that gets as far as flow
control. -/
def RoomToResend (split : SplitEnv) : Prop :=
  ∀ g ∈ (frame.chunks split.streamChunkBudget).takeWhile c.reachesFlowControl, c.RoomFor g

end FlowConn

-- ==== one call

variable {c c' : FlowConn} {g : FrameStream} {env : FlowEnv}

/-- Two states with the same limits, the same total and the same bytes
sent. -/
structure FlowConn.SameAccount (c c' : FlowConn) : Prop where
  limits : c.SameLimits c'
  connected : c'.connected = c.connected
  total : c'.streamDataSentTotal = c.streamDataSentTotal
  sent : c'.streamMaxSentOffset = c.streamMaxSentOffset

namespace FlowConn.SameAccount

theorem refl (c : FlowConn) : c.SameAccount c := ⟨.refl c, rfl, rfl, rfl⟩

theorem reaches (h : c.SameAccount c') : c'.reachesFlowControl = c.reachesFlowControl := by
  funext g
  unfold FlowConn.reachesFlowControl
  rw [h.connected, h.total]

theorem roomFor (h : c.SameAccount c') : c'.RoomFor g ↔ c.RoomFor g := by
  have hlimit : c'.peerStreamDataLimit g.streamId = c.peerStreamDataLimit g.streamId := by
    apply peerStreamDataLimit_congr
    · exact h.limits.params
    · rw [h.limits.streams]
  unfold FlowConn.RoomFor
  rw [h.limits.data, h.total, hlimit]

theorem counted (h : c.SameAccount c') : c'.Counted g ↔ c.Counted g := by
  unfold FlowConn.Counted
  rw [h.sent]

end FlowConn.SameAccount

theorem sameAccount_ensure (c : FlowConn) (id : Nat) :
    c.SameAccount (c.ensureFlowControlAdvertised id) := by
  refine ⟨FlowConn.sameLimits_ensure c id, ?_, ?_, ?_⟩
  all_goals
    unfold FlowConn.ensureFlowControlAdvertised
    split
    · rfl
    · split
      · rfl
      · rfl

theorem onStreamDataSent_counted (h : c.Counted g) :
    c.onStreamDataSent g.streamId g.streamOffset g.streamData.length = c := by
  have hend : add64 g.streamOffset g.streamData.length
      ≤ c.streamMaxSentOffset g.streamId := (Nat.mod_le _ _).trans h
  unfold FlowConn.onStreamDataSent
  simp only
  rw [if_neg (Nat.not_lt.mpr hend)]

/-- `ensureFlowControlAdvertised`, as `sendStreamFrame` calls it. -/
theorem sameAccount_ensure_if (c : FlowConn) (len id : Nat) :
    c.SameAccount (if 0 < len then c.ensureFlowControlAdvertised id else c) := by
  split
  · exact sameAccount_ensure c id
  · exact .refl c

/-- What `sendStreamFrame` answers for bytes that are counted. -/
theorem sendStreamFrame_counted (c : FlowConn) (env : FlowEnv) (hcounted : c.Counted g) :
    (c.reachesFlowControl g = false ∧ (c.sendStreamFrame env g).1.ok = false
        ∧ ¬ FlowRefused (c.sendStreamFrame env g).1)
      ∨ (c.reachesFlowControl g = true ∧ ¬ c.RoomFor g
        ∧ FlowRefused (c.sendStreamFrame env g).1)
      ∨ (c.reachesFlowControl g = true ∧ c.RoomFor g
        ∧ (c.sendStreamFrame env g).1 = env.sendPacket (.stream g)
        ∧ c.SameAccount (c.sendStreamFrame env g).2.1) := by
  have hsame := sameAccount_ensure_if c g.streamData.length g.streamId
  unfold FlowConn.sendStreamFrame
  simp only
  by_cases hconn : c.connected = true
  case neg =>
    left
    rw [Bool.not_eq_true] at hconn
    rw [hconn]
    simp only [Bool.not_false, if_true]
    refine ⟨?_, rfl, not_flowRefused_error (by decide)⟩
    unfold FlowConn.reachesFlowControl
    rw [hconn]
    rfl
  rw [hconn]
  simp only [Bool.not_true, Bool.false_eq_true, if_false]
  by_cases hlong : 65535 < g.streamData.length
  · left
    rw [if_pos hlong]
    refine ⟨?_, rfl, not_flowRefused_error (by decide)⟩
    simp [FlowConn.reachesFlowControl, Nat.not_le.mpr hlong]
  rw [if_neg hlong]
  generalize (if 0 < g.streamData.length then c.ensureFlowControlAdvertised g.streamId else c)
    = c₁ at hsame ⊢
  -- from here on `c₁` is the connection, with the account of `c`
  rw [← hsame.reaches, ← hsame.roomFor]
  by_cases hover : 0 < g.streamData.length ∧ 2 ^ 64 ≤ c₁.streamDataSentTotal + g.streamData.length
  · left
    rw [if_pos hover]
    refine ⟨?_, rfl, not_flowRefused_error (by decide)⟩
    unfold FlowConn.reachesFlowControl
    rw [Bool.and_eq_false_iff]
    right
    simp only [Bool.or_eq_false_iff, decide_eq_false_iff_not]
    omega
  rw [if_neg hover]
  have hreach : c₁.reachesFlowControl g = true := by
    unfold FlowConn.reachesFlowControl
    rw [hsame.connected, hconn]
    simp only [Bool.true_and, Bool.and_eq_true, Bool.or_eq_true, decide_eq_true_eq]
    omega
  by_cases hdata : 0 < g.streamData.length ∧ 0 < c₁.peerMaxData
      ∧ c₁.peerMaxData < c₁.streamDataSentTotal + g.streamData.length
  · right
    left
    rw [if_pos hdata]
    refine ⟨hreach, ?_, .inl rfl⟩
    intro hroom
    obtain ⟨hlimit, -⟩ := hroom hdata.1
    omega
  rw [if_neg hdata]
  by_cases hstream : 0 < g.streamData.length
      ∧ (c₁.peerStreamDataLimit g.streamId < g.streamOffset
        ∨ c₁.peerStreamDataLimit g.streamId - g.streamOffset < g.streamData.length)
  · right
    left
    rw [if_pos hstream]
    refine ⟨hreach, ?_, .inr rfl⟩
    intro hroom
    obtain ⟨-, hlimit⟩ := hroom hstream.1
    omega
  rw [if_neg hstream]
  right
  right
  refine ⟨hreach, ?_, ?_, ?_⟩
  · intro hpos
    omega
  · split
    · rfl
    · rfl
  · have hcounted₁ : c₁.Counted g := hsame.counted.mpr hcounted
    split
    · rw [onStreamDataSent_counted hcounted₁]
      exact hsame
    · exact hsame

-- ==== the chunks

theorem counted_chunk (h : c.Counted frame) {sentData : Nat}
    (hsent : sentData ≤ frame.streamData.length) (len : Nat) :
    c.Counted (frame.chunk sentData len) := by
  have hoff : add64 frame.streamOffset sentData ≤ frame.streamOffset + sentData := Nat.mod_le _ _
  have hlen : ((frame.streamData.drop sentData).take len).length
      ≤ frame.streamData.length - sentData := by
    rw [List.length_take, List.length_drop]
    exact min_le_right _ _
  unfold FlowConn.Counted at h ⊢
  simp only [FrameStream.chunk]
  omega

theorem counted_chunksFrom (h : c.Counted frame) (budget fuel : Nat) :
    ∀ sentData, ∀ g ∈ frame.chunksFrom budget fuel sentData, c.Counted g := by
  induction fuel with
  | zero =>
    intro sentData g hg
    cases hg
  | succ fuel ih =>
    intro sentData g hg
    simp only [FrameStream.chunksFrom] at hg
    split at hg
    · next hlt =>
      cases List.mem_cons.mp hg with
      | inl hself =>
        rw [hself]
        exact counted_chunk h hlt.le _
      | inr hrest => exact ih _ g hrest
    · cases hg

theorem counted_chunks (h : c.Counted frame) (budget : Nat) :
    ∀ g ∈ frame.chunks budget, c.Counted g := by
  intro g hg
  unfold FrameStream.chunks at hg
  split at hg
  · split at hg
    · rw [List.mem_singleton] at hg
      rw [hg]
      unfold FlowConn.Counted at h ⊢
      simp only [List.length_nil]
      omega
    · cases hg
  · exact counted_chunksFrom h budget _ 0 g hg

variable {other : SendRequest → Status}

/-- With room for every chunk that gets as far as flow control, no chunk is
refused by it. -/
theorem sendChunks_not_refused (hplain : Plain env other) (gs : List FrameStream) :
    ∀ s : SplitState (FlowConn × List FlowFrame), (∀ g ∈ gs, s.conn.1.Counted g) →
      (∀ g ∈ gs.takeWhile s.conn.1.reachesFlowControl, s.conn.1.RoomFor g) →
      ¬ FlowRefused (sendChunks (flowCalls env other) gs s).1 := by
  induction gs with
  | nil =>
    intro s _ _
    exact not_flowRefused_error (by decide)
  | cons g gs ih =>
    intro s hcounted hroom
    have hrest := fun g' hg' => hcounted g' (List.mem_cons_of_mem g hg')
    obtain ⟨-, hok, hnot⟩ | ⟨hreach, hno, -⟩ | ⟨hreach, -, hst, hsame⟩ :=
      sendStreamFrame_counted s.conn.1 env (hcounted g List.mem_cons_self)
    · rw [sendChunks_of_not_ok hok]
      exact hnot
    · rw [List.takeWhile_cons_of_pos hreach] at hroom
      exact absurd (hroom g List.mem_cons_self) hno
    · by_cases hok : (env.sendPacket (.stream g)).ok = true
      · rw [sendChunks_of_ok ((congrArg Status.ok hst).trans hok)]
        apply ih
        · intro g' hg'
          exact hsame.counted.mpr (hrest g' hg')
        · intro g' hg'
          replace hg' : g' ∈ gs.takeWhile
              (s.conn.1.sendStreamFrame env g).2.1.reachesFlowControl := hg'
          rw [hsame.reaches] at hg'
          apply hsame.roomFor.mpr
          apply hroom
          rw [List.takeWhile_cons_of_pos hreach]
          exact List.mem_cons_of_mem g hg'
      · rw [Bool.not_eq_true] at hok
        rw [sendChunks_of_not_ok ((congrArg Status.ok hst).trans hok)]
        show ¬ FlowRefused (s.conn.1.sendStreamFrame env g).1
        rw [hst]
        exact hplain.flow _

variable (other) in
theorem sendChunks_refused (hsent : ∀ frame, (env.sendPacket frame).ok = true)
    (gs : List FrameStream) :
    ∀ s : SplitState (FlowConn × List FlowFrame), (∀ g ∈ gs, s.conn.1.Counted g) →
      ¬ FlowRefused (sendChunks (flowCalls env other) gs s).1 →
      ∀ g ∈ gs.takeWhile s.conn.1.reachesFlowControl, s.conn.1.RoomFor g := by
  induction gs with
  | nil =>
    intro s _ _ g hg
    cases hg
  | cons g gs ih =>
    intro s hcounted hnot
    have hrest := fun g' hg' => hcounted g' (List.mem_cons_of_mem g hg')
    obtain ⟨hreach, -, -⟩ | ⟨-, -, href⟩ | ⟨hreach, hroom, hst, hsame⟩ :=
      sendStreamFrame_counted s.conn.1 env (hcounted g List.mem_cons_self)
    · rw [List.takeWhile_cons_of_neg (by rw [hreach]; decide)]
      intro g' hg'
      cases hg'
    · rw [sendChunks_of_not_ok href.not_ok] at hnot
      exact absurd href hnot
    · rw [sendChunks_of_ok ((congrArg Status.ok hst).trans (hsent _))] at hnot
      rw [List.takeWhile_cons_of_pos hreach]
      intro g' hg'
      cases List.mem_cons.mp hg' with
      | inl hself =>
        rw [hself]
        exact hroom
      | inr hin =>
        apply hsame.roomFor.mp
        refine ih _ (fun g' hg' => hsame.counted.mpr (hrest g' hg')) hnot g' ?_
        show g' ∈ gs.takeWhile (s.conn.1.sendStreamFrame env g).2.1.reachesFlowControl
        rw [hsame.reaches]
        exact hin

-- ==== the walk

variable {split : SplitEnv} {packet : PacketOut}

theorem flushFramePacket_not_refused (hplain : Plain env other)
    (s : SplitState (FlowConn × List FlowFrame)) :
    ¬ FlowRefused (flushFramePacket (flowCalls env other) packet s).1 := by
  obtain hst | hst := flushFramePacket_status (flowCalls env other) packet s
  · rw [hst]
    exact not_flowRefused_error (by decide)
  · rw [hst]
    exact hplain.other _

theorem resendFrame_not_refused (hplain : Plain env other) {fm : FrameMetaInfo}
    (htype : fm.frameType ≠ .stream) (s : SplitState (FlowConn × List FlowFrame)) :
    ¬ FlowRefused (resendFrame (flowCalls env other) split packet fm s).1 := by
  unfold resendFrame
  split
  · exact not_flowRefused_error (by decide)
  · split
    · exact not_flowRefused_error (by decide)
    · obtain hst | hst | hst | hst :=
        resendOtherFrame_status (flowCalls env other) split packet fm (packet.frameBytes fm) s
      · rw [hst]
        exact not_flowRefused_error (by decide)
      · rw [hst]
        decide
      · rw [hst]
        exact not_flowRefused_error (by decide)
      · rw [hst]
        exact hplain.other _

theorem resendFrames_not_refused (hplain : Plain env other) (metas : List FrameMetaInfo)
    (hother : ∀ fm ∈ metas, fm.frameType ≠ .stream) :
    ∀ s : SplitState (FlowConn × List FlowFrame),
      ¬ FlowRefused (resendFrames (flowCalls env other) split packet metas s).1 := by
  induction metas with
  | nil =>
    intro s
    exact not_flowRefused_error (by decide)
  | cons fm metas ih =>
    intro s
    cases hok : (resendFrame (flowCalls env other) split packet fm s).1.ok with
    | true =>
      rw [resendFrames_of_ok hok]
      exact ih (fun g hg => hother g (List.mem_cons_of_mem fm hg)) _
    | false =>
      rw [resendFrames_of_not_ok hok]
      exact resendFrame_not_refused hplain (hother fm List.mem_cons_self) s

variable (env other split) in
/-- The walk over a packet that carries one STREAM frame: first the chunks of
the frame, then frames of other types. -/
theorem resendFrames_carriesStream (hcarries : CarriesStream packet frame)
    (s : FlowConn × List FlowFrame) :
    ∃ rest, (∀ fm ∈ rest, FrameMetaInfo.frameType fm ≠ .stream)
      ∧ resendFrames (flowCalls env other) split packet packet.frameMeta { conn := s }
        = (let r := sendChunks (flowCalls env other) (frame.chunks split.streamChunkBudget)
            { conn := s }
          if r.1.ok then resendFrames (flowCalls env other) split packet rest r.2 else r) := by
  obtain ⟨skipped, fm, rest, hmetas, hskip, hkeep, hoffset, hend, htype, hdecode, hrest⟩ :=
    hcarries.metas
  refine ⟨rest, hrest, ?_⟩
  have hframe : resendFrame (flowCalls env other) split packet fm { conn := s }
      = sendChunks (flowCalls env other) (frame.chunks split.streamChunkBudget)
          { conn := s } := by
    unfold resendFrame
    rw [if_neg (by rw [hkeep]; decide), if_neg, if_pos htype]
    · unfold resendStreamFrame
      rw [hdecode]
      rfl
    · simp only [Bool.or_eq_true, decide_eq_true_eq]
      omega
  rw [hmetas, resendFrames_skipped skipped _ hskip, ← hframe]
  rfl

-- ==== the result

/-- A counted frame goes out again unhindered by flow control, whatever
becomes of the packets, just when there is room for its pieces as if they
were new. -/
theorem resend_not_refused_iff (hcarries : CarriesStream packet frame)
    (hmtu : UTP_HEADER_SIZE < split.currentMaxPacketSize) (hcounted : c.Counted frame) :
    (∀ env other, Plain env other → ¬ FlowRefused (c.resend env other split packet).1)
      ↔ c.RoomToResend frame split := by
  have hmetas : packet.frameMeta ≠ [] := by
    obtain ⟨skipped, fm, rest, heq, -⟩ := hcarries.metas
    rw [heq]
    exact List.append_ne_nil_of_right_ne_nil _ (List.cons_ne_nil _ _)
  have hchunks := counted_chunks hcounted split.streamChunkBudget
  constructor
  · intro h
    let env : FlowEnv := { nowUs := 0, sendPacket := fun _ => .success }
    let other : SendRequest → Status := fun _ => .success
    have hplain : Plain env other :=
      ⟨fun _ => not_flowRefused_error (by decide), fun _ => not_flowRefused_error (by decide)⟩
    have hsent : ∀ frame, (env.sendPacket frame).ok = true := fun _ => rfl
    apply sendChunks_refused other hsent _ { conn := (c, []) } hchunks
    -- a refused chunk ends the walk, and with it the split
    intro hrefused
    apply h env other hplain
    obtain ⟨rest, -, hwalk⟩ := resendFrames_carriesStream env other split hcarries (c, [])
    simp only at hwalk
    rw [if_neg (by rw [hrefused.not_ok]; decide)] at hwalk
    obtain ⟨-, hst⟩ | ⟨hok, -⟩ :=
      retransmitSplitStreamPacket_status (flowCalls env other) hcarries.whole hmetas hmtu (c, [])
    · unfold FlowConn.resend
      rw [hst, hwalk]
      exact hrefused
    · rw [hwalk, hrefused.not_ok] at hok
      cases hok
  · intro hroom env other hplain
    have hnot := sendChunks_not_refused hplain _ { conn := (c, []) } hchunks hroom
    have hwalk : ¬ FlowRefused
        (resendFrames (flowCalls env other) split packet packet.frameMeta
          { conn := (c, []) }).1 := by
      obtain ⟨rest, hrest, heq⟩ := resendFrames_carriesStream env other split hcarries (c, [])
      rw [heq]
      simp only
      split
      · exact resendFrames_not_refused hplain rest hrest _
      · exact hnot
    unfold FlowConn.resend
    obtain ⟨-, hst⟩ | ⟨-, hst | hst | hst⟩ :=
      retransmitSplitStreamPacket_status (flowCalls env other) hcarries.whole hmetas hmtu (c, [])
    · rw [hst]
      exact hwalk
    · rw [hst]
      exact not_flowRefused_error (by decide)
    · rw [hst]
      decide
    · rw [hst]
      exact flushFramePacket_not_refused hplain _

/-- In every state two endpoints reach, by any run of sends, reads,
deliveries and resends. -/
theorem split_refused_iff (client server : Config) (ops : List (Side × ResendOp)) (side : Side)
    (split : SplitEnv) {frame : FrameStream} (hcarries : CarriesStream packet frame)
    (hmtu : UTP_HEADER_SIZE < split.currentMaxPacketSize)
    (hcounted : ((run Link.resendStep (Link.handshake client server) ops).at side).Counted
      frame) :
    (∀ env other, Plain env other →
        ¬ FlowRefused (((run Link.resendStep (Link.handshake client server) ops).at side).resend
          env other split packet).1)
      ↔ ((run Link.resendStep (Link.handshake client server) ops).at side).RoomToResend
          frame split :=
  resend_not_refused_iff hcarries hmtu hcounted

/-- Every packet goes out, the clock stands. -/
def sendingFlowEnv : FlowEnv where
  nowUs := 1
  sendPacket _ := .success

/-- Four bytes of stream 1 cross to the client, which reads them and opens
the window by as many; the server sends the next four. -/
def windowFilled : List (Side × ResendOp) :=
  [(.server, .event (.createStream .bidirectional)),
   (.server, .event (.flush sendingFlowEnv 1 [1, 2, 3, 4] false)),
   (.client, .event (.deliver sendingFlowEnv 0)),
   (.client, .event (.app sendingFlowEnv 1 (.read 4))),
   (.server, .event (.deliver sendingFlowEnv 0)),
   (.server, .event (.flush sendingFlowEnv 1 [5, 6, 7, 8] false))]

/-- The frame the server sent last, and a packet that carries it. -/
def lastFrame : FrameStream :=
  { streamFlag := 0, streamId := 1, streamOffset := 4, streamData := [5, 6, 7, 8] }

def lastPacket : PacketOut where
  packno := 2
  frameTypes := FrameType.stream.bit
  poFlags := {}
  dataSize := 40
  encryptDataSize := 0
  allocSize := 1232
  streamDataSize := 4
  transientAckSize := 0
  header :=
    { scid := 1, dcid := 2, pn := 2, payloadLength := 20, types := UTP_TYPE_CTRL, reserve := 0 }
  body := writeMem (fun _ => 0) 0 [1, 0, 0, 4, 0, 0, 0, 1, 0, 0, 0, 0, 0, 0, 0, 4, 5, 6, 7, 8]
  encryptData := .null
  frameMeta := [{ frameType := .stream, offset := 20, length := 20,
                  frameFlags := defaultFlags .stream 0 }]

theorem lastPacket_carries : CarriesStream lastPacket lastFrame where
  whole := by decide
  metas :=
    ⟨[], _, [], rfl, by simp, by decide, by decide, by decide, rfl, by decide, by simp⟩

/-- A client with a window of 16 bytes: the eight bytes sent leave room for
the last four once more. -/
theorem split_refused_iff_room :
    ¬ FlowRefused (((run Link.resendStep (Link.handshake { initialMaxData := 16 } {})
      windowFilled).at .server).resend sendingFlowEnv (fun _ => .success) ⟨1200, false⟩
        lastPacket).1 := by
  have hcounted : ((run Link.resendStep (Link.handshake { initialMaxData := 16 } {})
      windowFilled).at .server).Counted lastFrame := by
    unfold FlowConn.Counted
    decide
  have hroom : ((run Link.resendStep (Link.handshake { initialMaxData := 16 } {})
      windowFilled).at .server).RoomToResend lastFrame ⟨1200, false⟩ := by
    unfold FlowConn.RoomToResend FlowConn.RoomFor
    decide
  refine (split_refused_iff { initialMaxData := 16 } {} windowFilled .server ⟨1200, false⟩
    lastPacket_carries (by decide) hcounted).mpr hroom sendingFlowEnv (fun _ => .success) ?_
  have hsuccess : ¬ FlowRefused .success := by decide
  exact ⟨fun _ => hsuccess, fun _ => hsuccess⟩

/-- A client with a window of four bytes: the window is full, and the bytes
that filled it cannot be sent again. -/
theorem split_refused_full_window :
    let server := (run Link.resendStep (Link.handshake { initialMaxData := 4 } {})
      windowFilled).at .server
    server.Counted lastFrame
      ∧ (server.resend sendingFlowEnv (fun _ => .success) ⟨1200, false⟩ lastPacket).1
        = .error .wouldBlock "connection flow control blocked" := by
  unfold FlowConn.Counted
  decide

end Eular.Utp
