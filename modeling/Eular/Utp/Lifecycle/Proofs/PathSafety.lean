/-
The peer's address over a run: when it changes, and that validating it
ends.

The step lemma says what each event does to the path; the run theorems
follow from it by the invariants of `PathInvariant`. Two of them rest on
conditions: that every PATH_CHALLENGE goes out (`ChallengesSent`), and
that the validation timer does not fire before the challenge's deadline
(`OnTime`).
-/
import Eular.Utp.Lifecycle.Proofs.Migration

namespace Eular.Utp

open Lib

variable {σ ε : Type} {c c' c'' : Lifecycle σ} {env : LifeEnv ε} {h : Handlers σ ε}

namespace Lifecycle

variable {source : Address} {frames : List (FrameType × List UInt8)}

-- ==== the response

/-- A packet's PATH_RESPONSE made the candidate the active address. -/
structure Switch (c c' : Lifecycle σ) (source : Address)
    (frames : List (FrameType × List UInt8)) : Prop where
  need : c.networkPath.needPathValidation = true
  candidate : c.networkPath.peerAddress = source
  answer : ∃ data bytes, c.networkPath.pendingChallenge = some data
    ∧ (FrameType.pathResponse, bytes) ∈ frames ∧ decodePathResponse bytes = some data
  validated : c'.networkPath.state = .validated
  idle : c'.networkPath.pendingChallenge = none
  retries : c'.networkPath.maxChallengeRetries = c.networkPath.maxChallengeRetries
  path : c'.networkPath.peerAddress = source
  peer : c'.peerAddress = source
  sends : ∃ ds, c'.wire = c.wire ++ ds ∧ Addressed ds

/-- What the frames of a packet do to the path. -/
def Moves (c c' : Lifecycle σ) (source : Address) (frames : List (FrameType × List UInt8)) :
    Prop :=
  SamePath c c' ∨ Switch c c' source frames

theorem Moves.same
    (hm : Moves c c' source frames) (hs : SamePath c' c'') : Moves c c'' source frames := by
  rcases hm with hm | hm
  · exact .inl (hm.trans hs)
  · obtain ⟨ds, hwire, hds⟩ := hm.sends
    obtain ⟨ds', hwire', hds'⟩ := hs.sends
    exact .inr ⟨hm.need, hm.candidate, hm.answer, hs.path ▸ hm.validated, hs.path ▸ hm.idle,
      hs.path ▸ hm.retries, hs.path ▸ hm.path, hs.peer.trans hm.peer,
      ds ++ ds', by rw [hwire', hwire, List.append_assoc], hds.append hds'⟩

theorem Moves.onPath {source : PeerAddress}
    (hm : Moves c c' source.address frames) (hc : c.OnPath) : c'.OnPath := by
  rcases hm with hm | hm
  · exact hm.onPath hc
  · exact ⟨hm.peer ▸ source.valid, hm.retries ▸ hc.retries,
      .inl ⟨hm.validated, hm.path.trans hm.peer.symm⟩⟩

theorem Moves.timed
    (hm : Moves c c' source frames) (hc : c.Timed) : c'.Timed := by
  rcases hm with hm | hm
  · exact hm.timed hc
  · intro _ hneed
    simp [NetworkPath.needPathValidation, hm.validated] at hneed

theorem Moves.asked
    (hm : Moves c c' source frames) (hc : c.Asked) : c'.Asked := by
  rcases hm with hm | hm
  · exact hm.asked hc
  · intro data hdata
    rw [hm.idle] at hdata
    cases hdata

theorem Moves.addressed
    (hm : Moves c c' source frames) (hc : Addressed c.wire) : Addressed c'.wire := by
  have hsends : ∃ ds, c'.wire = c.wire ++ ds ∧ Addressed ds := hm.elim (·.sends) (·.sends)
  obtain ⟨ds, hwire, hds⟩ := hsends
  rw [hwire]
  exact hc.append hds

/-- A PATH_RESPONSE is ignored, or it answers the pending challenge from the
candidate. -/
theorem handlePathResponseFrame_cases (c : Lifecycle σ) (bytes : List UInt8) (source : Address) :
    c.handlePathResponseFrame bytes source = c
      ∨ ∃ data, c.networkPath.needPathValidation = true ∧ c.networkPath.peerAddress = source
          ∧ c.networkPath.pendingChallenge = some data ∧ decodePathResponse bytes = some data
          ∧ c.handlePathResponseFrame bytes source = { c with
              networkPath := { c.networkPath with
                state := .validated
                retryCount := 0
                pendingChallenge := none
                challengeDeadlineMs := 0 }
              peerAddress := c.networkPath.peerAddress
              pathValidationTimer := false } := by
  unfold handlePathResponseFrame
  split
  case isTrue => exact .inl rfl
  case isFalse hgo =>
    have hgo : c.networkPath.needPathValidation = true ∧ source = c.networkPath.peerAddress := by
      simpa using hgo
    split
    case h_1 => exact .inl rfl
    case h_2 data hdecode =>
      unfold NetworkPath.onPathResponse
      by_cases hmatch : c.networkPath.state = .validating
          ∧ c.networkPath.pendingChallenge = some data
      · rw [if_pos hmatch]
        exact .inr ⟨data, hgo.1, hgo.2.symm, hmatch.2, hdecode, rfl⟩
      · rw [if_neg hmatch]
        exact .inl rfl

theorem moves_onFrame {l : LifeLoop σ} {a : Arrival}
    (hm : Moves c l.conn a.source frames) (h : Handlers σ ε) (env : LifeEnv ε)
    (frame : FrameType × List UInt8) (hmem : frame ∈ frames) :
    Moves c (l.onFrame h env a frame).conn a.source frames := by
  obtain ⟨frameType, bytes⟩ := frame
  unfold LifeLoop.onFrame
  split
  · exact hm
  · dsimp only
    split
    case h_1 => exact hm.same (samePath_handlePathChallengeFrame h l.conn env bytes a.source)
    case h_2 =>
      rcases handlePathResponseFrame_cases l.conn bytes a.source with
        heq | ⟨data, hneed, hpeer, hpending, hdecode, heq⟩
      · dsimp only
        rw [heq]
        exact hm
      · rcases hm with hsame | hswitch
        · right
          dsimp only
          rw [heq]
          rw [hsame.path] at hneed hpeer hpending
          refine ⟨hneed, hpeer, ⟨data, bytes, hpending, hmem, hdecode⟩, rfl, rfl, ?_, ?_, ?_,
            hsame.sends⟩
          · show l.conn.networkPath.maxChallengeRetries = _
            rw [hsame.path]
          · show l.conn.networkPath.peerAddress = _
            rw [hsame.path, hpeer]
          · show l.conn.networkPath.peerAddress = _
            rw [hsame.path, hpeer]
        · simp [NetworkPath.needPathValidation, hswitch.validated] at hneed
    case h_3 =>
      refine hm.same (SamePath.trans ?_ (samePath_recordConnectionError _ env _ _))
      exact .of_eq rfl rfl (fun _ => rfl) (.inr rfl) rfl
    case h_4 => exact hm
    case h_5 =>
      have hab := samePath_absorb l.conn (h.frame env.rest l.conn.rest frameType bytes)
      unfold LifeLoop.onRest
      dsimp only
      split
      · exact hm.same hab
      · exact hm.same ((hab.trans (samePath_recordConnectionError _ env _ _)).trans
          (samePath_abortConnection h _ env _ _))

theorem moves_run (h : Handlers σ ε) (env : LifeEnv ε) (a : Arrival)
    (all frames : List (FrameType × List UInt8)) (hsub : ∀ frame ∈ frames, frame ∈ all) :
    ∀ {l : LifeLoop σ}, Moves c l.conn a.source all →
      Moves c (LifeLoop.run h env a l frames).conn a.source all := by
  induction frames with
  | nil => exact fun hm => hm
  | cons frame frames ih =>
    intro l hm
    unfold LifeLoop.run
    split
    · exact hm
    · exact ih (fun f hf => hsub f (List.mem_cons_of_mem _ hf))
        (moves_onFrame hm h env frame (hsub frame List.mem_cons_self))

theorem samePath_finishPacket (h : Handlers σ ε) (l : LifeLoop σ) (env : LifeEnv ε)
    (closing : Bool) (packet : PacketIn) :
    SamePath l.conn (finishPacket h l env closing packet) := by
  unfold finishPacket
  split
  · exact .refl _
  · split
    · exact samePath_onPeerClose l.conn _ _
    · split
      · exact .refl _
      · have hab := samePath_absorb l.conn (h.received env.rest l.conn.rest (reception l packet))
        refine hab.trans ?_
        generalize l.conn.absorb (h.received env.rest l.conn.rest (reception l packet)) = c₁
        dsimp only
        generalize hc₂ : (if c₁.state = .initialSent && packet.header.types = UTP_TYPE_HANDSHAKE
          then { c₁ with state := .connected, handshakeRetryCount := 0, connTimer := false }
          else c₁) = c₂
        have hconn : SamePath c₁ c₂ := by
          rw [← hc₂]
          split
          case isTrue hs =>
            simp only [Bool.and_eq_true, decide_eq_true_eq] at hs
            exact .of_eq rfl rfl (fun hcl => by simp [isClosingOrLater, hs.1] at hcl)
              (.inr rfl) rfl
          case isFalse => exact .refl c₁
        refine hconn.trans ?_
        split
        · exact samePath_absorb _ _
        · exact .refl _

theorem moves_onUdpPacket (h : Handlers σ ε) (env : LifeEnv ε) (source : Address)
    (msg : List UInt8) (packet : PacketIn) (haccept : h.accept c.rest c.state msg = some packet) :
    Moves (c.arrive h env source) (c.onUdpPacket h env source msg) source packet.frames := by
  unfold onUdpPacket
  rw [haccept]
  dsimp only
  split
  · exact .inl (.refl _)
  · have hloop : Moves (c.arrive h env source) (c.frameLoop h env source packet.frames).conn
        source packet.frames :=
      moves_run h env (c.arrival h env source) packet.frames packet.frames (fun _ hf => hf)
        (.inl (.refl _))
    exact hloop.same (samePath_finishPacket h _ env _ packet)

-- ==== the timeout

/-- The timeout asks the candidate once more. -/
def asksAgain (c : Lifecycle σ) (env : LifeEnv ε) : Bool :=
  !(c.networkPath.onTimeout env.nowMs).1
    && (c.expireChallenge env).networkPath.needPathValidation
    && (c.expireChallenge env).networkPath.pendingChallenge.isNone

theorem onPathValidationTimeout_cases (hc : c.OnPath) (h : Handlers σ ε) (env : LifeEnv ε) :
    (c.onPathValidationTimeout h env = c ∧ (c.networkPath.needPathValidation = true →
        env.nowMs < c.networkPath.challengeDeadlineMs))
      ∨ (∃ path : NetworkPath, c.onPathValidationTimeout h env
            = { c with networkPath := path.bindPeerAddress c.peerAddress,
                       pathValidationTimer := false }
          ∧ path.maxChallengeRetries = c.networkPath.maxChallengeRetries)
      ∨ (c.asksAgain env = true ∧ c.networkPath.needPathValidation = true
          ∧ (c.expireChallenge env).Askable
          ∧ (c.expireChallenge env).networkPath = { c.networkPath with pendingChallenge := none }
          ∧ Questioned h env (c.expireChallenge env) (c.onPathValidationTimeout h env)) := by
  rcases hc.place with ⟨hstate, -⟩ | hcand
  · -- nothing is being validated
    left
    have hpath : c.networkPath.onTimeout env.nowMs = (false, c.networkPath) := by
      unfold NetworkPath.onTimeout
      rw [if_pos (by simp [hstate])]
    have hneed : c.networkPath.needPathValidation = false := by
      simp [NetworkPath.needPathValidation, hstate]
    refine ⟨?_, fun hn => absurd hn (by simp [hneed])⟩
    unfold onPathValidationTimeout expireChallenge
    simp [hpath, hneed]
  · by_cases hearly : env.nowMs < c.networkPath.challengeDeadlineMs
    · left
      have hpath : c.networkPath.onTimeout env.nowMs = (false, c.networkPath) := by
        unfold NetworkPath.onTimeout
        rw [if_neg (by simp [hcand.validating, Option.isSome_iff_ne_none.mp hcand.pending]),
          if_pos hearly]
      refine ⟨?_, fun _ => hearly⟩
      unfold onPathValidationTimeout expireChallenge
      simp [hpath, Option.isSome_iff_ne_none.mp hcand.pending]
    · right
      by_cases hretry : c.networkPath.retryCount < c.networkPath.maxChallengeRetries
      · right
        have hpath : c.networkPath.onTimeout env.nowMs
            = (false, { c.networkPath with pendingChallenge := none }) := by
          unfold NetworkPath.onTimeout
          rw [if_neg (by simp [hcand.validating, Option.isSome_iff_ne_none.mp hcand.pending]),
            if_neg hearly, if_neg (by simp [NetworkPath.canRetryChallenge, hretry])]
        have hneed : c.networkPath.needPathValidation = true := by
          simp [NetworkPath.needPathValidation, hcand.validating]
        have hexpire : (c.expireChallenge env).networkPath
            = { c.networkPath with pendingChallenge := none } := by
          unfold expireChallenge
          rw [hpath]
        have hask : (c.expireChallenge env).Askable := by
          refine ⟨?_, ?_, ?_, ?_, hc.valid, ?_⟩
          · rw [hexpire]
            exact hcand.validating
          · rw [hexpire]
          · rw [hexpire]
            exact hretry
          · rw [hexpire]
            exact hcand.valid
          · rw [hexpire]
            exact hcand.ne
        have hagain : c.asksAgain env = true := by
          unfold asksAgain
          rw [hexpire, hpath]
          simpa [NetworkPath.needPathValidation] using hneed
        refine ⟨hagain, hneed, hask, hexpire, ?_⟩
        have hcall : c.onPathValidationTimeout h env
            = (c.expireChallenge env).maybeSendPathChallenge h env := by
          unfold onPathValidationTimeout
          rw [hpath]
          dsimp only
          rw [if_neg (by simp), if_pos]
          rw [hexpire]
          simpa [NetworkPath.needPathValidation] using hneed
        rw [hcall]
        exact hask.questioned h env
      · left
        have hpath : c.networkPath.onTimeout env.nowMs = (true, { c.networkPath with
            pendingChallenge := none, state := .failed }) := by
          unfold NetworkPath.onTimeout
          rw [if_neg (by simp [hcand.validating, Option.isSome_iff_ne_none.mp hcand.pending]),
            if_neg hearly, if_pos (by simp [NetworkPath.canRetryChallenge, hretry])]
        refine ⟨{ c.networkPath with pendingChallenge := none, state := .failed }, ?_, rfl⟩
        unfold onPathValidationTimeout expireChallenge
        simp [hpath]

theorem onPathValidationTimeout_state (h : Handlers σ ε) (c : Lifecycle σ) (env : LifeEnv ε) :
    (c.onPathValidationTimeout h env).state = c.state := by
  unfold onPathValidationTimeout
  dsimp only
  split
  · rfl
  · split
    · exact maybeSendPathChallenge_state h (c.expireChallenge env) env
    · rfl

-- ==== one step

theorem OnPath.congr (hc : c.OnPath) (hpath : c'.networkPath = c.networkPath)
    (hpeer : c'.peerAddress = c.peerAddress) : c'.OnPath where
  valid := hpeer ▸ hc.valid
  retries := hpath ▸ hc.retries
  place := by
    refine hc.place.imp (fun hv => by rw [hpath, hpeer]; exact hv) fun hcand => ?_
    exact ⟨hpath ▸ hcand.validating, hpath ▸ hcand.pending, hpath ▸ hcand.budget,
      hpath ▸ hcand.valid, by rw [hpath, hpeer]; exact hcand.ne⟩

/-- `onWrite` never finds a validation without its challenge. -/
theorem samePath_writeOpen (hc : c.OnPath) (h : Handlers σ ε) (env : LifeEnv ε) :
    SamePath c (c.writeOpen h env) := by
  have hearly : SamePath c (c.writeEarly h env) := samePath_absorb c _
  have hidle : ((c.writeEarly h env).networkPath.needPathValidation
      && (c.writeEarly h env).networkPath.pendingChallenge.isNone) = false := by
    rcases (hearly.onPath hc).place with ⟨hstate, -⟩ | hcand
    · simp [NetworkPath.needPathValidation, hstate]
    · have hpending : (c.writeEarly h env).networkPath.pendingChallenge.isNone = false := by
        rw [← Option.not_isSome, hcand.pending]
        rfl
      rw [hpending, Bool.and_false]
  unfold writeOpen
  dsimp only
  rw [if_neg (by simp [hidle])]
  exact hearly.trans (samePath_absorb _ _)

theorem samePath_onWrite (hc : c.OnPath) (h : Handlers σ ε) (env : LifeEnv ε) :
    SamePath c (c.onWrite h env) := by
  have hw : SamePath c { c with wantWrite := false } := .of_eq rfl rfl id (.inr rfl) rfl
  have hcw := hw.onPath hc
  generalize hcw' : ({ c with wantWrite := false } : Lifecycle σ) = cw at hw hcw
  unfold onWrite
  rw [hcw']
  dsimp only
  split
  · exact hw
  · split
    · exact hw.trans (samePath_writeClosing h cw env)
    · split
      case isTrue hwait =>
        have hinit := samePath_writeInitial hwait h env
        split
        · exact (hw.trans hinit).trans (samePath_writeOpen (hinit.onPath hcw) h env)
        · exact hw.trans hinit
      case isFalse => exact hw.trans (samePath_writeOpen hcw h env)

theorem step_cases (hc : c.OnPath) (h : Handlers σ ε) (op : LifeOp ε) :
    SamePath c (c.step h op)
      ∨ (∃ env source msg packet, op = .datagram env source msg
          ∧ h.accept c.rest c.state msg = some packet
          ∧ Moves (c.arrive h env source.address) (c.step h op) source.address packet.frames)
      ∨ (∃ env, op = .pathValidationTimeout env ∧ c.pathValidationTimer = true
          ∧ c.step h op = onPathValidationTimeout h { c with pathValidationTimer := false }
            env) := by
  cases op with
  | datagram env source msg =>
    cases haccept : h.accept c.rest c.state msg with
    | none =>
      left
      show SamePath c (c.onUdpPacket h env source.address msg)
      unfold onUdpPacket
      rw [haccept]
      exact .refl c
    | some packet =>
      exact .inr (.inl ⟨env, source, msg, packet, rfl, haccept,
        moves_onUdpPacket h env source.address msg packet haccept⟩)
  | write env =>
    left
    show SamePath c (if c.wantWrite then c.onWrite h env else c)
    split
    · exact samePath_onWrite hc h env
    · exact .refl c
  | connTimeout env readable =>
    left
    show SamePath c (if c.connTimer then
      onConnTimeout h { c with connTimer := false } env readable else c)
    split
    · refine SamePath.trans ?_ (samePath_onConnTimeout h _ env readable)
      exact .of_eq rfl rfl id (.inr rfl) rfl
    · exact .refl c
  | pathValidationTimeout env =>
    cases htimer : c.pathValidationTimer with
    | true => exact .inr (.inr ⟨env, rfl, rfl, if_pos htimer⟩)
    | false =>
      left
      rw [show c.step h (.pathValidationTimeout env) = c from
        if_neg (by simp [htimer])]
      exact .refl c
  | closeDrainTimeout env =>
    left
    show SamePath c (if c.closeDrainTimer then
      onCloseDrainTimeout { c with closeDrainTimer := false } env else c)
    split
    · refine SamePath.trans ?_ (samePath_onCloseDrainTimeout _ env)
      exact .of_eq rfl rfl id (.inr rfl) rfl
    · exact .refl c
  | keepaliveTimeout env allMissed => exact .inl (samePath_onKeepaliveTimeout h c env allMissed)
  | close => exact .inl (samePath_close c)
  | event env => exact .inl (samePath_absorb c _)

theorem onPath_step (h : Handlers σ ε) (op : LifeOp ε) (hc : c.OnPath) : (c.step h op).OnPath := by
  rcases step_cases hc h op with
    hsame | ⟨env, source, msg, packet, -, -, hm⟩ | ⟨env, -, -, heq⟩
  · exact hsame.onPath hc
  · exact hm.onPath (onPath_arrive hc h env source)
  · rw [heq]
    have hc₀ : OnPath { c with pathValidationTimer := false } := hc.congr rfl rfl
    rcases onPathValidationTimeout_cases hc₀ h env with
      ⟨heq, -⟩ | ⟨path, heq, hretries⟩ | ⟨-, -, hask, -, hq⟩
    · rw [heq]
      exact hc₀
    · rw [heq]
      refine ⟨hc.valid, hretries ▸ hc.retries, .inl ⟨?_, rfl⟩⟩
      simp [NetworkPath.bindPeerAddress, hc.valid]
    · exact hq.onPath hask

theorem addressed_step (h : Handlers σ ε) (op : LifeOp ε) (hc : c.OnPath)
    (hwire : Addressed c.wire) : Addressed (c.step h op).wire := by
  rcases step_cases hc h op with
    hsame | ⟨env, source, msg, packet, -, -, hm⟩ | ⟨env, -, -, heq⟩
  · exact hsame.addressed hwire
  · exact hm.addressed (addressed_arrive hc hwire h env source)
  · rw [heq]
    have hc₀ : OnPath { c with pathValidationTimer := false } := hc.congr rfl rfl
    rcases onPathValidationTimeout_cases hc₀ h env with
      ⟨heq, -⟩ | ⟨path, heq, -⟩ | ⟨-, -, -, -, hq⟩
    · rw [heq]
      exact hwire
    · rw [heq]
      exact hwire
    · exact hq.addressed hwire

-- ==== the conditions

/-- The PATH_CHALLENGE of this event, if it makes one, goes out. -/
def ChallengesSent (h : Handlers σ ε) (c : Lifecycle σ) : LifeOp ε → Prop
  | .datagram env source msg =>
    (h.accept c.rest c.state msg).isSome = true → c.newCandidate source.address = true →
      ChallengeSent h (c.noteSource source.address) env
  | .pathValidationTimeout env =>
    c.pathValidationTimer = true → c.asksAgain env = true →
      ChallengeSent h (c.expireChallenge env) env
  | _ => True

/-- The validation timer fires once the challenge's time is up. -/
def OnTime (c : Lifecycle σ) : LifeOp ε → Prop
  | .pathValidationTimeout env =>
    c.pathValidationTimer = true → c.networkPath.challengeDeadlineMs ≤ env.nowMs
  | _ => True

theorem asked_arrive (hc : c.OnPath) (hasked : c.Asked) (h : Handlers σ ε) (env : LifeEnv ε)
    (source : PeerAddress) (hsent : c.newCandidate source.address = true →
      ChallengeSent h (c.noteSource source.address) env) :
    (c.arrive h env source.address).Asked := by
  rcases arrive_cases hc h env source with ⟨-, heq⟩ | ⟨hnew, -, -, hq⟩
  · rw [heq]
    exact hasked
  · exact hq.asked (hsent hnew)

theorem asked_step (h : Handlers σ ε) (op : LifeOp ε) (hc : c.OnPath) (hasked : c.Asked)
    (hsent : ChallengesSent h c op) : (c.step h op).Asked := by
  rcases step_cases hc h op with
    hsame | ⟨env, source, msg, packet, rfl, haccept, hm⟩ | ⟨env, rfl, htimer, heq⟩
  · exact hsame.asked hasked
  · exact hm.asked (asked_arrive hc hasked h env source (hsent (by simp [haccept])))
  · rw [heq]
    have hc₀ : OnPath { c with pathValidationTimer := false } := hc.congr rfl rfl
    rcases onPathValidationTimeout_cases hc₀ h env with
      ⟨heq, -⟩ | ⟨path, heq, -⟩ | ⟨hagain, -, -, -, hq⟩
    · rw [heq]
      exact hasked
    · rw [heq]
      intro data hdata
      cases hdata
    · exact hq.asked (hsent htimer hagain)

theorem timed_step (h : Handlers σ ε) (op : LifeOp ε) (hc : c.OnPath) (htimed : c.Timed)
    (hsent : ChallengesSent h c op) (hontime : OnTime c op) : (c.step h op).Timed := by
  rcases step_cases hc h op with
    hsame | ⟨env, source, msg, packet, rfl, haccept, hm⟩ | ⟨env, rfl, htimer, heq⟩
  · exact hsame.timed htimed
  · refine hm.timed ?_
    rcases arrive_cases hc h env source with ⟨-, heq⟩ | ⟨hnew, -, -, hq⟩
    · rw [heq]
      exact htimed
    · exact fun _ _ => (hq.sent (hsent (by simp [haccept]) hnew)).1
  · rw [heq]
    have hc₀ : OnPath { c with pathValidationTimer := false } := hc.congr rfl rfl
    rcases onPathValidationTimeout_cases hc₀ h env with
      ⟨heq, hearly⟩ | ⟨path, heq, -⟩ | ⟨hagain, -, -, -, hq⟩
    · rw [heq]
      intro _ hneed
      exact absurd (hearly hneed) (Nat.not_lt.mpr (hontime htimer))
    · rw [heq]
      intro _ hneed
      simp [NetworkPath.needPathValidation, NetworkPath.bindPeerAddress, hc.valid] at hneed
    · exact fun _ _ => (hq.sent (hsent htimer hagain)).1

-- ==== a fresh start

theorem NetworkPath.new_retries (timeoutMs retries : Nat) :
    0 < (NetworkPath.new timeoutMs retries).maxChallengeRetries := by
  unfold NetworkPath.new
  dsimp only
  split <;> omega

theorem onPath_start (o : Opening σ) : o.start.OnPath := by
  cases o with
  | connect timeoutMs retries peer =>
    refine ⟨peer.valid, NetworkPath.new_retries timeoutMs retries, .inl ⟨?_, rfl⟩⟩
    simp [Opening.start, connect, NetworkPath.bindPeerAddress, peer.valid]
  | initPassive timeoutMs retries peer =>
    refine ⟨peer.valid, NetworkPath.new_retries timeoutMs retries, .inl ⟨?_, rfl⟩⟩
    simp [Opening.start, initPassive, NetworkPath.bindPeerAddress, peer.valid]

theorem start_wire (o : Opening σ) : o.start.wire = [] := by
  cases o <;> rfl

theorem start_pending (o : Opening σ) : o.start.networkPath.pendingChallenge = none := by
  cases o <;> rfl

theorem onPath_run (h : Handlers σ ε) (o : Opening σ) (ops : List (LifeOp ε)) :
    (run (step h) o.start ops).OnPath :=
  run_inv_of_step (fun _ op hc => onPath_step h op hc) ops (onPath_start o)

end Lifecycle

end Eular.Utp
