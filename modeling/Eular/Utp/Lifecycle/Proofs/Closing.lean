/-
Closing is one-way, and the application is told once.

A connection closes in many places: the application asks for it, the
peer asks for it, an error aborts it, a timer gives up on it. Each
assigns the state under a guard of its own. `Closes` is what all of them
keep: `m_onClosed` was called as often as `m_closedNotified` says, and
a connection that is closing has a timer or a pending write that will
end it. `Onward` adds the direction: nothing leads out of the closing
states, and nothing out of `Disconnected`.

# The one gap

Between a CONNECTION_CLOSE in a packet and the end of that packet the
connection is in `CloseReceived` with nothing armed. `Looping` is the
invariant of the frame loop, which knows of the gap; `onPeerClose`
closes it.
-/
import Eular.Utp.Lifecycle.Events

namespace Eular.Utp

open Lib

variable {σ ε : Type} {c c' : Lifecycle σ} {env : LifeEnv ε} {h : Handlers σ ε}

namespace Lifecycle

-- ==== the invariant

/-- Something will end the closing: the drain timer, or a write of the
CONNECTION_CLOSE, which the PTO wait no longer does. -/
def Armed (c : Lifecycle σ) : Prop :=
  c.closeDrainTimer = true
    ∨ (c.closeFramePending = true ∧ c.wantWrite = true ∧ c.closingState = true)

/-- The application was told as often as the flag says, and before the
end; a reply to the peer's close is followed by the drain timer. -/
structure Told (c : Lifecycle σ) : Prop where
  count : c.closed.length = if c.closedNotified then 1 else 0
  told : c.state = .disconnected → c.closedNotified = true
  replied : c.closePeerResendCount ≠ 0 →
    c.isClosingOrLater = true ∧ (c.closeDrainTimer = true ∨ c.state = .disconnected)

/-- And a closing connection will end. -/
structure Closes (c : Lifecycle σ) : Prop extends c.Told where
  armed : c.isClosingOrLater = true → c.state = .disconnected ∨ c.Armed

/-- What every event does: it keeps the invariant, and leads out of neither
the closing states nor the last one. -/
structure Onward (c c' : Lifecycle σ) : Prop where
  closing : c.isClosingOrLater = true → c'.isClosingOrLater = true
  final : c.state = .disconnected → c'.state = .disconnected
  told : c.Told → c'.Told
  closes : c.Closes → c'.Closes

namespace Onward

theorem refl (c : Lifecycle σ) : Onward c c := ⟨id, id, id, id⟩

theorem trans {c'' : Lifecycle σ} (hcc' : Onward c c') (hc' : Onward c' c'') : Onward c c'' :=
  ⟨fun h => hc'.closing (hcc'.closing h), fun h => hc'.final (hcc'.final h),
    fun h => hc'.told (hcc'.told h), fun h => hc'.closes (hcc'.closes h)⟩

theorem of_same (hstate : c'.state = c.state) (hdrain : c'.closeDrainTimer = c.closeDrainTimer)
    (hpending : c'.closeFramePending = c.closeFramePending)
    (hwrite : c.wantWrite = true → c'.wantWrite = true)
    (hcount : c'.closePeerResendCount = c.closePeerResendCount)
    (hnotified : c'.closedNotified = c.closedNotified) (hclosed : c'.closed = c.closed) :
    Onward c c' := by
  have hclosing : c'.isClosingOrLater = c.isClosingOrLater := by
    simp only [isClosingOrLater, hstate]
  have hstates : c'.closingState = c.closingState := by simp only [closingState, hstate]
  have htold : c.Told → c'.Told := by
    intro h
    constructor
    · rw [hclosed, hnotified]
      exact h.count
    · rw [hstate, hnotified]
      exact h.told
    · rw [hcount, hclosing, hdrain, hstate]
      exact h.replied
  refine ⟨fun h => hclosing ▸ h, fun h => hstate ▸ h, htold, fun h => ⟨htold h.toTold, ?_⟩⟩
  · rw [hclosing, hstate]
    intro hc
    refine (h.armed hc).imp_right fun harmed => ?_
    unfold Armed at harmed ⊢
    rw [hdrain, hpending, hstates]
    exact harmed.imp_right fun ⟨hp, hw, hs⟩ => ⟨hp, hwrite hw, hs⟩

end Onward

theorem isClosingOrLater_of_closingState (h : c.closingState = true) :
    c.isClosingOrLater = true := by
  rcases c with ⟨state⟩
  cases state <;> simp_all [closingState, isClosingOrLater]

theorem closing_cases (h : c.isClosingOrLater = true) : c.closingState = true ∨ c.done = true := by
  rcases c with ⟨state⟩
  cases state <;> simp_all [closingState, done, isClosingOrLater]

/-- Armed and in `CloseSent`: the closing has begun. -/
theorem Closes.of_closeSent (hc : c.Told) (hstate : c'.state = .closeSent)
    (hcount : c'.closePeerResendCount = 0 ∨ c'.closeDrainTimer = true)
    (hnotified : c'.closedNotified = c.closedNotified) (hclosed : c'.closed = c.closed)
    (harmed : c'.Armed) : c'.Closes where
  count := by
    rw [hclosed, hnotified]
    exact hc.count
  told := fun h => absurd (hstate.symm.trans h) (by simp)
  replied := fun h => ⟨by simp [isClosingOrLater, hstate], .inl (hcount.resolve_left h)⟩
  armed := fun _ => .inr harmed

-- ==== close, errors and callbacks

theorem onward_scheduleWrite (c : Lifecycle σ) : Onward c c.scheduleWrite :=
  .of_same rfl rfl rfl (fun _ => rfl) rfl rfl rfl

theorem onward_beginCloseSent (c : Lifecycle σ) (code : Nat) (reason : String) :
    Onward c (c.beginCloseSent code reason) := by
  unfold beginCloseSent
  split
  case isTrue => exact .refl c
  case isFalse hdone =>
    have hcloses : c.Told → (Closes (scheduleWrite { c with
        state := .closeSent, connTimer := false, pathValidationTimer := false,
        closeErrorCode := code,
        closeReason := if code = UTP_ERR_OK then "ok" else boundedReason reason,
        closeByPeer := false, closeFramePending := true, closePeerResendCount := 0 })) :=
      fun hc => .of_closeSent hc rfl (.inl rfl) rfl rfl (.inr ⟨rfl, rfl, rfl⟩)
    exact ⟨fun _ => rfl, fun h => absurd (by simp [done, h]) hdone,
      fun hc => (hcloses hc).toTold, fun hc => hcloses hc.toTold⟩

theorem onward_close (c : Lifecycle σ) : Onward c c.close := by
  unfold close
  split
  · exact .refl c
  · exact onward_beginCloseSent c _ _

theorem onward_callback (c : Lifecycle σ) (closes : Bool) : Onward c (c.callback closes) := by
  unfold callback
  split
  · exact onward_close c
  · exact .refl c

theorem close_of_disconnected (h : c.state = .disconnected) : c.close = c := if_pos h

theorem callback_of_disconnected (h : c.state = .disconnected) (closes : Bool) :
    c.callback closes = c := by
  unfold callback
  split
  · exact close_of_disconnected h
  · rfl

theorem onward_notifyConnectionClosed (c : Lifecycle σ) (env : LifeEnv ε) (code : Nat)
    (reason : String) (byPeer : Bool) :
    Onward c (c.notifyConnectionClosed env code reason byPeer) := by
  unfold notifyConnectionClosed
  split
  case isTrue => exact .refl c
  case isFalse hnew =>
    refine Onward.trans ?_ (onward_callback _ _)
    have htold : c.Told → Told { c with
        closedNotified := true, closed := c.closed ++ [⟨code, reason, byPeer⟩] } :=
      fun hc => ⟨by simp [hc.count, hnew], fun _ => rfl, hc.replied⟩
    exact ⟨id, id, htold, fun hc => ⟨htold hc.toTold, hc.armed⟩⟩

theorem onward_recordConnectionError (c : Lifecycle σ) (env : LifeEnv ε) (code : Nat)
    (reason : String) : Onward c (c.recordConnectionError env code reason) := by
  unfold recordConnectionError
  split
  · exact .refl c
  · split
    · exact .refl c
    · refine Onward.trans ?_ (onward_callback _ _)
      exact .of_same rfl rfl rfl id rfl rfl rfl

/-- What `disconnect` does: the state, and the one call of `m_onClosed`. -/
theorem disconnect_eq (c : Lifecycle σ) (env : LifeEnv ε) (code : Nat) (reason : String)
    (byPeer : Bool) :
    c.disconnect env code reason byPeer
      = if c.closedNotified then { c with state := .disconnected }
        else { c with
          state := .disconnected
          closedNotified := true
          closed := c.closed ++ [⟨code, reason, byPeer⟩] } := by
  unfold disconnect notifyConnectionClosed
  by_cases hn : c.closedNotified = true
  · rw [if_pos hn, if_pos hn]
  · rw [if_neg hn, if_neg hn]
    exact callback_of_disconnected (c := { c with
      state := .disconnected, closedNotified := true, closed := _ }) rfl _

@[simp] theorem disconnect_state (c : Lifecycle σ) (env : LifeEnv ε) (code : Nat)
    (reason : String) (byPeer : Bool) :
    (c.disconnect env code reason byPeer).state = .disconnected := by
  rw [disconnect_eq]
  split <;> rfl

theorem closes_disconnect (hc : c.closed.length = if c.closedNotified then 1 else 0)
    (env : LifeEnv ε) (code : Nat) (reason : String)
    (byPeer : Bool) : (c.disconnect env code reason byPeer).Closes := by
  rw [disconnect_eq]
  split
  case isTrue hn =>
    exact ⟨⟨hc, fun _ => hn, fun _ => ⟨rfl, .inr rfl⟩⟩, fun _ => .inl rfl⟩
  case isFalse hn =>
    refine ⟨⟨?_, fun _ => rfl, fun _ => ⟨rfl, .inr rfl⟩⟩, fun _ => .inl rfl⟩
    simp [hc, hn]

theorem onward_disconnect (c : Lifecycle σ) (env : LifeEnv ε) (code : Nat) (reason : String)
    (byPeer : Bool) : Onward c (c.disconnect env code reason byPeer) :=
  ⟨fun _ => by simp [isClosingOrLater], fun _ => by simp,
    fun hc => (closes_disconnect hc.count env code reason byPeer).toTold,
    fun hc => closes_disconnect hc.count env code reason byPeer⟩

-- ==== sending

theorem sendPacket_eq (h : Handlers σ ε) (c : Lifecycle σ) (env : LifeEnv ε) (dest : Address)
    (payload : Payload) :
    ∃ code rest wire, c.sendPacket h env dest payload = (code, { c with rest, wire }) := by
  unfold sendPacket
  dsimp only
  split
  · exact ⟨_, _, _, rfl⟩
  · exact ⟨_, _, c.wire, rfl⟩

theorem onward_sendPacket (h : Handlers σ ε) (c : Lifecycle σ) (env : LifeEnv ε) (dest : Address)
    (payload : Payload) : Onward c (c.sendPacket h env dest payload).2 := by
  obtain ⟨_, rest, wire, heq⟩ := sendPacket_eq h c env dest payload
  rw [heq]
  exact .of_same rfl rfl rfl id rfl rfl rfl

@[simp] theorem sendPacket_state (h : Handlers σ ε) (c : Lifecycle σ) (env : LifeEnv ε)
    (dest : Address) (payload : Payload) :
    (c.sendPacket h env dest payload).2.state = c.state := by
  obtain ⟨_, rest, wire, heq⟩ := sendPacket_eq h c env dest payload
  rw [heq]

theorem onward_absorb (c : Lifecycle σ) (r : Handled σ) : Onward c (c.absorb r) := by
  unfold absorb
  refine Onward.trans ?_ (onward_callback _ _)
  exact .of_same rfl rfl rfl id rfl rfl rfl

theorem onward_abortConnection (h : Handlers σ ε) (c : Lifecycle σ) (env : LifeEnv ε)
    (code : Nat) (reason : String) : Onward c (c.abortConnection h env code reason) := by
  unfold abortConnection
  split
  case isTrue => exact .refl c
  case isFalse hopen =>
    dsimp only [sendConnectionCloseFrame]
    obtain ⟨_, rest, wire, heq⟩ := sendPacket_eq h { c with
      lastErrorCode := code, lastErrorReason := boundedReason reason, closeErrorCode := code,
      state := .closeSent } env c.peerAddress (closePayload { c with
        lastErrorCode := code, lastErrorReason := boundedReason reason, closeErrorCode := code,
        state := .closeSent })
    rw [heq]
    refine Onward.trans ?_ (onward_notifyConnectionClosed _ env code reason false)
    have hcloses : c.Told → Closes { c with
        lastErrorCode := code, lastErrorReason := boundedReason reason, closeErrorCode := code,
        state := .closeSent, rest, wire, closeDrainTimer := true } :=
      fun hc => .of_closeSent hc rfl (.inr rfl) rfl rfl (.inl rfl)
    exact ⟨fun hc => absurd hc hopen, fun hd => absurd (by simp [isClosingOrLater, hd]) hopen,
      fun hc => (hcloses hc).toTold, fun hc => hcloses hc.toTold⟩

-- ==== path validation

theorem onward_maybeSendPathChallenge (h : Handlers σ ε) (c : Lifecycle σ) (env : LifeEnv ε) :
    Onward c (c.maybeSendPathChallenge h env) := by
  have hpath : Onward c
      { c with networkPath := c.networkPath.makePathChallenge env.nowMs env.challenge } :=
    .of_same rfl rfl rfl id rfl rfl rfl
  unfold maybeSendPathChallenge
  dsimp only
  split
  · exact .refl c
  · split
    · exact hpath
    · split
      · exact hpath
      · split
        · exact hpath.trans (onward_sendPacket h _ env _ _)
        · exact (hpath.trans (onward_sendPacket h _ env _ _)).trans
            (.of_same rfl rfl rfl id rfl rfl rfl)

theorem onward_handlePathChallengeFrame (h : Handlers σ ε) (c : Lifecycle σ) (env : LifeEnv ε)
    (data : List UInt8) (source : Address) :
    Onward c (c.handlePathChallengeFrame h env data source) := by
  unfold handlePathChallengeFrame
  split
  · exact .refl c
  · exact onward_sendPacket h c env _ _

theorem onward_handlePathResponseFrame (c : Lifecycle σ) (data : List UInt8) (source : Address) :
    Onward c (c.handlePathResponseFrame data source) := by
  unfold handlePathResponseFrame
  split
  · exact .refl c
  · split
    · exact .refl c
    · dsimp only
      split
      · exact .of_same rfl rfl rfl id rfl rfl rfl
      · exact .of_same rfl rfl rfl id rfl rfl rfl

theorem onward_onPathValidationTimeout (h : Handlers σ ε) (c : Lifecycle σ) (env : LifeEnv ε) :
    Onward c (c.onPathValidationTimeout h env) := by
  have hpath : Onward c (c.expireChallenge env) := .of_same rfl rfl rfl id rfl rfl rfl
  unfold onPathValidationTimeout
  dsimp only
  split
  · exact hpath.trans (.of_same rfl rfl rfl id rfl rfl rfl)
  · split
    · exact hpath.trans (onward_maybeSendPathChallenge h _ env)
    · exact hpath

theorem onward_arrive (h : Handlers σ ε) (c : Lifecycle σ) (env : LifeEnv ε) (source : Address) :
    Onward c (c.arrive h env source) := by
  have hnote : Onward c (c.noteSource source) := .of_same rfl rfl rfl id rfl rfl rfl
  unfold arrive
  split
  · split
    · exact hnote.trans (onward_maybeSendPathChallenge h _ env)
    · exact hnote
  · exact .refl c

theorem maybeSendPathChallenge_state (h : Handlers σ ε) (c : Lifecycle σ) (env : LifeEnv ε) :
    (c.maybeSendPathChallenge h env).state = c.state := by
  unfold maybeSendPathChallenge
  dsimp only
  split
  · rfl
  · split
    · rfl
    · split
      · rfl
      · split
        · exact sendPacket_state h _ env _ _
        · exact sendPacket_state h _ env _ _

theorem arrive_state (h : Handlers σ ε) (c : Lifecycle σ) (env : LifeEnv ε) (source : Address) :
    (c.arrive h env source).state = c.state := by
  unfold arrive
  split
  · split
    · exact maybeSendPathChallenge_state h (c.noteSource source) env
    · rfl
  · rfl

-- ==== the frame loop

theorem done_of_closingState (h : c.closingState = true) : c.done = false := by
  rcases c with ⟨state⟩
  cases state <;> simp_all [closingState, done]

theorem done_congr (h : c'.state = c.state) : c'.done = c.done := by simp only [done, h]

theorem beginCloseSent_state (h : c.done = false) (code : Nat) (reason : String) :
    (c.beginCloseSent code reason).state = .closeSent := by
  unfold beginCloseSent
  rw [if_neg (by simp [h])]
  rfl

theorem close_done (h : c.done = false) : c.close.done = false := by
  unfold close
  split
  · exact h
  · simp [done, beginCloseSent_state h]

theorem callback_done (h : c.done = false) (closes : Bool) : (c.callback closes).done = false := by
  unfold callback
  split
  · exact close_done h
  · exact h

/-- A callback leaves the connection where it was, or in `CloseSent`. -/
theorem callback_state (c : Lifecycle σ) (closes : Bool) :
    (c.callback closes).state = c.state ∨ (c.callback closes).state = .closeSent := by
  unfold callback close
  split
  · split
    · exact .inl rfl
    · cases hdone : c.done with
      | false => exact .inr (beginCloseSent_state hdone _ _)
      | true =>
        left
        unfold beginCloseSent
        rw [if_pos hdone]
  · exact .inl rfl

theorem recordConnectionError_state (c : Lifecycle σ) (env : LifeEnv ε) (code : Nat)
    (reason : String) :
    (c.recordConnectionError env code reason).state = c.state
      ∨ (c.recordConnectionError env code reason).state = .closeSent := by
  unfold recordConnectionError
  split
  · exact .inl rfl
  · split
    · exact .inl rfl
    · exact callback_state _ _

theorem absorb_done (h : c.done = false) (r : Handled σ) : (c.absorb r).done = false := by
  unfold absorb
  exact callback_done (c := { c with rest := r.rest, wire := _ }) h _

theorem recordConnectionError_done (h : c.done = false) (env : LifeEnv ε) (code : Nat)
    (reason : String) : (c.recordConnectionError env code reason).done = false := by
  rcases recordConnectionError_state c env code reason with hs | hs
  · exact (done_congr hs).trans h
  · simp [done, hs]

theorem notifyConnectionClosed_done (h : c.done = false) (env : LifeEnv ε) (code : Nat)
    (reason : String) (byPeer : Bool) :
    (c.notifyConnectionClosed env code reason byPeer).done = false := by
  unfold notifyConnectionClosed
  split
  · exact h
  · exact callback_done (c := { c with closedNotified := true, closed := _ }) h _

theorem abortConnection_done (h : Handlers σ ε) (hdone : c.done = false) (env : LifeEnv ε)
    (code : Nat) (reason : String) : (c.abortConnection h env code reason).done = false := by
  unfold abortConnection
  split
  · exact hdone
  · refine notifyConnectionClosed_done ?_ env code reason false
    simp [done, sendConnectionCloseFrame]

/-- The invariant of the frame loop, which started in `c`: until the peer
closes everything is in order, and then only the arming is missing. -/
structure Looping (c : Lifecycle σ) (l : LifeLoop σ) : Prop where
  open_ : l.conn.done = false
  closing : c.isClosingOrLater = true → l.conn.isClosingOrLater = true
  told : c.Told → l.conn.Told
  running : c.Closes → l.peerClose = none → l.conn.Closes
  closed : l.peerClose ≠ none → l.conn.closingState = true

/-- A case that keeps `Closes` and does not touch `peerClose`. -/
theorem Looping.move {l l' : LifeLoop σ} (hl : Looping c l) (hrun : l.peerClose = none)
    (hopen : l'.conn.done = false) (hon : Onward l.conn l'.conn)
    (hclose : l'.peerClose = l.peerClose) : Looping c l' where
  open_ := hopen
  closing hc := hon.closing (hl.closing hc)
  told hc := hon.told (hl.told hc)
  running hc _ := hon.closes (hl.running hc hrun)
  closed h := absurd (hclose.trans hrun) h

variable {l : LifeLoop σ}

theorem looping_onConnectionClose (hl : Looping c l) (env : LifeEnv ε)
    (data : List UInt8) : Looping c (l.onConnectionClose env data) := by
  have hreceived : c.Told → ({ l.conn with
      state := .closeReceived, closeByPeer := true } : Lifecycle σ).Told := by
    intro hc
    have htold := hl.told hc
    refine ⟨htold.count, fun h => (by cases h), fun hcount => ⟨rfl, .inl ?_⟩⟩
    refine (htold.replied hcount).2.resolve_right fun hd => ?_
    have hopen := hl.open_
    simp [done, hd] at hopen
  have hstate : (l.onConnectionClose env data).conn.closingState = true := by
    unfold LifeLoop.onConnectionClose
    rcases recordConnectionError_state ({ l.conn with
      state := .closeReceived, closeByPeer := true } : Lifecycle σ) env
      ((decodeConnectionClose data).getD (UTP_ERR_OK, "")).1
      (if ((decodeConnectionClose data).getD (UTP_ERR_OK, "")).2 = "" then
        "peer closed connection"
      else ((decodeConnectionClose data).getD (UTP_ERR_OK, "")).2) with hs | hs
    · simp [closingState, hs]
    · simp [closingState, hs]
  refine ⟨done_of_closingState hstate, fun _ => isClosingOrLater_of_closingState hstate, ?_, ?_,
    fun _ => hstate⟩
  · -- the callback of `m_onError` may close; nothing else touches what was told
    intro hc
    unfold LifeLoop.onConnectionClose recordConnectionError
    dsimp only
    split
    · exact hreceived hc
    · split
      · exact hreceived hc
      · have htold := hreceived hc
        unfold callback
        split
        · unfold close beginCloseSent
          rw [if_neg (by simp), if_neg (by simp [done])]
          exact ⟨htold.count, fun h => (by cases h), fun h => absurd rfl h⟩
        · exact ⟨htold.count, htold.told, htold.replied⟩
  · intro _ h
    unfold LifeLoop.onConnectionClose at h
    cases h

theorem looping_onRest (hl : Looping c l) (hrun : l.peerClose = none)
    (h : Handlers σ ε) (env : LifeEnv ε) (frameType : FrameType) (data : List UInt8) :
    Looping c (l.onRest h env frameType data) := by
  have hab := onward_absorb l.conn (h.frame env.rest l.conn.rest frameType data)
  have hopen := absorb_done hl.open_ (h.frame env.rest l.conn.rest frameType data)
  unfold LifeLoop.onRest
  dsimp only
  split
  · exact hl.move hrun hopen hab rfl
  · refine hl.move hrun ?_ ((hab.trans (onward_recordConnectionError _ env _ _)).trans
      (onward_abortConnection h _ env _ _)) rfl
    exact abortConnection_done h (recordConnectionError_done hopen env _ _) env _ _

theorem sendPacket_done (h : Handlers σ ε) (hdone : c.done = false) (env : LifeEnv ε)
    (dest : Address) (payload : Payload) :
    (c.sendPacket h env dest payload).2.done = false :=
  (done_congr (sendPacket_state h c env dest payload)).trans hdone

theorem handlePathChallengeFrame_done (h : Handlers σ ε) (hdone : c.done = false)
    (env : LifeEnv ε) (data : List UInt8) (source : Address) :
    (c.handlePathChallengeFrame h env data source).done = false := by
  unfold handlePathChallengeFrame
  split
  · exact hdone
  · exact sendPacket_done h hdone env _ _

@[simp] theorem handlePathResponseFrame_state (c : Lifecycle σ) (data : List UInt8)
    (source : Address) : (c.handlePathResponseFrame data source).state = c.state := by
  unfold handlePathResponseFrame
  split
  · rfl
  · split
    · rfl
    · dsimp only
      split <;> rfl

theorem looping_onFrame (hl : Looping c l) (hrun : l.peerClose = none)
    (h : Handlers σ ε) (env : LifeEnv ε) (a : Arrival) (frame : FrameType × List UInt8) :
    Looping c (l.onFrame h env a frame) := by
  unfold LifeLoop.onFrame
  split
  · exact hl
  · split
    case h_1 =>
      exact hl.move hrun (handlePathChallengeFrame_done h hl.open_ env _ _)
        (onward_handlePathChallengeFrame h _ env _ _) rfl
    case h_2 =>
      refine hl.move hrun ?_ (onward_handlePathResponseFrame _ _ _) rfl
      exact (done_congr (handlePathResponseFrame_state _ _ _)).trans hl.open_
    case h_3 => exact looping_onConnectionClose hl env _
    case h_4 => exact hl.move hrun hl.open_ (.refl _) rfl
    case h_5 => exact looping_onRest hl hrun h env _ _

theorem looping_run (h : Handlers σ ε) (env : LifeEnv ε) (a : Arrival)
    (frames : List (FrameType × List UInt8)) :
    ∀ {l : LifeLoop σ}, Looping c l → Looping c (LifeLoop.run h env a l frames) := by
  induction frames with
  | nil => exact fun hl => hl
  | cons frame frames ih =>
    intro l hl
    unfold LifeLoop.run
    split
    case isTrue => exact hl
    case isFalse hgo =>
      have hrun : l.peerClose = none := by
        simp only [LifeLoop.stopped, Bool.or_eq_true, not_or] at hgo
        exact Option.not_isSome_iff_eq_none.mp hgo.1
      exact ih (looping_onFrame hl hrun h env a frame)

-- ==== the datagram

theorem closes_onPeerClose (htold : c.Told) (hstate : c.closingState = true) (code : Nat)
    (reason : String) : (c.onPeerClose code reason).Closes := by
  unfold onPeerClose
  split
  case isTrue hcount =>
    exact ⟨⟨htold.count, htold.told, fun hne => absurd hcount hne⟩,
      fun _ => .inr (.inr ⟨rfl, rfl, hstate⟩)⟩
  case isFalse hcount =>
    exact ⟨htold, fun _ => (htold.replied hcount).2.elim (fun hd => .inr (.inl hd)) .inl⟩

theorem onward_finishPacket (hl : Looping c l) (hopen : c.done = false)
    (h : Handlers σ ε) (env : LifeEnv ε) (closing : Bool) (packet : PacketIn)
    (hfatal : l.fatalPacketError = true → l.peerClose = none) :
    Onward c (finishPacket h l env closing packet) := by
  have hfinal : ∀ c' : Lifecycle σ, c.state = .disconnected → c'.state = .disconnected := by
    intro c' hd
    simp [done, hd] at hopen
  unfold finishPacket
  split
  case isTrue hf =>
    exact ⟨hl.closing, hfinal _, hl.told, fun hc => hl.running hc (hfatal hf)⟩
  case isFalse =>
    split
    case h_1 code reason hp =>
      have hstate := hl.closed (by simp [hp])
      refine ⟨fun _ => ?_, hfinal _,
        fun hc => (closes_onPeerClose (hl.told hc) hstate code reason).toTold,
        fun hc => closes_onPeerClose (hl.told hc.toTold) hstate code reason⟩
      unfold onPeerClose
      split
      · exact isClosingOrLater_of_closingState hstate
      · exact isClosingOrLater_of_closingState hstate
    case h_2 hp =>
      have hloop : Onward c l.conn := ⟨hl.closing, hfinal _, hl.told, fun hc => hl.running hc hp⟩
      split
      · exact hloop
      · have hab := hloop.trans (onward_absorb l.conn
          (h.received env.rest l.conn.rest (reception l packet)))
        generalize l.conn.absorb (h.received env.rest l.conn.rest (reception l packet))
          = c₁ at hab
        refine hab.trans ?_
        dsimp only
        generalize hc₂ : (if c₁.state = .initialSent && packet.header.types = UTP_TYPE_HANDSHAKE
          then { c₁ with state := .connected, handshakeRetryCount := 0, connTimer := false }
          else c₁) = c₂
        have hconn : Onward c₁ c₂ := by
          rw [← hc₂]
          split
          case isTrue hs =>
            simp only [Bool.and_eq_true, decide_eq_true_eq] at hs
            have hnot : c₁.isClosingOrLater = false := by simp [isClosingOrLater, hs.1]
            have htold : c₁.Told → Told { c₁ with
                state := .connected, handshakeRetryCount := 0, connTimer := false } :=
              fun hc => ⟨hc.count, (fun hd => by cases hd),
                fun hcount => absurd (hc.replied hcount).1 (by simp [hnot])⟩
            exact ⟨fun hcl => absurd hcl (by simp [hnot]), fun hd => absurd hd (by simp [hs.1]),
              htold, fun hc => ⟨htold hc.toTold, (fun hcl => by cases hcl)⟩⟩
          case isFalse => exact .refl c₁
        refine hconn.trans ?_
        split
        · exact onward_absorb _ _
        · exact .refl _

theorem fatal_run (h : Handlers σ ε) (env : LifeEnv ε) (a : Arrival)
    (frames : List (FrameType × List UInt8)) :
    ∀ {l : LifeLoop σ}, (l.fatalPacketError = true → l.peerClose = none) →
      (LifeLoop.run h env a l frames).fatalPacketError = true →
        (LifeLoop.run h env a l frames).peerClose = none := by
  induction frames with
  | nil => exact fun hl => hl
  | cons frame frames ih =>
    intro l hl
    unfold LifeLoop.run
    split
    case isTrue => exact hl
    case isFalse hgo =>
      refine ih fun hf => ?_
      simp only [LifeLoop.stopped, Bool.or_eq_true, not_or, Bool.not_eq_true] at hgo
      have hrun : l.peerClose = none := Option.not_isSome_iff_eq_none.mp (by simp [hgo.1])
      unfold LifeLoop.onFrame at hf ⊢
      split at hf
      · exact absurd hf (by simp [hgo.2])
      · rw [if_neg (by assumption)]
        split at hf
        case h_3 => exact absurd (show l.fatalPacketError = true from hf) (by simp [hgo.2])
        case h_5 =>
          unfold LifeLoop.onRest
          dsimp only
          split <;> exact hrun
        all_goals exact hrun

theorem onward_onUdpPacket (h : Handlers σ ε) (c : Lifecycle σ) (env : LifeEnv ε)
    (source : Address) (msg : List UInt8) : Onward c (c.onUdpPacket h env source msg) := by
  unfold onUdpPacket
  split
  case h_1 => exact .refl c
  case h_2 packet _ =>
    split
    case isTrue => exact onward_arrive h c env source
    case isFalse hopen =>
      have harrive := onward_arrive h c env source
      have hopen' : (c.arrive h env source).done = false := by
        rw [done_congr (arrive_state h c env source)]
        simpa using hopen
      have hl : Looping c { conn := c.arrive h env source } :=
        ⟨hopen', harrive.closing, harrive.told,
          fun hc _ => harrive.closes hc, fun hn => absurd rfl hn⟩
      refine onward_finishPacket (looping_run h env _ packet.frames hl) (by simpa using hopen) h
        env _ packet ?_
      exact fatal_run h env _ packet.frames fun _ => rfl

end Lifecycle

end Eular.Utp
