/-
Every run of a connection, from its first packet to its end.

`onWrite` sends the CONNECTION_CLOSE and hands over to the drain timer;
the timers end what nobody answers. With the datagrams of `Closing` that
is every event, so `Onward` holds of every step.
-/
import Eular.Lib.Run
import Eular.Utp.Lifecycle.Proofs.Closing

namespace Eular.Utp

open Lib

variable {σ ε : Type} {c c' : Lifecycle σ} {env : LifeEnv ε} {h : Handlers σ ε}

namespace Lifecycle

-- ==== the writer

/-- The CONNECTION_CLOSE waits to be written. -/
structure Pending (c : Lifecycle σ) : Prop extends c.Told where
  pending : c.closeFramePending = true
  closingState : c.closingState = true

theorem Pending.callback (hc : c.Pending) (closes : Bool) : (c.callback closes).Pending := by
  have hdone := done_of_closingState hc.closingState
  refine ⟨(onward_callback c closes).told hc.toTold, ?_, ?_⟩
  · unfold Lifecycle.callback close beginCloseSent
    split
    · split
      · exact hc.pending
      · rw [if_neg (by simp [hdone])]
        rfl
    · exact hc.pending
  · rcases callback_state c closes with hs | hs
    · have hcs := hc.closingState
      simp only [Lifecycle.closingState, hs] at hcs ⊢
      exact hcs
    · simp [Lifecycle.closingState, hs]

theorem Pending.absorb (hc : c.Pending) (r : Handled σ) : (c.absorb r).Pending := by
  unfold Lifecycle.absorb
  exact Pending.callback (c := { c with rest := r.rest, wire := _ })
    ⟨⟨hc.count, hc.told, hc.replied⟩, hc.pending, hc.closingState⟩ _

theorem Pending.scheduleWrite (hc : c.Pending) : c.scheduleWrite.Closes :=
  ⟨⟨hc.count, hc.told, hc.replied⟩, fun _ => .inr (.inr ⟨hc.pending, rfl, hc.closingState⟩)⟩

theorem closeFrameOut_state (c : Lifecycle σ) :
    c.closeFrameOut.state = .closeReceived ∨ c.closeFrameOut.state = .ptoTimedWait := by
  unfold Lifecycle.closeFrameOut enterPtoTimedWait
  dsimp only
  split
  case isTrue => exact .inr rfl
  case isFalse hr => exact .inl (by simpa using hr)

theorem closeFrameOut_closing (c : Lifecycle σ) : c.closeFrameOut.isClosingOrLater = true := by
  rcases closeFrameOut_state c with hs | hs
  · simp [isClosingOrLater, hs]
  · simp [isClosingOrLater, hs]

theorem Pending.closeFrameOut (hc : c.Pending) : c.closeFrameOut.Closes := by
  refine ⟨⟨hc.count, fun hd => ?_, fun _ => ⟨closeFrameOut_closing c, .inl rfl⟩⟩,
    fun _ => .inr (.inl rfl)⟩
  rcases closeFrameOut_state c with hs | hs
  · exact absurd (hs.symm.trans hd) (by simp)
  · exact absurd (hs.symm.trans hd) (by simp)

theorem Pending.drainScheduled (hc : c.Pending) (h : Handlers σ ε) (env : LifeEnv ε) :
    (c.drainScheduled h env).Closes := by
  have hab := hc.absorb (h.onCanWrite env.rest c.rest)
  unfold Lifecycle.drainScheduled
  dsimp only
  split
  · exact hab.scheduleWrite
  · exact hab.closeFrameOut

theorem Pending.writeClosing (hc : c.Pending) (h : Handlers σ ε) (env : LifeEnv ε) :
    (c.writeClosing h env).Closes := by
  unfold Lifecycle.writeClosing
  rw [if_neg (by simp [hc.pending])]
  split
  · exact hc.drainScheduled h env
  · unfold sendConnectionCloseFrame
    obtain ⟨_, rest, wire, heq⟩ := sendPacket_eq h c env c.peerAddress c.closePayload
    rw [heq]
    have hsent : Pending ({ c with rest, wire } : Lifecycle σ) :=
      ⟨⟨hc.count, hc.told, hc.replied⟩, hc.pending, hc.closingState⟩
    dsimp only
    split
    · split
      · exact hsent.drainScheduled h env
      · exact hsent.closeFrameOut
    · split
      · exact hsent.scheduleWrite
      · refine (onward_scheduleWrite _).closes (closes_disconnect ?_ env _ _ _)
        refine ((onward_recordConnectionError _ env _ _).told ?_).count
        exact ⟨hc.count, hc.told, hc.replied⟩

theorem callback_rest (c : Lifecycle σ) (closes : Bool) : (c.callback closes).rest = c.rest := by
  unfold callback close beginCloseSent
  split_ifs <;> rfl

theorem absorb_rest (c : Lifecycle σ) (r : Handled σ) : (c.absorb r).rest = r.rest := by
  unfold absorb
  exact callback_rest _ _

theorem sendPacket_answer (h : Handlers σ ε) (c : Lifecycle σ) (env : LifeEnv ε) (dest : Address)
    (payload : Payload) :
    ∃ wire, c.sendPacket h env dest payload = ((h.sendPacket env.rest c.rest dest payload).1,
      { c with rest := (h.sendPacket env.rest c.rest dest payload).2, wire }) := by
  unfold sendPacket
  dsimp only
  split
  · exact ⟨_, rfl⟩
  · exact ⟨c.wire, rfl⟩

/-- The write of the CONNECTION_CLOSE is asked for. -/
def WriteArmed (c : Lifecycle σ) : Prop :=
  c.closeFramePending = true ∧ c.wantWrite = true ∧ c.closingState = true

/-- A write gets the CONNECTION_CLOSE out: the socket does not say to wait, and the send control
keeps nothing back. Where packets are scheduled already, they are all that is written. -/
def CloseGoesOut (h : Handlers σ ε) (env : LifeEnv ε) (c : Lifecycle σ) : Prop :=
  if h.scheduled c.rest then h.scheduled (h.onCanWrite env.rest c.rest).rest = false
  else
    let r := h.sendPacket env.rest c.rest c.peerAddress c.closePayload
    r.1 ≠ UTP_ERR_WOULD_BLOCK ∧ (r.1 = UTP_ERR_OK → h.scheduled r.2 = true →
      h.scheduled (h.onCanWrite env.rest r.2).rest = false)

theorem drainScheduled_out
    (hnone : h.scheduled (h.onCanWrite env.rest c.rest).rest = false) :
    (c.drainScheduled h env).closeDrainTimer = true := by
  unfold drainScheduled
  dsimp only
  rw [absorb_rest, if_neg (by simp [hnone])]
  rfl

theorem Pending.drainScheduled_kept (hc : c.Pending)
    (hleft : h.scheduled (h.onCanWrite env.rest c.rest).rest = true) :
    (c.drainScheduled h env).WriteArmed := by
  have hab := hc.absorb (h.onCanWrite env.rest c.rest)
  unfold Lifecycle.drainScheduled
  dsimp only
  rw [absorb_rest, if_pos hleft]
  exact ⟨hab.pending, rfl, hab.closingState⟩

/-- The write either leads on to the drain timer or the end, or is asked for again. -/
theorem Pending.writeClosing_cases (hc : c.Pending) :
    (CloseGoesOut h env c → (c.writeClosing h env).closeDrainTimer = true
        ∨ (c.writeClosing h env).state = .disconnected)
      ∧ (¬ CloseGoesOut h env c → (c.writeClosing h env).WriteArmed) := by
  have hpending : ¬ ((!c.closeFramePending) = true) := by simp [hc.pending]
  unfold Lifecycle.writeClosing
  rw [if_neg hpending]
  by_cases hsched : h.scheduled c.rest = true
  · unfold CloseGoesOut
    rw [if_pos hsched, if_pos hsched]
    exact ⟨fun hnone => .inl (drainScheduled_out hnone),
      fun hleft => hc.drainScheduled_kept (by simpa using hleft)⟩
  · unfold CloseGoesOut sendConnectionCloseFrame
    obtain ⟨wire, heq⟩ := sendPacket_answer h c env c.peerAddress c.closePayload
    rw [if_neg hsched, if_neg hsched, heq]
    dsimp only
    generalize h.sendPacket env.rest c.rest c.peerAddress c.closePayload = r
    have hsent : Pending ({ c with rest := r.2, wire } : Lifecycle σ) :=
      ⟨⟨hc.count, hc.told, hc.replied⟩, hc.pending, hc.closingState⟩
    by_cases hok : r.1 = UTP_ERR_OK
    · have hgo : r.1 ≠ UTP_ERR_WOULD_BLOCK := by
        rw [hok]
        decide
      rw [if_pos hok]
      by_cases hleft : h.scheduled r.2 = true
      · rw [if_pos hleft]
        refine ⟨fun hout => .inl (drainScheduled_out (hout.2 hok hleft)), fun hno => ?_⟩
        exact hsent.drainScheduled_kept (by
          by_contra hnone
          exact hno ⟨hgo, fun _ _ => by simpa using hnone⟩)
      · rw [if_neg hleft]
        exact ⟨fun _ => .inl rfl, fun hno => absurd ⟨hgo, fun _ h => absurd h hleft⟩ hno⟩
    · rw [if_neg hok]
      by_cases hblock : r.1 = UTP_ERR_WOULD_BLOCK
      · rw [if_pos hblock]
        exact ⟨fun hout => absurd hblock hout.1,
          fun _ => ⟨hsent.pending, rfl, hsent.closingState⟩⟩
      · rw [if_neg hblock]
        refine ⟨fun _ => .inr ?_, fun hno => absurd ⟨hblock, fun h => absurd h hok⟩ hno⟩
        exact disconnect_state _ env _ _ _

theorem onward_writeClosing (hstate : c.closingState = true) (h : Handlers σ ε)
    (env : LifeEnv ε) : (c.Told → (writeClosing h { c with wantWrite := false } env).Told)
      ∧ (c.Closes → (writeClosing h { c with wantWrite := false } env).Closes) := by
  by_cases hp : c.closeFramePending = true
  · have hpend : c.Told → Pending ({ c with wantWrite := false } : Lifecycle σ) :=
      fun hc => ⟨⟨hc.count, hc.told, hc.replied⟩, hp, hstate⟩
    exact ⟨fun hc => ((hpend hc).writeClosing h env).toTold,
      fun hc => (hpend hc.toTold).writeClosing h env⟩
  · unfold Lifecycle.writeClosing
    rw [if_pos (by simpa using hp)]
    refine ⟨fun hc => ⟨hc.count, hc.told, hc.replied⟩,
      fun hc => ⟨⟨hc.count, hc.told, hc.replied⟩, fun hcl => (hc.armed hcl).imp_right ?_⟩⟩
    rintro (hd | ⟨hpending, -, -⟩)
    · exact .inl hd
    · exact absurd hpending hp

theorem writeClosing_closing (h : Handlers σ ε) (c : Lifecycle σ) (env : LifeEnv ε)
    (hstate : c.closingState = true) : (writeClosing h c env).isClosingOrLater = true := by
  have hdrain : ∀ c' : Lifecycle σ, c'.closingState = true →
      (c'.drainScheduled h env).isClosingOrLater = true := by
    intro c' hc'
    have hab := (onward_absorb c' (h.onCanWrite env.rest c'.rest)).closing
      (isClosingOrLater_of_closingState hc')
    unfold drainScheduled
    dsimp only
    split
    · exact hab
    · exact closeFrameOut_closing _
  have hclosing := isClosingOrLater_of_closingState hstate
  unfold writeClosing
  split
  · exact hclosing
  · split
    · exact hdrain c hstate
    · unfold sendConnectionCloseFrame
      obtain ⟨_, rest, wire, heq⟩ := sendPacket_eq h c env c.peerAddress c.closePayload
      rw [heq]
      dsimp only
      split
      · split
        · exact hdrain _ hstate
        · exact closeFrameOut_closing _
      · split
        · exact hclosing
        · exact (onward_scheduleWrite _).closing (by simp [isClosingOrLater])

theorem onward_of_open (hopen : c.isClosingOrLater = false) (hstate : c'.state = c.state)
    (hcount : c'.closePeerResendCount = c.closePeerResendCount)
    (hnotified : c'.closedNotified = c.closedNotified) (hclosed : c'.closed = c.closed) :
    Onward c c' := by
  have hopen' : c'.isClosingOrLater = false := by
    simpa only [isClosingOrLater, hstate] using hopen
  have htold : c.Told → c'.Told := by
    intro hc
    refine ⟨by rw [hclosed, hnotified]; exact hc.count, fun hd => ?_, fun hne => ?_⟩
    · rw [hnotified]
      exact hc.told (hstate.symm.trans hd)
    · exact absurd (hc.replied (hcount ▸ hne)).1 (by simp [hopen])
  exact ⟨fun hcl => absurd hcl (by simp [hopen]), fun hd => hstate.trans hd, htold,
    fun hc => ⟨htold hc.toTold, fun hcl => absurd hcl (by simp [hopen'])⟩⟩

theorem onward_failBeforeSent (c : Lifecycle σ) (env : LifeEnv ε) (code : Nat) (reason : String) :
    Onward c (c.failBeforeSent env code reason) := by
  unfold failBeforeSent
  dsimp only
  refine (onward_recordConnectionError c env code reason).trans (Onward.trans ?_
    (onward_disconnect _ env _ _ false))
  exact .of_same rfl rfl rfl id rfl rfl rfl

theorem onward_writeInitial (hstate : c.state = .waitSendInitial) (h : Handlers σ ε)
    (env : LifeEnv ε) : Onward c (c.writeInitial h env).2 := by
  have hsent : ∀ c₁ : Lifecycle σ, c₁.state = .waitSendInitial →
      Onward c₁ { c₁ with state := .initialSent, connTimer := env.timerArmed } := by
    intro c₁ hs
    have hopen : c₁.isClosingOrLater = false := by simp [isClosingOrLater, hs]
    have htold : c₁.Told → Told { c₁ with state := .initialSent, connTimer := env.timerArmed } :=
      fun hc => ⟨hc.count, (fun hd => by cases hd),
        fun hne => absurd (hc.replied hne).1 (by simp [hopen])⟩
    exact ⟨fun hcl => absurd hcl (by simp [hopen]), fun hd => absurd hd (by simp [hs]), htold,
      fun hc => ⟨htold hc.toTold, (fun hcl => by cases hcl)⟩⟩
  have hgo : ∀ c₁ : Lifecycle σ, c₁.state = .waitSendInitial → Onward c c₁ → ∀ code : Nat,
      Onward c (if code ≠ UTP_ERR_OK then
          (false, c₁.failBeforeSent env code "send initial packet failed")
        else if env.timerArmed then
          (true, { c₁ with state := .initialSent, connTimer := env.timerArmed })
        else
          (false, failBeforeSent { c₁ with state := .initialSent, connTimer := env.timerArmed } env
            UTP_ERR_SOCKET_EVENT "failed to start connection timer")).2 := by
    intro c₁ hs hon code
    split
    · exact hon.trans (onward_failBeforeSent c₁ env _ _)
    · split
      · exact hon.trans (hsent c₁ hs)
      · exact (hon.trans (hsent c₁ hs)).trans (onward_failBeforeSent _ env _ _)
  unfold writeInitial
  split
  next code c₁ heq =>
    split at heq
    · obtain ⟨rfl, rfl⟩ := Prod.mk.inj heq
      exact hgo c hstate (.refl c) _
    · obtain ⟨_, rest, wire, hsend⟩ := sendPacket_eq h c env c.peerAddress
        (.other (h.initial c.rest))
      obtain ⟨rfl, rfl⟩ := Prod.mk.inj (hsend.symm.trans heq)
      refine hgo { c with rest, wire } hstate ?_ _
      exact .of_same rfl rfl rfl id rfl rfl rfl

theorem onward_writeOpen (h : Handlers σ ε) (c : Lifecycle σ) (env : LifeEnv ε) :
    Onward c (c.writeOpen h env) := by
  have hearly : Onward c (c.writeEarly h env) := onward_absorb c _
  unfold writeOpen
  dsimp only
  refine Onward.trans ?_ (onward_absorb _ _)
  split
  · exact hearly.trans (onward_maybeSendPathChallenge h _ env)
  · exact hearly

theorem onward_onWrite (h : Handlers σ ε) (c : Lifecycle σ) (env : LifeEnv ε) :
    Onward c (c.onWrite h env) := by
  unfold onWrite
  dsimp only
  split
  case isTrue hdone =>
    -- at the PTO wait and after, the pending write no longer counts
    have hdone : c.done = true := hdone
    refine ⟨id, id, fun hc => ⟨hc.count, hc.told, hc.replied⟩,
      fun hc => ⟨⟨hc.count, hc.told, hc.replied⟩, fun hcl => (hc.armed hcl).imp_right ?_⟩⟩
    rintro (hd | ⟨-, -, hs⟩)
    · exact .inl hd
    · exact absurd hdone (by simp [done_of_closingState hs])
  case isFalse hdone =>
    have hnot : c.done = false := by simpa [done] using hdone
    split
    case isTrue hstate =>
      have hstate : c.closingState = true := hstate
      have hclosing := writeClosing_closing h { c with wantWrite := false } env hstate
      refine ⟨fun _ => hclosing, fun hd => ?_, fun hc => ?_, fun hc => ?_⟩
      · simp [done, hd] at hnot
      · exact (onward_writeClosing hstate h env).1 hc
      · exact (onward_writeClosing hstate h env).2 hc
    case isFalse hstate =>
      have hopen : c.isClosingOrLater = false := by
        by_contra hcl
        rcases closing_cases (by simpa using hcl) with hs | hs
        · exact hstate hs
        · simp [hnot] at hs
      have hw : Onward c { c with wantWrite := false } :=
        onward_of_open hopen rfl rfl rfl rfl
      split
      case isTrue hwait =>
        have hinit := onward_writeInitial (c := { c with wantWrite := false }) hwait h env
        split
        · exact (hw.trans hinit).trans (onward_writeOpen h _ env)
        · exact hw.trans hinit
      case isFalse => exact hw.trans (onward_writeOpen h _ env)

-- ==== timers

theorem onward_connTimedOut (c : Lifecycle σ) (env : LifeEnv ε) :
    Onward c (c.connTimedOut env) := by
  unfold connTimedOut
  dsimp only
  exact ((onward_recordConnectionError c env _ _).trans (onward_disconnect _ env _ _ _)).trans
    (onward_scheduleWrite _)

theorem onward_onConnTimeout (h : Handlers σ ε) (c : Lifecycle σ) (env : LifeEnv ε)
    (readable : Bool) : Onward c (c.onConnTimeout h env readable) := by
  unfold onConnTimeout
  split
  · exact .refl c
  · split
    · split
      · exact .of_same rfl rfl rfl id rfl rfl rfl
      · split
        · have hsend := onward_sendPacket h c env c.peerAddress (.other (h.initial c.rest))
          dsimp only
          split
          · exact hsend.trans (.of_same rfl rfl rfl id rfl rfl rfl)
          · split
            · refine (hsend.trans (onward_scheduleWrite _)).trans ?_
              exact .of_same rfl rfl rfl id rfl rfl rfl
            · exact (hsend.trans (onward_recordConnectionError _ env _ _)).trans
                (onward_connTimedOut _ env)
        · exact onward_connTimedOut c env
    · exact onward_connTimedOut c env

theorem onward_onKeepaliveTimeout (h : Handlers σ ε) (c : Lifecycle σ) (env : LifeEnv ε)
    (allMissed : Bool) : Onward c (c.onKeepaliveTimeout h env allMissed) := by
  unfold onKeepaliveTimeout
  split
  · exact .refl c
  · split
    · exact (onward_recordConnectionError c env _ _).trans (onward_abortConnection h _ env _ _)
    · exact onward_sendPacket h c env _ _

theorem onCloseDrainTimeout_state (hclosing : c.isClosingOrLater = true) (env : LifeEnv ε) :
    (c.onCloseDrainTimeout env).state = .disconnected := by
  unfold onCloseDrainTimeout
  split
  case isTrue hnot =>
    rcases c with ⟨state⟩
    cases state <;> simp_all [isClosingOrLater]
  case isFalse => exact disconnect_state c env _ _ _

theorem onward_closeDrainTimeout (c : Lifecycle σ) (env : LifeEnv ε) :
    Onward c (onCloseDrainTimeout { c with closeDrainTimer := false } env) := by
  by_cases hclosing : c.isClosingOrLater = true
  · have hend := onCloseDrainTimeout_state (c := { c with closeDrainTimer := false }) hclosing env
    have hcloses : c.Told →
        (onCloseDrainTimeout { c with closeDrainTimer := false } env).Closes := by
      intro hc
      unfold onCloseDrainTimeout
      split
      case isTrue hnot =>
        have hd : c.state = .disconnected := by
          rcases c with ⟨state⟩
          cases state <;> simp_all [isClosingOrLater]
        exact ⟨⟨hc.count, hc.told, fun hne => ⟨hclosing, .inr hd⟩⟩, fun _ => .inl hd⟩
      case isFalse =>
        refine (onward_scheduleWrite _).closes (closes_disconnect ?_ env _ _ _)
        exact hc.count
    exact ⟨fun _ => by simp [isClosingOrLater, hend], fun _ => hend,
      fun hc => (hcloses hc).toTold, fun hc => hcloses hc.toTold⟩
  · have hsame : onCloseDrainTimeout { c with closeDrainTimer := false } env
        = { c with closeDrainTimer := false } := by
      unfold onCloseDrainTimeout
      rw [if_pos]
      rcases c with ⟨state⟩
      cases state <;> simp_all [isClosingOrLater]
    rw [hsame]
    exact onward_of_open (by simpa using hclosing) rfl rfl rfl rfl

-- ==== runs

theorem onward_step (h : Handlers σ ε) (c : Lifecycle σ) (op : LifeOp ε) :
    Onward c (c.step h op) := by
  cases op with
  | datagram env source msg => exact onward_onUdpPacket h c env source.address msg
  | write env =>
    show Onward c (if c.wantWrite then c.onWrite h env else c)
    split
    · exact onward_onWrite h c env
    · exact .refl c
  | connTimeout env readable =>
    show Onward c (if c.connTimer then onConnTimeout h { c with connTimer := false } env readable
      else c)
    split
    · refine Onward.trans ?_ (onward_onConnTimeout h _ env readable)
      exact .of_same rfl rfl rfl id rfl rfl rfl
    · exact .refl c
  | pathValidationTimeout env =>
    show Onward c (if c.pathValidationTimer then
      onPathValidationTimeout h { c with pathValidationTimer := false } env else c)
    split
    · refine Onward.trans ?_ (onward_onPathValidationTimeout h _ env)
      exact .of_same rfl rfl rfl id rfl rfl rfl
    · exact .refl c
  | closeDrainTimeout env =>
    show Onward c (if c.closeDrainTimer then
      onCloseDrainTimeout { c with closeDrainTimer := false } env else c)
    split
    · exact onward_closeDrainTimeout c env
    · exact .refl c
  | keepaliveTimeout env allMissed => exact onward_onKeepaliveTimeout h c env allMissed
  | close => exact onward_close c
  | event env => exact onward_absorb c _

theorem onward_run (h : Handlers σ ε) (ops : List (LifeOp ε)) :
    ∀ c : Lifecycle σ, Onward c (run (step h) c ops) := by
  induction ops with
  | nil => exact Onward.refl
  | cons op ops ih => exact fun c => (onward_step h c op).trans (ih _)

theorem closes_start (o : Opening σ) : o.start.Closes := by
  cases o with
  | connect =>
    exact ⟨⟨rfl, (fun hd => by cases hd), fun hne => absurd rfl hne⟩, fun hcl => by cases hcl⟩
  | initPassive =>
    exact ⟨⟨rfl, (fun hd => by cases hd), fun hne => absurd rfl hne⟩, fun hcl => by cases hcl⟩

/-- Closing is one-way and is reported once. Whatever happens to a
connection, it leaves neither the closing states nor `Disconnected`; the
application is never told twice that it closed, and has been told when
`Disconnected` is reached; and until then a closing connection has its
drain timer running, which ends it, or its CONNECTION_CLOSE to write. That
write starts the drain timer or ends the connection as soon as the packet
goes out, and is asked for again where it does not. -/
theorem closing_run (h : Handlers σ ε) (o : Opening σ) (ops ops' : List (LifeOp ε)) :
    let c := run (step h) o.start ops
    let c' := run (step h) c ops'
    (c.isClosingOrLater = true → c'.isClosingOrLater = true)
      ∧ (c.state = .disconnected → c'.state = .disconnected)
      ∧ c.closed.length ≤ 1
      ∧ (c.state = .disconnected → c.closed.length = 1)
      ∧ (c.isClosingOrLater = true → c.state ≠ .disconnected → c.Armed)
      ∧ (c.isClosingOrLater = true → c.closeDrainTimer = true →
          ∀ env, (c.step h (.closeDrainTimeout env)).state = .disconnected)
      ∧ (c.isClosingOrLater = true → c.state ≠ .disconnected → c.closeDrainTimer = false →
          ∀ env, (CloseGoesOut h env c → (c.step h (.write env)).closeDrainTimer = true
              ∨ (c.step h (.write env)).state = .disconnected)
            ∧ (¬ CloseGoesOut h env c → (c.step h (.write env)).WriteArmed)) := by
  intro c c'
  have hcloses : c.Closes := (onward_run h ops o.start).closes (closes_start o)
  have honward : Onward c c' := onward_run h ops' c
  refine ⟨honward.closing, honward.final, ?_, fun hd => ?_, fun hcl hne => ?_,
    fun hcl hdrain env => ?_, fun hcl hne hdrain env => ?_⟩
  · rw [hcloses.count]
    split <;> simp
  · rw [hcloses.count, hcloses.told hd, if_pos rfl]
  · exact (hcloses.armed hcl).resolve_left hne
  · show (if c.closeDrainTimer then
      onCloseDrainTimeout { c with closeDrainTimer := false } env else c).state = _
    rw [if_pos hdrain]
    exact onCloseDrainTimeout_state (c := { c with closeDrainTimer := false }) hcl env
  · -- without the drain timer it is the write that is armed
    obtain ⟨hpending, hwrite, hstate⟩ := ((hcloses.armed hcl).resolve_left hne).resolve_left
      (by simp [hdrain])
    have hc : Pending ({ c with wantWrite := false } : Lifecycle σ) :=
      ⟨⟨hcloses.count, hcloses.told, hcloses.replied⟩, hpending, hstate⟩
    have hstep : c.step h (.write env) = writeClosing h { c with wantWrite := false } env := by
      show (if c.wantWrite then c.onWrite h env else c) = _
      unfold onWrite
      rw [if_pos hwrite, if_neg (by simpa [done] using done_of_closingState hstate)]
      exact if_pos hstate
    rw [hstep]
    exact hc.writeClosing_cases

end Lifecycle

end Eular.Utp
