/-
Where the peer is.

The active address and the path agree, or the path is a candidate whose
challenge is pending: `OnPath`. Most of what a connection does leaves
the path alone (`SamePath`); what does not is a datagram from a new
address, a timeout, and a PATH_RESPONSE (`Switch`).

# What a failed send breaks

`OnPath` holds in every run. Two further facts need every PATH_CHALLENGE
to go out: that the pending challenge was sent to the candidate
(`Asked`), and that the validation timer runs while it is pending
(`Timed`).
-/
import Eular.Utp.Lifecycle.Proofs.ClosedOnce

namespace Eular.Utp

open Lib

variable {σ ε : Type} {c c' c'' : Lifecycle σ} {env : LifeEnv ε} {h : Handlers σ ε}

namespace Lifecycle

-- ==== the invariants

/-- A candidate is being validated: its challenge is pending. -/
structure Candidate (c : Lifecycle σ) : Prop where
  validating : c.networkPath.state = .validating
  pending : c.networkPath.pendingChallenge.isSome = true
  budget : c.networkPath.retryCount ≤ c.networkPath.maxChallengeRetries
  valid : c.networkPath.peerAddress.isValid = true
  ne : c.networkPath.peerAddress ≠ c.peerAddress

/-- The active address is the path's, or the path is a candidate. -/
structure OnPath (c : Lifecycle σ) : Prop where
  valid : c.peerAddress.isValid = true
  retries : 0 < c.networkPath.maxChallengeRetries
  place : (c.networkPath.state = .validated ∧ c.networkPath.peerAddress = c.peerAddress)
    ∨ c.Candidate

/-- While the connection is open, a validation has its timer. -/
def Timed (c : Lifecycle σ) : Prop :=
  c.isClosingOrLater = false → c.networkPath.needPathValidation = true →
    c.pathValidationTimer = true

/-- A PATH_CHALLENGE with these bytes went out to this address. -/
def Challenged (c : Lifecycle σ) (dest : Address) (data : List UInt8) : Prop :=
  ∃ d ∈ c.wire, d.dest = dest ∧ d.payload = .pathChallenge data

/-- The pending challenge went out to the candidate. -/
def Asked (c : Lifecycle σ) : Prop :=
  ∀ data, c.networkPath.pendingChallenge = some data →
    c.Challenged c.networkPath.peerAddress data

/-- What goes elsewhere than to the active address validates a path. -/
def Addressed (ds : List Datagram) : Prop := ∀ d ∈ ds, d.dest = d.active ∨ d.payload.isPath = true

/-- The path is left alone; the timer may stop when the connection closes. -/
structure SamePath (c c' : Lifecycle σ) : Prop where
  path : c'.networkPath = c.networkPath
  peer : c'.peerAddress = c.peerAddress
  closing : c.isClosingOrLater = true → c'.isClosingOrLater = true
  timer : c'.isClosingOrLater = true ∨ c'.pathValidationTimer = c.pathValidationTimer
  sends : ∃ ds, c'.wire = c.wire ++ ds ∧ Addressed ds

/-- What went out stays on the wire. -/
theorem Challenged.mono {dest : Address} {data : List UInt8} (hc : c.Challenged dest data)
    (hsends : ∃ ds, c'.wire = c.wire ++ ds ∧ Addressed ds) : c'.Challenged dest data := by
  obtain ⟨d, hd, hto⟩ := hc
  obtain ⟨ds, hwire, -⟩ := hsends
  exact ⟨d, by rw [hwire]; exact List.mem_append_left ds hd, hto⟩

theorem Addressed.append {ds ds' : List Datagram} (hds : Addressed ds) (hds' : Addressed ds') :
    Addressed (ds ++ ds') := by
  intro d hd
  rcases List.mem_append.mp hd with hd | hd
  · exact hds d hd
  · exact hds' d hd

namespace SamePath

theorem refl (c : Lifecycle σ) : SamePath c c :=
  ⟨rfl, rfl, id, .inr rfl, [], by simp, fun _ hd => absurd hd List.not_mem_nil⟩

theorem trans (hcc' : SamePath c c') (hc' : SamePath c' c'') : SamePath c c'' where
  path := hc'.path.trans hcc'.path
  peer := hc'.peer.trans hcc'.peer
  closing hc := hc'.closing (hcc'.closing hc)
  timer := by
    rcases hc'.timer with hcl | ht
    · exact .inl hcl
    · exact hcc'.timer.imp hc'.closing ht.trans
  sends := by
    obtain ⟨ds, hwire, hds⟩ := hcc'.sends
    obtain ⟨ds', hwire', hds'⟩ := hc'.sends
    exact ⟨ds ++ ds', by rw [hwire', hwire, List.append_assoc], hds.append hds'⟩

theorem of_eq (hpath : c'.networkPath = c.networkPath) (hpeer : c'.peerAddress = c.peerAddress)
    (hclosing : c.isClosingOrLater = true → c'.isClosingOrLater = true)
    (htimer : c'.isClosingOrLater = true ∨ c'.pathValidationTimer = c.pathValidationTimer)
    (hwire : c'.wire = c.wire) : SamePath c c' :=
  ⟨hpath, hpeer, hclosing, htimer, [], by simp [hwire], fun _ hd => absurd hd List.not_mem_nil⟩

theorem candidate (hs : SamePath c c') (hc : c.Candidate) : c'.Candidate where
  validating := hs.path ▸ hc.validating
  pending := hs.path ▸ hc.pending
  budget := hs.path ▸ hc.budget
  valid := hs.path ▸ hc.valid
  ne := by
    rw [hs.path, hs.peer]
    exact hc.ne

theorem onPath (hs : SamePath c c') (hc : c.OnPath) : c'.OnPath where
  valid := hs.peer ▸ hc.valid
  retries := hs.path ▸ hc.retries
  place := by
    refine hc.place.imp (fun hv => ?_) hs.candidate
    rw [hs.path, hs.peer]
    exact hv

/-- A timer that stops belongs to a connection that closes. -/
theorem timed (hs : SamePath c c') (hc : c.Timed) : c'.Timed := by
  intro hopen hneed
  rcases hs.timer with hcl | ht
  · exact absurd hcl (by simp [hopen])
  · rw [ht]
    refine hc ?_ (hs.path ▸ hneed)
    by_contra hcl
    exact absurd (hs.closing (by simpa using hcl)) (by simp [hopen])

theorem asked (hs : SamePath c c') (hc : c.Asked) : c'.Asked := by
  intro data hdata
  rw [hs.path] at hdata ⊢
  exact (hc data hdata).mono hs.sends

theorem addressed (hs : SamePath c c') (hc : Addressed c.wire) : Addressed c'.wire := by
  obtain ⟨ds, hwire, hds⟩ := hs.sends
  rw [hwire]
  exact hc.append hds

end SamePath

-- ==== what leaves the path alone

theorem samePath_scheduleWrite (c : Lifecycle σ) : SamePath c c.scheduleWrite :=
  .of_eq rfl rfl id (.inr rfl) rfl

/-- Closing stops the timer and leaves the path as it is. -/
theorem samePath_beginCloseSent (c : Lifecycle σ) (code : Nat) (reason : String) :
    SamePath c (c.beginCloseSent code reason) := by
  have hclosing := (onward_beginCloseSent c code reason).closing
  unfold beginCloseSent at hclosing ⊢
  split
  · exact .refl c
  · exact .of_eq rfl rfl (fun _ => rfl) (.inl rfl) rfl

theorem samePath_close (c : Lifecycle σ) : SamePath c c.close := by
  unfold close
  split
  · exact .refl c
  · exact samePath_beginCloseSent c _ _

theorem samePath_callback (c : Lifecycle σ) (closes : Bool) :
    SamePath c (c.callback closes) := by
  unfold callback
  split
  · exact samePath_close c
  · exact .refl c

theorem samePath_notifyConnectionClosed (c : Lifecycle σ) (env : LifeEnv ε) (code : Nat)
    (reason : String) (byPeer : Bool) :
    SamePath c (c.notifyConnectionClosed env code reason byPeer) := by
  unfold notifyConnectionClosed
  split
  · exact .refl c
  · refine SamePath.trans ?_ (samePath_callback _ _)
    exact .of_eq rfl rfl id (.inr rfl) rfl

theorem samePath_recordConnectionError (c : Lifecycle σ) (env : LifeEnv ε) (code : Nat)
    (reason : String) : SamePath c (c.recordConnectionError env code reason) := by
  unfold recordConnectionError
  split
  · exact .refl c
  · split
    · exact .refl c
    · refine SamePath.trans ?_ (samePath_callback _ _)
      exact .of_eq rfl rfl id (.inr rfl) rfl

theorem samePath_disconnect (c : Lifecycle σ) (env : LifeEnv ε) (code : Nat) (reason : String)
    (byPeer : Bool) : SamePath c (c.disconnect env code reason byPeer) := by
  unfold disconnect
  refine SamePath.trans ?_ (samePath_notifyConnectionClosed _ env code reason byPeer)
  exact .of_eq rfl rfl (fun _ => rfl) (.inl rfl) rfl

/-- What is sent goes to the active address, or is about a path. -/
theorem samePath_sendPacket (h : Handlers σ ε) (c : Lifecycle σ) (env : LifeEnv ε)
    {dest : Address} {payload : Payload}
    (hdest : dest = c.peerAddress ∨ payload.isPath = true) :
    SamePath c (c.sendPacket h env dest payload).2 := by
  unfold sendPacket
  dsimp only
  split
  · refine ⟨rfl, rfl, id, .inr rfl, [⟨dest, c.peerAddress, payload⟩], rfl, fun d hd => ?_⟩
    rw [List.mem_singleton.mp hd]
    exact hdest
  · exact .of_eq rfl rfl id (.inr rfl) rfl

theorem samePath_sendActive (h : Handlers σ ε) (c : Lifecycle σ) (env : LifeEnv ε)
    (payload : Payload) : SamePath c (c.sendPacket h env c.peerAddress payload).2 :=
  samePath_sendPacket h c env (.inl rfl)

theorem samePath_sendConnectionCloseFrame (h : Handlers σ ε) (c : Lifecycle σ)
    (env : LifeEnv ε) : SamePath c (c.sendConnectionCloseFrame h env).2 :=
  samePath_sendActive h c env c.closePayload

/-- The handlers have no part in the path. -/
theorem samePath_absorb (c : Lifecycle σ) (r : Handled σ) : SamePath c (c.absorb r) := by
  unfold absorb
  refine SamePath.trans ?_ (samePath_callback _ _)
  refine ⟨rfl, rfl, id, .inr rfl, _, rfl, fun d hd => ?_⟩
  obtain ⟨bytes, -, rfl⟩ := List.mem_map.mp hd
  exact .inl rfl

theorem samePath_abortConnection (h : Handlers σ ε) (c : Lifecycle σ) (env : LifeEnv ε)
    (code : Nat) (reason : String) : SamePath c (c.abortConnection h env code reason) := by
  unfold abortConnection
  split
  · exact .refl c
  · refine SamePath.trans ?_ (samePath_notifyConnectionClosed _ env code reason false)
    have hsent : SamePath c { c with
        lastErrorCode := code, lastErrorReason := boundedReason reason, closeErrorCode := code,
        state := .closeSent } :=
      .of_eq rfl rfl (fun _ => rfl) (.inr rfl) rfl
    refine hsent.trans ((samePath_sendConnectionCloseFrame h _ env).trans ?_)
    exact .of_eq rfl rfl id (.inr rfl) rfl

/-- The response goes to where the challenge came from. -/
theorem samePath_handlePathChallengeFrame (h : Handlers σ ε) (c : Lifecycle σ) (env : LifeEnv ε)
    (data : List UInt8) (source : Address) :
    SamePath c (c.handlePathChallengeFrame h env data source) := by
  unfold handlePathChallengeFrame
  split
  · exact .refl c
  · exact samePath_sendPacket h c env (.inr rfl)

theorem samePath_onPeerClose (c : Lifecycle σ) (code : Nat) (reason : String) :
    SamePath c (c.onPeerClose code reason) := by
  unfold onPeerClose
  split
  · exact .of_eq rfl rfl id (.inr rfl) rfl
  · exact .refl c

theorem samePath_drainScheduled (h : Handlers σ ε) (c : Lifecycle σ) (env : LifeEnv ε) :
    SamePath c (c.drainScheduled h env) := by
  have hab := samePath_absorb c (h.onCanWrite env.rest c.rest)
  unfold drainScheduled
  dsimp only
  split
  · exact hab.trans (samePath_scheduleWrite _)
  · refine hab.trans (.of_eq rfl rfl (fun _ => closeFrameOut_closing _)
      (.inl (closeFrameOut_closing _)) rfl)

theorem samePath_writeClosing (h : Handlers σ ε) (c : Lifecycle σ) (env : LifeEnv ε) :
    SamePath c (c.writeClosing h env) := by
  unfold writeClosing
  split
  · exact .refl c
  · split
    · exact samePath_drainScheduled h c env
    · have hsend : SamePath c (c.sendConnectionCloseFrame h env).2 :=
        samePath_sendPacket h c env (.inl rfl)
      generalize c.sendConnectionCloseFrame h env = r at hsend ⊢
      obtain ⟨code, c₁⟩ := r
      dsimp only at hsend ⊢
      split
      · split
        · exact hsend.trans (samePath_drainScheduled h c₁ env)
        · exact hsend.trans (.of_eq rfl rfl (fun _ => closeFrameOut_closing _)
            (.inl (closeFrameOut_closing _)) rfl)
      · split
        · exact hsend.trans (samePath_scheduleWrite _)
        · refine hsend.trans (SamePath.trans ?_ (samePath_scheduleWrite _))
          refine SamePath.trans ?_ (samePath_disconnect _ env _ _ _)
          refine SamePath.trans ?_ (samePath_recordConnectionError _ env _ _)
          exact .of_eq rfl rfl id (.inr rfl) rfl

theorem samePath_failBeforeSent (c : Lifecycle σ) (env : LifeEnv ε) (code : Nat)
    (reason : String) : SamePath c (c.failBeforeSent env code reason) := by
  have hend : (c.failBeforeSent env code reason).isClosingOrLater = true := by
    simp [failBeforeSent, isClosingOrLater]
  have hrecord := samePath_recordConnectionError c env code reason
  unfold failBeforeSent at hend ⊢
  dsimp only at hend ⊢
  generalize c.recordConnectionError env code reason = c₁ at hrecord hend ⊢
  have hdisc := samePath_disconnect { c₁ with connTimer := false, pathValidationTimer := false }
    env (lastErrorOr { c₁ with connTimer := false, pathValidationTimer := false } code reason).1
    (lastErrorOr { c₁ with connTimer := false, pathValidationTimer := false } code reason).2 false
  refine ⟨hdisc.path.trans hrecord.path, hdisc.peer.trans hrecord.peer, fun _ => hend,
    .inl hend, ?_⟩
  obtain ⟨ds, hwire, hds⟩ := hrecord.sends
  obtain ⟨ds', hwire', hds'⟩ := hdisc.sends
  exact ⟨ds ++ ds', by rw [hwire', ← List.append_assoc]; exact congrArg (· ++ ds') hwire,
    hds.append hds'⟩

theorem samePath_writeInitial (hstate : c.state = .waitSendInitial) (h : Handlers σ ε)
    (env : LifeEnv ε) : SamePath c (c.writeInitial h env).2 := by
  have hsent : ∀ c₁ : Lifecycle σ, c₁.state = .waitSendInitial →
      SamePath c₁ { c₁ with state := .initialSent, connTimer := env.timerArmed } := by
    intro c₁ hs
    exact .of_eq rfl rfl (fun hcl => by simp [isClosingOrLater, hs] at hcl) (.inr rfl) rfl
  unfold writeInitial
  split
  next code c₁ heq =>
    have hc₁ : c₁.state = .waitSendInitial ∧ SamePath c c₁ := by
      split at heq
      · obtain ⟨-, rfl⟩ := Prod.mk.inj heq
        exact ⟨hstate, .refl c⟩
      · have hsend := @samePath_sendPacket _ _ h c env _ (.other (h.initial c.rest))
          (.inl (rfl : c.peerAddress = c.peerAddress))
        have hs := sendPacket_state h c env c.peerAddress (.other (h.initial c.rest))
        rw [heq] at hsend hs
        exact ⟨hs.trans hstate, hsend⟩
    split
    · exact hc₁.2.trans (samePath_failBeforeSent c₁ env _ _)
    · dsimp only
      split
      · exact hc₁.2.trans (hsent c₁ hc₁.1)
      · exact (hc₁.2.trans (hsent c₁ hc₁.1)).trans (samePath_failBeforeSent _ env _ _)

theorem samePath_connTimedOut (c : Lifecycle σ) (env : LifeEnv ε) :
    SamePath c (c.connTimedOut env) := by
  unfold connTimedOut
  dsimp only
  exact ((samePath_recordConnectionError c env _ _).trans (samePath_disconnect _ env _ _ _)).trans
    (samePath_scheduleWrite _)

/-- A handshake has no path to validate yet. -/
theorem samePath_onConnTimeout (h : Handlers σ ε) (c : Lifecycle σ) (env : LifeEnv ε)
    (readable : Bool) : SamePath c (c.onConnTimeout h env readable) := by
  unfold onConnTimeout
  split
  · exact .refl c
  · split
    · split
      · exact .of_eq rfl rfl id (.inr rfl) rfl
      · split
        · have hsend := samePath_sendActive h c env (.other (h.initial c.rest))
          dsimp only
          split
          · exact hsend.trans (.of_eq rfl rfl id (.inr rfl) rfl)
          · split
            · refine (hsend.trans (samePath_scheduleWrite _)).trans ?_
              exact .of_eq rfl rfl id (.inr rfl) rfl
            · exact (hsend.trans (samePath_recordConnectionError _ env _ _)).trans
                (samePath_connTimedOut _ env)
        · exact samePath_connTimedOut c env
    · exact samePath_connTimedOut c env

theorem samePath_onKeepaliveTimeout (h : Handlers σ ε) (c : Lifecycle σ) (env : LifeEnv ε)
    (allMissed : Bool) : SamePath c (c.onKeepaliveTimeout h env allMissed) := by
  unfold onKeepaliveTimeout
  split
  · exact .refl c
  · split
    · exact (samePath_recordConnectionError c env _ _).trans (samePath_abortConnection h _ env _ _)
    · exact samePath_sendPacket h c env (.inl rfl)

theorem samePath_onCloseDrainTimeout (c : Lifecycle σ) (env : LifeEnv ε) :
    SamePath c (c.onCloseDrainTimeout env) := by
  unfold onCloseDrainTimeout
  split
  · exact .refl c
  · exact (samePath_disconnect c env _ _ _).trans (samePath_scheduleWrite _)

end Lifecycle

end Eular.Utp
