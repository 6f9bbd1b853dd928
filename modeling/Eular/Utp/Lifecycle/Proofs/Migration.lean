/-
How the peer's address changes.

A datagram from elsewhere makes its source the candidate and asks it a
question; a timeout asks again, or gives up and binds the path back to
the active address; a PATH_RESPONSE with the right bytes makes the
candidate the active address. Nothing else touches the path.

# The gate

A packet that does not come from the active address comes from the
candidate, since it has just made it one: `arrive_candidate`. So the
frame loop passes over everything in it but path validation and
CONNECTION_CLOSE.
-/
import Eular.Utp.Lifecycle.Proofs.PathInvariant

namespace Eular.Utp

open Lib

variable {σ ε : Type} {c c' c'' : Lifecycle σ} {env : LifeEnv ε} {h : Handlers σ ε}

namespace Lifecycle

-- ==== one challenge

/-- A path that may be asked: it is being validated, nothing is pending, and
the budget is not used up. -/
structure Askable (c : Lifecycle σ) : Prop where
  validating : c.networkPath.state = .validating
  idle : c.networkPath.pendingChallenge = none
  budget : c.networkPath.retryCount < c.networkPath.maxChallengeRetries
  valid : c.networkPath.peerAddress.isValid = true
  peer : c.peerAddress.isValid = true
  ne : c.networkPath.peerAddress ≠ c.peerAddress

/-- `sendPacket` takes the PATH_CHALLENGE. -/
def ChallengeSent (h : Handlers σ ε) (c : Lifecycle σ) (env : LifeEnv ε) : Prop :=
  (h.sendPacket env.rest c.rest c.networkPath.peerAddress (.pathChallenge env.challenge)).1
    = UTP_ERR_OK

def asked (path : NetworkPath) (env : LifeEnv ε) : NetworkPath :=
  { path with
    pendingChallenge := some env.challenge
    challengeDeadlineMs := env.nowMs + path.challengeTimeoutMs
    retryCount := path.retryCount + 1 }

theorem Askable.makePathChallenge (hc : c.Askable) (env : LifeEnv ε) :
    c.networkPath.challengeStatus env.nowMs = UTP_ERR_OK
      ∧ c.networkPath.makePathChallenge env.nowMs env.challenge = asked c.networkPath env := by
  have hretry : c.networkPath.canRetryChallenge = true := by
    simpa [NetworkPath.canRetryChallenge] using hc.budget
  unfold NetworkPath.challengeStatus NetworkPath.makePathChallenge asked
  rw [if_neg (by simp [hc.validating]), if_neg (by simp [hc.idle]), if_neg (by simp [hretry]),
    if_neg (by simp [hc.validating]), if_neg (by simp [hc.idle]), if_neg (by simp [hretry])]
  exact ⟨rfl, rfl⟩

/-- What asking leaves: the path with its pending challenge and, if the
packet went out, the timer and the packet. -/
theorem Askable.maybeSendPathChallenge (hc : c.Askable) (h : Handlers σ ε) (env : LifeEnv ε) :
    ∃ rest, (c.maybeSendPathChallenge h env
      = { c with rest, networkPath := asked c.networkPath env }
        ∧ ¬ChallengeSent h c env)
      ∨ (c.maybeSendPathChallenge h env = { c with
            rest
            networkPath := asked c.networkPath env
            pathValidationTimer := true
            wire := c.wire
              ++ [⟨c.networkPath.peerAddress, c.peerAddress, .pathChallenge env.challenge⟩] }
          ∧ ChallengeSent h c env) := by
  have hneed : c.networkPath.needPathValidation = true := by
    simp [NetworkPath.needPathValidation, hc.validating]
  obtain ⟨hstatus, hpath⟩ := hc.makePathChallenge env
  unfold Lifecycle.maybeSendPathChallenge
  rw [if_neg (by simp [hneed])]
  dsimp only
  rw [if_neg (by simp [hstatus]), hpath, if_neg (by simp [asked, hc.valid])]
  unfold sendPacket ChallengeSent
  dsimp only [asked]
  refine ⟨(h.sendPacket env.rest c.rest c.networkPath.peerAddress
    (.pathChallenge env.challenge)).2, ?_⟩
  by_cases hok : (h.sendPacket env.rest c.rest c.networkPath.peerAddress
      (.pathChallenge env.challenge)).1 = UTP_ERR_OK
  · simp only [ne_eq, hok, not_true_eq_false, if_false, if_true]
    exact .inr ⟨trivial, trivial⟩
  · simp only [ne_eq, hok, not_false_eq_true, if_true, if_false]
    exact .inl ⟨trivial, trivial⟩

/-- Asking makes a candidate, with its place kept by what went out. -/
structure Questioned (h : Handlers σ ε) (env : LifeEnv ε) (c c' : Lifecycle σ) : Prop where
  path : c'.networkPath = asked c.networkPath env
  peer : c'.peerAddress = c.peerAddress
  state : c'.state = c.state
  sends : ∃ ds, c'.wire = c.wire ++ ds ∧ Addressed ds
  sent : ChallengeSent h c env →
    c'.pathValidationTimer = true ∧ c'.Challenged c.networkPath.peerAddress env.challenge
  unsent : ¬ChallengeSent h c env → c'.pathValidationTimer = c.pathValidationTimer

theorem Askable.questioned (hc : c.Askable) (h : Handlers σ ε) (env : LifeEnv ε) :
    Questioned h env c (c.maybeSendPathChallenge h env) := by
  obtain ⟨rest, ⟨heq, hsent⟩ | ⟨heq, hsent⟩⟩ := hc.maybeSendPathChallenge h env
  · rw [heq]
    exact ⟨rfl, rfl, rfl, ⟨[], by simp, fun _ hd => absurd hd List.not_mem_nil⟩,
      fun h' => absurd h' hsent, fun _ => rfl⟩
  · rw [heq]
    refine ⟨rfl, rfl, rfl, ⟨_, rfl, fun d hd => ?_⟩, fun _ => ⟨rfl, ?_⟩, fun h' => absurd hsent h'⟩
    · rw [List.mem_singleton.mp hd]
      exact .inr rfl
    · exact ⟨_, List.mem_append_right _ (List.mem_singleton_self _), rfl, rfl⟩

theorem Questioned.candidate (hq : Questioned h env c c') (hc : c.Askable) : c'.Candidate where
  validating := by rw [hq.path]; exact hc.validating
  pending := by rw [hq.path]; rfl
  budget := by rw [hq.path]; exact hc.budget
  valid := by rw [hq.path]; exact hc.valid
  ne := by rw [hq.path, hq.peer]; exact hc.ne

theorem Questioned.onPath (hq : Questioned h env c c') (hc : c.Askable) : c'.OnPath where
  valid := by rw [hq.peer]; exact hc.peer
  retries := by
    rw [hq.path]
    exact Nat.lt_of_le_of_lt (Nat.zero_le _) hc.budget
  place := .inr (hq.candidate hc)

theorem Questioned.asked (hq : Questioned h env c c') (hsent : ChallengeSent h c env) :
    c'.Asked := by
  intro data hdata
  rw [hq.path] at hdata ⊢
  obtain rfl : env.challenge = data := Option.some.inj hdata
  exact (hq.sent hsent).2

theorem Questioned.addressed (hq : Questioned h env c c') (hc : Addressed c.wire) :
    Addressed c'.wire := by
  obtain ⟨ds, hwire, hds⟩ := hq.sends
  rw [hwire]
  exact hc.append hds

-- ==== the arrival

/-- What `onUdpPacket` does with a source: nothing, or a new candidate. -/
theorem arrive_cases (hc : c.OnPath) (h : Handlers σ ε) (env : LifeEnv ε) (source : PeerAddress) :
    (c.newCandidate source.address = false ∧ c.arrive h env source.address = c)
      ∨ (c.newCandidate source.address = true ∧ (c.noteSource source.address).Askable
        ∧ (c.noteSource source.address).networkPath.peerAddress = source.address
        ∧ Questioned h env (c.noteSource source.address) (c.arrive h env source.address)) := by
  have hpathValid : c.networkPath.peerAddress.isValid = true := by
    rcases hc.place with ⟨-, hp⟩ | hcand
    · rw [hp]
      exact hc.valid
    · exact hcand.valid
  by_cases hgo : (!c.fromActivePath source.address && !c.closingState) = true
  · have hactive : source.address ≠ c.peerAddress := by
      intro heq
      simp [fromActivePath, heq, hc.valid] at hgo
    by_cases hsame : c.networkPath.peerAddress = source.address
    · left
      have hdetect : c.networkPath.detectPeerAddressChange source.address
          = (false, c.networkPath) := by
        unfold NetworkPath.detectPeerAddressChange
        rw [if_neg (by simp [source.valid]), if_neg (by simp [hpathValid]), if_pos hsame]
      have hnew : c.newCandidate source.address = false := by
        simp [newCandidate, hdetect]
      refine ⟨hnew, ?_⟩
      unfold arrive
      rw [if_pos hgo, if_neg (by simp [hnew])]
      unfold noteSource
      rw [hdetect]
    · right
      have hdetect : c.networkPath.detectPeerAddressChange source.address
          = (true, { c.networkPath with
              peerAddress := source.address
              state := .validating
              retryCount := 0
              pendingChallenge := none
              challengeDeadlineMs := 0 }) := by
        unfold NetworkPath.detectPeerAddressChange
        rw [if_neg (by simp [source.valid]), if_neg (by simp [hpathValid]), if_neg hsame]
      have hnew : c.newCandidate source.address = true := by
        unfold newCandidate
        rw [hgo, hdetect]
        rfl
      have hask : (c.noteSource source.address).Askable := by
        unfold noteSource
        rw [hdetect]
        exact ⟨rfl, rfl, hc.retries, source.valid, hc.valid, hactive⟩
      refine ⟨hnew, hask, ?_, ?_⟩
      · unfold noteSource
        rw [hdetect]
      · unfold arrive
        rw [if_pos hgo, if_pos hnew]
        exact hask.questioned h env
  · left
    have hnew : c.newCandidate source.address = false := by
      unfold newCandidate
      rw [Bool.not_eq_true] at hgo
      rw [hgo]
      rfl
    refine ⟨hnew, ?_⟩
    unfold arrive
    rw [if_neg hgo]

theorem onPath_arrive (hc : c.OnPath) (h : Handlers σ ε) (env : LifeEnv ε)
    (source : PeerAddress) : (c.arrive h env source.address).OnPath := by
  rcases arrive_cases hc h env source with ⟨-, heq⟩ | ⟨-, hask, -, hq⟩
  · rw [heq]
    exact hc
  · exact hq.onPath hask

theorem arrive_peer (hc : c.OnPath) (h : Handlers σ ε) (env : LifeEnv ε) (source : PeerAddress) :
    (c.arrive h env source.address).peerAddress = c.peerAddress := by
  rcases arrive_cases hc h env source with ⟨-, heq⟩ | ⟨-, -, -, hq⟩
  · rw [heq]
  · exact hq.peer

theorem addressed_arrive (hc : c.OnPath) (hwire : Addressed c.wire) (h : Handlers σ ε)
    (env : LifeEnv ε) (source : PeerAddress) :
    Addressed (c.arrive h env source.address).wire := by
  rcases arrive_cases hc h env source with ⟨-, heq⟩ | ⟨-, -, -, hq⟩
  · rw [heq]
    exact hwire
  · exact hq.addressed hwire

/-- A source that is not the active address is the candidate by the time the
frames are looked at. -/
theorem arrive_candidate (hc : c.OnPath) (h : Handlers σ ε) (env : LifeEnv ε)
    (source : PeerAddress) (hne : source.address ≠ c.peerAddress)
    (hopen : c.closingState = false) :
    (c.arrive h env source.address).networkPath.needPathValidation = true
      ∧ (c.arrive h env source.address).networkPath.peerAddress = source.address := by
  rcases arrive_cases hc h env source with ⟨hnew, heq⟩ | ⟨-, hask, hpeer, hq⟩
  · -- nothing new, so the source already was the candidate
    have hactive : c.fromActivePath source.address = false := by
      simp [fromActivePath, hne]
    have hdetect : (c.networkPath.detectPeerAddressChange source.address).1 = false := by
      simpa [newCandidate, hactive, hopen] using hnew
    have hpathValid : c.networkPath.peerAddress.isValid = true := by
      rcases hc.place with ⟨-, hp⟩ | hcand
      · rw [hp]
        exact hc.valid
      · exact hcand.valid
    have hsame : c.networkPath.peerAddress = source.address := by
      by_contra hdiff
      unfold NetworkPath.detectPeerAddressChange at hdetect
      rw [if_neg (by simp [source.valid]), if_neg (by simp [hpathValid]), if_neg hdiff] at hdetect
      cases hdetect
    rw [heq]
    refine ⟨?_, hsame⟩
    rcases hc.place with ⟨-, hp⟩ | hcand
    · exact absurd (hsame.symm.trans hp) hne
    · simp [NetworkPath.needPathValidation, hcand.validating]
  · refine ⟨?_, ?_⟩
    · simp [NetworkPath.needPathValidation, hq.path, asked, hask.validating]
    · rw [hq.path]
      exact hpeer

-- ==== the frame loop

/-- A frame that neither validates a path nor closes is passed over in a
packet that does not come from the active address. -/
theorem arrival_skips (hc : c.OnPath) (h : Handlers σ ε) (env : LifeEnv ε)
    (source : PeerAddress) (hne : source.address ≠ c.peerAddress) (frameType : FrameType)
    (hframe : frameType.validatesOrCloses = false) :
    (c.arrival h env source.address).skips frameType = true := by
  simp only [FrameType.validatesOrCloses, Bool.or_eq_false_iff, decide_eq_false_iff_not]
    at hframe
  obtain ⟨⟨hch, hre⟩, hcl⟩ := hframe
  cases hclosing : c.closingState with
  | true => simp [arrival, Arrival.skips, hclosing, hcl]
  | false =>
    obtain ⟨hneed, hpeer⟩ := arrive_candidate hc h env source hne hclosing
    simp [arrival, Arrival.skips, fromActivePath, hne, hneed, hpeer, source.valid, hch, hre, hcl]

theorem run_stopped {l : LifeLoop σ} (hl : l.stopped = true) (h : Handlers σ ε) (env : LifeEnv ε)
    (a : Arrival) (frames : List (FrameType × List UInt8)) :
    LifeLoop.run h env a l frames = l := by
  cases frames with
  | nil => rfl
  | cons frame frames => exact if_pos hl

theorem run_filter (h : Handlers σ ε) (env : LifeEnv ε) (a : Arrival)
    (hskip : ∀ frameType : FrameType, frameType.validatesOrCloses = false →
      a.skips frameType = true) (frames : List (FrameType × List UInt8)) :
    ∀ l : LifeLoop σ, LifeLoop.run h env a l frames
      = LifeLoop.run h env a l (frames.filter fun frame => frame.1.validatesOrCloses) := by
  induction frames with
  | nil => exact fun _ => rfl
  | cons frame frames ih =>
    intro l
    by_cases hstop : l.stopped = true
    · rw [run_stopped hstop, run_stopped hstop]
    · cases hframe : frame.1.validatesOrCloses with
      | true =>
        rw [List.filter_cons_of_pos (by simpa using hframe)]
        unfold LifeLoop.run
        rw [if_neg hstop, if_neg hstop]
        exact ih _
      | false =>
        rw [List.filter_cons_of_neg (by simp [hframe])]
        have hsame : l.onFrame h env a frame = l := by
          unfold LifeLoop.onFrame
          rw [if_pos (hskip frame.1 hframe)]
        rw [← ih l]
        conv_lhs => unfold LifeLoop.run
        rw [if_neg hstop, hsame]

end Lifecycle

end Eular.Utp
