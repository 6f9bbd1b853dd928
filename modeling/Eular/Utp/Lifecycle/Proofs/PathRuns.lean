/-
Path migration and path validation, over every run.

Two results, and the run that shows what each condition is for: a
PATH_CHALLENGE that `sendPacket` refuses is pending all the same. The
path then waits for an answer to a question nobody was asked, with no
timer to ask again, and takes an answer for granted that happens to
match.
-/
import Eular.Utp.Lifecycle.Proofs.PathSafety

namespace Eular.Utp

open Lib

variable {σ ε : Type} {c : Lifecycle σ} {env : LifeEnv ε}

namespace Lifecycle

-- ==== an example of the handlers

/-- A connection with nothing in it, whose packets are in clear; the
environment is what `sendPacket` answers. -/
def plainHandlers : Handlers Unit Nat where
  accept := fun _ _ msg => PacketIn.decode msg
  sendPacket := fun code _ _ _ => (code, ())
  frame := fun _ _ _ _ => { rest := () }
  received := fun _ _ _ => { rest := () }
  established := fun _ _ _ => { rest := () }
  initial := fun _ => []
  early := fun _ _ => { rest := () }
  write := fun _ _ => { rest := () }
  scheduled := fun _ => false
  onCanWrite := fun _ _ => { rest := () }
  event := fun _ _ => { rest := () }

/-- A server's connection to a client at port 1. -/
def plainServer : Opening Unit := .initPassive 100 2 ⟨.ip 9 1, rfl⟩ ()

/-- A datagram from the client's host, from a port of its own. -/
def plainDatagram (port sent nowMs : Nat) (payload : List UInt8) : LifeOp Nat :=
  let header : UTPHeaderProto :=
    { scid := 7, dcid := 8, pn := 1, payloadLength := .ofNat payload.length
      types := UTP_TYPE_CTRL, reserve := 0 }
  .datagram { nowMs, challenge := [1, 2, 3, 4, 5, 6, 7, 8], rest := sent } ⟨.ip 9 port, rfl⟩
    (header.serialize ++ payload)

/-- The client moves to port 2, and answers. -/
def ping : List UInt8 := [5]
def pathAnswer : List UInt8 := [10, 1, 2, 3, 4, 5, 6, 7, 8]

-- ==== migration

/-- Path migration. The active address changes only to the candidate, by a
PATH_RESPONSE from there with the bytes of the pending challenge, which
was sent there. In a packet from anywhere else the frames that neither
validate a path nor close have no effect, and what is sent anywhere else
validates a path. -/
theorem migration_run (h : Handlers σ ε) (o : Opening σ) (ops : List (LifeOp ε)) (op : LifeOp ε)
    (hsent : Meets (step h) (ChallengesSent h) o.start ops) :
    let c := run (step h) o.start ops
    let c' := c.step h op
    (ChallengesSent h c op → c'.peerAddress ≠ c.peerAddress →
      ∃ env source msg packet data bytes, op = .datagram env source msg
        ∧ h.accept c.rest c.state msg = some packet ∧ c'.peerAddress = source.address
        ∧ (c.arrive h env source.address).networkPath.needPathValidation = true
        ∧ (c.arrive h env source.address).networkPath.peerAddress = source.address
        ∧ (c.arrive h env source.address).networkPath.pendingChallenge = some data
        ∧ (c.arrive h env source.address).Challenged source.address data
        ∧ (FrameType.pathResponse, bytes) ∈ packet.frames
        ∧ decodePathResponse bytes = some data)
      ∧ (∀ env (source : PeerAddress), source.address ≠ c.peerAddress → ∀ frames,
          c.frameLoop h env source.address frames
            = c.frameLoop h env source.address
                (frames.filter fun frame => frame.1.validatesOrCloses))
      ∧ ∀ d ∈ c'.wire, d.dest = d.active ∨ d.payload.isPath = true := by
  intro c c'
  have hc : c.OnPath := onPath_run h o ops
  have hasked : c.OnPath ∧ c.Asked := by
    refine run_inv (P := fun c : Lifecycle σ => c.OnPath ∧ c.Asked)
      (fun c op hc hop => ⟨onPath_step h op hc.1, asked_step h op hc.1 hc.2 hop⟩)
      ⟨onPath_start o, fun data hdata => ?_⟩ hsent
    rw [start_pending] at hdata
    cases hdata
  have hwire : c.OnPath ∧ Addressed c.wire := by
    refine run_inv_of_step (P := fun c : Lifecycle σ => c.OnPath ∧ Addressed c.wire)
      (fun c op hc => ⟨onPath_step h op hc.1, addressed_step h op hc.1 hc.2⟩) ops
      ⟨onPath_start o, fun d hd => ?_⟩
    rw [start_wire] at hd
    cases hd
  refine ⟨fun hop hmoved => ?_, fun env source hne frames => ?_,
    addressed_step h op hc hwire.2⟩
  · rcases step_cases hc h op with
      hsame | ⟨env, source, msg, packet, rfl, haccept, hm⟩ | ⟨env, rfl, htimer, heq⟩
    · exact absurd hsame.peer hmoved
    · rcases hm with hsame | hswitch
      · exact absurd (hsame.peer.trans (arrive_peer hc h env source)) hmoved
      · obtain ⟨data, bytes, hpending, hmem, hdecode⟩ := hswitch.answer
        have harrived := asked_arrive hc hasked.2 h env source (hop (by simp [haccept]))
        refine ⟨env, source, msg, packet, data, bytes, rfl, haccept, hswitch.peer, hswitch.need,
          hswitch.candidate, hpending, ?_, hmem, hdecode⟩
        have hasked' := harrived data hpending
        rw [hswitch.candidate] at hasked'
        exact hasked'
    · refine absurd ?_ hmoved
      show (c.step h _).peerAddress = _
      rw [heq]
      have hc₀ : OnPath { c with pathValidationTimer := false } := hc.congr rfl rfl
      rcases onPathValidationTimeout_cases hc₀ h env with
        ⟨heq, -⟩ | ⟨path, heq, -⟩ | ⟨-, -, -, -, hq⟩
      · rw [heq]
      · rw [heq]
      · exact hq.peer
  · exact run_filter h env _ (arrival_skips hc h env source hne) frames _

/-- The client moves, is asked, and answers. -/
theorem migration_answered :
    ∃ env source msg packet data bytes,
      plainDatagram 2 0 10 pathAnswer = .datagram env source msg
        ∧ plainHandlers.accept () .connected msg = some packet
        ∧ decodePathResponse bytes = some data
        ∧ (FrameType.pathResponse, bytes) ∈ packet.frames := by
  have hmeets : Meets (step plainHandlers) (ChallengesSent plainHandlers) plainServer.start
      [plainDatagram 2 0 5 ping] := ⟨fun _ _ => rfl, trivial⟩
  have hmoved : ((run (step plainHandlers) plainServer.start [plainDatagram 2 0 5 ping]).step
      plainHandlers (plainDatagram 2 0 10 pathAnswer)).peerAddress
        ≠ (run (step plainHandlers) plainServer.start [plainDatagram 2 0 5 ping]).peerAddress := by
    decide +kernel
  obtain ⟨env, source, msg, packet, data, bytes, hop, haccept, -, -, -, -, -, hmem, hdecode⟩ :=
    (migration_run plainHandlers plainServer [plainDatagram 2 0 5 ping]
      (plainDatagram 2 0 10 pathAnswer) hmeets).1 (fun _ _ => rfl) hmoved
  exact ⟨env, source, msg, packet, data, bytes, hop, haccept, hdecode, hmem⟩

/-- The PATH_CHALLENGE to port 2 is refused, and the bytes come back all the
same: the peer moved to an address that was never asked. -/
theorem not_migration_unasked :
    ¬∀ (h : Handlers Unit Nat) (o : Opening Unit) (ops : List (LifeOp Nat)) (op : LifeOp Nat),
      let c := run (step h) o.start ops
      (c.step h op).peerAddress ≠ c.peerAddress →
        ∃ data, (c.step h op).Challenged (c.step h op).peerAddress data := by
  intro hall
  obtain ⟨data, d, hd, -⟩ := hall plainHandlers plainServer
    [plainDatagram 2 UTP_ERR_WOULD_BLOCK 5 ping] (plainDatagram 2 0 10 pathAnswer)
    (by decide +kernel)
  have hwire : ((run (step plainHandlers) plainServer.start
      [plainDatagram 2 UTP_ERR_WOULD_BLOCK 5 ping]).step plainHandlers
        (plainDatagram 2 0 10 pathAnswer)).wire = [] := by decide +kernel
  rw [hwire] at hd
  cases hd

-- ==== validation

theorem timeout_budget (hc : c.OnPath) (h : Handlers σ ε) (env : LifeEnv ε)
    (hneed : c.networkPath.needPathValidation = true) (htimer : c.pathValidationTimer = true)
    (hontime : c.networkPath.challengeDeadlineMs ≤ env.nowMs) :
    (c.step h (.pathValidationTimeout env)).networkPath.needPathValidation = false
      ∨ ((c.step h (.pathValidationTimeout env)).networkPath.retryCount
            = c.networkPath.retryCount + 1
          ∧ (c.step h (.pathValidationTimeout env)).networkPath.maxChallengeRetries
            = c.networkPath.maxChallengeRetries) := by
  rw [show c.step h (.pathValidationTimeout env)
    = onPathValidationTimeout h { c with pathValidationTimer := false } env from if_pos htimer]
  have hc₀ : OnPath { c with pathValidationTimer := false } := hc.congr rfl rfl
  rcases onPathValidationTimeout_cases hc₀ h env with
    ⟨heq, hearly⟩ | ⟨path, heq, -⟩ | ⟨-, -, -, hexpire, hq⟩
  · exact absurd (hearly hneed) (Nat.not_lt.mpr hontime)
  · left
    rw [heq]
    simp [NetworkPath.needPathValidation, NetworkPath.bindPeerAddress, hc.valid]
  · right
    rw [hq.path, hexpire]
    exact ⟨rfl, rfl⟩

theorem timeout_idle (hc : c.OnPath) (h : Handlers σ ε) (env : LifeEnv ε)
    (hidle : c.networkPath.needPathValidation = false) :
    (c.step h (.pathValidationTimeout env)).networkPath.needPathValidation = false := by
  rcases step_cases hc h (.pathValidationTimeout env) with
    hsame | ⟨env', source, msg, packet, hop, -, -⟩ | ⟨env', hop, -, heq⟩
  · rw [hsame.path]
    exact hidle
  · cases hop
  · rw [heq]
    have hc₀ : OnPath { c with pathValidationTimer := false } := hc.congr rfl rfl
    rcases onPathValidationTimeout_cases hc₀ h env' with
      ⟨heq, -⟩ | ⟨path, heq, -⟩ | ⟨-, hneed, -, -, -⟩
    · rw [heq]
      exact hidle
    · rw [heq]
      simp [NetworkPath.needPathValidation, NetworkPath.bindPeerAddress, hc.valid]
    · exact absurd hneed (by simp [hidle])

theorem timeouts_end (h : Handlers σ ε) (envs : List (LifeEnv ε)) :
    ∀ c : Lifecycle σ, c.OnPath → c.Timed → c.isClosingOrLater = false →
      Meets (step h) (fun c op => ChallengesSent h c op ∧ OnTime c op) c
        (envs.map .pathValidationTimeout) →
      (c.networkPath.needPathValidation = false
        ∨ c.networkPath.maxChallengeRetries < c.networkPath.retryCount + envs.length) →
      (run (step h) c (envs.map .pathValidationTimeout)).networkPath.needPathValidation
        = false := by
  induction envs with
  | nil =>
    intro c hc _ _ _ hleft
    rcases hc.place with ⟨hstate, -⟩ | hcand
    · simp [NetworkPath.needPathValidation, hstate]
    · refine hleft.resolve_right fun hover => ?_
      exact absurd hcand.budget (by simpa using hover)
  | cons env envs ih =>
    intro c hc htimed hopen hmeets hleft
    obtain ⟨⟨hsent, hontime⟩, hmeets⟩ := hmeets
    have hopen' : (c.step h (.pathValidationTimeout env)).isClosingOrLater = false := by
      have hstate : (c.step h (.pathValidationTimeout env)).state = c.state := by
        show (if c.pathValidationTimer then
          onPathValidationTimeout h { c with pathValidationTimer := false } env else c).state = _
        split
        · exact onPathValidationTimeout_state h _ env
        · rfl
      simpa only [isClosingOrLater, hstate] using hopen
    refine ih _ (onPath_step h _ hc) (timed_step h _ hc htimed hsent hontime) hopen' hmeets ?_
    cases hneed : c.networkPath.needPathValidation with
    | false => exact .inl (timeout_idle hc h env hneed)
    | true =>
      have htimer := htimed hopen hneed
      refine (timeout_budget hc h env hneed htimer (hontime htimer)).imp_right fun hb => ?_
      have hover := hleft.resolve_left (by simp [hneed])
      rw [hb.1, hb.2]
      simp only [List.length_cons] at hover
      omega

/-- Path validation ends. If every PATH_CHALLENGE goes out and the timer is
never early, an open connection that validates its path has the timer
running, and once the timer has fired more often than there are retries
the validation is over, with the path bound to the active address. -/
theorem validation_run (h : Handlers σ ε) (o : Opening σ) (ops : List (LifeOp ε))
    (hops : Meets (step h) (fun c op => ChallengesSent h c op ∧ OnTime c op) o.start ops) :
    let c := run (step h) o.start ops
    (c.isClosingOrLater = false → c.networkPath.needPathValidation = true →
        c.pathValidationTimer = true)
      ∧ ∀ envs : List (LifeEnv ε), c.isClosingOrLater = false →
          Meets (step h) (fun c op => ChallengesSent h c op ∧ OnTime c op) c
            (envs.map .pathValidationTimeout) →
          c.networkPath.maxChallengeRetries < envs.length →
          let c' := run (step h) c (envs.map .pathValidationTimeout)
          c'.networkPath.needPathValidation = false
            ∧ c'.networkPath.peerAddress = c'.peerAddress := by
  intro c
  have hc : c.OnPath ∧ c.Timed := by
    refine run_inv (P := fun c : Lifecycle σ => c.OnPath ∧ c.Timed)
      (fun c op hc hop => ⟨onPath_step h op hc.1, timed_step h op hc.1 hc.2 hop.1 hop.2⟩)
      ⟨onPath_start o, fun _ hneed => ?_⟩ hops
    rcases (onPath_start o).place with ⟨hstate, -⟩ | hcand
    · simp [NetworkPath.needPathValidation, hstate] at hneed
    · have hpending := hcand.pending
      rw [start_pending] at hpending
      cases hpending
  refine ⟨hc.2, fun envs hopen hmeets hlong => ?_⟩
  intro c'
  have hidle : c'.networkPath.needPathValidation = false :=
    timeouts_end h envs c hc.1 hc.2 hopen hmeets (.inr (by omega))
  refine ⟨hidle, ?_⟩
  have hc' : c'.OnPath :=
    run_inv_of_step (fun _ op hc => onPath_step h op hc) (envs.map .pathValidationTimeout) hc.1
  rcases hc'.place with ⟨-, hpeer⟩ | hcand
  · exact hpeer
  · simp [NetworkPath.needPathValidation, hcand.validating] at hidle

/-- The client moves, is asked, and the timer runs. -/
theorem validation_asked :
    (run (step plainHandlers) plainServer.start
      [plainDatagram 2 0 5 ping]).pathValidationTimer = true :=
  (validation_run plainHandlers plainServer [plainDatagram 2 0 5 ping]
    ⟨⟨fun _ _ => rfl, trivial⟩, trivial⟩).1 (by decide +kernel) (by decide +kernel)

/-- The PATH_CHALLENGE is refused: the path is validating, the challenge
pending, and no timer runs. -/
theorem not_validation_refused :
    ¬∀ (h : Handlers Unit Nat) (o : Opening Unit) (ops : List (LifeOp Nat)),
      let c := run (step h) o.start ops
      c.state = .connected → c.networkPath.needPathValidation = true →
        c.pathValidationTimer = true := by
  intro hall
  have htimer := hall plainHandlers plainServer
    [plainDatagram 2 UTP_ERR_WOULD_BLOCK 5 ping] (by decide +kernel) (by decide +kernel)
  exact absurd htimer (by decide +kernel)

end Lifecycle

end Eular.Utp
