/-
What the parts of a NAT detection do: what the verdict is a function of
(`natClass_summarize`), what a send leaves of a request (`send_cases`), and
which answers are accepted (`accepts_answer`): those of the phase the request
is in, whatever came of earlier ones.
-/
import Eular.Ntrs.NatRun

namespace Eular.Ntrs

open Lib

-- ==== the verdict

/-- The class of a mapping that is or is not the same for both servers, from
what the filter probes showed. -/
def classFound (same portRx ipRx : Bool) : NatClass :=
  match same, portRx, ipRx with
  | false, _, _ => .symmetric
  | true, true, true => .fullCone
  | true, true, false => .ipRestricted
  | true, false, false => .portRestricted
  | true, false, true => .unknown

/-- The sample is of a host that is not public itself. -/
def NatSample.Hidden (nat : NatSample) : Prop :=
  isPublicIpv4 nat.localEndpoint.ip = false ∧ isIpv6Text nat.localEndpoint.ip = false

theorem Ip.IsPrivate.hidden {ip : Ip} (h : ip.IsPrivate) :
    isPublicIpv4 ip = false ∧ isIpv6Text ip = false := by
  cases ip with
  | v6 value => exact h.elim
  | v4 value =>
    refine ⟨?_, rfl⟩
    rcases h with h | h | h <;> simp [isPublicIpv4, h]

namespace NatSample

variable {nat : NatSample}

theorem natClass_evaluate_blocked (h : nat.Hidden) (hs : isIpv6Text nat.srflx.ip = false)
    (hs2 : isIpv6Text nat.srflx2.ip = false) (h1 : nat.probe1Ok = false) (hasProbe2 : Bool) :
    (nat.evaluateNatResult hasProbe2).natClass = .udpBlocked := by
  simp [evaluateNatResult, h.2, hs, hs2, h1]

theorem natClass_evaluate_unprobed (h : nat.Hidden) (hs : isIpv6Text nat.srflx.ip = false)
    (hs2 : isIpv6Text nat.srflx2.ip = false) (h1 : nat.probe1Ok = true) :
    (nat.evaluateNatResult false).natClass = .unknown := by
  simp [evaluateNatResult, h.1, h.2, hs, hs2, h1]

theorem classOf_hidden (nat : NatSample) (hpublic : isPublicIpv4 nat.localEndpoint.ip = false)
    (hip : nat.srflx.ip = nat.srflx2.ip) (hstable : nat.unstableMapping = false) :
    nat.classOf.2 =
      if nat.mappingBehavior = .unstable ∨ nat.mappingBehavior = .addressDependent ∨
        nat.mappingBehavior = .addressAndPortDependent then .symmetric
      else if nat.filteringBehavior = .endpointIndependent then .fullCone
      else if nat.filteringBehavior = .addressDependent then .ipRestricted
      else if nat.filteringBehavior = .addressAndPortDependent then .portRestricted
      else .unknown := by
  simp only [classOf, hip, hpublic, hstable, ne_eq, not_true, decide_false, Bool.and_false,
    Bool.false_and, Bool.or_false, Bool.false_eq_true, if_false]
  split_ifs <;> rfl

theorem natClass_evaluate (h : nat.Hidden) (hs : isIpv6Text nat.srflx.ip = false)
    (hs2 : isIpv6Text nat.srflx2.ip = false) (h1 : nat.probe1Ok = true)
    (h2 : nat.probe2Ok = true) (hip : nat.srflx.ip = nat.srflx2.ip)
    (hstable : nat.unstableMapping = false) (hexec : nat.filterProbeExecuted = true) :
    (nat.evaluateNatResult true).natClass =
      classFound nat.sameMapping nat.filterSameIpDiffPortRx nat.filterDiffIpRx := by
  let judged : NatSample := { nat with
    mappingStable := nat.sameMapping, mappingBehavior := nat.mappingOf
    filteringBehavior := nat.filteringOf }
  have heval : (nat.evaluateNatResult true).natClass = judged.classOf.2 := by
    simp [evaluateNatResult, h.2, hs, hs2, h1, h2, judged]
  have hclass := classOf_hidden judged h.1 hip hstable
  rw [heval, hclass]
  simp only [judged, mappingOf, filteringOf, hstable, hexec]
  cases nat.sameMapping <;> cases nat.filterSameIpDiffPortRx <;> cases nat.filterDiffIpRx <;> rfl

end NatSample

-- ==== what was measured

namespace NatRequest

/-- No probe of the `i`-th server has been answered. -/
def Unmapped (request : NatRequest) (i : Fin 2) : Prop :=
  request.probeSuccessCount i = 0 ∧ request.probeMappings i = []

/-- The `i`-th server sees the client at `mapped`, and nowhere else. -/
def Mapped (request : NatRequest) (i : Fin 2) (mapped : Address) : Prop :=
  0 < request.probeSuccessCount i ∧ request.probeMappings i = [mapped] ∧
    (if i = 0 then request.natSample.srflx else request.natSample.srflx2) = mapped

/-- The sample has not been summed up, and is of IPv4. -/
structure Unjudged (request : NatRequest) : Prop where
  hidden : request.natSample.Hidden
  probe1Ok : request.natSample.probe1Ok = false
  probe2Ok : request.natSample.probe2Ok = false
  srflx : isIpv6Text request.natSample.srflx.ip = false
  srflx2 : isIpv6Text request.natSample.srflx2.ip = false
  distinct1 : request.natSample.probe1DistinctMappings = 0
  distinct2 : request.natSample.probe2DistinctMappings = 0

variable {request : NatRequest} {a b : Address}

theorem delivered_finish (request : NatRequest) :
    ∃ result : AsyncResult, request.finishAsyncNatDetection.delivered = some result ∧
      result.natInfo.natClass = (request.summarize.evaluateNatResult
        (request.hasProbe2 && decide (0 < request.probeSuccessCount 1))).natClass := by
  refine ⟨_, rfl, ?_⟩
  dsimp only
  split <;> rfl

theorem natClass_blocked (h : request.Unjudged) (h0 : request.Unmapped 0) (hasProbe2 : Bool) :
    (request.summarize.evaluateNatResult hasProbe2).natClass = .udpBlocked := by
  have hcount : ¬ 0 < request.probeSuccessCount 0 := by rw [h0.1]; exact lt_irrefl 0
  apply NatSample.natClass_evaluate_blocked <;> simp only [summarize, hcount, if_false] <;> split
  all_goals first | exact h.hidden | exact h.srflx | exact h.srflx2 | exact h.probe1Ok

theorem natClass_unprobed (h : request.Unjudged) (h0 : request.Mapped 0 a)
    (h1 : request.Unmapped 1) :
    (request.summarize.evaluateNatResult
      (request.hasProbe2 && decide (0 < request.probeSuccessCount 1))).natClass = .unknown := by
  have hcount : ¬ 0 < request.probeSuccessCount 1 := by rw [h1.1]; exact lt_irrefl 0
  rw [decide_eq_false hcount, Bool.and_false]
  apply NatSample.natClass_evaluate_unprobed <;> simp only [summarize, hcount, h0.1, if_false,
    if_true]
  · exact h.hidden
  · exact h.srflx
  · exact h.srflx2

theorem natClass_found (h : request.Unjudged) (h0 : request.Mapped 0 a) (h1 : request.Mapped 1 b)
    (hip : a.ip = b.ip) (hboth : request.hasProbe2 = true)
    (hexec : request.natSample.filterProbeExecuted = true) :
    (request.summarize.evaluateNatResult
      (request.hasProbe2 && decide (0 < request.probeSuccessCount 1))).natClass =
      classFound (decide (a = b)) request.natSample.filterSameIpDiffPortRx
        request.natSample.filterDiffIpRx := by
  have ha : request.natSample.srflx = a := h0.2.2
  have hb : request.natSample.srflx2 = b := h1.2.2
  have hsame : request.summarize.sameMapping = decide (a = b) := by
    simp only [summarize, h0.1, h1.1, if_true, NatSample.sameMapping, ha, hb]
  rw [hboth, decide_eq_true h1.1, Bool.and_true, NatSample.natClass_evaluate, hsame]
  all_goals simp only [summarize, h0.1, h1.1, if_true]
  · exact h.hidden
  · exact h.srflx
  · exact h.srflx2
  · rw [ha, hb, hip]
  · simp [NatSample.unstableMapping, h0.2.1, h1.2.1]
  · exact hexec

end NatRequest

-- ==== the phases

namespace AsyncNatPhase

def index : AsyncNatPhase → Fin 2
  | .probe2 => 1
  | _ => 0

def change : AsyncNatPhase → UInt32
  | .filterChangePort => kStunChangePort
  | .filterChangeIp => kStunChangeIp
  | _ => 0

/-- The order the phases come in. -/
def order : AsyncNatPhase → Nat
  | .probe1 => 0
  | .filterChangePort => 1
  | .filterChangeIp => 2
  | .probe2 => 3

theorem toBinary_inj {p q : AsyncNatPhase} (h : p.toBinary = q.toBinary) : p = q := by
  cases p <;> cases q <;> first | rfl | cases h

end AsyncNatPhase

/-- The token of a phase: that of every request made in it. -/
def tokenFor (requestId : UInt64) (phase : AsyncNatPhase) : ProbeToken where
  seed := requestId ^^^ (phase.value <<< 40) ^^^ (UInt64.ofNat phase.index.val <<< 32)
  changeRequest := phase.change

namespace NatRequest

variable {servers : ProbeServers} {requestId : UInt64} {request : NatRequest}

/-- A request under way is what the phase it is in says. -/
structure Fits (servers : ProbeServers) (requestId : UInt64) (request : NatRequest) : Prop where
  id : request.requestId = requestId
  addrs : request.probeAddrs = servers.addrs
  both : request.hasProbe2 = true
  filter : request.natEnableFilterProbe = true
  index : request.probeIndex = request.natPhase.index
  change : request.probeChangeRequest = request.natPhase.change
  undelivered : request.delivered = none

theorem Fits.token (h : Fits servers requestId request) :
    request.buildAsyncNatProbeToken = tokenFor requestId request.natPhase := by
  simp only [buildAsyncNatProbeToken, tokenFor, h.id, h.index, h.change]

-- ==== sending

/-- The request after a send: its token, its timer, and the local endpoint,
if that was looked up. -/
def Resent (socket : UdpSocket) (request request' : NatRequest) : Prop :=
  ∃ endpoint, (endpoint = request.natSample.localEndpoint ∨
      ∃ remote, socket.route remote = some endpoint) ∧
    request' = { request with
      probeToken := request.buildAsyncNatProbeToken, timerArmed := true
      natSample := { request.natSample with localEndpoint := endpoint } }

theorem resent_refresh (request : NatRequest) (socket : UdpSocket) (remote : Address) :
    Resent socket request (armAsyncProbeTimer (refreshLocalEndpoint
      { request with probeToken := request.buildAsyncNatProbeToken } socket remote)) := by
  unfold refreshLocalEndpoint armAsyncProbeTimer
  split
  · split
    case h_1 => exact ⟨_, .inl rfl, rfl⟩
    case h_2 endpoint hroute => exact ⟨endpoint, .inr ⟨remote, hroute⟩, rfl⟩
  · exact ⟨_, .inl rfl, rfl⟩

/-- A callback that sends: the request ends where `sendto` fails; otherwise it
is waiting, and what has gone out is of its phase. -/
theorem send_cases (request : NatRequest) (socket : UdpSocket) (sendto : Sendto)
    (message : String) :
    let sending := orFinish (request.sendAsyncProbeRequest socket sendto) message
    (sendto = .failed ∧ sending.packet = none ∧ sending.request.timerArmed = false ∧
        ∃ result : AsyncResult,
          sending.request.delivered = some result ∧ result.natInfo.natClass = .unknown) ∨
      Resent socket request sending.request ∧
        (sendto = .retriable ∧ sending.packet = none ∨
          sending.packet = some (request.probeAddrs request.probeIndex,
            request.buildAsyncNatProbeRequestFrame request.buildAsyncNatProbeToken)) := by
  intro sending
  cases sendto with
  | failed => exact .inl ⟨rfl, rfl, rfl, _, rfl, rfl⟩
  | retriable => exact .inr ⟨⟨_, .inl rfl, rfl⟩, .inl ⟨rfl, rfl⟩⟩
  | sent => exact .inr ⟨resent_refresh request socket _, .inr rfl⟩

-- ==== accepting

def serverOf (servers : ProbeServers) (phase : AsyncNatPhase) : Address :=
  servers.addrs phase.index

/-- What is answered to a request of the phase. -/
def answerOf (servers : ProbeServers) (requestId : UInt64) (phase : AsyncNatPhase)
    (mapped : Address) (frameType : BinaryFrameType) : ProbeFrame where
  frameType := if frameType = .filterReq then .filterRsp else .probeRsp
  phase := phase.toBinary
  token := some (tokenFor requestId phase)
  mappedAddr := some mapped
  originAddr := some (servers.origin (serverOf servers phase) phase.toBinary)
  otherAddr := servers.otherAddr phase.toBinary

theorem sockaddrEndpoint_of_port {addr : Address} (h : addr.port ≠ 0) :
    sockaddrEndpoint addr = some addr := if_pos h

theorem serverOf_port (servers : ProbeServers) (phase : AsyncNatPhase) :
    (serverOf servers phase).port ≠ 0 := by
  cases phase
  case probe2 => exact servers.secondary_port
  all_goals exact servers.primary_port

theorem parse_answerOf {mapped : Address} (hport : mapped.port ≠ 0) (phase phase' : AsyncNatPhase)
    (frameType : BinaryFrameType) :
    parseAsyncNatProbeResponseFrame (answerOf servers requestId phase mapped frameType)
        phase'.toBinary (tokenFor requestId phase') =
      if phase = phase' then
        some ⟨mapped, some (servers.origin (serverOf servers phase) phase.toBinary),
          servers.otherAddr phase.toBinary⟩
      else none := by
  by_cases heq : phase = phase'
  · subst heq
    have htype : ¬ ((answerOf servers requestId phase mapped frameType).frameType ≠ .probeRsp ∧
        (answerOf servers requestId phase mapped frameType).frameType ≠ .filterRsp) := by
      unfold answerOf
      dsimp only
      split <;> simp
    have hphase : ¬ (answerOf servers requestId phase mapped frameType).phase ≠ phase.toBinary :=
      not_not.mpr rfl
    have htoken : ¬ (answerOf servers requestId phase mapped frameType).token ≠
        some (tokenFor requestId phase) := not_not.mpr rfl
    rw [if_pos rfl, parseAsyncNatProbeResponseFrame, if_neg hphase, if_neg htype, if_neg htoken]
    simp [answerOf, sockaddrEndpoint_of_port hport]
  · have hne : phase.toBinary ≠ phase'.toBinary := fun h => heq (AsyncNatPhase.toBinary_inj h)
    rw [if_neg heq, parseAsyncNatProbeResponseFrame]
    exact if_pos hne

theorem filterResponseValid_answer (h : Fits servers requestId request)
    (hfilter : request.natPhase.isFilter = true) (mapped : Address) :
    request.asyncFilterResponseValid
      (servers.origin (serverOf servers request.natPhase) request.natPhase.toBinary)
      ⟨mapped, some (servers.origin (serverOf servers request.natPhase) request.natPhase.toBinary),
        servers.otherAddr request.natPhase.toBinary⟩ = true := by
  have hprimary : sockaddrEndpoint (request.probeAddrs 0) = some servers.primary := by
    rw [h.addrs]
    exact sockaddrEndpoint_of_port servers.primary_port
  have hsecondary : sockaddrEndpoint (request.probeAddrs 1) = some servers.secondary := by
    rw [h.addrs]
    exact sockaddrEndpoint_of_port servers.secondary_port
  have halternate : sockaddrEndpoint servers.alternate = some servers.alternate :=
    sockaddrEndpoint_of_port servers.altPort_ne
  have hsecond : sockaddrEndpoint servers.secondary = some servers.secondary :=
    sockaddrEndpoint_of_port servers.secondary_port
  unfold asyncFilterResponseValid
  cases hphase : request.natPhase with
  | probe1 => rw [hphase] at hfilter; cases hfilter
  | probe2 => rw [hphase] at hfilter; cases hfilter
  | filterChangePort =>
    have hother := servers.otherAddr_changePort
    simp only [AsyncNatPhase.toBinary, ProbeServers.origin, hprimary, halternate, if_true]
    cases hsaid : servers.otherAddr .changePort with
    | none => simp [ProbeServers.alternate, servers.alt_ne]
    | some other => simp [ProbeServers.alternate, servers.alt_ne, hother other hsaid]
  | filterChangeIp =>
    simp [AsyncNatPhase.toBinary, ProbeServers.origin, hprimary, hsecondary, hsecond, h.both]

theorem accepts_answer (h : Fits servers requestId request)
    (htoken : request.probeToken = tokenFor requestId request.natPhase) {mapped : Address}
    (hport : mapped.port ≠ 0) (phase : AsyncNatPhase) (frameType : BinaryFrameType) :
    request.accepts (servers.origin (serverOf servers phase) phase.toBinary)
        (answerOf servers requestId phase mapped frameType) =
      if phase = request.natPhase then
        some ⟨mapped, some (servers.origin (serverOf servers phase) phase.toBinary),
          servers.otherAddr phase.toBinary⟩
      else none := by
  unfold accepts
  rw [htoken, parse_answerOf hport]
  by_cases heq : phase = request.natPhase
  · subst heq
    rw [if_pos rfl]
    dsimp only
    split
    case isTrue hfilter => rw [if_pos (filterResponseValid_answer h hfilter mapped)]
    case isFalse hfilter =>
      have horigin : servers.origin (serverOf servers request.natPhase)
          request.natPhase.toBinary = serverOf servers request.natPhase := by
        cases hphase : request.natPhase <;> rw [hphase] at hfilter <;>
          first | rfl | exact absurd rfl hfilter
      have hsame : sockaddrSameEndpoint (serverOf servers request.natPhase)
          (serverOf servers request.natPhase) = true := by
        simp [sockaddrSameEndpoint, sockaddrEndpoint_of_port (serverOf_port servers _)]
      rw [horigin, h.addrs, h.index]
      exact if_pos hsame
  · rw [if_neg heq]

-- ==== progress

/-- The attempts left: those of the phase and those of the phases to come. -/
def rank (request : NatRequest) : Nat :=
  (request.probeMaxAttempts - request.probeAttempts).toNat +
    match request.natPhase with
    | .probe1 => request.probeMaxAttempts.toNat + request.probePhaseMaxAttempts.toNat + 7
    | .filterChangePort => request.probePhaseMaxAttempts.toNat + 4
    | .filterChangeIp => request.probePhaseMaxAttempts.toNat + 1
    | .probe2 => 0

/-- What a callback leaves: a request that has delivered its result, or one
that waits on its timer with fewer attempts left than `bound`. -/
def Leaves (sending : Sending) (bound : Nat) : Prop :=
  sending.request.delivered.isSome ∨
    (sending.request.delivered = none ∧ sending.request.timerArmed = true) ∧
      sending.request.rank < bound

theorem Leaves.le {sending : Sending} {bound bound' : Nat} (h : Leaves sending bound)
    (hle : bound ≤ bound') : Leaves sending bound' :=
  h.imp_right fun hw => ⟨hw.1, hw.2.trans_le hle⟩

theorem rank_send (request : NatRequest) (socket : UdpSocket) (sendto : Sendto)
    (message : String) :
    (orFinish (request.sendAsyncProbeRequest socket sendto) message).request.rank =
      request.rank := by
  cases sendto with
  | failed => rfl
  | retriable => rfl
  | sent =>
    obtain ⟨endpoint, -, hrequest⟩ := resent_refresh request socket
      (request.probeAddrs request.probeIndex)
    exact (congrArg rank hrequest).trans rfl

theorem leaves_send (h : request.delivered = none) (socket : UdpSocket) (sendto : Sendto)
    (message : String) {bound : Nat} (hbound : request.rank < bound) :
    Leaves (orFinish (request.sendAsyncProbeRequest socket sendto) message) bound := by
  have hrank := rank_send request socket sendto message
  rcases send_cases request socket sendto message with
    ⟨-, -, -, result, hresult, -⟩ | ⟨⟨endpoint, -, hrequest⟩, -⟩
  · exact .inl (Option.isSome_of_eq_some hresult)
  · refine .inr ⟨?_, hrank.trans_lt hbound⟩
    rw [hrequest]
    exact ⟨h, rfl⟩

theorem leaves_advance (h : request.delivered = none) (socket : UdpSocket) (sendto : Sendto)
    (message : String) :
    Leaves (orFinish (request.advanceAsyncNatPhase socket sendto) message) request.rank := by
  have hsend : ∀ next : NatRequest, next.delivered = none → next.rank < request.rank →
      Leaves (orFinish (next.sendAsyncProbeRequest socket sendto) message) request.rank :=
    fun next hnone hlt => leaves_send hnone socket sendto message hlt
  unfold advanceAsyncNatPhase
  cases hphase : request.natPhase with
  | probe1 =>
    dsimp only
    split
    · refine hsend _ (by exact h) ?_
      simp only [rank, enterFilter, hphase, kAsyncFilterMaxAttempts]
      omega
    · split
      · refine hsend _ (by exact h) ?_
        simp only [rank, enterProbe2, hphase]
        omega
      · exact .inl rfl
  | filterChangePort =>
    refine hsend _ (by exact h) ?_
    simp only [rank, enterFilter, hphase, kAsyncFilterMaxAttempts]
    omega
  | filterChangeIp =>
    dsimp only
    split
    · refine hsend _ (by exact h) ?_
      simp only [rank, enterProbe2, hphase]
      omega
    · exact .inl rfl
  | probe2 => exact .inl rfl

theorem leaves_timeout (h : request.delivered = none) (socket : UdpSocket) (sendto : Sendto) :
    Leaves (request.asyncNatTimeoutCb socket sendto) request.rank := by
  unfold asyncNatTimeoutCb
  dsimp only
  split
  case isTrue hmore =>
    apply leaves_send
    · exact h
    · simp only [rank]
      omega
  case isFalse =>
    refine (leaves_advance ?_ socket sendto _).le ?_
    · exact h
    · simp only [rank]
      omega

theorem leaves_asyncNatIoCb (h : request.delivered = none) (harmed : request.timerArmed = true)
    (socket : UdpSocket) (source : Address) (frame : ProbeFrame) (sendto : Sendto) :
    Leaves (request.asyncNatIoCb socket source frame sendto) (request.rank + 1) := by
  have hmapping : ∀ mapped, Leaves (takeMapping { request with timerArmed := false } mapped socket
      sendto) (request.rank + 1) := by
    intro mapped
    unfold takeMapping
    dsimp only
    split
    case isTrue =>
      apply leaves_send
      · exact h
      · simp only [rank, recordMapping]
        omega
    case isFalse => exact (leaves_advance (by exact h) socket sendto _).le (Nat.le_succ _)
  have hfilter : ∀ portRx ipRx, Leaves (takeFilter { request with timerArmed := false } portRx ipRx
      socket sendto) (request.rank + 1) :=
    fun portRx ipRx => (leaves_advance (by exact h) socket sendto _).le (Nat.le_succ _)
  unfold asyncNatIoCb
  split
  case h_1 => exact .inr ⟨⟨h, harmed⟩, Nat.lt_succ_self _⟩
  case h_2 response _ =>
    unfold takeResponse
    dsimp only
    split
    · exact hfilter _ _
    · exact hfilter _ _
    · exact hmapping _
    · exact hmapping _

end NatRequest

end Eular.Ntrs
