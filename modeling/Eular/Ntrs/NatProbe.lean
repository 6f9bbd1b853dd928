/-
NAT detection in the client (`ntrs_client.cpp`): the phases a request goes
through and the class that is read off what they found.

`PROBE1` asks the primary server which address it sees, the two filter
phases ask it to have an answer sent from another port and from the secondary
server, `PROBE2` asks the secondary server what it sees. A phase ends with
its answers or with its attempts. Everything is taken from where the servers'
names are resolved on (`StartAsyncNatIo`) to the callback's result.

What is left out: the round-trip times, which only the statistics show, the
log, and the frames' bytes, of which there is the header and the fields that
are read. The arrays of two are functions of `Fin 2`, and the set of mapped
addresses' texts is the list of the addresses.
-/
import Eular.Lib.Translator
import Mathlib

namespace Eular.Ntrs

open Lib

/-- The literals of `Fin 2` rest on it. -/
scoped instance neZero_two : NeZero 2 := ⟨by decide⟩

-- ==== addresses

/-- An address as its text names it; of IPv4 the 32 bits in host order. -/
inductive Ip where
  | v4 (value : UInt32)
  | v6 (value : BitVec 128)
deriving DecidableEq

abbrev Address := Endpoint Ip UInt16

/-- `"0.0.0.0"`. -/
def Ip.any : Ip := .v4 0

def isIpv4Text : Ip → Bool
  | .v4 _ => true
  | .v6 _ => false

def isIpv6Text : Ip → Bool
  | .v4 _ => false
  | .v6 _ => true

def isPublicIpv4 : Ip → Bool
  | .v6 _ => false
  | .v4 value =>
    if value &&& 0xFF000000 = 0x0A000000 then false
    else if value &&& 0xFFF00000 = 0xAC100000 then false
    else if value &&& 0xFFFF0000 = 0xC0A80000 then false
    else if value &&& 0xFFC00000 = 0x64400000 then false
    else if value &&& 0xFF000000 = 0x7F000000 then false
    else if value &&& 0xFFFF0000 = 0xA9FE0000 then false
    else if value &&& 0xF0000000 = 0xE0000000 then false
    else if value = 0 ∨ value = 0xFFFFFFFF then false
    else true

/-- `SockaddrEndpoint` refuses port 0. -/
def sockaddrEndpoint (addr : Address) : Option Address :=
  if addr.port ≠ 0 then some addr else none

def sockaddrSameEndpoint (lhs rhs : Address) : Bool :=
  match sockaddrEndpoint lhs, sockaddrEndpoint rhs with
  | some lhs, some rhs => decide (lhs = rhs)
  | _, _ => false

-- ==== the verdict

/-- `NTRS_NAT_CLASS_*`. -/
inductive NatClass where
  | unknown
  | openPublic
  | openPublicWithFirewall
  | fullCone
  | ipRestricted
  | portRestricted
  | symmetric
  | symmetricMultiLine
  | udpBlocked
deriving DecidableEq, Repr

inductive NatMappingBehavior where
  | unknown
  | endpointIndependent
  | addressDependent
  | addressAndPortDependent
  | unstable
deriving DecidableEq, Repr

inductive NatFilteringBehavior where
  | unknown
  | endpointIndependent
  | addressDependent
  | addressAndPortDependent
  | blocked
deriving DecidableEq, Repr

/-- `nat_risk`. -/
inductive NatRisk where
  | low
  | medium
  | high
deriving DecidableEq, Repr

structure NatSample where
  localEndpoint : Address := ⟨.any, 0⟩
  srflx : Address := ⟨.any, 0⟩
  srflx2 : Address := ⟨.any, 0⟩
  mappingStable : Bool := false
  natRisk : NatRisk := .high
  probe1Ok : Bool := false
  probe2Ok : Bool := false
  probeRounds : Int := 0
  probe1SuccessCount : Nat := 0
  probe2SuccessCount : Nat := 0
  probe1DistinctMappings : Nat := 0
  probe2DistinctMappings : Nat := 0
  natClass : NatClass := .unknown
  mappingBehavior : NatMappingBehavior := .unknown
  filteringBehavior : NatFilteringBehavior := .unknown
  filterProbeExecuted : Bool := false
  filterSameIpDiffPortRx : Bool := false
  filterDiffIpRx : Bool := false
deriving DecidableEq

namespace NatSample

variable (nat : NatSample)

/-- The branch of `EvaluateNatResult` for IPv6. -/
def evaluateIpv6 : NatSample :=
  if !nat.probe1Ok then
    { nat with
      mappingStable := false, natRisk := .high, mappingBehavior := .unknown
      filteringBehavior := .blocked, natClass := .udpBlocked }
  else if nat.filterProbeExecuted && !nat.filterSameIpDiffPortRx && !nat.filterDiffIpRx then
    { nat with
      mappingStable := true, mappingBehavior := .unknown
      filteringBehavior := .addressAndPortDependent, natRisk := .high
      natClass := .openPublicWithFirewall }
  else
    { nat with
      mappingStable := true, mappingBehavior := .unknown, filteringBehavior := .unknown
      natClass := .openPublic, natRisk := .medium }

def sameMapping : Bool := decide (nat.srflx = nat.srflx2)

def unstableMapping : Bool :=
  decide (1 < nat.probe1DistinctMappings) || decide (1 < nat.probe2DistinctMappings)

def mappingOf : NatMappingBehavior :=
  if nat.unstableMapping then .unstable
  else if nat.sameMapping then .endpointIndependent
  else .addressDependent

def filteringOf : NatFilteringBehavior :=
  if !nat.sameMapping || nat.unstableMapping then .unknown
  else if nat.filterSameIpDiffPortRx && nat.filterDiffIpRx then .endpointIndependent
  else if nat.filterSameIpDiffPortRx && !nat.filterDiffIpRx then .addressDependent
  else if nat.filterProbeExecuted && !(nat.filterSameIpDiffPortRx || nat.filterDiffIpRx) then
    .addressAndPortDependent
  else .unknown

/-- The last chain of `EvaluateNatResult`: risk and class, once both probes
have answered. -/
def classOf : NatRisk × NatClass :=
  if (nat.probe2Ok && decide (nat.srflx.ip ≠ nat.srflx2.ip) && isIpv4Text nat.srflx.ip &&
      isIpv4Text nat.srflx2.ip) || nat.unstableMapping then (.high, .symmetricMultiLine)
  else if isPublicIpv4 nat.localEndpoint.ip && decide (nat.localEndpoint = nat.srflx) &&
      decide (nat.mappingBehavior = .endpointIndependent) && !nat.unstableMapping then
    (.low, .openPublic)
  else if nat.mappingBehavior = .unstable ∨ nat.mappingBehavior = .addressDependent ∨
      nat.mappingBehavior = .addressAndPortDependent then (.high, .symmetric)
  else if nat.filteringBehavior = .endpointIndependent then (.low, .fullCone)
  else if nat.filteringBehavior = .addressDependent then (.medium, .ipRestricted)
  else if nat.filteringBehavior = .addressAndPortDependent then (.high, .portRestricted)
  else (.high, .unknown)

def evaluateNatResult (hasProbe2 : Bool) : NatSample :=
  if isIpv6Text nat.localEndpoint.ip || isIpv6Text nat.srflx.ip || isIpv6Text nat.srflx2.ip then
    nat.evaluateIpv6
  else if !nat.probe1Ok then
    { nat with
      mappingStable := false, natRisk := .high, mappingBehavior := .unknown
      filteringBehavior := .blocked, natClass := .udpBlocked }
  else if !hasProbe2 then
    let localPublic := isPublicIpv4 nat.localEndpoint.ip
    { nat with
      mappingStable := true, mappingBehavior := .unknown, filteringBehavior := .unknown
      natClass := if localPublic then .openPublic else .unknown
      natRisk := if localPublic then .medium else .high }
  else if !nat.probe2Ok then
    { nat with
      mappingStable := false, mappingBehavior := .unknown, filteringBehavior := .unknown
      natClass := .unknown, natRisk := .high }
  else
    let judged := { nat with
      mappingStable := nat.sameMapping, mappingBehavior := nat.mappingOf
      filteringBehavior := nat.filteringOf }
    { judged with natRisk := judged.classOf.1, natClass := judged.classOf.2 }

end NatSample

-- ==== frames

/-- `ntrs_binary_frame_type_t`. -/
inductive BinaryFrameType where
  | unknown
  | probeReq
  | probeRsp
  | filterReq
  | filterRsp
  | punchReq
  | punchAck
deriving DecidableEq, Repr

/-- `ntrs_binary_phase_t`. -/
inductive BinaryPhase where
  | unknown
  | probe1
  | changePort
  | changeIp
  | probe2
  | punch
deriving DecidableEq, Repr

inductive AsyncNatPhase where
  | probe1
  | probe2
  | filterChangePort
  | filterChangeIp
deriving DecidableEq, Repr

namespace AsyncNatPhase

/-- The value of the enumeration. -/
def value : AsyncNatPhase → UInt64
  | .probe1 => 0
  | .probe2 => 1
  | .filterChangePort => 2
  | .filterChangeIp => 3

/-- `AsyncNatPhaseToBinaryPhase`. -/
def toBinary : AsyncNatPhase → BinaryPhase
  | .probe1 => .probe1
  | .probe2 => .probe2
  | .filterChangePort => .changePort
  | .filterChangeIp => .changeIp

/-- `AsyncNatPhaseIsFilter`. -/
def isFilter (phase : AsyncNatPhase) : Bool :=
  decide (phase = .filterChangePort) || decide (phase = .filterChangeIp)

end AsyncNatPhase

/-- The 12 bytes of a probe token: those of the seed and those of the change
request. -/
structure ProbeToken where
  seed : UInt64 := 0
  changeRequest : UInt32 := 0
deriving DecidableEq, Repr

/-- A probe or filter request on the wire. -/
structure ProbeRequest where
  frameType : BinaryFrameType
  phase : BinaryPhase
  requestId : UInt32
  sequence : Int
  token : ProbeToken
deriving DecidableEq

/-- A frame that comes in, with the fields an answer has. -/
structure ProbeFrame where
  frameType : BinaryFrameType
  phase : BinaryPhase
  token : Option ProbeToken
  mappedAddr : Option Address
  originAddr : Option Address
  otherAddr : Option Address
deriving DecidableEq

structure StunResponseInfo where
  mapped : Address
  responseOrigin : Option Address
  otherAddress : Option Address
deriving DecidableEq

def parseAsyncNatProbeResponseFrame (frame : ProbeFrame) (expectedPhase : BinaryPhase)
    (expectedToken : ProbeToken) : Option StunResponseInfo :=
  if frame.phase ≠ expectedPhase then none
  else if frame.frameType ≠ .probeRsp ∧ frame.frameType ≠ .filterRsp then none
  else if frame.token ≠ some expectedToken then none
  else
    match frame.mappedAddr.bind sockaddrEndpoint with
    | none => none
    | some mapped => some ⟨mapped, frame.originAddr, frame.otherAddr⟩

-- ==== the request

/-- What `FillNatInfo` copies out of the sample. -/
structure NatInfo where
  localEndpoint : Address := ⟨.any, 0⟩
  srflx : Address := ⟨.any, 0⟩
  srflx2 : Address := ⟨.any, 0⟩
  probe1Ok : Bool := false
  probe2Ok : Bool := false
  probeRounds : Int := 3
  probe1SuccessCount : Nat := 0
  probe2SuccessCount : Nat := 0
  probe1DistinctMappings : Nat := 0
  probe2DistinctMappings : Nat := 0
  natClass : NatClass := .unknown
deriving DecidableEq

def fillNatInfo (sample : NatSample) : NatInfo where
  localEndpoint := sample.localEndpoint
  srflx := sample.srflx
  srflx2 := sample.srflx2
  probe1Ok := sample.probe1Ok
  probe2Ok := sample.probe2Ok
  probeRounds := sample.probeRounds
  probe1SuccessCount := sample.probe1SuccessCount
  probe2SuccessCount := sample.probe2SuccessCount
  probe1DistinctMappings := sample.probe1DistinctMappings
  probe2DistinctMappings := sample.probe2DistinctMappings
  natClass := sample.natClass

/-- `ntrs_async_result_t`, of it what a detection sets. -/
structure AsyncResult where
  success : Bool := false
  errorMessage : String := ""
  natInfo : NatInfo := {}
deriving DecidableEq

/-- What a detection uses of `AsyncRequest`; `delivered` is what the callback
got, after which the request is gone. -/
structure NatRequest where
  requestId : UInt64
  probeAddrs : Fin 2 → Address
  hasProbe2 : Bool
  natEnableFilterProbe : Bool
  natPhase : AsyncNatPhase := .probe1
  probeIndex : Fin 2 := 0
  probeAttempts : Int := 0
  probeMaxAttempts : Int
  probePhaseMaxAttempts : Int
  probeSuccessTarget : Int
  probeSuccessCount : Fin 2 → Nat := fun _ => 0
  probeMappings : Fin 2 → List Address := fun _ => []
  probeChangeRequest : UInt32 := 0
  probeToken : ProbeToken := {}
  natSample : NatSample := {}
  timerArmed : Bool := false
  delivered : Option AsyncResult := none

/-- `ntrs_detect_nat_options_t`. -/
structure DetectNatOptions where
  probeRounds : Int32 := 3
  retriesPerRound : Int32 := 3
  enableFilterProbe : Bool := true
deriving DecidableEq

def kStunChangeIp : UInt32 := 0x04
def kStunChangePort : UInt32 := 0x02
def kAsyncFilterMaxAttempts : Int := 2

/-- `SubmitAsyncNatRequest`: the request as it is set up. -/
def submitAsyncNatRequest (requestId : UInt64) (options : DetectNatOptions) (hasProbe2 : Bool)
    (probeAddrs : Fin 2 → Address) : NatRequest :=
  let probeRounds := if options.probeRounds ≤ 0 then 3 else options.probeRounds
  let retriesPerRound := if options.retriesPerRound ≤ 0 then 3 else options.retriesPerRound
  let maxAttempts := (probeRounds * retriesPerRound).toInt
  { requestId, probeAddrs, hasProbe2
    natEnableFilterProbe := options.enableFilterProbe
    probeMaxAttempts := maxAttempts
    probePhaseMaxAttempts := maxAttempts
    probeSuccessTarget := probeRounds.toInt }

/-- The UDP socket: what `getsockname` says of it, and what it says while it
is connected to a remote (`RefreshLocalEndpointForRemote`). -/
structure UdpSocket where
  name : Address
  route : Address → Option Address

/-- What `sendto` does: it sends, it would block or was interrupted, it
fails. -/
inductive Sendto where
  | sent
  | retriable
  | failed
deriving DecidableEq, Repr

/-- What a function that may send leaves: what it returns, the request, and
what has gone out. -/
structure Sending where
  ok : Bool
  request : NatRequest
  packet : Option (Address × ProbeRequest) := none

namespace NatRequest

variable (request : NatRequest)

def buildAsyncNatProbeToken : ProbeToken where
  seed := request.requestId ^^^ (request.natPhase.value <<< 40) ^^^
    (UInt64.ofNat request.probeIndex.val <<< 32)
  changeRequest := request.probeChangeRequest

def buildAsyncNatProbeRequestFrame (token : ProbeToken) : ProbeRequest where
  frameType := if request.natPhase.isFilter then .filterReq else .probeReq
  phase := request.natPhase.toBinary
  requestId := request.requestId.toUInt32
  sequence := request.probeAttempts + 1
  token := token

/-- `SetAsyncError` and `AsyncRequestFinish`. -/
def asyncRequestFinish (result : AsyncResult)
    (errorMessage : Option String) : NatRequest :=
  { request with
    timerArmed := false
    delivered := some
      (match errorMessage with
        | none => result
        | some message => { result with success := false, errorMessage := message }) }

def armAsyncProbeTimer : NatRequest :=
  { request with timerArmed := true }

variable (socket : UdpSocket)

/-- The local endpoint is looked up again while it is not known. The socket
is connected for it and released again, which leaves it the port it was bound
to; `PrivateSocket` rules out a port it would lose. -/
def refreshLocalEndpoint (remote : Address) : NatRequest :=
  if request.natSample.localEndpoint.port = 0 ∨ request.natSample.localEndpoint.ip = .any then
    match socket.route remote with
    | none => request
    | some endpoint =>
      { request with natSample := { request.natSample with localEndpoint := endpoint } }
  else request

variable (sendto : Sendto)

def sendAsyncProbeRequest :
    Sending :=
  let token := request.buildAsyncNatProbeToken
  let marked := { request with probeToken := token }
  let remote := request.probeAddrs request.probeIndex
  match sendto with
  | .failed => ⟨false, marked, none⟩
  | .retriable => ⟨true, marked.armAsyncProbeTimer, none⟩
  | .sent =>
    ⟨true, (marked.refreshLocalEndpoint socket remote).armAsyncProbeTimer,
      some (remote, request.buildAsyncNatProbeRequestFrame token)⟩

/-- What `FinishAsyncNatDetection` writes into the sample first. -/
def summarize : NatSample :=
  let sample := request.natSample
  let sample :=
    if 0 < request.probeSuccessCount 0 then
      { sample with
        probe1Ok := true
        probe1SuccessCount := request.probeSuccessCount 0
        probe1DistinctMappings := (request.probeMappings 0).length }
    else sample
  if 0 < request.probeSuccessCount 1 then
    { sample with
      probe2Ok := true
      probe2SuccessCount := request.probeSuccessCount 1
      probe2DistinctMappings := (request.probeMappings 1).length }
  else sample

def finishAsyncNatDetection : NatRequest :=
  let hasProbe2 := request.hasProbe2 && decide (0 < request.probeSuccessCount 1)
  let sample := request.summarize.evaluateNatResult hasProbe2
  let result : AsyncResult := { success := sample.probe1Ok, natInfo := fillNatInfo sample }
  asyncRequestFinish { request with natSample := sample }
    (if sample.probe1Ok then result else { result with errorMessage := "detect nat failed" }) none

/-- The request enters a filter phase. -/
def enterFilter (phase : AsyncNatPhase) (change : UInt32) : NatRequest :=
  { request with
    natPhase := phase, probeIndex := 0, probeAttempts := 0
    probeMaxAttempts := kAsyncFilterMaxAttempts, probeChangeRequest := change }

/-- The request enters `PROBE2`. -/
def enterProbe2 (maxAttempts : Int) : NatRequest :=
  { request with
    natPhase := .probe2, probeIndex := 1, probeAttempts := 0
    probeMaxAttempts := maxAttempts, probeChangeRequest := 0 }

def advanceAsyncNatPhase :
    Sending :=
  match request.natPhase with
  | .probe1 =>
    if request.hasProbe2 && request.natEnableFilterProbe then
      let entered := request.enterFilter .filterChangePort kStunChangePort
      sendAsyncProbeRequest
        { entered with natSample := { entered.natSample with filterProbeExecuted := true } }
        socket sendto
    else if request.hasProbe2 then
      sendAsyncProbeRequest (request.enterProbe2 request.probeMaxAttempts) socket sendto
    else ⟨true, request.finishAsyncNatDetection, none⟩
  | .probe2 => ⟨true, request.finishAsyncNatDetection, none⟩
  | .filterChangePort =>
    sendAsyncProbeRequest (request.enterFilter .filterChangeIp kStunChangeIp) socket sendto
  | .filterChangeIp =>
    if request.hasProbe2 then
      sendAsyncProbeRequest (request.enterProbe2 request.probePhaseMaxAttempts) socket sendto
    else ⟨true, request.finishAsyncNatDetection, none⟩

/-- A callback that sends or advances: where that fails, the request ends with
the message. -/
def orFinish (sending : Sending) (message : String) : Sending :=
  if sending.ok then sending
  else { sending with request := sending.request.asyncRequestFinish {} (some message) }

def asyncNatTimeoutCb : Sending :=
  let tried :=
    { request with timerArmed := false, probeAttempts := request.probeAttempts + 1 }
  if tried.probeAttempts < tried.probeMaxAttempts then
    orFinish (tried.sendAsyncProbeRequest socket sendto) "send probe request failed"
  else orFinish (tried.advanceAsyncNatPhase socket sendto) "advance nat phase failed"

def asyncFilterResponseValid (source : Address)
    (response : StunResponseInfo) : Bool :=
  match sockaddrEndpoint source, sockaddrEndpoint (request.probeAddrs 0) with
  | some source, some primary =>
    if request.natPhase = .filterChangePort then
      match response.responseOrigin with
      | none => false
      | some origin =>
        if source ≠ origin ∨ origin.ip ≠ primary.ip ∨ origin.port = primary.port then false
        else
          match response.otherAddress with
          | none => true
          | some other => decide (other = primary)
    else if request.natPhase ≠ .filterChangeIp ∨ request.hasProbe2 = false then false
    else
      match sockaddrEndpoint (request.probeAddrs 1) with
      | none => false
      | some secondary =>
        decide (response.responseOrigin = some source) &&
          decide (response.responseOrigin = some secondary)
  | _, _ => false

/-- What `AsyncNatIoCb` checks of a datagram; it goes on to the next one where
this is `none`. -/
def accepts (source : Address) (frame : ProbeFrame) :
    Option StunResponseInfo :=
  match parseAsyncNatProbeResponseFrame frame request.natPhase.toBinary request.probeToken with
  | none => none
  | some response =>
    if request.natPhase.isFilter then
      if request.asyncFilterResponseValid source response then some response else none
    else if sockaddrSameEndpoint source (request.probeAddrs request.probeIndex) then
      some response
    else none

/-- A mapping probe was answered: the counts and the address seen. -/
def recordMapping (mapped : Address) : NatRequest :=
  let sample := request.natSample
  { request with
    probeSuccessCount := Function.update request.probeSuccessCount request.probeIndex
      (request.probeSuccessCount request.probeIndex + 1)
    probeMappings := Function.update request.probeMappings request.probeIndex
      ((request.probeMappings request.probeIndex).insert mapped)
    natSample :=
      if request.probeIndex = 0 then { sample with srflx := mapped }
      else { sample with srflx2 := mapped } }

/-- What `AsyncNatIoCb` does with the answer to a mapping probe. -/
def takeMapping (mapped : Address) (socket : UdpSocket)
    (sendto : Sendto) : Sending :=
  let counted := request.recordMapping mapped
  if (counted.probeSuccessCount counted.probeIndex : Int) < counted.probeSuccessTarget ∧
      counted.probeAttempts + 1 < counted.probeMaxAttempts then
    orFinish (sendAsyncProbeRequest
      { counted with probeAttempts := counted.probeAttempts + 1 } socket sendto)
      "send probe request failed"
  else orFinish (counted.advanceAsyncNatPhase socket sendto) "advance nat phase failed"

/-- What it does with the answer to a filter probe. -/
def takeFilter (portRx ipRx : Bool) (socket : UdpSocket)
    (sendto : Sendto) : Sending :=
  orFinish (advanceAsyncNatPhase
    { request with natSample := { request.natSample with
      filterProbeExecuted := true, filterSameIpDiffPortRx := portRx, filterDiffIpRx := ipRx } }
    socket sendto) "advance nat phase failed"

/-- The rest of a turn of `AsyncNatIoCb`, once the datagram is taken. -/
def takeResponse (response : StunResponseInfo) (socket : UdpSocket)
    (sendto : Sendto) : Sending :=
  let request := { request with timerArmed := false }
  match request.natPhase with
  | .filterChangePort => request.takeFilter true request.natSample.filterDiffIpRx socket sendto
  | .filterChangeIp =>
    request.takeFilter request.natSample.filterSameIpDiffPortRx true socket sendto
  | .probe1 | .probe2 => request.takeMapping response.mapped socket sendto

/-- A turn of the loop in `AsyncNatIoCb`: a datagram that is not accepted is
dropped and the loop goes on. -/
def asyncNatIoCb (source : Address)
    (frame : ProbeFrame) (sendto : Sendto) : Sending :=
  match request.accepts source frame with
  | none => ⟨true, request, none⟩
  | some response => request.takeResponse response socket sendto

def initAsyncNatSample : NatRequest :=
  { request with
    natSample :=
      { probeRounds := request.probeSuccessTarget
        localEndpoint := (sockaddrEndpoint socket.name).getD ⟨.any, 0⟩ } }

def startAsyncNatIo : Sending :=
  orFinish ((request.initAsyncNatSample socket).sendAsyncProbeRequest socket sendto)
    "start async nat request failed"

end NatRequest

end Eular.Ntrs
