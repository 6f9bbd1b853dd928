/-
The control block outside the transfer (`kcpp.c`, `kcp_protocol.c`): how a
client connects, how either side closes, and the two timers that carry
both.

A step is one thing that happens to a connection: a packet of its peer, a
timer running out, the write event, a call of the application. What the
socket answers to a call of `kcp_send_packet` is an input, and so is the
time. `XXH32` of the time stamp, from which a SYN or a FIN takes its
number, is the parameter `xxh32`. Memory is taken to be there whenever it
is asked for, and assertions are compiled out.

A `ClosingPair` is two connected endpoints that close. Between them is a
network that may lose, copy and reorder what the sockets have taken: the
packets under way to a side are a list, and a step takes, drops or copies
one of them. Of the transfer that may still go on there is only what the
control blocks see of it: a packet of it comes in, or it gives the peer up.
-/
import Eular.Kcp.Segment
import Eular.Lib.Run

namespace Eular.Kcp

-- ==== constants

def KCP_CMD_SYN : Nat := 1

def KCP_CMD_FIN : Nat := 10

def DEFAULT_SYN_FIN_RETRIES : Nat := 2

def KCP_P2P_MAX_CANDIDATES : Nat := 8

/-- The codes the callbacks are given (`kcp_error.h`). -/
def NO_ERROR : Int := 0

def INVALID_PARAM : Int := -22

def TIMED_OUT : Int := -110

def WRITE_ERROR : Int := -10999

def CONNECTION_CLOSED : Int := -109989

def CONNECTION_RESET : Int := -109988

def CONNECTION_REFUSED : Int := -109986

/-- `x--` of a `uint32_t`. -/
def dec32 (n : Nat) : Nat := if n = 0 then 2 ^ 32 - 1 else n - 1

theorem dec32_lt {n : Nat} (h : n ≠ 0) : dec32 n < n := by
  rw [dec32, if_neg h]
  omega

-- ==== pieces

/-- What a call of `kcp_send_packet` with one datagram returns, and whether
`errno` reads `EAGAIN` or `EWOULDBLOCK` afterwards. -/
structure SendAnswer where
  status : Int
  again : Bool := false
deriving DecidableEq, Repr

/-- An `event *` of libevent: none, one that is not scheduled, one that is. -/
inductive KcpTimer where
  | null
  | idle
  | pending
deriving DecidableEq, Repr

/-- The function `fin_timer_event` was made with. -/
inductive FinCallback where
  | closeTimeout
  | finPacketTimeout
deriving DecidableEq, Repr

/-- `kcp_proto_header_t` of a SYN or a FIN. -/
structure KcpSynFin where
  cmd : Nat
  packetTs : Nat
  ts : Nat
  packetSn : Nat
  randSn : Nat
deriving DecidableEq, Repr

/-- What a packet says to the control block. -/
inductive ControlBody where
  | syn (packetSn randSn : Nat)
  | fin (packetSn randSn : Nat)
  | ack (sn : Nat)
  | push
  | rst
  | other
deriving DecidableEq, Repr

/-- A packet, with the two connection ids of its header. -/
structure ControlPacket where
  scid : Nat
  dcid : Nat
  body : ControlBody
deriving DecidableEq, Repr

/-- The callbacks of the application. -/
inductive KcpCallback where
  | connected (code : Int)
  | accepted (code : Int)
  | closed (code : Int)
  | error (code : Int)
deriving DecidableEq, Repr

/-- `KcpConnection`, its fields outside the transfer. An address is a
number. -/
structure KcpControl where
  /-- the context has an `on_connected`; it has an `on_accepted` otherwise -/
  client : Bool
  /-- the context has an `on_closed` -/
  onClosed : Bool
  scid : Nat
  dcid : Nat
  remoteHost : Nat
  candidates : List Nat := []
  state : KcpConnectionState := .DISCONNECTED
  synRetries : Int := DEFAULT_SYN_FIN_RETRIES
  finRetries : Nat := DEFAULT_SYN_FIN_RETRIES
  synTimer : KcpTimer := .null
  finTimer : KcpTimer := .null
  finCallback : FinCallback := .closeTimeout
  /-- `kcp_proto_header_list` -/
  headers : List KcpSynFin := []
  /-- it is in `conn_write_event_queue` -/
  queued : Bool := false
  /-- the calls of `kcp_connection_destroy` -/
  destroyed : Nat := 0
  /-- the callbacks so far -/
  callbacks : List KcpCallback := []
  /-- the packets the socket has taken; one entry for all candidates -/
  outbox : List ControlPacket := []
deriving DecidableEq, Repr

namespace KcpControl

variable (c : KcpControl)

def call (callback : KcpCallback) : KcpControl :=
  { c with callbacks := c.callbacks ++ [callback] }

/-- `on_closed`, if there is one. -/
def callClosed (code : Int) : KcpControl :=
  if c.onClosed then c.call (.closed code) else c

/-- `on_accepted`, if there is one. -/
def callAccepted (code : Int) : KcpControl :=
  if c.client then c else c.call (.accepted code)

/-- `kcp_connection_destroy`. -/
def destroy : KcpControl :=
  { c with
    queued := false
    synTimer := .null
    finTimer := .null
    headers := []
    destroyed := c.destroyed + 1 }

/-- A packet is sent; if the socket takes it, it is on its way. -/
def emit (body : ControlBody) (taken : Bool) : KcpControl :=
  if taken then { c with outbox := c.outbox ++ [ControlPacket.mk c.scid c.dcid body] } else c

@[simp] theorem emit_fields (body : ControlBody) (taken : Bool) :
    (c.emit body taken).client = c.client ∧ (c.emit body taken).onClosed = c.onClosed ∧
    (c.emit body taken).scid = c.scid ∧ (c.emit body taken).dcid = c.dcid ∧
    (c.emit body taken).remoteHost = c.remoteHost ∧
    (c.emit body taken).candidates = c.candidates ∧ (c.emit body taken).state = c.state ∧
    (c.emit body taken).synRetries = c.synRetries ∧
    (c.emit body taken).finRetries = c.finRetries ∧ (c.emit body taken).synTimer = c.synTimer ∧
    (c.emit body taken).finTimer = c.finTimer ∧
    (c.emit body taken).finCallback = c.finCallback ∧ (c.emit body taken).headers = c.headers ∧
    (c.emit body taken).queued = c.queued ∧ (c.emit body taken).destroyed = c.destroyed ∧
    (c.emit body taken).callbacks = c.callbacks := by
  cases taken <;> simp [emit]

/-- `on_closed` changes nothing but what the application has been told. -/
@[simp] theorem callClosed_fields (code : Int) :
    (c.callClosed code).client = c.client ∧ (c.callClosed code).onClosed = c.onClosed ∧
    (c.callClosed code).candidates = c.candidates ∧ (c.callClosed code).state = c.state ∧
    (c.callClosed code).synRetries = c.synRetries ∧
    (c.callClosed code).finRetries = c.finRetries ∧ (c.callClosed code).synTimer = c.synTimer ∧
    (c.callClosed code).finTimer = c.finTimer ∧
    (c.callClosed code).finCallback = c.finCallback ∧ (c.callClosed code).headers = c.headers ∧
    (c.callClosed code).queued = c.queued ∧ (c.callClosed code).destroyed = c.destroyed ∧
    (c.callClosed code).outbox = c.outbox := by
  unfold callClosed
  split <;> simp [call]

/-- `on_accepted` changes nothing but what the application has been told. -/
@[simp] theorem callAccepted_fields (code : Int) :
    (c.callAccepted code).client = c.client ∧ (c.callAccepted code).onClosed = c.onClosed ∧
    (c.callAccepted code).candidates = c.candidates ∧ (c.callAccepted code).state = c.state ∧
    (c.callAccepted code).synRetries = c.synRetries ∧
    (c.callAccepted code).finRetries = c.finRetries ∧
    (c.callAccepted code).synTimer = c.synTimer ∧
    (c.callAccepted code).finTimer = c.finTimer ∧
    (c.callAccepted code).finCallback = c.finCallback ∧
    (c.callAccepted code).headers = c.headers ∧ (c.callAccepted code).queued = c.queued ∧
    (c.callAccepted code).destroyed = c.destroyed ∧
    (c.callAccepted code).outbox = c.outbox := by
  unfold callAccepted
  split <;> simp [call]

/-- `kcp_add_write_event`. -/
def addWriteEvent : KcpControl := { c with queued := true }

/-- A header is kept until the connection goes. -/
def keep (header : KcpSynFin) : KcpControl :=
  { c with headers := c.headers ++ [header] }

-- ==== connecting

/-- One candidate: it is tried once more if the first try fails. The first
component is whether somebody took the SYN, the second `last_error`. -/
def trySyn (answers : Nat → Int × Int) (r : Bool × Int) (i : Nat) : Bool × Int :=
  if 0 < (answers i).1 then (true, r.2)
  else if 0 < (answers i).2 then (true, (answers i).1)
  else (r.1, (answers i).2)

/-- The loop over the candidates; `answers i` are the socket's answers to the
two tries at candidate `i`. -/
def trySyns (candidates : List Nat) (answers : Nat → Int × Int) : Bool × Int :=
  (List.range candidates.length).foldl (trySyn answers) (false, WRITE_ERROR)

/-- `kcp_send_syn_to_candidates`. -/
def sendSynToCandidates (candidates : List Nat) (answers : Nat → Int × Int) : Int :=
  let r := trySyns candidates answers
  if r.1 then NO_ERROR else r.2

variable (xxh32 : Nat → Nat)

/-- `kcp_connect_candidates`, in a context whose socket is open, that does
not listen and has no connection; `scid` is what `kcp_alloc_local_scid`
answers. -/
def connectCandidates (onClosed : Bool) (candidates : List Nat)
    (timeoutMs : Nat) (scid : Except Int Nat) (now : Nat) (answers : Nat → Int × Int) :
    Except Int KcpControl :=
  match candidates with
  | [] => .error INVALID_PARAM
  | host :: rest =>
    if timeoutMs = 0 ∨ KCP_P2P_MAX_CANDIDATES < (host :: rest).length then .error INVALID_PARAM
    else match scid with
      | .error status => .error status
      | .ok scid =>
        let status := sendSynToCandidates (host :: rest) answers
        if status ≠ NO_ERROR then .error status
        else .ok {
          client := true
          onClosed
          scid
          dcid := 0
          remoteHost := host
          candidates := host :: rest
          state := .SYN_SENT
          synTimer := .pending
          headers := [KcpSynFin.mk KCP_CMD_SYN 0 now 0 (xxh32 now)]
          outbox :=
            if (trySyns (host :: rest) answers).1 then
              [ControlPacket.mk scid 0 (.syn 0 (xxh32 now))]
            else [] }

/-- The end of `kcp_connect_timeout` after a SYN was sent. -/
def rearmSyn (status : Int) : KcpControl :=
  if status ≤ 0 then c.call (.error WRITE_ERROR) else { c with synTimer := .pending }

/-- `kcp_connect_timeout`; `answer` is the socket's to `kcp_send_packet`, when
that is what is called. -/
def connectTimeout (c : KcpControl) (now : Nat) (answers : Nat → Int × Int)
    (answer : SendAnswer) : KcpControl :=
  let retries := c.synRetries
  let c := { c with synRetries := i32 (retries - 1) }
  if retries ≠ 0 then
    let c := c.keep (KcpSynFin.mk KCP_CMD_SYN 0 now 0 (xxh32 now))
    let toCandidates : Bool := 0 < c.candidates.length ∧ c.state = .SYN_SENT
    let status := if toCandidates then sendSynToCandidates c.candidates answers else answer.status
    let c := c.emit (.syn 0 (xxh32 now))
      (if toCandidates then (trySyns c.candidates answers).1 else 0 < answer.status)
    c.rearmSyn status
  else (c.call (.connected TIMED_OUT)).destroy

/-- `on_kcp_syn_received` at a client: the SYN answers one of the client's own. -/
def onSynReceived (host scid packetSn randSn : Nat) (answer : SendAnswer) :
    KcpControl :=
  if c.headers.any (fun pos => pos.cmd = KCP_CMD_SYN && pos.randSn = packetSn) then
    let c := { c with dcid := scid, remoteHost := host }
    if answer.status < 0 then
      if c.state = .SYN_SENT ∧ 1 < c.candidates.length then c
      else { c with state := .DISCONNECTED }.call (.error WRITE_ERROR)
    else
      let c : KcpControl := { c.emit (.ack randSn) (0 < answer.status) with synTimer := .null }
      if c.state = .SYN_SENT then { c with state := .CONNECTED }.call (.connected NO_ERROR) else c
  else c

-- ==== closing

/-- `kcp_close_timeout`. -/
def closeTimeout (c : KcpControl) (now : Nat) (answer : SendAnswer) :
    KcpControl :=
  let retries := c.finRetries
  let c := { c with finRetries := dec32 retries }
  if retries ≠ 0 then
    let c := c.keep (KcpSynFin.mk KCP_CMD_FIN 0 now 0 (xxh32 now))
    let c := c.emit (.fin 0 (xxh32 now)) (0 < answer.status)
    if answer.status ≠ 1 then
      if answer.again then { c.addWriteEvent with finTimer := .pending }
      else c.call (.error WRITE_ERROR)
    else { c with finTimer := .pending }
  else c

/-- `on_fin_packet_timeout_cb`. -/
def finPacketTimeout (c : KcpControl) (now : Nat) (answer : SendAnswer) :
    KcpControl :=
  let retries := c.finRetries
  let c := { c with finRetries := dec32 retries }
  if retries ≠ 0 then
    let packetSn := ((c.headers.find? fun pos => pos.cmd = KCP_CMD_FIN).map (·.packetSn)).getD 0
    let c := c.keep (KcpSynFin.mk KCP_CMD_FIN now now packetSn (xxh32 now))
    { c.emit (.fin packetSn (xxh32 now)) (0 < answer.status) with finTimer := .pending }
  else if c.onClosed then ({ c with state := .DISCONNECTED }.call (.closed TIMED_OUT)).destroy
  else c.destroy

/-- `evtimer_new` where there is no timer yet, and `evtimer_add`. -/
def armFin (callback : FinCallback) : KcpControl :=
  { c with
    finTimer := .pending
    finCallback := if c.finTimer = .null then callback else c.finCallback }

/-- `kcp_shutdown`. -/
def shutdown (answer : SendAnswer) : KcpControl :=
  let c :=
    if c.state = .DISCONNECTED then c
    else { c.emit .rst (0 < answer.status) with state := .DISCONNECTED }
  (c.callClosed NO_ERROR).destroy

/-- `kcp_close`. -/
def close (c : KcpControl) (now : Nat) (answer : SendAnswer) : KcpControl :=
  match c.state with
  | .DISCONNECTED => (c.callClosed NO_ERROR).destroy
  | .SYN_SENT | .SYN_RECEIVED => c.shutdown answer
  | .CONNECTED =>
    let c := c.keep (KcpSynFin.mk KCP_CMD_FIN 0 now 0 (xxh32 now))
    let c := { c.emit (.fin 0 (xxh32 now)) (0 < answer.status) with state := .FIN_SENT }
    if answer.status ≤ 0 then
      if answer.again then c.addWriteEvent.armFin .closeTimeout else c.call (.error WRITE_ERROR)
    else c.armFin .closeTimeout
  | .FIN_SENT | .FIN_RECEIVED => c

/-- `on_kcp_fin_pcaket`. -/
def onFin (c : KcpControl) (randSn now : Nat) (answer : SendAnswer) :
    KcpControl :=
  let c := c.keep (KcpSynFin.mk KCP_CMD_FIN now now randSn (xxh32 now))
  let c := { c.emit (.fin randSn (xxh32 now)) (0 < answer.status) with state := .FIN_RECEIVED }
  c.armFin .finPacketTimeout

-- ==== packets coming

/-- `KCP_CMD_RST` in `on_kcp_read_event`. -/
def onRst : KcpControl :=
  match c.state with
  | .SYN_SENT => { c with state := .DISCONNECTED }.call (.connected CONNECTION_REFUSED)
  | .SYN_RECEIVED => { c with state := .DISCONNECTED }.callAccepted CONNECTION_RESET
  | .DISCONNECTED => c
  | _ => { c with state := .DISCONNECTED }.callClosed CONNECTION_RESET

/-- A FIN of the connection has number `sn`. -/
def hasFin (sn : Nat) : Bool :=
  c.headers.any fun pos => pos.cmd = KCP_CMD_FIN && pos.randSn = sn

/-- Another packet in `on_kcp_read_event`, by the state it finds. Of the
packets of the transfer only the FIN concerns the control block. -/
def onPacket (c : KcpControl) (body : ControlBody) (now : Nat)
    (answer : SendAnswer) : KcpControl :=
  match c.state, body with
  | .SYN_RECEIVED, .ack _ | .SYN_RECEIVED, .push =>
    { c with state := .CONNECTED, synTimer := .null }.callAccepted NO_ERROR
  | .SYN_RECEIVED, _ =>
    let c := { c.emit .rst (0 < answer.status) with state := .DISCONNECTED }
    (c.callAccepted CONNECTION_RESET).destroy
  | .CONNECTED, .fin _ randSn => c.onFin xxh32 randSn now answer
  | .FIN_SENT, .fin packetSn randSn =>
    if c.hasFin packetSn then
      { c.emit (.ack randSn) (0 < answer.status) with state := .DISCONNECTED }.callClosed NO_ERROR
    else c
  | .FIN_RECEIVED, .fin _ randSn =>
    (c.keep (KcpSynFin.mk KCP_CMD_FIN now now randSn (xxh32 now))).emit
      (.fin randSn (xxh32 now)) (0 < answer.status)
  | .FIN_RECEIVED, .ack sn =>
    if c.hasFin sn then { c with state := .DISCONNECTED }.callClosed NO_ERROR else c
  | _, _ => c

/-- A packet of a candidate makes it the peer, as long as the SYN is out. -/
def fromCandidate (host : Nat) : KcpControl :=
  if c.state = .SYN_SENT ∧ host ∈ c.candidates then { c with remoteHost := host } else c

/-- `on_kcp_read_event`. -/
def readEvent (c : KcpControl) (body : ControlBody) (host now : Nat)
    (answer : SendAnswer) : KcpControl :=
  let c := c.fromCandidate host
  if c.remoteHost ≠ host then c
  else match body with
    | .rst => c.onRst
    | body => c.onPacket xxh32 body now answer

/-- `kcp_parse_packet`, on one packet: the connection is looked up by the
peer's id, a client has only the one. A SYN that reaches a server is for a
connection to come. -/
def parsePacket (c : KcpControl) (packet : ControlPacket) (host now : Nat)
    (answer : SendAnswer) : KcpControl :=
  if ¬c.client ∧ packet.scid ≠ c.dcid ∨ packet.dcid ≠ 0 ∧ packet.dcid ≠ c.scid then c
  else match packet.body with
    | .syn packetSn randSn =>
      if c.client then c.onSynReceived host packet.scid packetSn randSn answer else c
    | body =>
      let c := c.readEvent xxh32 body host now answer
      if c.state = .DISCONNECTED then c.destroy else c

-- ==== the write event

/-- The header a write event sends once more: the last one. -/
def resend (taken : Bool) : KcpControl :=
  match c.headers.getLast? with
  | none => c
  | some pos =>
    if pos.cmd = KCP_CMD_SYN then c.emit (.syn pos.packetSn pos.randSn) taken
    else c.emit (.fin pos.packetSn pos.randSn) taken

/-- What `kcp_write_cb` makes of an answer that is no success: the connection
stays in the queue. -/
def writeFailed (answer : SendAnswer) : KcpControl :=
  if answer.again then c else c.call (.error WRITE_ERROR)

/-- `on_kcp_write_event` of a connection in the queue, for `kcp_write_cb`. Once
connected it is the flush, which is not told here. -/
def writeEvent (now : Nat) (answers : Nat → Int × Int) (answer : SendAnswer) :
    KcpControl :=
  match c.state with
  | .DISCONNECTED => c.call (.error CONNECTION_CLOSED)
  | .SYN_SENT | .SYN_RECEIVED =>
    let c := { c with
      headers := c.headers.modify (c.headers.length - 1) fun pos => { pos with ts := now } }
    let toCandidates : Bool := 0 < c.candidates.length ∧ c.state = .SYN_SENT
    let status := if toCandidates then sendSynToCandidates c.candidates answers else answer.status
    let c := c.resend (0 < answer.status || toCandidates && (trySyns c.candidates answers).1)
    if status ≠ 1 ∧ status ≠ NO_ERROR then c.writeFailed answer
    else { c with synTimer := .pending, queued := false }
  | .CONNECTED => { c with queued := false }
  | .FIN_SENT | .FIN_RECEIVED =>
    let c := c.resend (0 < answer.status)
    if answer.status ≠ 1 then c.writeFailed answer else { c with queued := false }

end KcpControl

-- ==== machine

/-- What can happen to one connection. -/
inductive ControlOp where
  | packet (packet : ControlPacket) (host now : Nat) (answer : SendAnswer)
  | synTimeout (now : Nat) (answers : Nat → Int × Int) (answer : SendAnswer)
  | finTimeout (now : Nat) (answer : SendAnswer)
  | writable (now : Nat) (answers : Nat → Int × Int) (answer : SendAnswer)
  | close (now : Nat) (answer : SendAnswer)
  | shutdown (answer : SendAnswer)
  /-- the transfer gives the peer up: `TOO_MANY_RETRANS`, `KEEPALIVE_ERROR` -/
  | giveUp (code : Int)
  /-- `kcp_ioctl` with `IOCTL_SYN_RETRIES` -/
  | synRetries (value : Nat)
  /-- `kcp_ioctl` with `IOCTL_FIN_RETRIES` -/
  | finRetries (value : Nat)

namespace KcpControl

/-- The callback the FIN timer runs. -/
def finTimeout (xxh32 : Nat → Nat) (c : KcpControl) (now : Nat) (answer : SendAnswer) :
    KcpControl :=
  match c.finCallback with
  | .closeTimeout => { c with finTimer := .idle }.closeTimeout xxh32 now answer
  | .finPacketTimeout => { c with finTimer := .idle }.finPacketTimeout xxh32 now answer

/-- One step of a connection that is there. -/
def stepAlive (xxh32 : Nat → Nat) (c : KcpControl) : ControlOp → KcpControl
  | .packet packet host now answer => c.parsePacket xxh32 packet host now answer
  | .synTimeout now answers answer =>
    if c.synTimer = .pending then
      { c with synTimer := .idle }.connectTimeout xxh32 now answers answer
    else c
  | .finTimeout now answer => if c.finTimer = .pending then c.finTimeout xxh32 now answer else c
  | .writable now answers answer => if c.queued then c.writeEvent now answers answer else c
  | .close now answer => c.close xxh32 now answer
  | .shutdown answer => c.shutdown answer
  | .giveUp code =>
    if c.state = .CONNECTED then { c with state := .DISCONNECTED }.call (.error code) else c
  | .synRetries value => { c with synRetries := i32 (u32 value) }
  | .finRetries value => { c with finRetries := u32 value }

/-- One step; once destroyed a connection is not found any more. -/
def step (xxh32 : Nat → Nat) (c : KcpControl) (op : ControlOp) : KcpControl :=
  if c.destroyed = 0 then c.stepAlive xxh32 op else c

end KcpControl

-- ==== two endpoints that close

/-- The two sides, `true` the client, and the packets under way to each. -/
structure ClosingPair where
  conn : Bool → KcpControl
  inFlight : Bool → List ControlPacket

inductive Traffic where
  | ack (sn : Nat)
  | push
  | other

def Traffic.body : Traffic → ControlBody
  | .ack sn => .ack sn
  | .push => .push
  | .other => .other

/-- What can happen to the pair. -/
inductive PairOp where
  | close (side : Bool) (now : Nat) (answer : SendAnswer)
  | finTimeout (side : Bool) (now : Nat) (answer : SendAnswer)
  | writable (side : Bool) (now : Nat) (answer : SendAnswer)
  | deliver (side : Bool) (i now : Nat) (answer : SendAnswer)
  | drop (side : Bool) (i : Nat)
  | duplicate (side : Bool) (i : Nat)
  | traffic (side : Bool) (packet : Traffic) (now : Nat) (answer : SendAnswer)
  | giveUp (side : Bool) (code : Int)
  | finRetries (side : Bool) (value : Nat)

namespace ClosingPair

/-- The pair once both sides are connected: the SYNs they have sent, the
retries they may have been given. -/
def connected (scid host : Bool → Nat) (syns : Bool → List KcpSynFin) (finRetries : Bool → Nat) :
    ClosingPair where
  conn side := {
    client := side
    onClosed := true
    scid := scid side
    dcid := scid !side
    remoteHost := host !side
    state := .CONNECTED
    finRetries := u32 (finRetries side)
    headers := (syns side).map fun pos => { pos with cmd := KCP_CMD_SYN } }
  inFlight _ := []

/-- One side takes a step, and what its socket takes is under way to the
other. -/
def act (xxh32 : Nat → Nat) (w : ClosingPair) (side : Bool) (op : ControlOp) : ClosingPair where
  conn := Function.update w.conn side { (w.conn side).step xxh32 op with outbox := [] }
  inFlight := Function.update w.inFlight (!side)
    (w.inFlight (!side) ++ ((w.conn side).step xxh32 op).outbox)

theorem inFlight_act (xxh32 : Nat → Nat) (w : ClosingPair) (side : Bool) (op : ControlOp) :
    (w.act xxh32 side op).inFlight = Function.update w.inFlight (!side)
      (w.inFlight (!side) ++ ((w.conn side).step xxh32 op).outbox) := rfl

/-- The packets under way to `side` change. -/
def network (w : ClosingPair) (side : Bool) (packets : List ControlPacket) : ClosingPair :=
  { w with inFlight := Function.update w.inFlight side packets }

theorem inFlight_network (w : ClosingPair) (side : Bool) (packets : List ControlPacket) :
    (w.network side packets).inFlight = Function.update w.inFlight side packets := rfl

def step (xxh32 : Nat → Nat) (w : ClosingPair) : PairOp → ClosingPair
  | .close side now answer => w.act xxh32 side (.close now answer)
  | .finTimeout side now answer => w.act xxh32 side (.finTimeout now answer)
  | .writable side now answer => w.act xxh32 side (.writable now (fun _ => (0, 0)) answer)
  | .deliver side i now answer =>
    match (w.inFlight side)[i]? with
    | none => w
    | some packet =>
      (w.network side ((w.inFlight side).eraseIdx i)).act xxh32 side
        (.packet packet (w.conn side).remoteHost now answer)
  | .drop side i => w.network side ((w.inFlight side).eraseIdx i)
  | .duplicate side i =>
    match (w.inFlight side)[i]? with
    | none => w
    | some packet => w.network side (w.inFlight side ++ [packet])
  | .traffic side packet now answer =>
    w.act xxh32 side (.packet (ControlPacket.mk (w.conn side).dcid (w.conn side).scid packet.body)
      (w.conn side).remoteHost now answer)
  | .giveUp side code => w.act xxh32 side (.giveUp code)
  | .finRetries side value => w.act xxh32 side (.finRetries value)

end ClosingPair

end Eular.Kcp
