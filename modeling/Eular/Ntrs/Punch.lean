/-
UDP hole punching (`ntrs_client.cpp`): the frames, the synchronous
`ntrs_try_udp_hole_punch`, and the asynchronous request with its callbacks.

A socket address is what the program sees of it: the family, the text
`getnameinfo` makes of the host, and the port. What `inet_pton` makes of a
text, given back as such a host, is a parameter. The clock and what
`recvfrom` answers are inputs; a datagram may be longer than the buffer.
-/
import Eular.Lib.Run
import Eular.Ntrs.BinaryProtocol

namespace Eular.Ntrs.Punch

open Lib Binary

-- ==== addresses

inductive Family where
  | inet
  | inet6
  | other
deriving DecidableEq, Repr

structure Sockaddr where
  family : Family
  host : Option String
  port : UInt16
deriving DecidableEq, Repr

def sockaddrEndpoint (addr : Sockaddr) : Option (String × UInt16) :=
  match addr.host with
  | none => none
  | some host => if host ≠ "" ∧ addr.port ≠ 0 then some (host, addr.port) else none

def sockaddrSameEndpoint (lhs rhs : Sockaddr) : Bool :=
  if lhs.family ≠ rhs.family then false
  else
    match sockaddrEndpoint lhs, sockaddrEndpoint rhs with
    | some l, some r => l = r
    | _, _ => false

/-- `src_port`, as `SockaddrEndpoint` leaves it. -/
def srcPort (src : Sockaddr) : UInt16 := if src.host.isSome then src.port else 0

def NTRS_MAX_TEXT_LEN : Nat := 128

/-- A text that fits its buffer. -/
abbrev Text := {text : List UInt8 // text.length < NTRS_MAX_TEXT_LEN}

/-- `ntrs_peer_candidate_t`. -/
structure Candidate where
  ip : String
  port : UInt16
  type : Text
deriving DecidableEq

/-- `"host_local"`. -/
def hostLocal : List UInt8 := [104, 111, 115, 116, 95, 108, 111, 99, 97, 108]

/-- `"candidate"`. -/
def candidateText : List UInt8 := [99, 97, 110, 100, 105, 100, 97, 116, 101]

def candidateToSockaddr (inet_pton : String → Option (Family × String)) (c : Candidate) :
    Option Sockaddr :=
  if c.ip = "" ∨ c.port = 0 then none
  else (inet_pton c.ip).map fun addr => ⟨addr.1, some addr.2, c.port⟩

-- ==== frames

def NTRS_BINARY_TLV_PROBE_TOKEN : UInt16 := 1

def NTRS_BINARY_TLV_CANDIDATE_TYPE : UInt16 := 11

/-- `PunchFrameMeta`; the token is its first `token_len` bytes. -/
structure PunchFrameMeta where
  frame_type : UInt8
  request_id : UInt32
  sequence : UInt32
  token : {token : List UInt8 // token.length ≤ 8} := ⟨[], by decide⟩
  candidate_type : Text := ⟨[], by decide⟩

/-- One round of the loop of `ParsePunchFrame`. -/
def readTlv (payload : List UInt8) (out : PunchFrameMeta) (tlv : TlvView) : Option PunchFrameMeta :=
  if tlv.type = NTRS_BINARY_TLV_PROBE_TOKEN then
    if h : (tlv.bytes payload).length ≤ 8 then some { out with token := ⟨tlv.bytes payload, h⟩ }
    else none
  else if tlv.type = NTRS_BINARY_TLV_CANDIDATE_TYPE then
    some { out with candidate_type := ⟨(tlv.bytes payload).take (NTRS_MAX_TEXT_LEN - 1),
      (List.length_take_le _ _).trans_lt (by decide)⟩ }
  else some out

def parsePunchFrame (payload : List UInt8) : Option PunchFrameMeta :=
  match frameParse payload with
  | none => none
  | some view =>
    if view.header.phase ≠ NTRS_BINARY_PHASE_PUNCH then none
    else
      match iterate payload view (view.payload_len + 1) 0 with
      | none => none
      | some (found, _) =>
        match found.foldlM (readTlv payload) ⟨view.header.frame_type, view.header.request_id,
          view.header.sequence, ⟨[], by decide⟩, ⟨[], by decide⟩⟩ with
        | none => none
        | some out =>
          if out.frame_type = NTRS_BINARY_FRAME_PUNCH_REQ
              ∨ out.frame_type = NTRS_BINARY_FRAME_PUNCH_ACK then some out
          else none

/-- A header and the fields behind it that are there, in a buffer of 256 bytes. -/
def buildFrame (frame_type : UInt8) (request_id sequence : UInt32) (now : UInt64)
    (fields : List (UInt16 × Value)) : Option (List UInt8) :=
  match frameInit (fun _ => 0) 256 with
  | none => none
  | some frame =>
    let headed := setHeader frame frame_type NTRS_BINARY_PHASE_PUNCH 0 request_id sequence now
    if headed.1 = false then none
    else
      (fields.foldlM (fun (frame : Frame) (field : UInt16 × Value) =>
        match addTlv frame field.1 (some field.2) with
        | (true, frame) => some frame
        | (false, _) => none) headed.2).map Frame.written

/-- `BuildPunchFrame`; the token is the number of the request, as `FillPunchToken` lays it out. -/
def buildPunchFrame (request_id : UInt64) (type : Text) (round : UInt32) (now : UInt64) :
    Option (List UInt8) :=
  buildFrame NTRS_BINARY_FRAME_PUNCH_REQ request_id.toUInt32 round now
    [(NTRS_BINARY_TLV_PROBE_TOKEN, ⟨bigEndian 8 request_id.toNat, by simp⟩),
      (NTRS_BINARY_TLV_CANDIDATE_TYPE,
        if type.1.isEmpty then ⟨candidateText, by decide⟩
        else ⟨type.1, type.2.trans (by decide)⟩)]

/-- `BuildPunchAckFrame`; a text ends at its first NUL. -/
def buildPunchAckFrame (req_meta : PunchFrameMeta) (now : UInt64) : Option (List UInt8) :=
  buildFrame NTRS_BINARY_FRAME_PUNCH_ACK req_meta.request_id req_meta.sequence now
    ((if req_meta.token.1.isEmpty then []
      else [(NTRS_BINARY_TLV_PROBE_TOKEN,
        ⟨req_meta.token.1, req_meta.token.2.trans_lt (by decide)⟩)])
    ++ if (req_meta.candidate_type.1.takeWhile (· ≠ 0)).isEmpty then []
      else [(NTRS_BINARY_TLV_CANDIDATE_TYPE, ⟨req_meta.candidate_type.1.takeWhile (· ≠ 0),
        (List.takeWhile_sublist _).length_le.trans_lt
          (req_meta.candidate_type.2.trans (by decide))⟩)])

-- ==== synchronous

structure Datagram where
  src : Sockaddr
  payload : List UInt8

/-- The rounds of one candidate that are left: `received` is what `select` and `recvfrom` have in
each, if anything. -/
def tryRounds (c : Candidate) (received : Nat → Option Datagram) (round : Nat) :
    Nat → Option Candidate
  | 0 => none
  | left + 1 =>
    match received round with
    | none => tryRounds c received (round + 1) left
    | some d =>
      match parsePunchFrame (d.payload.take 511) with
      | none => tryRounds c received (round + 1) left
      | some out =>
        if out.frame_type ≠ NTRS_BINARY_FRAME_PUNCH_REQ
            ∧ out.frame_type ≠ NTRS_BINARY_FRAME_PUNCH_ACK then
          tryRounds c received (round + 1) left
        else some c

/-- The candidates that are left, from the `i`th on. -/
def tryCandidates (inet_pton : String → Option (Family × String))
    (received : Nat → Nat → Option Datagram) (rounds i : Nat) : List Candidate → Option Candidate
  | [] => none
  | c :: candidates =>
    match candidateToSockaddr inet_pton c with
    | none => tryCandidates inet_pton received rounds (i + 1) candidates
    | some _ =>
      match tryRounds c (received i) 0 rounds with
      | some selected => some selected
      | none => tryCandidates inet_pton received rounds (i + 1) candidates

/-- `send_rounds`, or 8. -/
def roundsOf (send_rounds : Int) : Nat := if send_rounds ≤ 0 then 8 else send_rounds.toNat

/-- `ntrs_try_udp_hole_punch`: what it selects, where it is successful. -/
def tryUdpHolePunch (inet_pton : String → Option (Family × String)) (candidates : List Candidate)
    (send_rounds : Int) (received : Nat → Nat → Option Datagram) : Option Candidate :=
  tryCandidates inet_pton received (roundsOf send_rounds) 0 candidates

-- ==== asynchronous

/-- Of the request what punching reads and writes; `result` is there once it is finished, with
the candidate where it is successful. -/
structure PunchRequest where
  request_id : UInt64
  punch_candidates : List (Candidate × Sockaddr)
  punch_round : Nat := 0
  punch_max_rounds : Nat
  result : Option (Option Candidate) := none
  /-- what has been sent, the last first -/
  sent : List (Sockaddr × List UInt8) := []

namespace PunchRequest

variable (r : PunchRequest)

/-- `sendto`, of what has been built. -/
def send (addr : Sockaddr) (payload : Option (List UInt8)) : PunchRequest :=
  match payload with
  | none => r
  | some payload => { r with sent := (addr, payload) :: r.sent }

/-- `AsyncPunchSendRound`. -/
def sendRound (now : UInt64) : PunchRequest :=
  r.punch_candidates.foldl (fun s entry => s.send entry.2
    (buildPunchFrame r.request_id entry.1.type (UInt32.ofNat (r.punch_round + 1)) now)) r

/-- `SubmitAsyncPunchRequest`, up to the first round. -/
def submit (inet_pton : String → Option (Family × String)) (request_id : UInt64)
    (candidates : List Candidate) (send_rounds : Int) (now : UInt64) : Option PunchRequest :=
  let entries := candidates.filterMap fun c =>
    (candidateToSockaddr inet_pton c).map fun addr => (c, addr)
  if entries.isEmpty then none
  else some (sendRound { request_id, punch_candidates := entries,
                         punch_max_rounds := roundsOf send_rounds } now)

/-- `AsyncPunchFinish`. -/
def finish (selected : Option Candidate) : PunchRequest :=
  { r with result := some selected }

/-- `AsyncPunchTimeoutCb`. -/
def timeoutCb (now : UInt64) : PunchRequest :=
  let r := { r with punch_round := r.punch_round + 1 }
  if r.punch_max_rounds ≤ r.punch_round then r.finish none else r.sendRound now

/-- What `recvfrom` answers. -/
inductive Received where
  | interrupted
  | wouldBlock
  | failed
  | datagram (d : Datagram)

/-- The first loop over the candidates: the one the datagram is from. -/
def fromCandidate (d : Datagram) (parsed : Option PunchFrameMeta) :
    List (Candidate × Sockaddr) → Option Candidate
  | [] => none
  | (c, addr) :: entries =>
    if sockaddrSameEndpoint d.src addr = true then
      match parsed with
      | none => fromCandidate d parsed entries
      | some out =>
        if out.frame_type = NTRS_BINARY_FRAME_PUNCH_REQ then some c
        else if out.frame_type ≠ NTRS_BINARY_FRAME_PUNCH_ACK then fromCandidate d parsed entries
        else some c
    else fromCandidate d parsed entries

/-- The second loop: a local candidate with the port the request is from. -/
def fromHostLocal (d : Datagram) (parsed : Option PunchFrameMeta)
    (entries : List (Candidate × Sockaddr)) : Option Candidate :=
  match parsed with
  | none => none
  | some out =>
    if out.frame_type = NTRS_BINARY_FRAME_PUNCH_REQ then
      (entries.find? fun entry =>
        entry.1.type.1 = hostLocal ∧ entry.1.port = srcPort d.src).map Prod.fst
    else none

def sendAck (d : Datagram) (parsed : Option PunchFrameMeta) (now : UInt64) :
    PunchRequest :=
  match parsed with
  | none => r
  | some out =>
    if out.frame_type = NTRS_BINARY_FRAME_PUNCH_REQ then r.send d.src (buildPunchAckFrame out now)
    else r

/-- `AsyncPunchIoCb`, on what `recvfrom` answers call by call. -/
def ioCb (r : PunchRequest) (now : UInt64) : List Received → PunchRequest
  | [] => r
  | .interrupted :: rest => ioCb r now rest
  | .wouldBlock :: _ => r
  | .failed :: _ => r
  | .datagram d :: rest =>
    if d.payload.isEmpty then r
    else
      let parsed := parsePunchFrame (d.payload.take 512)
      match fromCandidate d parsed r.punch_candidates with
      | some c => (r.sendAck d parsed now).finish (some c)
      | none =>
        match fromHostLocal d parsed r.punch_candidates with
        | some c => (r.sendAck d parsed now).finish (some c)
        | none => ioCb r now rest

/-- The callbacks that libevent makes, with the clock's answer. -/
inductive PunchOp where
  | io (read : Bool) (received : List Received) (now : UInt64)
  | timeout (now : UInt64)

/-- A callback; a request that is finished gets no more. -/
def step (op : PunchOp) : PunchRequest :=
  if r.result.isSome then r
  else
    match op with
    | .io read received now => if read then r.ioCb now received else r
    | .timeout now => r.timeoutCb now

end PunchRequest

end Eular.Ntrs.Punch
