/-
The asynchronous client (`ntrs_client.cpp`): its requests from the submit
functions over the callbacks of libevent to `AsyncRequestFinish`.

What matters here is who holds a request and when. A request is an object in
`memory`, found under its id there, which stands for its address; every
function that goes through the pointer reads or writes it there and has no
result where it has been released (`none`). A lookup that libevent was asked
for is in `lookups` until its callback is called, which is once: within
`evdns_getaddrinfo` (`DnsReply.now`, and no handle is returned), later, or
after it was cancelled. The user's callback is the last thing a finished
request does, so that what it calls is a step that follows.

The environment's part in a call comes along as an argument: how the events
can be set up, how the connects go, what is on the socket. The client's own
state is all there is besides: the frames' bytes and the timeouts' lengths are
left out, and so are the ids' 64 bits.
-/
import Eular.Lib.Run
import Eular.Ntrs.NatProbe

namespace Eular.Ntrs

open Lib

-- ==== the requests

inductive AsyncRequestType where
  /-- the requests that send a message and may wait for the answer -/
  | message
  | connectControl
  | detectNat
  | udpHolePunch
deriving DecidableEq, Repr

/-- How it goes with an address that is to be connected to. -/
inductive ConnectTry where
  /-- no socket, or none that does not block -/
  | noSocket
  | connected
  | refused
  /-- in progress on `fd`; whether its events can be set up -/
  | started (fd : Int) (events : Bool)
deriving DecidableEq, Repr

/-- Of `AsyncRequest` what its life depends on. `ioEvent` and `timerArmed` are
the events that libevent may call back. -/
structure AsyncRequest where
  type : AsyncRequestType
  fd : Int
  expectResponse : Bool := false
  ioEvent : Bool := false
  timerArmed : Bool := false
  result : AsyncResult := {}
  dnsRequest : Option Nat := none
  connectAddrs : Bool := false
  connectNextAddr : List ConnectTry := []
  nat : NatRequest := submitAsyncNatRequest 0 {} false fun _ => ⟨.any, 0⟩
  socket : UdpSocket := ⟨⟨.any, 0⟩, fun _ => none⟩
  resolvingProbeIndex : Fin 2 := 0
  probeAddrLens : Fin 2 → Bool := fun _ => false
  punchRound : Int := 0
  punchMaxRounds : Int := 0

/-- A lookup libevent has not answered, and which callback it is for. -/
structure DnsLookup where
  handle : Nat
  request : Nat
  forNat : Bool
  cancelled : Bool := false
deriving DecidableEq, Repr

/-- A call of the user's callback. -/
structure AsyncCall where
  request : Nat
  cancelled : Bool
  result : AsyncResult
deriving DecidableEq

/-- `AsyncClientImpl`, the requests in memory and libevent's lookups. `calls`
and `returned` record what the user gets to see: the callbacks, and what the
submit function of every request returned. -/
structure AsyncClient where
  nextRequestId : Nat := 1
  requests : List Nat := []
  activeFds : List (Int × Nat) := []
  memory : Nat → Option AsyncRequest := fun _ => none
  nextLookup : Nat := 0
  lookups : List DnsLookup := []
  calls : List AsyncCall := []
  returned : List (Nat × Bool) := []
  destroyed : Bool := false
  faulted : Bool := false

/-- What `AsyncIoCb` meets. -/
inductive MessageIo where
  | nothing
  | sendFailed
  /-- all of the output is sent -/
  | sent
  | closed
  | badFrame
  | response (ok : Bool)
deriving DecidableEq, Repr

/-- What `evdns_getaddrinfo` does: it answers before it returns, or it
returns a handle. -/
inductive DnsReply (α : Type) where
  | later
  | now (answer : α)
deriving DecidableEq, Repr

/-- What comes of the lookups of a detection, and of the one the answer has
made in turn. -/
inductive NatReply where
  | later
  | failed
  | resolved (addr : Address) (next : NatReply)
deriving DecidableEq

/-- How `StartAsyncNatIo` goes: whether its events are created and added, and
what the first `sendto` does. -/
structure NatStart where
  created : Bool
  added : Bool
  sendto : Sendto
deriving DecidableEq, Repr

namespace AsyncClient

variable (client : AsyncClient)

-- ==== memory

/-- The request at `id` is overwritten. -/
def put (id : Nat) (request : AsyncRequest) : AsyncClient :=
  { client with memory := Function.update client.memory id (some request) }

/-- A write through the pointer. -/
def write (id : Nat) (f : AsyncRequest → AsyncRequest) : Option AsyncClient :=
  (client.memory id).map fun request => client.put id (f request)

/-- What `AsyncRequestFinish` leaves of a request, once its events are gone. -/
def release (id : Nat) (request : AsyncRequest) (cancelled : Bool)
    (errorMessage : Option String) : AsyncClient :=
  { client with
    requests := client.requests.erase id
    activeFds := client.activeFds.filter fun entry => entry.1 ≠ request.fd
    memory := Function.update client.memory id none
    lookups := client.lookups.map fun lookup =>
      if request.dnsRequest = some lookup.handle then { lookup with cancelled := true } else lookup
    calls := client.calls ++ [⟨id, cancelled,
      match errorMessage with
      | none => request.result
      | some message => { request.result with success := false, errorMessage := message }⟩] }

def asyncRequestFinish (id : Nat) (cancelled : Bool) (errorMessage : Option String) :
    Option AsyncClient :=
  (client.memory id).map fun request => client.release id request cancelled errorMessage

/-- `new AsyncRequest()` and the next id. -/
def allocate (request : AsyncRequest) : AsyncClient :=
  { client with
    nextRequestId := client.nextRequestId + 1
    memory := Function.update client.memory client.nextRequestId (some request) }

/-- The request is entered in the tables. -/
def register (id : Nat) (fd : Option Int) : AsyncClient :=
  { client with
    requests := client.requests ++ [id]
    activeFds := client.activeFds ++ (fd.map fun fd => (fd, id)).toList }

/-- `client->active_fds.find(fd) != client->active_fds.end()`. -/
def fdActive (fd : Int) : Bool := client.activeFds.any fun entry => entry.1 = fd

/-- libevent takes a lookup on. -/
def launch (id : Nat) (forNat : Bool) : AsyncClient :=
  { client with
    nextLookup := client.nextLookup + 1
    lookups := client.lookups ++ [⟨client.nextLookup, id, forNat, false⟩] }

end AsyncClient

-- ==== connecting

/-- How the loop of `StartAsyncConnectAttempt` ends. -/
inductive ConnectOutcome where
  | connected
  | waiting
  | failed
deriving DecidableEq, Repr

/-- The loop of `StartAsyncConnectAttempt`, over the addresses left. -/
def AsyncRequest.attempt (request : AsyncRequest) :
    List ConnectTry → AsyncRequest × ConnectOutcome
  | [] => ({ request with connectNextAddr := [] }, .failed)
  | .noSocket :: rest => AsyncRequest.attempt { request with fd := -1 } rest
  | .refused :: rest => AsyncRequest.attempt { request with fd := -1 } rest
  | .connected :: rest =>
    ({ request with
      connectNextAddr := rest, fd := -1, result := { request.result with success := true } },
      .connected)
  | .started fd events :: rest =>
    ({ request with connectNextAddr := rest, fd, ioEvent := events, timerArmed := events },
      if events then .waiting else .failed)

namespace AsyncClient

def startAsyncConnectAttempt (client : AsyncClient) (id : Nat) : Option (Bool × AsyncClient) := do
  let request ← client.memory id
  let tried := request.attempt request.connectNextAddr
  let client := client.put id tried.1
  match tried.2 with
  | .connected => return (true, ← client.asyncRequestFinish id false none)
  | .waiting => return (true, client)
  | .failed => return (false, client)

/-- A callback that tries the next address, or ends the request. -/
def connectOrFinish (client : AsyncClient) (id : Nat) (message : String) :
    Option AsyncClient := do
  let (started, client) ← client.startAsyncConnectAttempt id
  if started then return client
  client.asyncRequestFinish id false (some message)

def asyncConnectDnsCb (client : AsyncClient) (id : Nat) (answer : Option (List ConnectTry)) :
    Option AsyncClient := do
  let client ← client.write id fun request => { request with dnsRequest := none }
  match answer with
  | none | some [] => client.asyncRequestFinish id false (some "resolve control endpoint failed")
  | some tries =>
    let client ← client.write id fun request =>
      { request with connectAddrs := true, connectNextAddr := tries }
    client.connectOrFinish id "connect control failed"

def submitAsyncConnectRequest (client : AsyncClient)
    (reply : DnsReply (Option (List ConnectTry))) : Option (Bool × AsyncClient) := do
  let id := client.nextRequestId
  let client := (client.allocate { type := .connectControl, fd := -1 }).register id none
  let (handle, client) ← match reply with
    | .later => some (some client.nextLookup, client.launch id false)
    | .now answer => (client.asyncConnectDnsCb id answer).map fun client => (none, client)
  -- the callback may have released it by now
  let client ← client.write id fun request => { request with dnsRequest := handle }
  let request ← client.memory id
  if handle.isNone && !request.connectAddrs && decide (id ∈ client.requests) then
    return (false, ← client.asyncRequestFinish id false (some "resolve control endpoint failed"))
  return (true, client)

/-- `AsyncConnectIoCb`, writable. -/
def asyncConnectIoCb (client : AsyncClient) (id : Nat) (connected : Bool) :
    Option AsyncClient := do
  if connected then
    let client ← client.write id fun request =>
      { request with fd := -1, result := { request.result with success := true } }
    client.asyncRequestFinish id false none
  else
    let client ← client.write id fun request => { request with fd := -1 }
    client.connectOrFinish id "connect control failed"

def asyncConnectTimeoutCb (client : AsyncClient) (id : Nat) : Option AsyncClient := do
  let client ← client.write id fun request => { request with fd := -1 }
  client.connectOrFinish id "connect control timeout"

-- ==== detecting

/-- A callback of a detection: the request ends where its result is there. -/
def afterSending (client : AsyncClient) (id : Nat) (f : AsyncRequest → Sending) :
    Option AsyncClient := do
  let request ← client.memory id
  let sending := f request
  let client := client.put id { request with
    nat := sending.request, ioEvent := true, timerArmed := sending.request.timerArmed }
  match sending.request.delivered with
  | none => return client
  | some result =>
    let client ← client.write id fun request => { request with result := result }
    client.asyncRequestFinish id false none

def startAsyncNatIo (client : AsyncClient) (id : Nat) (start : NatStart) : Option AsyncClient :=
  if !start.created then
    client.asyncRequestFinish id false (some "create async nat event failed")
  else if !start.added then
    client.asyncRequestFinish id false (some "start async nat request failed")
  else client.afterSending id fun request => request.nat.startAsyncNatIo request.socket start.sendto

/-- `ResolveAsyncNatEndpoint`; `callback` is that of the lookup, if it is
called before `evdns_getaddrinfo` returns. -/
def resolveAsyncNatEndpoint (client : AsyncClient) (id : Nat) (index : Fin 2)
    (callback : Option (AsyncClient → Option AsyncClient)) : Option (Bool × AsyncClient) := do
  let client ← client.write id fun request => { request with resolvingProbeIndex := index }
  let (handle, client) ← match callback with
    | none => some (some client.nextLookup, client.launch id true)
    | some callback => (callback client).map fun client => (none, client)
  -- the callback may have released it by now
  let client ← client.write id fun request => { request with dnsRequest := handle }
  let request ← client.memory id
  return (handle.isSome || request.probeAddrLens index, client)

def noteAddr (index : Fin 2) (addr : Address) (request : AsyncRequest) : AsyncRequest :=
  { request with
    nat := { request.nat with
      probeAddrs := Function.update request.nat.probeAddrs index addr }
    probeAddrLens := Function.update request.probeAddrLens index true }

def asyncNatDnsCb (id : Nat) (start : NatStart) : NatReply → AsyncClient → Option AsyncClient
  | .later, client => some client
  | .failed, client => do
      let client ← client.write id fun request => { request with dnsRequest := none }
      client.asyncRequestFinish id false (some "resolve probe endpoint failed")
  | .resolved addr next, client => do
      let client ← client.write id fun request => { request with dnsRequest := none }
      let request ← client.memory id
      let index := request.resolvingProbeIndex
      let client ← client.write id (noteAddr index addr)
      if index = 0 ∧ request.nat.hasProbe2 = true then
        let (resolved, client) ← client.resolveAsyncNatEndpoint id 1
          (if next = .later then none else some (asyncNatDnsCb id start next))
        if resolved then return client
        client.asyncRequestFinish id false (some "resolve probe endpoint failed")
      else client.startAsyncNatIo id start

def submitAsyncNatRequest (client : AsyncClient) (fd : Int) (options : DetectNatOptions)
    (hasProbe2 : Bool) (socket : UdpSocket) (reply : NatReply) (start : NatStart) :
    Option (Bool × AsyncClient) := do
  let id := client.nextRequestId
  let nat := Ntrs.submitAsyncNatRequest (UInt64.ofNat id) options hasProbe2 fun _ => ⟨.any, 0⟩
  let client := (client.allocate { type := .detectNat, fd, nat, socket }).register id (some fd)
  let (resolved, client) ← client.resolveAsyncNatEndpoint id 0
    (if reply = .later then none else some (asyncNatDnsCb id start reply))
  if resolved then return (true, client)
  let _ ← client.memory id
  if id ∈ client.requests then
    return (false, ← client.asyncRequestFinish id false (some "resolve probe endpoint failed"))
  return (true, client)

-- ==== messages and punches

/-- `SubmitAsyncMessageRequest`, past its checks: whether the events are
created and added. -/
def submitAsyncMessageRequest (client : AsyncClient) (fd : Int) (expectResponse : Bool)
    (created added : Bool) : Option (Bool × AsyncClient) := do
  let id := client.nextRequestId
  let client := client.allocate { type := .message, fd, expectResponse }
  if !created then
    return (false, ← client.asyncRequestFinish id false (some "create async event failed"))
  let client := client.register id (some fd)
  if !added then
    return (false, ← client.asyncRequestFinish id false (some "start async event failed"))
  let client ← client.write id fun request => { request with ioEvent := true, timerArmed := true }
  return (true, client)

def asyncIoCb (client : AsyncClient) (id : Nat) (io : MessageIo) : Option AsyncClient := do
  let request ← client.memory id
  match io with
  | .nothing => return client
  | .sendFailed => client.asyncRequestFinish id false (some "send request failed")
  | .sent =>
    if request.expectResponse then return client
    let client ← client.write id fun request =>
      { request with result := { request.result with success := true } }
    client.asyncRequestFinish id false none
  | .closed => client.asyncRequestFinish id false (some "connection closed")
  | .badFrame => client.asyncRequestFinish id false (some "invalid response frame")
  | .response ok =>
    let client ← client.write id fun request =>
      { request with result := { request.result with success := ok } }
    client.asyncRequestFinish id false none

/-- `SubmitAsyncPunchRequest`, past its checks: whether there is a candidate,
whether the events are created and each of them added. -/
def submitAsyncPunchRequest (client : AsyncClient) (fd : Int) (sendRounds : Int)
    (candidates created ioAdded timerAdded : Bool) : Option (Bool × AsyncClient) := do
  let id := client.nextRequestId
  let client := client.allocate
    { type := .udpHolePunch, fd, punchMaxRounds := if sendRounds ≤ 0 then 8 else sendRounds }
  if !candidates then
    return (false, { client with memory := Function.update client.memory id none })
  if !created then
    return (false, ← client.asyncRequestFinish id false (some "create async punch event failed"))
  let client := client.register id (some fd)
  if !ioAdded then
    return (false, ← client.asyncRequestFinish id false (some "start async punch event failed"))
  if !timerAdded then
    return (false, ← client.asyncRequestFinish id false (some "start async punch timer failed"))
  let client ← client.write id fun request => { request with ioEvent := true, timerArmed := true }
  return (true, client)

def asyncPunchFinish (client : AsyncClient) (id : Nat) (success : Bool) : Option AsyncClient := do
  let client ← client.write id fun request =>
    { request with result := { request.result with
      success := success
      errorMessage := if success then request.result.errorMessage else "udp hole punch failed" } }
  client.asyncRequestFinish id false none

/-- `AsyncPunchTimeoutCb`; whether `evtimer_add` arms the timer again is not
looked at. -/
def asyncPunchTimeoutCb (client : AsyncClient) (id : Nat) (rearmed : Bool) :
    Option AsyncClient := do
  let client ← client.write id fun request =>
    { request with punchRound := request.punchRound + 1 }
  let request ← client.memory id
  if request.punchMaxRounds ≤ request.punchRound then client.asyncPunchFinish id false
  else client.write id fun request => { request with timerArmed := rearmed }

-- ==== steps

/-- `ntrs_async_client_cancel`. -/
def cancel (client : AsyncClient) (id : Nat) : Option AsyncClient :=
  if id ∈ client.requests then client.asyncRequestFinish id true (some "request cancelled")
  else some client

/-- `ntrs_async_client_destroy`. -/
def destroy (client : AsyncClient) : Option AsyncClient := do
  let client ← client.requests.foldlM
    (fun client id => client.asyncRequestFinish id true (some "client destroyed")) client
  return { client with destroyed := true }

end AsyncClient

/-- What an event of a request meets. -/
inductive AsyncIo where
  | message (io : MessageIo)
  | connect (connected : Bool)
  | nat (source : Address) (frame : ProbeFrame) (sendto : Sendto)
  | punch (selected : Bool)

inductive AsyncOp where
  | submitMessage (fd : Int) (prepared expectResponse created added : Bool)
  | submitConnect (prepared : Bool) (reply : DnsReply (Option (List ConnectTry)))
  | submitNat (fd : Int) (prepared : Bool) (options : DetectNatOptions) (hasProbe2 : Bool)
      (socket : UdpSocket) (reply : NatReply) (start : NatStart)
  | submitPunch (fd : Int) (prepared : Bool) (sendRounds : Int)
      (candidates created ioAdded timerAdded : Bool)
  /-- libevent answers the `i`-th lookup -/
  | answer (i : Nat) (tries : Option (List ConnectTry)) (reply : NatReply) (start : NatStart)
  /-- the request's timer fires -/
  | timer (id : Nat) (sendto : Sendto) (rearmed : Bool)
  /-- the request's socket is ready -/
  | ready (id : Nat) (io : AsyncIo)
  | cancel (id : Nat)
  | destroy

namespace AsyncClient

/-- What a submit function returned is noted, if it made a request. -/
def noted (before : AsyncClient) (submitted : Option (Bool × AsyncClient)) : Option AsyncClient :=
  submitted.map fun (returned, client) =>
    { client with returned := client.returned ++ [(before.nextRequestId, returned)] }

/-- A lookup is answered, with an error where it was cancelled. -/
def answer (client : AsyncClient) (i : Nat) (tries : Option (List ConnectTry)) (reply : NatReply)
    (start : NatStart) : Option AsyncClient :=
  match client.lookups[i]? with
  | none => some client
  | some lookup =>
    let answered := { client with lookups := client.lookups.eraseIdx i }
    if lookup.forNat then
      if lookup.cancelled then asyncNatDnsCb lookup.request start .failed answered
      else if reply = .later then some client
      else asyncNatDnsCb lookup.request start reply answered
    else answered.asyncConnectDnsCb lookup.request (if lookup.cancelled then none else tries)

/-- The timer of a request fires, once. -/
def timer (client : AsyncClient) (id : Nat) (sendto : Sendto) (rearmed : Bool) :
    Option AsyncClient :=
  match client.memory id with
  | none => some client
  | some request =>
    if !request.timerArmed then some client
    else
      let fired := client.put id { request with timerArmed := false }
      match request.type with
      | .message => fired.asyncRequestFinish id false (some "request timeout")
      | .connectControl => fired.asyncConnectTimeoutCb id
      | .detectNat => fired.afterSending id fun r => r.nat.asyncNatTimeoutCb r.socket sendto
      | .udpHolePunch => fired.asyncPunchTimeoutCb id rearmed

/-- The socket of a request is ready. The event of a connect is for once. -/
def ready (client : AsyncClient) (id : Nat) (io : AsyncIo) : Option AsyncClient :=
  match client.memory id with
  | none => some client
  | some request =>
    if !request.ioEvent then some client
    else
      match request.type, io with
      | .message, .message io => client.asyncIoCb id io
      | .connectControl, .connect connected =>
        (client.put id { request with ioEvent := false }).asyncConnectIoCb id connected
      | .detectNat, .nat source frame sendto =>
        client.afterSending id fun r => r.nat.asyncNatIoCb r.socket source frame sendto
      | .udpHolePunch, .punch selected =>
        if selected then client.asyncPunchFinish id true else some client
      | _, _ => some client

/-- One call or callback; `none` where it goes through the pointer of a
request that has been released. -/
def exec (client : AsyncClient) : AsyncOp → Option AsyncClient
  | .submitMessage fd prepared expectResponse created added =>
    if client.destroyed || !prepared || client.fdActive fd then some client
    else client.noted (client.submitAsyncMessageRequest fd expectResponse created added)
  | .submitConnect prepared reply =>
    if client.destroyed || !prepared then some client
    else client.noted (client.submitAsyncConnectRequest reply)
  | .submitNat fd prepared options hasProbe2 socket reply start =>
    if client.destroyed || !prepared || client.fdActive fd then some client
    else client.noted (client.submitAsyncNatRequest fd options hasProbe2 socket reply start)
  | .submitPunch fd prepared sendRounds candidates created ioAdded timerAdded =>
    if client.destroyed || !prepared || client.fdActive fd then some client
    else client.noted
      (client.submitAsyncPunchRequest fd sendRounds candidates created ioAdded timerAdded)
  | .answer i tries reply start => client.answer i tries reply start
  | .timer id sendto rearmed => client.timer id sendto rearmed
  | .ready id io => client.ready id io
  | .cancel id => if client.destroyed then some client else client.cancel id
  | .destroy => if client.destroyed then some client else client.destroy

/-- A step of a run, which is over once released memory has been touched. -/
def step (client : AsyncClient) (op : AsyncOp) : AsyncClient :=
  if client.faulted then client
  else
    match client.exec op with
    | some client => client
    | none => { client with faulted := true }

/-- How often the callback of the request was called. -/
def callsOf (client : AsyncClient) (id : Nat) : Nat :=
  client.calls.countP fun call => call.request = id

end AsyncClient

end Eular.Ntrs
