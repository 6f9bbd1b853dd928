/-
What the callbacks of the asynchronous client do to the request they are for
(`Handled`): they release it, or leave it waiting on its timer or on a lookup,
nearer to its end than before (`left`).

The pointer a function holds while it calls into libevent is the trouble: the
answer may come within the call, and release the request under it. `Starts`
and `Holds` say of an answer that it does not.
-/
import Eular.Ntrs.AsyncClient
import Eular.Ntrs.Proofs.NatProbe

namespace Eular.Ntrs

open Lib

-- ==== the answers

/-- Of these addresses, the first that a connect does anything with is left in
progress. -/
def Starts : List ConnectTry → Bool
  | [] => false
  | .noSocket :: rest => Starts rest
  | .refused :: rest => Starts rest
  | .connected :: _ => false
  | .started _ events :: _ => events

def NatStart.Holds (start : NatStart) : Bool :=
  start.created && start.added && decide (start.sendto ≠ .failed)

/-- The answer, if it comes at once, does not end the detection; `both` says
that it has another lookup made. -/
def NatReply.Holds (start : NatStart) : Bool → NatReply → Bool
  | _, .later => true
  | _, .failed => false
  | both, .resolved _ next => if both then NatReply.Holds start false next else start.Holds

-- ==== memory

namespace AsyncRequest

/-- How far a request is from its end, whose lookup libevent has (`looking`)
or not: first the lookups to come, then what its timer has left. -/
def left (request : AsyncRequest) (looking : Bool) : Nat ×ₗ Nat :=
  match request.type, looking with
  | .message, _ => toLex (0, 0)
  | .udpHolePunch, _ => toLex (0, (request.punchMaxRounds - request.punchRound).toNat)
  | .connectControl, true => toLex (1, 0)
  | .connectControl, false => toLex (0, request.connectNextAddr.length)
  | .detectNat, true => toLex (2 - request.resolvingProbeIndex.val, 0)
  | .detectNat, false => toLex (0, request.nat.rank)

/-- What no function changes of a request. -/
structure Kept (request request' : AsyncRequest) : Prop where
  type : request'.type = request.type
  fd : request.type ≠ .connectControl → request'.fd = request.fd

/-- A detection that probes is one under way. -/
def Detecting (request : AsyncRequest) : Prop :=
  request.type = .detectNat →
    request.nat.delivered = none ∧ (request.timerArmed = true → request.nat.timerArmed = true)

/-- No event can call the request back. -/
structure Idle (request : AsyncRequest) : Prop where
  timer : request.timerArmed = false
  io : request.ioEvent = false

theorem Kept.refl (request : AsyncRequest) : Kept request request := ⟨rfl, fun _ => rfl⟩

end AsyncRequest

namespace AsyncClient

variable {client : AsyncClient} {id : Nat} {request : AsyncRequest}

@[simp] theorem memory_put (request : AsyncRequest) :
    (client.put id request).memory id = some request := Function.update_self ..

theorem memory_put_ne {other : Nat} (h : other ≠ id) (request : AsyncRequest) :
    (client.put id request).memory other = client.memory other := Function.update_of_ne h ..

@[simp] theorem put_put (request request' : AsyncRequest) :
    (client.put id request).put id request' = client.put id request' := by
  simp [put]

@[simp] theorem put_release (request request' : AsyncRequest) (cancelled : Bool)
    (message : Option String) :
    (client.put id request).release id request' cancelled message =
      client.release id request' cancelled message := by
  simp [put, release]

theorem put_self (h : client.memory id = some request) : client.put id request = client := by
  rw [put, ← h, Function.update_eq_self]

@[simp] theorem put_launch (request : AsyncRequest) (forNat : Bool) :
    (client.put id request).launch id forNat = (client.launch id forNat).put id request := rfl

@[simp] theorem put_requests (request : AsyncRequest) :
    (client.put id request).requests = client.requests := rfl

@[simp] theorem put_nextLookup (request : AsyncRequest) :
    (client.put id request).nextLookup = client.nextLookup := rfl

theorem write_eq (h : client.memory id = some request) (f : AsyncRequest → AsyncRequest) :
    client.write id f = some (client.put id (f request)) := by
  rw [write, h]
  rfl

@[simp] theorem write_put (request : AsyncRequest) (f : AsyncRequest → AsyncRequest) :
    (client.put id request).write id f = some (client.put id (f request)) := by
  rw [write_eq (memory_put request), put_put]

theorem finish_eq (h : client.memory id = some request) (cancelled : Bool)
    (message : Option String) :
    client.asyncRequestFinish id cancelled message =
      some (client.release id request cancelled message) := by
  rw [asyncRequestFinish, h]
  rfl

@[simp] theorem finish_put (request : AsyncRequest) (cancelled : Bool)
    (message : Option String) :
    (client.put id request).asyncRequestFinish id cancelled message =
      some (client.release id request cancelled message) := by
  rw [finish_eq (memory_put request), put_release]

-- ==== callbacks

/-- The request waits, on its timer or on a lookup made just now. -/
inductive Held (client : AsyncClient) (id : Nat) (request : AsyncRequest)
    (bound : Nat ×ₗ Nat) : AsyncRequest → AsyncClient → Prop where
  | waiting {request' : AsyncRequest} (armed : request'.timerArmed = true)
      (detecting : request'.Detecting)
      (dns : request'.dnsRequest = none ∨ request'.dnsRequest = request.dnsRequest)
      (left : request'.left false < bound) :
      Held client id request bound request' (client.put id request')
  | looking {request' : AsyncRequest} (forNat : Bool) (idle : request'.Idle)
      (type : request'.type = if forNat then .detectNat else .connectControl)
      (detecting : request'.Detecting)
      (dns : request'.dnsRequest = none ∨ request'.dnsRequest = some client.nextLookup)
      (left : request'.left true < bound) :
      Held client id request bound request' ((client.launch id forNat).put id request')

/-- The request has been released. -/
def Released (client : AsyncClient) (id : Nat) (request : AsyncRequest)
    (client' : AsyncClient) : Prop :=
  ∃ request' cancelled message, request.Kept request' ∧
    (request'.dnsRequest = none ∨ request'.dnsRequest = request.dnsRequest) ∧
      client' = client.release id request' cancelled message

def Handled (client : AsyncClient) (id : Nat) (request : AsyncRequest) (bound : Nat ×ₗ Nat)
    (client' : AsyncClient) : Prop :=
  client.Released id request client' ∨
    ∃ request', request.Kept request' ∧ client.Held id request bound request' client'

end AsyncClient

-- ==== connecting

namespace AsyncRequest

theorem attempt_fields (request : AsyncRequest) (tries : List ConnectTry) :
    (request.attempt tries).1.type = request.type ∧
      (request.attempt tries).1.dnsRequest = request.dnsRequest ∧
        (request.attempt tries).1.connectAddrs = request.connectAddrs := by
  induction tries generalizing request with
  | nil => exact ⟨rfl, rfl, rfl⟩
  | cons connectTry rest ih =>
    cases connectTry with
    | noSocket => exact ih { request with fd := -1 }
    | connected => exact ⟨rfl, rfl, rfl⟩
    | refused => exact ih { request with fd := -1 }
    | started fd events => exact ⟨rfl, rfl, rfl⟩

theorem attempt_waiting (request : AsyncRequest) (tries : List ConnectTry)
    (h : (request.attempt tries).2 = .waiting) :
    (request.attempt tries).1.timerArmed = true ∧
      (request.attempt tries).1.connectNextAddr.length < tries.length := by
  induction tries generalizing request with
  | nil => cases h
  | cons connectTry rest ih =>
    cases connectTry with
    | noSocket =>
      have hrest := ih { request with fd := -1 } h
      exact ⟨hrest.1, hrest.2.trans (Nat.lt_succ_self _)⟩
    | connected => cases h
    | refused =>
      have hrest := ih { request with fd := -1 } h
      exact ⟨hrest.1, hrest.2.trans (Nat.lt_succ_self _)⟩
    | started fd events =>
      cases events with
      | true => exact ⟨rfl, Nat.lt_succ_self _⟩
      | false => cases h

theorem attempt_starts (request : AsyncRequest) {tries : List ConnectTry}
    (h : Starts tries = true) : (request.attempt tries).2 = .waiting := by
  induction tries generalizing request with
  | nil => cases h
  | cons connectTry rest ih =>
    cases connectTry with
    | noSocket => exact ih { request with fd := -1 } h
    | connected => cases h
    | refused => exact ih { request with fd := -1 } h
    | started fd events =>
      have hevents : events = true := h
      rw [hevents]
      rfl

end AsyncRequest

namespace AsyncClient

variable {client : AsyncClient} {id : Nat} {request : AsyncRequest} {bound : Nat ×ₗ Nat}
variable {reply : NatReply} {start : NatStart}

theorem Held.mono {request' : AsyncRequest} {client' : AsyncClient}
    (h : client.Held id request bound request' client') {bound' : Nat ×ₗ Nat}
    (hle : bound ≤ bound') : client.Held id request bound' request' client' := by
  cases h with
  | waiting armed detecting dns left => exact .waiting armed detecting dns (left.trans_le hle)
  | looking forNat idle type detecting dns left =>
    exact .looking forNat idle type detecting dns (left.trans_le hle)

theorem Handled.mono {client' : AsyncClient} (h : client.Handled id request bound client')
    {bound' : Nat ×ₗ Nat} (hle : bound ≤ bound') : client.Handled id request bound' client' :=
  h.imp_right fun ⟨request', hkept, hheld⟩ => ⟨request', hkept, hheld.mono hle⟩

theorem released {request' : AsyncRequest} (hkept : request.Kept request')
    (hdns : request'.dnsRequest = none ∨ request'.dnsRequest = request.dnsRequest)
    (cancelled : Bool) (message : Option String) :
    client.Handled id request bound (client.release id request' cancelled message) :=
  .inl ⟨request', cancelled, message, hkept, hdns, rfl⟩

theorem lex_lt_right {a b c : Nat} (h : b < c) : toLex (a, b) < toLex (a, c) :=
  Prod.Lex.toLex_lt_toLex.mpr (.inr ⟨rfl, h⟩)

theorem lex_lt_left {a b c d : Nat} (h : a < c) : toLex (a, b) < toLex (c, d) :=
  Prod.Lex.toLex_lt_toLex.mpr (.inl h)

theorem lex_le_right {a b c : Nat} (h : b ≤ c) : toLex (a, b) ≤ toLex (a, c) :=
  Prod.Lex.toLex_le_toLex.mpr (.inr ⟨rfl, h⟩)

/-- The next addresses are tried; `request` is what the caller was given, which
has since become `current`. -/
theorem handled_connectOrFinish (client : AsyncClient) (id : Nat) (current : AsyncRequest)
    (htype : request.type = .connectControl) (hcurrent : current.type = request.type)
    (hdns : current.dnsRequest = none ∨ current.dnsRequest = request.dnsRequest)
    (message : String) :
    ∃ client', (client.put id current).connectOrFinish id message = some client' ∧
      client.Handled id request (toLex (0, current.connectNextAddr.length)) client' := by
  obtain ⟨hfields, hfieldsDns, -⟩ := current.attempt_fields current.connectNextAddr
  have hkept : request.Kept (current.attempt current.connectNextAddr).1 :=
    ⟨hfields.trans hcurrent, fun hne => absurd htype hne⟩
  have hdns' : (current.attempt current.connectNextAddr).1.dnsRequest = none ∨
      (current.attempt current.connectNextAddr).1.dnsRequest = request.dnsRequest := by
    rw [hfieldsDns]
    exact hdns
  simp only [connectOrFinish, startAsyncConnectAttempt, memory_put, put_put,
    Option.bind_eq_bind, Option.bind_some, Option.pure_def]
  cases houtcome : (current.attempt current.connectNextAddr).2 with
  | connected =>
    refine ⟨client.release id (current.attempt current.connectNextAddr).1 false none, ?_,
      released hkept hdns' _ _⟩
    simp
  | waiting =>
    obtain ⟨harmed, hlt⟩ := current.attempt_waiting current.connectNextAddr houtcome
    refine ⟨client.put id (current.attempt current.connectNextAddr).1, by simp,
      .inr ⟨_, hkept, .waiting harmed (fun hnat => ?_) hdns' ?_⟩⟩
    · rw [hkept.type, htype] at hnat
      cases hnat
    · simp only [AsyncRequest.left, hkept.type, htype]
      exact lex_lt_right hlt
  | failed =>
    refine ⟨client.release id (current.attempt current.connectNextAddr).1 false (some message),
      ?_, released hkept hdns' _ _⟩
    simp

theorem handled_asyncConnectDnsCb (hmem : client.memory id = some request)
    (htype : request.type = .connectControl) (answer : Option (List ConnectTry)) :
    ∃ client', client.asyncConnectDnsCb id answer = some client' ∧
      client.Handled id request (toLex (1, 0)) client' := by
  simp only [asyncConnectDnsCb, write_eq hmem, Option.bind_eq_bind, Option.bind_some]
  have hfailed : ∃ client', (client.put id { request with
        dnsRequest := none }).asyncRequestFinish id false
          (some "resolve control endpoint failed") = some client' ∧
      client.Handled id request (toLex (1, 0)) client' := by
    refine ⟨_, finish_put _ _ _, ?_⟩
    apply released
    · exact ⟨rfl, fun _ => rfl⟩
    · exact .inl rfl
  match answer with
  | none => exact hfailed
  | some [] => exact hfailed
  | some (connectTry :: rest) =>
    simp only [write_put, Option.bind_some]
    obtain ⟨client', heq, hhandled⟩ := handled_connectOrFinish client id
      { request with
        dnsRequest := none, connectAddrs := true, connectNextAddr := connectTry :: rest }
      htype rfl (.inl rfl) "connect control failed"
    exact ⟨client', heq, hhandled.mono (lex_lt_left Nat.zero_lt_one).le⟩

/-- Where the connect gets under way within the callback, the request waits on
it. -/
theorem asyncConnectDnsCb_starts (hmem : client.memory id = some request)
    (htype : request.type = .connectControl) {tries : List ConnectTry}
    (h : Starts tries = true) :
    ∃ request', client.asyncConnectDnsCb id (some tries) = some (client.put id request') ∧
      request.Kept request' ∧ request'.connectAddrs = true ∧ request'.timerArmed = true := by
  cases tries with
  | nil => cases h
  | cons connectTry rest =>
    let current : AsyncRequest := { request with
      dnsRequest := none, connectAddrs := true, connectNextAddr := connectTry :: rest }
    have houtcome : (current.attempt current.connectNextAddr).2 = .waiting :=
      current.attempt_starts h
    obtain ⟨hfields, -, haddrs⟩ := current.attempt_fields current.connectNextAddr
    obtain ⟨harmed, -⟩ := current.attempt_waiting current.connectNextAddr houtcome
    refine ⟨(current.attempt current.connectNextAddr).1, ?_,
      ⟨hfields, fun hne => absurd htype hne⟩, haddrs, harmed⟩
    simp only [asyncConnectDnsCb, write_eq hmem, Option.bind_eq_bind, Option.bind_some,
      write_put, connectOrFinish, startAsyncConnectAttempt, memory_put, put_put]
    rw [houtcome]
    rfl

-- ==== detecting

theorem handled_afterSending (client : AsyncClient) (id : Nat) (current : AsyncRequest)
    (htype : request.type = .detectNat) (hkept : request.Kept current)
    (hdns : current.dnsRequest = none ∨ current.dnsRequest = request.dnsRequest)
    (f : AsyncRequest → Sending) {n : Nat} (hleaves : NatRequest.Leaves (f current) n) :
    ∃ client', (client.put id current).afterSending id f = some client' ∧
      client.Handled id request (toLex (0, n)) client' := by
  simp only [afterSending, memory_put, put_put, Option.bind_eq_bind, Option.bind_some]
  rcases hleaves with hdone | ⟨⟨hnone, harmed⟩, hrank⟩
  · obtain ⟨result, hresult⟩ := Option.isSome_iff_exists.mp hdone
    simp only [hresult, write_put, Option.bind_some]
    refine ⟨_, finish_put _ _ _, ?_⟩
    apply released
    · exact ⟨hkept.type, hkept.fd⟩
    · exact hdns
  · rw [hnone]
    have hcurrent : current.type = .detectNat := hkept.type.trans htype
    refine ⟨_, rfl, .inr ⟨_, ?_, .waiting ?_ (fun _ => ⟨hnone, fun _ => harmed⟩) ?_ ?_⟩⟩
    · exact ⟨hkept.type, hkept.fd⟩
    · exact harmed
    · exact hdns
    · simp only [AsyncRequest.left, hcurrent]
      exact lex_lt_right hrank

theorem handled_startAsyncNatIo (client : AsyncClient) (id : Nat) (current : AsyncRequest)
    (htype : request.type = .detectNat) (hkept : request.Kept current)
    (hdns : current.dnsRequest = none ∨ current.dnsRequest = request.dnsRequest)
    (hnone : current.nat.delivered = none) (start : NatStart) :
    ∃ client', (client.put id current).startAsyncNatIo id start = some client' ∧
      client.Handled id request (toLex (1, 0)) client' := by
  unfold startAsyncNatIo
  split
  · refine ⟨_, finish_put _ _ _, ?_⟩
    apply released
    · exact hkept
    · exact hdns
  · split
    · refine ⟨_, finish_put _ _ _, ?_⟩
      apply released
      · exact hkept
      · exact hdns
    · have hinit : (current.nat.initAsyncNatSample current.socket).delivered = none := hnone
      have hleaves := NatRequest.leaves_send hinit current.socket start.sendto
        "start async nat request failed" (Nat.lt_succ_self _)
      obtain ⟨client', heq, hhandled⟩ := handled_afterSending client id current htype hkept hdns
        (fun request => request.nat.startAsyncNatIo request.socket start.sendto) hleaves
      exact ⟨client', heq, hhandled.mono (lex_lt_left Nat.zero_lt_one).le⟩

/-- Where the probing gets under way within the callback, the request waits
on it. -/
theorem startAsyncNatIo_holds (client : AsyncClient) (id : Nat) (current : AsyncRequest)
    (hnone : current.nat.delivered = none) (h : start.Holds = true) :
    ∃ request', (client.put id current).startAsyncNatIo id start = some (client.put id request') ∧
      current.Kept request' ∧ request'.timerArmed = true ∧ request'.nat.delivered = none ∧
        request'.nat.timerArmed = true ∧ request'.dnsRequest = current.dnsRequest ∧
          request'.probeAddrLens = current.probeAddrLens := by
  simp only [NatStart.Holds, Bool.and_eq_true, decide_eq_true_iff] at h
  obtain ⟨⟨hcreated, hadded⟩, hsendto⟩ := h
  have hleft : (current.nat.startAsyncNatIo current.socket start.sendto).request.delivered = none ∧
      (current.nat.startAsyncNatIo current.socket start.sendto).request.timerArmed = true := by
    rcases NatRequest.send_cases (current.nat.initAsyncNatSample current.socket) current.socket
      start.sendto "start async nat request failed" with
        ⟨hfailed, -⟩ | ⟨⟨endpoint, -, hrequest⟩, -⟩
    · exact absurd hfailed hsendto
    · unfold NatRequest.startAsyncNatIo
      rw [hrequest]
      exact ⟨hnone, rfl⟩
  refine ⟨{ current with
      nat := (current.nat.startAsyncNatIo current.socket start.sendto).request
      ioEvent := true
      timerArmed :=
        (current.nat.startAsyncNatIo current.socket start.sendto).request.timerArmed },
    ?_, ⟨rfl, fun _ => rfl⟩, hleft.2, hleft.1, hleft.2, rfl, rfl⟩
  simp [startAsyncNatIo, hcreated, hadded, afterSending, hleft.1]

/-- No other lookup follows the one that is answered. -/
def Last (request : AsyncRequest) : Prop :=
  ¬ (request.resolvingProbeIndex = 0 ∧ request.nat.hasProbe2 = true)

/-- What is resolved is noted, and then either the second lookup is made or
the probing started. -/
theorem asyncNatDnsCb_resolved (hmem : client.memory id = some request) (start : NatStart)
    (addr : Address) (next : NatReply) :
    let noted := noteAddr request.resolvingProbeIndex addr { request with dnsRequest := none }
    asyncNatDnsCb id start (.resolved addr next) client =
      if request.resolvingProbeIndex = 0 ∧ request.nat.hasProbe2 = true then do
        let (resolved, client) ← (client.put id noted).resolveAsyncNatEndpoint id 1
          (if next = .later then none else some (asyncNatDnsCb id start next))
        if resolved then return client
        client.asyncRequestFinish id false (some "resolve probe endpoint failed")
      else (client.put id noted).startAsyncNatIo id start := by
  intro noted
  simp only [asyncNatDnsCb, write_eq hmem, Option.bind_eq_bind, Option.bind_some, memory_put,
    write_put, noted]

theorem handled_last (hmem : client.memory id = some request) (htype : request.type = .detectNat)
    (hnone : request.nat.delivered = none) (hlast : Last request) (start : NatStart)
    (hreply : reply ≠ .later) :
    ∃ client', asyncNatDnsCb id start reply client = some client' ∧
      client.Handled id request (toLex (1, 0)) client' := by
  cases reply with
  | later => exact absurd rfl hreply
  | failed =>
    simp only [asyncNatDnsCb, write_eq hmem, Option.bind_eq_bind, Option.bind_some]
    refine ⟨_, finish_put _ _ _, ?_⟩
    apply released
    · exact ⟨rfl, fun _ => rfl⟩
    · exact .inl rfl
  | resolved addr next =>
    rw [asyncNatDnsCb_resolved hmem, if_neg hlast]
    refine handled_startAsyncNatIo client id _ htype ?_ ?_ ?_ start
    · exact ⟨rfl, fun _ => rfl⟩
    · exact .inl rfl
    · exact hnone

/-- Where the last answer comes within the call and the probing gets under
way, the request waits on it. -/
theorem asyncNatDnsCb_last_holds (hmem : client.memory id = some request)
    (hnone : request.nat.delivered = none) (hlast : Last request)
    (hreply : reply ≠ .later) (h : reply.Holds start false = true) :
    ∃ request', asyncNatDnsCb id start reply client = some (client.put id request') ∧
      request.Kept request' ∧ request'.timerArmed = true ∧ request'.nat.delivered = none ∧
        request'.nat.timerArmed = true ∧ request'.dnsRequest = none ∧
          request'.probeAddrLens =
            Function.update request.probeAddrLens request.resolvingProbeIndex true := by
  cases reply with
  | later => exact absurd rfl hreply
  | failed => cases h
  | resolved addr next =>
    rw [asyncNatDnsCb_resolved hmem, if_neg hlast]
    have hstart : start.Holds = true := h
    obtain ⟨request', heq, hkept, hleft⟩ := startAsyncNatIo_holds client id
      (noteAddr request.resolvingProbeIndex addr { request with dnsRequest := none }) hnone
      hstart
    exact ⟨request', heq, ⟨hkept.type, hkept.fd⟩, hleft⟩

theorem resolve_second (client : AsyncClient) (id : Nat) (current : AsyncRequest)
    (htype : current.type = .detectNat) (hidle : current.Idle)
    (hnone : current.nat.delivered = none) {next : NatReply}
    (h : next.Holds start false = true) :
    ∃ request' client', (client.put id current).resolveAsyncNatEndpoint id 1
        (if next = .later then none else some (asyncNatDnsCb id start next)) =
          some (true, client') ∧ current.Kept request' ∧
      (∀ i, current.probeAddrLens i = true → request'.probeAddrLens i = true) ∧
        ∀ request, client.Held id request (toLex (2, 0)) request' client' := by
  by_cases hlater : next = .later
  · rw [if_pos hlater]
    refine ⟨{ current with resolvingProbeIndex := 1, dnsRequest := some client.nextLookup },
      (client.launch id true).put id
        { current with resolvingProbeIndex := 1, dnsRequest := some client.nextLookup },
      ?_, ⟨rfl, fun _ => rfl⟩, fun _ hi => hi, fun request => ?_⟩
    · simp [resolveAsyncNatEndpoint]
    · refine .looking true ⟨hidle.timer, hidle.io⟩ htype (fun _ => ⟨hnone, fun harmed => ?_⟩)
        (.inr rfl) ?_
      · exact absurd (hidle.timer.symm.trans harmed) nofun
      · simp only [AsyncRequest.left, htype]
        exact lex_lt_left (by decide)
  · rw [if_neg hlater]
    have hone : (1 : Fin 2) ≠ 0 := by decide
    have hlast : Last { current with resolvingProbeIndex := 1 } :=
      fun hboth => absurd hboth.1 hone
    have hmem : (client.put id { current with resolvingProbeIndex := 1 }).memory id =
        some { current with resolvingProbeIndex := 1 } := memory_put _
    obtain ⟨request', heq, hkept, harmed, hnone', harmed', -, hlens⟩ :=
      asyncNatDnsCb_last_holds hmem hnone hlast hlater h
    have hlens1 : request'.probeAddrLens 1 = true := by
      rw [hlens]
      exact Function.update_self ..
    refine ⟨{ request' with dnsRequest := none },
      client.put id { request' with dnsRequest := none },
      ?_, ⟨hkept.type, hkept.fd⟩, fun i hi => ?_, fun request => ?_⟩
    · simp [resolveAsyncNatEndpoint, heq, hlens1]
    · dsimp only
      rw [hlens]
      by_cases hi1 : i = 1
      · rw [hi1]
        exact Function.update_self ..
      · exact (Function.update_of_ne hi1 ..).trans hi
    · refine .waiting harmed (fun _ => ⟨hnone', fun _ => harmed'⟩) (.inl rfl) ?_
      have hnat : request'.type = .detectNat := hkept.type.trans htype
      simp only [AsyncRequest.left, hnat]
      exact lex_lt_left (by decide)

/-- A lookup of a detection is answered; where another one follows, that one
does not end the request within the call. -/
theorem handled_asyncNatDnsCb (hmem : client.memory id = some request)
    (htype : request.type = .detectNat) (hidle : request.Idle)
    (hnone : request.nat.delivered = none) (start : NatStart)
    (hreply : reply ≠ .later)
    (hsafe : ¬ Last request → ∀ addr next, reply = .resolved addr next →
      next.Holds start false = true) :
    ∃ client', asyncNatDnsCb id start reply client = some client' ∧
      client.Handled id request (request.left true) client' := by
  by_cases hlast : Last request
  · obtain ⟨client', heq, hhandled⟩ := handled_last hmem htype hnone hlast start hreply
    refine ⟨client', heq, hhandled.mono ?_⟩
    simp only [AsyncRequest.left, htype]
    refine Prod.Lex.toLex_le_toLex.mpr ?_
    have hindex : request.resolvingProbeIndex.val = 0 ∨ request.resolvingProbeIndex.val = 1 := by
      omega
    rcases hindex with hindex | hindex <;> rw [hindex] <;> simp
  · cases reply with
    | later => exact absurd rfl hreply
    | failed =>
      simp only [asyncNatDnsCb, write_eq hmem, Option.bind_eq_bind, Option.bind_some]
      refine ⟨_, finish_put _ _ _, ?_⟩
      apply released
      · exact ⟨rfl, fun _ => rfl⟩
      · exact .inl rfl
    | resolved addr next =>
      have hboth := not_not.mp hlast
      obtain ⟨request', client', heq, hkept, -, hheld⟩ := resolve_second client id
        (noteAddr request.resolvingProbeIndex addr { request with dnsRequest := none }) htype
        ⟨hidle.timer, hidle.io⟩ hnone (hsafe hlast addr next rfl)
      rw [asyncNatDnsCb_resolved hmem, if_pos hboth, heq]
      refine ⟨client', rfl, .inr ⟨request', ⟨hkept.type, hkept.fd⟩, (hheld request).mono ?_⟩⟩
      simp only [AsyncRequest.left, htype, hboth.1]
      exact le_refl _

-- ==== events

/-- Where the timer of a punch has rounds left, it is armed again. -/
def Rearms (request : AsyncRequest) (rearmed : Bool) : Prop :=
  request.type = .udpHolePunch → request.punchRound + 1 < request.punchMaxRounds → rearmed = true

instance (request : AsyncRequest) (rearmed : Bool) : Decidable (Rearms request rearmed) :=
  inferInstanceAs (Decidable (_ → _ → _))

theorem handled_asyncPunchTimeoutCb (client : AsyncClient) (id : Nat) {rearmed : Bool}
    (htype : request.type = .udpHolePunch) (hrearmed : Rearms request rearmed) :
    ∃ client', (client.put id { request with timerArmed := false }).asyncPunchTimeoutCb id
        rearmed = some client' ∧ client.Handled id request (request.left false) client' := by
  simp only [asyncPunchTimeoutCb, write_put, memory_put, Option.bind_eq_bind, Option.bind_some]
  split
  case isTrue =>
    simp only [asyncPunchFinish, write_put, Option.bind_eq_bind, Option.bind_some]
    refine ⟨_, finish_put _ _ _, ?_⟩
    apply released
    · exact ⟨rfl, fun _ => rfl⟩
    · exact .inr rfl
  case isFalse hmore =>
    have hlt : request.punchRound + 1 < request.punchMaxRounds := not_le.mp hmore
    refine ⟨_, rfl, .inr ⟨_, ?_, .waiting ?_ (fun hnat => ?_) (.inr rfl) ?_⟩⟩
    · exact ⟨rfl, fun _ => rfl⟩
    · exact hrearmed htype hlt
    · exact absurd (htype.symm.trans hnat) nofun
    · simp only [AsyncRequest.left, htype]
      apply lex_lt_right
      omega

theorem handled_timer (hmem : client.memory id = some request) (harmed : request.timerArmed = true)
    (hdetecting : request.Detecting) (sendto : Sendto) {rearmed : Bool}
    (hrearmed : Rearms request rearmed) :
    ∃ client', client.timer id sendto rearmed = some client' ∧
      client.Handled id request (request.left false) client' := by
  simp only [timer, hmem, harmed, Bool.not_true, Bool.false_eq_true, if_false]
  split
  case h_1 htype =>
    refine ⟨_, finish_put _ _ _, ?_⟩
    apply released
    · exact ⟨rfl, fun _ => rfl⟩
    · exact .inr rfl
  case h_2 htype =>
    simp only [asyncConnectTimeoutCb, write_put, Option.bind_eq_bind, Option.bind_some]
    obtain ⟨client', heq, hhandled⟩ := handled_connectOrFinish client id
      { request with timerArmed := false, fd := -1 } htype rfl (.inr rfl)
      "connect control timeout"
    refine ⟨client', heq, hhandled.mono ?_⟩
    simp only [AsyncRequest.left, htype]
    exact le_refl _
  case h_3 htype =>
    obtain ⟨client', heq, hhandled⟩ := handled_afterSending client id
      { request with timerArmed := false } htype ⟨rfl, fun _ => rfl⟩ (.inr rfl)
      (fun r => r.nat.asyncNatTimeoutCb r.socket sendto)
      (NatRequest.leaves_timeout (hdetecting htype).1 request.socket sendto)
    refine ⟨client', heq, hhandled.mono ?_⟩
    simp only [AsyncRequest.left, htype]
    exact le_refl _
  case h_4 htype => exact handled_asyncPunchTimeoutCb client id htype hrearmed

theorem handled_asyncIoCb (hmem : client.memory id = some request) (io : MessageIo) :
    client.asyncIoCb id io = some client ∨
      ∃ client', client.asyncIoCb id io = some client' ∧
        client.Handled id request bound client' := by
  have hended : ∀ message, ∃ client', client.asyncRequestFinish id false message = some client' ∧
      client.Handled id request bound client' := by
    refine fun message => ⟨_, finish_eq hmem _ _, ?_⟩
    apply released
    · exact .refl request
    · exact .inr rfl
  have hanswered : ∀ ok, ∃ client', ((client.write id fun request =>
      { request with result := { request.result with success := ok } }).bind fun client =>
        client.asyncRequestFinish id false none) = some client' ∧
      client.Handled id request bound client' := by
    intro ok
    simp only [write_eq hmem, Option.bind_some]
    refine ⟨_, finish_put _ _ _, ?_⟩
    apply released
    · exact ⟨rfl, fun _ => rfl⟩
    · exact .inr rfl
  simp only [asyncIoCb, hmem, Option.bind_eq_bind, Option.bind_some]
  cases io with
  | nothing => exact .inl rfl
  | sendFailed => exact .inr (hended _)
  | sent =>
    dsimp only
    split
    · exact .inl rfl
    · exact .inr (hanswered true)
  | closed => exact .inr (hended _)
  | badFrame => exact .inr (hended _)
  | response ok => exact .inr (hanswered ok)

/-- A socket is ready: nothing happens, or the request is no farther from its
end than it was. -/
theorem handled_ready (hmem : client.memory id = some request) (harmed : request.timerArmed = true)
    (hdetecting : request.Detecting) (io : AsyncIo) :
    client.ready id io = some client ∨
      ∃ client', client.ready id io = some client' ∧
        client.Handled id request (toLex (0, (ofLex (request.left false)).2 + 1)) client' := by
  simp only [ready, hmem]
  split
  · exact .inl rfl
  · split
    case h_1 io htype => exact handled_asyncIoCb hmem io
    case h_2 connected htype =>
      refine .inr ?_
      unfold asyncConnectIoCb
      simp only [write_put, Option.bind_eq_bind, Option.bind_some]
      split
      · refine ⟨_, finish_put _ _ _, ?_⟩
        apply released
        · exact ⟨rfl, fun hne => absurd htype hne⟩
        · exact .inr rfl
      · obtain ⟨client', heq, hhandled⟩ := handled_connectOrFinish client id
          { request with ioEvent := false, fd := -1 } htype rfl (.inr rfl)
          "connect control failed"
        refine ⟨client', heq, hhandled.mono ?_⟩
        simp only [AsyncRequest.left, htype]
        exact lex_le_right (Nat.le_succ _)
    case h_3 source frame sendto htype =>
      refine .inr ?_
      obtain ⟨hnone, hwaits⟩ := hdetecting htype
      obtain ⟨client', heq, hhandled⟩ := handled_afterSending client id request htype
        (.refl request) (.inr rfl) (fun r => r.nat.asyncNatIoCb r.socket source frame sendto)
        (NatRequest.leaves_asyncNatIoCb hnone (hwaits harmed) request.socket source frame sendto)
      rw [put_self hmem] at heq
      refine ⟨client', heq, hhandled.mono ?_⟩
      simp only [AsyncRequest.left, htype]
      exact le_refl _
    case h_4 selected htype =>
      split
      · refine .inr ?_
        simp only [asyncPunchFinish, write_eq hmem, Option.bind_eq_bind, Option.bind_some]
        refine ⟨_, finish_put _ _ _, ?_⟩
        apply released
        · exact ⟨rfl, fun _ => rfl⟩
        · exact .inr rfl
      · exact .inl rfl
    case h_5 => exact .inl rfl

-- ==== submitting

/-- The request is allocated, and entered in the tables. -/
def opened (client : AsyncClient) (request : AsyncRequest) : AsyncClient :=
  (client.allocate request).register client.nextRequestId
    (if request.type = .connectControl then none else some request.fd)

@[simp] theorem memory_opened (request : AsyncRequest) :
    (client.opened request).memory client.nextRequestId = some request := Function.update_self ..

@[simp] theorem opened_nextLookup (request : AsyncRequest) :
    (client.opened request).nextLookup = client.nextLookup := rfl

/-- A submit function has made a request, and it waits. -/
def Begun (client : AsyncClient) (submitted : Option (Bool × AsyncClient)) : Prop :=
  ∃ request request' bound client', submitted = some (true, client') ∧
    request.dnsRequest = none ∧ request.Detecting ∧ request.Kept request' ∧
      (client.opened request).Held client.nextRequestId request bound request' client'

theorem begun_submitAsyncMessageRequest (client : AsyncClient) (fd : Int) (expectResponse : Bool) :
    client.Begun (client.submitAsyncMessageRequest fd expectResponse true true) := by
  let request : AsyncRequest := { type := .message, fd, expectResponse }
  refine ⟨request, { request with ioEvent := true, timerArmed := true }, toLex (1, 0), _, ?_, rfl,
    nofun, ⟨rfl, fun _ => rfl⟩, .waiting rfl nofun (.inl rfl) (lex_lt_left Nat.zero_lt_one)⟩
  change ((client.opened request).write client.nextRequestId _).bind _ = _
  rw [write_eq (memory_opened request)]
  rfl

theorem begun_submitAsyncPunchRequest (client : AsyncClient) (fd sendRounds : Int) :
    client.Begun (client.submitAsyncPunchRequest fd sendRounds true true true true) := by
  let request : AsyncRequest :=
    { type := .udpHolePunch, fd, punchMaxRounds := if sendRounds ≤ 0 then 8 else sendRounds }
  refine ⟨request, { request with ioEvent := true, timerArmed := true }, toLex (1, 0), _, ?_, rfl,
    nofun, ⟨rfl, fun _ => rfl⟩, .waiting rfl nofun (.inl rfl) (lex_lt_left Nat.zero_lt_one)⟩
  change ((client.opened request).write client.nextRequestId _).bind _ = _
  rw [write_eq (memory_opened request)]
  rfl

/-- The answer to a connect's lookup, if it comes at once, does not end the
request. -/
def ConnectHolds : DnsReply (Option (List ConnectTry)) → Bool
  | .later => true
  | .now none => false
  | .now (some tries) => Starts tries

theorem begun_submitAsyncConnectRequest (client : AsyncClient)
    {reply : DnsReply (Option (List ConnectTry))} (h : ConnectHolds reply = true) :
    client.Begun (client.submitAsyncConnectRequest reply) := by
  let request : AsyncRequest := { type := .connectControl, fd := -1 }
  have hmem : (client.opened request).memory client.nextRequestId = some request :=
    memory_opened request
  unfold submitAsyncConnectRequest
  match reply, h with
  | .later, _ =>
    have hlaunch : ((client.opened request).launch client.nextRequestId false).memory
        client.nextRequestId = some request := hmem
    refine ⟨request, { request with dnsRequest := some client.nextLookup }, toLex (2, 0), _, ?_,
      rfl, nofun, ⟨rfl, fun _ => rfl⟩, .looking false ⟨rfl, rfl⟩ rfl nofun (.inr rfl) ?_⟩
    · change (((client.opened request).launch client.nextRequestId false).write
        client.nextRequestId _).bind _ = _
      rw [write_eq hlaunch]
      simp only [Option.bind_some, memory_put]
      rfl
    · exact lex_lt_left (Nat.lt_succ_self 1)
  | .now (some tries), h =>
    obtain ⟨request', heq, hkept, haddrs, harmed⟩ := asyncConnectDnsCb_starts hmem rfl h
    have hcall : ((client.allocate { type := .connectControl, fd := -1 }).register
        client.nextRequestId none).asyncConnectDnsCb client.nextRequestId (some tries) =
          some ((client.opened request).put client.nextRequestId request') := heq
    refine ⟨request, { request' with dnsRequest := none }, toLex (1, 0), _, ?_, rfl,
      nofun, ⟨hkept.type, fun hne => absurd rfl hne⟩,
      .waiting harmed (fun hnat => ?_) (.inl rfl) ?_⟩
    · simp only [Option.bind_eq_bind, Option.bind_some, hcall, Option.map_some, write_put,
        memory_put, haddrs]
      rfl
    · exact absurd (hkept.type.symm.trans hnat) nofun
    · have htype : request'.type = .connectControl := hkept.type
      simp only [AsyncRequest.left, htype]
      exact lex_lt_left Nat.zero_lt_one

theorem Held.write {request' : AsyncRequest} {client' : AsyncClient}
    (h : client.Held id request bound request' client') :
    ∃ client'', client'.write id (fun request => { request with dnsRequest := none }) =
        some client'' ∧ client''.memory id = some { request' with dnsRequest := none } ∧
      client.Held id request bound { request' with dnsRequest := none } client'' := by
  cases h with
  | waiting armed detecting dns left =>
    exact ⟨_, write_put _ _, memory_put _, .waiting armed detecting (.inl rfl) left⟩
  | looking forNat idle type detecting dns left =>
    exact ⟨_, write_put _ _, memory_put _,
      .looking forNat ⟨idle.timer, idle.io⟩ type detecting (.inl rfl) left⟩

theorem asyncNatDnsCb_holds (hmem : client.memory id = some request)
    (htype : request.type = .detectNat) (hidle : request.Idle)
    (hnone : request.nat.delivered = none) (hfirst : request.resolvingProbeIndex = 0)
    {start : NatStart} {reply : NatReply} (hreply : reply ≠ .later)
    (h : reply.Holds start request.nat.hasProbe2 = true) :
    ∃ request' client', asyncNatDnsCb id start reply client = some client' ∧
      request.Kept request' ∧ request'.probeAddrLens 0 = true ∧
        ∀ request, client.Held id request (toLex (2, 0)) request' client' := by
  by_cases hlast : Last request
  · have hboth : request.nat.hasProbe2 = false :=
      Bool.eq_false_iff.mpr fun hboth => hlast ⟨hfirst, hboth⟩
    rw [hboth] at h
    obtain ⟨request', heq, hkept, harmed, hnone', harmed', hdns, hlens⟩ :=
      asyncNatDnsCb_last_holds hmem hnone hlast hreply h
    refine ⟨request', _, heq, hkept, ?_, fun request => ?_⟩
    · rw [hlens, hfirst, Function.update_self]
    · refine .waiting harmed (fun _ => ⟨hnone', fun _ => harmed'⟩) (.inl hdns) ?_
      · have hnat : request'.type = .detectNat := hkept.type.trans htype
        simp only [AsyncRequest.left, hnat]
        exact lex_lt_left (by decide)
  · have hboth := not_not.mp hlast
    rw [hboth.2] at h
    cases reply with
    | later => exact absurd rfl hreply
    | failed => cases h
    | resolved addr next =>
      have hnext : next.Holds start false = true := h
      obtain ⟨request', client', heq, hkept, hlens, hheld⟩ := resolve_second client id
        (noteAddr request.resolvingProbeIndex addr { request with dnsRequest := none }) htype
        ⟨hidle.timer, hidle.io⟩ hnone hnext
      refine ⟨request', client', ?_, ⟨hkept.type, hkept.fd⟩, ?_, hheld⟩
      · rw [asyncNatDnsCb_resolved hmem, if_pos hboth, heq]
        rfl
      · apply hlens
        simp [noteAddr, hfirst]

theorem begun_submitAsyncNatRequest (client : AsyncClient) (fd : Int) (options : DetectNatOptions)
    (hasProbe2 : Bool) (socket : UdpSocket) {reply : NatReply} {start : NatStart}
    (h : reply.Holds start hasProbe2 = true) :
    client.Begun (client.submitAsyncNatRequest fd options hasProbe2 socket reply start) := by
  let request : AsyncRequest :=
    { type := .detectNat, fd, socket,
      nat := Ntrs.submitAsyncNatRequest (UInt64.ofNat client.nextRequestId) options hasProbe2
        fun _ => ⟨.any, 0⟩ }
  have hmem : (client.opened request).memory client.nextRequestId = some request :=
    memory_opened request
  have hdetecting : request.Detecting := fun _ => ⟨rfl, nofun⟩
  by_cases hlater : reply = .later
  · have hresolve : (client.opened request).resolveAsyncNatEndpoint client.nextRequestId 0 none =
        some (true, ((client.opened request).launch client.nextRequestId true).put
          client.nextRequestId { request with dnsRequest := some client.nextLookup }) := by
      simp only [resolveAsyncNatEndpoint, write_eq hmem, Option.bind_eq_bind, Option.bind_some,
        write_put, memory_put, put_launch]
      rfl
    refine ⟨request, { request with dnsRequest := some client.nextLookup }, toLex (3, 0), _, ?_,
      rfl, hdetecting, ⟨rfl, fun _ => rfl⟩, .looking true ⟨rfl, rfl⟩ rfl hdetecting (.inr rfl)
      (lex_lt_left (Nat.lt_succ_self 2))⟩
    simp only [submitAsyncNatRequest, if_pos hlater]
    change ((client.opened request).resolveAsyncNatEndpoint client.nextRequestId 0 none).bind _ = _
    rw [hresolve]
    rfl
  · obtain ⟨request', client', heq, hkept, hlens, hheld⟩ := asyncNatDnsCb_holds hmem rfl ⟨rfl, rfl⟩
      rfl rfl hlater h
    obtain ⟨client'', hwrite, hmem'', hheld''⟩ := (hheld request).write
    have hself : (client.opened request).put client.nextRequestId
        { request with resolvingProbeIndex := 0 } = client.opened request := put_self hmem
    have hresolve : (client.opened request).resolveAsyncNatEndpoint client.nextRequestId 0
        (some (asyncNatDnsCb client.nextRequestId start reply)) = some (true, client'') := by
      simp only [resolveAsyncNatEndpoint, write_eq hmem, hself, heq, Option.bind_eq_bind,
        Option.bind_some, Option.map_some, hwrite, hmem'', hlens]
      rfl
    refine ⟨request, { request' with dnsRequest := none }, _, client'', ?_, rfl,
      hdetecting, ⟨hkept.type, hkept.fd⟩, hheld''⟩
    simp only [submitAsyncNatRequest, if_neg hlater]
    change ((client.opened request).resolveAsyncNatEndpoint client.nextRequestId 0
      (some (asyncNatDnsCb client.nextRequestId start reply))).bind _ = _
    rw [hresolve]
    rfl

end AsyncClient

end Eular.Ntrs
