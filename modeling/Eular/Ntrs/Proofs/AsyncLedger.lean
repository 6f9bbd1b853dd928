/-
What holds of the asynchronous client between its calls (`Sound`), and that
the callbacks and the submit functions keep it.

It is in four parts. `Ledger`: a request that was accepted is in memory or its
callback has been called once, and no other's has been. `Tables`: what the
tables name is in memory. `Lookups`: every lookup libevent has is of a request
in memory that no event can call back. `Waits`: every other request has its
timer armed. Within a call one request may not wait yet (`busy`), and one may
be in memory that the user has not been told of: the ledger's `accepted` is
told apart from what was returned.

The two ways out of a callback are a request put back and a request released
(`Handled`); each part is kept by each of them.
-/
import Eular.Ntrs.Proofs.AsyncClient

namespace Eular.Ntrs

open Lib

namespace AsyncClient

variable {client : AsyncClient} {id : Nat} {request request' : AsyncRequest}
  {bound : Nat ×ₗ Nat} {accepted : Nat → Prop} {busy : Option Nat}

variable {other : Nat} {lookup : DnsLookup} {found : AsyncRequest}

-- ==== the invariant

/-- libevent has a lookup for the request. -/
def looking (client : AsyncClient) (id : Nat) : Bool :=
  client.lookups.any fun lookup => lookup.request = id

structure Ledger (accepted : Nat → Prop) (client : AsyncClient) : Prop where
  bounded : ∀ id, accepted id → id < client.nextRequestId
  live : ∀ id, (client.memory id).isSome → accepted id
  owed : ∀ id, accepted id → client.callsOf id = if (client.memory id).isSome then 0 else 1
  uncalled : ∀ id, ¬ accepted id → client.callsOf id = 0

structure Tables (client : AsyncClient) : Prop where
  requests : ∀ id, id ∈ client.requests ↔ (client.memory id).isSome
  nodup : client.requests.Nodup
  fds : ∀ entry ∈ client.activeFds, ∃ request, client.memory entry.2 = some request ∧
    request.type ≠ .connectControl ∧ request.fd = entry.1

structure Lookups (client : AsyncClient) : Prop where
  single : (client.lookups.map DnsLookup.request).Nodup
  handles : ∀ lookup ∈ client.lookups, lookup.handle < client.nextLookup
  issued : ∀ id request handle, client.memory id = some request →
    request.dnsRequest = some handle → handle < client.nextLookup
  own : ∀ id request, client.memory id = some request → ∀ lookup ∈ client.lookups,
    request.dnsRequest = some lookup.handle → lookup.request = id
  looking : ∀ lookup ∈ client.lookups, lookup.cancelled = false ∧
    ∃ request, client.memory lookup.request = some request ∧ request.Idle ∧
      request.type = if lookup.forNat then .detectNat else .connectControl

structure Waits (busy : Option Nat) (client : AsyncClient) : Prop where
  waiting : ∀ id request, client.memory id = some request → busy ≠ some id →
    request.timerArmed = true ∨ client.looking id = true
  detecting : ∀ id request, client.memory id = some request → request.Detecting

structure Sound (accepted : Nat → Prop) (busy : Option Nat) (client : AsyncClient) : Prop where
  ledger : client.Ledger accepted
  tables : client.Tables
  lookups : client.Lookups
  waits : client.Waits busy

theorem looking_eq_true : client.looking id = true ↔
    ∃ lookup ∈ client.lookups, lookup.request = id := by
  simp [looking]

theorem ne_busy (hbusy : busy = none ∨ busy = some id) (hne : other ≠ id) :
    busy ≠ some other := by
  rintro rfl
  rcases hbusy with hnone | hsome
  · cases hnone
  · exact hne (Option.some.inj hsome)

theorem looking_eq_false : client.looking id = false ↔
    ∀ lookup ∈ client.lookups, lookup.request ≠ id := by
  simp [looking]

-- ==== a request put

theorem isSome_put (hmem : client.memory id = some request) (request' : AsyncRequest)
    (other : Nat) :
    ((client.put id request').memory other).isSome = (client.memory other).isSome := by
  by_cases heq : other = id
  · rw [heq, memory_put, hmem]
    rfl
  · rw [memory_put_ne heq]

/-- What is in memory after a put: it is `request'`, or it was there before. -/
theorem memory_put_cases
    (h : (client.put id request').memory other = some found) :
    (other = id ∧ found = request') ∨ (other ≠ id ∧ client.memory other = some found) := by
  by_cases heq : other = id
  · rw [heq, memory_put, Option.some.injEq] at h
    exact .inl ⟨heq, h.symm⟩
  · rw [memory_put_ne heq] at h
    exact .inr ⟨heq, h⟩

theorem Ledger.put (h : client.Ledger accepted) (hmem : client.memory id = some request)
    (request' : AsyncRequest) : (client.put id request').Ledger accepted where
  bounded := h.bounded
  live := fun other hlive => h.live other (by rwa [isSome_put hmem] at hlive)
  owed := fun other hacc => by
    rw [isSome_put hmem]
    exact h.owed other hacc
  uncalled := h.uncalled

theorem Tables.put (h : client.Tables) (hmem : client.memory id = some request)
    (hkept : request.Kept request') : (client.put id request').Tables where
  requests := fun other => by
    rw [isSome_put hmem]
    exact h.requests other
  nodup := h.nodup
  fds := fun entry hentry => by
    obtain ⟨found, hfound, htype, hfd⟩ := h.fds entry hentry
    by_cases heq : entry.2 = id
    · rw [heq, hmem, Option.some.injEq] at hfound
      rw [heq, memory_put]
      subst hfound
      exact ⟨request', rfl, hkept.type ▸ htype, (hkept.fd htype).trans hfd⟩
    · exact ⟨found, (memory_put_ne heq _).trans hfound, htype, hfd⟩

theorem Lookups.put (h : client.Lookups) (hmem : client.memory id = some request)
    (hdns : request'.dnsRequest = none ∨ request'.dnsRequest = request.dnsRequest)
    (hnot : client.looking id = false) : (client.put id request').Lookups where
  single := h.single
  handles := h.handles
  issued := fun other found handle hfound hhandle => by
    rcases memory_put_cases hfound with ⟨rfl, rfl⟩ | ⟨-, hfound⟩
    · rcases hdns with hnone | hsame
      · exact absurd (hnone.symm.trans hhandle) nofun
      · exact h.issued other request handle hmem (hsame.symm.trans hhandle)
    · exact h.issued other found handle hfound hhandle
  own := fun other found hfound lookup hlookup hhandle => by
    rcases memory_put_cases hfound with ⟨rfl, rfl⟩ | ⟨-, hfound⟩
    · rcases hdns with hnone | hsame
      · exact absurd (hnone.symm.trans hhandle) nofun
      · exact h.own other request hmem lookup hlookup (hsame.symm.trans hhandle)
    · exact h.own other found hfound lookup hlookup hhandle
  looking := fun lookup hlookup => by
    obtain ⟨hcancelled, found, hfound, hrest⟩ := h.looking lookup hlookup
    have hne : lookup.request ≠ id := looking_eq_false.mp hnot lookup hlookup
    exact ⟨hcancelled, found, (memory_put_ne hne _).trans hfound, hrest⟩

theorem Waits.put (h : client.Waits busy) (hbusy : busy = none ∨ busy = some id)
    (harmed : request'.timerArmed = true) (hdetecting : request'.Detecting) :
    (client.put id request').Waits none where
  waiting := fun other found hfound _ => by
    rcases memory_put_cases hfound with ⟨rfl, rfl⟩ | ⟨hne, hfound⟩
    · exact .inl harmed
    · exact h.waiting other found hfound (ne_busy hbusy hne)
  detecting := fun other found hfound => by
    rcases memory_put_cases hfound with ⟨rfl, rfl⟩ | ⟨-, hfound⟩
    · exact hdetecting
    · exact h.detecting other found hfound

-- ==== a request looked up

theorem looking_launch (forNat : Bool) (other : Nat) :
    (client.launch id forNat).looking other = (client.looking other || decide (id = other)) := by
  simp [launch, looking]

theorem Lookups.look (h : client.Lookups) (hmem : client.memory id = some request)
    (hnot : client.looking id = false) {forNat : Bool} (hidle : request'.Idle)
    (htype : request'.type = if forNat then .detectNat else .connectControl)
    (hdns : request'.dnsRequest = none ∨ request'.dnsRequest = some client.nextLookup) :
    ((client.launch id forNat).put id request').Lookups where
  single := by
    have happend : (client.launch id forNat).lookups.map DnsLookup.request =
        client.lookups.map DnsLookup.request ++ [id] := List.map_append
    refine happend ▸ h.single.append (List.nodup_singleton id) fun other hold hnew => ?_
    obtain ⟨lookup, hlookup, hrequest⟩ := List.mem_map.mp hold
    exact looking_eq_false.mp hnot lookup hlookup (hrequest.trans (List.mem_singleton.mp hnew))
  handles := fun lookup hlookup => by
    rcases List.mem_append.mp hlookup with hold | hnew
    · exact (h.handles lookup hold).trans (Nat.lt_succ_self _)
    · rw [List.mem_singleton.mp hnew]
      exact Nat.lt_succ_self _
  issued := fun other found handle hfound hhandle => by
    rcases memory_put_cases hfound with ⟨rfl, rfl⟩ | ⟨-, hfound⟩
    · rcases hdns with hnone | hsame
      · exact absurd (hnone.symm.trans hhandle) nofun
      · rw [← Option.some.inj (hsame.symm.trans hhandle)]
        exact Nat.lt_succ_self _
    · exact (h.issued other found handle hfound hhandle).trans (Nat.lt_succ_self _)
  own := fun other found hfound lookup hlookup hhandle => by
    rcases memory_put_cases hfound with ⟨rfl, rfl⟩ | ⟨-, hfound⟩
    · rcases List.mem_append.mp hlookup with hold | hnew
      · rcases hdns with hnone | hsame
        · exact absurd (hnone.symm.trans hhandle) nofun
        · have heq : client.nextLookup = lookup.handle :=
            Option.some.inj (hsame.symm.trans hhandle)
          exact absurd (h.handles lookup hold) (heq ▸ Nat.lt_irrefl _)
      · rw [List.mem_singleton.mp hnew]
    · rcases List.mem_append.mp hlookup with hold | hnew
      · exact h.own other found hfound lookup hold hhandle
      · rw [List.mem_singleton.mp hnew] at hhandle
        exact absurd (h.issued other found _ hfound hhandle) (Nat.lt_irrefl _)
  looking := fun lookup hlookup => by
    rcases List.mem_append.mp hlookup with hold | hnew
    · obtain ⟨hcancelled, found, hfound, hrest⟩ := h.looking lookup hold
      have hne : lookup.request ≠ id := looking_eq_false.mp hnot lookup hold
      exact ⟨hcancelled, found, (memory_put_ne hne _).trans hfound, hrest⟩
    · rw [List.mem_singleton.mp hnew]
      exact ⟨rfl, request', memory_put _, hidle, htype⟩

theorem Waits.look (h : client.Waits busy) (hbusy : busy = none ∨ busy = some id) (forNat : Bool)
    (hdetecting : request'.Detecting) :
    ((client.launch id forNat).put id request').Waits none where
  waiting := fun other found hfound _ => by
    have hlooking : ((client.launch id forNat).put id request').looking other =
        (client.looking other || decide (id = other)) := looking_launch forNat other
    rcases memory_put_cases hfound with ⟨rfl, rfl⟩ | ⟨hne, hfound⟩
    · refine .inr (hlooking.trans ?_)
      simp
    · refine (h.waiting other found hfound (ne_busy hbusy hne)).imp_right fun hlook =>
        hlooking.trans ?_
      rw [hlook]
      rfl
  detecting := fun other found hfound => by
    rcases memory_put_cases hfound with ⟨rfl, rfl⟩ | ⟨-, hfound⟩
    · exact hdetecting
    · exact h.detecting other found hfound

-- ==== a request released

@[simp] theorem memory_release (cancelled : Bool) (message : Option String) :
    (client.release id request cancelled message).memory id = none := Function.update_self ..

theorem memory_release_ne (h : other ≠ id) (cancelled : Bool)
    (message : Option String) :
    (client.release id request cancelled message).memory other = client.memory other :=
  Function.update_of_ne h ..

theorem memory_release_cases {cancelled : Bool}
    {message : Option String}
    (h : (client.release id request cancelled message).memory other = some found) :
    other ≠ id ∧ client.memory other = some found := by
  by_cases heq : other = id
  · rw [heq, memory_release] at h
    cases h
  · rw [memory_release_ne heq] at h
    exact ⟨heq, h⟩

theorem callsOf_release (other : Nat) (cancelled : Bool) (message : Option String) :
    (client.release id request cancelled message).callsOf other =
      client.callsOf other + if id = other then 1 else 0 := by
  simp [release, callsOf, List.countP_append, List.countP_singleton]

theorem Ledger.release (h : client.Ledger accepted) (hmem : client.memory id = some request)
    (request' : AsyncRequest) (cancelled : Bool) (message : Option String) :
    (client.release id request' cancelled message).Ledger accepted where
  bounded := h.bounded
  live := fun other hlive => by
    obtain ⟨found, hfound⟩ := Option.isSome_iff_exists.mp hlive
    exact h.live other (Option.isSome_of_eq_some (memory_release_cases hfound).2)
  owed := fun other hacc => by
    rw [callsOf_release, h.owed other hacc]
    by_cases heq : other = id
    · rw [heq, memory_release, hmem]
      simp
    · rw [memory_release_ne heq, if_neg (Ne.symm heq)]
      rfl
  uncalled := fun other hacc => by
    have hne : id ≠ other := fun heq =>
      hacc (h.live other (Option.isSome_of_eq_some (heq ▸ hmem)))
    rw [callsOf_release, h.uncalled other hacc, if_neg hne]

theorem Tables.release (h : client.Tables) (hmem : client.memory id = some request)
    (hkept : request.Kept request') (cancelled : Bool) (message : Option String) :
    (client.release id request' cancelled message).Tables where
  requests := fun other => by
    have herase : other ∈ (client.release id request' cancelled message).requests ↔
        other ≠ id ∧ other ∈ client.requests := h.nodup.mem_erase_iff
    rw [herase, h.requests]
    by_cases heq : other = id
    · rw [heq, memory_release]
      simp
    · rw [memory_release_ne heq]
      exact and_iff_right heq
  nodup := h.nodup.erase id
  fds := fun entry hentry => by
    obtain ⟨hold, hfd⟩ := List.mem_filter.mp hentry
    obtain ⟨found, hfound, htype, hfd'⟩ := h.fds entry hold
    have hne : entry.2 ≠ id := fun heq => by
      rw [heq, hmem, Option.some.injEq] at hfound
      subst hfound
      exact of_decide_eq_true hfd (hfd'.symm.trans (hkept.fd htype).symm)
    exact ⟨found, (memory_release_ne hne ..).trans hfound, htype, hfd'⟩

theorem release_lookups (h : client.Lookups) (hmem : client.memory id = some request)
    (hdns : request'.dnsRequest = none ∨ request'.dnsRequest = request.dnsRequest)
    (hnot : client.looking id = false) (cancelled : Bool) (message : Option String) :
    (client.release id request' cancelled message).lookups = client.lookups := by
  refine (List.map_congr_left fun lookup hlookup => ?_).trans (List.map_id _)
  refine if_neg fun hhandle => ?_
  rcases hdns with hnone | hsame
  · exact absurd (hnone.symm.trans hhandle) nofun
  · exact looking_eq_false.mp hnot lookup hlookup
      (h.own id request hmem lookup hlookup (hsame.symm.trans hhandle))

theorem Lookups.release (h : client.Lookups) (hmem : client.memory id = some request)
    (hdns : request'.dnsRequest = none ∨ request'.dnsRequest = request.dnsRequest)
    (hnot : client.looking id = false) (cancelled : Bool) (message : Option String) :
    (client.release id request' cancelled message).Lookups := by
  have hlookups := release_lookups h hmem hdns hnot cancelled message
  refine ⟨?_, ?_, ?_, ?_, ?_⟩
  · rw [hlookups]
    exact h.single
  · rw [hlookups]
    exact h.handles
  · exact fun other found handle hfound hhandle =>
      h.issued other found handle (memory_release_cases hfound).2 hhandle
  · rw [hlookups]
    exact fun other found hfound => h.own other found (memory_release_cases hfound).2
  · rw [hlookups]
    intro lookup hlookup
    obtain ⟨hcancelled, found, hfound, hrest⟩ := h.looking lookup hlookup
    have hne : lookup.request ≠ id := looking_eq_false.mp hnot lookup hlookup
    exact ⟨hcancelled, found, (memory_release_ne hne ..).trans hfound, hrest⟩

theorem Waits.release (h : client.Waits busy) (hbusy : busy = none ∨ busy = some id)
    {cancelled : Bool} {message : Option String}
    (hlookups : (client.release id request' cancelled message).lookups = client.lookups) :
    (client.release id request' cancelled message).Waits none where
  waiting := fun other found hfound _ => by
    obtain ⟨hne, hfound⟩ := memory_release_cases hfound
    unfold looking
    rw [hlookups]
    exact h.waiting other found hfound (ne_busy hbusy hne)
  detecting := fun other found hfound => h.detecting other found (memory_release_cases hfound).2

-- ==== callbacks

/-- A callback keeps what holds of the client, and leaves no request half
done. -/
theorem Sound.handled (h : client.Sound accepted busy) (hbusy : busy = none ∨ busy = some id)
    (hmem : client.memory id = some request) (hnot : client.looking id = false)
    {client' : AsyncClient} (hhandled : client.Handled id request bound client') :
    client'.Sound accepted none := by
  rcases hhandled with ⟨request', cancelled, message, hkept, hdns, rfl⟩ | ⟨request', hkept, hheld⟩
  · exact ⟨h.ledger.release hmem request' cancelled message,
      h.tables.release hmem hkept cancelled message,
      h.lookups.release hmem hdns hnot cancelled message,
      h.waits.release hbusy (release_lookups h.lookups hmem hdns hnot cancelled message)⟩
  · cases hheld with
    | waiting armed detecting dns left =>
      exact ⟨h.ledger.put hmem request', h.tables.put hmem hkept, h.lookups.put hmem dns hnot,
        h.waits.put hbusy armed detecting⟩
    | looking forNat idle type detecting dns left =>
      have hledger := h.ledger.put hmem request'
      have htables := h.tables.put hmem hkept
      exact ⟨⟨hledger.bounded, hledger.live, hledger.owed, hledger.uncalled⟩,
        ⟨htables.requests, htables.nodup, htables.fds⟩,
        h.lookups.look hmem hnot idle type dns, h.waits.look hbusy forNat detecting⟩

-- ==== a lookup

/-- A lookup is taken from libevent's, to be answered. -/
def answering (client : AsyncClient) (i : Nat) : AsyncClient :=
  { client with lookups := client.lookups.eraseIdx i }

theorem looking_answering (h : client.Lookups) {i : Nat}
    (hi : client.lookups[i]? = some lookup) :
    (client.answering i).looking lookup.request = false := by
  refine looking_eq_false.mpr fun other hother hsame => ?_
  obtain ⟨j, hne, hj⟩ := List.mem_eraseIdx_iff_getElem?.mp hother
  have hlt : j < (client.lookups.map DnsLookup.request).length := by
    rw [List.length_map]
    exact (List.getElem?_eq_some_iff.mp hj).1
  apply hne
  apply (List.getElem?_inj hlt h.single).mp
  rw [List.getElem?_map, List.getElem?_map, hi, hj, Option.map_some, Option.map_some, hsame]

theorem looking_answering_ne {i : Nat}
    (hi : client.lookups[i]? = some lookup) (hne : other ≠ lookup.request) :
    (client.answering i).looking other = client.looking other := by
  apply Bool.eq_iff_iff.mpr
  rw [looking_eq_true, looking_eq_true]
  constructor
  · rintro ⟨found, hfound, hrequest⟩
    exact ⟨found, List.mem_of_mem_eraseIdx hfound, hrequest⟩
  · rintro ⟨found, hfound, hrequest⟩
    obtain ⟨j, hj⟩ := List.mem_iff_getElem?.mp hfound
    refine ⟨found, List.mem_eraseIdx_iff_getElem?.mpr ⟨j, fun heq => hne ?_, hj⟩, hrequest⟩
    rw [heq, hi] at hj
    rw [← hrequest, Option.some.inj hj]

theorem Sound.answering (h : client.Sound accepted none) {i : Nat}
    (hi : client.lookups[i]? = some lookup) :
    (client.answering i).Sound accepted (some lookup.request) where
  ledger := ⟨h.ledger.bounded, h.ledger.live, h.ledger.owed, h.ledger.uncalled⟩
  tables := ⟨h.tables.requests, h.tables.nodup, h.tables.fds⟩
  lookups :=
    { single := ((List.eraseIdx_sublist ..).map _).nodup h.lookups.single
      handles := fun other hother => h.lookups.handles other (List.mem_of_mem_eraseIdx hother)
      issued := h.lookups.issued
      own := fun id request hmem other hother =>
        h.lookups.own id request hmem other (List.mem_of_mem_eraseIdx hother)
      looking := fun other hother => h.lookups.looking other (List.mem_of_mem_eraseIdx hother) }
  waits :=
    { waiting := fun id request hmem hbusy => by
        rw [looking_answering_ne hi (fun heq => hbusy (congrArg some heq.symm))]
        exact h.waits.waiting id request hmem nofun
      detecting := h.waits.detecting }

-- ==== a new request

theorem Ledger.fresh (h : client.Ledger accepted) :
    ¬ accepted client.nextRequestId ∧ client.memory client.nextRequestId = none := by
  have hfresh : ¬ accepted client.nextRequestId :=
    fun hacc => Nat.lt_irrefl _ (h.bounded _ hacc)
  refine ⟨hfresh, Option.not_isSome_iff_eq_none.mp fun hlive => hfresh (h.live _ hlive)⟩

/-- The user's ledger, once it has the request. -/
def entered (accepted : Nat → Prop) (client : AsyncClient) (id : Nat) : Prop :=
  accepted id ∨ id = client.nextRequestId

theorem memory_opened_cases
    (h : (client.opened request).memory other = some found) :
    (other = client.nextRequestId ∧ found = request) ∨
      (other ≠ client.nextRequestId ∧ client.memory other = some found) := by
  have hput : (client.put client.nextRequestId request).memory other = some found := h
  exact memory_put_cases hput

theorem memory_opened_ne (h : other ≠ client.nextRequestId)
    (request : AsyncRequest) : (client.opened request).memory other = client.memory other :=
  Function.update_of_ne h ..

theorem isSome_opened (other : Nat) : ((client.opened request).memory other).isSome ↔
    (client.memory other).isSome ∨ other = client.nextRequestId := by
  by_cases heq : other = client.nextRequestId
  · rw [heq, memory_opened]
    simp
  · rw [memory_opened_ne heq]
    simp [heq]

theorem Ledger.opened (h : client.Ledger accepted) (request : AsyncRequest) :
    (client.opened request).Ledger (entered accepted client) where
  bounded := fun other hacc => by
    rcases hacc with hacc | rfl
    · exact (h.bounded other hacc).trans (Nat.lt_succ_self _)
    · exact Nat.lt_succ_self _
  live := fun other hlive => ((isSome_opened other).mp hlive).imp_left (h.live other)
  owed := fun other hacc => by
    by_cases heq : other = client.nextRequestId
    · rw [heq, memory_opened]
      exact h.uncalled _ h.fresh.1
    · rw [memory_opened_ne heq]
      exact h.owed other (hacc.resolve_right heq)
  uncalled := fun other hacc => h.uncalled other fun hold => hacc (.inl hold)

theorem Tables.opened (h : client.Tables) (hfresh : client.memory client.nextRequestId = none)
    (request : AsyncRequest) : (client.opened request).Tables where
  requests := fun other => by
    rw [isSome_opened, ← h.requests]
    exact List.mem_append.trans (or_congr_right List.mem_singleton)
  nodup := by
    refine h.nodup.append (List.nodup_singleton _) fun other hold hnew => ?_
    rw [List.mem_singleton.mp hnew, h.requests, hfresh] at hold
    cases hold
  fds := fun entry hentry => by
    rcases List.mem_append.mp hentry with hold | hnew
    · obtain ⟨found, hfound, hrest⟩ := h.fds entry hold
      have hne : entry.2 ≠ client.nextRequestId := fun heq => by
        rw [heq, hfresh] at hfound
        cases hfound
      exact ⟨found, (memory_opened_ne hne request).trans hfound, hrest⟩
    · by_cases htype : request.type = .connectControl
      · rw [if_pos htype] at hnew
        cases hnew
      · rw [if_neg htype] at hnew
        rw [List.mem_singleton.mp hnew]
        exact ⟨request, memory_opened request, htype, rfl⟩

theorem Lookups.opened (h : client.Lookups) (hfresh : client.memory client.nextRequestId = none)
    (hdns : request.dnsRequest = none) : (client.opened request).Lookups where
  single := h.single
  handles := h.handles
  issued := fun other found handle hfound hhandle => by
    rcases memory_opened_cases hfound with ⟨rfl, rfl⟩ | ⟨-, hfound⟩
    · exact absurd (hdns.symm.trans hhandle) nofun
    · exact h.issued other found handle hfound hhandle
  own := fun other found hfound lookup hlookup hhandle => by
    rcases memory_opened_cases hfound with ⟨rfl, rfl⟩ | ⟨-, hfound⟩
    · exact absurd (hdns.symm.trans hhandle) nofun
    · exact h.own other found hfound lookup hlookup hhandle
  looking := fun lookup hlookup => by
    obtain ⟨hcancelled, found, hfound, hrest⟩ := h.looking lookup hlookup
    have hne : lookup.request ≠ client.nextRequestId := fun heq => by
      rw [heq, hfresh] at hfound
      cases hfound
    exact ⟨hcancelled, found, (memory_opened_ne hne request).trans hfound, hrest⟩

theorem Waits.opened (h : client.Waits none) (hdetecting : request.Detecting) :
    (client.opened request).Waits (some client.nextRequestId) where
  waiting := fun other found hfound hbusy => by
    rcases memory_opened_cases hfound with ⟨rfl, -⟩ | ⟨-, hfound⟩
    · exact absurd rfl hbusy
    · exact h.waiting other found hfound nofun
  detecting := fun other found hfound => by
    rcases memory_opened_cases hfound with ⟨rfl, rfl⟩ | ⟨-, hfound⟩
    · exact hdetecting
    · exact h.detecting other found hfound

theorem looking_fresh (h : client.Lookups) (hfresh : client.memory id = none) :
    client.looking id = false := by
  refine looking_eq_false.mpr fun lookup hlookup hrequest => ?_
  obtain ⟨-, found, hfound, -⟩ := h.looking lookup hlookup
  rw [hrequest, hfresh] at hfound
  cases hfound

theorem Sound.opened (h : client.Sound accepted none) (hdns : request.dnsRequest = none)
    (hdetecting : request.Detecting) :
    (client.opened request).Sound (entered accepted client) (some client.nextRequestId) where
  ledger := h.ledger.opened request
  tables := h.tables.opened h.ledger.fresh.2 request
  lookups := h.lookups.opened h.ledger.fresh.2 hdns
  waits := h.waits.opened hdetecting

theorem Sound.recorded (h : client.Sound accepted busy) {next : Nat}
    (hnext : client.nextRequestId ≤ next) (returned : List (Nat × Bool)) (destroyed : Bool) :
    Sound accepted busy { client with nextRequestId := next, returned, destroyed } where
  ledger := ⟨fun id hacc => (h.ledger.bounded id hacc).trans_le hnext, h.ledger.live,
    h.ledger.owed, h.ledger.uncalled⟩
  tables := ⟨h.tables.requests, h.tables.nodup, h.tables.fds⟩
  lookups := ⟨h.lookups.single, h.lookups.handles, h.lookups.issued, h.lookups.own,
    h.lookups.looking⟩
  waits := ⟨h.waits.waiting, h.waits.detecting⟩

end AsyncClient

end Eular.Ntrs
