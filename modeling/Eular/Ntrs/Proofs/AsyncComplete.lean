/-
Every request the asynchronous client has accepted is completed once, as long
as nothing ends one inside of the call that has made it or of a lookup
(`requests_complete`).

`Safe` is the condition on a step, in the state it is taken in. It names the
four ways out: the answer of a lookup that comes within the call and ends the
request; a request cancelled, or a client destroyed, while libevent has the
lookup; a submit function whose events cannot be set up, which calls back and
then returns false; and the timer of a punch that is not armed again.

The invariant is `Inv`. What a step does to the wait of a request is that of
the callback it is in, told by `left`; every other request is left alone
(`Apart`). So `left` falls whenever a timer fires or a lookup is answered, and
never rises.
-/
import Eular.Ntrs.Proofs.AsyncLedger

namespace Eular.Ntrs

open Lib

-- ==== the condition

/-- The second lookup that an answer has made, if that comes to an end at
once, does not end the detection. -/
def NatReply.goesOn (start : NatStart) : NatReply → Bool
  | .resolved _ next => next.Holds start false
  | _ => true

namespace AsyncClient

variable {client client' base : AsyncClient} {id : Nat} {request : AsyncRequest}
  {bound : Nat ×ₗ Nat} {accepted : Nat → Prop} {busy : Option Nat} {op : AsyncOp}

instance (request : AsyncRequest) : Decidable (Last request) :=
  inferInstanceAs (Decidable (¬ _))

/-- A step that ends no request while a call or a lookup still has it. -/
def Safe (client : AsyncClient) : AsyncOp → Prop
  | .submitMessage fd prepared _ created added =>
    (client.destroyed || !prepared || client.fdActive fd) = false →
      created = true ∧ added = true
  | .submitConnect prepared reply =>
    (client.destroyed || !prepared) = false → ConnectHolds reply = true
  | .submitNat fd prepared _ hasProbe2 _ reply start =>
    (client.destroyed || !prepared || client.fdActive fd) = false →
      reply.Holds start hasProbe2 = true
  | .submitPunch fd prepared _ candidates created ioAdded timerAdded =>
    (client.destroyed || !prepared || client.fdActive fd) = false → candidates = true →
      created = true ∧ ioAdded = true ∧ timerAdded = true
  | .answer i _ reply start =>
    ∀ lookup ∈ client.lookups[i]?, ∀ request ∈ client.memory lookup.request,
      lookup.forNat = true → ¬ Last request → reply.goesOn start = true
  | .timer id _ rearmed =>
    ∀ request ∈ client.memory id, request.timerArmed = true → Rearms request rearmed
  | .ready _ _ => True
  | .cancel id => client.destroyed = false → client.looking id = false
  | .destroy => client.destroyed = false → client.lookups = []

instance (client : AsyncClient) : ∀ op, Decidable (client.Safe op)
  | .submitMessage .. => inferInstanceAs (Decidable (_ → _))
  | .submitConnect .. => inferInstanceAs (Decidable (_ → _))
  | .submitNat .. => inferInstanceAs (Decidable (_ → _))
  | .submitPunch .. => inferInstanceAs (Decidable (_ → _ → _))
  | .answer i _ reply start => inferInstanceAs (Decidable (∀ lookup ∈ client.lookups[i]?,
      ∀ request ∈ client.memory lookup.request,
        lookup.forNat = true → ¬ Last request → reply.goesOn start = true))
  | .timer id _ rearmed => inferInstanceAs (Decidable (∀ request ∈ client.memory id,
      request.timerArmed = true → Rearms request rearmed))
  | .ready .. => inferInstanceAs (Decidable True)
  | .cancel .. => inferInstanceAs (Decidable (_ → _))
  | .destroy => inferInstanceAs (Decidable (_ → _))

-- ==== what holds

/-- The requests complete: of those accepted, each is in memory and waits, or
its callback has been called, once; no other's ever is; and nothing has gone
through the pointer of a request that was released. -/
structure Completes (client : AsyncClient) : Prop where
  untouched : client.faulted = false
  once : ∀ id, (id, true) ∈ client.returned →
    client.callsOf id = if (client.memory id).isSome then 0 else 1
  never : ∀ id, (id, true) ∉ client.returned → client.callsOf id = 0
  refused : ∀ id, (id, false) ∈ client.returned → (id, true) ∉ client.returned
  waiting : ∀ id request, client.memory id = some request →
    (id, true) ∈ client.returned ∧ (request.timerArmed = true ∨ client.looking id = true)
  requests : ∀ id ∈ client.requests, (client.memory id).isSome
  fds : ∀ entry ∈ client.activeFds, (client.memory entry.2).isSome

/-- What holds of the client between its calls. -/
structure Inv (client : AsyncClient) : Prop where
  healthy : client.faulted = false
  sound : client.Sound (fun id => (id, true) ∈ client.returned) none
  refused : ∀ id, (id, false) ∈ client.returned →
    id < client.nextRequestId ∧ (id, true) ∉ client.returned

theorem Inv.completes (h : client.Inv) : client.Completes where
  untouched := h.healthy
  once := h.sound.ledger.owed
  never := h.sound.ledger.uncalled
  refused := fun id hid => (h.refused id hid).2
  waiting := fun id request hmem =>
    ⟨h.sound.ledger.live id (Option.isSome_of_eq_some hmem),
      h.sound.waits.waiting id request hmem nofun⟩
  requests := fun id => (h.sound.tables.requests id).mp
  fds := fun entry hentry => by
    obtain ⟨request, hmem, -⟩ := h.sound.tables.fds entry hentry
    exact Option.isSome_of_eq_some hmem

-- ==== the waits

/-- How far the request is from its end. -/
def leftOf (client : AsyncClient) (id : Nat) : Nat ×ₗ Nat :=
  match client.memory id with
  | none => toLex (0, 0)
  | some request => request.left (client.looking id)

/-- The wait of the request comes to an end: its timer fires, or its lookup is
answered. -/
def Wakes (client : AsyncClient) (id : Nat) : AsyncOp → Prop
  | .timer other _ _ =>
    other = id ∧ ∃ request, client.memory id = some request ∧ request.timerArmed = true
  | .answer i _ reply _ => ∃ lookup, client.lookups[i]? = some lookup ∧ lookup.request = id ∧
      (lookup.forNat = true → reply ≠ .later)
  | _ => False

/-- The step has kept what holds and what was told, and brought no request
farther from its end than it was. -/
structure Advances (client : AsyncClient) (op : AsyncOp) (client' : AsyncClient) : Prop where
  inv : client'.Inv
  told : client.returned ⊆ client'.returned
  left : ∀ id, (client.memory id).isSome → client'.memory id = none ∨
    client'.leftOf id ≤ client.leftOf id ∧
      (client.Wakes id op → client'.leftOf id < client.leftOf id)

/-- The requests but one are as they were. -/
structure Apart (id : Nat) (client client' : AsyncClient) : Prop where
  memory : ∀ other, other ≠ id → client'.memory other = client.memory other
  looking : ∀ other, other ≠ id → client'.looking other = client.looking other

/-- Nothing is told to the user. -/
structure Quiet (client client' : AsyncClient) : Prop where
  faulted : client'.faulted = client.faulted
  returned : client'.returned = client.returned
  next : client'.nextRequestId = client.nextRequestId

theorem Apart.trans (h : Apart id client base) (h' : Apart id base client') :
    Apart id client client' where
  memory := fun other hne => (h'.memory other hne).trans (h.memory other hne)
  looking := fun other hne => (h'.looking other hne).trans (h.looking other hne)

theorem Quiet.trans (h : Quiet client base) (h' : Quiet base client') : Quiet client client' where
  faulted := h'.faulted.trans h.faulted
  returned := h'.returned.trans h.returned
  next := h'.next.trans h.next

theorem Apart.leftOf (h : Apart id client client') {other : Nat} (hne : other ≠ id) :
    client'.leftOf other = client.leftOf other := by
  unfold AsyncClient.leftOf
  rw [h.memory other hne, h.looking other hne]

theorem leftOf_eq (hmem : client.memory id = some request) :
    client.leftOf id = request.left (client.looking id) := by
  rw [leftOf, hmem]

theorem Sound.effect (h : client.Sound accepted busy) (hmem : client.memory id = some request)
    (hnot : client.looking id = false) (hhandled : client.Handled id request bound client') :
    Apart id client client' ∧ Quiet client client' ∧
      (client'.memory id = none ∨ client'.leftOf id < bound) := by
  rcases hhandled with ⟨request', cancelled, message, -, hdns, rfl⟩ | ⟨request', -, hheld⟩
  · have hlookups := release_lookups h.lookups hmem hdns hnot cancelled message
    refine ⟨⟨fun other hne => memory_release_ne hne .., fun other _ => ?_⟩, ⟨rfl, rfl, rfl⟩,
      .inl (memory_release ..)⟩
    unfold looking
    rw [hlookups]
  · cases hheld with
    | waiting armed detecting dns left =>
      refine ⟨⟨fun other hne => memory_put_ne hne _, fun other _ => rfl⟩, ⟨rfl, rfl, rfl⟩,
        .inr ?_⟩
      have hlooking : (client.put id request').looking id = false := hnot
      rw [leftOf_eq (memory_put _), hlooking]
      exact left
    | looking forNat idle type detecting dns left =>
      refine ⟨⟨fun other hne => memory_put_ne hne _, fun other hne => ?_⟩, ⟨rfl, rfl, rfl⟩,
        .inr ?_⟩
      · refine (looking_launch forNat other).trans ?_
        simp [Ne.symm hne]
      · have hlooking : ((client.launch id forNat).put id request').looking id = true :=
          (looking_launch forNat id).trans (by simp)
        rw [leftOf_eq (memory_put _), hlooking]
        exact left

theorem Inv.handled (h : client.Inv) (hapart : Apart id client base) (hquiet : Quiet client base)
    (hbase : base.Sound (fun id => (id, true) ∈ client.returned) busy)
    (hbusy : busy = none ∨ busy = some id) (hmem : base.memory id = some request)
    (hnot : base.looking id = false) (hhandled : base.Handled id request bound client')
    (hbound : ∀ left, left < bound → left ≤ client.leftOf id ∧
      (client.Wakes id op → left < client.leftOf id))
    (hwakes : ∀ other, client.Wakes other op → other = id) : client.Advances op client' := by
  obtain ⟨hapart', hquiet', hleft⟩ := hbase.effect hmem hnot hhandled
  have hout := hapart.trans hapart'
  have hsame := hquiet.trans hquiet'
  refine ⟨⟨hsame.faulted.trans h.healthy, ?_, ?_⟩, fun _ hentry => hsame.returned.symm ▸ hentry,
    fun other hlive => ?_⟩
  · rw [hsame.returned]
    exact hbase.handled hbusy hmem hnot hhandled
  · rw [hsame.returned, hsame.next]
    exact h.refused
  · by_cases heq : other = id
    · rw [heq]
      exact hleft.imp_right (hbound _)
    · rw [hout.leftOf heq]
      exact .inr ⟨le_refl _, fun hwake => absurd (hwakes other hwake) heq⟩

theorem Inv.idle (h : client.Inv) (hwakes : ∀ id, ¬ client.Wakes id op) :
    client.Advances op client :=
  ⟨h, .refl _, fun id _ => .inr ⟨le_refl _, fun hwake => absurd hwake (hwakes id)⟩⟩

-- ==== the steps

theorem Lookups.not_looking (h : client.Lookups) (hmem : client.memory id = some request)
    (hevent : request.timerArmed = true ∨ request.ioEvent = true) : client.looking id = false := by
  refine looking_eq_false.mpr fun lookup hlookup hrequest => ?_
  obtain ⟨-, found, hfound, hidle, -⟩ := h.looking lookup hlookup
  rw [hrequest, hmem, Option.some.injEq] at hfound
  subst hfound
  rcases hevent with harmed | hio
  · exact absurd (hidle.timer.symm.trans harmed) nofun
  · exact absurd (hidle.io.symm.trans hio) nofun

theorem Inv.armed (h : client.Inv) (hmem : client.memory id = some request)
    (hio : request.ioEvent = true) : request.timerArmed = true := by
  have hnot := h.sound.lookups.not_looking hmem (.inr hio)
  rcases h.sound.waits.waiting id request hmem nofun with harmed | hlooking
  · exact harmed
  · exact absurd (hnot.symm.trans hlooking) nofun

theorem Apart.refl (id : Nat) (client : AsyncClient) : Apart id client client :=
  ⟨fun _ _ => rfl, fun _ _ => rfl⟩

theorem Quiet.refl (client : AsyncClient) : Quiet client client := ⟨rfl, rfl, rfl⟩

theorem timer_advances (h : client.Inv) {sendto : Sendto} {rearmed : Bool}
    (hsafe : client.Safe (.timer id sendto rearmed)) :
    ∃ client', client.timer id sendto rearmed = some client' ∧
      client.Advances (.timer id sendto rearmed) client' := by
  cases hmem : client.memory id with
  | none =>
    refine ⟨client, by simp [timer, hmem], h.idle ?_⟩
    rintro _ ⟨rfl, request, hrequest, -⟩
    cases hmem.symm.trans hrequest
  | some request =>
    cases harmed : request.timerArmed with
    | false =>
      refine ⟨client, by simp [timer, hmem, harmed], h.idle ?_⟩
      rintro _ ⟨rfl, found, hfound, hfired⟩
      rw [hmem, Option.some.injEq] at hfound
      subst hfound
      cases harmed.symm.trans hfired
    | true =>
      have hnot := h.sound.lookups.not_looking hmem (.inl harmed)
      obtain ⟨client', heq, hhandled⟩ := handled_timer hmem harmed
        (h.sound.waits.detecting id request hmem) sendto (hsafe request hmem harmed)
      refine ⟨client', heq, h.handled (.refl id client) (.refl client) h.sound (.inl rfl) hmem
        hnot hhandled (fun left hlt => ?_) fun other hwake => hwake.1.symm⟩
      rw [leftOf_eq hmem, hnot]
      exact ⟨hlt.le, fun _ => hlt⟩

theorem lt_succ_left {request : AsyncRequest} {left : Nat ×ₗ Nat}
    (h : left < toLex (0, (ofLex (request.left false)).2 + 1)) : left ≤ request.left false := by
  have hzero : request.left false = toLex (0, (ofLex (request.left false)).2) := by
    unfold AsyncRequest.left
    cases request.type <;> rfl
  rw [hzero]
  obtain ⟨a, b⟩ := left
  rcases Prod.Lex.toLex_lt_toLex.mp h with hfirst | ⟨hfirst, hsecond⟩
  · exact absurd hfirst (Nat.not_lt_zero _)
  · exact Prod.Lex.toLex_le_toLex.mpr (.inr ⟨hfirst, Nat.le_of_lt_succ hsecond⟩)

theorem ready_advances (h : client.Inv) (io : AsyncIo) :
    ∃ client', client.ready id io = some client' ∧ client.Advances (.ready id io) client' := by
  have hidle : client.Advances (.ready id io) client := h.idle fun _ hwake => hwake
  cases hmem : client.memory id with
  | none => exact ⟨client, by simp [ready, hmem], hidle⟩
  | some request =>
    cases hio : request.ioEvent with
    | false => exact ⟨client, by simp [ready, hmem, hio], hidle⟩
    | true =>
      have hnot := h.sound.lookups.not_looking hmem (.inr hio)
      rcases handled_ready hmem (h.armed hmem hio) (h.sound.waits.detecting id request hmem) io
        with hsame | ⟨client', heq, hhandled⟩
      · exact ⟨client, hsame, hidle⟩
      · refine ⟨client', heq, h.handled (.refl id client) (.refl client) h.sound (.inl rfl) hmem
          hnot hhandled (fun left hlt => ?_) fun _ hwake => hwake.elim⟩
        rw [leftOf_eq hmem, hnot]
        exact ⟨lt_succ_left hlt, fun hwake => hwake.elim⟩

theorem answer_advances (h : client.Inv) {i : Nat} {tries : Option (List ConnectTry)}
    {reply : NatReply} {start : NatStart} (hsafe : client.Safe (.answer i tries reply start)) :
    ∃ client', client.answer i tries reply start = some client' ∧
      client.Advances (.answer i tries reply start) client' := by
  cases hi : client.lookups[i]? with
  | none =>
    refine ⟨client, by simp [answer, hi], h.idle ?_⟩
    rintro _ ⟨lookup, hlookup, -⟩
    exact absurd (hi.symm.trans hlookup) nofun
  | some lookup =>
    obtain ⟨hcancelled, request, hmem, hidle, htype⟩ :=
      h.sound.lookups.looking lookup (List.mem_of_getElem? hi)
    have hnot := looking_answering h.sound.lookups hi
    have hlooking : client.looking lookup.request = true :=
      looking_eq_true.mpr ⟨lookup, List.mem_of_getElem? hi, rfl⟩
    have hapart : Apart lookup.request client (client.answering i) :=
      ⟨fun _ _ => rfl, fun other hne => looking_answering_ne hi hne⟩
    have hwakes : ∀ other, client.Wakes other (.answer i tries reply start) →
        other = lookup.request := by
      rintro other ⟨found, hfound, rfl, -⟩
      rw [hi, Option.some.injEq] at hfound
      rw [hfound]
    have hmem' : (client.answering i).memory lookup.request = some request := hmem
    have hadvances : ∀ {client' : AsyncClient},
        (client.answering i).Handled lookup.request request (request.left true) client' →
          client.Advances (.answer i tries reply start) client' := by
      intro client' hhandled
      refine h.handled hapart ⟨rfl, rfl, rfl⟩ (h.sound.answering hi) (.inr rfl) hmem' hnot
        hhandled (fun left hlt => ?_) hwakes
      rw [leftOf_eq hmem, hlooking]
      exact ⟨hlt.le, fun _ => hlt⟩
    cases hnat : lookup.forNat with
    | false =>
      rw [hnat] at htype
      obtain ⟨client', heq, hhandled⟩ := handled_asyncConnectDnsCb hmem' htype tries
      refine ⟨client', ?_, hadvances (hhandled.mono ?_)⟩
      · simp only [answer, hi, hnat, hcancelled]
        exact heq
      · simp only [AsyncRequest.left, htype]
        exact le_refl _
    | true =>
      rw [hnat] at htype
      by_cases hlater : reply = .later
      · refine ⟨client, by simp [answer, hi, hnat, hcancelled, hlater], h.idle ?_⟩
        rintro _ ⟨found, hfound, -, hreply⟩
        rw [hi, Option.some.injEq] at hfound
        exact hreply (hfound ▸ hnat) hlater
      · have hdetecting := (h.sound.waits.detecting _ request hmem htype).1
        obtain ⟨client', heq, hhandled⟩ := handled_asyncNatDnsCb hmem' htype hidle hdetecting
          start hlater fun hlast addr next hreply => by
            have hgoes := hsafe lookup hi request hmem hnat hlast
            rw [hreply] at hgoes
            exact hgoes
        refine ⟨client', ?_, hadvances hhandled⟩
        simp only [answer, hi, hnat, hcancelled, if_true, if_neg hlater]
        exact heq

theorem Inv.ended (h : client.Inv) (hmem : client.memory id = some request)
    (hnot : client.looking id = false) (cancelled : Bool) (message : Option String) :
    client.Advances (.cancel id) (client.release id request cancelled message) := by
  have hreleased : client.Handled id request (client.leftOf id)
      (client.release id request cancelled message) :=
    released (.refl request) (.inr rfl) cancelled message
  exact h.handled (.refl id client) (.refl client) h.sound (.inl rfl) hmem hnot hreleased
    (fun left hlt => ⟨hlt.le, fun _ => hlt⟩) fun _ hwake => hwake.elim

theorem cancel_advances (h : client.Inv) (hnot : client.looking id = false) :
    ∃ client', client.cancel id = some client' ∧ client.Advances (.cancel id) client' := by
  unfold cancel
  split
  case isTrue hid =>
    obtain ⟨request, hmem⟩ := Option.isSome_iff_exists.mp ((h.sound.tables.requests id).mp hid)
    exact ⟨_, finish_eq hmem _ _, h.ended hmem hnot _ _⟩
  case isFalse => exact ⟨client, rfl, h.idle fun _ hwake => hwake⟩

/-- The requests are released one after the other, as long as none has a
lookup. -/
theorem destroy_releases (l : List Nat) (h : client.Inv) (hl : client.requests = l)
    (hnone : client.lookups = []) :
    ∃ client', l.foldlM (fun client id =>
        client.asyncRequestFinish id true (some "client destroyed")) client = some client' ∧
      client'.Inv ∧ client'.requests = [] ∧ client'.returned = client.returned := by
  induction l generalizing client with
  | nil => exact ⟨client, rfl, h, hl, rfl⟩
  | cons id rest ih =>
    have hnot : client.looking id = false := by
      rw [looking, hnone]
      rfl
    have hid : id ∈ client.requests := hl ▸ List.mem_cons_self
    obtain ⟨request, hmem⟩ := Option.isSome_iff_exists.mp ((h.sound.tables.requests id).mp hid)
    have hstep := h.ended hmem hnot true (some "client destroyed")
    have hrest : (client.release id request true (some "client destroyed")).requests = rest := by
      change client.requests.erase id = rest
      rw [hl, List.erase_cons_head]
    have hlookups : (client.release id request true (some "client destroyed")).lookups = [] :=
      (release_lookups h.sound.lookups hmem (.inr rfl) hnot _ _).trans hnone
    obtain ⟨client', heq, hinv, hempty, hreturned⟩ := ih hstep.inv hrest hlookups
    refine ⟨client', ?_, hinv, hempty, hreturned⟩
    rw [List.foldlM_cons, finish_eq hmem]
    exact heq

theorem destroy_advances (h : client.Inv) (hnone : client.lookups = []) :
    ∃ client', client.destroy = some client' ∧ client.Advances .destroy client' := by
  obtain ⟨client', heq, hinv, hempty, hreturned⟩ := destroy_releases client.requests h rfl hnone
  refine ⟨{ client' with destroyed := true }, ?_, ⟨⟨hinv.healthy, ?_, hinv.refused⟩, ?_, ?_⟩⟩
  · rw [destroy, heq]
    rfl
  · exact hinv.sound.recorded (le_refl _) client'.returned true
  · exact fun _ hentry => hreturned.symm ▸ hentry
  · refine fun id _ => .inl (Option.not_isSome_iff_eq_none.mp fun hlive => ?_)
    have hid := (hinv.sound.tables.requests id).mpr hlive
    rw [hempty] at hid
    exact absurd hid List.not_mem_nil

/-- A submit function that has made a request returns true, and the request
waits. -/
theorem Inv.begun (h : client.Inv) {submitted : Option (Bool × AsyncClient)}
    (hbegun : client.Begun submitted) (hwakes : ∀ id, ¬ client.Wakes id op) :
    ∃ client', client.noted submitted = some client' ∧ client.Advances op client' := by
  obtain ⟨request, request', bound, client', heq, hdns, hdetecting, hkept, hheld⟩ := hbegun
  have hopened := h.sound.opened hdns hdetecting
  have hnot : (client.opened request).looking client.nextRequestId = false := by
    have hfresh := looking_fresh h.sound.lookups h.sound.ledger.fresh.2
    exact hfresh
  have hhandled : (client.opened request).Handled client.nextRequestId request bound client' :=
    .inr ⟨request', hkept, hheld⟩
  have hsound := hopened.handled (.inr rfl) (memory_opened request) hnot hhandled
  obtain ⟨hapart, hquiet, -⟩ := hopened.effect (memory_opened request) hnot hhandled
  have hreturned : client'.returned = client.returned := hquiet.returned
  have hnext : client'.nextRequestId = client.nextRequestId + 1 := hquiet.next
  refine ⟨{ client' with returned := client'.returned ++ [(client.nextRequestId, true)] }, ?_,
    ⟨⟨hquiet.faulted.trans h.healthy, ?_, fun id hid => ?_⟩, ?_, fun id hlive => ?_⟩⟩
  · rw [heq]
    rfl
  · have hentered : (fun id => (id, true) ∈ client'.returned ++ [(client.nextRequestId, true)]) =
        entered (fun id => (id, true) ∈ client.returned) client := by
      funext id
      simp [entered, hreturned]
    have hrecorded := hsound.recorded (le_refl _)
      (client'.returned ++ [(client.nextRequestId, true)]) client'.destroyed
    exact hentered ▸ hrecorded
  · rw [hreturned] at hid ⊢
    have hold : (id, false) ∈ client.returned :=
      (List.mem_append.mp hid).resolve_right (by simp)
    obtain ⟨hlt, hnever⟩ := h.refused id hold
    refine ⟨hnext ▸ hlt.trans (Nat.lt_succ_self _), fun hnew => ?_⟩
    rcases List.mem_append.mp hnew with hnew | hnew
    · exact hnever hnew
    · rw [List.mem_singleton, Prod.mk.injEq] at hnew
      exact absurd hlt (hnew.1 ▸ Nat.lt_irrefl _)
  · rw [hreturned]
    exact List.subset_append_left _ _
  · have hne : id ≠ client.nextRequestId := fun heq => by
      rw [heq, h.sound.ledger.fresh.2] at hlive
      cases hlive
    have hsame : Apart client.nextRequestId client (client.opened request) :=
      ⟨fun other hother => memory_opened_ne hother request, fun _ _ => rfl⟩
    have hleft : client'.leftOf id = client.leftOf id := (hsame.trans hapart).leftOf hne
    exact .inr ⟨hleft.le, fun hwake => absurd hwake (hwakes id)⟩

theorem punch_refused (h : client.Inv) (fd sendRounds : Int) (created ioAdded timerAdded : Bool)
    (hwakes : ∀ id, ¬ client.Wakes id op) :
    ∃ client', client.noted (client.submitAsyncPunchRequest fd sendRounds false created ioAdded
        timerAdded) = some client' ∧ client.Advances op client' := by
  have hmemory : Function.update (Function.update client.memory client.nextRequestId
      (some { type := .udpHolePunch, fd,
              punchMaxRounds := if sendRounds ≤ 0 then 8 else sendRounds }))
        client.nextRequestId none = client.memory := by
    rw [Function.update_idem, ← h.sound.ledger.fresh.2, Function.update_eq_self]
  refine ⟨{ client with
    nextRequestId := client.nextRequestId + 1
    returned := client.returned ++ [(client.nextRequestId, false)] }, ?_,
    ⟨⟨h.healthy, ?_, fun id hid => ?_⟩, List.subset_append_left _ _,
      fun id _ => .inr ⟨le_refl _, fun hwake =>
      absurd hwake (hwakes id)⟩⟩⟩
  · simp only [submitAsyncPunchRequest, allocate, Bool.not_false, if_true, hmemory]
    rfl
  · have hsame : (fun id => (id, true) ∈ client.returned ++ [(client.nextRequestId, false)]) =
        fun id => (id, true) ∈ client.returned := by
      funext id
      simp
    have hrecorded := h.sound.recorded (Nat.le_succ _)
      (client.returned ++ [(client.nextRequestId, false)]) client.destroyed
    exact hsame ▸ hrecorded
  · have hnever : (id, true) ∉ client.returned ++ [(client.nextRequestId, false)] ↔
        (id, true) ∉ client.returned := by simp
    rw [hnever]
    rcases List.mem_append.mp hid with hold | hnew
    · exact ⟨(h.refused id hold).1.trans (Nat.lt_succ_self _), (h.refused id hold).2⟩
    · rw [List.mem_singleton, Prod.mk.injEq] at hnew
      rw [hnew.1]
      exact ⟨Nat.lt_succ_self _, h.sound.ledger.fresh.1⟩

/-- A safe step goes through no released request, and advances those there
are. -/
theorem exec_advances (h : client.Inv) (hsafe : client.Safe op) :
    ∃ client', client.exec op = some client' ∧ client.Advances op client' := by
  have hrefused : ∀ {goes : Bool} {submitted : Option AsyncClient},
      (∀ id, ¬ client.Wakes id op) →
      (goes = false → ∃ client', submitted = some client' ∧ client.Advances op client') →
        ∃ client', (if goes then some client else submitted) = some client' ∧
          client.Advances op client' := by
    intro goes submitted hwakes hsubmitted
    cases goes with
    | true => exact ⟨client, rfl, h.idle hwakes⟩
    | false => exact hsubmitted rfl
  cases op with
  | submitMessage fd prepared expectResponse created added =>
    apply hrefused (fun _ hwake => hwake)
    intro hgoes
    obtain ⟨rfl, rfl⟩ := hsafe hgoes
    exact h.begun (begun_submitAsyncMessageRequest client fd expectResponse) fun _ hwake => hwake
  | submitConnect prepared reply =>
    apply hrefused (fun _ hwake => hwake)
    intro hgoes
    exact h.begun (begun_submitAsyncConnectRequest client (hsafe hgoes)) fun _ hwake => hwake
  | submitNat fd prepared options hasProbe2 socket reply start =>
    apply hrefused (fun _ hwake => hwake)
    intro hgoes
    exact h.begun (begun_submitAsyncNatRequest client fd options hasProbe2 socket (hsafe hgoes))
      fun _ hwake => hwake
  | submitPunch fd prepared sendRounds candidates created ioAdded timerAdded =>
    apply hrefused (fun _ hwake => hwake)
    intro hgoes
    cases candidates with
    | false => exact punch_refused h fd sendRounds created ioAdded timerAdded fun _ hwake => hwake
    | true =>
      obtain ⟨rfl, rfl, rfl⟩ := hsafe hgoes rfl
      exact h.begun (begun_submitAsyncPunchRequest client fd sendRounds) fun _ hwake => hwake
  | answer i tries reply start => exact answer_advances h hsafe
  | timer id sendto rearmed => exact timer_advances h hsafe
  | ready id io => exact ready_advances h io
  | cancel id =>
    apply hrefused (fun _ hwake => hwake)
    exact fun hgoes => cancel_advances h (hsafe hgoes)
  | destroy =>
    apply hrefused (fun _ hwake => hwake)
    exact fun hgoes => destroy_advances h (hsafe hgoes)

theorem step_advances (h : client.Inv) (hsafe : client.Safe op) :
    client.Advances op (step client op) := by
  obtain ⟨client', heq, hadvances⟩ := exec_advances h hsafe
  rw [step, h.healthy, heq]
  exact hadvances

theorem Inv.init : ({} : AsyncClient).Inv where
  healthy := rfl
  sound :=
    { ledger := ⟨fun _ h => absurd h List.not_mem_nil, fun _ h => absurd h Bool.false_ne_true,
        fun _ h => absurd h List.not_mem_nil, fun _ _ => rfl⟩
      tables := ⟨fun _ => iff_of_false List.not_mem_nil Bool.false_ne_true, List.nodup_nil,
        fun _ h => absurd h List.not_mem_nil⟩
      lookups := ⟨List.nodup_nil, fun _ h => absurd h List.not_mem_nil,
        fun _ _ _ h => absurd h (Option.some_ne_none _).symm,
        fun _ _ h => absurd h (Option.some_ne_none _).symm,
        fun _ h => absurd h List.not_mem_nil⟩
      waits := ⟨fun _ _ h => absurd h (Option.some_ne_none _).symm,
        fun _ _ h => absurd h (Option.some_ne_none _).symm⟩ }
  refused := fun _ h => absurd h List.not_mem_nil

theorem inv_run {ops : List AsyncOp} (h : Meets step Safe {} ops) : (run step {} ops).Inv :=
  run_inv (P := Inv) (fun _ _ hinv hsafe => (step_advances hinv hsafe).inv) Inv.init h

-- ==== completion

/-- libevent keeps at it: a request that is there is done with at some time, or
its timer fires or its lookup is answered. -/
def Fair (client : AsyncClient) (next : Nat → AsyncOp) : Prop :=
  ∀ n id, ∃ m, n ≤ m ∧ ((after step client next m).memory id = none ∨
    (after step client next m).Wakes id (next m))

/-- A request the user was told of. -/
structure Accepted (id : Nat) (client : AsyncClient) : Prop where
  inv : client.Inv
  told : (id, true) ∈ client.returned

theorem Accepted.step (h : Accepted id client) (hsafe : client.Safe op) :
    Accepted id (step client op) :=
  ⟨(step_advances h.inv hsafe).inv, (step_advances h.inv hsafe).told h.told⟩

theorem Accepted.called (h : Accepted id client) (hnone : client.memory id = none) :
    client.callsOf id = 1 := by
  rw [h.inv.sound.ledger.owed id h.told, hnone]
  rfl

/-- A step calls the request's callback, or it leaves the request no farther
from its end, and nearer if it wakes it. -/
theorem Accepted.nearer (h : Accepted id client) (hlive : (client.memory id).isSome)
    (hsafe : client.Safe op) :
    (AsyncClient.step client op).callsOf id = 1 ∨
      (Accepted id (AsyncClient.step client op) ∧
          ((AsyncClient.step client op).memory id).isSome) ∧
        (AsyncClient.step client op).leftOf id ≤ client.leftOf id ∧
          (client.Wakes id op → (AsyncClient.step client op).leftOf id < client.leftOf id) := by
  have hnext := h.step hsafe
  by_cases hnone : (AsyncClient.step client op).memory id = none
  · exact .inl (hnext.called hnone)
  · refine .inr ⟨⟨hnext, Option.isSome_iff_ne_none.mpr hnone⟩, ?_⟩
    exact ((step_advances h.inv hsafe).left id hlive).resolve_left hnone

theorem Accepted.called_of_fair (h : Accepted id client) {next : Nat → AsyncOp}
    (hsafe : MeetsAll AsyncClient.step Safe client next) (hfair : Fair client next) :
    ∃ n, (after AsyncClient.step client next n).callsOf id = 1 := by
  by_cases hnone : client.memory id = none
  · exact ⟨0, h.called hnone⟩
  · have hwoken : ∀ n, ∃ m, n ≤ m ∧ ((after AsyncClient.step client next m).callsOf id = 1 ∨
        (after AsyncClient.step client next m).Wakes id (next m)) := by
      intro n
      obtain ⟨m, hle, hm⟩ := hfair n id
      have hthen : Accepted id (after AsyncClient.step client next m) :=
        after_inv (fun _ _ hacc hok => hacc.step hok) h hsafe m
      exact ⟨m, hle, hm.imp_left hthen.called⟩
    apply eventually_of_rank (P := fun client => Accepted id client ∧ (client.memory id).isSome)
      (Q := fun client => client.callsOf id = 1) (fun client op => client.Wakes id op)
      (fun client => client.leftOf id) (fun _ _ hwaiting hok => hwaiting.1.nearer hwaiting.2 hok)
      hsafe
    · exact ⟨h, Option.isSome_iff_ne_none.mpr hnone⟩
    · exact hwoken

/-- The requests complete in every run of safe steps, and where libevent keeps
at it every accepted request comes to its callback. -/
theorem requests_complete (ops : List AsyncOp) (h : Meets step Safe {} ops) :
    (run step {} ops).Completes ∧
      ∀ next, MeetsAll step Safe (run step {} ops) next → Fair (run step {} ops) next →
        ∀ id, (id, true) ∈ (run step {} ops).returned →
          ∃ n, (after step (run step {} ops) next n).callsOf id = 1 :=
  ⟨(inv_run h).completes, fun _ hsafe hfair _ hid =>
    Accepted.called_of_fair ⟨inv_run h, hid⟩ hsafe hfair⟩

/-- A request with a lookup is cancelled, and the lookup answered. -/
def cancelledLookup : List AsyncOp :=
  [.submitConnect true .later, .cancel 1, .answer 0 none .later ⟨true, true, .sent⟩]

theorem cancelledLookup_touches_released : ¬ (run step {} cancelledLookup).Completes :=
  fun h => absurd h.untouched (by decide +kernel)

/-- A connect whose first address is refused. -/
def connecting : List AsyncOp :=
  [.submitConnect true .later,
    .answer 0 (some [.refused, .started 5 true]) .later ⟨true, true, .sent⟩]

def timeouts : Nat → AsyncOp := fun _ => .timer 1 .sent true

theorem step_timer_of_released (h : client.memory id = none) (sendto : Sendto) (rearmed : Bool) :
    step client (.timer id sendto rearmed) = client := by
  unfold step
  split
  · rfl
  · simp [exec, timer, h]

theorem after_timeouts (n : Nat) :
    after step (run step {} connecting) timeouts (n + 1) =
      step (run step {} connecting) (.timer 1 .sent true) := by
  induction n with
  | zero => rfl
  | succ n ih =>
    have hnone : (step (run step {} connecting) (.timer 1 .sent true)).memory 1 = none := by
      apply Option.not_isSome_iff_eq_none.mp
      decide +kernel
    rw [after_succ, ih]
    exact step_timer_of_released hnone .sent true

theorem requests_complete_connecting :
    (run step {} connecting).Completes ∧
      ∃ n, (after step (run step {} connecting) timeouts n).callsOf 1 = 1 := by
  have hcomplete := requests_complete connecting (by decide +kernel)
  refine ⟨hcomplete.1, hcomplete.2 timeouts ?_ ?_ 1 (by decide +kernel)⟩
  · exact fun n request _ _ _ _ => rfl
  · refine fun n id => ⟨n + 1, Nat.le_succ n,
      .inl (Option.not_isSome_iff_eq_none.mp fun hlive => ?_)⟩
    have hinv : (run step {} (connecting ++ [.timer 1 .sent true])).Inv :=
      inv_run (by decide +kernel)
    rw [after_timeouts] at hlive
    have htold := hinv.sound.ledger.live id hlive
    have hreturned : (run step {} (connecting ++ [.timer 1 .sent true])).returned
        = [(1, true)] := by
      decide +kernel
    rw [hreturned, List.mem_singleton, Prod.mk.injEq] at htold
    rw [htold.1] at hlive
    exact absurd hlive (by decide +kernel)

end AsyncClient

end Eular.Ntrs
