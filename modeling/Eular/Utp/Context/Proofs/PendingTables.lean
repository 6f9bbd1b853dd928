/-
The tables of incoming connections agree.

`m_pendingIncoming` has an index by peer, and every entry waits in one
of two places: in the queue until it is accepted, among
`m_waitHandshakeDone` after. `Consistent` is that, with the ids of
entries and of connections kept apart. It is an invariant, whatever the
application does in its callbacks, but for one window: the INITIAL
handling draws an id, tells the application what became of a session
token, and only then makes the entry. A `connect` in that callback can
draw the same id.

# The invariant

A failed `accept` calls back while its entry is in neither place.
`Tables busy` is `Consistent` but for the entries in `busy`, and every
callback keeps it for every `busy`.
-/
import Eular.Lib.Run
import Eular.Utp.Context.Incoming

namespace Eular.Utp

open Lib

-- ==== the entries

/-- What the tables read of an entry is the same. -/
structure PendingIncomingConnection.Alike (p p' : PendingIncomingConnection) : Prop where
  key : p'.key = p.key
  localCid : p'.localCid = p.localCid
  handshakeSent : p'.handshakeSent = p.handshakeSent

namespace PendingIncomingConnection

variable {p p' p'' : PendingIncomingConnection} {cfg : IncomingConfig}

theorem Alike.refl (p : PendingIncomingConnection) : p.Alike p := ⟨rfl, rfl, rfl⟩

theorem Alike.trans (h : p.Alike p') (h' : p'.Alike p'') : p.Alike p'' :=
  ⟨h'.key.trans h.key, h'.localCid.trans h.localCid, h'.handshakeSent.trans h.handshakeSent⟩

theorem alike_sendPendingPacket (send : SocketSend) (type : UInt8) (payload : List UInt8) :
    p.Alike (p.sendPendingPacket send type payload).pending := by
  unfold sendPendingPacket
  repeat' split
  all_goals exact ⟨rfl, rfl, rfl⟩

theorem alike_sendPendingHandshake (nowUs : Nat) (send : SocketSend) :
    p.Alike (p.sendPendingHandshake cfg nowUs send).pending := by
  unfold sendPendingHandshake
  have h := p.alike_sendPendingPacket send UTP_TYPE_HANDSHAKE (p.handshakePayload cfg nowUs)
  generalize p.sendPendingPacket send UTP_TYPE_HANDSHAKE (p.handshakePayload cfg nowUs) = r at h ⊢
  dsimp only
  split
  · exact ⟨h.key, h.localCid, h.handshakeSent⟩
  · exact h

theorem alike_sendPendingConnectionClose (send : SocketSend) (code : Nat) (reason : String) :
    p.Alike (p.sendPendingConnectionClose send code reason).pending :=
  p.alike_sendPendingPacket send _ _

theorem alike_parsePendingNegotiationFrame (frame : FrameType × List UInt8) :
    p.Alike (p.parsePendingNegotiationFrame frame) := by
  unfold parsePendingNegotiationFrame
  repeat' split
  all_goals exact ⟨rfl, rfl, rfl⟩

theorem alike_readFrames (frames : List (FrameType × List UInt8)) :
    p.Alike (p.readFrames frames).2 := by
  induction frames generalizing p with
  | nil => exact .refl p
  | cons frame frames ih =>
    unfold readFrames
    split
    · exact p.alike_parsePendingNegotiationFrame frame
    · exact (p.alike_parsePendingNegotiationFrame frame).trans ih

theorem alike_buffer (msg : List UInt8) : p.Alike (p.buffer cfg msg) := by
  unfold buffer
  split
  all_goals exact ⟨rfl, rfl, rfl⟩

end PendingIncomingConnection

namespace IncomingContext

open PendingIncomingConnection

variable {s s' s'' : IncomingContext} {busy : Set UInt32} {cid : UInt32}
  {p p' : PendingIncomingConnection} {cfg : IncomingConfig}

-- ==== the properties

structure Consistent (s : IncomingContext) : Prop where
  /-- The index has one entry for each pending entry, and no other. -/
  index : Indexed PendingIncomingConnection.key s.pendingIncoming s.pendingIncomingPeerIndex
  localCid : ∀ cid p, s.pendingIncoming cid = some p → p.localCid = cid
  /-- A pending entry is in the queue, or waits for its HANDSHAKE_DONE. -/
  placed : ∀ cid p, s.pendingIncoming cid = some p →
    (cid ∈ s.pendingIncomingQueue ∧ cid ∉ s.waitHandshakeDone ∧ p.handshakeSent = false)
      ∨ (cid ∉ s.pendingIncomingQueue ∧ cid ∈ s.waitHandshakeDone ∧ p.handshakeSent = true)
  /-- Both hold each id once, and only ids of pending entries. -/
  nodup : s.pendingIncomingQueue.Nodup ∧ s.waitHandshakeDone.Nodup
  known : ∀ cid, cid ∈ s.pendingIncomingQueue ∨ cid ∈ s.waitHandshakeDone →
    (s.pendingIncoming cid).isSome
  /-- A pending entry and a connection do not share an id. -/
  apart : ∀ cid, (s.pendingIncoming cid).isSome → s.find cid = none

/-- The invariant; the entries in `busy` are about to be dropped. -/
structure Tables (busy : Set UInt32) (s : IncomingContext) : Prop where
  index : Indexed PendingIncomingConnection.key s.pendingIncoming s.pendingIncomingPeerIndex
  localCid : ∀ {cid p}, s.pendingIncoming cid = some p → p.localCid = cid
  queued : ∀ cid, cid ∈ s.pendingIncomingQueue ↔
    ∃ p, s.pendingIncoming cid = some p ∧ p.handshakeSent = false ∧ cid ∉ busy
  waiting : ∀ cid, cid ∈ s.waitHandshakeDone ↔
    ∃ p, s.pendingIncoming cid = some p ∧ p.handshakeSent = true
  queue_nodup : s.pendingIncomingQueue.Nodup
  wait_nodup : s.waitHandshakeDone.Nodup
  apart : ∀ {cid p}, s.pendingIncoming cid = some p → s.find cid = none

theorem Tables.consistent (h : Tables ∅ s) : s.Consistent where
  index := h.index
  localCid := fun _ _ hp => h.localCid hp
  placed := by
    intro cid p hp
    have hq := h.queued cid
    have hw := h.waiting cid
    simp only [hp, Option.some.injEq, exists_eq_left', Set.mem_empty_iff_false,
      not_false_eq_true, and_true] at hq hw
    rw [hq, hw]
    cases p.handshakeSent <;> simp
  nodup := ⟨h.queue_nodup, h.wait_nodup⟩
  known := by
    rintro cid (hmem | hmem)
    · obtain ⟨p, hp, -⟩ := (h.queued cid).mp hmem
      rw [hp]
      rfl
    · obtain ⟨p, hp, -⟩ := (h.waiting cid).mp hmem
      rw [hp]
      rfl
  apart := by
    intro cid hsome
    obtain ⟨p, hp⟩ := Option.isSome_iff_exists.mp hsome
    exact h.apart hp

theorem tables_empty : Tables ∅ {} where
  index := Indexed.empty _
  localCid := by simp
  queued := by simp
  waiting := by simp
  queue_nodup := List.nodup_nil
  wait_nodup := List.nodup_nil
  apart := by simp

/-- Where one state has no pending entry, no key or no connection with an
id, so has the other. -/
structure Shrinks (s s' : IncomingContext) : Prop where
  pending : ∀ {cid}, s.pendingIncoming cid = none → s'.pendingIncoming cid = none
  index : ∀ {key}, s.pendingIncomingPeerIndex key = none → s'.pendingIncomingPeerIndex key = none

theorem Shrinks.refl (s : IncomingContext) : s.Shrinks s := ⟨id, id⟩

theorem Shrinks.trans (h : s.Shrinks s') (h' : s'.Shrinks s'') : s.Shrinks s'' :=
  ⟨h'.pending ∘ h.pending, h'.index ∘ h.index⟩

theorem Shrinks.write (h : s.Shrinks s') (hp : s'.pendingIncoming cid = some p)
    {q : Option PendingIncomingConnection}
    (hpending : s''.pendingIncoming = Function.update s'.pendingIncoming cid q)
    (hindex : s''.pendingIncomingPeerIndex = s'.pendingIncomingPeerIndex) : s.Shrinks s'' := by
  refine ⟨fun {cid'} hnone => ?_, fun hnone => hindex ▸ h.index hnone⟩
  have hnone' := h.pending hnone
  have hne : cid' ≠ cid := fun heq => by rw [heq, hp] at hnone'; cases hnone'
  rw [hpending, Function.update_of_ne hne]
  exact hnone'

-- ==== connections come and go

theorem Tables.connections (h : Tables busy s) (conns : List ContextConnection)
    (hfind : ∀ {cid p}, s.pendingIncoming cid = some p → s.find cid = none →
      ({ s with connections := conns } : IncomingContext).find cid = none) :
    Tables busy { s with connections := conns } where
  index := h.index
  localCid := h.localCid
  queued := h.queued
  waiting := h.waiting
  queue_nodup := h.queue_nodup
  wait_nodup := h.wait_nodup
  apart := fun hp => hfind hp (h.apart hp)

theorem Tables.note (h : Tables busy s) (p : PendingIncomingConnection) (r : PendingSend) :
    Tables busy (s.note p r) :=
  ⟨h.index, h.localCid, h.queued, h.waiting, h.queue_nodup, h.wait_nodup, h.apart⟩

theorem Tables.cache (h : Tables busy s) (cache : ReplayCache ZeroRttReplayKey) :
    Tables busy { s with zeroRttReplayCache := cache } :=
  ⟨h.index, h.localCid, h.queued, h.waiting, h.queue_nodup, h.wait_nodup, h.apart⟩

theorem find_insert (conn : ContextConnection) (hne : conn.localConnectionID ≠ cid)
    (hnone : s.find cid = none) : (s.insert conn).find cid = none := by
  unfold find insert at *
  rw [List.find?_append, hnone]
  simpa using hne

theorem Tables.insert (h : Tables busy s) (conn : ContextConnection)
    (hfree : s.pendingIncoming conn.localConnectionID = none) : Tables busy (s.insert conn) :=
  h.connections _ fun hp hnone =>
    find_insert conn (fun heq => by rw [heq, hp] at hfree; cases hfree) hnone

theorem find_filter_none (hnone : s.find cid = none) (q : ContextConnection → Bool) :
    ({ s with connections := s.connections.filter q } : IncomingContext).find cid = none := by
  unfold find at *
  rw [List.find?_eq_none] at *
  exact fun c hc => hnone c (List.mem_filter.mp hc).1

theorem Tables.eraseConnection (h : Tables busy s) (cid : UInt32) :
    Tables busy (s.eraseConnection cid) :=
  h.connections _ fun _ hnone => find_filter_none hnone _

theorem allocLocalCid_free {draws : List UInt32} (h : s.allocLocalCid draws = some cid) :
    s.find cid = none ∧ s.pendingIncoming cid = none := by
  have hfree := List.find?_some h
  simp only [Bool.and_eq_true, Option.isNone_iff_eq_none] at hfree
  exact ⟨hfree.1.2, hfree.2⟩

theorem Tables.startPendingConnectAttempt (h : Tables busy s) (draws : List UInt32)
    (info : ConnectInfo) : Tables busy (s.startPendingConnectAttempt draws info) := by
  unfold IncomingContext.startPendingConnectAttempt
  split
  · exact h
  · next cid hcid =>
      split
      · exact h.insert _ (allocLocalCid_free hcid).2
      · exact h

theorem Tables.connect (h : Tables busy s) (call : ConnectCall) : Tables busy (s.connect call) := by
  unfold IncomingContext.connect
  split
  · exact h
  split
  · exact h
  · exact h.startPendingConnectAttempt _ _

theorem startPendingConnectAttempt_shrinks (draws : List UInt32) (info : ConnectInfo) :
    s.Shrinks (s.startPendingConnectAttempt draws info) := by
  unfold IncomingContext.startPendingConnectAttempt
  repeat' split
  all_goals exact ⟨id, id⟩

theorem connect_shrinks (call : ConnectCall) : s.Shrinks (s.connect call) := by
  unfold IncomingContext.connect
  split
  · exact .refl s
  split
  · exact .refl s
  · exact startPendingConnectAttempt_shrinks _ _

-- ==== entries come and go

theorem Tables.store (h : Tables busy s) (hp : s.pendingIncoming cid = some p)
    (halike : p.Alike p') : Tables busy (s.store cid p') where
  index := h.index.replace hp halike.key
  localCid := by
    intro cid' q hq
    simp only [IncomingContext.store, Function.update_apply] at hq
    split at hq
    · next heq =>
        subst heq
        obtain rfl := Option.some_injective _ hq
        exact halike.localCid.trans (h.localCid hp)
    · exact h.localCid hq
  queued := by
    intro cid'
    refine (h.queued cid').trans ?_
    simp only [IncomingContext.store, Function.update_apply]
    split
    · next heq =>
        subst heq
        simp only [hp, Option.some.injEq, exists_eq_left', halike.handshakeSent]
    · rfl
  waiting := by
    intro cid'
    refine (h.waiting cid').trans ?_
    simp only [IncomingContext.store, Function.update_apply]
    split
    · next heq =>
        subst heq
        simp only [hp, Option.some.injEq, exists_eq_left', halike.handshakeSent]
    · rfl
  queue_nodup := h.queue_nodup
  wait_nodup := h.wait_nodup
  apart := by
    intro cid' q hq
    simp only [IncomingContext.store, Function.update_apply] at hq
    split at hq
    · next heq =>
        subst heq
        exact h.apart hp
    · exact h.apart hq

theorem Tables.remove (h : Tables busy s) (cid : UInt32) :
    Tables (busy \ {cid}) (s.removePendingIncoming cid) := by
  unfold removePendingIncoming
  cases hp : s.pendingIncoming cid with
  | none =>
    refine { h with queued := fun cid' => (h.queued cid').trans ?_ }
    refine exists_congr fun q => and_congr_right fun hq => and_congr_right fun _ => ?_
    have hne : cid' ≠ cid := fun heq => by rw [heq, hp] at hq; cases hq
    simp [hne]
  | some p =>
    refine
      { index := h.index.erase hp
        localCid := ?_, queued := ?_, waiting := ?_
        queue_nodup := h.queue_nodup.filter _
        wait_nodup := h.wait_nodup.filter _
        apart := ?_ }
    · intro cid' q hq
      simp only [Function.update_apply] at hq
      split at hq
      · cases hq
      · exact h.localCid hq
    · intro cid'
      simp only [List.mem_filter, h.queued cid', Function.update_apply]
      by_cases heq : cid' = cid
      · simp [heq]
      · simp [heq]
    · intro cid'
      simp only [List.mem_filter, h.waiting cid', Function.update_apply]
      by_cases heq : cid' = cid
      · simp [heq]
      · simp [heq]
    · intro cid' q hq
      simp only [Function.update_apply] at hq
      split at hq
      · cases hq
      · exact h.apart hq

theorem remove_shrinks (s : IncomingContext) (cid : UInt32) :
    s.Shrinks (s.removePendingIncoming cid) := by
  unfold removePendingIncoming
  split
  · exact .refl s
  · refine ⟨fun {cid'} hnone => ?_, fun {key} hnone => ?_⟩
    · simp only [Function.update_apply]
      split
      · rfl
      · exact hnone
    · simp only [Function.update_apply]
      split
      · rfl
      · exact hnone

-- ==== accept

/-- The entry `accept` takes from the queue. -/
theorem Tables.front (h : Tables busy s) {queue : List UInt32}
    (hq : s.pendingIncomingQueue = cid :: queue) :
    ∃ p, s.pendingIncoming cid = some p ∧ p.handshakeSent = false ∧ cid ∉ busy :=
  (h.queued cid).mp (hq ▸ List.mem_cons_self)

theorem Tables.pop (h : Tables busy s) {queue : List UInt32}
    (hq : s.pendingIncomingQueue = cid :: queue) :
    Tables (Set.insert cid busy) { s with pendingIncomingQueue := queue } := by
  have hnodup := h.queue_nodup
  rw [hq, List.nodup_cons] at hnodup
  refine { h with queued := ?_, queue_nodup := hnodup.2 }
  intro cid'
  have hmem := h.queued cid'
  rw [hq, List.mem_cons] at hmem
  have hbusy : cid' ∈ Set.insert cid busy ↔ cid' = cid ∨ cid' ∈ busy := Set.mem_insert_iff
  constructor
  · intro hin
    obtain ⟨p, hp, hsent, hfree⟩ := hmem.mp (.inr hin)
    refine ⟨p, hp, hsent, fun hb => (hbusy.mp hb).elim (fun heq => ?_) hfree⟩
    exact hnodup.1 (heq ▸ hin)
  · rintro ⟨p, hp, hsent, hfree⟩
    rw [hbusy, not_or] at hfree
    exact (hmem.mpr ⟨p, hp, hsent, hfree.2⟩).resolve_left hfree.1

theorem Tables.answer (h : Tables (Set.insert cid busy) s) (hfree : cid ∉ busy)
    (hp : s.pendingIncoming cid = some p) (hsent : p.handshakeSent = false)
    (hkey : p'.key = p.key) (hlocal : p'.localCid = p.localCid) (hsent' : p'.handshakeSent = true) :
    Tables busy { s.store cid p' with waitHandshakeDone :=
      if cid ∈ s.waitHandshakeDone then s.waitHandshakeDone
      else s.waitHandshakeDone.orderedInsert (· ≤ ·) cid } := by
  have hbusy : ∀ {x}, x ∈ Set.insert cid busy ↔ x = cid ∨ x ∈ busy := Set.mem_insert_iff
  have hnot : cid ∉ s.waitHandshakeDone := by
    intro hin
    obtain ⟨q, hq, hqs⟩ := (h.waiting cid).mp hin
    obtain rfl := Option.some_injective _ (hp.symm.trans hq)
    rw [hsent] at hqs
    cases hqs
  rw [if_neg hnot]
  refine
    { index := h.index.replace hp hkey
      localCid := ?_, queued := ?_, waiting := ?_
      queue_nodup := h.queue_nodup
      wait_nodup := ((List.perm_orderedInsert _ _ _).nodup_iff).mpr
        (List.nodup_cons.mpr ⟨hnot, h.wait_nodup⟩)
      apart := ?_ }
  · intro cid' q hq
    simp only [IncomingContext.store, Function.update_apply] at hq
    split at hq
    · next heq =>
        subst heq
        obtain rfl := Option.some_injective _ hq
        exact hlocal.trans (h.localCid hp)
    · exact h.localCid hq
  · intro cid'
    refine (h.queued cid').trans ?_
    simp only [IncomingContext.store, Function.update_apply, hbusy]
    by_cases heq : cid' = cid
    · simp [heq, hsent']
    · simp [heq]
  · intro cid'
    rw [List.mem_orderedInsert, h.waiting cid']
    simp only [IncomingContext.store, Function.update_apply]
    by_cases heq : cid' = cid
    · simp [heq, hsent']
    · simp [heq]
  · intro cid' q hq
    simp only [IncomingContext.store, Function.update_apply] at hq
    split at hq
    · next heq =>
        subst heq
        exact h.apart hp
    · exact h.apart hq

theorem insert_diff (hfree : cid ∉ busy) : Set.insert cid busy \ {cid} = busy :=
  Set.insert_sdiff_self_of_notMem hfree

theorem Tables.sent (h : Tables busy s) (hp : s.pendingIncoming cid = some p) (r : PendingSend)
    (halike : p.Alike r.pending) : Tables busy ((s.note p r).store cid r.pending) :=
  (h.note p r).store hp halike

theorem pendingIncoming_store (s : IncomingContext) (cid : UInt32)
    (p : PendingIncomingConnection) : (s.store cid p).pendingIncoming cid = some p :=
  Function.update_self ..

/-- `accept` keeps the tables, if the callback of a failed one does. -/
theorem Tables.accept (h : Tables busy s) (call : AcceptCall)
    {onError : IncomingContext → IncomingContext}
    (hon : ∀ {busy s}, Tables busy s → Tables busy (onError s)) :
    Tables busy (s.accept cfg call onError).2 := by
  unfold IncomingContext.accept
  cases hq : s.pendingIncomingQueue with
  | nil => exact h
  | cons cid queue =>
    obtain ⟨p, hp, hsent, hfree⟩ := h.front hq
    have hshake := @alike_sendPendingHandshake p cfg call.nowUs call.handshake
    dsimp only
    rw [hp]
    dsimp only
    rw [if_neg (by rw [hsent]; exact Bool.false_ne_true)]
    generalize p.sendPendingHandshake cfg call.nowUs call.handshake = r at hshake ⊢
    have hafter := (h.pop hq).sent hp r hshake
    split
    · have hclose := r.pending.alike_sendPendingConnectionClose call.close
        UtpError.internalError.value "send handshake failed"
      generalize r.pending.sendPendingConnectionClose call.close
        UtpError.internalError.value "send handshake failed" = closed at hclose ⊢
      have hdone := (hon (hafter.sent (pendingIncoming_store _ _ _) closed hclose)).remove cid
      rwa [insert_diff hfree] at hdone
    · exact hafter.answer hfree (pendingIncoming_store _ _ _) (hshake.handshakeSent.trans hsent)
        rfl rfl rfl

theorem accept_shrinks (s : IncomingContext) (call : AcceptCall)
    {onError : IncomingContext → IncomingContext}
    (hon : ∀ s : IncomingContext, s.Shrinks (onError s)) :
    s.Shrinks (s.accept cfg call onError).2 := by
  unfold IncomingContext.accept
  cases hq : s.pendingIncomingQueue with
  | nil => exact .refl s
  | cons cid queue =>
    have hpop : s.Shrinks { s with pendingIncomingQueue := queue } := ⟨id, id⟩
    dsimp only
    split
    · exact hpop
    next p hp =>
      split
      · exact hpop
      have hafter : s.Shrinks ((({ s with pendingIncomingQueue := queue } : IncomingContext).note p
          (p.sendPendingHandshake cfg call.nowUs call.handshake)).store cid
            (p.sendPendingHandshake cfg call.nowUs call.handshake).pending) :=
        hpop.write hp rfl rfl
      split
      · refine (Shrinks.trans ?_ (hon _)).trans (remove_shrinks _ _)
        exact hafter.write (pendingIncoming_store _ _ _) rfl rfl
      · exact hafter.write (pendingIncoming_store _ _ _) rfl rfl

-- ==== the callbacks

theorem Tables.application (app : Application) :
    ∀ {busy : Set UInt32} {s : IncomingContext}, Tables busy s → Tables busy (app.run cfg s) := by
  induction app with
  | done => exact fun h => h
  | connect call next ih => exact fun h => ih (h.connect call)
  | accept call onConnectError next ihError ih => exact fun h => ih (h.accept call ihError)

theorem application_shrinks (app : Application) (s : IncomingContext) :
    s.Shrinks (app.run cfg s) := by
  induction app generalizing s with
  | done => exact .refl s
  | connect call next ih => exact (connect_shrinks call).trans (ih _)
  | accept call onConnectError next ihError ih =>
    exact (accept_shrinks s call ihError).trans (ih _)

end IncomingContext

end Eular.Utp
