/-
Every event keeps the tables of incoming connections (see
`PendingTables`), unless the application opens a connection under the id
of the entry an INITIAL is about to make.

# The window

`onInitial` draws an id that no entry and no connection has. Until the
entry is made, the only thing that can happen to the tables is a
callback about a session token: `QuietDecisions` walks over the frames
as the code does and says of each such callback that it does not open a
connection under that id. An `accept` or a `connect` elsewhere, also in
any other callback, does no harm.
-/
import Eular.Utp.Context.Proofs.PendingTables

namespace Eular.Utp

open Lib

/-- In the callback, the application opens a connection under the id. -/
def Application.Opens (cfg : IncomingConfig) (app : Application) (s : IncomingContext)
    (cid : UInt32) : Prop :=
  s.find cid = none ∧ (app.run cfg s).find cid ≠ none

instance (cfg : IncomingConfig) (app : Application) (s : IncomingContext) (cid : UInt32) :
    Decidable (app.Opens cfg s cid) :=
  inferInstanceAs (Decidable (_ ∧ _))

namespace IncomingContext

open PendingIncomingConnection

variable {s s' : IncomingContext} {busy : Set UInt32} {cid : UInt32}
  {p p' : PendingIncomingConnection} {cfg : IncomingConfig} {gcm : Gcm}
  {tokens : List UInt8 → Option TokenMeta}

-- ==== timeouts

theorem Tables.retryPending (h : Tables busy s) (env : TimeoutEnv) (cid : UInt32) :
    Tables busy (s.retryPending cfg env cid).2 := by
  unfold IncomingContext.retryPending
  split
  · exact h
  next p hp =>
    split
    · exact h
    split
    · exact h
    split
    · exact h
    split
    · have hshake := @alike_sendPendingHandshake p cfg env.nowUs (env.handshake cid)
      generalize p.sendPendingHandshake cfg env.nowUs (env.handshake cid) = r at hshake ⊢
      dsimp only
      split
      · exact (h.note p r).store hp ⟨hshake.key, hshake.localCid, hshake.handshakeSent⟩
      · exact h.sent hp r hshake
    · exact h

theorem Tables.retryAll (env : TimeoutEnv) (cids : List UInt32) :
    ∀ {s : IncomingContext}, Tables busy s → Tables busy (s.retryAll cfg env cids).1 := by
  induction cids with
  | nil => exact fun h => h
  | cons cid cids ih => exact fun h => ih (h.retryPending env cid)

theorem Tables.dropped (h : Tables ∅ s) (cid : UInt32) :
    Tables ∅ (s.removePendingIncoming cid) := by
  have hdrop := h.remove cid
  rwa [Set.empty_sdiff] at hdrop

theorem Tables.expire (h : Tables ∅ s) (env : TimeoutEnv) (cid : UInt32) :
    Tables ∅ (s.expire cfg env cid) := by
  unfold IncomingContext.expire
  split
  · exact h
  · exact ((h.note _ _).application _).dropped cid

theorem Tables.timeouts (h : Tables ∅ s) (env : TimeoutEnv) :
    Tables ∅ (s.processPendingHandshakeTimeouts cfg env) := by
  have hall := @Tables.retryAll _ cfg env s.waitHandshakeDone _ h
  unfold processPendingHandshakeTimeouts
  generalize s.retryAll cfg env s.waitHandshakeDone = r at hall ⊢
  obtain ⟨s', expired⟩ := r
  dsimp only at hall ⊢
  clear h
  induction expired generalizing s' with
  | nil => exact hall
  | cons cid cids ih => exact ih _ (hall.expire env cid)

-- ==== connections

theorem find_work (f : ContextConnection → ContextConnection)
    (hf : ∀ c, (f c).localConnectionID = c.localConnectionID) (hnone : s.find cid = none) :
    ({ s with connections := s.connections.map f } : IncomingContext).find cid = none := by
  unfold find at *
  rw [List.find?_eq_none] at *
  intro c hc
  obtain ⟨c', hc', rfl⟩ := List.mem_map.mp hc
  rw [hf]
  exact hnone c' hc'

theorem Tables.connectionWork (h : Tables busy s) (cid : UInt32) (work : ConnectionWork) :
    Tables busy (s.connectionWork cfg cid work) := by
  refine (h.application work.callbacks).connections _ fun _ hnone => find_work _ (fun c => ?_) hnone
  split
  all_goals rfl

theorem Tables.connectionEvent (h : Tables busy s) (cid : UInt32) (ev : ConnectionEvent) :
    Tables busy (s.connectionEvent cfg cid ev) := by
  unfold IncomingContext.connectionEvent
  refine Tables.application _ ?_
  have hwork := @Tables.connectionWork _ _ cfg h cid ev.work
  split
  · exact hwork
  · exact hwork.eraseConnection cid
  · split
    · exact hwork
    · exact (hwork.eraseConnection cid).startPendingConnectAttempt _ _

/-- A passive connection is made or it is not, and where it is, its id is
the one asked for. -/
theorem createAndInsertPassiveConnection_cases (s : IncomingContext) (localCid : UInt32)
    (peerAddress : PeerAddress) (peerCid : UInt32) (encrypted : Nat)
    (aesCtx : Option AesGcmContext) (onConnectError : Application) :
    s.createAndInsertPassiveConnection cfg localCid peerAddress peerCid encrypted aesCtx
        onConnectError = (false, s)
      ∨ s.createAndInsertPassiveConnection cfg localCid peerAddress peerCid encrypted aesCtx
          onConnectError = (false, onConnectError.run cfg s)
      ∨ ∃ conn : ContextConnection, conn.localConnectionID = localCid ∧ conn.packetNumber = 1
          ∧ s.createAndInsertPassiveConnection cfg localCid peerAddress peerCid encrypted aesCtx
              onConnectError = (true, s.insert conn) := by
  unfold createAndInsertPassiveConnection
  split
  · exact .inl rfl
  split
  · exact .inr (.inl rfl)
  · exact .inr (.inr ⟨_, rfl, rfl, rfl⟩)

-- ==== promotion

theorem alike_movedFrom (p : PendingIncomingConnection) : p.Alike p.movedFrom := ⟨rfl, rfl, rfl⟩

theorem Tables.promoted (h : Tables ∅ s) (hp : s.pendingIncoming cid = some p)
    (conn : ContextConnection) (hconn : conn.localConnectionID = cid) :
    Tables ∅ ((s.insert conn).removePendingIncoming cid) := by
  have hdrop := (h.dropped cid).insert conn (by
    unfold removePendingIncoming
    rw [hp, hconn]
    exact Function.update_self ..)
  have heq : (s.insert conn).removePendingIncoming cid
      = (s.removePendingIncoming cid).insert conn := by
    have hp' : (s.insert conn).pendingIncoming cid = some p := hp
    unfold removePendingIncoming
    rw [hp, hp']
    rfl
  rwa [heq]

theorem Tables.promote (h : Tables ∅ s) (hp : s.pendingIncoming cid = some p)
    (halike : p.Alike p') (env : IncomingEnv) : Tables ∅ (s.promote cfg env cid p') := by
  have hmoved := h.store hp (halike.trans (alike_movedFrom p'))
  unfold IncomingContext.promote
  dsimp only
  rcases @createAndInsertPassiveConnection_cases cfg (s.store cid p'.movedFrom) p'.localCid
    p'.peerAddress p'.peerCid p'.encrypted p'.aesCtx env.onConnectError with heq | heq |
    ⟨conn, hconn, -, heq⟩
  · rw [heq]
    exact hmoved
  · rw [heq]
    exact hmoved.application _
  · rw [heq]
    have hlocal := halike.localCid.trans (h.localCid hp)
    exact ((hmoved.promoted (pendingIncoming_store _ _ _) conn
      (hconn.trans hlocal)).application _).connectionWork _ _

theorem Tables.onPendingPacket (h : Tables ∅ s) (hp : s.pendingIncoming cid = some p)
    (env : IncomingEnv) (msg : List UInt8) :
    Tables ∅ (s.onPendingPacket cfg gcm env cid p msg) := by
  unfold IncomingContext.onPendingPacket
  split
  · exact h
  next packet _ =>
    have halike := p.alike_readFrames packet.frames
    generalize p.readFrames packet.frames = r at halike ⊢
    obtain ⟨handshakeDone, p'⟩ := r
    dsimp only at halike ⊢
    split
    · exact h.promote hp halike env
    · exact h.store hp (halike.trans (p'.alike_buffer msg))

-- ==== 0-RTT

theorem Tables.refuse (h : Tables busy s) (env : IncomingEnv) (peerAddress : PeerAddress)
    (peerCid : UInt32) (code : Nat) (reason : String) :
    Tables busy (s.refuse env peerAddress peerCid code reason) :=
  h.note _ _

theorem Tables.admitZeroRtt (h : Tables ∅ s) (env : IncomingEnv) (peerAddress : PeerAddress)
    (scid : UInt32) (encrypted : Nat) :
    Tables ∅ (s.admitZeroRtt cfg env peerAddress scid encrypted) := by
  unfold IncomingContext.admitZeroRtt
  split
  · exact h
  next localCid hlocal =>
    rcases @createAndInsertPassiveConnection_cases cfg s localCid peerAddress scid
      encrypted none env.onConnectError with heq | heq | ⟨conn, hconn, -, heq⟩
    · rw [heq]
      exact h
    · rw [heq]
      exact h.application _
    · rw [heq]
      refine Tables.connectionWork (Tables.application _ (Tables.note ?_ _ _)) _ _
      exact h.insert conn (hconn ▸ (allocLocalCid_free hlocal).2)

theorem Tables.onZeroRtt (h : Tables ∅ s) (env : IncomingEnv) (peerAddress : PeerAddress)
    (scid : UInt32) (msg : List UInt8) :
    Tables ∅ (s.onZeroRtt cfg tokens env peerAddress scid msg) := by
  unfold IncomingContext.onZeroRtt
  split
  · exact h
  dsimp only
  split
  · exact (h.application _).refuse _ _ _ _ _
  have hcache := h.cache
  split
  · exact ((hcache _).application _).refuse _ _ _ _ _
  split
  · exact (((hcache _).application _).application _).refuse _ _ _ _ _
  · exact (((hcache _).application _).application _).admitZeroRtt _ _ _ _

-- ==== INITIAL

theorem alike_onInitialCrypto (env : IncomingEnv) (p : PendingIncomingConnection)
    (data : List UInt8) : p.Alike (onInitialCrypto env p data) := by
  unfold onInitialCrypto
  split
  all_goals exact ⟨rfl, rfl, rfl⟩

theorem alike_onInitialToken (env : IncomingEnv) (p : PendingIncomingConnection)
    (token : FrameSessionToken) : p.Alike (onInitialToken cfg tokens env p token) := by
  unfold onInitialToken
  repeat' split
  all_goals exact ⟨rfl, rfl, rfl⟩

/-- No callback about a session token opens a connection under `localCid`. -/
def QuietDecisions (cfg : IncomingConfig) (localCid : UInt32) :
    IncomingContext → List Application → List (FrameType × List UInt8) → Prop
  | _, _, [] => True
  | s, decisions, frame :: frames =>
    match sessionToken frame with
    | none => QuietDecisions cfg localCid s decisions frames
    | some _ =>
      ¬ (decisions.headD .done).Opens cfg s localCid
        ∧ QuietDecisions cfg localCid ((decisions.headD .done).run cfg s) decisions.tail frames

instance QuietDecisions.decidable (cfg : IncomingConfig) (localCid : UInt32) :
    ∀ (s : IncomingContext) (decisions : List Application) (frames : List (FrameType × List UInt8)),
      Decidable (QuietDecisions cfg localCid s decisions frames)
  | _, _, [] => isTrue trivial
  | s, decisions, frame :: frames =>
    match h : sessionToken frame with
    | none =>
      have := QuietDecisions.decidable cfg localCid s decisions frames
      decidable_of_iff (QuietDecisions cfg localCid s decisions frames)
        (by rw [QuietDecisions, h])
    | some _ =>
      have := QuietDecisions.decidable cfg localCid ((decisions.headD .done).run cfg s)
        decisions.tail frames
      decidable_of_iff (¬ (decisions.headD .done).Opens cfg s localCid
          ∧ QuietDecisions cfg localCid ((decisions.headD .done).run cfg s) decisions.tail frames)
        (by rw [QuietDecisions, h])

/-- What the frame loop leaves: the tables as they were but for what the
application did, and an entry under the id that was drawn. -/
theorem Tables.readInitialFrames (env : IncomingEnv) (localCid : UInt32)
    (frames : List (FrameType × List UInt8)) :
    ∀ {s : IncomingContext} {p : PendingIncomingConnection} {decisions : List Application},
      Tables ∅ s → s.find localCid = none → QuietDecisions cfg localCid s decisions frames →
      Tables ∅ (readInitialFrames cfg tokens env s p decisions frames).1
        ∧ s.Shrinks (readInitialFrames cfg tokens env s p decisions frames).1
        ∧ (readInitialFrames cfg tokens env s p decisions frames).1.find localCid = none
        ∧ p.Alike (readInitialFrames cfg tokens env s p decisions frames).2 := by
  induction frames with
  | nil =>
    intro s p _ h hfree _
    exact ⟨h, .refl s, hfree, .refl p⟩
  | cons frame frames ih =>
    intro s p decisions h hfree hquiet
    have hparse := p.alike_parsePendingNegotiationFrame frame
    unfold IncomingContext.readInitialFrames
    unfold QuietDecisions at hquiet
    dsimp only
    split
    · next hcrypto =>
        have hnot : sessionToken frame = none := by simp [sessionToken, hcrypto.1]
        rw [hnot] at hquiet
        have hrest := ih (p := onInitialCrypto env (p.parsePendingNegotiationFrame frame) frame.2)
          h hfree hquiet
        exact ⟨hrest.1, hrest.2.1, hrest.2.2.1,
          (hparse.trans (alike_onInitialCrypto env _ _)).trans hrest.2.2.2⟩
    · split
      · next hnone =>
          rw [hnone] at hquiet
          have hrest := ih (p := p.parsePendingNegotiationFrame frame) h hfree hquiet
          exact ⟨hrest.1, hrest.2.1, hrest.2.2.1, hparse.trans hrest.2.2.2⟩
      · next token hsome =>
          rw [hsome] at hquiet
          have hfree' : ((decisions.headD .done).run cfg s).find localCid = none := by
            by_contra hopened
            exact hquiet.1 ⟨hfree, hopened⟩
          have hrest := ih
            (p := onInitialToken cfg tokens env (p.parsePendingNegotiationFrame frame) token)
            (h.application _) hfree' hquiet.2
          exact ⟨hrest.1, (application_shrinks _ _).trans hrest.2.1, hrest.2.2.1,
            (hparse.trans (alike_onInitialToken env _ _)).trans hrest.2.2.2⟩

theorem Tables.enqueue (h : Tables ∅ s) (hpending : s.pendingIncoming p.localCid = none)
    (hindex : s.pendingIncomingPeerIndex p.key = none) (hfind : s.find p.localCid = none)
    (hsent : p.handshakeSent = false) : Tables ∅ (s.enqueue p) where
  index := h.index.insert hpending hindex
  localCid := by
    intro cid q hq
    simp only [IncomingContext.enqueue, Function.update_apply] at hq
    split at hq
    · next heq =>
        obtain rfl := Option.some_injective _ hq
        exact heq.symm
    · exact h.localCid hq
  queued := by
    intro cid
    simp only [IncomingContext.enqueue, List.mem_append, List.mem_singleton, h.queued cid,
      Function.update_apply]
    by_cases heq : cid = p.localCid
    · simp [heq, hsent]
    · simp [heq]
  waiting := by
    intro cid
    simp only [IncomingContext.enqueue, h.waiting cid, Function.update_apply]
    by_cases heq : cid = p.localCid
    · simp [heq, hsent, hpending]
    · simp [heq]
  queue_nodup := by
    have hnot : p.localCid ∉ s.pendingIncomingQueue := by
      intro hin
      obtain ⟨q, hq, -⟩ := (h.queued _).mp hin
      rw [hpending] at hq
      cases hq
    refine List.nodup_append.mpr ⟨h.queue_nodup, List.nodup_singleton _, ?_⟩
    rintro a ha b hb rfl
    exact hnot (List.mem_singleton.mp hb ▸ ha)
  wait_nodup := h.wait_nodup
  apart := by
    intro cid q hq
    simp only [IncomingContext.enqueue, Function.update_apply] at hq
    split at hq
    · next heq => exact heq ▸ hfind
    · exact h.apart hq

theorem Tables.settle (h : Tables ∅ s) (env : IncomingEnv) (cid : UInt32) :
    Tables ∅ (s.settle env cid) := by
  unfold IncomingContext.settle
  split
  · exact h
  next p hp =>
    split
    · exact h
    · exact (h.sent hp _ (p.alike_sendPendingConnectionClose _ _ _)).dropped cid

/-- The INITIAL handling, where the application does not take the id it has
drawn. -/
theorem Tables.onInitial (h : Tables ∅ s) (env : IncomingEnv) (peerAddress : PeerAddress)
    (scid : UInt32) (msg : List UInt8)
    (hquiet : s.ofPeer peerAddress scid = none →
      s.pendingIncomingPeerIndex ⟨peerAddress, scid⟩ = none →
      ∀ localCid packet, s.allocLocalCid env.draws = some localCid →
        PacketIn.decode msg = some packet →
        QuietDecisions cfg localCid s env.onZeroRttDecision packet.frames) :
    Tables ∅ (s.onInitial cfg tokens env peerAddress scid msg) := by
  unfold IncomingContext.onInitial
  split
  · exact h
  next hpeer =>
    split
    · exact h
    next hindex =>
      rw [Bool.not_eq_true, Option.isSome_eq_false_iff, Option.isNone_iff_eq_none] at hpeer hindex
      split
      · exact h
      next packet hdecode =>
        split
        · exact h
        next localCid hlocal =>
          have hfree := allocLocalCid_free hlocal
          obtain ⟨htables, hshrinks, hfind, halike⟩ := @Tables.readInitialFrames
            cfg tokens env localCid packet.frames s
              (newPending env peerAddress scid localCid packet)
            _ h hfree.1 (hquiet hpeer hindex localCid packet hlocal hdecode)
          generalize IncomingContext.readInitialFrames cfg tokens env s
            (newPending env peerAddress scid localCid packet) env.onZeroRttDecision
            packet.frames = r at htables hshrinks hfind halike ⊢
          obtain ⟨s', p⟩ := r
          dsimp only at htables hshrinks hfind halike ⊢
          have hcid : p.localCid = localCid := halike.localCid
          have hkey : p.key = ⟨peerAddress, scid⟩ := halike.key
          refine ((htables.enqueue ?_ ?_ ?_ halike.handshakeSent).application _).settle env localCid
          · exact hcid ▸ hshrinks.pending hfree.2
          · exact hkey ▸ hshrinks.index hindex
          · exact hcid ▸ hfind

-- ==== runs

/-- A datagram with this header is the INITIAL of a new peer. -/
def StartsEntry (s : IncomingContext) (peerAddress : PeerAddress) (header : UTPHeaderProto) :
    Prop :=
  header.types = UTP_TYPE_INITIAL ∧ s.find header.dcid = none
    ∧ ((s.pendingIncoming header.dcid).filter fun p => p.handshakeSent) = none
    ∧ s.ofPeer peerAddress header.scid = none
    ∧ s.pendingIncomingPeerIndex ⟨peerAddress, header.scid⟩ = none

instance (s : IncomingContext) (peerAddress : PeerAddress) (header : UTPHeaderProto) :
    Decidable (s.StartsEntry peerAddress header) :=
  inferInstanceAs (Decidable (_ ∧ _ ∧ _ ∧ _ ∧ _))

/-- If the event is the INITIAL of a new peer, the application opens no
connection, in a callback about a session token of it, under the id drawn
for the peer. -/
def Undrawn (cfg : IncomingConfig) (s : IncomingContext) : IncomingOp → Prop
  | .datagram env peerAddress msg =>
    ∀ header ∈ readHeader msg, s.StartsEntry peerAddress header →
      ∀ localCid ∈ s.allocLocalCid env.draws, ∀ packet ∈ PacketIn.decode msg,
        QuietDecisions cfg localCid s env.onZeroRttDecision packet.frames
  | _ => True

instance (cfg : IncomingConfig) (s : IncomingContext) : ∀ op, Decidable (Undrawn cfg s op)
  -- Over the id drawn, not over all the ids there are.
  | .datagram env _ _ =>
    have (packets : Option PacketIn) :
        Decidable (∀ localCid ∈ s.allocLocalCid env.draws, ∀ packet ∈ packets,
          QuietDecisions cfg localCid s env.onZeroRttDecision packet.frames) :=
      Option.decidableForallMem _
    inferInstanceAs (Decidable (∀ _ ∈ _, _))
  | .timeouts _ | .connection _ _ | .application _ => isTrue trivial

theorem Tables.onDatagram (h : Tables ∅ s) (env : IncomingEnv) (peerAddress : PeerAddress)
    (msg : List UInt8) (hok : Undrawn cfg s (.datagram env peerAddress msg)) :
    Tables ∅ (s.onDatagram cfg gcm tokens env peerAddress msg) := by
  unfold IncomingContext.onDatagram
  split
  · exact h
  next header hheader =>
    dsimp only
    split
    · exact h.connectionEvent _ _
    next hfind =>
      split
      · exact h.connectionEvent _ _
      split
      · next p hp =>
          exact h.onPendingPacket (Option.filter_eq_some_iff.mp hp).1 env msg
      next hpending =>
      split
      · exact h.onZeroRtt env _ _ _
      split
      · next htype =>
          rw [Bool.not_eq_true, Option.isSome_eq_false_iff, Option.isNone_iff_eq_none] at hfind
          exact h.onInitial env _ _ _ fun hpeer hindex localCid packet hlocal hdecode =>
            hok header hheader ⟨htype, hfind, hpending, hpeer, hindex⟩ localCid hlocal packet
              hdecode
      · exact h

theorem Tables.step (h : Tables ∅ s) (op : IncomingOp) (hok : Undrawn cfg s op) :
    Tables ∅ (s.step cfg gcm tokens op) := by
  cases op with
  | datagram env peerAddress msg => exact h.onDatagram env peerAddress msg hok
  | timeouts env => exact h.timeouts env
  | connection cid ev => exact h.connectionEvent cid ev
  | application calls => exact h.application calls

/-- The tables agree after every event, whatever the application does in its
callbacks, as long as no callback about a session token opens a
connection under the id that is drawn for the peer it is about. -/
theorem pending_tables (cfg : IncomingConfig) (gcm : Gcm) (tokens : List UInt8 → Option TokenMeta)
    (ops : List IncomingOp)
    (hok : Meets (IncomingContext.step cfg gcm tokens) (Undrawn cfg) {} ops) :
    (run (IncomingContext.step cfg gcm tokens) {} ops).Consistent :=
  Tables.consistent (run_inv (fun _ op h hop => h.step op hop) tables_empty hok)

-- ==== a collision

/-- An INITIAL with a session token. -/
def tokenInitial : List UInt8 :=
  ({ scid := 7, dcid := 0, pn := 1, payloadLength := 4, types := UTP_TYPE_INITIAL, reserve := 0 } :
    UTPHeaderProto).serialize ++ [12, 0, 0, 0]

/-- It arrives, the id 5 is drawn for its sender, and the application, told
that the token is not valid, connects elsewhere, drawing `cid`. -/
def initialWhile (cid : UInt32) : IncomingOp :=
  .datagram
    { nowUs := 1
      draws := [5]
      deriveContext := fun _ _ => .ignored
      publicKey := []
      onZeroRttDecision := [.connect { draws := [cid], info := { peer := .ip 9 9 } } .done] }
    ⟨.ip 2 2, rfl⟩ tokenInitial

/-- With another id the tables agree, also after the entry is accepted. -/
theorem pending_tables_apart :
    (run (IncomingContext.step {} unusedGcm fun _ => none) {}
      [initialWhile 6, .application (.accept { nowUs := 2 } .done .done)]).Consistent :=
  pending_tables {} unusedGcm (fun _ => none) _ (by decide +kernel)

/-- With the same id there is an entry and a connection under it. -/
theorem not_pending_tables :
    ¬ ∀ (cfg : IncomingConfig) (gcm : Gcm) (tokens : List UInt8 → Option TokenMeta)
        (ops : List IncomingOp), (run (IncomingContext.step cfg gcm tokens) {} ops).Consistent := by
  intro h
  have hapart := (h {} unusedGcm (fun _ => none) [initialWhile 5]).apart 5 (by decide +kernel)
  exact absurd hapart (by decide +kernel)

end IncomingContext

end Eular.Utp
