/-
What the events of a connection do to its streams.

Everything but `createStreamInternal` acts on the table in one way,
`Evolves`: the role, the local limits and the next ids stay; streams go,
or change in place, or are opened by the peer, and every id the peer
opens has passed `validateIncomingStreamId` and is announced. What
`createStreamInternal` does is `openLocal_cases`.

`ids_of_run` collects what every run keeps: created ids are our own,
announced ids are the peer's and within the limit.
-/
import Eular.Lib.Run
import Eular.Utp.Connection.Connection
import Eular.Utp.Stream.Proofs.Identity

namespace Eular.Utp

open Lib

variable {gcm : Gcm} {env : RecvEnv} {a : Arrival} {t t' t'' : Streams}
variable {ty : StreamType}

-- ==== evolution

structure Streams.Evolves (t t' : Streams) : Prop where
  role : t'.isClientInitiator = t.isClientInitiator
  localTP : t'.localTP = t.localTP
  slots : t'.streamId = t.streamId
  incoming : ∃ new, t'.incoming = t.incoming ++ new
    ∧ ∀ id ∈ new, (t.validateIncomingStreamId id).ok = true
  ids : ∀ s ∈ t'.streams, (∃ s₀ ∈ t.streams, s₀.streamId = s.streamId)
    ∨ (t.validateIncomingStreamId s.streamId).ok = true

namespace Streams

theorem validateIncomingStreamId_congr (hrole : t'.isClientInitiator = t.isClientInitiator)
    (htp : t'.localTP = t.localTP) (id : Nat) :
    t'.validateIncomingStreamId id = t.validateIncomingStreamId id := by
  simp only [validateIncomingStreamId, streamLimit, hrole, htp, Bool.false_eq_true, if_false]

theorem Evolves.validate (h : t.Evolves t') (id : Nat) :
    t'.validateIncomingStreamId id = t.validateIncomingStreamId id :=
  validateIncomingStreamId_congr h.role h.localTP id

theorem Evolves.refl (t : Streams) : t.Evolves t where
  role := rfl
  localTP := rfl
  slots := rfl
  incoming := ⟨[], (List.append_nil _).symm, fun _ h => (by cases h)⟩
  ids := fun s hs => .inl ⟨s, hs, rfl⟩

theorem Evolves.trans (h : t.Evolves t') (h' : t'.Evolves t'') : t.Evolves t'' where
  role := h'.role.trans h.role
  localTP := h'.localTP.trans h.localTP
  slots := h'.slots.trans h.slots
  incoming := by
    obtain ⟨new, hnew, hok⟩ := h.incoming
    obtain ⟨new', hnew', hok'⟩ := h'.incoming
    refine ⟨new ++ new', by rw [hnew', hnew, List.append_assoc], ?_⟩
    intro id hid
    cases List.mem_append.mp hid with
    | inl hold => exact hok id hold
    | inr hlate => exact h.validate id ▸ hok' id hlate
  ids := by
    intro s hs
    cases h'.ids s hs with
    | inl hmid =>
      obtain ⟨s₁, hs₁, hid⟩ := hmid
      rw [← hid]
      exact h.ids s₁ hs₁
    | inr hok => exact .inr (h.validate s.streamId ▸ hok)

theorem evolves_of_sublist {streams : List StreamImpl} {peerTP : TransportParams}
    (h : ∀ s ∈ streams, s ∈ t.streams) : t.Evolves { t with streams, peerTP } where
  role := rfl
  localTP := rfl
  slots := rfl
  incoming := ⟨[], (List.append_nil _).symm, fun _ h => (by cases h)⟩
  ids := fun s hs => .inl ⟨s, h s hs, rfl⟩

theorem evolves_collectClosedStreams (t : Streams) : t.Evolves t.collectClosedStreams :=
  evolves_of_sublist fun _ hs => List.mem_of_mem_filter hs

theorem evolves_store {s s' : StreamImpl} (hs : s ∈ t.streams)
    (hid : s'.streamId = s.streamId) : t.Evolves (t.store s') where
  role := rfl
  localTP := rfl
  slots := rfl
  incoming := ⟨[], (List.append_nil _).symm, fun _ h => (by cases h)⟩
  ids := by
    intro x hx
    cases mem_of_mem_put hx with
    | inl hnew => exact .inl ⟨s, hs, by rw [hnew, hid]⟩
    | inr hold => exact .inl ⟨x, hold, rfl⟩

theorem mem_of_find {id : Nat} {s : StreamImpl} (h : t.find id = some s) :
    s ∈ t.streams ∧ s.streamId = id :=
  lookup_eq_some h

/-- The stream `findOrOpen` answers with is in the table it answers with. -/
theorem findOrOpen_ok {id : Nat} {s : StreamImpl} (h : t.findOrOpen id = .ok (s, t')) :
    t.Evolves t' ∧ s ∈ t'.streams ∧ s.streamId = id := by
  unfold findOrOpen at h
  cases hfind : t.find id with
  | some s₀ =>
    simp only [hfind] at h
    cases h
    exact ⟨Evolves.refl t, mem_of_find hfind⟩
  | none =>
    simp only [hfind] at h
    split at h
    · cases h
    · next hok =>
      cases h
      have hvalid : (t.validateIncomingStreamId id).ok = true := by
        simpa using hok
      refine ⟨?_, mem_put_self _ _, rfl⟩
      refine ⟨rfl, rfl, rfl, ⟨[id], rfl, ?_⟩, ?_⟩
      · intro x hx
        rw [List.mem_singleton.mp hx]
        exact hvalid
      · intro x hx
        cases mem_of_mem_put hx with
        | inl hnew => exact .inr (hnew ▸ hvalid)
        | inr hold => exact .inl ⟨x, hold, rfl⟩

theorem evolves_ingestStreamFrame (t : Streams) (frame : FrameStream) :
    t.Evolves (t.ingestStreamFrame frame).2 := by
  unfold ingestStreamFrame
  cases hopen : t.findOrOpen frame.streamId with
  | error st => exact Evolves.refl t
  | ok r =>
    obtain ⟨s, t'⟩ := r
    obtain ⟨hev, hmem, -⟩ := findOrOpen_ok hopen
    have hstore : t'.Evolves (t'.store (s.onFrame frame).2) :=
      evolves_store hmem (StreamImpl.onFrame_streamId s frame)
    exact (hev.trans hstore).trans (evolves_collectClosedStreams _)

theorem evolves_handleResetStreamFrame (t : Streams) (id errorCode : Nat) :
    t.Evolves (t.handleResetStreamFrame id errorCode) := by
  unfold handleResetStreamFrame
  cases hopen : t.findOrOpen id with
  | error st => exact Evolves.refl t
  | ok r =>
    obtain ⟨s, t'⟩ := r
    obtain ⟨hev, hmem, -⟩ := findOrOpen_ok hopen
    exact hev.trans (evolves_store hmem (StreamImpl.onReset_streamId s errorCode true))

end Streams

-- ==== the frame loop

variable (conn : ConnectionImpl)

theorem abortConnection_table (st : Status) :
    (conn.abortConnection st).table = conn.table := by
  unfold ConnectionImpl.abortConnection
  split <;> rfl

theorem handlePathResponseFrame_table (data : List UInt8)
    (source : Address) : (conn.handlePathResponseFrame data source).table = conn.table := by
  unfold ConnectionImpl.handlePathResponseFrame
  split
  · rfl
  · cases decodePathResponse data with
    | none => rfl
    | some response =>
      simp only
      split <;> rfl

theorem evolves_onStream (l : FrameLoop) (data : List UInt8) :
    l.conn.table.Evolves (l.onStream data).conn.table := by
  unfold FrameLoop.onStream
  cases FrameStream.decode data with
  | none =>
    rw [abortConnection_table]
    exact .refl _
  | some frame =>
    have hingest := Streams.evolves_ingestStreamFrame l.conn.table frame
    simp only
    split
    · exact hingest
    · split
      · exact hingest
      · rw [abortConnection_table]
        exact hingest

theorem evolves_onFrame (l : FrameLoop) (frame : FrameType × List UInt8) :
    l.conn.table.Evolves (l.onFrame env a frame).conn.table := by
  obtain ⟨frameType, data⟩ := frame
  unfold FrameLoop.onFrame
  split
  · exact .refl _
  · cases frameType
    case stream => exact evolves_onStream l data
    case resetStream =>
      simp only
      cases decodeResetStream data with
      | none => exact .refl _
      | some r => exact Streams.evolves_handleResetStreamFrame ..
    case transportParams =>
      simp only
      cases decodeTransportParams data with
      | none => exact .refl _
      | some peerTP => exact Streams.evolves_of_sublist fun _ hs => hs
    case pathResponse =>
      simp only
      rw [handlePathResponseFrame_table]
      exact .refl _
    case crypto =>
      show l.conn.table.Evolves (l.onCrypto env data).conn.table
      unfold FrameLoop.onCrypto
      split
      · exact .refl _
      · exact .refl _
      · rw [abortConnection_table]
        exact .refl _
    all_goals exact .refl _

theorem evolves_run (frames : List (FrameType × List UInt8)) :
    ∀ l : FrameLoop, l.conn.table.Evolves (FrameLoop.run env a l frames).conn.table := by
  induction frames with
  | nil =>
    intro l
    exact .refl _
  | cons frame frames ih =>
    intro l
    rw [FrameLoop.run]
    split
    · exact .refl _
    · exact (evolves_onFrame l frame).trans (ih _)

theorem maybeSendPathChallenge_table (env : RecvEnv) :
    (conn.maybeSendPathChallenge env).table = conn.table := by
  unfold ConnectionImpl.maybeSendPathChallenge
  split <;> rfl

theorem arrive_table (env : RecvEnv) (source : Address) :
    (conn.arrive env source).1.table = conn.table := by
  unfold ConnectionImpl.arrive
  simp only
  split
  · split
    · rw [maybeSendPathChallenge_table]
    · rfl
  · rfl

theorem finish_table (packet : PacketIn) (a : Arrival) (l : FrameLoop) :
    (ConnectionImpl.finish packet a l).table = l.conn.table := by
  unfold ConnectionImpl.finish
  split
  · rfl
  · simp only
    split
    · split <;> rfl
    · split <;> rfl

/-- The frame loop after the frames `frames` of a packet. -/
def ConnectionImpl.loopOver (env : RecvEnv) (source : Address) (packet : PacketIn)
    (frames : List (FrameType × List UInt8)) : FrameLoop :=
  let r := { conn with peerConnectionID := packet.header.scid }.arrive env source
  if r.1.state = .ptoTimedWait || r.1.state = .disconnected then { conn := r.1 }
  else FrameLoop.run env r.2 { conn := r.1 } frames

/-- `loopOver` is what `onUdpPacket` does to the streams. -/
theorem onPacket_table (env : RecvEnv) (source : Address) (packet : PacketIn) :
    (conn.onPacket env source packet).1.table
      = (conn.loopOver env source packet packet.frames).conn.table := by
  unfold ConnectionImpl.onPacket ConnectionImpl.loopOver
  simp only
  split
  · rfl
  · exact finish_table ..

theorem evolves_loopOver (env : RecvEnv) (conn : ConnectionImpl) (source : Address)
    (packet : PacketIn) (frames : List (FrameType × List UInt8)) :
    conn.table.Evolves (conn.loopOver env source packet frames).conn.table := by
  have harrive := arrive_table { conn with peerConnectionID := packet.header.scid } env source
  unfold ConnectionImpl.loopOver
  simp only
  generalize { conn with peerConnectionID := packet.header.scid }.arrive env source = r
    at harrive ⊢
  replace harrive : r.1.table = conn.table := harrive
  rw [← harrive]
  split
  · exact .refl _
  · exact evolves_run frames { conn := r.1 }

theorem evolves_onPacket (env : RecvEnv) (source : Address) (packet : PacketIn) :
    conn.table.Evolves (conn.onPacket env source packet).1.table := by
  rw [onPacket_table]
  exact evolves_loopOver ..

theorem evolves_onUdpPacket (source : Address) (msg : List UInt8) :
    conn.table.Evolves (conn.onUdpPacket gcm env source msg).1.table := by
  unfold ConnectionImpl.onUdpPacket
  split
  · exact .refl _
  · split
    · exact .refl _
    · exact evolves_onPacket ..

theorem onPathValidationTimeout_table (env : RecvEnv) :
    (conn.onPathValidationTimeout env).table = conn.table := by
  unfold ConnectionImpl.onPathValidationTimeout
  simp only
  split
  · rfl
  · split
    · rw [maybeSendPathChallenge_table]
    · rfl

/-- The type of the stream the event asks for, if it does. -/
def ConnOp.creates : ConnOp → Option StreamType
  | .createStream streamType => some streamType
  | _ => none

theorem eq_createStream {op : ConnOp} (hop : op.creates = some ty) :
    op = .createStream ty := by
  cases op <;> simp [ConnOp.creates] at hop
  rw [hop]

theorem evolves_step (gcm : Gcm) {r : ConnRun} {op : ConnOp} (hop : op.creates = none) :
    r.conn.table.Evolves (r.step gcm op).conn.table
      ∧ (r.step gcm op).created = r.created := by
  cases op with
  | datagram env source msg => exact ⟨evolves_onUdpPacket r.conn source msg, rfl⟩
  | createStream streamType => cases hop
  | stream id op =>
    unfold ConnRun.step
    simp only
    cases hfind : r.conn.table.find id with
    | none => exact ⟨.refl _, rfl⟩
    | some s =>
      have hmem := (Streams.mem_of_find hfind).1
      exact ⟨Streams.evolves_store hmem (StreamImpl.step_streamId s op.toOp), rfl⟩
  | collectClosedStreams => exact ⟨Streams.evolves_collectClosedStreams _, rfl⟩
  | pathValidationTimeout env =>
    refine ⟨?_, rfl⟩
    show r.conn.table.Evolves (r.conn.onPathValidationTimeout env).table
    rw [onPathValidationTimeout_table]
    exact .refl _
  | close =>
    unfold ConnRun.step ConnectionImpl.close
    simp only
    split
    · exact ⟨.refl _, trivial⟩
    · exact ⟨.refl _, trivial⟩
  | enterPtoTimedWait =>
    unfold ConnRun.step ConnectionImpl.enterPtoTimedWait
    simp only
    split
    · exact ⟨.refl _, trivial⟩
    · exact ⟨.refl _, trivial⟩
  | closeDrainTimeout =>
    unfold ConnRun.step ConnectionImpl.onCloseDrainTimeout
    simp only
    split
    · exact ⟨.refl _, trivial⟩
    · exact ⟨.refl _, trivial⟩

-- ==== the creations

namespace Streams

/-- The limit on active streams lets another one in. -/
def HasRoom (t : Streams) (ty : StreamType) : Prop :=
  t.collectClosedStreams.activeLocalStreamCount ty < t.streamLimit ty true

instance (t : Streams) (ty : StreamType) : Decidable (t.HasRoom ty) :=
  inferInstanceAs (Decidable (_ < _))

/-- The slot of `ty` moved on by one id. -/
def bumped (t : Streams) (ty : StreamType) : Streams :=
  { t.collectClosedStreams with
    streamId := Function.update t.streamId (t.streamIdSlot ty)
      ((t.nextStreamId ty + STREAM_TYPES) % 2 ^ 32) }

/-- What `openLocal` does: it refuses and only collects, it finds the id
taken, or it opens the stream. -/
theorem openLocal_cases (t : Streams) (ty : StreamType) (limitReached exhausted : Status) :
    (¬ t.HasRoom ty
        ∧ t.openLocal ty limitReached exhausted
            = (.error limitReached, t.collectClosedStreams))
      ∨ (t.HasRoom ty ∧ (∃ s, t.collectClosedStreams.find (t.nextStreamId ty) = some s)
        ∧ t.openLocal ty limitReached exhausted = (.error exhausted, t.bumped ty))
      ∨ (t.HasRoom ty ∧ t.collectClosedStreams.find (t.nextStreamId ty) = none
        ∧ t.openLocal ty limitReached exhausted
            = (.ok (t.nextStreamId ty),
                (t.bumped ty).store { streamId := t.nextStreamId ty })) := by
  have hfind : (t.bumped ty).find (t.nextStreamId ty)
      = t.collectClosedStreams.find (t.nextStreamId ty) := rfl
  by_cases hroom : t.HasRoom ty
  · have hlimit : ¬ t.streamLimit ty true ≤ t.collectClosedStreams.activeLocalStreamCount ty :=
      Nat.not_le.mpr hroom
    cases hlook : t.collectClosedStreams.find (t.nextStreamId ty) with
    | some s =>
      rw [hlook] at hfind
      refine .inr (.inl ⟨hroom, ⟨s, rfl⟩, ?_⟩)
      unfold openLocal
      refine (if_neg hlimit).trans ?_
      simp only
      split
      · rfl
      · next hnone => cases hfind.symm.trans hnone
    | none =>
      rw [hlook] at hfind
      refine .inr (.inr ⟨hroom, rfl, ?_⟩)
      unfold openLocal
      refine (if_neg hlimit).trans ?_
      simp only
      split
      · next hsome => cases hfind.symm.trans hsome
      · rfl
  · refine .inl ⟨hroom, ?_⟩
    unfold openLocal
    exact if_pos (Nat.not_lt.mp hroom)

end Streams

/-- A call of `createStreamInternal` in this state gets to the streams. -/
def ConnectionImpl.MayCreate : Prop :=
  conn.state = .connected ∨ (conn.state = .initialSent ∧ conn.zeroRttEnabled = true)

instance (conn : ConnectionImpl) : Decidable conn.MayCreate :=
  inferInstanceAs (Decidable (_ ∨ _))

/-- What a creation does to a run. -/
inductive ConnRun.Creation (r : ConnRun) (ty : StreamType) (r' : ConnRun) : Prop where
  | refused (hno : ¬ (r.conn.MayCreate ∧ r.conn.table.HasRoom ty))
      (hcreated : r'.created = r.created)
      (htable : r'.conn.table = r.conn.table
        ∨ r'.conn.table = r.conn.table.collectClosedStreams)
      (hres : ∀ id, (r.conn.createStreamInternal ty).1 ≠ .ok id)
  | taken (hmay : r.conn.MayCreate) (hroom : r.conn.table.HasRoom ty)
      (hfind : ∃ s, r.conn.table.collectClosedStreams.find (r.conn.table.nextStreamId ty) = some s)
      (hcreated : r'.created = r.created)
      (htable : r'.conn.table = r.conn.table.bumped ty)
      (hres : ∀ id, (r.conn.createStreamInternal ty).1 ≠ .ok id)
  | opened (hmay : r.conn.MayCreate) (hroom : r.conn.table.HasRoom ty)
      (hfind : r.conn.table.collectClosedStreams.find (r.conn.table.nextStreamId ty) = none)
      (hcreated : r'.created = r.created ++ [r.conn.table.nextStreamId ty])
      (htable : r'.conn.table
        = (r.conn.table.bumped ty).store { streamId := r.conn.table.nextStreamId ty })
      (hres : (r.conn.createStreamInternal ty).1 = .ok (r.conn.table.nextStreamId ty))

theorem creation_step (gcm : Gcm) (r : ConnRun) (ty : StreamType) :
    r.Creation ty (r.step gcm (.createStream ty)) := by
  by_cases hmay : r.conn.MayCreate
  · have hguard : ¬ ((r.conn.state ≠ .connected
        && !(r.conn.state = .initialSent && r.conn.zeroRttEnabled)) = true) := by
      cases hmay with
      | inl h => simp [h]
      | inr h => simp [h.1, h.2]
    have hcreate : r.conn.createStreamInternal ty
        = ((r.conn.table.openLocal ty
              (r.conn.createStreamError .streamLimitError " stream limit reached for type "
                ty.value)
              (r.conn.createStreamError .streamIdExhausted " stream id exhausted: "
                (r.conn.table.nextStreamId ty))).1,
            { r.conn with table := (r.conn.table.openLocal ty
              (r.conn.createStreamError .streamLimitError " stream limit reached for type "
                ty.value)
              (r.conn.createStreamError .streamIdExhausted " stream id exhausted: "
                (r.conn.table.nextStreamId ty))).2 }) := by
      unfold ConnectionImpl.createStreamInternal
      simp only
      rw [if_neg (by simpa using hguard)]
      rfl
    obtain ⟨hroom, hopen⟩ | ⟨hroom, hfind, hopen⟩ | ⟨hroom, hfind, hopen⟩ :=
      r.conn.table.openLocal_cases ty
        (r.conn.createStreamError .streamLimitError " stream limit reached for type " ty.value)
        (r.conn.createStreamError .streamIdExhausted " stream id exhausted: "
          (r.conn.table.nextStreamId ty))
    · rw [hopen] at hcreate
      refine .refused (fun h => hroom h.2) ?_ (.inr ?_) ?_
      · simp only [ConnRun.step, hcreate]
      · simp only [ConnRun.step, hcreate]
      · intro id
        rw [hcreate]
        simp
    · rw [hopen] at hcreate
      refine .taken hmay hroom hfind ?_ ?_ ?_
      · simp only [ConnRun.step, hcreate]
      · simp only [ConnRun.step, hcreate]
      · intro id
        rw [hcreate]
        simp
    · rw [hopen] at hcreate
      refine .opened hmay hroom hfind ?_ ?_ ?_
      · simp only [ConnRun.step, hcreate]
      · simp only [ConnRun.step, hcreate]
      · rw [hcreate]
  · have hguard : (r.conn.state ≠ .connected
        && !(r.conn.state = .initialSent && r.conn.zeroRttEnabled)) = true := by
      unfold ConnectionImpl.MayCreate at hmay
      simp only [not_or, not_and] at hmay
      cases hzero : r.conn.zeroRttEnabled <;> simp_all
    have hcreate : r.conn.createStreamInternal ty
        = (.error (r.conn.createStreamError .invalidState " cannot create stream in state "
            r.conn.state.value), r.conn) := by
      unfold ConnectionImpl.createStreamInternal
      simp only
      rw [if_pos (by simpa using hguard)]
    refine .refused (fun h => hmay h.1) ?_ (.inl ?_) ?_
    · simp only [ConnRun.step, hcreate]
    · simp only [ConnRun.step, hcreate]
    · intro id
      rw [hcreate]
      simp

-- ==== every run

/-- The streams of a connection that has just been set up. -/
structure Streams.New (t : Streams) : Prop where
  streams : t.streams = []
  slots : ∀ slot, t.streamId slot = 0
  incoming : t.incoming = []

/-- What holds of the ids in every run. -/
structure IdsInv (r : ConnRun) : Prop where
  slots : ∀ ty, r.conn.table.streamId (r.conn.table.streamIdSlot ty) = 0
    ∨ r.conn.table.streamId (r.conn.table.streamIdSlot ty) % 4 = r.conn.table.streamIdSlot ty
  created : ∀ id ∈ r.created,
    isLocalInitiatedStream id r.conn.table.isClientInitiator = true
  incoming : ∀ id ∈ r.conn.table.incoming,
    (r.conn.table.validateIncomingStreamId id).ok = true

theorem idsInv_new {conn : ConnectionImpl} (h : conn.table.New) : IdsInv { conn } where
  slots := fun _ => .inl (h.slots _)
  created := fun _ hid => (by cases hid)
  incoming := fun _ hid => by
    have hid' : _ ∈ conn.table.incoming := hid
    rw [h.incoming] at hid'
    cases hid'

theorem nextStreamId_mod
    (h : t.streamId (t.streamIdSlot ty) = 0
      ∨ t.streamId (t.streamIdSlot ty) % 4 = t.streamIdSlot ty) :
    t.nextStreamId ty % 4 = t.streamIdSlot ty := by
  unfold Streams.nextStreamId
  simp only
  split
  · unfold Streams.streamIdSlot
    cases t.isClientInitiator <;> cases ty <;> rfl
  · next hne => exact h.resolve_left hne

theorem isLocalInitiatedStream_of_mod {id : Nat}
    (h : id % 4 = t.streamIdSlot ty) :
    isLocalInitiatedStream id t.isClientInitiator = true := by
  unfold Streams.streamIdSlot at h
  unfold isLocalInitiatedStream streamIdIsClient streamIdIsServer
  cases hrole : t.isClientInitiator with
  | false =>
    simp only [hrole, Bool.false_eq_true, if_false] at h ⊢
    cases ty <;> simp at h ⊢ <;> omega
  | true =>
    simp only [hrole, if_true] at h ⊢
    cases ty <;> simp at h ⊢ <;> omega

theorem IdsInv.evolves {r r' : ConnRun} (h : IdsInv r)
    (hev : r.conn.table.Evolves r'.conn.table) (hcreated : r'.created = r.created) :
    IdsInv r' where
  slots := by
    intro ty
    have hslot : r'.conn.table.streamIdSlot ty = r.conn.table.streamIdSlot ty := by
      unfold Streams.streamIdSlot
      rw [hev.role]
    rw [hslot, hev.slots]
    exact h.slots ty
  created := by
    rw [hcreated, hev.role]
    exact h.created
  incoming := by
    obtain ⟨new, hnew, hok⟩ := hev.incoming
    intro id hid
    rw [hev.validate]
    rw [hnew] at hid
    cases List.mem_append.mp hid with
    | inl hold => exact h.incoming id hold
    | inr hlate => exact hok id hlate

theorem IdsInv.slots_bumped {r : ConnRun} (h : IdsInv r) (ty ty' : StreamType) :
    (r.conn.table.bumped ty).streamId (r.conn.table.streamIdSlot ty') = 0
      ∨ (r.conn.table.bumped ty).streamId (r.conn.table.streamIdSlot ty') % 4
          = r.conn.table.streamIdSlot ty' := by
  have hnext := nextStreamId_mod (h.slots ty)
  show Function.update r.conn.table.streamId (r.conn.table.streamIdSlot ty) _ _ = 0
    ∨ Function.update r.conn.table.streamId (r.conn.table.streamIdSlot ty) _ _ % 4 = _
  by_cases hslot : r.conn.table.streamIdSlot ty' = r.conn.table.streamIdSlot ty
  · rw [hslot, Function.update_self]
    refine .inr ?_
    rw [STREAM_TYPES]
    omega
  · rw [Function.update_of_ne hslot]
    exact h.slots ty'

theorem idsInv_step (r : ConnRun) (op : ConnOp) (h : IdsInv r) : IdsInv (r.step gcm op) := by
  cases hop : op.creates with
  | none =>
    obtain ⟨hev, hcreated⟩ := evolves_step gcm (r := r) hop
    exact h.evolves hev hcreated
  | some ty =>
    rw [eq_createStream hop]
    cases creation_step gcm r ty with
    | refused hno hcreated htable hres =>
      refine h.evolves ?_ hcreated
      cases htable with
      | inl hsame =>
        rw [hsame]
        exact .refl _
      | inr hcollect =>
        rw [hcollect]
        exact Streams.evolves_collectClosedStreams _
    | taken hmay hroom hfind hcreated htable hres =>
      refine ⟨?_, ?_, ?_⟩
      · intro ty'
        rw [htable]
        exact h.slots_bumped ty ty'
      · rw [hcreated, htable]
        exact h.created
      · rw [htable]
        exact h.incoming
    | opened hmay hroom hfind hcreated htable hres =>
      refine ⟨?_, ?_, ?_⟩
      · intro ty'
        rw [htable]
        exact h.slots_bumped ty ty'
      · rw [hcreated, htable]
        intro id hid
        cases List.mem_append.mp hid with
        | inl hold => exact h.created id hold
        | inr hnew =>
          rw [List.mem_singleton.mp hnew]
          exact isLocalInitiatedStream_of_mod (nextStreamId_mod (h.slots ty))
      · rw [htable]
        exact h.incoming

theorem ids_of_run (gcm : Gcm) {conn : ConnectionImpl} (hnew : conn.table.New) (ops : List ConnOp) :
    IdsInv (run (ConnRun.step gcm) { conn } ops) :=
  run_inv_of_step (fun r op h => idsInv_step r op h) ops (idsInv_new hnew)

theorem role_of_run (gcm : Gcm) (conn : ConnectionImpl) (ops : List ConnOp) :
    (run (ConnRun.step gcm) { conn } ops).conn.table.isClientInitiator
      = conn.table.isClientInitiator := by
  refine run_inv_of_step
    (P := fun r : ConnRun => r.conn.table.isClientInitiator = conn.table.isClientInitiator)
    ?_ ops rfl
  intro r op h
  cases hop : op.creates with
  | none => exact (evolves_step gcm hop).1.role.trans h
  | some ty =>
    rw [eq_createStream hop]
    cases creation_step gcm r ty with
    | refused hno hcreated htable hres =>
      cases htable with
      | inl hsame => rw [hsame, h]
      | inr hcollect =>
        rw [hcollect]
        exact h
    | taken hmay hroom hfind hcreated htable hres =>
      rw [htable]
      exact h
    | opened hmay hroom hfind hcreated htable hres =>
      rw [htable]
      exact h

end Eular.Utp
