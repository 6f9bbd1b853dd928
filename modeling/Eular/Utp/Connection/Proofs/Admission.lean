/-
Which created streams the peer lets in.

The side that creates streams limits how many of them are active; the
side that accepts them limits the ordinal in the id. Ids are never handed
out twice, so once streams have been closed and others created in their
place the ordinals pass the limit while the active streams do not.

`admitted_iff`: every id a run returns is new, carries the bits of its
creator and is accepted by the peer, exactly when each stream is created
while fewer ids of its type have been handed out than the peer allows.
-/
import Eular.Utp.Connection.Proofs.LateFrame

namespace Eular.Utp

open Lib

variable {gcm : Gcm} {peer : Streams} {r : ConnRun} {ty : StreamType}
variable {r' : ConnRun}

/-- How many ids of the type have been handed out. -/
def ConnRun.handedOut (r : ConnRun) (ty : StreamType) : Nat :=
  r.created.countP fun id => streamTypeFromStreamId id = ty

/-- The id is new, carries the role and the direction of its creator, and
the peer accepts it. -/
structure Admitted (peer : Streams) (r : ConnRun) (ty : StreamType) (id : Nat) : Prop where
  new : id ∉ r.created
  role : isLocalInitiatedStream id r.conn.table.isClientInitiator = true
  direction : streamTypeFromStreamId id = ty
  accepted : (peer.validateIncomingStreamId id).ok = true

/-- What `createStreamInternal` returns, if it returns an id, is admitted. -/
def Admits (peer : Streams) (r : ConnRun) : ConnOp → Prop
  | .createStream ty =>
    ∀ id, (r.conn.createStreamInternal ty).1 = .ok id → Admitted peer r ty id
  | _ => True

/-- A stream that may be created is created while fewer ids of its type
have been handed out than the peer allows. -/
def WithinLimit (peer : Streams) (r : ConnRun) : ConnOp → Prop
  | .createStream ty =>
    r.conn.MayCreate → r.conn.table.HasRoom ty → r.handedOut ty < peer.streamLimit ty false
  | _ => True

/-- Where the two sides stand as long as the limit was kept. -/
structure AdmissionInv (peer : Streams) (r : ConnRun) : Prop where
  role : peer.isClientInitiator = !r.conn.table.isClientInitiator
  slots : ∀ ty, r.conn.table.streamId (r.conn.table.streamIdSlot ty)
    = if r.handedOut ty = 0 then 0 else r.conn.table.streamIdSlot ty + 4 * r.handedOut ty
  created : ∀ id ∈ r.created,
    id < r.conn.table.streamIdSlot (streamTypeFromStreamId id)
      + 4 * r.handedOut (streamTypeFromStreamId id)
  live : ∀ s ∈ r.conn.table.streams,
    isLocalInitiatedStream s.streamId r.conn.table.isClientInitiator = true →
      s.streamId ∈ r.created
  bounded : ∀ ty, r.handedOut ty ≤ peer.streamLimit ty false

-- ==== slots

theorem streamIdSlot_lt (t : Streams) (ty : StreamType) : t.streamIdSlot ty < 4 := by
  unfold Streams.streamIdSlot
  cases t.isClientInitiator <;> cases ty <;> decide

theorem streamTypeFromStreamId_of_mod {t : Streams} {id : Nat}
    (h : id % 4 = t.streamIdSlot ty) : streamTypeFromStreamId id = ty := by
  have hbit : id / 2 % 2 = id % 4 / 2 := by omega
  unfold streamTypeFromStreamId
  rw [hbit, h]
  unfold Streams.streamIdSlot
  cases t.isClientInitiator <;> cases ty <;> decide

theorem streamIdSlot_injective (t : Streams) {ty ty' : StreamType}
    (h : t.streamIdSlot ty' = t.streamIdSlot ty) : ty' = ty := by
  unfold Streams.streamIdSlot at h
  cases hrole : t.isClientInitiator <;> cases ty <;> cases ty' <;> simp [hrole] at h ⊢

namespace AdmissionInv

theorem nextStreamId_eq (h : AdmissionInv peer r) (ty : StreamType) :
    r.conn.table.nextStreamId ty = r.conn.table.streamIdSlot ty + 4 * r.handedOut ty := by
  unfold Streams.nextStreamId
  simp only [h.slots ty]
  by_cases hzero : r.handedOut ty = 0
  · rw [if_pos hzero, if_pos rfl, hzero]
    unfold Streams.streamIdSlot
    cases r.conn.table.isClientInitiator <;> cases ty <;> rfl
  · rw [if_neg hzero, if_neg (by omega)]

theorem nextStreamId_mod (h : AdmissionInv peer r) (ty : StreamType) :
    r.conn.table.nextStreamId ty % 4 = r.conn.table.streamIdSlot ty := by
  have hlt := streamIdSlot_lt r.conn.table ty
  rw [h.nextStreamId_eq]
  omega

theorem nextStreamId_new (h : AdmissionInv peer r) (ty : StreamType) :
    r.conn.table.nextStreamId ty ∉ r.created := by
  intro hmem
  have hlt := h.created _ hmem
  rw [streamTypeFromStreamId_of_mod (h.nextStreamId_mod ty), ← h.nextStreamId_eq] at hlt
  exact Nat.lt_irrefl _ hlt

theorem accepted_iff (h : AdmissionInv peer r) (ty : StreamType) :
    (peer.validateIncomingStreamId (r.conn.table.nextStreamId ty)).ok = true
      ↔ r.handedOut ty < peer.streamLimit ty false := by
  have hlocal : isLocalInitiatedStream (r.conn.table.nextStreamId ty)
      (!peer.isClientInitiator) = true := by
    rw [h.role, Bool.not_not]
    exact isLocalInitiatedStream_of_mod (h.nextStreamId_mod ty)
  have hordinal : r.conn.table.nextStreamId ty / STREAM_TYPES + 1 = r.handedOut ty + 1 := by
    have hlt := streamIdSlot_lt r.conn.table ty
    rw [h.nextStreamId_eq, STREAM_TYPES]
    omega
  unfold Streams.validateIncomingStreamId
  rw [if_neg (by rw [hlocal]; decide), streamTypeFromStreamId_of_mod (h.nextStreamId_mod ty),
    hordinal]
  split
  · next hover => exact iff_of_false (by decide) (by omega)
  · next hunder => exact iff_of_true rfl (by omega)

theorem find_nextStreamId (h : AdmissionInv peer r) (ty : StreamType) :
    r.conn.table.collectClosedStreams.find (r.conn.table.nextStreamId ty) = none := by
  cases hfind : r.conn.table.collectClosedStreams.find (r.conn.table.nextStreamId ty) with
  | none => rfl
  | some s =>
    obtain ⟨hmem, hid⟩ := Streams.mem_of_find hfind
    have hlocal : isLocalInitiatedStream s.streamId r.conn.table.isClientInitiator = true := by
      rw [hid]
      exact isLocalInitiatedStream_of_mod (h.nextStreamId_mod ty)
    have hcreated := h.live s (List.mem_of_mem_filter hmem) hlocal
    rw [hid] at hcreated
    exact absurd hcreated (h.nextStreamId_new ty)

end AdmissionInv

-- ==== steps

theorem admissionInv_new {conn : ConnectionImpl} (hnew : conn.table.New)
    (hrole : peer.isClientInitiator = !conn.table.isClientInitiator) :
    AdmissionInv peer { conn } where
  role := hrole
  slots := fun _ => hnew.slots _
  created := fun _ hid => (by cases hid)
  live := fun _ hs => by
    have hs' : _ ∈ conn.table.streams := hs
    rw [hnew.streams] at hs'
    cases hs'
  bounded := fun _ => Nat.zero_le _

theorem not_local_of_validate {t : Streams} {id : Nat}
    (hvalid : (t.validateIncomingStreamId id).ok = true) :
    ¬ isLocalInitiatedStream id t.isClientInitiator = true := by
  intro hlocal
  rw [validateIncomingStreamId_local hlocal] at hvalid
  cases hvalid

theorem AdmissionInv.evolves (h : AdmissionInv peer r)
    (hev : r.conn.table.Evolves r'.conn.table) (hcreated : r'.created = r.created) :
    AdmissionInv peer r' := by
  have hslot : ∀ ty, r'.conn.table.streamIdSlot ty = r.conn.table.streamIdSlot ty := by
    intro ty
    unfold Streams.streamIdSlot
    rw [hev.role]
  have hcount : ∀ ty, r'.handedOut ty = r.handedOut ty := by
    intro ty
    unfold ConnRun.handedOut
    rw [hcreated]
  refine ⟨?_, ?_, ?_, ?_, ?_⟩
  · rw [hev.role]
    exact h.role
  · intro ty
    rw [hslot, hev.slots, hcount]
    exact h.slots ty
  · intro id hid
    rw [hslot, hcount]
    exact h.created id (hcreated ▸ hid)
  · intro s hs hlocal
    rw [hev.role] at hlocal
    rw [hcreated]
    cases hev.ids s hs with
    | inl hold =>
      obtain ⟨s₀, hs₀, hid⟩ := hold
      rw [← hid] at hlocal ⊢
      exact h.live s₀ hs₀ hlocal
    | inr hvalid => exact absurd hlocal (not_local_of_validate hvalid)
  · intro ty
    rw [hcount]
    exact h.bounded ty

theorem handedOut_append {id : Nat} (hcreated : r'.created = r.created ++ [id])
    (ty : StreamType) :
    r'.handedOut ty = r.handedOut ty + if streamTypeFromStreamId id = ty then 1 else 0 := by
  unfold ConnRun.handedOut
  rw [hcreated, List.countP_append, List.countP_singleton]
  simp only [decide_eq_true_eq]

theorem AdmissionInv.opened (h : AdmissionInv peer r)
    (hsmall : peer.streamLimit ty false < 2 ^ 16)
    (hlimit : r.handedOut ty < peer.streamLimit ty false)
    (hcreated : r'.created = r.created ++ [r.conn.table.nextStreamId ty])
    (htable : r'.conn.table
      = (r.conn.table.bumped ty).store { streamId := r.conn.table.nextStreamId ty }) :
    AdmissionInv peer r' := by
  have hdir := streamTypeFromStreamId_of_mod (h.nextStreamId_mod ty)
  have hcount := handedOut_append hcreated
  rw [hdir] at hcount
  have hslot : ∀ ty', r'.conn.table.streamIdSlot ty' = r.conn.table.streamIdSlot ty' := by
    intro ty'
    rw [htable]
    rfl
  have hnext := h.nextStreamId_eq ty
  have hlt := streamIdSlot_lt r.conn.table ty
  refine ⟨?_, ?_, ?_, ?_, ?_⟩
  · rw [htable]
    exact h.role
  · intro ty'
    rw [hslot, hcount, htable]
    show Function.update r.conn.table.streamId (r.conn.table.streamIdSlot ty) _
      (r.conn.table.streamIdSlot ty') = _
    by_cases hty : ty = ty'
    · subst hty
      rw [Function.update_self, if_pos rfl, if_neg (by omega), hnext, STREAM_TYPES]
      have hnowrap : r.conn.table.streamIdSlot ty + 4 * r.handedOut ty + 4 < 2 ^ 32 := by omega
      rw [Nat.mod_eq_of_lt hnowrap]
      omega
    · rw [Function.update_of_ne fun heq => hty (streamIdSlot_injective _ heq).symm,
        if_neg hty, Nat.add_zero]
      exact h.slots ty'
  · intro id hid
    rw [hslot, hcount]
    rw [hcreated] at hid
    cases List.mem_append.mp hid with
    | inl hold =>
      have hbelow := h.created id hold
      omega
    | inr hself =>
      rw [List.mem_singleton.mp hself, hdir, if_pos rfl]
      omega
  · intro s hs hlocal
    rw [htable] at hs hlocal
    rw [hcreated]
    cases mem_of_mem_put hs with
    | inl hself =>
      rw [hself]
      exact List.mem_append_right _ (List.mem_singleton_self _)
    | inr hold =>
      exact List.mem_append_left _ (h.live s (List.mem_of_mem_filter hold) hlocal)
  · intro ty'
    rw [hcount]
    split
    · next hty =>
      subst hty
      omega
    · exact h.bounded ty'

theorem admits_iff_withinLimit (gcm : Gcm) (op : ConnOp) (h : AdmissionInv peer r) :
    Admits peer r op ↔ WithinLimit peer r op := by
  cases op with
  | createStream ty =>
    cases creation_step gcm r ty with
    | refused hno hcreated htable hres =>
      refine iff_of_true ?_ ?_
      · intro id hid
        exact absurd hid (hres id)
      · intro hmay hroom
        exact absurd ⟨hmay, hroom⟩ hno
    | taken hmay hroom hfind hcreated htable hres =>
      obtain ⟨s, hs⟩ := hfind
      rw [h.find_nextStreamId ty] at hs
      cases hs
    | opened hmay hroom hfind hcreated htable hres =>
      constructor
      · intro hadmits _ _
        exact (h.accepted_iff ty).mp (hadmits _ hres).accepted
      · intro hwithin id hid
        rw [hres] at hid
        cases hid
        exact
          { new := h.nextStreamId_new ty
            role := isLocalInitiatedStream_of_mod (h.nextStreamId_mod ty)
            direction := streamTypeFromStreamId_of_mod (h.nextStreamId_mod ty)
            accepted := (h.accepted_iff ty).mpr (hwithin hmay hroom) }
  | _ => exact Iff.rfl

theorem admissionInv_step (hsmall : ∀ ty, peer.streamLimit ty false < 2 ^ 16) (op : ConnOp)
    (h : AdmissionInv peer r) (hwithin : WithinLimit peer r op) :
    AdmissionInv peer (r.step gcm op) := by
  cases hop : op.creates with
  | none =>
    obtain ⟨hev, hcreated⟩ := evolves_step gcm (r := r) hop
    exact h.evolves hev hcreated
  | some ty =>
    rw [eq_createStream hop] at hwithin ⊢
    cases creation_step gcm r ty with
    | refused hno hcreated htable hres =>
      refine h.evolves ?_ hcreated
      cases htable with
      | inl hsame =>
        rw [hsame]
        exact .refl _
      | inr hcollect =>
        rw [hcollect]
        exact Streams.evolves_collectClosedStreams _
    | taken hmay hroom hfind hcreated htable hres =>
      obtain ⟨s, hs⟩ := hfind
      rw [h.find_nextStreamId ty] at hs
      cases hs
    | opened hmay hroom hfind hcreated htable hres =>
      exact h.opened (hsmall ty) (hwithin hmay hroom) hcreated htable

-- ==== runs

theorem streamLimit_lt {n : Nat} (hn : 1 < n) (hbidi : peer.localTP.initMaxStreamsBidi < n)
    (huni : peer.localTP.initMaxStreamsUni < n) (ty : StreamType) :
    peer.streamLimit ty false < n := by
  unfold Streams.streamLimit
  cases ty with
  | bidirectional => exact max_lt hn hbidi
  | unidirectional => exact max_lt hn huni

/-- Every id a run returns is new, carries its creator's bits and is
accepted by the peer, if and only if no stream is created once as many ids
of its type have been handed out as the peer allows. The limits of the
peer are 16-bit numbers. -/
theorem admitted_iff {conn : ConnectionImpl} {ops : List ConnOp} (hnew : conn.table.New)
    (hrole : peer.isClientInitiator = !conn.table.isClientInitiator)
    (hbidi : peer.localTP.initMaxStreamsBidi < 2 ^ 16)
    (huni : peer.localTP.initMaxStreamsUni < 2 ^ 16) :
    Meets (ConnRun.step gcm) (Admits peer) { conn } ops
      ↔ Meets (ConnRun.step gcm) (WithinLimit peer) { conn } ops := by
  have hsmall := streamLimit_lt (by norm_num) hbidi huni
  exact meets_congr (P := AdmissionInv peer)
    (fun r op h => admits_iff_withinLimit gcm op h)
    (fun r op h hwithin => admissionInv_step hsmall op h hwithin)
    (admissionInv_new hnew hrole)

-- ==== instances

/-- A server that lets the peer open two streams of each direction, and the
client's view of it. -/
def narrowParams : TransportParams := { initMaxStreamsBidi := 2, initMaxStreamsUni := 2 }

def narrowServer : Streams :=
  { isClientInitiator := false, localTP := narrowParams, peerTP := {} }

def narrowClient : ConnectionImpl where
  state := .connected
  localConnectionID := 0x2002
  peerConnectionID := 0x1001
  peerAddress := .ip 11 4433
  table := { isClientInitiator := true, localTP := {}, peerTP := narrowParams }

/-- Two streams, the first one reset in between. -/
theorem admitted_two_streams :
    Meets (ConnRun.step unusedGcm) (Admits narrowServer) { conn := narrowClient }
      [.createStream .bidirectional, .stream 0 (.reset .success),
        .createStream .bidirectional] := by
  refine (admitted_iff ⟨rfl, fun _ => rfl, rfl⟩ rfl (by decide) (by decide)).mpr ?_
  refine ⟨fun _ _ => by decide, trivial, fun _ _ => by decide, trivial⟩

/-- A third one, when the second was reset too: the client has one active
stream, and the server refuses its id. -/
theorem not_admitted_third_stream :
    ¬ Meets (ConnRun.step unusedGcm) (Admits narrowServer) { conn := narrowClient }
      [.createStream .bidirectional, .stream 0 (.reset .success),
        .createStream .bidirectional, .stream 4 (.reset .success),
        .createStream .bidirectional] := by
  intro h
  have hthird := h.2.2.2.2.1 8 (by decide)
  exact absurd hthird.accepted (by decide)

end Eular.Utp
