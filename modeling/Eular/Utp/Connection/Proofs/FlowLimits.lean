/-
Which limits are learned from whom.

A side takes the limits it sends under from the parameters of the
handshake and from the MAX_DATA and MAX_STREAM_DATA frames that reach it,
and from nothing else (`Learned`). Since a frame that arrives was sent,
the limit of a stream is never above what the other side has advertised
for it, in any run (`streamLimitsKept_of_run`). The connection limit is
not either, once there is one; the server has none before its first
MAX_DATA frame (`connectionLimitsKept_iff`).
-/
import Eular.Utp.Connection.Link
import Eular.Utp.Connection.Proofs.StreamTable

namespace Eular.Utp

open Lib

variable {c c' c'' : FlowConn} {tp : TransportParams} {sent : List FlowFrame} {env : FlowEnv}

-- ==== what is kept

/-- The limits a side sends under are the same. -/
structure FlowConn.SameLimits (c c' : FlowConn) : Prop where
  params : c'.table.peerTP = c.table.peerTP
  streams : c'.peerMaxStreamData = c.peerMaxStreamData
  data : c'.peerMaxData = c.peerMaxData

namespace FlowConn.SameLimits

theorem refl (c : FlowConn) : c.SameLimits c := ⟨rfl, rfl, rfl⟩

theorem trans (h : c.SameLimits c') (h' : c'.SameLimits c'') : c.SameLimits c'' :=
  ⟨h'.params.trans h.params, h'.streams.trans h.streams, h'.data.trans h.data⟩

end FlowConn.SameLimits

-- The peer's parameters are in the table; nothing done to the streams
-- touches them.

theorem findOrOpen_peerTP {t t' : Streams} {id : Nat} {s : StreamImpl}
    (h : t.findOrOpen id = .ok (s, t')) : t'.peerTP = t.peerTP := by
  unfold Streams.findOrOpen at h
  cases hfind : t.find id with
  | some s₀ =>
    simp only [hfind] at h
    cases h
    rfl
  | none =>
    simp only [hfind] at h
    split at h
    · cases h
    · cases h
      rfl

theorem ingestStreamFrame_peerTP (t : Streams) (frame : FrameStream) :
    (t.ingestStreamFrame frame).2.peerTP = t.peerTP := by
  unfold Streams.ingestStreamFrame
  cases hopen : t.findOrOpen frame.streamId with
  | error st => rfl
  | ok r =>
    obtain ⟨s, t'⟩ := r
    show t'.peerTP = t.peerTP
    exact findOrOpen_peerTP hopen

theorem openLocal_peerTP (t : Streams) (ty : StreamType) (limitReached exhausted : Status) :
    (t.openLocal ty limitReached exhausted).2.peerTP = t.peerTP := by
  obtain ⟨-, hopen⟩ | ⟨-, -, hopen⟩ | ⟨-, -, hopen⟩ :=
    t.openLocal_cases ty limitReached exhausted
  · rw [hopen]
    rfl
  · rw [hopen]
    rfl
  · rw [hopen]
    rfl

namespace FlowConn

theorem sameLimits_ensure (c : FlowConn) (id : Nat) :
    c.SameLimits (c.ensureFlowControlAdvertised id) := by
  unfold ensureFlowControlAdvertised
  split
  · exact .refl c
  · split
    · exact .refl c
    · exact ⟨rfl, rfl, rfl⟩

theorem sameLimits_onStreamDataSent (c : FlowConn) (id streamOffset len : Nat) :
    c.SameLimits (c.onStreamDataSent id streamOffset len) := by
  unfold onStreamDataSent
  simp only
  split
  · exact ⟨rfl, rfl, rfl⟩
  · exact .refl c

theorem sameLimits_dataBlocked (c : FlowConn) (env : FlowEnv) :
    c.SameLimits (c.dataBlocked env).1 := by
  unfold dataBlocked
  simp only
  split
  · exact ⟨rfl, rfl, rfl⟩
  · exact .refl c

theorem sameLimits_streamDataBlocked (c : FlowConn) (env : FlowEnv) (id : Nat) :
    c.SameLimits (c.streamDataBlocked env id).1 := by
  unfold streamDataBlocked
  simp only
  split
  · exact ⟨rfl, rfl, rfl⟩
  · exact .refl c

theorem sameLimits_sendStreamFrame (c : FlowConn) (env : FlowEnv) (frame : FrameStream) :
    c.SameLimits (c.sendStreamFrame env frame).2.1 := by
  unfold sendStreamFrame
  simp only
  split
  · exact .refl c
  · split
    · exact .refl c
    · have hensure : c.SameLimits
          (if 0 < frame.streamData.length then c.ensureFlowControlAdvertised frame.streamId
            else c) := by
        split
        · exact sameLimits_ensure c frame.streamId
        · exact .refl c
      generalize (if 0 < frame.streamData.length then
        c.ensureFlowControlAdvertised frame.streamId else c) = c₁ at hensure ⊢
      split
      · exact hensure
      · split
        · exact hensure.trans (sameLimits_dataBlocked c₁ env)
        · split
          · exact hensure.trans (sameLimits_streamDataBlocked c₁ env frame.streamId)
          · split
            · exact hensure.trans (sameLimits_onStreamDataSent c₁ ..)
            · exact hensure

theorem sameLimits_flush (c : FlowConn) (env : FlowEnv) (id : Nat) (data : List UInt8)
    (fin : Bool) : c.SameLimits (c.flush env id data fin).1 := by
  unfold flush
  cases c.table.find id with
  | none => exact .refl c
  | some s =>
    simp only
    generalize (fin && s.localFinQueued && !s.localFinSent) = frameFin
    split
    · exact .refl c
    · have hsend := sameLimits_sendStreamFrame c env
        { streamFlag := if frameFin then 1 else 0
          streamId := id
          streamOffset := c.nextSendOffset id
          streamData := data }
      generalize c.sendStreamFrame env _ = r at hsend ⊢
      obtain ⟨st, c₁, frames⟩ := r
      by_cases hok : st.ok = true
      · rw [if_pos hok]
        refine hsend.trans ⟨?_, rfl, rfl⟩
        cases frameFin <;> rfl
      · rw [if_neg hok]
        exact hsend

theorem sameLimits_sendMaxDataFrame (c : FlowConn) (env : FlowEnv) (maximumData : Nat) :
    c.SameLimits (c.sendMaxDataFrame env maximumData).2.1 := by
  unfold sendMaxDataFrame
  simp only
  split
  · exact ⟨rfl, rfl, rfl⟩
  · exact .refl c

theorem sameLimits_sendMaxStreamDataFrame (c : FlowConn) (env : FlowEnv)
    (id maximumStreamData : Nat) :
    c.SameLimits (c.sendMaxStreamDataFrame env id maximumStreamData).2.1 := by
  unfold sendMaxStreamDataFrame
  simp only
  split
  · exact ⟨rfl, rfl, rfl⟩
  · exact .refl c

theorem sameLimits_raiseMaxData (c : FlowConn) (env : FlowEnv) :
    c.SameLimits (c.raiseMaxData env).1 := by
  unfold raiseMaxData
  simp only
  split
  · have hsend := sameLimits_sendMaxDataFrame c env
      (add64 (positiveOr c.table.localTP.initialMaxData kDefaultInitialMaxData)
        c.localBytesConsumedTotal)
    split
    · exact hsend.trans ⟨rfl, rfl, rfl⟩
    · exact hsend
  · exact .refl c

theorem sameLimits_raiseMaxStreamData (c : FlowConn) (env : FlowEnv) (id : Nat) :
    c.SameLimits (c.raiseMaxStreamData env id).1 := by
  unfold raiseMaxStreamData
  simp only
  have hnote : ∀ advertised : Nat → Option Nat,
      c.SameLimits { c with localMaxStreamDataAdvertised := advertised } :=
    fun _ => ⟨rfl, rfl, rfl⟩
  split
  · split
    · exact ((hnote _).trans (sameLimits_sendMaxStreamDataFrame _ env id _)).trans
        ⟨rfl, rfl, rfl⟩
    · exact (hnote _).trans (sameLimits_sendMaxStreamDataFrame _ env id _)
  · exact hnote _

theorem sameLimits_onStreamBytesConsumed (c : FlowConn) (env : FlowEnv) (id bytes : Nat) :
    c.SameLimits (c.onStreamBytesConsumed env id bytes).1 := by
  unfold onStreamBytesConsumed
  split
  · exact .refl c
  · simp only
    split
    · exact ⟨rfl, rfl, rfl⟩
    · refine .trans ?_ (sameLimits_raiseMaxStreamData _ env id)
      refine .trans ?_ (sameLimits_raiseMaxData _ env)
      refine .trans ?_ (sameLimits_ensure _ id)
      exact ⟨rfl, rfl, rfl⟩

theorem sameLimits_onApp (c : FlowConn) (env : FlowEnv) (id : Nat) (op : AppOp) :
    c.SameLimits (c.onApp env id op).1 := by
  unfold onApp
  cases c.table.find id with
  | none => exact .refl c
  | some s =>
    refine .trans ?_ (sameLimits_onStreamBytesConsumed _ env id _)
    exact ⟨rfl, rfl, rfl⟩

theorem sameLimits_createStream (c : FlowConn) (ty : StreamType) :
    c.SameLimits (c.createStream ty) := by
  unfold createStream
  simp only
  split
  · exact ⟨openLocal_peerTP .., rfl, rfl⟩
  · exact .refl c

theorem sameLimits_onStreamFrame (c : FlowConn) (frame : FrameStream) :
    c.SameLimits (c.onStreamFrame frame).2 := by
  have hensure := sameLimits_ensure c frame.streamId
  unfold onStreamFrame
  simp only
  refine ⟨ingestStreamFrame_peerTP c.table frame, ?_, ?_⟩
  · show FlowConn.peerMaxStreamData _ = _
    split
    · rfl
    · exact hensure.streams
  · show FlowConn.peerMaxData _ = _
    split
    · rfl
    · exact hensure.data

/-- What an event does to the limits a side sends under: nothing, or what a
MAX_DATA or MAX_STREAM_DATA frame of the other side says. -/
theorem event_limits (c : FlowConn) (inbox : List FlowFrame) (op : LinkOp) :
    c.SameLimits (c.event inbox op).1
      ∨ (∃ m, .maxData m ∈ inbox ∧ (c.event inbox op).1 = c.handleMaxDataFrame m)
      ∨ ∃ id m, .maxStreamData id m ∈ inbox
          ∧ (c.event inbox op).1 = c.handleMaxStreamDataFrame id m := by
  cases op with
  | createStream ty => exact .inl (sameLimits_createStream c ty)
  | flush env id data fin => exact .inl (sameLimits_flush c env id data fin)
  | app env id op => exact .inl (sameLimits_onApp c env id op)
  | deliver env i =>
    unfold event
    simp only
    cases hget : inbox[i]? with
    | none => exact .inl (.refl c)
    | some frame =>
      have hmem := List.mem_of_getElem? hget
      simp only
      split
      · exact .inl (.refl c)
      · cases frame with
        | stream frame => exact .inl (sameLimits_onStreamFrame c frame)
        | maxData m => exact .inr (.inl ⟨m, hmem, rfl⟩)
        | maxStreamData id m => exact .inr (.inr ⟨id, m, hmem, rfl⟩)
        | dataBlocked limit => exact .inl (sameLimits_sendMaxDataFrame c env _)
        | streamDataBlocked id limit =>
          refine .inl (.trans (sameLimits_ensure c id) ?_)
          exact sameLimits_sendMaxStreamDataFrame _ env id _

theorem event_peerMaxData_ne_zero (inbox : List FlowFrame) (op : LinkOp)
    (h : c.peerMaxData ≠ 0) : (c.event inbox op).1.peerMaxData ≠ 0 := by
  obtain hsame | ⟨m, -, heq⟩ | ⟨id, m, -, heq⟩ := event_limits c inbox op
  · rw [hsame.data]
    exact h
  · rw [heq]
    unfold handleMaxDataFrame
    split
    · next hlt =>
      show m ≠ 0
      omega
    · exact h
  · rw [heq]
    unfold handleMaxStreamDataFrame
    simp only
    split
    · exact h
    · split
      · exact h
      · exact h

end FlowConn

-- ==== what is learned

/-- What a side sends under comes from the parameters `tp` and from frames
of `sent`. -/
structure Learned (tp : TransportParams) (sent : List FlowFrame) (c : FlowConn) : Prop where
  params : c.table.peerTP = tp
  streams : ∀ id limit, c.peerMaxStreamData id = some limit → .maxStreamData id limit ∈ sent
  data : c.peerMaxData = 0 ∨ c.peerMaxData = positiveOr tp.initialMaxData kDefaultInitialMaxData
    ∨ .maxData c.peerMaxData ∈ sent

namespace Learned

theorem congr (h : Learned tp sent c) (hsame : c.SameLimits c') : Learned tp sent c' := by
  refine ⟨hsame.params.trans h.params, ?_, ?_⟩
  · rw [hsame.streams]
    exact h.streams
  · rw [hsame.data]
    exact h.data

theorem mono (h : Learned tp sent c) (more : List FlowFrame) : Learned tp (sent ++ more) c where
  params := h.params
  streams := fun id limit hlimit => List.mem_append_left _ (h.streams id limit hlimit)
  data := h.data.imp_right fun hd => hd.imp_right (List.mem_append_left _)

theorem handleMaxDataFrame {m : Nat} (h : Learned tp sent c) (hm : .maxData m ∈ sent) :
    Learned tp sent (c.handleMaxDataFrame m) := by
  unfold FlowConn.handleMaxDataFrame
  split
  · exact ⟨h.params, h.streams, .inr (.inr hm)⟩
  · exact h

theorem handleMaxStreamDataFrame {id m : Nat} (h : Learned tp sent c)
    (hm : .maxStreamData id m ∈ sent) : Learned tp sent (c.handleMaxStreamDataFrame id m) := by
  have hset : Learned tp sent { c with
      peerMaxStreamData := Function.update c.peerMaxStreamData id (some m) } := by
    refine ⟨h.params, ?_, h.data⟩
    intro id' limit hlimit
    replace hlimit : Function.update c.peerMaxStreamData id (some m) id' = some limit := hlimit
    by_cases hid : id' = id
    · subst hid
      rw [Function.update_self] at hlimit
      cases hlimit
      exact hm
    · rw [Function.update_of_ne hid] at hlimit
      exact h.streams id' limit hlimit
  unfold FlowConn.handleMaxStreamDataFrame
  simp only
  split
  · exact hset
  · split
    · exact hset
    · exact h

theorem event (h : Learned tp sent c) (op : LinkOp) : Learned tp sent (c.event sent op).1 := by
  obtain hsame | ⟨m, hm, heq⟩ | ⟨id, m, hm, heq⟩ := FlowConn.event_limits c sent op
  · exact h.congr hsame
  · rw [heq]
    exact h.handleMaxDataFrame hm
  · rw [heq]
    exact h.handleMaxStreamDataFrame hm

end Learned

-- ==== runs

/-- Both sides, each learning from the other. -/
structure LinkLearned (client server : Config) (l : Link) : Prop where
  clientLearned : Learned (pendingTransportParams server) l.toClient l.client
  serverLearned : Learned (localTransportParams client) l.toServer l.server
  clientLimit : l.client.peerMaxData ≠ 0

theorem linkLearned_handshake (client server : Config) :
    LinkLearned client server (Link.handshake client server) where
  clientLearned := ⟨rfl, fun _ _ h => (by cases h), .inr (.inl rfl)⟩
  serverLearned := ⟨rfl, fun _ _ h => (by cases h), .inl rfl⟩
  clientLimit := by
    show 64 * 1024 * 1024 ≠ 0
    decide

theorem linkLearned_step {client server : Config} (l : Link) (e : Side × LinkOp)
    (h : LinkLearned client server l) : LinkLearned client server (l.step e) := by
  obtain ⟨side, op⟩ := e
  cases side with
  | client =>
    exact ⟨h.clientLearned.event op, h.serverLearned.mono _,
      FlowConn.event_peerMaxData_ne_zero l.toClient op h.clientLimit⟩
  | server => exact ⟨h.clientLearned.mono _, h.serverLearned.event op, h.clientLimit⟩

theorem linkLearned_of_run (client server : Config) (ops : List (Side × LinkOp)) :
    LinkLearned client server (run Link.step (Link.handshake client server) ops) :=
  run_inv_of_step linkLearned_step ops (linkLearned_handshake client server)

-- ==== what is promised

/-- A fold that only raises its value is above its start, and above what an
entry of the list raises it to. -/
theorem le_foldl {α : Type*} {f : Nat → α → Nat} (hgrow : ∀ a x, a ≤ f a x) (xs : List α) :
    ∀ a, a ≤ xs.foldl f a := by
  induction xs with
  | nil =>
    intro a
    exact le_rfl
  | cons x xs ih =>
    intro a
    exact (hgrow a x).trans (ih _)

theorem le_foldl_of_mem {α : Type*} {f : Nat → α → Nat} (hgrow : ∀ a x, a ≤ f a x) {m : Nat}
    {x : α} (hm : ∀ a, m ≤ f a x) : ∀ {xs : List α} (a : Nat), x ∈ xs → m ≤ xs.foldl f a := by
  intro xs
  induction xs with
  | nil =>
    intro a hx
    cases hx
  | cons y ys ih =>
    intro a hx
    cases List.mem_cons.mp hx with
    | inl hself =>
      subst hself
      exact (hm a).trans (le_foldl hgrow ys _)
    | inr hrest => exact ih _ hrest

theorem positiveOr_le_advertisedStreamData (tp : TransportParams) (sent : List FlowFrame)
    (id : Nat) :
    positiveOr tp.initialMaxStreamDataBidiLocal kDefaultInitialMaxStreamData
      ≤ advertisedStreamData tp sent id := by
  refine le_foldl (fun a frame => ?_) sent _
  cases frame with
  | maxStreamData id' m =>
    simp only
    split
    · exact le_max_left _ _
    · exact le_rfl
  | _ => exact le_rfl

theorem le_advertisedStreamData {id m : Nat} (hm : .maxStreamData id m ∈ sent) :
    m ≤ advertisedStreamData tp sent id := by
  refine le_foldl_of_mem (fun a frame => ?_) (fun a => ?_) _ hm
  · cases frame with
    | maxStreamData id' m =>
      simp only
      split
      · exact le_max_left _ _
      · exact le_rfl
    | _ => exact le_rfl
  · simp only [if_true]
    exact le_max_right _ _

theorem Learned.peerStreamDataLimit_le (h : Learned tp sent c) (id : Nat) :
    c.peerStreamDataLimit id ≤ advertisedStreamData tp sent id := by
  unfold FlowConn.peerStreamDataLimit
  cases hlimit : c.peerMaxStreamData id with
  | none =>
    simp only
    rw [h.params]
    exact positiveOr_le_advertisedStreamData tp sent id
  | some limit => exact le_advertisedStreamData (h.streams id limit hlimit)

/-- In no run does a side send a stream beyond what the other has advertised. -/
theorem streamLimitsKept_of_run (client server : Config) (ops : List (Side × LinkOp)) :
    StreamLimitsKept client server (run Link.step (Link.handshake client server) ops) := by
  have h := linkLearned_of_run client server ops
  intro id
  exact ⟨h.clientLearned.peerStreamDataLimit_le id, h.serverLearned.peerStreamDataLimit_le id⟩

theorem le_advertisedMaxData_of_grow (a : Nat) (frame : FlowFrame) :
    a ≤ match frame with
      | .maxData m => max a m
      | _ => a := by
  cases frame with
  | maxData m => exact le_max_left _ _
  | _ => exact le_rfl

theorem Learned.connectionLimit_le (h : Learned tp sent c) (hset : c.peerMaxData ≠ 0) :
    c.connectionLimit ≤ advertisedMaxData tp sent := by
  unfold FlowConn.connectionLimit
  rw [if_neg hset]
  refine Nat.cast_le.mpr ?_
  obtain hzero | hparams | hframe := h.data
  · exact absurd hzero hset
  · rw [hparams]
    exact le_foldl le_advertisedMaxData_of_grow sent _
  · exact le_foldl_of_mem le_advertisedMaxData_of_grow (fun a => le_max_right a _) _ hframe

/-- In every run the connection limits agree as soon as the server has
received a MAX_DATA frame, and not before. -/
theorem connectionLimitsKept_iff (client server : Config) (ops : List (Side × LinkOp)) :
    ConnectionLimitsKept client server (run Link.step (Link.handshake client server) ops)
      ↔ (run Link.step (Link.handshake client server) ops).server.peerMaxData ≠ 0 := by
  have h := linkLearned_of_run client server ops
  generalize run Link.step (Link.handshake client server) ops = l at h ⊢
  constructor
  · intro hkept hzero
    have hserver := hkept.2
    unfold FlowConn.connectionLimit at hserver
    rw [if_pos hzero] at hserver
    exact absurd (top_le_iff.mp hserver) (ENat.natCast_ne_top _)
  · intro hset
    exact ⟨h.clientLearned.connectionLimit_le h.clientLimit,
      h.serverLearned.connectionLimit_le hset⟩

end Eular.Utp
