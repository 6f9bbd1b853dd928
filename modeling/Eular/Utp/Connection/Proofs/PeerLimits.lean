/-
Whether the limits of the peer only grow.

Three frames carry limits: TRANSPORT_PARAMS, MAX_DATA and
MAX_STREAM_DATA. They may arrive in any order and any number of times,
so a sender that keeps what it was once granted would take the largest
of what they say. `handleMaxDataFrame` does, once there is a limit; the
others do so under conditions.

- 0 stands for no limit in `m_peerMaxData`, and the comparison there
  takes it for the smallest one: the first limit to arrive, by either
  frame, ends the time without a limit.
- The first MAX_STREAM_DATA of a stream takes the place of the limit
  from the parameters, larger or not.
- New parameters take the place of the old ones, larger or not, for
  every stream that has had no MAX_STREAM_DATA.

`Raises` is the absence of all three, and `limits_grow_iff` says that
nothing else lowers a limit.
-/
import Eular.Utp.Connection.Link

namespace Eular.Utp

open Lib

/-- The frames that carry limits. -/
inductive LimitFrame where
  | transportParams (peerTP : TransportParams)
  | maxData (maximumData : Nat)
  | maxStreamData (streamId maximumStreamData : Nat)
deriving DecidableEq, Repr

variable {c c' : FlowConn}

-- ==== the statement

/-- The frame loop of `onUdpPacket`, for a frame that carries a limit. -/
def FlowConn.onLimitFrame (c : FlowConn) : LimitFrame → FlowConn
  | .transportParams peerTP => c.onTransportParams peerTP
  | .maxData maximumData => c.handleMaxDataFrame maximumData
  | .maxStreamData id maximumStreamData => c.handleMaxStreamDataFrame id maximumStreamData

/-- No limit is lower in `c'` than in `c`. -/
structure LimitsGrow (c c' : FlowConn) : Prop where
  stream : ∀ id < 2 ^ 32, c.peerStreamDataLimit id ≤ c'.peerStreamDataLimit id
  connection : c.connectionLimit ≤ c'.connectionLimit

/-- From one frame to the next no limit is lowered. -/
def LimitsOnlyGrow (c : FlowConn) (frames : List LimitFrame) : Prop :=
  Meets FlowConn.onLimitFrame (fun c frame => LimitsGrow c (c.onLimitFrame frame)) c frames

/-- The limit the parameters give a stream. -/
def TransportParams.streamDataLimit (tp : TransportParams) : Nat :=
  positiveOr tp.initialMaxStreamDataBidiLocal kDefaultInitialMaxStreamData

/-- The frame says no less than what it takes the place of. -/
def Raises (c : FlowConn) : LimitFrame → Prop
  | .transportParams peerTP =>
    c.peerMaxData ≠ 0
      ∧ ∀ id < 2 ^ 32, c.peerMaxStreamData id = none →
          c.table.peerTP.streamDataLimit ≤ peerTP.streamDataLimit
  | .maxData maximumData => c.peerMaxData ≠ 0 ∨ maximumData = 0
  | .maxStreamData id maximumStreamData =>
    id < 2 ^ 32 → c.peerMaxStreamData id = none →
      c.table.peerTP.streamDataLimit ≤ maximumStreamData

-- ==== connection limit

theorem positiveOr_ne_zero {value fallback : Nat} (h : fallback ≠ 0) :
    positiveOr value fallback ≠ 0 := by
  unfold positiveOr
  split
  · next hpos => exact Nat.ne_of_gt hpos
  · exact h

theorem connectionLimit_of_ne_zero (h : c.peerMaxData ≠ 0) : c.connectionLimit = c.peerMaxData :=
  if_neg h

theorem connectionLimit_of_eq_zero (h : c.peerMaxData = 0) : c.connectionLimit = ⊤ :=
  if_pos h

/-- The connection limit depends on `m_peerMaxData` alone. -/
theorem connectionLimit_congr (h : c'.peerMaxData = c.peerMaxData) :
    c'.connectionLimit = c.connectionLimit := by
  unfold FlowConn.connectionLimit
  rw [h]

@[simp] theorem handleMaxDataFrame_peerMaxData (c : FlowConn) (m : Nat) :
    (c.handleMaxDataFrame m).peerMaxData = max c.peerMaxData m := by
  unfold FlowConn.handleMaxDataFrame
  split
  · next hlt => exact (max_eq_right hlt.le).symm
  · next hle => exact (max_eq_left (Nat.not_lt.mp hle)).symm

theorem connectionLimit_handleMaxDataFrame (c : FlowConn) (m : Nat) :
    c.connectionLimit ≤ (c.handleMaxDataFrame m).connectionLimit
      ↔ c.peerMaxData ≠ 0 ∨ m = 0 := by
  have hmax := handleMaxDataFrame_peerMaxData c m
  by_cases hzero : c.peerMaxData = 0
  · rw [connectionLimit_of_eq_zero hzero, top_le_iff]
    rw [hzero, Nat.zero_max] at hmax
    constructor
    · intro htop
      right
      by_contra hm
      rw [connectionLimit_of_ne_zero (by rw [hmax]; exact hm)] at htop
      exact ENat.natCast_ne_top _ htop
    · rintro (hne | hm)
      · exact absurd hzero hne
      · exact connectionLimit_of_eq_zero (by rw [hmax]; exact hm)
  · have hle : c.peerMaxData ≤ (c.handleMaxDataFrame m).peerMaxData := by
      rw [hmax]
      exact le_max_left _ _
    have hne : (c.handleMaxDataFrame m).peerMaxData ≠ 0 := by omega
    rw [connectionLimit_of_ne_zero hzero, connectionLimit_of_ne_zero hne]
    exact iff_of_true (Nat.cast_le.mpr hle) (.inl hzero)

-- ==== stream limits

theorem peerStreamDataLimit_none {id : Nat} (h : c.peerMaxStreamData id = none) :
    c.peerStreamDataLimit id = c.table.peerTP.streamDataLimit := by
  unfold FlowConn.peerStreamDataLimit TransportParams.streamDataLimit
  rw [h]

theorem peerStreamDataLimit_some {id limit : Nat} (h : c.peerMaxStreamData id = some limit) :
    c.peerStreamDataLimit id = limit := by
  unfold FlowConn.peerStreamDataLimit
  rw [h]

/-- The limits of the streams depend on the parameters and on what
MAX_STREAM_DATA frames have said. -/
theorem peerStreamDataLimit_congr (hparams : c'.table.peerTP = c.table.peerTP)
    {id : Nat} (hstream : c'.peerMaxStreamData id = c.peerMaxStreamData id) :
    c'.peerStreamDataLimit id = c.peerStreamDataLimit id := by
  unfold FlowConn.peerStreamDataLimit
  rw [hparams, hstream]

theorem peerStreamDataLimit_handleMaxDataFrame (c : FlowConn) (m id : Nat) :
    (c.handleMaxDataFrame m).peerStreamDataLimit id = c.peerStreamDataLimit id := by
  unfold FlowConn.handleMaxDataFrame
  split
  · exact peerStreamDataLimit_congr rfl rfl
  · rfl

/-- What a MAX_STREAM_DATA frame leaves as the limit of its stream: the
first replaces the limit of the parameters, a later one raises it. -/
theorem handleMaxStreamDataFrame_self (c : FlowConn) (id m : Nat) :
    (c.handleMaxStreamDataFrame id m).peerStreamDataLimit id
      = (c.peerMaxStreamData id).elim m (max · m) := by
  unfold FlowConn.handleMaxStreamDataFrame
  cases hold : c.peerMaxStreamData id with
  | none => exact peerStreamDataLimit_some (Function.update_self ..)
  | some old =>
    show FlowConn.peerStreamDataLimit (if old < m then _ else c) id = max old m
    split
    · next hlt =>
      rw [max_eq_right hlt.le]
      exact peerStreamDataLimit_some (Function.update_self ..)
    · next hle =>
      rw [max_eq_left (Nat.not_lt.mp hle)]
      exact peerStreamDataLimit_some hold

theorem handleMaxStreamDataFrame_other (c : FlowConn) {id id' : Nat} (m : Nat) (hne : id' ≠ id) :
    (c.handleMaxStreamDataFrame id m).peerStreamDataLimit id' = c.peerStreamDataLimit id' := by
  let set : FlowConn :=
    { c with peerMaxStreamData := Function.update c.peerMaxStreamData id (some m) }
  have hset : set.peerStreamDataLimit id' = c.peerStreamDataLimit id' := by
    apply peerStreamDataLimit_congr
    · rfl
    · exact Function.update_of_ne hne ..
  unfold FlowConn.handleMaxStreamDataFrame
  simp only
  split
  · exact hset
  · split
    · exact hset
    · rfl

@[simp] theorem handleMaxStreamDataFrame_peerMaxData (c : FlowConn) (id m : Nat) :
    (c.handleMaxStreamDataFrame id m).peerMaxData = c.peerMaxData := by
  unfold FlowConn.handleMaxStreamDataFrame
  simp only
  split
  · rfl
  · split
    · rfl
    · rfl

-- ==== one frame

theorem limitsGrow_maxData (c : FlowConn) (m : Nat) :
    LimitsGrow c (c.handleMaxDataFrame m) ↔ c.peerMaxData ≠ 0 ∨ m = 0 := by
  rw [← connectionLimit_handleMaxDataFrame]
  constructor
  · intro h
    exact h.connection
  · intro h
    exact ⟨fun id _ => (peerStreamDataLimit_handleMaxDataFrame c m id).ge, h⟩

theorem limitsGrow_maxStreamData (c : FlowConn) (id m : Nat) :
    LimitsGrow c (c.handleMaxStreamDataFrame id m)
      ↔ (id < 2 ^ 32 → c.peerMaxStreamData id = none →
          c.table.peerTP.streamDataLimit ≤ m) := by
  constructor
  · intro h hid hnone
    have hle := h.stream id hid
    rw [handleMaxStreamDataFrame_self, hnone, peerStreamDataLimit_none hnone] at hle
    exact hle
  · intro h
    refine ⟨?_, (connectionLimit_congr (handleMaxStreamDataFrame_peerMaxData c id m)).ge⟩
    intro id' hid'
    by_cases heq : id' = id
    · subst heq
      rw [handleMaxStreamDataFrame_self]
      cases hold : c.peerMaxStreamData id' with
      | none =>
        rw [peerStreamDataLimit_none hold]
        exact h hid' hold
      | some old =>
        rw [peerStreamDataLimit_some hold]
        exact le_max_left _ _
    · exact (handleMaxStreamDataFrame_other c m heq).ge

theorem limitsGrow_transportParams (c : FlowConn) (tp : TransportParams) :
    LimitsGrow c (c.onTransportParams tp)
      ↔ c.peerMaxData ≠ 0
        ∧ ∀ id < 2 ^ 32, c.peerMaxStreamData id = none →
            c.table.peerTP.streamDataLimit ≤ tp.streamDataLimit := by
  -- the new parameters are stored first, then their connection window
  -- goes the way of a MAX_DATA frame
  let stored : FlowConn := { c with table := { c.table with peerTP := tp } }
  have hwindow : positiveOr tp.initialMaxData kDefaultInitialMaxData ≠ 0 :=
    positiveOr_ne_zero (by decide)
  have hlimit := connectionLimit_handleMaxDataFrame stored
    (positiveOr tp.initialMaxData kDefaultInitialMaxData)
  rw [or_iff_left hwindow] at hlimit
  have hstream : ∀ id, (c.onTransportParams tp).peerStreamDataLimit id
      = stored.peerStreamDataLimit id :=
    peerStreamDataLimit_handleMaxDataFrame stored _
  constructor
  · intro h
    refine ⟨hlimit.mp h.connection, ?_⟩
    intro id hid hnone
    have hle := h.stream id hid
    rw [hstream, peerStreamDataLimit_none hnone,
      peerStreamDataLimit_none (c := stored) hnone] at hle
    exact hle
  · rintro ⟨hset, hparams⟩
    refine ⟨?_, hlimit.mpr hset⟩
    intro id hid
    rw [hstream]
    cases hold : c.peerMaxStreamData id with
    | none =>
      rw [peerStreamDataLimit_none hold, peerStreamDataLimit_none (c := stored) hold]
      exact hparams id hid hold
    | some old =>
      rw [peerStreamDataLimit_some hold, peerStreamDataLimit_some (c := stored) hold]

/-- One frame lowers no limit just when it says no less than what it takes
the place of. -/
theorem limitsGrow_iff_raises (c : FlowConn) (frame : LimitFrame) :
    LimitsGrow c (c.onLimitFrame frame) ↔ Raises c frame := by
  cases frame with
  | transportParams tp => exact limitsGrow_transportParams c tp
  | maxData m => exact limitsGrow_maxData c m
  | maxStreamData id m => exact limitsGrow_maxStreamData c id m

-- ==== runs

/-- Over any sequence of frames, from any connection, the limits only grow
just when every frame says no less than what it takes the place of. -/
theorem limits_grow_iff (c : FlowConn) (frames : List LimitFrame) :
    LimitsOnlyGrow c frames ↔ Meets FlowConn.onLimitFrame Raises c frames :=
  meets_congr (P := fun _ => True) (fun c frame _ => limitsGrow_iff_raises c frame)
    (fun _ _ _ _ => trivial) trivial

/-- A client of a server with the default configuration may send 16 MiB on
stream 0 after the handshake. The server's first window update, sent when
its application has read one byte, takes that back to 256 KiB and a byte. -/
theorem not_limits_grow_first_update :
    ¬ LimitsOnlyGrow (Link.handshake {} {}).client [.maxStreamData 0 (256 * 1024 + 1)] := by
  intro h
  have hle := h.1.stream 0 (by decide)
  exact absurd hle (by decide)

end Eular.Utp
