/-
Runs of two endpoints that close.

A step of the pair is a step of one side and a change of what is under way
(`conn_step`), so what holds of a side along its own steps holds of it
along every run of the pair, whatever the network loses, copies or
reorders.
-/
import Eular.Kcp.Proofs.Closing

namespace Eular.Kcp

namespace ClosingPair

open KcpControl

variable {xxh32 : Nat → Nat} {w : ClosingPair} {op : PairOp} {ops : List PairOp}
variable {cop : ControlOp} {side : Bool}

-- ==== a step of a side

/-- The side an operation is for, and what it is to that side. -/
def target (w : ClosingPair) : PairOp → Option (Bool × ControlOp)
  | .close side now answer => some (side, .close now answer)
  | .finTimeout side now answer => some (side, .finTimeout now answer)
  | .writable side now answer => some (side, .writable now (fun _ => (0, 0)) answer)
  | .deliver side i now answer =>
    (w.inFlight side)[i]?.map fun packet =>
      (side, .packet packet (w.conn side).remoteHost now answer)
  | .drop _ _ => none
  | .duplicate _ _ => none
  | .traffic side packet now answer =>
    some (side, .packet (ControlPacket.mk (w.conn side).dcid (w.conn side).scid packet.body)
      (w.conn side).remoteHost now answer)
  | .giveUp side code => some (side, .giveUp code)
  | .finRetries side value => some (side, .finRetries value)

theorem conn_step_none (h : w.target op = none) : (w.step xxh32 op).conn = w.conn := by
  cases op with
  | deliver side i now answer =>
    rw [target, Option.map_eq_none_iff] at h
    rw [step]
    simp only [h]
  | drop side i => rfl
  | duplicate side i =>
    rw [step]
    split <;> rfl
  | _ => exact absurd h (by simp [target])

theorem conn_step_some (h : w.target op = some (side, cop)) :
    (w.step xxh32 op).conn =
      Function.update w.conn side { (w.conn side).step xxh32 cop with outbox := [] } := by
  cases op with
  | deliver s i now answer =>
    rw [target, Option.map_eq_some_iff] at h
    obtain ⟨packet, hi, heq⟩ := h
    obtain ⟨rfl, rfl⟩ := Prod.mk.inj heq
    rw [step]
    simp only [hi]
    rfl
  | drop s i => exact absurd h (by simp [target])
  | duplicate s i => exact absurd h (by simp [target])
  | _ =>
    obtain ⟨rfl, rfl⟩ := Prod.mk.inj (Option.some.inj h)
    rfl

theorem inFlight_step (side : Bool) (p : ControlPacket)
    (h : p ∈ (w.step xxh32 op).inFlight side) :
    p ∈ w.inFlight side ∨
      ∃ cop, w.target op = some (!side, cop) ∧ p ∈ ((w.conn !side).step xxh32 cop).outbox := by
  have hact : ∀ (u : ClosingPair) (s : Bool) (cop : ControlOp), u.conn = w.conn →
      (∀ t, ∀ p ∈ u.inFlight t, p ∈ w.inFlight t) → p ∈ (u.act xxh32 s cop).inFlight side →
      p ∈ w.inFlight side ∨ s = !side ∧ p ∈ ((w.conn !side).step xxh32 cop).outbox := by
    intro u s cop hconn hsub hp
    rw [inFlight_act] at hp
    by_cases hs : side = !s
    · subst hs
      rw [Function.update_self] at hp
      refine (List.mem_append.mp hp).imp (hsub _ p) fun hp => ⟨(Bool.not_not s).symm, ?_⟩
      rw [Bool.not_not, ← hconn]
      exact hp
    · rw [Function.update_of_ne hs] at hp
      exact .inl (hsub _ p hp)
  have herase : ∀ s i t, ∀ p ∈ (w.network s ((w.inFlight s).eraseIdx i)).inFlight t,
      p ∈ w.inFlight t := by
    intro s i t p hp
    rw [inFlight_network] at hp
    by_cases hs : t = s
    · subst hs
      rw [Function.update_self] at hp
      exact List.mem_of_mem_eraseIdx hp
    · rw [Function.update_of_ne hs] at hp
      exact hp
  cases op with
  | deliver s i now answer =>
    rw [step] at h
    rw [target]
    cases hi : (w.inFlight s)[i]? with
    | none =>
      simp only [hi] at h
      exact .inl h
    | some packet =>
      simp only [hi] at h
      refine (hact (w.network s _) s _ rfl (herase s i) h).imp_right
        fun hand => ⟨_, ?_, hand.2⟩
      rw [Option.map_some, ← hand.1]
  | drop s i => exact .inl (herase s i side p h)
  | duplicate s i =>
    rw [step] at h
    split at h
    · exact .inl h
    · rename_i packet hi
      left
      rw [inFlight_network] at h
      by_cases hs : side = s
      · subst hs
        rw [Function.update_self] at h
        refine (List.mem_append.mp h).elim id fun hp => ?_
        rw [List.mem_singleton.mp hp]
        exact List.mem_of_getElem? hi
      · rw [Function.update_of_ne hs] at h
        exact h
  | _ =>
    refine (hact w _ _ rfl (fun _ _ h => h) h).imp_right fun hand => ⟨_, ?_, hand.2⟩
    rw [target, hand.1]

-- ==== invariant

/-- What holds of the pair: of each side what holds of a side, and no SYN is
under way. -/
structure Inv (w : ClosingPair) : Prop where
  side : ∀ side, SideInv (w.conn side)
  network : ∀ side, ∀ p ∈ w.inFlight side, NotSyn p

theorem Inv.closingOp (hw : Inv w)
    (h : w.target op = some (side, cop)) : ClosingOp cop := by
  cases op with
  | deliver s i now answer =>
    rw [target, Option.map_eq_some_iff] at h
    obtain ⟨packet, hi, heq⟩ := h
    obtain ⟨rfl, rfl⟩ := Prod.mk.inj heq
    exact hw.network s packet (List.mem_of_getElem? hi)
  | drop s i => exact absurd h (by simp [target])
  | duplicate s i => exact absurd h (by simp [target])
  | traffic s packet now answer =>
    obtain ⟨rfl, rfl⟩ := Prod.mk.inj (Option.some.inj h)
    intro packetSn randSn
    cases packet <;> simp [Traffic.body]
  | _ =>
    obtain ⟨rfl, rfl⟩ := Prod.mk.inj (Option.some.inj h)
    trivial

theorem SideInv.sent {c : KcpControl} (hc : SideInv c) : SideInv { c with outbox := [] } where
  fin := hc.fin
  polite := ⟨by simp, hc.polite.last⟩

theorem Inv.step (hw : Inv w) (op : PairOp) : Inv (w.step xxh32 op) where
  side := by
    intro side
    cases h : w.target op with
    | none =>
      rw [conn_step_none h]
      exact hw.side side
    | some q =>
      rw [conn_step_some h]
      by_cases hs : side = q.1
      · subst hs
        rw [Function.update_self]
        exact SideInv.sent ((hw.side q.1).step xxh32 (hw.closingOp h))
      · rw [Function.update_of_ne hs]
        exact hw.side side
  network := by
    intro side p hp
    rcases inFlight_step side p hp with hp | ⟨cop, h, hp⟩
    · exact hw.network side p hp
    · exact ((hw.side !side).step xxh32 (hw.closingOp h)).polite.sends p hp

theorem inv_connected (scid host : Bool → Nat) (syns : Bool → List KcpSynFin)
    (finRetries : Bool → Nat) : Inv (connected scid host syns finRetries) where
  side := by
    intro side
    refine ⟨?_, ⟨by simp [connected], fun h => absurd h.2 (by simp [connected, finPart])⟩⟩
    exact {
      listens := rfl
      notSent := by simp [connected, finPart]
      notReceived := by simp [connected, finPart]
      silent := fun _ => rfl
      once := by simp [connected, finPart, closes]
      gone := by simp [connected, finPart]
      ended := fun h => absurd rfl h
      unset := fun _ _ => rfl
      sent := by simp [connected, finPart]
      received := by simp [connected, finPart] }
  network := by simp [connected]

theorem inv_run (hw : Inv w) (ops : List PairOp) : Inv (Lib.run (step xxh32) w ops) :=
  Lib.run_inv_of_step (fun _ op h => h.step op) ops hw

theorem move_step (xxh32 : Nat → Nat) (hw : Inv w) (side : Bool) :
    ((w.step xxh32 op).conn side).finPart = (w.conn side).finPart ∨
      ∃ cop, w.target op = some (side, cop) ∧ (w.conn side).destroyed = 0 ∧
        FinMove (w.conn side).finPart cop ((w.step xxh32 op).conn side).finPart := by
  cases h : w.target op with
  | none =>
    rw [conn_step_none h]
    exact .inl rfl
  | some q =>
    rw [conn_step_some h]
    by_cases hs : side = q.1
    · subst hs
      rw [Function.update_self]
      by_cases h0 : (w.conn q.1).destroyed = 0
      · exact .inr ⟨q.2, rfl, h0,
          finMove_step xxh32 ((hw.side q.1).established h0) (hw.closingOp h)⟩
      · left
        rw [step_gone xxh32 h0]
        rfl
    · rw [Function.update_of_ne hs]
      exact .inl rfl

-- ==== the conditions

/-- Every FIN goes out or is tried again, and the timer of a side in `FIN_SENT`
never runs out with `fin_retries` at zero. -/
def Attended (w : ClosingPair) : PairOp → Prop
  | .close side now answer => (w.conn side).finPart.Attended (.close now answer)
  | .finTimeout side now answer => (w.conn side).finPart.Attended (.finTimeout now answer)
  | _ => True

instance (w : ClosingPair) : ∀ op, Decidable (w.Attended op)
  | .close side now answer =>
    inferInstanceAs (Decidable ((w.conn side).finPart.Attended (.close now answer)))
  | .finTimeout side now answer =>
    inferInstanceAs (Decidable ((w.conn side).finPart.Attended (.finTimeout now answer)))
  | .writable .. | .deliver .. | .drop .. | .duplicate .. | .traffic .. | .giveUp ..
  | .finRetries .. => isTrue trivial

/-- The connection is there and in `FIN_SENT`. -/
def FinSent (w : ClosingPair) (side : Bool) : Prop :=
  (w.conn side).destroyed = 0 ∧ (w.conn side).state = .FIN_SENT

instance (w : ClosingPair) (side : Bool) : Decidable (w.FinSent side) :=
  inferInstanceAs (Decidable (_ ∧ _))

/-- No side closes while the peer is in `FIN_SENT`. -/
def Alone (w : ClosingPair) : PairOp → Prop
  | .close side _ _ => (w.conn side).state = .CONNECTED → ¬ w.FinSent !side
  | _ => True

instance (w : ClosingPair) : ∀ op, Decidable (w.Alone op)
  | .close _ _ _ => inferInstanceAs (Decidable (_ → ¬ _))
  | .finTimeout .. | .writable .. | .deliver .. | .drop .. | .duplicate .. | .traffic ..
  | .giveUp .. | .finRetries .. => isTrue trivial

/-- The FIN timer of `side` runs out. -/
def FinFires (side : Bool) (w : ClosingPair) : PairOp → Prop
  | .finTimeout s _ _ =>
    s = side ∧ (w.conn side).destroyed = 0 ∧ (w.conn side).finTimer = .pending
  | _ => False

instance (side : Bool) (w : ClosingPair) : ∀ op, Decidable (FinFires side w op)
  | .finTimeout _ _ _ => inferInstanceAs (Decidable (_ ∧ _ ∧ _))
  | .close .. | .writable .. | .deliver .. | .drop .. | .duplicate .. | .traffic ..
  | .giveUp .. | .finRetries .. => isFalse id

/-- `kcp_ioctl` counts the retries of `side` anew. -/
def Resets (side : Bool) : PairOp → Prop
  | .finRetries s _ => s = side
  | _ => False

/-- No packet is lost and no timer runs out. -/
def Lossless : PairOp → Prop
  | .drop _ _ | .finTimeout _ _ _ => False
  | _ => True

-- ==== results

/-- What `kcp_close` promises of a run. -/
structure CloseFinishes (xxh32 : Nat → Nat) (w : ClosingPair) (ops : List PairOp) : Prop where
  /-- a side in `FIN_SENT` or `FIN_RECEIVED` has its timer armed -/
  armed : ∀ xs ys, ops = xs ++ ys → ∀ side,
    ((Lib.run (step xxh32) w xs).conn side).finPart.Closing →
      ((Lib.run (step xxh32) w xs).conn side).finTimer = .pending
  /-- it goes on closing, or is disconnected with `on_closed` called once and
  destroyed once -/
  closes : ∀ xs ys, ops = xs ++ ys → ∀ side,
    ((Lib.run (step xxh32) w xs).conn side).finPart.Closing →
      ((Lib.run (step xxh32) w ops).conn side).finPart.Closing ∨
        ((Lib.run (step xxh32) w ops).conn side).finPart.Closed
  /-- when its timer has run out often enough, it is disconnected -/
  finishes : ∀ xs ys, ops = xs ++ ys → ∀ side,
    ((Lib.run (step xxh32) w xs).conn side).finPart.Closing → (∀ op ∈ ys, ¬ Resets side op) →
    let u := Lib.run (step xxh32) w xs
    (u.conn side).finRetries < Lib.countSteps (step xxh32) (FinFires side) u ys →
      ((Lib.run (step xxh32) w ops).conn side).finPart.Closed
  /-- nothing of this happens twice -/
  once : ∀ side, ((Lib.run (step xxh32) w ops).conn side).closes.length ≤ 1 ∧
    ((Lib.run (step xxh32) w ops).conn side).destroyed ≤ 1

/-- What it promises of both sides when they close at the same time: when all
that was sent has arrived, both are disconnected, with `NO_ERROR`. -/
def CrossingCloses (xxh32 : Nat → Nat) (w : ClosingPair) (ops : List PairOp) : Prop :=
  ∀ xs ys, ops = xs ++ ys → (∀ side, (Lib.run (step xxh32) w xs).FinSent side) →
    (∀ op ∈ ys, Lossless op) → (∀ side, (Lib.run (step xxh32) w ops).inFlight side = []) →
    ∀ side, ((Lib.run (step xxh32) w ops).conn side).finPart.Closed ∧
      ((Lib.run (step xxh32) w ops).conn side).closes = [NO_ERROR]

-- ==== the steps

theorem attended_target (hok : w.Attended op)
    (h : w.target op = some (side, cop)) : (w.conn side).finPart.Attended cop := by
  cases op with
  | close s now answer =>
    obtain ⟨rfl, rfl⟩ := Prod.mk.inj (Option.some.inj h)
    exact hok
  | finTimeout s now answer =>
    obtain ⟨rfl, rfl⟩ := Prod.mk.inj (Option.some.inj h)
    exact hok
  | deliver s i now answer =>
    rw [target, Option.map_eq_some_iff] at h
    obtain ⟨packet, -, heq⟩ := h
    obtain ⟨rfl, rfl⟩ := Prod.mk.inj heq
    trivial
  | drop s i => exact absurd h (by simp [target])
  | duplicate s i => exact absurd h (by simp [target])
  | _ =>
    obtain ⟨rfl, rfl⟩ := Prod.mk.inj (Option.some.inj h)
    trivial

/-- The timers of closing sides are armed. -/
def Armed (w : ClosingPair) : Prop :=
  ∀ side, (w.conn side).finPart.Closing → (w.conn side).finTimer = .pending

theorem armed_step (hw : Inv w) (hok : w.Attended op) (harmed : w.Armed) :
    (w.step xxh32 op).Armed := by
  intro side hclosing
  rcases move_step xxh32 hw side with heq | ⟨cop, h, hthere, hmove⟩
  · have htimer : ((w.step xxh32 op).conn side).finTimer = (w.conn side).finTimer :=
      congrArg FinPart.finTimer heq
    rw [heq] at hclosing
    rw [htimer]
    exact harmed side hclosing
  · exact FinPart.armed_move (hw.side side).fin hthere hmove (attended_target hok h)
      (harmed side) hclosing

theorem armed_run (hw : Inv w) (harmed : w.Armed)
    (hok : Lib.Meets (step xxh32) Attended w ops) : (Lib.run (step xxh32) w ops).Armed := by
  have h : Inv (Lib.run (step xxh32) w ops) ∧ (Lib.run (step xxh32) w ops).Armed :=
    Lib.run_inv (P := fun w => Inv w ∧ w.Armed)
      (fun w op h hok => ⟨h.1.step op, armed_step h.1 hok h.2⟩) ⟨hw, harmed⟩ hok
  exact h.2

theorem closed_step (hw : Inv w) (h : (w.conn side).finPart.Closed) :
    ((w.step xxh32 op).conn side).finPart.Closed := by
  rcases move_step xxh32 hw side with heq | ⟨cop, -, hthere, -⟩
  · rw [heq]
    exact h
  · exact absurd h.2.2 (by simp [finPart, hthere])

theorem closing_step (hw : Inv w)
    (h : (w.conn side).finPart.Closing ∨ (w.conn side).finPart.Closed) :
    ((w.step xxh32 op).conn side).finPart.Closing ∨
      ((w.step xxh32 op).conn side).finPart.Closed := by
  refine h.elim (fun hclosing => ?_) fun hclosed => .inr (closed_step hw hclosed)
  rcases move_step xxh32 hw side with heq | ⟨cop, -, hthere, hmove⟩
  · rw [heq]
    exact .inl hclosing
  · exact FinPart.closing_move (hw.side side).fin hclosing hmove

theorem finClosing_run (hw : Inv w) (h : (w.conn side).finPart.Closing) :
    ((Lib.run (step xxh32) w ops).conn side).finPart.Closing ∨
      ((Lib.run (step xxh32) w ops).conn side).finPart.Closed := by
  have hrun : Inv (Lib.run (step xxh32) w ops) ∧
      (((Lib.run (step xxh32) w ops).conn side).finPart.Closing ∨
        ((Lib.run (step xxh32) w ops).conn side).finPart.Closed) :=
    Lib.run_inv_of_step (P := fun w => Inv w ∧
      ((w.conn side).finPart.Closing ∨ (w.conn side).finPart.Closed))
      (fun w op h => ⟨h.1.step op, closing_step h.1 h.2⟩) ops ⟨hw, .inl h⟩
  exact hrun.2

-- ==== how long it takes

theorem retries_step_fires (hw : Inv w) (hclosing : (w.conn side).finPart.Closing)
    (hok : w.Attended op) (hfires : FinFires side w op) :
    ((w.step xxh32 op).conn side).finPart.Closed ∨
      ((w.step xxh32 op).conn side).finRetries < (w.conn side).finRetries := by
  cases op with
  | finTimeout s now answer =>
    obtain ⟨rfl, hthere, htimer⟩ := hfires
    have hmove : FinMove (w.conn s).finPart (.finTimeout now answer)
        ((w.step xxh32 (.finTimeout s now answer)).conn s).finPart := by
      have htarget : w.target (.finTimeout s now answer) = some (s, .finTimeout now answer) := rfl
      rw [conn_step_some htarget, Function.update_self]
      exact finMove_step xxh32 ((hw.side s).established hthere) trivial
    exact FinPart.retries_fires (hw.side s).fin hclosing htimer hok hmove
  | _ => exact hfires.elim

theorem retries_step_other (hw : Inv w) (hfires : ¬ FinFires side w op)
    (hresets : ¬ Resets side op) :
    ((w.step xxh32 op).conn side).finRetries = (w.conn side).finRetries := by
  rcases move_step xxh32 hw side with heq | ⟨cop, h, hthere, hmove⟩
  · exact congrArg FinPart.finRetries heq
  · apply FinPart.retries_other hmove
    · rintro now answer rfl htimer
      cases op with
      | finTimeout s now answer =>
        obtain ⟨rfl, -⟩ := Prod.mk.inj (Option.some.inj h)
        exact hfires ⟨rfl, hthere, htimer⟩
      | deliver s i now answer =>
        rw [target, Option.map_eq_some_iff] at h
        obtain ⟨packet, -, heq⟩ := h
        exact absurd (Prod.mk.inj heq).2 (by simp)
      | _ => exact absurd h (by simp [target])
    · intro hr
      cases op with
      | finRetries s value =>
        obtain ⟨rfl, -⟩ := Prod.mk.inj (Option.some.inj h)
        exact hresets rfl
      | deliver s i now answer =>
        rw [target, Option.map_eq_some_iff] at h
        obtain ⟨packet, -, heq⟩ := h
        obtain ⟨rfl, rfl⟩ := Prod.mk.inj heq
        exact hr
      | drop s i => exact absurd h (by simp [target])
      | duplicate s i => exact absurd h (by simp [target])
      | _ =>
        obtain ⟨rfl, rfl⟩ := Prod.mk.inj (Option.some.inj h)
        exact hr

theorem closed_or_countSteps_le (hw : Inv w)
    (hclosing : (w.conn side).finPart.Closing) (hok : Lib.Meets (step xxh32) Attended w ops)
    (hops : ∀ op ∈ ops, ¬ Resets side op) :
    ((Lib.run (step xxh32) w ops).conn side).finPart.Closed ∨
      Lib.countSteps (step xxh32) (FinFires side) w ops ≤ (w.conn side).finRetries := by
  have hresets : Lib.Meets (step xxh32) (fun _ op => ¬ Resets side op) w ops :=
    Lib.meets_of_forall (fun op h _ => hops op h) w
  have hmeets := (hok.and hresets).and_inv
    (P := fun w => Inv w ∧ ((w.conn side).finPart.Closing ∨ (w.conn side).finPart.Closed))
    (fun w op h _ => ⟨h.1.step op, closing_step h.1 h.2⟩) ⟨hw, .inl hclosing⟩
  refine Lib.countSteps_le_rank (P := FinFires side) (Q := fun w => (w.conn side).finPart.Closed)
    (fun w => (w.conn side).finRetries) ?_ ?_ ?_ hmeets
  · rintro u op ⟨⟨hu, hstate⟩, hatt, -⟩ hfires
    exact hstate.elim (retries_step_fires hu · hatt hfires) fun h => .inl (closed_step hu h)
  · rintro u op ⟨⟨hu, -⟩, -, hreset⟩ hfires
    exact .inr (retries_step_other hu hfires hreset).le
  · rintro u op hclosed ⟨⟨hu, -⟩, -⟩
    exact closed_step hu hclosed

-- ==== crossing closes

/-- A side gets into `FIN_SENT` by closing alone. -/
theorem finSent_step (hw : Inv w) (h : (w.step xxh32 op).FinSent side) :
    w.FinSent side ∨
      (w.conn side).state = .CONNECTED ∧ ∃ now answer, op = .close side now answer := by
  rcases move_step xxh32 hw side with heq | ⟨cop, htarget, hthere, hmove⟩
  · left
    have hstate : ((w.step xxh32 op).conn side).state = (w.conn side).state :=
      congrArg FinPart.state heq
    have hdestroyed : ((w.step xxh32 op).conn side).destroyed = (w.conn side).destroyed :=
      congrArg FinPart.destroyed heq
    exact ⟨hdestroyed.symm.trans h.1, hstate.symm.trans h.2⟩
  · obtain ⟨-, hsent⟩ := h
    change ((w.step xxh32 op).conn side).finPart.state = _ at hsent
    generalize ((w.step xxh32 op).conn side).finPart = g at hmove hsent
    have hclose : ∀ now answer, cop = .close now answer →
        ∃ now answer, op = .close side now answer := by
      rintro now answer rfl
      cases op with
      | close s now answer =>
        obtain ⟨rfl, -⟩ := Prod.mk.inj (Option.some.inj htarget)
        exact ⟨now, answer, rfl⟩
      | deliver s i now answer =>
        rw [target, Option.map_eq_some_iff] at htarget
        obtain ⟨packet, -, heq⟩ := htarget
        exact absurd (Prod.mk.inj heq).2 (by simp)
      | _ => exact absurd htarget (by simp [target])
    cases hmove with
    | stay _ => exact .inl ⟨hthere, hsent⟩
    | setRetries value => exact .inl ⟨hthere, hsent⟩
    | giveUp _ => exact absurd hsent (by simp)
    | sendFin hstate _ => exact .inr ⟨hstate, hclose _ _ rfl⟩
    | refused hstate _ => exact .inr ⟨hstate, hclose _ _ rfl⟩
    | answerFin _ => exact absurd hsent (by simp [FinPart.armed])
    | again _ _ _ => exact .inl ⟨hthere, hsent⟩
    | unarmed _ _ _ => exact .inl ⟨hthere, hsent⟩
    | timedOut _ _ _ => exact absurd hsent (by simp [FinPart.ended])
    | ends code _ => exact absurd hsent (by simp [FinPart.ended])
    | cleared _ => exact absurd hsent (by simp [FinPart.ended])

/-- Where no side closes against a closing peer, the two are never both in
`FIN_SENT`. -/
theorem alone_step (hw : Inv w) (hok : w.Alone op) (h : ¬ ∀ side, w.FinSent side) :
    ¬ ∀ side, (w.step xxh32 op).FinSent side := by
  intro hboth
  obtain ⟨side, hside⟩ := not_forall.mp h
  rcases finSent_step hw (hboth side) with hold | ⟨hstate, now, answer, rfl⟩
  · exact hside hold
  · refine hok hstate ?_
    refine (finSent_step hw (hboth !side)).elim id fun hother => ?_
    obtain ⟨-, now', answer', heq⟩ := hother
    injection heq with hs
    exact absurd hs (by cases side <;> simp)

theorem alone_run (hw : Inv w) (h : ¬ ∀ side, w.FinSent side)
    (hok : Lib.Meets (step xxh32) Alone w ops) :
    ¬ ∀ side, (Lib.run (step xxh32) w ops).FinSent side := by
  have hrun : Inv (Lib.run (step xxh32) w ops) ∧
      ¬ ∀ side, (Lib.run (step xxh32) w ops).FinSent side :=
    Lib.run_inv (P := fun w => Inv w ∧ ¬ ∀ side, w.FinSent side)
      (fun w op h hok => ⟨h.1.step op, alone_step h.1 hok h.2⟩) ⟨hw, h⟩ hok
  exact hrun.2

-- ==== results

theorem unarmed_step (xxh32 : Nat → Nat) (hw : Inv w) (hok : ¬ w.Attended op) :
    ¬ (w.step xxh32 op).Armed := by
  intro harmed
  have hside : ∀ side cop, w.target op = some (side, cop) →
      ¬ (w.conn side).finPart.Attended cop → (w.conn side).destroyed = 0 → ClosingOp cop →
        False := by
    intro side cop h hcop hthere hclosing
    have hmove := finMove_step xxh32 ((hw.side side).established hthere) hclosing
    obtain ⟨hg, htimer⟩ := FinPart.unarmed_move (hw.side side).fin hmove hcop
    have hconn : ((w.step xxh32 op).conn side).finPart =
        ((w.conn side).step xxh32 cop).finPart := by
      rw [conn_step_some h, Function.update_self]
      rfl
    have hpending := harmed side (by rw [hconn]; exact hg)
    exact htimer ((congrArg FinPart.finTimer hconn).symm.trans hpending)
  cases op with
  | close side now answer =>
    refine hside side _ rfl hok ?_ trivial
    by_contra h0
    exact hok fun h => absurd h h0
  | finTimeout side now answer =>
    refine hside side _ rfl hok ?_ trivial
    by_contra h0
    exact hok fun h => absurd h h0
  | _ => exact hok trivial

/-- Two connected endpoints finish closing exactly in the runs where every FIN
goes out or is tried again and no side in `FIN_SENT` has its timer run out
with `fin_retries` at zero; what is promised of crossing closes holds in the
runs where none cross. -/
theorem closeFinishes_iff (scid host : Bool → Nat) (syns : Bool → List KcpSynFin)
    (finRetries : Bool → Nat) (ops : List PairOp) :
    (Lib.Meets (step xxh32) Attended (connected scid host syns finRetries) ops ↔
      CloseFinishes xxh32 (connected scid host syns finRetries) ops) ∧
    (Lib.Meets (step xxh32) Alone (connected scid host syns finRetries) ops →
      CrossingCloses xxh32 (connected scid host syns finRetries) ops) := by
  have hw := inv_connected scid host syns finRetries
  have harmed : (connected scid host syns finRetries).Armed := fun side h =>
    absurd h.2 (by simp [connected, finPart])
  have hnone : ¬ ∀ side, (connected scid host syns finRetries).FinSent side := fun h =>
    absurd (h true).2 (by simp [connected])
  generalize connected scid host syns finRetries = w at hw harmed hnone
  refine ⟨⟨fun hok => ?_, fun hfin => ?_⟩, fun hok => ?_⟩
  · exact {
      armed := by
        intro xs ys heq
        subst heq
        exact armed_run hw harmed ((Lib.meets_append w xs ys).mp hok).1
      closes := by
        intro xs ys heq side hclosing
        rw [heq, Lib.run_append]
        exact finClosing_run (inv_run hw xs) hclosing
      finishes := by
        intro xs ys heq side hclosing hresets u hlt
        subst heq
        rw [Lib.run_append]
        have hrun := closed_or_countSteps_le (inv_run hw xs) hclosing
          ((Lib.meets_append w xs ys).mp hok).2 hresets
        exact hrun.elim id fun hle => absurd hlt (Nat.not_lt.mpr hle)
      once := by
        intro side
        exact ⟨((inv_run hw ops).side side).fin.once, ((inv_run hw ops).side side).fin.gone⟩ }
  · refine Lib.meets_of_prefix fun xs op ys heq => ?_
    by_contra hok
    apply unarmed_step xxh32 (inv_run hw xs) hok
    have hafter := hfin.armed (xs ++ [op]) ys (by rw [heq, List.append_assoc]; rfl)
    rw [Lib.run_append] at hafter
    exact hafter
  · intro xs ys heq hboth
    subst heq
    exact absurd hboth (alone_run hw hnone ((Lib.meets_append w xs ys).mp hok).1)

/-- The pair of the runs below: the client has id 3, the server id 5. -/
def examplePair : ClosingPair :=
  connected (fun side => if side then 3 else 5) (fun side => if side then 7 else 9) (fun _ => [])
    fun _ => 2

/-- One side closes, the first FIN is lost, the second is answered, the answer
acknowledged. -/
theorem closeFinishes_iff_answered :
    CloseFinishes id examplePair
      [.close true 10 (SendAnswer.mk 1 false), .drop false 0,
        .finTimeout true 20 (SendAnswer.mk 1 false),
        .deliver false 0 30 (SendAnswer.mk 1 false), .deliver true 0 40 (SendAnswer.mk 1 false),
        .deliver false 0 50 (SendAnswer.mk 1 false)] :=
  (closeFinishes_iff _ _ _ _ _).1.mp (by decide)

/-- No FIN of the closing side arrives: the timer that finds the retries used
up is not set again. And the two FINs of sides that close at once are not
taken for answers: both arrive, and both sides stay in `FIN_SENT`. -/
theorem not_closeFinishes_unanswered :
    ¬ CloseFinishes id examplePair
      [.close true 10 (SendAnswer.mk 1 false), .finTimeout true 20 (SendAnswer.mk 1 false),
        .finTimeout true 30 (SendAnswer.mk 1 false), .finTimeout true 40 (SendAnswer.mk 1 false)] ∧
    ¬ CrossingCloses id examplePair
      [.close true 10 (SendAnswer.mk 1 false), .close false 10 (SendAnswer.mk 1 false),
        .deliver true 0 20 (SendAnswer.mk 1 false),
        .deliver false 0 20 (SendAnswer.mk 1 false)] := by
  constructor
  · intro h
    have harmed := h.armed _ [] (List.append_nil _).symm true (by decide)
    exact absurd harmed (by decide)
  · intro h
    have hclosed := h [.close true 10 (SendAnswer.mk 1 false),
      .close false 10 (SendAnswer.mk 1 false)] _ rfl (by decide) (by simp [Lossless]) (by decide)
        true
    exact absurd hclosed (by decide)

end ClosingPair

end Eular.Kcp
