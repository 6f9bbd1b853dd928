/-
How often CUBIC reduces its window.

A flight that loses packets should cost one reduction: a loss counts when
the packet was sent after the window was last reduced, and once in the
event that finds it. The send control keeps `m_largestSentAtCutback` for
that, but asks it only before it calls `onLoss`, which does nothing. The
window is multiplied in `onLost`, and that is called for every packet
that is given up. So the window is reduced once for each loss event
exactly where each event gives up a single packet, sent since the last
reduction and not a probe (`cubic_reduces_once_per_event`).

The window keeps its bounds throughout.
-/
import Eular.Utp.Congestion.Cubic
import Eular.Utp.Send.Proofs.Accounting

namespace Eular.Utp

open Lib

-- ==== bounds

namespace Cubic

variable {R : Type}

/-- `m_minCwnd <= m_cwnd <= kMaxCwnd`, `m_ssthresh >= m_minCwnd`. -/
structure Bounded (c : Cubic R) : Prop where
  minCwnd_le : c.minCwnd ≤ c.cwnd
  cwnd_le : c.cwnd ≤ kMaxCwnd
  minCwnd_le_ssthresh : c.minCwnd ≤ c.ssthresh

variable (reals : CubicReals R)

theorem bounded_init (cfg : CubicConfig) : (init reals cfg).Bounded where
  minCwnd_le := le_min (le_max_right _ _) (min_le_right _ _)
  cwnd_le := min_le_right _ _
  minCwnd_le_ssthresh := min_le_right _ _

variable {c : Cubic R}

theorem Bounded.resetEpoch (h : c.Bounded) : (c.resetEpoch reals).Bounded :=
  ⟨h.1, h.2, h.3⟩

@[simp] theorem ensureEpoch_cwnd (c : Cubic R) (nowUs : Nat) :
    (c.ensureEpoch reals nowUs).cwnd = c.cwnd := by
  unfold ensureEpoch
  split_ifs <;> rfl

@[simp] theorem ensureEpoch_frame (c : Cubic R) (nowUs : Nat) :
    (c.ensureEpoch reals nowUs).minCwnd = c.minCwnd
      ∧ (c.ensureEpoch reals nowUs).ssthresh = c.ssthresh
      ∧ (c.ensureEpoch reals nowUs).reductions = c.reductions := by
  unfold ensureEpoch
  split_ifs <;> exact ⟨rfl, rfl, rfl⟩

/-- An acknowledgement adds to the window, up to its bound, and changes
neither the other bounds nor the count. -/
theorem onAck_cases (cenv : CongestionEnv) (c : Cubic R) (info : PacketInfo) (nowUs : Nat) :
    (∃ inc, (c.onAck reals cenv info nowUs).cwnd = min (c.cwnd + inc) kMaxCwnd)
      ∧ (c.onAck reals cenv info nowUs).minCwnd = c.minCwnd
      ∧ (c.onAck reals cenv info nowUs).ssthresh = c.ssthresh
      ∧ (c.onAck reals cenv info nowUs).reductions = c.reductions := by
  unfold onAck
  by_cases hslow : c.cwnd < c.ssthresh
  · simp only [hslow, if_true]
    exact ⟨⟨_, rfl⟩, trivial, trivial, trivial⟩
  · simp only [hslow, if_false, ensureEpoch_cwnd]
    exact ⟨⟨_, rfl⟩, ensureEpoch_frame reals _ nowUs⟩

theorem Bounded.onAck (h : c.Bounded) (cenv : CongestionEnv) (info : PacketInfo)
    (nowUs : Nat) : (c.onAck reals cenv info nowUs).Bounded := by
  obtain ⟨⟨inc, hcwnd⟩, hmin, hssthresh, -⟩ := onAck_cases reals cenv c info nowUs
  have hroom : c.minCwnd ≤ kMaxCwnd := h.minCwnd_le.trans h.cwnd_le
  constructor
  · rw [hmin, hcwnd]
    exact le_min (h.minCwnd_le.trans (Nat.le_add_right _ _)) hroom
  · rw [hcwnd]
    exact min_le_right _ _
  · rw [hmin, hssthresh]
    exact h.minCwnd_le_ssthresh

theorem le_onAck_cwnd (h : c.Bounded) (cenv : CongestionEnv) (info : PacketInfo)
    (nowUs : Nat) : c.cwnd ≤ (c.onAck reals cenv info nowUs).cwnd := by
  obtain ⟨⟨inc, hcwnd⟩, -⟩ := onAck_cases reals cenv c info nowUs
  rw [hcwnd]
  exact le_min (Nat.le_add_right _ _) h.cwnd_le

/-- The product is no larger than the window, so the bound above holds
whatever it is; the one below is restored. -/
theorem Bounded.onLost (h : c.Bounded) : (c.onLost reals).Bounded where
  minCwnd_le := le_max_right _ _
  cwnd_le := max_le ((reals.timesBeta_le _).trans h.cwnd_le) (h.minCwnd_le.trans h.cwnd_le)
  minCwnd_le_ssthresh := le_max_right _ _

theorem Bounded.onTimeout (h : c.Bounded) : (c.onTimeout reals).Bounded where
  minCwnd_le := le_rfl
  cwnd_le := h.minCwnd_le.trans h.cwnd_le
  minCwnd_le_ssthresh := le_max_right _ _

end Cubic

-- ==== calls

namespace CongestionCall

/-- The packet a call reports through `handleRegularLostPacket`. -/
def lostPacket? : CongestionCall → Option QueuedPacket
  | .lost q => some q
  | _ => none

def isTimeout : CongestionCall → Bool
  | .timeout => true
  | _ => false

end CongestionCall

theorem le_max_number (a b : UInt64) : a ≤ max a b := by
  show a ≤ if a ≤ b then b else a
  split
  · assumption
  · exact UInt64.le_refl a

namespace CongestionSide

variable {κ β : Type} {cc : Congestion κ β} {cenv : CongestionEnv}

/-- The guard never outruns the numbers it is to hold. -/
structure Guarded (s : CongestionSide κ β) : Prop where
  cutback_le : s.largestSentAtCutback ≤ s.lastSentAtLoss
  atLoss_le : s.lastSentAtLoss ≤ s.lastSent

theorem Guarded.onLost {s : CongestionSide κ β} (h : s.Guarded) (q : QueuedPacket) :
    (s.onLost cc q).Guarded :=
  ⟨UInt64.le_trans h.cutback_le h.atLoss_le, UInt64.le_refl _⟩

/-- Every call keeps the guard, but for the test at the end of
`detectLosses`. -/
theorem Guarded.call {s : CongestionSide κ β} (h : s.Guarded) {c : CongestionCall}
    (hc : ∀ n, c ≠ .detected n) : (s.call cc cenv c).Guarded := by
  cases c with
  | packetSent q inFlight =>
    exact ⟨h.cutback_le, UInt64.le_trans h.atLoss_le (le_max_number _ _)⟩
  | lost q => exact h.onLost q
  | destroy q =>
    show (if _ then _ else _ : CongestionSide κ β).Guarded
    split
    · exact h.onLost q
    · exact h
  | detected n => exact absurd rfl (hc n)
  | _ => exact ⟨h.cutback_le, h.atLoss_le⟩

/-- A list of calls, one after another. -/
abbrev calls (cc : Congestion κ β) (cenv : CongestionEnv) (s : CongestionSide κ β)
    (l : List CongestionCall) : CongestionSide κ β :=
  l.foldl (call cc cenv) s

theorem Guarded.calls {l : List CongestionCall} (hl : ∀ c ∈ l, ∀ n, c ≠ .detected n) :
    ∀ {s : CongestionSide κ β}, s.Guarded → (s.calls cc cenv l).Guarded := by
  induction l with
  | nil => intro s h; exact h
  | cons c l ih =>
    intro s h
    apply ih fun d hd => hl d (List.mem_cons_of_mem c hd)
    exact h.call (hl c List.mem_cons_self)

/-- What loss detection reports, packet by packet. -/
def Reports : CongestionCall → Prop
  | .lost _ | .destroy _ => True
  | _ => False

/-- While losses are reported nothing is sent; after a report the two
numbers are the same. -/
theorem calls_reports {l : List CongestionCall} (hl : ∀ c ∈ l, Reports c) :
    ∀ {s : CongestionSide κ β}, (s.lastSentAtLoss = s.lastSent ∨ ∃ q, .lost q ∈ l) →
      (s.calls cc cenv l).lastSentAtLoss = (s.calls cc cenv l).lastSent := by
  induction l with
  | nil =>
    rintro s (h | ⟨q, hq⟩)
    · exact h
    · exact absurd hq List.not_mem_nil
  | cons c l ih =>
    intro s h
    apply ih fun d hd => hl d (List.mem_cons_of_mem c hd)
    cases c with
    | lost q => exact .inl rfl
    | destroy q =>
      by_cases hbw : (s.bwState q.ptr).isSome
      · left
        show (if _ then _ else _ : CongestionSide κ β).lastSentAtLoss
          = (if _ then _ else _ : CongestionSide κ β).lastSent
        rw [if_pos hbw]
        rfl
      · have hsame : s.call cc cenv (.destroy q) = s := if_neg hbw
        rw [hsame]
        refine h.imp_right ?_
        rintro ⟨p, hp⟩
        exact ⟨p, (List.mem_cons.mp hp).resolve_left (by simp)⟩
    | _ => exact absurd (hl _ List.mem_cons_self) id

end CongestionSide

namespace SendControl

variable {κ β : Type} {cc : Congestion κ β} {cenv : CongestionEnv} (gcm : Gcm)
  (env : SendCtlEnv)

-- ==== shapes of calls

/-- No test for a loss event is among the calls. -/
def NoTest (l : List CongestionCall) : Prop := ∀ c ∈ l, ∀ n, c ≠ .detected n

theorem NoTest.append {l l' : List CongestionCall} (h : NoTest l) (h' : NoTest l') :
    NoTest (l ++ l') := by
  intro c hc
  exact (List.mem_append.mp hc).elim (h c) (h' c)

theorem NoTest.cons {c : CongestionCall} {l : List CongestionCall} (hc : ∀ n, c ≠ .detected n)
    (h : NoTest l) : NoTest (c :: l) := by
  intro d hd
  obtain rfl | hd := List.mem_cons.mp hd
  · exact hc
  · exact h d hd

theorem noTest_nil : NoTest [] := fun _ hc => absurd hc List.not_mem_nil

theorem noTest_announce (l : List QueuedPacket) (inFlight : Nat) :
    NoTest (announce inFlight l) := by
  induction l generalizing inFlight with
  | nil => exact noTest_nil
  | cons q l ih => exact (ih _).cons fun n => by simp

theorem noTest_sentCalls (s s' : SendControl) : NoTest (sentCalls s s') := noTest_announce _ _

variable (s : SendControl)

theorem noTest_expireCalls (filter : ExpireFilter) :
    NoTest (s.expireCalls filter) := by
  unfold expireCalls
  split
  · split
    · exact noTest_nil.cons fun n => by simp
    · exact noTest_nil
  · intro c hc
    obtain ⟨q, -, rfl⟩ := List.mem_map.mp hc
    split <;> simp

theorem noTest_walkCalls (nowUs : Nat) (l : List QueuedPacket) (s : SendControl) :
    NoTest (walkCalls gcm env nowUs s l) := by
  induction l generalizing s with
  | nil => exact noTest_nil
  | cons q l ih =>
    exact ((noTest_sentCalls _ _).append (ih _)).cons fun n => by simp

theorem noTest_ackRoundCalls (wasQuiet : Bool) (ackInfo : AckInfo) :
    NoTest (s.ackRoundCalls gcm env wasQuiet ackInfo) := by
  unfold ackRoundCalls
  apply NoTest.append
  · apply NoTest.append
    · split
      · exact noTest_nil.cons fun n => by simp
      · exact noTest_nil
    · exact (noTest_walkCalls gcm env _ _ _).cons fun n => by simp
  · exact noTest_nil.cons fun n => by simp

theorem ackDetectCalls_cases (ackInfo : AckInfo) :
    s.ackDetectCalls gcm env ackInfo = []
      ∨ s.ackDetectCalls gcm env ackInfo = (s.ackEnd gcm env ackInfo).detectCalls env := by
  unfold ackDetectCalls
  split_ifs
  · exact .inl rfl
  · exact .inr rfl
  · exact .inl rfl

/-- The calls of an event are calls without a test, and behind them perhaps
those of one `detectLosses`. -/
theorem congestionCalls_cases (wasQuiet : Bool)
    (event : SendCtlEnv × SendCtlOp) :
    NoTest (s.congestionCalls gcm wasQuiet event) ∨
      ∃ (pre : List CongestionCall) (t : SendControl) (env : SendCtlEnv),
        NoTest pre ∧ s.congestionCalls gcm wasQuiet event = pre ++ t.detectCalls env := by
  obtain ⟨env, op⟩ := event
  cases op with
  | ack ackInfo =>
    have hround := noTest_ackRoundCalls gcm env s wasQuiet ackInfo
    show NoTest (s.ackCalls gcm env wasQuiet ackInfo) ∨ ∃ pre t env', NoTest pre ∧
      s.ackCalls gcm env wasQuiet ackInfo = pre ++ SendControl.detectCalls env' t
    unfold ackCalls
    obtain hnil | hdetect := ackDetectCalls_cases gcm env s ackInfo
    · left
      rw [hnil, List.append_nil]
      exact hround
    · right
      rw [hdetect]
      exact ⟨_, _, _, hround, rfl⟩
  | detectLosses => exact .inr ⟨[], s, env, noTest_nil, rfl⟩
  | expireUnacked filter => exact .inl (noTest_expireCalls s filter)
  | retransTimer =>
    show NoTest (s.retransTimerCalls env) ∨ ∃ pre t env', NoTest pre ∧
      s.retransTimerCalls env = pre ++ SendControl.detectCalls env' t
    unfold retransTimerCalls
    split
    · exact .inl noTest_nil
    · split
      · exact .inl (noTest_expireCalls s _)
      · exact .inr ⟨[], s, env, noTest_nil, rfl⟩
      · exact .inl (noTest_expireCalls s _)
      · left
        apply NoTest.append _ (noTest_expireCalls s _)
        split
        · exact noTest_nil.cons fun n => by simp
        · exact noTest_nil
  | _ => exact .inl (noTest_sentCalls _ _)

-- ==== the guard

theorem reports_verdictCalls (q : QueuedPacket) (verdict : LossVerdict) :
    ∀ c ∈ verdictCalls q verdict, CongestionSide.Reports c := by
  intro c hc
  cases verdict with
  | kept => exact absurd hc List.not_mem_nil
  | fack =>
    simp only [verdictCalls] at hc
    split at hc
    all_goals
      obtain rfl := List.mem_singleton.mp hc
      exact trivial
  | _ =>
    obtain rfl := List.mem_singleton.mp hc
    exact trivial

/-- A packet that sets `largestLostPackNo` is reported. -/
theorem lost_mem_verdictCalls {q : QueuedPacket} {verdict : LossVerdict}
    (h : countsAsLost q verdict = true) : .lost q ∈ verdictCalls q verdict := by
  cases verdict with
  | kept => exact absurd h (by simp [countsAsLost])
  | fack =>
    have hprobe : q.isMtuProbe = false := by simpa [countsAsLost] using h
    simp [verdictCalls, hprobe]
  | _ => exact List.mem_singleton_self _

/-- `detectLosses` moves the guard only after it has reported a loss. -/
theorem guarded_detectCalls {c : CongestionSide κ β} (h : c.Guarded) :
    (c.calls cc cenv (s.detectCalls env)).Guarded := by
  set reports := s.inspected.flatMap fun q =>
    verdictCalls q (s.lossVerdict env s.largestRetxPacketNo q) with hreports
  have hall : ∀ d ∈ reports, CongestionSide.Reports d := by
    intro d hd
    obtain ⟨q, -, hq⟩ := List.mem_flatMap.mp hd
    exact reports_verdictCalls q _ d hq
  have hnotest : ∀ d ∈ reports, ∀ n, d ≠ .detected n := by
    rintro d hd n rfl
    exact hall _ hd
  have hbefore : (c.calls cc cenv reports).Guarded := h.calls hnotest
  unfold detectCalls CongestionSide.calls
  rw [List.foldl_append, ← hreports]
  show (if _ then _ else _ : CongestionSide κ β).Guarded
  split
  · rename_i hlarger
    have hlost : ∃ q, .lost q ∈ reports := by
      unfold largestLostPackNo at hlarger
      split at hlarger
      · rename_i q hq
        have hmem := List.mem_of_find?_eq_some hq
        have hcounts : countsAsLost q (s.lossVerdict env s.largestRetxPacketNo q) = true := by
          simpa using List.find?_some hq
        exact ⟨q, List.mem_flatMap.mpr ⟨q, List.mem_reverse.mp hmem,
          lost_mem_verdictCalls hcounts⟩⟩
      · exact absurd hlarger (UInt64.not_lt.mpr (UInt64.zero_le))
    have heq : (c.calls cc cenv reports).lastSentAtLoss = (c.calls cc cenv reports).lastSent :=
      CongestionSide.calls_reports hall (.inr hlost)
    exact ⟨UInt64.le_of_eq heq.symm, hbefore.atLoss_le⟩
  · exact hbefore

theorem guarded_congestionCalls (wasQuiet : Bool)
    (event : SendCtlEnv × SendCtlOp) {c : CongestionSide κ β} (h : c.Guarded) :
    (c.calls cc cenv (s.congestionCalls gcm wasQuiet event)).Guarded := by
  obtain hnone | ⟨pre, t, env, hpre, heq⟩ := congestionCalls_cases gcm s wasQuiet event
  · exact h.calls hnone
  · rw [heq]
    unfold CongestionSide.calls
    rw [List.foldl_append]
    exact guarded_detectCalls env t (h.calls hpre)

end SendControl

-- ==== reductions

namespace Cubic

variable {R : Type} (reals : CubicReals R) (cenv : CongestionEnv)

/-- The controller's bounds, and that it hangs nothing on a packet. -/
structure Sound (s : CongestionSide (Cubic R) Unit) : Prop where
  bounded : s.congestion.Bounded
  bare : ∀ ptr, s.bwState ptr = none

theorem Sound.update {s : CongestionSide (Cubic R) Unit} (h : Sound s) (ptr : Nat) :
    ∀ ptr', Function.update s.bwState ptr (s.bwState ptr) ptr' = none := by
  intro ptr'
  rw [Function.update_eq_self]
  exact h.bare ptr'

/-- One call: it keeps the bounds; it reduces the window if it is `onLost`;
and if it is neither that nor `onTimeout`, the window does not fall. -/
theorem Sound.call {s : CongestionSide (Cubic R) Unit} (h : Sound s) (c : CongestionCall) :
    Sound (s.call (controller reals) cenv c)
      ∧ (s.call (controller reals) cenv c).congestion.reductions
        = s.congestion.reductions + (c.lostPacket?.toList).length
      ∧ (c.lostPacket? = none → c.isTimeout = false →
        s.congestion.cwnd ≤ (s.call (controller reals) cenv c).congestion.cwnd) := by
  cases c with
  | packetSent q inFlight =>
    exact ⟨⟨h.bounded, h.update q.ptr⟩, rfl, fun _ _ => le_rfl⟩
  | wasQuiet nowUs inFlight =>
    by_cases hquiet : inFlight = 0
    · have hreset : (s.call (controller reals) cenv (.wasQuiet nowUs inFlight)).congestion
          = s.congestion.resetEpoch reals := if_pos hquiet
      refine ⟨⟨?_, h.bare⟩, ?_, fun _ _ => ?_⟩
      · rw [hreset]
        exact h.bounded.resetEpoch reals
      · rw [hreset]
        rfl
      · rw [hreset]
        exact le_rfl
    · have hsame : (s.call (controller reals) cenv (.wasQuiet nowUs inFlight)).congestion
          = s.congestion := if_neg hquiet
      rw [hsame]
      exact ⟨⟨hsame ▸ h.bounded, h.bare⟩, rfl, fun _ _ => le_rfl⟩
  | beginAck nowUs inFlight => exact ⟨h, rfl, fun _ _ => le_rfl⟩
  | ack q nowUs =>
    exact ⟨⟨h.bounded.onAck reals cenv q.info nowUs, h.update q.ptr⟩,
      (onAck_cases reals cenv s.congestion q.info nowUs).2.2.2,
      fun _ _ => le_onAck_cwnd reals h.bounded cenv q.info nowUs⟩
  | endAck inFlight => exact ⟨h, rfl, fun _ _ => le_rfl⟩
  | lost q =>
    exact ⟨⟨h.bounded.onLost reals, h.update q.ptr⟩, rfl, fun hnone => by cases hnone⟩
  | destroy q =>
    have hsame : s.call (controller reals) cenv (.destroy q) = s :=
      if_neg (by rw [h.bare]; simp)
    rw [hsame]
    exact ⟨h, rfl, fun _ _ => le_rfl⟩
  | detected n =>
    have hcubic : (s.call (controller reals) cenv (.detected n)).congestion = s.congestion
        ∧ (s.call (controller reals) cenv (.detected n)).bwState = s.bwState := by
      show (if _ then _ else _ : CongestionSide _ _).congestion = _ ∧
        (if _ then _ else _ : CongestionSide _ _).bwState = _
      split <;> exact ⟨rfl, rfl⟩
    refine ⟨⟨?_, ?_⟩, ?_, fun _ _ => ?_⟩
    · rw [hcubic.1]
      exact h.bounded
    · rw [hcubic.2]
      exact h.bare
    · rw [hcubic.1]
      rfl
    · rw [hcubic.1]
  | timeout =>
    exact ⟨⟨h.bounded.onTimeout reals, h.bare⟩, rfl, fun _ htimeout => by cases htimeout⟩

/-- A list of calls: the window is reduced once for every `onLost`. -/
theorem Sound.calls (l : List CongestionCall) :
    ∀ {s : CongestionSide (Cubic R) Unit}, Sound s →
      Sound (s.calls (controller reals) cenv l)
        ∧ (s.calls (controller reals) cenv l).congestion.reductions
          = s.congestion.reductions + (l.filterMap CongestionCall.lostPacket?).length
        ∧ (l.filterMap CongestionCall.lostPacket? = [] →
          l.any CongestionCall.isTimeout = false →
          s.congestion.cwnd ≤ (s.calls (controller reals) cenv l).congestion.cwnd) := by
  induction l with
  | nil => intro s h; exact ⟨h, rfl, fun _ _ => le_rfl⟩
  | cons c l ih =>
    intro s h
    obtain ⟨hsound, hcount, hle⟩ := h.call reals cenv c
    obtain ⟨hsound', hcount', hle'⟩ := ih hsound
    refine ⟨hsound', ?_, ?_⟩
    · rw [CongestionSide.calls, List.foldl_cons]
      refine hcount'.trans ?_
      rw [hcount, Nat.add_assoc]
      congr 1
      cases hc : c.lostPacket? with
      | none => simp [hc]
      | some q => simp [hc, Nat.add_comm]
    · intro hnone htimeout
      rw [List.any_cons, Bool.or_eq_false_iff] at htimeout
      cases hc : c.lostPacket? with
      | none =>
        rw [List.filterMap_cons_none hc] at hnone
        exact (hle hc htimeout.1).trans (hle' hnone htimeout.2)
      | some q =>
        rw [List.filterMap_cons_some hc] at hnone
        exact absurd hnone (List.cons_ne_nil _ _)

end Cubic

namespace CongestedSend

variable {R : Type} (gcm : Gcm) (reals : CubicReals R)

variable (s : CongestedSend (Cubic R) Unit)

/-- The packets an event gives up through `handleRegularLostPacket`. -/
def losses (op : CongestionEnv × SendCtlEnv × SendCtlOp) :
    List QueuedPacket :=
  (s.calls gcm (Cubic.controller reals) op).filterMap CongestionCall.lostPacket?

/-- A packet counts if it is no probe and was sent after the window was last
reduced. -/
def counts (q : QueuedPacket) : Bool :=
  !q.isMtuProbe && s.lastSentAtLoss < q.packno

/-- The event reduces the window once if some packet it gives up counts, else
not at all; and without a loss that counts or a timeout the window does
not fall. -/
def OncePerEvent (op : CongestionEnv × SendCtlEnv × SendCtlOp) : Prop :=
  (s.step gcm (Cubic.controller reals) op).congestion.reductions
      = s.congestion.reductions + (if (s.losses gcm reals op).any s.counts then 1 else 0)
    ∧ ((s.losses gcm reals op).any s.counts = false →
      (s.calls gcm (Cubic.controller reals) op).any CongestionCall.isTimeout = false →
      s.congestion.cwnd ≤ (s.step gcm (Cubic.controller reals) op).congestion.cwnd)

/-- The event gives up at most one packet, and that packet counts. -/
def SingleLoss (op : CongestionEnv × SendCtlEnv × SendCtlOp) : Prop :=
  (s.losses gcm reals op).length ≤ 1 ∧ ∀ q ∈ s.losses gcm reals op, s.counts q = true

theorem length_eq_any_iff {α : Type} (p : α → Bool) (l : List α) :
    l.length = (if l.any p then 1 else 0) ↔ l.length ≤ 1 ∧ ∀ a ∈ l, p a = true := by
  match l with
  | [] => simp
  | [a] => by_cases h : p a = true <;> simp [h]
  | a :: b :: l =>
    refine iff_of_false ?_ (by simp)
    rw [List.length_cons, List.length_cons]
    split <;> omega

structure Kept (s : CongestedSend (Cubic R) Unit) : Prop where
  sound : Cubic.Sound s.toCongestionSide
  guarded : s.toCongestionSide.Guarded

theorem kept_step {s : CongestedSend (Cubic R) Unit} (h : s.Kept)
    (op : CongestionEnv × SendCtlEnv × SendCtlOp) :
    (s.step gcm (Cubic.controller reals) op).Kept :=
  ⟨(h.sound.calls reals op.1 _).1, SendControl.guarded_congestionCalls gcm _ _ _ h.guarded⟩

theorem oncePerEvent_iff {s : CongestedSend (Cubic R) Unit} (h : s.Kept)
    (op : CongestionEnv × SendCtlEnv × SendCtlOp) :
    s.OncePerEvent gcm reals op ↔ s.SingleLoss gcm reals op := by
  obtain ⟨-, hcount, hle⟩ := h.sound.calls reals op.1 (s.calls gcm (Cubic.controller reals) op)
  have hiff := length_eq_any_iff s.counts (s.losses gcm reals op)
  constructor
  · rintro ⟨honce, -⟩
    apply hiff.mp
    have hboth := hcount.symm.trans honce
    exact Nat.add_left_cancel hboth
  · intro hsingle
    refine ⟨hcount.trans (congrArg _ (hiff.mpr hsingle)), fun hnone htimeout => ?_⟩
    apply hle _ htimeout
    have hlength := hiff.mpr hsingle
    rw [hnone] at hlength
    exact List.length_eq_zero_iff.mp hlength

/-- A send control with CUBIC, before anything was sent. -/
def initCubic (cfg : CubicConfig) (packetNumber : UInt64) (mtu : MtuDiscovery) (bytesOut : Nat) :
    CongestedSend (Cubic R) Unit where
  toSendControl := SendControl.init packetNumber mtu bytesOut
  congestion := Cubic.init reals cfg

theorem kept_init (cfg : CubicConfig) (packetNumber : UInt64) (mtu : MtuDiscovery)
    (bytesOut : Nat) : (initCubic reals cfg packetNumber mtu bytesOut).Kept where
  sound := ⟨Cubic.bounded_init reals cfg, fun _ => rfl⟩
  guarded := ⟨UInt64.le_refl _, UInt64.le_refl _⟩

/-- In every run the window keeps its bounds, and `m_largestSentAtCutback` is
no larger than the number up to which a loss does not count. The window
is reduced once per loss event in the runs whose events give up one
packet at a time, each sent after the last reduction, and in no others. -/
theorem cubic_reduces_once_per_event (cfg : CubicConfig) (packetNumber : UInt64)
    (mtu : MtuDiscovery) (bytesOut : Nat)
    (ops : List (CongestionEnv × SendCtlEnv × SendCtlOp)) :
    let step := CongestedSend.step gcm (Cubic.controller reals)
    let start := initCubic reals cfg packetNumber mtu bytesOut
    (run step start ops).congestion.Bounded
      ∧ (run step start ops).largestSentAtCutback ≤ (run step start ops).lastSentAtLoss
      ∧ (Meets step (OncePerEvent gcm reals) start ops
        ↔ Meets step (SingleLoss gcm reals) start ops) := by
  intro step start
  have hstart : start.Kept := kept_init reals cfg packetNumber mtu bytesOut
  have hkept : (run step start ops).Kept :=
    run_inv_of_step (P := Kept) (fun _ op h => kept_step gcm reals h op) ops hstart
  exact ⟨hkept.sound.bounded, hkept.guarded.cutback_le,
    meets_congr (P := Kept) (fun s op h => oncePerEvent_iff gcm reals h op)
      (fun s op h _ => kept_step gcm reals h op) hstart⟩

/-- The arithmetic with `m_beta` at seven tenths, and a flat curve. -/
def tenths : CubicReals Unit where
  zero := ()
  cbrt := fun _ _ => ()
  targetBytes := fun _ _ _ _ _ => 0
  timesBeta := fun x => x * 7 / 10
  timesBeta_le := fun x => by omega
  betweenMax := fun x => x * 13 / 20
  betweenMax_le := fun x => by omega

/-- Three MAX_DATA frames go out, and the peer acknowledges the last. -/
def twoLost : List (CongestionEnv × SendCtlEnv × SendCtlOp) :=
  let op : SendCtlOp :=
    .send (.packet { packetType := UTP_TYPE_CTRL, payload := [18, 0, 0, 0, 0, 0, 1, 0, 0] })
  [({}, {}, op), ({}, {}, op), ({}, {}, op),
    ({}, {}, .ack { largestAckPackno := 3, ackRanges := [(3, 3)] })]

/-- The two packets of one flight, found lost by one ACK frame, reduce the
window twice: from 46749 bytes, with what was acknowledged, to 22906. -/
theorem not_oncePerEvent_twoLost :
    ¬ Meets (step unusedGcm (Cubic.controller tenths)) (OncePerEvent unusedGcm tenths)
        (initCubic tenths {} 1 {} 130) twoLost
      ∧ (run (step unusedGcm (Cubic.controller tenths)) (initCubic tenths {} 1 {} 130)
        twoLost).congestion.cwnd = 22906 := by
  refine ⟨?_, by decide +kernel⟩
  rintro ⟨-, -, -, ⟨honce, -⟩, -⟩
  have htwo : (run (step unusedGcm (Cubic.controller tenths)) (initCubic tenths {} 1 {} 130)
      twoLost).congestion.reductions = 2 := by
    decide +kernel
  have hnone : (run (step unusedGcm (Cubic.controller tenths)) (initCubic tenths {} 1 {} 130)
      (twoLost.take 3)).congestion.reductions = 0 := by
    decide +kernel
  have hboth := htwo.symm.trans (honce.trans (congrArg (· + _) hnone))
  split at hboth
  · exact absurd hboth (by decide)
  · exact absurd hboth (by decide)

end CongestedSend

end Eular.Utp
