/-
What BBR does and does not survive.

`Fit` is what the functions rely on: two pacing gains at least, since
`enterProbeBWMode` divides by one less than their number; bounds of the
window in their order; the options off; and what the assertion in
`checkIsFullBwReached` needs to know of the samples there were. Each step
of `onEndAck` returns when it holds, and is `Steady`: it leaves alone
everything but what it is there to change.

The configuration does not have to be fit, and what the storage held in
the two members of the recovery state that nothing initialises may not
be. `bbr_safe` says what is enough; the runs behind it fail.
-/
import Eular.Utp.Congestion.BbrV1

namespace Eular.Utp

open Lib

-- ==== returns

/-- The computation returns, and what it returns meets `P`; unless it may
fail, and does. -/
def Returns (mayFail : Prop) {α : Type} (x : Except BbrFault α) (P : α → Prop) : Prop :=
  (∃ a, x = .ok a ∧ P a) ∨ mayFail ∧ ∃ fault, x = .error fault

namespace Returns

variable {mayFail : Prop} {α β : Type} {P : α → Prop} {Q : β → Prop}

theorem ok {a : α} (h : P a) : Returns mayFail (.ok a) P := .inl ⟨a, rfl, h⟩

theorem error {fault : BbrFault} (h : mayFail) : Returns mayFail (.error fault) P :=
  .inr ⟨h, fault, rfl⟩

variable {x : Except BbrFault α}

theorem bind {f : α → Except BbrFault β} (hx : Returns mayFail x P)
    (hf : ∀ a, P a → Returns mayFail (f a) Q) : Returns mayFail (x >>= f) Q := by
  obtain ⟨a, rfl, ha⟩ | ⟨hmay, fault, rfl⟩ := hx
  · exact hf a ha
  · exact .error hmay

theorem onlyIf {cond : Bool} {branch : α → Except BbrFault α} {a : α}
    (hbranch : cond = true → Returns mayFail (branch a) P) (ha : P a) :
    Returns mayFail (Utp.onlyIf cond branch a) P := by
  unfold Utp.onlyIf
  by_cases hcond : cond = true
  · rw [if_pos hcond]
    exact hbranch hcond
  · rw [if_neg hcond]
    exact .ok ha

theorem guarded {c : Prop} [Decidable c] {fault : BbrFault}
    (hnot : mayFail ∨ ¬c) (hx : ¬c → Returns mayFail x P) :
    Returns mayFail (if c then .error fault else x) P := by
  by_cases hc : c
  · rw [if_pos hc]
    exact .error (hnot.resolve_right (not_not_intro hc))
  · rw [if_neg hc]
    exact hx hc

theorem imp {P' : α → Prop} (hx : Returns mayFail x P)
    (h : ∀ a, P a → P' a) : Returns mayFail x P' :=
  hx.imp_left fun ⟨a, hok, ha⟩ => ⟨a, hok, h a ha⟩

theorem exists_ok (h : Returns False x P) : ∃ a, x = .ok a ∧ P a :=
  h.resolve_right And.left

end Returns

variable {mayFail : Prop}

theorem returns_bwFromBytesAndDelta {bytes usecs : UInt64} (h : mayFail ∨ usecs ≠ 0) :
    Returns mayFail (bwFromBytesAndDelta bytes usecs) fun _ => True :=
  .guarded h fun _ => .ok trivial

theorem sub_ne_zero_of_earlier {a b : UInt64} (h : b < a) : a - b ≠ 0 := by
  intro heq
  have hab : a = b := by
    rw [← UInt64.sub_add_cancel a b, heq, UInt64.zero_add]
  exact UInt64.lt_irrefl _ (hab ▸ h)

-- ==== sampler

namespace BandwidthSampler

theorem returns_sample (b : BandwidthSampler) (info : SampledPacket) (packetState : BWPacketState)
    (ackTime : UInt64) :
    Returns mayFail (b.sample info packetState ackTime) fun _ => True := by
  unfold sample
  by_cases hnone : packetState.lastAckSentTime = 0
  · rw [if_pos hnone]
    exact .ok trivial
  · rw [if_neg hnone]
    have hsend : Returns mayFail (sendRate info packetState) fun _ => True := by
      unfold sendRate
      by_cases hlater : packetState.lastAckSentTime < info.sendTimeUs
      · rw [if_pos hlater]
        exact returns_bwFromBytesAndDelta (.inr (sub_ne_zero_of_earlier hlater))
      · rw [if_neg hlater]
        exact .ok trivial
    apply hsend.bind
    intro rate _
    by_cases hearly : ackTime ≤ packetState.lastAckAckTime
    · simp only [hearly, if_true]
      exact .ok trivial
    · simp only [hearly, if_false]
      have hdelta := sub_ne_zero_of_earlier (UInt64.not_le.mp hearly)
      apply (returns_bwFromBytesAndDelta (.inr hdelta)).bind
      intro ackRate _
      split
      · exact .ok trivial
      · exact .ok trivial

theorem returns_onPacketAcked (b : BandwidthSampler) (info : SampledPacket)
    (packetState : Option BWPacketState) (ackTime : UInt64) :
    Returns mayFail (b.onPacketAcked info packetState ackTime) fun _ => True := by
  cases packetState with
  | none => exact .ok trivial
  | some packetState =>
    apply (returns_sample _ info packetState ackTime).bind
    intro sample _
    exact .ok trivial

end BandwidthSampler

-- ==== steady

namespace BbrV1

variable {R : Type} {reals : BbrReals R} {cenv : CongestionEnv} {s t u : BbrV1 R}

/-- The samples there were: one that was not limited by the application, or
the last was, or there has been none. -/
def Sampled (s : BbrV1 R) : Prop :=
  s.flags.hasNonAppLimited = true ∨ s.flags.lastSampleAppLimited = true
    ∨ (s.maxBandwidth.get = 0 ∧ s.bwAtLastRound = 0)

/-- What no step changes. -/
def fixed (s : BbrV1 R) : List R × UInt64 × UInt64 × UInt64 × R × Bool × Bool :=
  (s.pacingGains, s.minCwnd, s.maxCwnd, s.configMinCwnd, s.startupGrowthTarget,
    s.flags.probeRttBasedOnBdp, s.flags.rateBasedStartup)

/-- The windows, the round, the record of the acknowledgement, the counts and
the flag `IN_ACK`. -/
def ledger (s : BbrV1 R) :
    (UInt64 × RecoveryState × UInt64) × UInt64 × AckState × Nat × (UInt64 × UInt64) × Bool :=
  ((s.cwnd, s.recoveryState, s.recoveryWindow), s.roundCount, s.ackState, s.endAcks,
    (s.bytesReported, s.bytesSeen), s.flags.inAck)

/-- A step that is about none of these. -/
structure Steady (s t : BbrV1 R) : Prop where
  fixed : t.fixed = s.fixed
  ledger : t.ledger = s.ledger
  sampled : s.Sampled → t.Sampled

namespace Steady

theorem refl (s : BbrV1 R) : Steady s s := ⟨rfl, rfl, id⟩

theorem trans (h : Steady s t) (h' : Steady t u) : Steady s u :=
  ⟨h'.fixed.trans h.fixed, h'.ledger.trans h.ledger, h'.sampled ∘ h.sampled⟩

theorem aside (hfixed : t.fixed = s.fixed) (hledger : t.ledger = s.ledger)
    (hflags : t.flags.hasNonAppLimited = s.flags.hasNonAppLimited
      ∧ t.flags.lastSampleAppLimited = s.flags.lastSampleAppLimited)
    (hmax : t.maxBandwidth = s.maxBandwidth ∧ t.bwAtLastRound = s.bwAtLastRound) :
    Steady s t := by
  refine ⟨hfixed, hledger, ?_⟩
  unfold Sampled
  rw [hflags.1, hflags.2, hmax.1, hmax.2]
  exact id

end Steady

structure Fit (reals : BbrReals R) (s : BbrV1 R) : Prop where
  gains : 2 ≤ s.pacingGains.length
  bounds : s.minCwnd ≤ s.maxCwnd
  probeRttCwnd : s.configMinCwnd = s.minCwnd
  growth : reals.timesBw 0 s.startupGrowthTarget = 0
  notByBdp : s.flags.probeRttBasedOnBdp = false
  notByRate : s.flags.rateBasedStartup = false
  sampled : s.Sampled

theorem Fit.of_fixed (h : s.Fit reals) (hfixed : t.fixed = s.fixed) (hsampled : t.Sampled) :
    t.Fit reals := by
  simp only [BbrV1.fixed, Prod.mk.injEq] at hfixed
  obtain ⟨hgains, hmin, hmax, hconfig, hgrowth, hbdp, hrate⟩ := hfixed
  exact ⟨hgains ▸ h.gains, by rw [hmin, hmax]; exact h.bounds,
    by rw [hconfig, hmin]; exact h.probeRttCwnd, by rw [hgrowth]; exact h.growth,
    hbdp.trans h.notByBdp, hrate.trans h.notByRate, hsampled⟩

-- ==== samples

theorem steady_takeSample (s : BbrV1 R) (sample : BWSample) : Steady s (s.takeSample sample) := by
  unfold takeSample
  by_cases happ : sample.isAppLimited = true
  · simp only [happ, if_true]
    exact ⟨rfl, rfl, fun _ => .inr (.inl rfl)⟩
  · simp only [happ]
    exact ⟨rfl, rfl, fun _ => .inl rfl⟩

theorem steady_takeSamples (l : List BWSample) (s : BbrV1 R) :
    Steady s (l.foldl takeSample s) := by
  induction l generalizing s with
  | nil => exact .refl s
  | cons sample l ih => exact (steady_takeSample s sample).trans (ih _)

/-- The samples leave the mode and `m_minRtt` alone. -/
theorem takeSamples_mode (l : List BWSample) (s : BbrV1 R) :
    (l.foldl takeSample s).mode = s.mode ∧ (l.foldl takeSample s).minRtt = s.minRtt := by
  induction l generalizing s with
  | nil => exact ⟨rfl, rfl⟩
  | cons sample l ih => exact ih _

theorem steady_updateBandwidthAndMinRtt (s : BbrV1 R) :
    Steady s (s.updateBandwidthAndMinRtt reals).1 := by
  unfold updateBandwidthAndMinRtt
  have hsamples := steady_takeSamples s.ackState.sampleList s
  simp only
  split
  · exact hsamples
  · split
    · exact hsamples.trans (.aside rfl rfl ⟨rfl, rfl⟩ ⟨rfl, rfl⟩)
    · exact hsamples.trans (.aside rfl rfl ⟨rfl, rfl⟩ ⟨rfl, rfl⟩)

theorem updateBandwidthAndMinRtt_mode (s : BbrV1 R) :
    (s.updateBandwidthAndMinRtt reals).1.mode = s.mode
      ∧ (s.minRtt = 0 → (s.updateBandwidthAndMinRtt reals).2 = false) := by
  unfold updateBandwidthAndMinRtt
  obtain ⟨hmode, hrtt⟩ := takeSamples_mode s.ackState.sampleList s
  simp only
  split
  · exact ⟨hmode, fun _ => rfl⟩
  · split
    · refine ⟨hmode, fun hzero => ?_⟩
      simp [hrtt, hzero]
    · refine ⟨hmode, fun hzero => ?_⟩
      simp [hrtt, hzero]

-- ==== phases

theorem returns_pacingGainAt {offset : Nat} (h : mayFail ∨ offset < s.pacingGains.length) :
    Returns mayFail (s.pacingGainAt offset) fun _ => True := by
  unfold pacingGainAt
  cases hgain : s.pacingGains[offset]? with
  | some gain => exact .ok trivial
  | none =>
    refine .error (h.resolve_right ?_)
    exact Nat.not_lt.mpr (List.getElem?_eq_none_iff.mp hgain)

/-- A step that is steady and does not enter ProbeRTT mode. -/
def Stays (s t : BbrV1 R) : Prop := Steady s t ∧ (s.mode ≠ .probeRTT → t.mode ≠ .probeRTT)

theorem Stays.refl (s : BbrV1 R) : Stays s s := ⟨.refl s, id⟩

/-- The steps may fail, or the state is fit. -/
abbrev FitOr (mayFail : Prop) (reals : BbrReals R) (s : BbrV1 R) : Prop :=
  mayFail ∨ s.Fit reals

theorem FitOr.steady (h : s.FitOr mayFail reals) (hst : Steady s t) : t.FitOr mayFail reals :=
  h.imp_right fun hfit => hfit.of_fixed hst.fixed (hst.sampled hfit.sampled)

theorem returns_updateGainCyclePhase (h : s.FitOr mayFail reals) (inFlight : UInt64) :
    Returns mayFail (s.updateGainCyclePhase reals cenv inFlight) (Stays s) := by
  unfold updateGainCyclePhase
  simp only
  split
  · exact .ok (Stays.refl s)
  · apply Returns.guarded
    · exact h.imp_right fun hfit => by have := hfit.gains; omega
    · intro hpos
      apply (returns_pacingGainAt (.inr (Nat.mod_lt _ (Nat.pos_of_ne_zero hpos)))).bind
      intro gain _
      split
      · exact .ok ⟨.aside rfl rfl ⟨rfl, rfl⟩ ⟨rfl, rfl⟩, id⟩
      · exact .ok ⟨.aside rfl rfl ⟨rfl, rfl⟩ ⟨rfl, rfl⟩, id⟩

/-- Bandwidth that was never measured has grown as much as it should, so
the rounds without growth are counted from samples. -/
theorem returns_checkIsFullBwReached (h : s.FitOr mayFail reals) :
    Returns mayFail (s.checkIsFullBwReached reals) (Stays s) := by
  unfold checkIsFullBwReached
  by_cases hlast : s.flags.lastSampleAppLimited = true
  · rw [if_pos hlast]
    exact .ok (Stays.refl s)
  · rw [if_neg hlast]
    simp only
    by_cases hgrown : reals.timesBw s.bwAtLastRound s.startupGrowthTarget ≤ s.maxBandwidth.get
    · rw [if_pos hgrown]
      refine .ok ⟨⟨rfl, rfl, ?_⟩, id⟩
      intro hsampled
      obtain hnon | happ | ⟨hmax, -⟩ := hsampled
      · exact .inl hnon
      · exact absurd happ hlast
      · exact .inr (.inr ⟨hmax, hmax⟩)
    · rw [if_neg hgrown]
      have hnon : mayFail ∨ s.flags.hasNonAppLimited = true := by
        refine h.imp_right fun hfit => ?_
        obtain hnon | happ | ⟨-, hround⟩ := hfit.sampled
        · exact hnon
        · exact absurd happ hlast
        · refine absurd ?_ hgrown
          rw [hround, hfit.growth]
          exact UInt64.zero_le
      split
      · cases hflag : s.flags.hasNonAppLimited with
        | true => exact .ok ⟨⟨rfl, rfl, fun _ => .inl rfl⟩, id⟩
        | false => exact .error (hnon.resolve_right (by simp [hflag]))
      · exact .ok ⟨.aside rfl rfl ⟨rfl, rfl⟩ ⟨rfl, rfl⟩, id⟩

/-- The offset drawn is below the number of gains: one less than that many
are drawn from, and the one left out is the first after zero. -/
theorem returns_enterProbeBWMode (h : s.FitOr mayFail reals) (now : UInt64) :
    Returns mayFail (s.enterProbeBWMode cenv now) fun t => Steady s t ∧ t.mode = .probeBW := by
  unfold enterProbeBWMode
  apply Returns.guarded
  · exact h.imp_right fun hfit => by have := hfit.gains; simp only; omega
  · intro hdivisor
    have hdrawn := Nat.mod_lt cenv.randomValue.toNat (Nat.pos_of_ne_zero hdivisor)
    refine (returns_pacingGainAt (.inr ?_)).bind ?_
    · split <;> omega
    · intro gain _
      exact .ok ⟨.aside rfl rfl ⟨rfl, rfl⟩ ⟨rfl, rfl⟩, rfl⟩

theorem returns_onExitStartup (h : s.mode = .startUp) :
    Returns mayFail s.onExitStartup fun _ => True := by
  unfold onExitStartup
  rw [if_pos h]
  exact .ok trivial

theorem returns_maybeExitStartupOrDrain (h : s.FitOr mayFail reals) (now inFlight : UInt64) :
    Returns mayFail (s.maybeExitStartupOrDrain reals cenv now inFlight) (Stays s) := by
  unfold maybeExitStartupOrDrain
  have hexit : Returns mayFail
      (onlyIf (s.mode = .startUp && s.flags.isAtFullBandwidth) exitStartup s) (Stays s) := by
    refine Returns.onlyIf (fun hcond => ?_) (Stays.refl s)
    have hmode : s.mode = .startUp := by simp_all
    apply (returns_onExitStartup hmode).bind
    intro _ _
    exact .ok ⟨.aside rfl rfl ⟨rfl, rfl⟩ ⟨rfl, rfl⟩, by simp⟩
  apply hexit.bind
  intro t ht
  refine Returns.onlyIf (fun _ => ?_) ht
  apply (returns_enterProbeBWMode (h.steady ht.1) now).imp
  rintro u ⟨hsteady, hmode⟩
  exact ⟨ht.1.trans hsteady, fun _ => by simp [hmode]⟩

theorem steady_planProbeRttExit (s : BbrV1 R) (now inFlight : UInt64) :
    Steady s (s.planProbeRttExit reals cenv now inFlight) := by
  unfold planProbeRttExit
  split
  · exact .aside rfl rfl ⟨rfl, rfl⟩ ⟨rfl, rfl⟩
  · exact .refl s

theorem steady_passProbeRttRound (s : BbrV1 R) (isRoundStart : Bool) :
    Steady s (s.passProbeRttRound isRoundStart) := by
  unfold passProbeRttRound
  split
  · exact .aside rfl rfl ⟨rfl, rfl⟩ ⟨rfl, rfl⟩
  · exact .refl s

theorem returns_exitProbeRtt (h : s.FitOr mayFail reals) (now : UInt64) :
    Returns mayFail (s.exitProbeRtt cenv now) (Steady s) := by
  unfold exitProbeRtt
  have htime : Steady s { s with minRttTimestamp := now } := .aside rfl rfl ⟨rfl, rfl⟩ ⟨rfl, rfl⟩
  simp only
  split
  · exact .ok (htime.trans (.aside rfl rfl ⟨rfl, rfl⟩ ⟨rfl, rfl⟩))
  · apply (returns_enterProbeBWMode (h.steady htime) now).imp
    rintro t ⟨ht, -⟩
    exact htime.trans ht

theorem returns_probeRtt (h : s.FitOr mayFail reals) (now : UInt64) (isRoundStart : Bool)
    (inFlight : UInt64) :
    Returns mayFail (s.probeRtt reals cenv now isRoundStart inFlight) (Steady s) := by
  unfold probeRtt
  have hlimited : Steady s { s with bwSampler := s.bwSampler.becomeAppLimited } :=
    .aside rfl rfl ⟨rfl, rfl⟩ ⟨rfl, rfl⟩
  simp only
  split
  · exact .ok (hlimited.trans (steady_planProbeRttExit _ now inFlight))
  · have hpassed := hlimited.trans (steady_passProbeRttRound _ isRoundStart)
    refine Returns.onlyIf (fun _ => ?_) hpassed
    apply (returns_exitProbeRtt (h.steady hpassed) now).imp
    intro t ht
    exact hpassed.trans ht

/-- ProbeRTT mode is entered only when the minimum has expired. -/
def Unexpired (minRttExpired : Bool) (s t : BbrV1 R) : Prop :=
  Steady s t ∧ (minRttExpired = false → s.mode ≠ .probeRTT → t.mode ≠ .probeRTT)

theorem returns_enterProbeRtt (s : BbrV1 R) :
    Returns mayFail (s.enterProbeRtt reals) fun t => Steady s t := by
  unfold enterProbeRtt
  have hexit : Returns mayFail
      (onlyIf (s.mode = .startUp) (fun s => s.onExitStartup.map fun _ => s) s) fun t => t = s := by
    refine Returns.onlyIf (fun hcond => ?_) rfl
    have hmode : s.mode = .startUp := of_decide_eq_true hcond
    unfold onExitStartup
    rw [if_pos hmode]
    exact .ok rfl
  apply hexit.bind
  rintro t rfl
  exact .ok (.aside rfl rfl ⟨rfl, rfl⟩ ⟨rfl, rfl⟩)

theorem returns_maybeEnterOrExitProbeRtt (h : s.FitOr mayFail reals) (now : UInt64)
    (isRoundStart minRttExpired : Bool) (inFlight : UInt64) :
    Returns mayFail
      (s.maybeEnterOrExitProbeRtt reals cenv now isRoundStart minRttExpired inFlight)
      (Unexpired minRttExpired s) := by
  unfold maybeEnterOrExitProbeRtt
  have henter : Returns mayFail
      (onlyIf (minRttExpired && !s.flags.exitingQuiescence && s.mode ≠ .probeRTT)
        (enterProbeRtt reals) s) (Unexpired minRttExpired s) := by
    refine Returns.onlyIf (fun hcond => ?_) ⟨.refl s, fun _ => id⟩
    have hexpired : minRttExpired = true := by simp_all
    apply (returns_enterProbeRtt s).imp
    intro t ht
    exact ⟨ht, fun hnot => absurd hexpired (by simp [hnot])⟩
  apply henter.bind
  rintro t ⟨ht, hmode⟩
  have hprobe : Returns mayFail (onlyIf (t.mode = .probeRTT)
      (probeRtt reals cenv · now isRoundStart inFlight) t) (Unexpired minRttExpired s) := by
    refine Returns.onlyIf (fun hcond => ?_) ⟨ht, hmode⟩
    apply (returns_probeRtt (h.steady ht) now isRoundStart inFlight).imp
    intro u hu
    exact ⟨ht.trans hu,
      fun hexpired hnot => absurd (of_decide_eq_true hcond) (hmode hexpired hnot)⟩
  apply hprobe.bind
  rintro u ⟨hu, hmode'⟩
  exact .ok ⟨hu.trans (.aside rfl rfl ⟨rfl, rfl⟩ ⟨rfl, rfl⟩), hmode'⟩

theorem returns_calculatePacingRate (s : BbrV1 R) :
    Returns mayFail (s.calculatePacingRate reals cenv) (Stays s) := by
  have haside : ∀ rate : UInt64, Stays s { s with pacingRate := rate } :=
    fun rate => ⟨.aside rfl rfl ⟨rfl, rfl⟩ ⟨rfl, rfl⟩, id⟩
  unfold calculatePacingRate
  simp only
  split
  · exact .ok (Stays.refl s)
  · split
    · exact .ok (haside _)
    · split
      · rename_i hfirst
        have hrtt : rttStatsMinRTT cenv ≠ 0 := by simp_all
        apply (returns_bwFromBytesAndDelta (.inr hrtt)).bind
        intro rate _
        exact .ok (haside rate)
      · split
        · exact .ok (haside _)
        · split
          · exact .ok (haside _)
          · exact .ok (Stays.refl s)

-- ==== windows

theorem le_maxU64_left (a b : UInt64) : a ≤ maxU64 a b := by
  unfold maxU64
  split
  · exact UInt64.le_of_lt ‹_›
  · exact UInt64.le_refl a

theorem le_minU64 {a b c : UInt64} (hb : a ≤ b) (hc : a ≤ c) : a ≤ minU64 b c := by
  unfold minU64
  split
  · exact hc
  · exact hb

theorem clampU64_bounds {lo hi : UInt64} (h : lo ≤ hi) (x : UInt64) :
    lo ≤ clampU64 x lo hi ∧ clampU64 x lo hi ≤ hi := by
  unfold clampU64
  by_cases hlow : x < lo
  · rw [if_pos hlow]
    exact ⟨UInt64.le_refl lo, h⟩
  · rw [if_neg hlow]
    by_cases hhigh : hi < x
    · rw [if_pos hhigh]
      exact ⟨h, UInt64.le_refl hi⟩
    · rw [if_neg hhigh]
      exact ⟨UInt64.not_lt.mp hlow, UInt64.not_lt.mp hhigh⟩

/-- What `updateRecoveryState` leaves alone: it writes the recovery state and
window, and two packet numbers. -/
theorem updateRecoveryState_frame (s : BbrV1 R) (isRoundStart : Bool) :
    ∃ recoveryState recoveryWindow currentRoundTripEnd endRecoveryAt,
      s.updateRecoveryState isRoundStart
        = { s with recoveryState, recoveryWindow, currentRoundTripEnd, endRecoveryAt } := by
  have hleave : ∀ t : BbrV1 R,
      ∃ recoveryState, t.leaveRecovery = { t with recoveryState } := by
    intro t
    unfold leaveRecovery
    split
    · exact ⟨_, rfl⟩
    · exact ⟨_, rfl⟩
  unfold updateRecoveryState
  simp only
  set s' : BbrV1 R :=
    if s.ackState.hasLosses then { s with endRecoveryAt := s.lastSentPackNo } else s with hs'
  have hsame : ∃ endRecoveryAt, s' = { s with endRecoveryAt } := by
    rw [hs']
    split
    · exact ⟨_, rfl⟩
    · exact ⟨s.endRecoveryAt, rfl⟩
  obtain ⟨endRecoveryAt, hsame⟩ := hsame
  rw [hsame]
  simp only
  split
  · split
    · exact ⟨_, _, _, _, rfl⟩
    · exact ⟨_, _, _, _, rfl⟩
  · cases isRoundStart
    · obtain ⟨state, hstate⟩ := hleave { s with endRecoveryAt }
      exact ⟨_, _, _, _, hstate⟩
    · obtain ⟨state, hstate⟩ := hleave { s with endRecoveryAt, recoveryState := .growth }
      exact ⟨_, _, _, _, hstate⟩
  · obtain ⟨state, hstate⟩ := hleave { s with endRecoveryAt }
    exact ⟨_, _, _, _, hstate⟩
  · exact ⟨_, _, _, _, rfl⟩

theorem stays_updateAckAggregationBytes (s : BbrV1 R) (bytesAcked : UInt64) :
    Stays s (s.updateAckAggregationBytes bytesAcked).1 := by
  unfold updateAckAggregationBytes
  simp only
  split
  · exact ⟨.aside rfl rfl ⟨rfl, rfl⟩ ⟨rfl, rfl⟩, id⟩
  · exact ⟨.aside rfl rfl ⟨rfl, rfl⟩ ⟨rfl, rfl⟩, id⟩

-- ==== the first part

/-- What the first part of `onEndAck` keeps: it counts one round at most. -/
structure RoundTaken (s t : BbrV1 R) : Prop where
  fixed : t.fixed = s.fixed
  kept : (t.cwnd, t.ackState, t.endAcks, t.bytesReported, t.bytesSeen, t.flags.inAck)
    = (s.cwnd, s.ackState, s.endAcks, s.bytesReported, s.bytesSeen, s.flags.inAck)
  round : t.roundCount = s.roundCount ∨ t.roundCount = s.roundCount + 1
  sampled : s.Sampled → t.Sampled
  mode : s.mode ≠ .probeRTT → t.mode ≠ .probeRTT

theorem RoundTaken.refl (s : BbrV1 R) : RoundTaken s s :=
  ⟨rfl, rfl, .inl rfl, id, id⟩

theorem RoundTaken.after (h : RoundTaken s t) (hst : Stays t u) : RoundTaken s u := by
  have hledger := hst.1.ledger
  simp only [BbrV1.ledger, Prod.mk.injEq] at hledger
  obtain ⟨⟨hcwnd, -⟩, hround, hack, hends, ⟨hreported, hseen⟩, hinAck⟩ := hledger
  refine ⟨hst.1.fixed.trans h.fixed, ?_, ?_, hst.1.sampled ∘ h.sampled,
    hst.2 ∘ h.mode⟩
  · rw [hcwnd, hack, hends, hreported, hseen, hinAck]
    exact h.kept
  · rw [hround]
    exact h.round

theorem RoundTaken.before (hst : Stays s t) (h : RoundTaken t u) : RoundTaken s u := by
  have hledger := hst.1.ledger
  simp only [BbrV1.ledger, Prod.mk.injEq] at hledger
  obtain ⟨⟨hcwnd, -⟩, hround, hack, hends, ⟨hreported, hseen⟩, hinAck⟩ := hledger
  refine ⟨h.fixed.trans hst.1.fixed, ?_, ?_, h.sampled ∘ hst.1.sampled,
    h.mode ∘ hst.2⟩
  · rw [h.kept, hcwnd, hack, hends, hreported, hseen, hinAck]
  · rw [← hround]
    exact h.round

theorem roundTaken_updateRecoveryState (s : BbrV1 R) (isRoundStart : Bool) :
    RoundTaken s (s.updateRecoveryState isRoundStart) := by
  obtain ⟨_, _, _, _, hframe⟩ := updateRecoveryState_frame s isRoundStart
  rw [hframe]
  exact ⟨rfl, rfl, .inl rfl, id, id⟩

theorem RoundTaken.startRound (h : RoundTaken s.startRound t)
    (hround : t.roundCount = s.startRound.roundCount) : RoundTaken s t := by
  obtain ⟨hfixed, hkept, -, hsampled, hmode⟩ := h
  unfold BbrV1.startRound at hfixed hkept hround hsampled hmode
  by_cases hstart : s.isRoundStart = true
  · rw [if_pos hstart] at hfixed hkept hround hsampled hmode
    exact ⟨hfixed, hkept, .inr hround, hsampled, hmode⟩
  · rw [if_neg hstart] at hfixed hkept hround hsampled hmode
    exact ⟨hfixed, hkept, .inl hround, hsampled, hmode⟩

theorem updateRecoveryState_roundCount (s : BbrV1 R) (isRoundStart : Bool) :
    (s.updateRecoveryState isRoundStart).roundCount = s.roundCount := by
  obtain ⟨_, _, _, _, hframe⟩ := updateRecoveryState_frame s isRoundStart
  rw [hframe]

theorem Steady.roundCount (h : Steady s t) : t.roundCount = s.roundCount := by
  have hledger := h.ledger
  simp only [BbrV1.ledger, Prod.mk.injEq] at hledger
  exact hledger.2.1

theorem roundTaken_endAckRound (s : BbrV1 R) (bytesAcked : UInt64) :
    RoundTaken s (s.endAckRound reals bytesAcked).1 := by
  unfold endAckRound
  split
  · have hupdate : Stays s.startRound (s.startRound.updateBandwidthAndMinRtt reals).1 :=
      ⟨steady_updateBandwidthAndMinRtt _,
        fun hmode => by rw [(updateBandwidthAndMinRtt_mode _).1]; exact hmode⟩
    have haggregate := stays_updateAckAggregationBytes
      ((s.startRound.updateBandwidthAndMinRtt reals).1.updateRecoveryState s.isRoundStart)
      bytesAcked
    apply RoundTaken.startRound
    · exact .before hupdate ((roundTaken_updateRecoveryState _ _).after haggregate)
    · rw [haggregate.1.roundCount, updateRecoveryState_roundCount, hupdate.1.roundCount]
  · exact .refl s

theorem endAckRound_unexpired (hzero : s.minRtt = 0) (bytesAcked : UInt64) :
    (s.endAckRound reals bytesAcked).2.2.1 = false := by
  have hstart : s.startRound.minRtt = 0 := by
    unfold startRound
    split
    · exact hzero
    · exact hzero
  unfold endAckRound
  split
  · exact (updateBandwidthAndMinRtt_mode _).2 hstart
  · rfl

-- ==== onEndAck

theorem calculateCwnd_cases (s : BbrV1 R) (bytesAcked excessAcked : UInt64) :
    s.mode = .probeRTT ∧ s.calculateCwnd reals cenv bytesAcked excessAcked = s
      ∨ ∃ x, s.calculateCwnd reals cenv bytesAcked excessAcked
        = { s with cwnd := clampU64 x s.minCwnd s.maxCwnd } := by
  unfold calculateCwnd
  by_cases hmode : s.mode = .probeRTT
  · rw [if_pos hmode]
    exact .inl ⟨hmode, rfl⟩
  · rw [if_neg hmode]
    exact .inr ⟨_, rfl⟩

theorem calculateRecoveryWindow_cases (s : BbrV1 R) (bytesAcked bytesLost inFlight : UInt64) :
    ∃ recoveryWindow,
      s.calculateRecoveryWindow bytesAcked bytesLost inFlight
          = { s with recoveryWindow, bytesSeen := s.bytesSeen + bytesLost }
        ∧ (s.flags.rateBasedStartup = false →
          s.recoveryState = .notInRecovery ∨ s.minCwnd ≤ recoveryWindow) := by
  unfold calculateRecoveryWindow
  simp only
  split
  · rename_i hrate
    refine ⟨s.recoveryWindow, rfl, fun hnot => ?_⟩
    rw [hnot] at hrate
    exact absurd hrate (by simp)
  · split
    · exact ⟨s.recoveryWindow, rfl, fun _ => .inl ‹_›⟩
    · split
      · exact ⟨_, rfl, fun _ => .inr (le_maxU64_left _ _)⟩
      · exact ⟨_, rfl, fun _ => .inr (le_maxU64_left _ _)⟩

/-- The recovery window is not asked for, or wide enough. -/
def Recovering (s : BbrV1 R) : Prop :=
  s.recoveryState = .notInRecovery ∨ s.minCwnd ≤ s.recoveryWindow

/-- What `onEndAck` does. -/
structure Ended (s t : BbrV1 R) : Prop where
  fixed : t.fixed = s.fixed
  sampled : s.Sampled → t.Sampled
  endAcks : t.endAcks = s.endAcks + 1
  closed : t.flags.inAck = false
  round : t.roundCount = s.roundCount ∨ t.roundCount = s.roundCount + 1
  record : t.ackState = s.ackState
  reported : t.bytesReported = s.bytesReported
  seen : t.bytesSeen = s.bytesSeen + s.ackState.lostBytes
  recovery : s.flags.rateBasedStartup = false → t.Recovering
  cwnd : t.cwnd = s.cwnd ∧ (s.mode = .probeRTT ∨ s.minRtt ≠ 0)
    ∨ ∃ x, t.cwnd = clampU64 x s.minCwnd s.maxCwnd

theorem returns_onEndAck (h : s.FitOr mayFail reals) (hopen : mayFail ∨ s.flags.inAck = true)
    (inFlight : UInt64) : Returns mayFail (s.onEndAck reals cenv inFlight) (Ended s) := by
  unfold onEndAck
  refine .guarded (hopen.imp_right fun hin => by simp [hin]) fun _ => ?_
  simp only
  set s₀ : BbrV1 R :=
    { s with flags := { s.flags with inAck := false }, endAcks := s.endAcks + 1 } with hs₀
  set bytesAcked := s₀.bwSampler.totalAcked - s₀.ackState.totalBytesAckedBefore
  have htaken : RoundTaken s₀ (s₀.endAckRound reals bytesAcked).1 :=
    roundTaken_endAckRound s₀ bytesAcked
  have hexpired : s₀.minRtt = 0 → (s₀.endAckRound reals bytesAcked).2.2.1 = false :=
    fun hzero => endAckRound_unexpired hzero bytesAcked
  generalize s₀.endAckRound reals bytesAcked = r at htaken hexpired ⊢
  obtain ⟨s₁, isRoundStart, minRttExpired, excessAcked⟩ := r
  have hfit₁ : s₁.FitOr mayFail reals :=
    h.imp_right fun hfit => hfit.of_fixed htaken.fixed (htaken.sampled hfit.sampled)
  simp only at htaken hexpired ⊢
  have hgain : Returns mayFail
      (onlyIf (s₁.mode = .probeBW) (updateGainCyclePhase reals cenv · inFlight) s₁)
      (RoundTaken s₀) :=
    .onlyIf (fun _ => (returns_updateGainCyclePhase hfit₁ inFlight).imp fun _ => htaken.after)
      htaken
  have hfit : ∀ {t : BbrV1 R}, RoundTaken s₀ t → t.FitOr mayFail reals := fun ht =>
    h.imp_right fun hfit => hfit.of_fixed ht.fixed (ht.sampled hfit.sampled)
  apply hgain.bind
  intro s₂ h₂
  have hfull : Returns mayFail
      (onlyIf (isRoundStart && !s₂.flags.isAtFullBandwidth) (checkIsFullBwReached reals) s₂)
      (RoundTaken s₀) :=
    .onlyIf (fun _ => (returns_checkIsFullBwReached (hfit h₂)).imp fun _ => h₂.after) h₂
  apply hfull.bind
  intro s₃ h₃
  apply (returns_maybeExitStartupOrDrain (hfit h₃) s₃.ackState.ackTime inFlight).bind
  intro s₄ hstays₄
  have h₄ := h₃.after hstays₄
  apply (returns_maybeEnterOrExitProbeRtt (hfit h₄) s₄.ackState.ackTime isRoundStart
    minRttExpired inFlight).bind
  rintro s₅ ⟨hsteady₅, hmode₅⟩
  apply (returns_calculatePacingRate s₅).bind
  intro s₆ hstays₆
  have hsteady := hsteady₅.trans hstays₆.1
  have hledger := hsteady.ledger
  have hkept := h₄.kept
  simp only [BbrV1.ledger, Prod.mk.injEq] at hledger hkept
  obtain ⟨⟨hcwnd, hstate, hwindow⟩, hround, hack, hends, ⟨hreported, hseen⟩, hinAck⟩ := hledger
  obtain ⟨hcwnd₄, hack₄, hends₄, hreported₄, hseen₄, hinAck₄⟩ := hkept
  have hfixed : s₆.fixed = s.fixed := hsteady.fixed.trans h₄.fixed
  have hbounds := hfixed
  simp only [BbrV1.fixed, Prod.mk.injEq] at hbounds
  refine .ok ?_
  obtain ⟨recoveryWindow, hlast, hrecovery⟩ := calculateRecoveryWindow_cases
    (s₆.calculateCwnd reals cenv bytesAcked excessAcked) bytesAcked
    (s₆.calculateCwnd reals cenv bytesAcked excessAcked).ackState.lostBytes inFlight
  rw [hlast]
  have hclamp : s₆.mode = .probeRTT ∧ s₆.calculateCwnd reals cenv bytesAcked excessAcked = s₆
      ∨ ∃ x, s₆.calculateCwnd reals cenv bytesAcked excessAcked
        = { s₆ with cwnd := clampU64 x s₆.minCwnd s₆.maxCwnd } :=
    calculateCwnd_cases s₆ bytesAcked excessAcked
  obtain ⟨hprobe, hsame⟩ | ⟨x, hclamped⟩ := hclamp
  · rw [hsame] at hrecovery ⊢
    refine ⟨hfixed, hsteady.sampled ∘ h₄.sampled, hends.trans hends₄, hinAck.trans hinAck₄, ?_,
      hack.trans hack₄, hreported.trans hreported₄, ?_, ?_, .inl ⟨hcwnd.trans hcwnd₄, ?_⟩⟩
    · show s₆.roundCount = _ ∨ s₆.roundCount = _
      rw [hround]
      exact h₄.round
    · show s₆.bytesSeen + s₆.ackState.lostBytes = _
      rw [hseen, hseen₄, hack, hack₄]
    · intro hrate
      exact hrecovery (hbounds.2.2.2.2.2.2.trans hrate)
    · by_contra hneither
      rw [not_or, not_not] at hneither
      exact hstays₆.2 (hmode₅ (hexpired hneither.2) (h₄.mode hneither.1)) hprobe
  · rw [hclamped] at hrecovery ⊢
    refine ⟨hfixed, hsteady.sampled ∘ h₄.sampled, hends.trans hends₄, hinAck.trans hinAck₄, ?_,
      hack.trans hack₄, hreported.trans hreported₄, ?_, ?_, .inr ⟨x, ?_⟩⟩
    · show s₆.roundCount = _ ∨ s₆.roundCount = _
      rw [hround]
      exact h₄.round
    · show s₆.bytesSeen + s₆.ackState.lostBytes = _
      rw [hseen, hseen₄, hack, hack₄]
    · intro hrate
      exact hrecovery (hbounds.2.2.2.2.2.2.trans hrate)
    · show clampU64 x s₆.minCwnd s₆.maxCwnd = _
      rw [hbounds.2.1, hbounds.2.2.1]

-- ==== all calls

inductive Call where
  | packetSent (cenv : CongestionEnv) (info : SampledPacket) (packetState : Option BWPacketState)
      (inFlight : UInt64) (isAppLimited : Bool)
  | beginAck (ackTimeUs inFlight : UInt64)
  | ack (info : SampledPacket) (packetState : Option BWPacketState) (nowUs : UInt64)
  | lost (info : SampledPacket) (packetState : Option BWPacketState)
  | endAck (cenv : CongestionEnv) (inFlight : UInt64)

def call (reals : BbrReals R) (s : BbrV1 R) : Call → Except BbrFault (BbrV1 R)
  | .packetSent cenv info packetState inFlight isAppLimited =>
    .ok (s.onPacketSent reals cenv info packetState inFlight isAppLimited).1
  | .beginAck ackTimeUs inFlight => s.onBeginAck ackTimeUs inFlight
  | .ack info packetState nowUs => s.onAck info packetState nowUs
  | .lost info packetState => .ok (s.onLost info packetState)
  | .endAck cenv inFlight => s.onEndAck reals cenv inFlight

/-- The order in which the send control makes them: `onAck` between
`onBeginAck` and `onEndAck`, which alternate. The flag says that
`onBeginAck` came last. -/
def InOrder : Bool → List Call → Prop
  | _, [] => True
  | isOpen, .beginAck _ _ :: calls => isOpen = false ∧ InOrder true calls
  | isOpen, .ack _ _ _ :: calls => isOpen = true ∧ InOrder isOpen calls
  | isOpen, .endAck _ _ :: calls => isOpen = true ∧ InOrder false calls
  | isOpen, _ :: calls => InOrder isOpen calls

/-- What is promised of every state: the window within its bounds once an
acknowledgement was worked through, the window in use not below the least,
and the pacing rate computable. -/
structure Safe (reals : BbrReals R) (s : BbrV1 R) : Prop where
  bounds : 0 < s.endAcks → s.minCwnd ≤ s.cwnd ∧ s.cwnd ≤ s.maxCwnd
  getCwnd : ∀ cenv, minU64 s.minCwnd s.configMinCwnd ≤ s.getCwnd reals cenv
  getPacingRate : ∀ cenv, ∃ rate, s.getPacingRate reals cenv = .ok rate

/-- No call of the run fails, every state is safe, and the round counter never
falls. -/
def SafeRun (reals : BbrReals R) : BbrV1 R → List Call → Prop
  | s, [] => s.Safe reals
  | s, c :: calls => s.Safe reals
      ∧ ∃ t, s.call reals c = .ok t ∧ s.roundCount ≤ t.roundCount ∧ SafeRun reals t calls

structure Sound (reals : BbrReals R) (s : BbrV1 R) : Prop where
  fit : s.Fit reals
  minCwnd_le : s.minCwnd ≤ s.cwnd
  cwnd_le : 0 < s.endAcks → s.cwnd ≤ s.maxCwnd
  first : s.endAcks = 0 → s.mode ≠ .probeRTT ∧ s.minRtt = 0
  recovery : s.Recovering
  rounds : s.roundCount.toNat ≤ s.endAcks

theorem getMinRtt_ne_zero (s : BbrV1 R) : s.getMinRtt cenv ≠ 0 := by
  unfold getMinRtt
  split
  · exact (UInt64.ne_of_lt ‹_›).symm
  · split
    · decide
    · assumption

theorem Sound.safe (h : s.Sound reals) : s.Safe reals := by
  refine ⟨fun hends => ⟨h.minCwnd_le, h.cwnd_le hends⟩, fun cenv => ?_, fun cenv => ?_⟩
  · have hleast : minU64 s.minCwnd s.configMinCwnd ≤ s.minCwnd := by
      rw [h.fit.probeRttCwnd]
      unfold minU64
      split
      · exact UInt64.le_refl _
      · exact UInt64.le_refl _
    apply UInt64.le_trans hleast
    unfold BbrV1.getCwnd getProbeRttCwnd inRecovery
    by_cases hprobe : s.mode = .probeRTT
    · rw [if_pos hprobe, h.fit.notByBdp, h.fit.probeRttCwnd]
      exact UInt64.le_refl _
    · rw [if_neg hprobe]
      split
      · rename_i hin
        have hwide : s.minCwnd ≤ s.recoveryWindow := by
          refine h.recovery.resolve_left fun hnot => ?_
          simp [hnot] at hin
        exact le_minU64 h.minCwnd_le hwide
      · exact h.minCwnd_le
  · unfold BbrV1.getPacingRate
    by_cases hrate : s.pacingRate = 0
    · have hdivides : Returns False (bwFromBytesAndDelta s.initCwnd (s.getMinRtt cenv)) fun _ =>
          True := returns_bwFromBytesAndDelta (.inr (getMinRtt_ne_zero s))
      obtain ⟨bw, hbw, -⟩ := hdivides.exists_ok
      simp [hrate, hbw, pure, Except.pure, bind, Except.bind]
    · simp [hrate, pure, Except.pure]

/-- What the calls but `onEndAck` leave alone. -/
def core (s : BbrV1 R) :=
  (s.fixed, (s.cwnd, s.recoveryState, s.recoveryWindow), (s.roundCount, s.endAcks),
    (s.mode, s.minRtt),
    (s.flags.hasNonAppLimited, s.flags.lastSampleAppLimited, s.maxBandwidth, s.bwAtLastRound))

theorem Sound.of_core (h : s.Sound reals) (hcore : t.core = s.core) : t.Sound reals := by
  simp only [core, Prod.mk.injEq] at hcore
  obtain ⟨hfixed, ⟨hcwnd, hstate, hwindow⟩, ⟨hround, hends⟩, ⟨hmode, hrtt⟩,
    hnon, hlast, hmax, hgrowth⟩ := hcore
  have hsampled : t.Sampled := by
    unfold Sampled
    rw [hnon, hlast, hmax, hgrowth]
    exact h.fit.sampled
  have hbounds := hfixed
  simp only [fixed, Prod.mk.injEq] at hbounds
  obtain ⟨-, hmin, hcap, -⟩ := hbounds
  refine ⟨h.fit.of_fixed hfixed hsampled, ?_, ?_, ?_, ?_, ?_⟩
  · rw [hmin, hcwnd]
    exact h.minCwnd_le
  · rw [hends, hcwnd, hcap]
    exact h.cwnd_le
  · rw [hends, hmode, hrtt]
    exact h.first
  · unfold Recovering
    rw [hstate, hmin, hwindow]
    exact h.recovery
  · rw [hround, hends]
    exact h.rounds

theorem Sound.ended (h : s.Sound reals) (hended : Ended s t) (hroom : s.endAcks + 1 < 2 ^ 64) :
    t.Sound reals ∧ s.roundCount ≤ t.roundCount := by
  have hfit := h.fit.of_fixed hended.fixed (hended.sampled h.fit.sampled)
  have hbounds := hended.fixed
  simp only [fixed, Prod.mk.injEq] at hbounds
  obtain ⟨-, hmin, hcap, -⟩ := hbounds
  have hends := hended.endAcks
  have hnext : (s.roundCount + 1).toNat = s.roundCount.toNat + 1 := by
    have := h.rounds
    rw [UInt64.toNat_add]
    simp only [UInt64.toNat_one]
    omega
  have hrounds : t.roundCount.toNat ≤ t.endAcks ∧ s.roundCount ≤ t.roundCount := by
    have := h.rounds
    rw [UInt64.le_iff_toNat_le]
    obtain hround | hround := hended.round
    · rw [hround]
      omega
    · rw [hround, hnext]
      omega
  refine ⟨⟨hfit, ?_, fun _ => ?_, fun hzero => ?_, hended.recovery h.fit.notByRate, hrounds.1⟩,
    hrounds.2⟩
  · obtain ⟨hsame, -⟩ | ⟨x, hclamped⟩ := hended.cwnd
    · rw [hsame, hmin]
      exact h.minCwnd_le
    · rw [hclamped, hmin]
      exact (clampU64_bounds h.fit.bounds x).1
  · obtain ⟨hsame, hnotfirst⟩ | ⟨x, hclamped⟩ := hended.cwnd
    · -- the window was left as it was: this acknowledgement is not the first
      have hpos : 0 < s.endAcks := by
        by_contra hzero
        obtain ⟨hmode, hrtt⟩ := h.first (by omega)
        exact hnotfirst.elim hmode (not_not_intro hrtt)
      rw [hsame, hcap]
      exact h.cwnd_le hpos
    · rw [hclamped, hcap]
      exact (clampU64_bounds h.fit.bounds x).2
  · rw [hends] at hzero
    exact absurd hzero (Nat.succ_ne_zero _)

theorem core_onPacketSent (s : BbrV1 R) (info : SampledPacket)
    (packetState : Option BWPacketState) (inFlight : UInt64) (isAppLimited : Bool) :
    (s.onPacketSent reals cenv info packetState inFlight isAppLimited).1.core = s.core
      ∧ (s.onPacketSent reals cenv info packetState inFlight isAppLimited).1.flags.inAck
        = s.flags.inAck := by
  unfold onPacketSent becomeAppLimited
  simp only
  split
  · split
    · exact ⟨rfl, rfl⟩
    · split
      · exact ⟨rfl, rfl⟩
      · exact ⟨rfl, rfl⟩
  · exact ⟨rfl, rfl⟩

theorem Sound.run (calls : List Call) :
    ∀ {s : BbrV1 R}, s.Sound reals → InOrder s.flags.inAck calls →
      s.endAcks + calls.length < 2 ^ 64 → SafeRun reals s calls := by
  induction calls with
  | nil => intro s h _ _; exact h.safe
  | cons c calls ih =>
    intro s h horder hroom
    rw [List.length_cons] at hroom
    have hidle : ∀ t : BbrV1 R, s.call reals c = .ok t → t.core = s.core →
        InOrder t.flags.inAck calls → SafeRun reals s (c :: calls) := by
      intro t hcall hcore hnext
      have hcounts := hcore
      simp only [core, Prod.mk.injEq] at hcounts
      refine ⟨h.safe, t, hcall, UInt64.le_of_eq hcounts.2.2.1.1.symm, ?_⟩
      exact ih (h.of_core hcore) hnext (by rw [hcounts.2.2.1.2]; omega)
    cases c with
    | packetSent cenv info packetState inFlight isAppLimited =>
      have hkept :
          (s.onPacketSent reals cenv info packetState inFlight isAppLimited).1.core = s.core
            ∧ (s.onPacketSent reals cenv info packetState inFlight isAppLimited).1.flags.inAck
              = s.flags.inAck :=
        core_onPacketSent s info packetState inFlight isAppLimited
      obtain ⟨hcore, hinAck⟩ := hkept
      exact hidle _ rfl hcore (by rw [hinAck]; exact horder)
    | beginAck ackTimeUs inFlight =>
      obtain ⟨hclosed, hnext⟩ := horder
      exact hidle _ (if_neg (by simp [hclosed])) rfl hnext
    | ack info packetState nowUs =>
      obtain ⟨hopen, hnext⟩ := horder
      have hacked : Returns False (s.bwSampler.onPacketAcked info packetState nowUs) fun _ =>
        True := BandwidthSampler.returns_onPacketAcked _ info packetState nowUs
      obtain ⟨r, hr, -⟩ := hacked.exists_ok
      have hcall : ∃ t, s.call reals (.ack info packetState nowUs) = .ok t
          ∧ t.core = s.core ∧ t.flags.inAck = s.flags.inAck := by
        show ∃ t, s.onAck info packetState nowUs = .ok t ∧ _
        unfold onAck
        rw [if_neg (by simp [hopen]), hr]
        exact ⟨_, rfl, rfl, rfl⟩
      obtain ⟨t, hok, hcore, hinAck⟩ := hcall
      exact hidle t hok hcore (by rw [hinAck]; exact hnext)
    | lost info packetState => exact hidle _ rfl rfl horder
    | endAck cenv inFlight =>
      obtain ⟨hopen, hnext⟩ := horder
      have hreturns : Returns False (s.onEndAck reals cenv inFlight) (Ended s) :=
        returns_onEndAck (.inr h.fit) (.inr hopen) inFlight
      obtain ⟨t, hok, hended⟩ := hreturns.exists_ok
      obtain ⟨hsound, hrounds⟩ := h.ended hended (by omega)
      refine ⟨h.safe, t, hok, hrounds, ih hsound ?_ ?_⟩
      · rw [hended.closed]
        exact hnext
      · rw [hended.endAcks]
        omega

-- ==== configuration

/-- What the constructor does not check: there is more than one pacing gain,
or none, which means the default; the least window is within the greatest;
and what the storage held in `m_recoveryState` and `m_recoveryWindow` does
not restrict the window. -/
structure Admissible (reals : BbrReals R) (mem : BbrV1 R) (cfg : BbrConfig R) : Prop where
  gains : cfg.pacingGains.length ≠ 1
  minCwnd : cfg.minCwndMss ≤ 2000
  storage : mem.recoveryState = .notInRecovery
    ∨ (new reals mem cfg).minCwnd ≤ mem.recoveryWindow

theorem le_maxU64_right (a b : UInt64) : b ≤ maxU64 a b := by
  unfold maxU64
  split
  · exact UInt64.le_refl b
  · exact UInt64.not_lt.mp ‹_›

theorem timesBw_growthTarget (mem : BbrV1 R) (cfg : BbrConfig R) :
    reals.timesBw 0 (new reals mem cfg).startupGrowthTarget = 0 := by
  show reals.timesBw 0 (configured reals cfg.startupGrowthTarget _ 1250) = 0
  unfold configured
  split
  · rename_i hrange
    rw [Bool.and_eq_true] at hrange
    exact reals.timesBw_zero _ hrange.1 hrange.2
  · exact reals.timesBw_zero _ (reals.lt_lit 1000 1250 (by decide))
      (reals.le_lit 1250 2000 (by decide))

theorem configMinCwnd_le {mss : UInt32} (h : mss ≤ 2000) :
    maxU64 1 mss.toUInt64 * kDefaultTCPMSS
      ≤ kDefaultMaxCongestionWindowPackets * kDefaultTCPMSS := by
  have hmss : mss.toNat ≤ 2000 := UInt32.le_iff_toNat_le.mp h
  have hpackets : (maxU64 1 mss.toUInt64).toNat ≤ 2000 := by
    unfold maxU64
    split
    · simpa using hmss
    · decide
  rw [UInt64.le_iff_toNat_le, UInt64.toNat_mul]
  calc (maxU64 1 mss.toUInt64).toNat * kDefaultTCPMSS.toNat % 2 ^ 64
      ≤ (maxU64 1 mss.toUInt64).toNat * kDefaultTCPMSS.toNat := Nat.mod_le _ _
    _ ≤ 2000 * kDefaultTCPMSS.toNat := Nat.mul_le_mul_right _ hpackets
    _ = (kDefaultMaxCongestionWindowPackets * kDefaultTCPMSS).toNat := by decide

theorem sound_new {mem : BbrV1 R} {cfg : BbrConfig R} (h : Admissible reals mem cfg) :
    (new reals mem cfg).Sound reals where
  fit :=
    { gains := by
        show 2 ≤ (if cfg.pacingGains.isEmpty then kPacingGain reals else cfg.pacingGains).length
        have hone := h.gains
        cases hgains : cfg.pacingGains with
        | nil =>
          show 2 ≤ 8
          omega
        | cons gain rest =>
          rw [hgains, List.length_cons] at hone
          rw [List.isEmpty_cons, if_neg Bool.false_ne_true, List.length_cons]
          omega
      bounds := configMinCwnd_le h.minCwnd
      probeRttCwnd := rfl
      growth := timesBw_growthTarget mem cfg
      notByBdp := rfl
      notByRate := rfl
      sampled := .inr (.inr ⟨rfl, rfl⟩) }
  minCwnd_le := le_maxU64_right _ _
  cwnd_le := fun h => absurd h (Nat.lt_irrefl 0)
  first := fun _ => ⟨fun hmode => BbrMode.noConfusion hmode, rfl⟩
  recovery := h.storage
  rounds := Nat.le_refl 0

/-- With an admissible configuration and storage every run in order is safe;
a run of 2^64 calls could wrap the round counter. -/
theorem bbr_safe (reals : BbrReals R) (mem : BbrV1 R) (cfg : BbrConfig R) (calls : List Call)
    (hadmissible : Admissible reals mem cfg) (horder : InOrder false calls)
    (hlength : calls.length < 2 ^ 64) : SafeRun reals (new reals mem cfg) calls := by
  apply (sound_new hadmissible).run calls horder
  show 0 + calls.length < 2 ^ 64
  rw [Nat.zero_add]
  exact hlength

theorem SafeRun.returns {calls : List Call} :
    ∀ {s : BbrV1 R}, SafeRun reals s calls → ∃ t, calls.foldlM (call reals) s = .ok t := by
  induction calls with
  | nil => intro s _; exact ⟨s, rfl⟩
  | cons c calls ih =>
    rintro s ⟨-, t, hok, -, hrun⟩
    obtain ⟨u, hu⟩ := ih hrun
    exact ⟨u, by rw [List.foldlM_cons, hok]; exact hu⟩

-- ==== examples

def thousandths : BbrReals Nat where
  lit := id
  lt := fun a b => a < b
  le := fun a b => a ≤ b
  inv := fun a => 1000000 / a
  scale := fun gain x => .ofNat (x.toNat * gain / 1000)
  timesBw := fun bw gain => .ofNat (bw.toNat * gain / 1000)
  exceeds := fun a b threshold => b.toNat * threshold < a.toNat * 1000
  lt_lit := fun m n h => decide_eq_true h
  le_lit := fun m n h => decide_eq_true h
  timesBw_zero := fun r _ _ => by simp

def zeroed : BbrV1 Nat :=
  let empty : MinMax := ⟨0, ⟨0, 0⟩, ⟨0, 0⟩, ⟨0, 0⟩⟩
  { mode := .startUp, recoveryState := .notInRecovery, flags := {}, cycleCurrentOffset := 0,
    bwSampler := ⟨false, 0, 0, 0, 0, 0, 0, 0, 0⟩, maxBandwidth := empty, maxAckHeight := empty,
    initCwnd := 0, minCwnd := 0, maxCwnd := 0, cwnd := 0, aggregationEpochStartTime := 0,
    aggregationEpochBytes := 0, lastSentPackNo := 0, currentRoundTripEnd := 0,
    endRecoveryAt := 0, roundCount := 0, pacingRate := 0, pacingGain := 0, highGain := 0,
    highCwndGain := 0, drainGain := 0, nStartupRtts := 0, roundWoBwGain := 0, cwndGain := 0,
    bwAtLastRound := 0, lastCycleStart := 0, exitProbeRttAt := 0, minRttSinceLastProbe := 0,
    minRtt := 0, minRttTimestamp := 0, recoveryWindow := 0, ackState := {},
    startupGrowthTarget := 0, probeRttTimeUs := 0, minRttExpiryUs := 0, configInitCwnd := 0,
    configMinCwnd := 0, configHighGain := 0, configCwndGain := 0, configStartupRounds := 0,
    probeRttMultiplier := 0, similarMinRttThreshold := 0, pacingGains := [], endAcks := 0,
    bytesReported := 0, bytesSeen := 0 }

/-- The defaults of `Config`, but for the rounds of StartUp and the gains. -/
def oneRound (pacingGains : List Nat) : BbrConfig Nat where
  initCwndMss := 16
  minCwndMss := 4
  startupHighGain := 2885
  cwndGain := 2000
  startupGrowthTarget := 1250
  startupFullBwRounds := 1
  probeRttMs := 200
  minRttExpiryMs := 10000
  probeRttMultiplier := 750
  similarMinRttThreshold := 1125
  pacingGains

/-- A packet of 1200 bytes goes out at a time and is acknowledged a
millisecond later; `sent` is what the sampler hung on it. -/
def exchange (packetNo sendTimeUs : UInt64) (sent : BWPacketState) : List Call :=
  let info : SampledPacket := ⟨packetNo, sendTimeUs, 1200⟩
  [.packetSent {} info none 0 false, .beginAck (sendTimeUs + 1000) 1200,
    .ack info (some sent) (sendTimeUs + 1000), .endAck {} 0]

/-- Three packets, one after another, at a constant rate. -/
def constantRate : List Call :=
  exchange 1 1000 ⟨1200, 0, 0, true, 1200, 1200, 1000, 1000⟩
    ++ exchange 2 3000 ⟨2400, 1200, 0, false, 1200, 2400, 3000, 3000⟩
    ++ exchange 3 5000 ⟨3600, 2400, 0, false, 1200, 3600, 5000, 5000⟩

/-- With a single gain, which the constructor takes, the third acknowledgement
takes the remainder of a division by the number of gains but one. -/
theorem not_safe_oneGain :
    InOrder false constantRate
      ∧ ¬ SafeRun thousandths (new thousandths zeroed (oneRound [1000])) constantRate := by
  refine ⟨by simp [constantRate, exchange, InOrder], fun hsafe => ?_⟩
  obtain ⟨t, hok⟩ := hsafe.returns
  have hfault : (constantRate.foldlM (call thousandths)
      (new thousandths zeroed (oneRound [1000]))).isOk = false := by decide +kernel
  rw [hok] at hfault
  cases hfault

/-- With the defaults the same calls are safe. -/
theorem bbr_safe_defaults :
    SafeRun thousandths (new thousandths zeroed (oneRound [])) constantRate := by
  apply bbr_safe thousandths zeroed (oneRound []) constantRate
  · exact ⟨by decide, by decide, .inl rfl⟩
  · simp [constantRate, exchange, InOrder]
  · show 12 < 2 ^ 64
    omega

end BbrV1

end Eular.Utp
