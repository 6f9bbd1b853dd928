/-
The search for the path MTU keeps its bounds in order and comes to an end.

What is committed (`currentMtu`) lies below what is known to get through
(`searchLowMtu`), and that below the ceiling. `Settled` says when the two may
differ: while a probe is in flight, or while the ladder or the bisection has
a next size. A resolved probe lies strictly between the bounds (`InFlight`)
and becomes one of them, so the interval shrinks (`width`).

Two steps are not `Safe`. A probe that is announced where the interval is
already closed is moved above the ceiling, `ClampValue` looking at its lower
bound first. And the test for convergence adds the probe step in 16 bits,
while the next target is computed without the cast, so that with a huge step
the search is over without being committed.
-/
import Eular.Lib.Run
import Eular.Utp.Mtu

namespace Eular.Utp

open Lib

namespace MtuDiscovery

variable {m : MtuDiscovery} {op : MtuOp}

-- ==== results

structure Ordered (m : MtuDiscovery) : Prop where
  min_le : m.mtuMin ≤ m.currentMtu
  current_le : m.currentMtu ≤ m.searchLowMtu
  low_le : m.searchLowMtu ≤ m.ceilingMtu
  ceiling_le : m.ceilingMtu ≤ m.mtuMax

/-- No probe is in flight and there is none to send. -/
def Exhausted (m : MtuDiscovery) : Prop :=
  m.hasInFlightProbe = false ∧ m.nextProbeMtu ≤ m.searchLowMtu

def width (m : MtuDiscovery) : Nat := m.ceilingMtu - m.searchLowMtu

/-- The loss of a large packet is taken for a black hole. -/
def fallsBack (m : MtuDiscovery) (packetSize nowMs : Nat) : Bool :=
  let streak :=
    if m.lastLargeLossMs = 0 || m.lastLargeLossMs + m.blackholeLossWindowMs < nowMs then 0
    else m.largeLossStreak
  let streak := if streak < 255 then streak + 1 else streak
  m.enabled && !decide (packetSize + m.probeStep < m.currentMaxPacketSize)
    && decide (m.blackholeLossThreshold ≤ streak)
    && !(m.lastLargeAckMs ≠ 0 && nowMs ≤ m.lastLargeAckMs + m.probeTimeoutMs * 2)

/-- The search is started again. -/
def resets (m : MtuDiscovery) : MtuOp → Bool
  | .pathValidated _ => true
  | .dataPacketLoss packetSize nowMs => m.fallsBack packetSize nowMs
  | _ => false

/-- The deadline of the probe in flight has passed. -/
def overdue (m : MtuDiscovery) (nowMs : Nat) : Bool :=
  m.hasInFlightProbe && m.inFlightProbeDeadlineMs ≤ nowMs

/-- The probe in flight is resolved. -/
def resolves (m : MtuDiscovery) : MtuOp → Bool
  | .probeAck packNo _ | .probeLost packNo _ => m.probing packNo
  | .probeTimeout nowMs => m.overdue nowMs
  | _ => false

/-- `onProbeSent` returns true. -/
def sends (m : MtuDiscovery) : MtuOp → Bool
  | .probeSent packNo probeMtu _ =>
    m.enabled && packNo ≠ 0
      && m.searchLowMtu < clampValue probeMtu ((m.searchLowMtu + 1) % 2 ^ 16) m.ceilingMtu
  | _ => false

/-- What the bound the probe step is added to comes to. -/
def lowAfter (m : MtuDiscovery) : MtuOp → Nat
  | .probeAck _ _ => max m.searchLowMtu m.inFlightProbeMtu
  | _ => m.searchLowMtu

/-- There is room for the probe that is announced, or it is larger than what
is known to get through. -/
def admits (m : MtuDiscovery) : MtuOp → Bool
  | .probeSent _ probeMtu _ => m.searchLowMtu < m.ceilingMtu || m.searchLowMtu < probeMtu
  | _ => true

/-- The step announces no probe to a closed search, and where it resolves one
the probe step fits on top of the lower bound. -/
def Safe (m : MtuDiscovery) (op : MtuOp) : Prop :=
  m.admits op = true ∧ (m.resolves op = true → m.lowAfter op + m.probeStep < 2 ^ 16)

instance (m : MtuDiscovery) (op : MtuOp) : Decidable (m.Safe op) :=
  inferInstanceAs (Decidable (_ ∧ _))

/-- A probe is announced only where none is in flight. -/
def Prompt (m : MtuDiscovery) (op : MtuOp) : Prop :=
  m.sends op = true → m.hasInFlightProbe = false

end MtuDiscovery

/-- The search, and the sizes of the probes acknowledged since it was last
started. -/
structure MtuSearch where
  mtu : MtuDiscovery
  acked : List Nat := []

namespace MtuSearch

/-- The size a step acknowledges. -/
def ackedBy (m : MtuDiscovery) : MtuOp → List Nat
  | .probeAck packNo _ => if m.probing packNo then [m.inFlightProbeMtu] else []
  | _ => []

def step (s : MtuSearch) (op : MtuOp) : MtuSearch where
  mtu := s.mtu.step op
  acked := if s.mtu.resets op then [] else ackedBy s.mtu op ++ s.acked

/-- The bounds are in order; what has been committed is known to get through,
and it is all that is known once there is nothing to send. -/
structure Found (s : MtuSearch) : Prop where
  ordered : s.mtu.Ordered
  confirmed : s.mtu.mtuBase < s.mtu.currentMtu → s.mtu.mtuMin < s.mtu.currentMtu →
    ∃ size ∈ s.acked, s.mtu.currentMtu ≤ size
  committed : s.mtu.Exhausted → s.mtu.currentMtu = s.mtu.searchLowMtu

end MtuSearch

-- ==== the invariant

namespace MtuDiscovery

variable {m : MtuDiscovery} {op : MtuOp}
variable {m' : MtuDiscovery}

/-- What is in flight lies between the bounds of a search that is on. -/
structure InFlight (m : MtuDiscovery) : Prop where
  enabled : m.enabled = true
  low : m.searchLowMtu < m.inFlightProbeMtu
  ceiling : m.inFlightProbeMtu ≤ m.ceilingMtu

/-- The search has a next size, or what it knows is committed. -/
def Settled (m : MtuDiscovery) : Prop :=
  m.currentMtu = m.searchLowMtu ∨
    m.probePhase = .ladder ∧ m.searchLowMtu < m.nextLadderTarget ∨
      m.probePhase = .binary ∧ m.searchLowMtu + m.probeStep < m.searchHighMtu

/-- What `init` has set. -/
def limits (m : MtuDiscovery) : Nat × Nat × Nat × Nat :=
  (m.mtuMin, m.mtuMax, m.mtuBase, m.probeStep)

structure Limited (m : MtuDiscovery) : Prop where
  base_ge : m.mtuMin ≤ m.mtuBase
  base_le : m.mtuBase ≤ m.mtuMax
  max_le : m.mtuMax ≤ 1500
  step_pos : 0 < m.probeStep

theorem Limited.same (h : m.Limited) (hsame : m'.limits = m.limits) :
    m'.Limited := by
  simp only [limits, Prod.mk.injEq] at hsame
  obtain ⟨hmin, hmax, hbase, hstep⟩ := hsame
  refine ⟨?_, ?_, hmax ▸ h.max_le, hstep ▸ h.step_pos⟩
  · rw [hmin, hbase]
    exact h.base_ge
  · rw [hmax, hbase]
    exact h.base_le

structure Inv (m : MtuDiscovery) : Prop where
  ordered : m.Ordered
  limited : m.Limited
  /-- A search that is on has an upper bound at the ceiling. -/
  high : m.probePhase ≠ .stable → m.searchHighMtu = m.ceilingMtu
  stable : m.probePhase = .stable → m.ceilingMtu = m.searchLowMtu
  disabled : m.enabled = false → m.currentMtu = m.searchLowMtu
  inFlight : m.hasInFlightProbe = true → m.InFlight
  settled : m.hasInFlightProbe = false → m.Settled

theorem clampValue_of_le {value lo hi : Nat} (hlo : lo ≤ hi) :
    lo ≤ clampValue value lo hi ∧ clampValue value lo hi ≤ hi := by
  unfold clampValue
  split
  · exact ⟨le_refl _, hlo⟩
  · split
    · exact ⟨hlo, le_refl _⟩
    · omega

theorem nextLadderTarget_le (hlow : m.searchLowMtu ≤ m.ceilingMtu) :
    m.nextLadderTarget ≤ m.ceilingMtu := by
  unfold nextLadderTarget
  cases hfind : kProbeLadderMtu.find? fun ladder =>
      m.searchLowMtu < ladder && ladder ≤ m.ceilingMtu && ladder ≤ m.mtuMax
        && m.mtuMin ≤ ladder with
  | none => exact hlow
  | some ladder =>
    have hfound := List.find?_some hfind
    simp only [Bool.and_eq_true, decide_eq_true_eq] at hfound
    exact hfound.1.1.2

theorem lt_nextBinaryTarget (hstep : 0 < m.probeStep) (hhigh : m.searchHighMtu ≤ 1500)
    (h : m.searchLowMtu + m.probeStep < m.searchHighMtu) : m.searchLowMtu < m.nextBinaryTarget := by
  have hlow : (m.searchLowMtu + 1) % 2 ^ 16 = m.searchLowMtu + 1 := Nat.mod_eq_of_lt (by omega)
  have hmid : (m.searchLowMtu + 1 + (m.searchHighMtu - (m.searchLowMtu + 1)) / 2) % 2 ^ 16 =
      m.searchLowMtu + 1 + (m.searchHighMtu - (m.searchLowMtu + 1)) / 2 :=
    Nat.mod_eq_of_lt (by omega)
  unfold nextBinaryTarget
  rw [if_neg (Nat.not_le.mpr h)]
  simp only [hlow, hmid]
  rw [if_neg (by omega), if_neg (by omega)]
  exact (clampValue_of_le (by omega)).1

theorem Inv.committed (h : m.Inv) (hexhausted : m.Exhausted) : m.currentMtu = m.searchLowMtu := by
  obtain ⟨hnone, hnext⟩ := hexhausted
  cases henabled : m.enabled with
  | false => exact h.disabled henabled
  | true =>
    have hlow := h.ordered.low_le
    have hceiling := h.ordered.ceiling_le
    have hmax := h.limited.max_le
    unfold nextProbeMtu at hnext
    rcases h.settled hnone with hsame | ⟨hphase, hladder⟩ | ⟨hphase, hbinary⟩
    · exact hsame
    · have hopen : m.searchLowMtu < m.ceilingMtu := hladder.trans_le (nextLadderTarget_le hlow)
      rw [henabled, hphase] at hnext
      simp only [Bool.not_true, Bool.false_or, decide_eq_true_eq, if_neg (Nat.not_le.mpr hopen),
        if_pos hladder] at hnext
      exact absurd hladder (Nat.not_lt.mpr hnext)
    · have hhigh : m.searchHighMtu = m.ceilingMtu := h.high (by rw [hphase]; nofun)
      have htarget := lt_nextBinaryTarget h.limited.step_pos (by omega) hbinary
      rw [henabled, hphase] at hnext
      simp only [Bool.not_true, Bool.false_or, decide_eq_true_eq,
        if_neg (Nat.not_le.mpr (show m.searchLowMtu < m.ceilingMtu by omega)),
        if_pos htarget] at hnext
      exact absurd htarget (Nat.not_lt.mpr hnext)

-- ==== the steps

theorem orDefault_pos {setting default : Nat} (h : 0 < default) :
    0 < orDefault setting default := by
  unfold orDefault
  split
  · exact h
  · omega

theorem inv_init (cfg : MtuConfig) (ipv6 : Bool) : (init cfg ipv6).Inv := by
  have hsupported : minimumSupportedMtu ipv6 ≤ 1500 := by
    unfold minimumSupportedMtu
    split <;> omega
  have hmin : (init cfg ipv6).mtuMin ≤ 1500 := (clampValue_of_le hsupported).2
  have hmax : (init cfg ipv6).mtuMin ≤ (init cfg ipv6).mtuMax ∧ (init cfg ipv6).mtuMax ≤ 1500 :=
    clampValue_of_le hmin
  have hbase : (init cfg ipv6).mtuMin ≤ (init cfg ipv6).mtuBase ∧
      (init cfg ipv6).mtuBase ≤ (init cfg ipv6).mtuMax := clampValue_of_le hmax.1
  exact
    { ordered := ⟨hbase.1, le_refl _, hbase.2, le_refl _⟩
      limited := ⟨hbase.1, hbase.2, hmax.2, orDefault_pos (by omega)⟩
      high := fun _ => rfl
      stable := fun h => ProbePhase.noConfusion h
      disabled := fun _ => rfl
      inFlight := fun h => Bool.noConfusion h
      settled := fun _ => .inl rfl }

theorem Inv.started (h : m.Inv) (hlimits : m'.limits = m.limits)
    (hlow : m'.searchLowMtu = m'.currentMtu) (hge : m.mtuMin ≤ m'.currentMtu)
    (hle : m'.currentMtu ≤ m'.ceilingMtu) (hceiling : m'.ceilingMtu ≤ m.mtuMax)
    (hhigh : m'.searchHighMtu = m'.ceilingMtu)
    (hstable : m'.probePhase = .stable → m'.ceilingMtu = m'.searchLowMtu)
    (hnone : m'.hasInFlightProbe = false) : m'.Inv := by
  have hlimited := h.limited.same hlimits
  simp only [limits, Prod.mk.injEq] at hlimits
  exact
    { ordered := ⟨hlimits.1 ▸ hge, hlow.ge, hlow ▸ hle, hlimits.2.1 ▸ hceiling⟩
      limited := hlimited
      high := fun _ => hhigh
      stable := hstable
      disabled := fun _ => hlow.symm
      inFlight := fun hprobe => absurd (hnone.symm.trans hprobe) nofun
      settled := fun _ => .inl hlow.symm }

theorem Inv.onPathValidated (h : m.Inv) (nowMs : Nat) : (m.onPathValidated nowMs).Inv := by
  have hbase := h.limited.base_le
  unfold MtuDiscovery.onPathValidated
  dsimp only
  split
  · apply h.started
    · rfl
    · rfl
    · exact h.limited.base_ge
    · exact le_refl _
    · exact hbase
    · rfl
    · exact fun _ => rfl
    · rfl
  · apply h.started
    · rfl
    · rfl
    · exact h.limited.base_ge
    · exact hbase
    · exact le_refl _
    · rfl
    · exact fun hphase => ProbePhase.noConfusion hphase
    · rfl

theorem clampValue_between {value lo hi : Nat} (hopen : lo < hi ∨ lo < value) :
    clampValue value (lo + 1) hi ≤ hi := by
  unfold clampValue
  split
  · omega
  · split
    · exact le_refl _
    · omega

theorem Inv.onProbeSent (h : m.Inv) {packNo : UInt64} {probeMtu nowMs : Nat}
    (hopen : m.searchLowMtu < m.ceilingMtu ∨ m.searchLowMtu < probeMtu) :
    (m.onProbeSent packNo probeMtu nowMs).Inv := by
  have hle := h.ordered.low_le
  have hceiling := h.ordered.ceiling_le
  have hmax := h.limited.max_le
  have hlow : (m.searchLowMtu + 1) % 2 ^ 16 = m.searchLowMtu + 1 := Nat.mod_eq_of_lt (by omega)
  unfold MtuDiscovery.onProbeSent
  simp only [hlow]
  split
  · exact h
  case isFalse hgoes =>
    split
    · exact h
    case isFalse hraised =>
      have hlt := Nat.not_le.mp hraised
      have hbetween := clampValue_between hopen
      have hphase : m.probePhase ≠ .stable := fun hstable => by
        have := h.stable hstable
        omega
      have henabled : m.enabled = true := by
        simp only [Bool.or_eq_true, Bool.not_eq_true', decide_eq_true_eq, not_or,
          Bool.not_eq_false] at hgoes
        exact hgoes.1
      exact
        { ordered := ⟨h.ordered.min_le, h.ordered.current_le, hle, hceiling⟩
          limited := h.limited.same rfl
          high := fun _ => h.high hphase
          stable := fun hstable => by
            dsimp only at hstable
            split at hstable
            · cases hstable
            · exact absurd hstable hphase
          disabled := fun hdisabled => absurd (henabled.symm.trans hdisabled) nofun
          inFlight := fun _ => ⟨henabled, hlt, hbetween⟩
          settled := fun hnone => Bool.noConfusion hnone }

/-- A search whose probe has just been resolved: the bounds are those it was
found to have, and it remains to be seen whether that is all. -/
structure Resolving (m m' : MtuDiscovery) : Prop where
  limits : m'.limits = m.limits
  enabled : m'.enabled = true
  none : m'.hasInFlightProbe = false
  current : m'.currentMtu = m.currentMtu
  searching : m'.probePhase ≠ .stable
  low : m.searchLowMtu ≤ m'.searchLowMtu
  bounds : m'.searchLowMtu ≤ m'.ceilingMtu
  ceiling : m'.ceilingMtu ≤ m.mtuMax
  high : m'.searchHighMtu = m'.ceilingMtu
  ladder : m'.probePhase = .ladder → m'.searchLowMtu < m'.nextLadderTarget

theorem Inv.over (h : m.Inv) (hres : Resolving m m') {size : Nat}
    (hsize : m'.searchLowMtu ≤ size) (hle : size ≤ m.mtuMax) (nextProbeTimeMs searchHighMtu : Nat) :
    Inv { m' with
      currentMtu := size, ceilingMtu := size, searchLowMtu := size, searchHighMtu,
      probePhase := .stable, nextProbeTimeMs } := by
  have hlimited := h.limited.same hres.limits
  have hlimits := hres.limits
  have hmin := h.ordered.min_le
  have hcurrent := h.ordered.current_le
  have hlow := hres.low
  simp only [MtuDiscovery.limits, Prod.mk.injEq] at hlimits
  refine
    { ordered := ⟨?_, le_refl _, le_refl _, ?_⟩
      limited := hlimited.same rfl
      high := fun hon => absurd rfl hon
      stable := fun _ => rfl
      disabled := fun _ => rfl
      inFlight := fun hprobe => absurd (hres.none.symm.trans hprobe) nofun
      settled := fun _ => .inl rfl }
  · change m'.mtuMin ≤ size
    omega
  · change size ≤ m'.mtuMax
    omega

theorem on_or_on {phase : ProbePhase} (h : phase ≠ .stable) :
    phase = .ladder ∨ phase = .binary := by
  cases phase with
  | ladder => exact .inl rfl
  | binary => exact .inr rfl
  | stable => exact absurd rfl h

theorem Inv.goesOn (h : m.Inv) (hres : Resolving m m')
    (hmore : m'.probePhase = .binary → m'.searchLowMtu + m'.probeStep < m'.searchHighMtu)
    (nextProbeTimeMs : Nat) : Inv { m' with nextProbeTimeMs } := by
  have hlimited := h.limited.same hres.limits
  have hlimits := hres.limits
  simp only [MtuDiscovery.limits, Prod.mk.injEq] at hlimits
  exact
    { ordered :=
        { min_le := hlimits.1.le.trans (hres.current ▸ h.ordered.min_le)
          current_le := (hres.current.le.trans h.ordered.current_le).trans hres.low
          low_le := hres.bounds
          ceiling_le := hres.ceiling.trans hlimits.2.1.ge }
      limited := hlimited.same rfl
      high := fun _ => hres.high
      stable := fun hover => absurd hover hres.searching
      disabled := fun hdisabled => absurd (hres.enabled.symm.trans hdisabled) nofun
      inFlight := fun hprobe => absurd (hres.none.symm.trans hprobe) nofun
      settled := fun _ => by
        rcases on_or_on hres.searching with hphase | hphase
        · exact .inr (.inl ⟨hphase, hres.ladder hphase⟩)
        · exact .inr (.inr ⟨hphase, hmore hphase⟩) }

/-- What a resolved probe leaves. -/
structure Resolved (m m' : MtuDiscovery) (found : Nat) : Prop where
  inv : m'.Inv
  narrower : m'.width < m.width
  low : m'.searchLowMtu ≤ found
  limits : m'.limits = m.limits

/-- The probe in flight is acknowledged; the ladder is left where it has no
rung above it. -/
def raised (m : MtuDiscovery) (nowMs : Nat) : MtuDiscovery :=
  let m : MtuDiscovery := { m with
    searchLowMtu := max m.searchLowMtu m.inFlightProbeMtu
    lastLargeAckMs := nowMs
    largeLossStreak := 0 }.clearInFlightProbe
  if m.probePhase = .ladder && m.nextLadderTarget ≤ m.searchLowMtu then
    { m with probePhase := .binary }
  else m

theorem Inv.raised (h : m.Inv) (hprobe : m.hasInFlightProbe = true) (nowMs : Nat) :
    Resolving m (m.raised nowMs) ∧ (m.raised nowMs).searchLowMtu = m.inFlightProbeMtu := by
  obtain ⟨henabled, hlow, hhigh⟩ := h.inFlight hprobe
  have hle := h.ordered.low_le
  have hsearching : m.probePhase ≠ .stable := fun hstable => by
    have := h.stable hstable
    omega
  have hraised : max m.searchLowMtu m.inFlightProbeMtu = m.inFlightProbeMtu := by omega
  unfold MtuDiscovery.raised
  simp only [clearInFlightProbe, hraised]
  split
  case isTrue hladder =>
    exact ⟨⟨rfl, henabled, rfl, rfl, nofun, hlow.le, hhigh, h.ordered.ceiling_le,
      h.high hsearching, fun hphase => ProbePhase.noConfusion hphase⟩, rfl⟩
  case isFalse hladder =>
    refine ⟨⟨rfl, henabled, rfl, rfl, hsearching, hlow.le, hhigh, h.ordered.ceiling_le,
      h.high hsearching, fun hphase => ?_⟩, rfl⟩
    have hphase' : m.probePhase = .ladder := hphase
    simp only [hphase', decide_true, Bool.true_and, decide_eq_true_eq] at hladder
    exact Nat.not_le.mp hladder

theorem Inv.probeAcked (h : m.Inv) (hprobe : m.hasInFlightProbe = true)
    (hstep : max m.searchLowMtu m.inFlightProbeMtu + m.probeStep < 2 ^ 16) (nowMs : Nat) :
    Resolved m (m.probeAcked nowMs) m.inFlightProbeMtu := by
  obtain ⟨-, hlow, hhigh⟩ := h.inFlight hprobe
  obtain ⟨hres, hraised⟩ := h.raised hprobe nowMs
  have hlimits := hres.limits
  have hbounds := hres.bounds
  have hceiling := h.ordered.ceiling_le
  have hle := hres.ceiling
  simp only [limits, Prod.mk.injEq] at hlimits
  have heq : m.probeAcked nowMs =
      if (m.raised nowMs).mtuMax ≤ (m.raised nowMs).searchLowMtu then
        { m.raised nowMs with
          currentMtu := (m.raised nowMs).mtuMax, ceilingMtu := (m.raised nowMs).mtuMax
          searchLowMtu := (m.raised nowMs).mtuMax, searchHighMtu := (m.raised nowMs).mtuMax
          probePhase := .stable, nextProbeTimeMs := nowMs + (m.raised nowMs).probeIntervalMs }
      else if (m.raised nowMs).probePhase = .binary && (m.raised nowMs).searchHighMtu ≤
          ((m.raised nowMs).searchLowMtu + (m.raised nowMs).probeStep) % 2 ^ 16 then
        { m.raised nowMs with
          currentMtu := (m.raised nowMs).searchLowMtu
          ceilingMtu := (m.raised nowMs).searchLowMtu, probePhase := .stable
          nextProbeTimeMs := nowMs + (m.raised nowMs).probeIntervalMs }
      else { m.raised nowMs with nextProbeTimeMs := nowMs + 1 } := rfl
  rw [heq]
  split
  case isTrue htop =>
    refine ⟨h.over hres ?_ ?_ _ _, ?_, ?_, hres.limits⟩
    · omega
    · omega
    · simp only [width]
      omega
    · dsimp only
      omega
  case isFalse hbelow =>
    split
    case isTrue hover =>
      refine ⟨h.over hres (le_refl _) (hbounds.trans hle) _ _, ?_, hraised.le, hres.limits⟩
      simp only [width]
      omega
    case isFalse hmore =>
      refine ⟨h.goesOn hres (fun hphase => ?_) _, ?_, hraised.le, hres.limits⟩
      · have hwrap : ((m.raised nowMs).searchLowMtu + (m.raised nowMs).probeStep) % 2 ^ 16 =
            (m.raised nowMs).searchLowMtu + (m.raised nowMs).probeStep :=
          Nat.mod_eq_of_lt (by omega)
        simp only [hphase, decide_true, Bool.true_and, decide_eq_true_eq, hwrap] at hmore
        exact Nat.not_le.mp hmore
      · have hsame : (m.raised nowMs).ceilingMtu = m.ceilingMtu := by
          unfold MtuDiscovery.raised
          dsimp only
          split <;> rfl
        simp only [width]
        omega

/-- The probe in flight is lost: what is below it remains. -/
def lowered (m : MtuDiscovery) : MtuDiscovery :=
  { m with
    searchHighMtu := min m.searchHighMtu (m.inFlightProbeMtu - 1)
    ceilingMtu := min m.ceilingMtu (min m.searchHighMtu (m.inFlightProbeMtu - 1))
    probePhase := .binary }.clearInFlightProbe

theorem Inv.probeLost (h : m.Inv) (hprobe : m.hasInFlightProbe = true)
    (hstep : m.searchLowMtu + m.probeStep < 2 ^ 16) (nowMs : Nat) :
    Resolved m (m.probeLost nowMs) m.searchLowMtu := by
  obtain ⟨henabled, hlow, hhigh⟩ := h.inFlight hprobe
  have hle := h.ordered.low_le
  have hceiling := h.ordered.ceiling_le
  have hsearching : m.probePhase ≠ .stable := fun hstable => by
    have := h.stable hstable
    omega
  have hupper := h.high hsearching
  have hres : Resolving m m.lowered := by
    refine ⟨rfl, henabled, rfl, rfl, nofun, le_refl _, ?_, ?_, ?_,
      fun hphase => ProbePhase.noConfusion hphase⟩
    · simp only [lowered, clearInFlightProbe]
      omega
    · simp only [lowered, clearInFlightProbe]
      omega
    · simp only [lowered, clearInFlightProbe]
      omega
  have hwidth : m.lowered.ceilingMtu < m.ceilingMtu := by
    simp only [lowered, clearInFlightProbe]
    omega
  have hsame : m.lowered.searchLowMtu = m.searchLowMtu := rfl
  have heq : m.probeLost nowMs =
      if m.lowered.searchHighMtu ≤ (m.lowered.searchLowMtu + m.lowered.probeStep) % 2 ^ 16 then
        { m.lowered with
          currentMtu := m.lowered.searchLowMtu, ceilingMtu := m.lowered.searchLowMtu
          probePhase := .stable, nextProbeTimeMs := nowMs + m.lowered.probeIntervalMs }
      else { m.lowered with nextProbeTimeMs := nowMs + 1 } := by
    unfold MtuDiscovery.probeLost
    rw [if_pos (show 0 < m.inFlightProbeMtu by omega)]
    rfl
  rw [heq]
  split
  case isTrue hover =>
    refine ⟨h.over hres (le_refl _) (hres.bounds.trans hres.ceiling) _ _, ?_, le_refl _, rfl⟩
    simp only [width]
    omega
  case isFalse hmore =>
    refine ⟨h.goesOn hres (fun _ => ?_) _, ?_, le_refl _, rfl⟩
    · have hwrap : (m.lowered.searchLowMtu + m.lowered.probeStep) % 2 ^ 16 =
          m.lowered.searchLowMtu + m.lowered.probeStep := Nat.mod_eq_of_lt hstep
      rw [hwrap] at hmore
      exact Nat.not_le.mp hmore
    · simp only [width]
      omega

theorem onDataPacketLoss_eq (m : MtuDiscovery) (packetSize nowMs : Nat) :
    (∃ lastLargeLossMs largeLossStreak, m.fallsBack packetSize nowMs = false ∧
      m.onDataPacketLoss packetSize nowMs = { m with lastLargeLossMs, largeLossStreak }) ∨
    m.fallsBack packetSize nowMs = true ∧
      ∃ lastLargeLossMs blackholeCooldownUntilMs nextProbeTimeMs,
        m.onDataPacketLoss packetSize nowMs = { m with
          currentMtu := m.mtuMin, ceilingMtu := m.mtuMax, probePhase := .ladder,
          searchLowMtu := m.mtuMin, searchHighMtu := m.mtuMax, lastLargeLossMs,
          blackholeCooldownUntilMs, nextProbeTimeMs, largeLossStreak := 0,
          hasInFlightProbe := false, inFlightProbePackNo := 0, inFlightProbeMtu := 0,
          inFlightProbeDeadlineMs := 0 } := by
  unfold MtuDiscovery.onDataPacketLoss fallsBack
  generalize (if m.lastLargeLossMs = 0 || m.lastLargeLossMs + m.blackholeLossWindowMs < nowMs
    then 0 else m.largeLossStreak) = before
  dsimp only
  generalize (if before < 255 then before + 1 else before) = streak
  split
  case isTrue hsmall =>
    refine .inl ⟨m.lastLargeLossMs, m.largeLossStreak, ?_, rfl⟩
    cases henabled : m.enabled with
    | false => rfl
    | true =>
      rw [henabled] at hsmall
      simp only [Bool.not_true, Bool.false_or] at hsmall
      simp [of_decide_eq_true hsmall]
  case isFalse hlarge =>
    simp only [Bool.or_eq_true, Bool.not_eq_true', decide_eq_true_eq, not_or,
      Bool.not_eq_false] at hlarge
    split
    case isTrue hfew => exact .inl ⟨nowMs, streak, by simp [Nat.not_le.mpr hfew], rfl⟩
    case isFalse hmany =>
      split
      case isTrue hrecent => exact .inl ⟨nowMs, streak, by rw [hrecent]; simp, rfl⟩
      case isFalse hnone =>
        have hcounted : m.blackholeLossThreshold ≤ streak := Nat.not_lt.mp hmany
        refine .inr ⟨?_, nowMs, nowMs + m.blackholeCooldownMs,
          nowMs + m.blackholeCooldownMs, rfl⟩
        rw [hlarge.1, Bool.eq_false_iff.mpr hnone]
        simp [hlarge.2, hcounted]

theorem onProbeTimeout_eq {nowMs : Nat} (h : m.overdue nowMs = false) :
    m.onProbeTimeout nowMs = m := by
  have hwaits : (!m.hasInFlightProbe || decide (nowMs < m.inFlightProbeDeadlineMs)) = true := by
    simp only [overdue, Bool.and_eq_false_iff, decide_eq_false_iff_not, Nat.not_le] at h
    simpa using h
  rw [onProbeTimeout, if_pos hwaits]

theorem onProbeTimeout_overdue {nowMs : Nat} (h : m.overdue nowMs = true) :
    m.onProbeTimeout nowMs = m.probeLost nowMs := by
  obtain ⟨hprobe, hpassed⟩ := Bool.and_eq_true_iff.mp h
  have hdue : ¬ (!m.hasInFlightProbe || decide (nowMs < m.inFlightProbeDeadlineMs)) = true := by
    simp [hprobe, of_decide_eq_true hpassed]
  rw [onProbeTimeout, if_neg hdue, onProbeLost, if_pos]
  simp [probing, hprobe]

theorem resolves_cases (h : m.resolves op = true) : m.hasInFlightProbe = true ∧
    ((∃ packNo nowMs, op = .probeAck packNo nowMs ∧ m.step op = m.probeAcked nowMs) ∨
      m.lowAfter op = m.searchLowMtu ∧ ∃ nowMs, m.step op = m.probeLost nowMs) := by
  cases op with
  | probeAck packNo nowMs =>
    have hprobing : m.probing packNo = true := h
    exact ⟨(Bool.and_eq_true_iff.mp hprobing).1, .inl ⟨packNo, nowMs, rfl, if_pos hprobing⟩⟩
  | probeLost packNo nowMs =>
    have hprobing : m.probing packNo = true := h
    exact ⟨(Bool.and_eq_true_iff.mp hprobing).1, .inr ⟨rfl, nowMs, if_pos hprobing⟩⟩
  | probeTimeout nowMs =>
    have hdue : m.overdue nowMs = true := h
    exact ⟨(Bool.and_eq_true_iff.mp hdue).1, .inr ⟨rfl, nowMs, onProbeTimeout_overdue hdue⟩⟩
  | pathValidated => cases h
  | setAddressFamily => cases h
  | probeSent => cases h
  | dataPacketAck => cases h
  | dataPacketLoss => cases h

/-- What starts no search and resolves no probe: a probe is announced, or the
step is about the family and the losses. -/
theorem aside_cases (hreset : m.resets op = false) (hresolve : m.resolves op = false) :
    (∃ packNo probeMtu nowMs, op = .probeSent packNo probeMtu nowMs) ∨
      m.sends op = false ∧ ∃ ipv6 lastLargeAckMs lastLargeLossMs largeLossStreak,
        m.step op = { m with ipv6, lastLargeAckMs, lastLargeLossMs, largeLossStreak } := by
  cases op with
  | pathValidated nowMs => cases hreset
  | setAddressFamily ipv6 => exact .inr ⟨rfl, ipv6, _, _, _, rfl⟩
  | probeSent packNo probeMtu nowMs => exact .inl ⟨packNo, probeMtu, nowMs, rfl⟩
  | probeAck packNo nowMs =>
    exact .inr ⟨rfl, _, _, _, _, if_neg (Bool.eq_false_iff.mp hresolve)⟩
  | probeLost packNo nowMs =>
    exact .inr ⟨rfl, _, _, _, _, if_neg (Bool.eq_false_iff.mp hresolve)⟩
  | probeTimeout nowMs => exact .inr ⟨rfl, _, _, _, _, onProbeTimeout_eq hresolve⟩
  | dataPacketAck packetSize nowMs =>
    refine .inr ⟨rfl, ?_⟩
    simp only [step, MtuDiscovery.onDataPacketAck]
    split
    · exact ⟨_, _, _, _, rfl⟩
    · exact ⟨_, nowMs, _, 0, rfl⟩
  | dataPacketLoss packetSize nowMs =>
    have hstays : m.fallsBack packetSize nowMs = false := hreset
    rcases onDataPacketLoss_eq m packetSize nowMs with ⟨_, _, -, heq⟩ | ⟨hfalls, -⟩
    · exact .inr ⟨rfl, _, _, _, _, heq⟩
    · exact absurd (hstays.symm.trans hfalls) nofun

/-- A step that starts no search and resolves no probe leaves the bounds
alone, and a probe in flight where there is one. -/
theorem step_bounds (hreset : m.resets op = false) (hresolve : m.resolves op = false) :
    (m.step op).searchLowMtu = m.searchLowMtu ∧ (m.step op).width = m.width ∧
      (m.step op).limits = m.limits ∧
        (m.step op).hasInFlightProbe = (m.hasInFlightProbe || m.sends op) := by
  rcases aside_cases hreset hresolve with ⟨packNo, probeMtu, nowMs, rfl⟩ | ⟨hsends, _, _, _, _, heq⟩
  · simp only [step, MtuDiscovery.onProbeSent]
    split
    case isTrue hoff =>
      refine ⟨rfl, rfl, rfl, ?_⟩
      have hnot : m.sends (.probeSent packNo probeMtu nowMs) = false := by
        simp only [Bool.or_eq_true, Bool.not_eq_true', decide_eq_true_eq] at hoff
        rcases hoff with hoff | hzero <;> simp [sends, *]
      rw [hnot, Bool.or_false]
    case isFalse hon =>
      simp only [Bool.or_eq_true, Bool.not_eq_true', decide_eq_true_eq, not_or,
        Bool.not_eq_false] at hon
      have hsends : m.sends (.probeSent packNo probeMtu nowMs) = decide (m.searchLowMtu <
          clampValue probeMtu ((m.searchLowMtu + 1) % 2 ^ 16) m.ceilingMtu) := by
        rw [sends, hon.1, decide_eq_true hon.2]
        rfl
      rw [hsends]
      split
      case isTrue hlow =>
        refine ⟨rfl, rfl, rfl, ?_⟩
        rw [decide_eq_false (Nat.not_lt.mpr hlow), Bool.or_false]
      case isFalse hraised =>
        refine ⟨rfl, rfl, rfl, ?_⟩
        rw [decide_eq_true (Nat.not_le.mp hraised), Bool.or_true]
  · rw [heq, hsends]
    exact ⟨rfl, rfl, rfl, (Bool.or_false _).symm⟩

theorem Inv.resolve (h : m.Inv) (hsafe : m.Safe op) (hresolve : m.resolves op = true) :
    Resolved m (m.step op) (m.lowAfter op) := by
  have hfits := hsafe.2 hresolve
  obtain ⟨hprobe, ⟨packNo, nowMs, rfl, heq⟩ | ⟨hlow, nowMs, heq⟩⟩ := resolves_cases hresolve
  · have hacked := h.probeAcked hprobe hfits nowMs
    rw [heq]
    exact ⟨hacked.inv, hacked.narrower, hacked.low.trans (le_max_right _ _), hacked.limits⟩
  · rw [hlow] at hfits ⊢
    rw [heq]
    exact h.probeLost hprobe hfits nowMs

theorem Inv.aside (h : m.Inv) (ipv6 : Bool) (lastLargeAckMs lastLargeLossMs largeLossStreak : Nat) :
    Inv { m with ipv6, lastLargeAckMs, lastLargeLossMs, largeLossStreak } where
  ordered := ⟨h.ordered.min_le, h.ordered.current_le, h.ordered.low_le, h.ordered.ceiling_le⟩
  limited := h.limited.same rfl
  high := h.high
  stable := h.stable
  disabled := h.disabled
  inFlight := fun hprobe =>
    have hflight := h.inFlight hprobe
    ⟨hflight.enabled, hflight.low, hflight.ceiling⟩
  settled := h.settled

theorem Inv.restart (h : m.Inv) (hreset : m.resets op = true) : (m.step op).Inv := by
  cases op with
  | pathValidated nowMs => exact h.onPathValidated nowMs
  | dataPacketLoss packetSize nowMs =>
    have hfalls : m.fallsBack packetSize nowMs = true := hreset
    rcases onDataPacketLoss_eq m packetSize nowMs with ⟨_, _, hstays, -⟩ | ⟨-, _, _, _, heq⟩
    · exact absurd (hstays.symm.trans hfalls) nofun
    · simp only [MtuDiscovery.step, heq]
      apply h.started
      · rfl
      · rfl
      · exact le_refl _
      · exact h.limited.base_ge.trans h.limited.base_le
      · exact le_refl _
      · rfl
      · exact fun hphase => ProbePhase.noConfusion hphase
      · rfl
  | setAddressFamily => cases hreset
  | probeSent => cases hreset
  | probeAck => cases hreset
  | probeLost => cases hreset
  | probeTimeout => cases hreset
  | dataPacketAck => cases hreset

theorem Inv.step (h : m.Inv) (hsafe : m.Safe op) : (m.step op).Inv := by
  cases hreset : m.resets op with
  | true => exact h.restart hreset
  | false =>
    cases hresolve : m.resolves op with
    | true => exact (h.resolve hsafe hresolve).inv
    | false =>
      rcases aside_cases hreset hresolve with ⟨_, _, _, rfl⟩ | ⟨-, _, _, _, _, heq⟩
      · refine h.onProbeSent ?_
        simpa only [admits, Bool.or_eq_true, decide_eq_true_eq] using hsafe.1
      · rw [heq]
        exact h.aside _ _ _ _

theorem step_resets (hreset : m.resets op = true) :
    (m.step op).searchLowMtu ≤ (m.step op).mtuBase ∨
      (m.step op).searchLowMtu ≤ (m.step op).mtuMin := by
  cases op with
  | pathValidated nowMs =>
    left
    simp only [step, MtuDiscovery.onPathValidated]
    split <;> exact le_refl _
  | dataPacketLoss packetSize nowMs =>
    have hfalls : m.fallsBack packetSize nowMs = true := hreset
    right
    rcases onDataPacketLoss_eq m packetSize nowMs with ⟨_, _, hstays, -⟩ | ⟨-, _, _, _, heq⟩
    · exact absurd (hstays.symm.trans hfalls) nofun
    · simp only [step, heq]
      exact le_refl _
  | setAddressFamily => cases hreset
  | probeSent => cases hreset
  | probeAck => cases hreset
  | probeLost => cases hreset
  | probeTimeout => cases hreset
  | dataPacketAck => cases hreset

end MtuDiscovery

-- ==== the run

namespace MtuSearch

open MtuDiscovery

variable {s : MtuSearch} {op : MtuOp}

/-- A size above the base that is committed was acknowledged since the search
was last started. -/
structure Inv (s : MtuSearch) : Prop where
  mtu : s.mtu.Inv
  low : s.mtu.mtuBase < s.mtu.searchLowMtu → s.mtu.mtuMin < s.mtu.searchLowMtu →
    ∃ size ∈ s.acked, s.mtu.searchLowMtu ≤ size

theorem Inv.found (h : s.Inv) : s.Found where
  ordered := h.mtu.ordered
  confirmed := fun hbase hmin => by
    have hle := h.mtu.ordered.current_le
    obtain ⟨size, hmem, hsize⟩ := h.low (hbase.trans_le hle) (hmin.trans_le hle)
    exact ⟨size, hmem, hle.trans hsize⟩
  committed := h.mtu.committed

theorem Inv.init (cfg : MtuConfig) (ipv6 : Bool) : Inv { mtu := MtuDiscovery.init cfg ipv6 } :=
  ⟨inv_init cfg ipv6, fun hbase _ => absurd hbase (Nat.lt_irrefl _)⟩

theorem Inv.step (h : s.Inv) (hsafe : s.mtu.Safe op) : (s.step op).Inv := by
  refine ⟨h.mtu.step hsafe, fun hbase hmin => ?_⟩
  cases hreset : s.mtu.resets op with
  | true =>
    rcases step_resets hreset with hle | hle
    · exact absurd hbase (Nat.not_lt.mpr hle)
    · exact absurd hmin (Nat.not_lt.mpr hle)
  | false =>
    have hacked : (s.step op).acked = ackedBy s.mtu op ++ s.acked := by
      simp [MtuSearch.step, hreset]
    have hkept : ∀ {bound : Nat}, bound ≤ s.mtu.searchLowMtu →
        (s.mtu.step op).limits = s.mtu.limits → bound = (s.step op).mtu.searchLowMtu →
          ∃ size ∈ s.acked, bound ≤ size := by
      intro bound hle hlimits hbound
      simp only [limits, Prod.mk.injEq] at hlimits
      have hbase' : (s.mtu.step op).mtuBase < (s.mtu.step op).searchLowMtu := hbase
      have hmin' : (s.mtu.step op).mtuMin < (s.mtu.step op).searchLowMtu := hmin
      have hbound' : bound = (s.mtu.step op).searchLowMtu := hbound
      obtain ⟨size, hmem, hsize⟩ := h.low (by omega) (by omega)
      exact ⟨size, hmem, hle.trans hsize⟩
    rw [hacked]
    cases hresolve : s.mtu.resolves op with
    | false =>
      obtain ⟨hlow, -, hlimits, -⟩ := step_bounds hreset hresolve
      obtain ⟨size, hmem, hsize⟩ := hkept hlow.le hlimits rfl
      exact ⟨size, List.mem_append_right _ hmem, hsize⟩
    | true =>
      have hres := h.mtu.resolve hsafe hresolve
      have hprobe := hres.low
      by_cases hle : (s.mtu.step op).searchLowMtu ≤ s.mtu.searchLowMtu
      · obtain ⟨size, hmem, hsize⟩ := hkept hle hres.limits rfl
        exact ⟨size, List.mem_append_right _ hmem, hsize⟩
      -- the lower bound has been raised, so that a probe was acknowledged
      · obtain ⟨-, ⟨packNo, nowMs, rfl, -⟩ | ⟨hlow, -⟩⟩ := resolves_cases hresolve
        · have hprobing : s.mtu.probing packNo = true := hresolve
          refine ⟨s.mtu.inFlightProbeMtu, ?_, (le_max_iff.mp hprobe).resolve_left hle⟩
          simp [ackedBy, hprobing]
        · exact absurd (hlow ▸ hprobe) hle

/-- A step that does not start the search again. -/
def Searches (s : MtuSearch) (op : MtuOp) : Prop :=
  s.mtu.Safe op ∧ s.mtu.resets op = false

/-- How many probes may still be resolved, and how many sent. -/
def probesLeft (s : MtuSearch) : Nat := s.mtu.width + if s.mtu.hasInFlightProbe then 0 else 1

/-- Between two resets no probe is resolved more often than the interval is
wide. -/
theorem resolved_le_width (h : s.Inv) {ops : List MtuOp} (hops : Meets step Searches s ops) :
    countSteps step (fun s op => s.mtu.resolves op = true) s ops ≤ s.mtu.width := by
  have hall : Meets step (fun s op => s.Inv ∧ s.Searches op) s ops :=
    Meets.and_inv (fun _ _ hinv hsearch => hinv.step hsearch.1) h hops
  refine (countSteps_le_rank (P := fun s op => s.mtu.resolves op = true) (Q := fun _ => False)
    (fun s => s.mtu.width) (fun s op hok hresolve => ?_) (fun s op hok hresolve => ?_)
    (fun _ _ hfalse _ => hfalse) hall).resolve_left id
  · exact .inr (hok.1.mtu.resolve hok.2.1 hresolve).narrower
  · exact .inr (step_bounds hok.2.2 (Bool.eq_false_iff.mpr hresolve)).2.1.le

/-- Nor are more probes sent than that and one more, where each is announced
after the one before has been resolved. -/
theorem sent_le_width (h : s.Inv) {ops : List MtuOp}
    (hops : Meets step (fun s op => s.Searches op ∧ s.mtu.Prompt op) s ops) :
    countSteps step (fun s op => s.mtu.sends op = true) s ops ≤ s.mtu.width + 1 := by
  have hmiss : ∀ (s : MtuSearch) (op : MtuOp), s.Inv → s.Searches op →
      ¬ s.mtu.sends op = true → (s.step op).probesLeft ≤ s.probesLeft := by
    intro s op hinv hsearch hnot
    cases hresolve : s.mtu.resolves op with
    | true =>
      have hnarrower : (s.step op).mtu.width < s.mtu.width :=
        (hinv.mtu.resolve hsearch.1 hresolve).narrower
      have hprobe := (resolves_cases hresolve).1
      unfold probesLeft
      rw [hprobe, if_pos rfl]
      split <;> omega
    | false =>
      obtain ⟨-, hwidth, -, hflight⟩ := step_bounds hsearch.2 hresolve
      rw [Bool.eq_false_iff.mpr hnot, Bool.or_false] at hflight
      simp only [probesLeft, MtuSearch.step, hwidth, hflight]
      exact le_refl _
  have hhit : ∀ (s : MtuSearch) (op : MtuOp), s.Searches op → s.mtu.Prompt op →
      s.mtu.sends op = true → (s.step op).probesLeft < s.probesLeft := by
    intro s op hsearch hprompt hsends
    have hnone := hprompt hsends
    have hresolve : s.mtu.resolves op = false := by
      apply Bool.eq_false_iff.mpr
      intro hresolve
      exact absurd (hnone.symm.trans ((resolves_cases hresolve).1)) nofun
    obtain ⟨-, hwidth, -, hflight⟩ := step_bounds hsearch.2 hresolve
    rw [hsends, Bool.or_true] at hflight
    simp only [probesLeft, MtuSearch.step, hwidth, hflight, hnone, if_true, Bool.false_eq_true,
      if_false]
    omega
  have hall : Meets step (fun s op => s.Inv ∧ s.Searches op ∧ s.mtu.Prompt op) s ops :=
    Meets.and_inv (fun _ _ hinv hsearch => hinv.step hsearch.1.1) h hops
  have hcount := countSteps_le_rank (P := fun s op => s.mtu.sends op = true)
    (Q := fun _ => False) probesLeft
    (fun s op hok hsends => .inr (hhit s op hok.2.1 hok.2.2 hsends))
    (fun s op hok hnot => .inr (hmiss s op hok.1 hok.2.1 hnot)) (fun _ _ hfalse _ => hfalse) hall
  have hleft : s.probesLeft ≤ s.mtu.width + 1 := by
    unfold probesLeft
    split <;> omega
  exact (hcount.resolve_left id).trans hleft

/-- The search, in every run of safe steps. -/
theorem mtu_search (cfg : MtuConfig) (ipv6 : Bool) (ops : List MtuOp)
    (h : Meets step (fun s op => s.mtu.Safe op) { mtu := MtuDiscovery.init cfg ipv6 } ops) :
    let s := run step { mtu := MtuDiscovery.init cfg ipv6 } ops
    s.Found ∧
      (∀ op, s.mtu.Safe op → s.mtu.resolves op = true → (s.mtu.step op).width < s.mtu.width) ∧
        ∀ next, Meets step Searches s next →
          countSteps step (fun s op => s.mtu.resolves op = true) s next ≤ s.mtu.width ∧
            (Meets step (fun s op => s.mtu.Prompt op) s next →
              countSteps step (fun s op => s.mtu.sends op = true) s next ≤ s.mtu.width + 1) := by
  intro s
  have hinv : s.Inv := run_inv (P := Inv) (fun _ _ hinv hsafe => hinv.step hsafe)
    (Inv.init cfg ipv6) h
  refine ⟨hinv.found, fun op hsafe hresolve => (hinv.mtu.resolve hsafe hresolve).narrower,
    fun next hnext => ⟨resolved_le_width hinv hnext, fun hprompt => ?_⟩⟩
  exact sent_le_width hinv (hnext.and hprompt)

/-- The ladder's first rung gets through, the next does not. -/
def oneRung : List MtuOp :=
  [.probeSent 1 1450 0, .probeAck 1 10, .probeSent 2 1492 20, .probeLost 2 30]

theorem mtu_search_oneRung :
    let s := run step { mtu := MtuDiscovery.init {} false } oneRung
    s.Found ∧ (s.mtu.step (.probeTimeout 40)).currentMtu = 1400 ∧
      countSteps step (fun s op => s.mtu.resolves op = true) s [.probeSent 3 1471 50] ≤ 41 := by
  have h := mtu_search {} false oneRung (by decide +kernel)
  exact ⟨h.1, by decide +kernel, (h.2.2 [.probeSent 3 1471 50] ⟨⟨by decide +kernel,
    by decide +kernel⟩, trivial⟩).1⟩

/-- A probe announced after the search has closed, and a probe step that
leaves no 16 bits for the test. -/
theorem not_found_closed :
    ¬ (run step { mtu := MtuDiscovery.init {} false }
      [.probeSent 1 1450 0, .probeLost 1 1, .probeSent 2 1425 2, .probeLost 2 3,
        .probeSent 3 1412 4, .probeLost 3 5, .probeSent 4 1400 6, .probeAck 4 7]).Found ∧
    ¬ (run step { mtu := MtuDiscovery.init { mtuProbeStep := 65000 } false }
      [.probeSent 1 1450 0, .probeAck 1 1, .probeSent 2 1492 2, .probeLost 2 3]).Found :=
  ⟨fun h => absurd h.ordered.low_le (by decide +kernel),
    fun h => absurd (h.committed ⟨by decide +kernel, by decide +kernel⟩) (by decide +kernel)⟩

end MtuSearch

end Eular.Utp
