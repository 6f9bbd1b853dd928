/-
The size of an MTU probe (C++ `SendControl::onCanWrite`,
`BuildMtuProbePayload`, `ConnectionImpl::sendPacket`).

The probe is padded to the size that belongs to `nextProbeMtu`, and then
`sendPacket` seals it, which adds sixteen bytes, and compares the sum
with the ceiling of the search. On an encrypted connection a probe
therefore never has the size it stands for, and the probe for the
ceiling itself is refused each time. A probe that leaves no room for
the PADDING frame is not built at all. The size is that for the family
of the peer's address, the ceiling that for the family of the last
datagram's source: where a socket for both families reports an IPv4
peer's datagrams as IPv6, the ceiling is 20 bytes below the probe's.

# The proof

`Searching` holds in every state of the search: a probe that is asked
for is no larger than the ceiling, since while the search is on neither
is its upper bound.
-/
import Eular.Utp.Send.Proofs.Accounting

namespace Eular.Utp

open Lib

-- ==== search

namespace MtuDiscovery

variable {m : MtuDiscovery}

theorem clampValue_le {value lo hi : Nat} (h : lo ≤ hi) : clampValue value lo hi ≤ hi := by
  unfold clampValue
  split
  · exact h
  · split
    · exact Nat.le_refl hi
    · omega

theorem le_clampValue {value lo hi : Nat} (h : lo ≤ hi) : lo ≤ clampValue value lo hi := by
  unfold clampValue
  split
  · exact Nat.le_refl lo
  · split
    · exact h
    · omega

/-- The bounds of the search in every state. -/
structure Searching (m : MtuDiscovery) : Prop where
  mtuMax_le : m.mtuMax ≤ 1500
  mtuBase_le : m.mtuBase ≤ m.mtuMax
  mtuMin_le : m.mtuMin ≤ m.mtuMax
  ceilingMtu_le : m.ceilingMtu ≤ m.mtuMax
  searchLowMtu_le : m.searchLowMtu ≤ m.mtuMax
  /-- The search is over, or its upper bound is below the ceiling. -/
  upper : m.ceilingMtu ≤ m.searchLowMtu
    ∨ m.probePhase ≠ .stable ∧ m.searchHighMtu ≤ m.ceilingMtu
  inFlight : m.hasInFlightProbe = true → m.inFlightProbeMtu ≤ max m.ceilingMtu (m.searchLowMtu + 1)

def bounds (m : MtuDiscovery) :=
  (m.mtuMax, m.mtuBase, m.mtuMin, m.ceilingMtu, m.searchLowMtu, m.searchHighMtu, m.probePhase,
    m.hasInFlightProbe, m.inFlightProbeMtu)

theorem Searching.of_bounds {m' : MtuDiscovery} (h : m.Searching) (hsame : m'.bounds = m.bounds) :
    m'.Searching := by
  simp only [bounds, Prod.mk.injEq] at hsame
  obtain ⟨hmax, hbase, hmin, hceil, hlow, hhigh, hphase, hflag, hprobe⟩ := hsame
  refine ⟨?_, ?_, ?_, ?_, ?_, ?_, ?_⟩
  · rw [hmax]; exact h.mtuMax_le
  · rw [hmax, hbase]; exact h.mtuBase_le
  · rw [hmax, hmin]; exact h.mtuMin_le
  · rw [hmax, hceil]; exact h.ceilingMtu_le
  · rw [hmax, hlow]; exact h.searchLowMtu_le
  · rw [hceil, hlow, hhigh, hphase]; exact h.upper
  · rw [hceil, hlow, hflag, hprobe]; exact h.inFlight

theorem searching_init (cfg : MtuConfig) (ipv6 : Bool) : (init cfg ipv6).Searching := by
  have hsupported : minimumSupportedMtu ipv6 ≤ 1500 := by
    unfold minimumSupportedMtu
    split
    · omega
    · omega
  have hmin : (init cfg ipv6).mtuMin ≤ 1500 := clampValue_le hsupported
  have hmax : (init cfg ipv6).mtuMax ≤ 1500 := clampValue_le hmin
  have hle : (init cfg ipv6).mtuMin ≤ (init cfg ipv6).mtuMax := le_clampValue hmin
  have hbase : (init cfg ipv6).mtuBase ≤ (init cfg ipv6).mtuMax := clampValue_le hle
  exact ⟨hmax, hbase, hle, Nat.le_refl _, hbase,
    .inr ⟨fun h => ProbePhase.noConfusion h, Nat.le_refl _⟩, fun h => Bool.noConfusion h⟩

theorem Searching.onPathValidated (h : m.Searching) (nowMs : Nat) :
    (m.onPathValidated nowMs).Searching := by
  unfold MtuDiscovery.onPathValidated
  by_cases hdisabled : m.enabled = false
  · simp only [clearInFlightProbe, hdisabled, Bool.not_false, if_true]
    exact ⟨h.mtuMax_le, h.mtuBase_le, h.mtuMin_le, h.mtuBase_le, h.mtuBase_le,
      .inl (Nat.le_refl _), fun hprobe => Bool.noConfusion hprobe⟩
  · simp only [clearInFlightProbe, Bool.not_eq_false] at hdisabled ⊢
    simp only [hdisabled, Bool.not_true, Bool.false_eq_true, if_false]
    exact ⟨h.mtuMax_le, h.mtuBase_le, h.mtuMin_le, Nat.le_refl _, h.mtuBase_le,
      .inr ⟨fun hphase => ProbePhase.noConfusion hphase, Nat.le_refl _⟩,
      fun hprobe => Bool.noConfusion hprobe⟩

theorem Searching.onProbeSent (h : m.Searching) (packNo : UInt64) (probeMtu nowMs : Nat) :
    (m.onProbeSent packNo probeMtu nowMs).Searching := by
  have hlow : (m.searchLowMtu + 1) % 2 ^ 16 = m.searchLowMtu + 1 := by
    have := h.mtuMax_le
    have := h.searchLowMtu_le
    omega
  have hprobe : clampValue probeMtu (m.searchLowMtu + 1) m.ceilingMtu
      ≤ max m.ceilingMtu (m.searchLowMtu + 1) := by
    unfold clampValue
    split
    · exact le_max_right _ _
    · split
      · exact le_max_left _ _
      · omega
  have hphase : m.probePhase ≠ .stable → ∀ c : Bool,
      (if c then ProbePhase.binary else m.probePhase) ≠ .stable := by
    intro hsearching c
    cases c with
    | false => exact hsearching
    | true => exact fun heq => ProbePhase.noConfusion heq
  unfold MtuDiscovery.onProbeSent
  simp only [hlow]
  split
  · exact h
  · split
    · exact h
    · exact ⟨h.mtuMax_le, h.mtuBase_le, h.mtuMin_le, h.ceilingMtu_le, h.searchLowMtu_le,
        h.upper.imp_right fun hupper => ⟨hphase hupper.1 _, hupper.2⟩, fun _ => hprobe⟩

/-- The acknowledged size becomes the lower bound. The search ends at the
greatest MTU or at that bound, or goes on. -/
theorem probeAcked_cases (m : MtuDiscovery) (nowMs : Nat) :
    ((m.probeAcked nowMs).mtuMax = m.mtuMax ∧ (m.probeAcked nowMs).mtuBase = m.mtuBase
        ∧ (m.probeAcked nowMs).mtuMin = m.mtuMin ∧ (m.probeAcked nowMs).hasInFlightProbe = false)
      ∧ ((m.probeAcked nowMs).ceilingMtu = m.mtuMax ∧ (m.probeAcked nowMs).searchLowMtu = m.mtuMax
        ∨ max m.searchLowMtu m.inFlightProbeMtu < m.mtuMax
          ∧ (m.probeAcked nowMs).searchLowMtu = max m.searchLowMtu m.inFlightProbeMtu
          ∧ ((m.probeAcked nowMs).ceilingMtu = max m.searchLowMtu m.inFlightProbeMtu
            ∨ (m.probeAcked nowMs).ceilingMtu = m.ceilingMtu
              ∧ (m.probeAcked nowMs).searchHighMtu = m.searchHighMtu
              ∧ ((m.probeAcked nowMs).probePhase = m.probePhase
                ∨ (m.probeAcked nowMs).probePhase = .binary))) := by
  unfold MtuDiscovery.probeAcked
  set m₁ : MtuDiscovery := MtuDiscovery.clearInFlightProbe { m with
    searchLowMtu := max m.searchLowMtu m.inFlightProbeMtu
    lastLargeAckMs := nowMs
    largeLossStreak := 0 } with hm₁
  have hladder : ∃ phase, (phase = m.probePhase ∨ phase = .binary)
      ∧ (if m₁.probePhase = .ladder && m₁.nextLadderTarget ≤ m₁.searchLowMtu then
          { m₁ with probePhase := .binary } else m₁) = { m₁ with probePhase := phase } := by
    split
    · exact ⟨.binary, .inr rfl, rfl⟩
    · exact ⟨m.probePhase, .inl rfl, rfl⟩
  obtain ⟨phase, hphase, hsearch⟩ := hladder
  simp only [hsearch]
  by_cases hend : m₁.mtuMax ≤ m₁.searchLowMtu
  · rw [if_pos hend]
    exact ⟨⟨rfl, rfl, rfl, rfl⟩, .inl ⟨rfl, rfl⟩⟩
  · rw [if_neg hend]
    have hbelow : max m.searchLowMtu m.inFlightProbeMtu < m.mtuMax := Nat.lt_of_not_le hend
    split
    · exact ⟨⟨rfl, rfl, rfl, rfl⟩, .inr ⟨hbelow, rfl, .inl rfl⟩⟩
    · exact ⟨⟨rfl, rfl, rfl, rfl⟩, .inr ⟨hbelow, rfl, .inr ⟨rfl, rfl, hphase⟩⟩⟩

theorem Searching.probeAcked (h : m.Searching) (nowMs : Nat) : (m.probeAcked nowMs).Searching := by
  obtain ⟨⟨hmax, hbase, hmin, hclear⟩, hcases⟩ := probeAcked_cases m nowMs
  have hnone : (m.probeAcked nowMs).hasInFlightProbe = true →
      (m.probeAcked nowMs).inFlightProbeMtu
        ≤ max (m.probeAcked nowMs).ceilingMtu ((m.probeAcked nowMs).searchLowMtu + 1) := by
    intro hprobe
    rw [hclear] at hprobe
    cases hprobe
  have hceiling := h.ceilingMtu_le
  obtain ⟨hceil, hlow⟩ | ⟨hbelow, hlow, hceil | ⟨hceil, hhigh, hphase⟩⟩ := hcases
  · exact ⟨hmax ▸ h.mtuMax_le, hmax ▸ hbase ▸ h.mtuBase_le, hmax ▸ hmin ▸ h.mtuMin_le,
      by omega, by omega, .inl (by omega), hnone⟩
  · exact ⟨hmax ▸ h.mtuMax_le, hmax ▸ hbase ▸ h.mtuBase_le, hmax ▸ hmin ▸ h.mtuMin_le,
      by omega, by omega, .inl (by omega), hnone⟩
  · refine ⟨hmax ▸ h.mtuMax_le, hmax ▸ hbase ▸ h.mtuBase_le, hmax ▸ hmin ▸ h.mtuMin_le,
      by omega, by omega, ?_, hnone⟩
    obtain hover | ⟨hon, hupper⟩ := h.upper
    · exact .inl (by omega)
    · refine .inr ⟨?_, by omega⟩
      obtain hsame | hbinary := hphase
      · rw [hsame]
        exact hon
      · rw [hbinary]
        exact fun heq => ProbePhase.noConfusion heq

/-- The lost size bounds the search from above, and the ceiling comes down
with it. The search ends at the lower bound, or goes on. -/
theorem probeLost_cases (m : MtuDiscovery) (nowMs : Nat) :
    ((m.probeLost nowMs).mtuMax = m.mtuMax ∧ (m.probeLost nowMs).mtuBase = m.mtuBase
        ∧ (m.probeLost nowMs).mtuMin = m.mtuMin ∧ (m.probeLost nowMs).hasInFlightProbe = false
        ∧ (m.probeLost nowMs).searchLowMtu = m.searchLowMtu)
      ∧ ((m.probeLost nowMs).ceilingMtu = m.searchLowMtu
        ∨ (m.probeLost nowMs).ceilingMtu = m.ceilingMtu
          ∧ (m.probeLost nowMs).searchHighMtu = m.searchHighMtu
          ∧ (m.probeLost nowMs).probePhase = m.probePhase
        ∨ (m.probeLost nowMs).searchHighMtu = min m.searchHighMtu (m.inFlightProbeMtu - 1)
          ∧ (m.probeLost nowMs).ceilingMtu
            = min m.ceilingMtu (min m.searchHighMtu (m.inFlightProbeMtu - 1))
          ∧ (m.probeLost nowMs).probePhase = .binary) := by
  unfold MtuDiscovery.probeLost
  by_cases hpositive : 0 < m.inFlightProbeMtu
  · simp only [hpositive, if_true]
    split
    · exact ⟨⟨rfl, rfl, rfl, rfl, rfl⟩, .inl rfl⟩
    · exact ⟨⟨rfl, rfl, rfl, rfl, rfl⟩, .inr (.inr ⟨rfl, rfl, rfl⟩)⟩
  · simp only [hpositive, if_false]
    split
    · exact ⟨⟨rfl, rfl, rfl, rfl, rfl⟩, .inl rfl⟩
    · exact ⟨⟨rfl, rfl, rfl, rfl, rfl⟩, .inr (.inl ⟨rfl, rfl, rfl⟩)⟩

theorem Searching.probeLost (h : m.Searching) (hprobing : m.hasInFlightProbe = true)
    (nowMs : Nat) : (m.probeLost nowMs).Searching := by
  obtain ⟨⟨hmax, hbase, hmin, hclear, hlow⟩, hcases⟩ := probeLost_cases m nowMs
  have hnone : (m.probeLost nowMs).hasInFlightProbe = true →
      (m.probeLost nowMs).inFlightProbeMtu
        ≤ max (m.probeLost nowMs).ceilingMtu ((m.probeLost nowMs).searchLowMtu + 1) := by
    intro hprobe
    rw [hclear] at hprobe
    cases hprobe
  have hprobe := h.inFlight hprobing
  have hceiling := h.ceilingMtu_le
  have hle := h.searchLowMtu_le
  have hupper : (m.probeLost nowMs).ceilingMtu ≤ (m.probeLost nowMs).searchLowMtu
      ∨ (m.probeLost nowMs).probePhase ≠ .stable
        ∧ (m.probeLost nowMs).searchHighMtu ≤ (m.probeLost nowMs).ceilingMtu := by
    obtain hceil | ⟨hceil, hhigh, hphase⟩ | ⟨hhigh, hceil, hphase⟩ := hcases
    · exact .inl (by omega)
    · rw [hceil, hhigh, hphase, hlow]
      exact h.upper
    · rw [hceil, hhigh, hphase, hlow]
      obtain hover | ⟨-, hbelow⟩ := h.upper
      · exact .inl (by omega)
      · exact .inr ⟨fun heq => ProbePhase.noConfusion heq, by omega⟩
  exact ⟨hmax ▸ h.mtuMax_le, hmax ▸ hbase ▸ h.mtuBase_le, hmax ▸ hmin ▸ h.mtuMin_le,
    by omega, by omega, hupper, hnone⟩

theorem Searching.onProbeLost (h : m.Searching) (packNo : UInt64) (nowMs : Nat) :
    (m.onProbeLost packNo nowMs).Searching := by
  unfold MtuDiscovery.onProbeLost
  split
  · rename_i hprobing
    rw [probing, Bool.and_eq_true] at hprobing
    exact h.probeLost hprobing.1 nowMs
  · exact h

theorem onDataPacketLoss_cases (m : MtuDiscovery) (packetSize nowMs : Nat) :
    (m.onDataPacketLoss packetSize nowMs).bounds = m.bounds
      ∨ (m.onDataPacketLoss packetSize nowMs).bounds
        = (m.mtuMax, m.mtuBase, m.mtuMin, m.mtuMax, m.mtuMin, m.mtuMax, .ladder, false, 0) := by
  unfold MtuDiscovery.onDataPacketLoss
  split
  · exact .inl rfl
  · simp only
    generalize (if m.lastLargeLossMs = 0 || m.lastLargeLossMs + m.blackholeLossWindowMs < nowMs
      then 0 else m.largeLossStreak) = before
    generalize (if before < 255 then before + 1 else before) = streak
    split
    · exact .inl rfl
    · split
      · exact .inl rfl
      · exact .inr rfl

theorem Searching.onDataPacketLoss (h : m.Searching) (packetSize nowMs : Nat) :
    (m.onDataPacketLoss packetSize nowMs).Searching := by
  obtain hsame | hagain := onDataPacketLoss_cases m packetSize nowMs
  · exact h.of_bounds hsame
  · simp only [bounds, Prod.mk.injEq] at hagain
    obtain ⟨hmax, hbase, hmin, hceil, hlow, hhigh, hphase, hclear, -⟩ := hagain
    refine ⟨hmax ▸ h.mtuMax_le, hmax ▸ hbase ▸ h.mtuBase_le, hmax ▸ hmin ▸ h.mtuMin_le,
      by omega, ?_, .inr ⟨?_, by omega⟩, ?_⟩
    · rw [hlow, hmax]
      exact h.mtuMin_le
    · rw [hphase]
      exact fun heq => ProbePhase.noConfusion heq
    · intro hprobe
      rw [hclear] at hprobe
      cases hprobe

theorem searching_step (h : m.Searching) (op : MtuOp) : (m.step op).Searching := by
  cases op with
  | pathValidated nowMs => exact h.onPathValidated nowMs
  | setAddressFamily ipv6 => exact h.of_bounds rfl
  | probeSent packNo probeMtu nowMs => exact h.onProbeSent packNo probeMtu nowMs
  | probeAck packNo nowMs =>
    show (if _ then _ else _ : MtuDiscovery).Searching
    split
    · exact h.probeAcked nowMs
    · exact h
  | probeLost packNo nowMs => exact h.onProbeLost packNo nowMs
  | probeTimeout nowMs =>
    show (if _ then _ else _ : MtuDiscovery).Searching
    split
    · exact h
    · exact h.onProbeLost _ nowMs
  | dataPacketAck packetSize nowMs =>
    show (if _ then _ else _ : MtuDiscovery).Searching
    split
    · exact h
    · exact h.of_bounds rfl
  | dataPacketLoss packetSize nowMs => exact h.onDataPacketLoss packetSize nowMs

theorem Searching.nextProbeMtu_le (h : m.Searching) (hnext : m.searchLowMtu < m.nextProbeMtu) :
    m.nextProbeMtu ≤ m.ceilingMtu := by
  have hladder : m.searchLowMtu < m.nextLadderTarget → m.nextLadderTarget ≤ m.ceilingMtu := by
    unfold nextLadderTarget
    cases hfind : kProbeLadderMtu.find? fun ladder =>
        m.searchLowMtu < ladder && ladder ≤ m.ceilingMtu && ladder ≤ m.mtuMax
          && m.mtuMin ≤ ladder with
    | none => exact fun hlt => absurd hlt (Nat.lt_irrefl _)
    | some ladder =>
      intro _
      have hfound := List.find?_some hfind
      simp only [Bool.and_eq_true, decide_eq_true_eq] at hfound
      exact hfound.1.1.2
  have hbinary : m.searchHighMtu ≤ m.ceilingMtu → m.searchLowMtu < m.nextBinaryTarget →
      m.nextBinaryTarget ≤ m.ceilingMtu := by
    intro hhigh
    unfold nextBinaryTarget
    simp only
    split
    · exact fun hlt => absurd hlt (Nat.lt_irrefl _)
    · split
      · exact fun hlt => absurd hlt (Nat.lt_irrefl _)
      · split
        · exact fun hlt => absurd hlt (Nat.lt_irrefl _)
        · rename_i hwide _
          exact fun _ => (clampValue_le (Nat.le_of_lt (Nat.lt_of_not_le hwide))).trans hhigh
  unfold nextProbeMtu at hnext ⊢
  by_cases hclosed : (!m.enabled || decide (m.ceilingMtu ≤ m.searchLowMtu)) = true
  · rw [if_pos hclosed] at hnext
    exact absurd hnext (Nat.lt_irrefl _)
  · rw [if_neg hclosed] at hnext ⊢
    rw [Bool.or_eq_true, not_or, decide_eq_true_eq] at hclosed
    obtain hover | ⟨-, hhigh⟩ := h.upper
    · exact absurd hover hclosed.2
    · cases hphase : m.probePhase with
      | ladder =>
        simp only [hphase] at hnext ⊢
        by_cases htarget : m.searchLowMtu < m.nextLadderTarget
        · rw [if_pos htarget]
          exact hladder htarget
        · rw [if_neg htarget] at hnext ⊢
          by_cases hrefine : m.searchLowMtu < m.nextBinaryTarget
          · rw [if_pos hrefine]
            exact hbinary hhigh hrefine
          · rw [if_neg hrefine] at hnext
            exact absurd hnext (Nat.lt_irrefl _)
      | binary =>
        simp only [hphase] at hnext ⊢
        by_cases hrefine : m.searchLowMtu < m.nextBinaryTarget
        · rw [if_pos hrefine]
          exact hbinary hhigh hrefine
        · rw [if_neg hrefine] at hnext
          exact absurd hnext (Nat.lt_irrefl _)
      | stable =>
        simp only [hphase] at hnext
        exact absurd hnext (Nat.lt_irrefl _)

theorem searching_run (cfg : MtuConfig) (ipv6 : Bool) (ops : List MtuOp) :
    (run step (init cfg ipv6) ops).Searching :=
  run_inv_of_step (P := Searching) (fun _ op h => searching_step h op) ops
    (searching_init cfg ipv6)

end MtuDiscovery

-- ==== probes

namespace SendControl

variable {gcm : Gcm} {env : SendCtlEnv} {s : SendControl}
variable {packetSize : Nat}

/-- What a connection that may send looks like to `sendPacket`: it has a
socket and an address, the path has not failed, and the socket takes the
datagram. -/
structure Admits (env : SendCtlEnv) : Prop where
  hasSocket : env.hasSocket = true
  addressValid : env.addressValid = true
  path : env.pathFailed = false
  state : env.state = .connected
  udpSend : ∀ wire, env.udpSend wire = none

/-- The size of the datagram that measures `nextProbeMtu`. -/
def probePacketSize (env : SendCtlEnv) (s : SendControl) : Nat :=
  MtuDiscovery.packetSizeFromMtu s.mtu.nextProbeMtu env.peerIpv6

/-- Where the search takes an IPv4 peer's path for IPv6, the next probe is 20 bytes below the
ceiling. -/
def FamiliesFit (env : SendCtlEnv) (s : SendControl) : Prop :=
  env.peerIpv6 = false → s.mtu.ipv6 = true → s.mtu.nextProbeMtu + 20 ≤ s.mtu.ceilingMtu

/-- The probe is built, passes the checks and goes out in its size. -/
def ProbeMeasures (gcm : Gcm) (env : SendCtlEnv) (s : SendControl) : Prop :=
  UTP_HEADER_SIZE + 1 + 3 ≤ s.probePacketSize env
    ∧ checkSend (s.sendEnv env) (probeRequest (s.probePacketSize env)) = .ok ()
    ∧ ∃ sent, Utp.sendPacket gcm (s.sendEnv env) (probeRequest (s.probePacketSize env)) = .ok sent
      ∧ sent.wire.length = s.probePacketSize env

theorem length_payload_probeRequest (h : UTP_HEADER_SIZE + 1 + 3 ≤ packetSize) :
    (probeRequest packetSize).payload.length = packetSize - UTP_HEADER_SIZE := by
  have hheader : UTP_HEADER_SIZE = 20 := rfl
  simp only [SendRequest.payload, probeRequest, buildMtuProbePayload, List.flatten_cons,
    List.flatten_nil, List.append_nil, List.length_append, List.length_cons, List.length_nil,
    length_bigEndian, List.length_replicate]
  omega

theorem frameTypeBits_probeRequest (packetSize : Nat) :
    (probeRequest packetSize).frameTypeBits = FrameType.ping.bit := rfl

theorem effectiveFrameType_probeRequest (packetSize : Nat) :
    (probeRequest packetSize).effectiveFrameType = .ping := by
  unfold SendRequest.effectiveFrameType
  rw [frameTypeBits_probeRequest]
  decide

theorem encryptWith_probeRequest (packetSize : Nat) :
    (probeRequest packetSize).encryptWith (s.sendEnv env) = env.aesCtx := by
  unfold SendRequest.encryptWith
  rw [effectiveFrameType_probeRequest]
  exact if_pos rfl

theorem shouldTrackPacket_probeRequest (h : Admits env) (packetSize : Nat) :
    (probeRequest packetSize).shouldTrackPacket (s.sendEnv env) = true := by
  have hstate : (s.sendEnv env).state = .connected := h.state
  have hack : (probeRequest packetSize).isAckOnlyPacket = false := rfl
  unfold SendRequest.shouldTrackPacket
  simp [hstate, hack]

theorem checkSend_probeRequest (h : Admits env)
    (hlength : (probeRequest packetSize).payload.length ≤ 65535)
    (hwire : (probeRequest packetSize).wirePacketLen (s.sendEnv env) ≤ 65535) :
    checkSend (s.sendEnv env) (probeRequest packetSize)
      = if s.mtu.absoluteMaxPacketSize
        < (probeRequest packetSize).wirePacketLen (s.sendEnv env) then
          .error (.error .wouldBlock "MTU probe exceeds absolute max")
        else .ok () := by
  have hsocket : (s.sendEnv env).hasSocket = true := h.hasSocket
  have haddress : (s.sendEnv env).addressValid = true := h.addressValid
  have hfailed : (s.sendEnv env).pathFailed = false := h.path
  have hprobe : (probeRequest packetSize).packetFlags.mtuProbe = true := rfl
  have hbytes : (probeRequest packetSize).streamDataBytes = 0 := rfl
  have hpath : (s.sendEnv env).canSendOnCurrentPath
      ((probeRequest packetSize).wirePacketLen (s.sendEnv env))
      (probeRequest packetSize).effectiveFrameType = true := by
    rw [effectiveFrameType_probeRequest]
    show canSendOnCurrentPath env s _ _ = true
    simp [canSendOnCurrentPath]
  have hceiling : (s.sendEnv env).absoluteMaxPacketSize = s.mtu.absoluteMaxPacketSize := rfl
  unfold checkSend
  simp [hsocket, haddress, hfailed, hprobe, hbytes, hpath, hceiling, not_lt.mpr hlength,
    not_lt.mpr hwire]

theorem wirePacketLen_probeRequest
    (h : UTP_HEADER_SIZE + 1 + 3 ≤ packetSize) :
    (probeRequest packetSize).wirePacketLen (s.sendEnv env)
      = packetSize + if env.aesCtx.isSome then GCM_TAG_SIZE else 0 := by
  unfold SendRequest.wirePacketLen
  rw [encryptWith_probeRequest, length_payload_probeRequest h]
  omega

theorem length_wire_clear (h : Admits env) (hclear : env.aesCtx = none)
    (hsize : UTP_HEADER_SIZE + 1 + 3 ≤ packetSize)
    (hcheck : checkSend (s.sendEnv env) (probeRequest packetSize) = .ok ()) :
    ∃ sent, Utp.sendPacket gcm (s.sendEnv env) (probeRequest packetSize) = .ok sent
      ∧ sent.wire.length = packetSize := by
  have hplain : (probeRequest packetSize).encryptWith (s.sendEnv env) = none := by
    rw [encryptWith_probeRequest, hclear]
  have hbuilt : buildPacket gcm (s.sendEnv env) (probeRequest packetSize)
      = .ok (packedPacket (s.sendEnv env) (probeRequest packetSize)) := by
    unfold buildPacket
    rw [hplain]
    exact if_neg (by simp [probeRequest])
  have hsched : (probeRequest packetSize).packetFlags.sched = false := rfl
  have hudp : ∀ wire, (s.sendEnv env).udpSend wire = none := h.udpSend
  have hlength : (packedPacket (s.sendEnv env) (probeRequest packetSize)).wire.length
      = packetSize := by
    have hheader : UTP_HEADER_SIZE = 20 := rfl
    have hdata : (packedPacket (s.sendEnv env) (probeRequest packetSize)).dataSize
        = UTP_HEADER_SIZE + (probeRequest packetSize).payload.length := rfl
    show (UTPHeaderProto.serialize _ ++ readMem _ 0 _).length = packetSize
    rw [List.length_append, UTPHeaderProto.length_serialize, length_readMem, hdata,
      length_payload_probeRequest hsize]
    omega
  have hkept : (probeRequest packetSize).shouldTrackPacket (s.sendEnv env) = true :=
    shouldTrackPacket_probeRequest h packetSize
  have hsent : Utp.sendPacket gcm (s.sendEnv env) (probeRequest packetSize)
      = .ok { wire := (packedPacket (s.sendEnv env) (probeRequest packetSize)).wire
              kept := some (releaseSealedCopy
                (packedPacket (s.sendEnv env) (probeRequest packetSize))) } := by
    have hcontrol : (s.sendEnv env).hasSendCtl = true := rfl
    unfold Utp.sendPacket
    simp only [hcheck, hbuilt, hsched, hudp, hkept, hcontrol, Bool.false_eq_true, if_false,
      Bool.and_self, if_true]
  exact ⟨_, hsent, hlength⟩

theorem length_wire_sealed (h : Admits env) {ctx : AesGcmContext} (hctx : env.aesCtx = some ctx)
    (hsize : UTP_HEADER_SIZE + 1 + 3 ≤ packetSize) {sent : Sent}
    (hsent : Utp.sendPacket gcm (s.sendEnv env) (probeRequest packetSize) = .ok sent) :
    sent.wire.length = packetSize + GCM_TAG_SIZE := by
  have hseal : (probeRequest packetSize).encryptWith (s.sendEnv env) = some ctx := by
    rw [encryptWith_probeRequest, hctx]
  obtain ⟨packet, hby⟩ := sendPacket_ok hsent
  rw [hby.wire, wire_tracked hseal (shouldTrackPacket_probeRequest h packetSize) hby.built,
    length_sealedWire, length_payload_probeRequest hsize]
  omega

theorem probePacketSize_le_iff (hroom : UTP_HEADER_SIZE + 1 + 3 ≤ s.probePacketSize env)
    (hle : s.mtu.nextProbeMtu ≤ s.mtu.ceilingMtu) :
    s.probePacketSize env ≤ s.mtu.absoluteMaxPacketSize ↔ s.FamiliesFit env := by
  unfold probePacketSize MtuDiscovery.absoluteMaxPacketSize MtuDiscovery.packetSizeFromMtu
    UTP_HEADER_SIZE FamiliesFit at *
  cases env.peerIpv6 <;> cases s.mtu.ipv6 <;> simp at * <;> omega

/-- In every state of the search, for every configuration: the probe it asks
for measures what it claims exactly if the connection is not encrypted, the
probe has room for its PADDING frame, and the two families do not keep it
above the ceiling. -/
theorem probeMeasures_iff (gcm : Gcm) (cfg : MtuConfig) (ipv6 : Bool) (ops : List MtuOp)
    (env : SendCtlEnv) (s : SendControl) (nowMs : Nat)
    (hmtu : s.mtu = run MtuDiscovery.step (MtuDiscovery.init cfg ipv6) ops)
    (hprobe : s.mtu.shouldProbe nowMs = true) (hadmits : Admits env) :
    s.ProbeMeasures gcm env
      ↔ env.aesCtx = none ∧ UTP_HEADER_SIZE + 1 + 3 ≤ s.probePacketSize env
        ∧ s.FamiliesFit env := by
  have hsearching : s.mtu.Searching := hmtu ▸ MtuDiscovery.searching_run cfg ipv6 ops
  have hasked : s.mtu.searchLowMtu < s.mtu.nextProbeMtu := by
    unfold MtuDiscovery.shouldProbe at hprobe
    simp only [Bool.and_eq_true, decide_eq_true_eq] at hprobe
    exact hprobe.2
  have hle := hsearching.nextProbeMtu_le hasked
  have hmost : s.probePacketSize env ≤ 1500 := by
    have := hsearching.ceilingMtu_le
    have := hsearching.mtuMax_le
    unfold probePacketSize MtuDiscovery.packetSizeFromMtu
    omega
  -- in clear, the only check that can refuse the probe is that of the ceiling
  have hcheck : env.aesCtx = none → UTP_HEADER_SIZE + 1 + 3 ≤ s.probePacketSize env →
      checkSend (s.sendEnv env) (probeRequest (s.probePacketSize env))
        = if s.mtu.absoluteMaxPacketSize < s.probePacketSize env then
            .error (.error .wouldBlock "MTU probe exceeds absolute max")
          else .ok () := by
    intro hclear hsize
    have hwire : (probeRequest (s.probePacketSize env)).wirePacketLen (s.sendEnv env)
        = s.probePacketSize env := by
      rw [wirePacketLen_probeRequest hsize, hclear]
      rfl
    rw [checkSend_probeRequest hadmits, hwire]
    · rw [length_payload_probeRequest hsize]
      omega
    · rw [hwire]
      omega
  constructor
  · rintro ⟨hsize, hpassed, sent, hsent, hlength⟩
    have hclear : env.aesCtx = none := by
      cases hctx : env.aesCtx with
      | none => rfl
      | some ctx =>
        have hlong := length_wire_sealed hadmits hctx hsize hsent
        have htag : GCM_TAG_SIZE = 16 := rfl
        omega
    refine ⟨hclear, hsize, (probePacketSize_le_iff hsize hle).mp ?_⟩
    rw [hcheck hclear hsize] at hpassed
    by_contra hover
    rw [if_pos (Nat.lt_of_not_le hover)] at hpassed
    cases hpassed
  · rintro ⟨hclear, hsize, hfit⟩
    have hceiling := (probePacketSize_le_iff hsize hle).mpr hfit
    have hpassed := hcheck hclear hsize
    rw [if_neg (Nat.not_lt.mpr hceiling)] at hpassed
    exact ⟨hsize, hpassed, length_wire_clear hadmits hclear hsize hpassed⟩

-- ==== the top of the ladder

/-- The probes for 1450 and 1492 bytes have been acknowledged. -/
def ladderOps : List MtuOp :=
  [.probeSent 1 1450 0, .probeAck 1 1, .probeSent 2 1492 2, .probeAck 2 3]

def topOfLadder : SendControl :=
  .init 3 (run MtuDiscovery.step (MtuDiscovery.init {} false) ladderOps) 0

theorem admits_default (aesCtx : Option AesGcmContext) : Admits { aesCtx } :=
  ⟨rfl, rfl, rfl, rfl, fun _ => rfl⟩

/-- The search asks for 1500 bytes. On an encrypted connection the probe is
16 bytes above the ceiling: it is refused, whenever it is tried, and the
search goes on asking for it. -/
theorem not_probeMeasures_topOfLadder :
    topOfLadder.mtu.shouldProbe 4 = true
      ∧ topOfLadder.mtu.nextProbeMtu = 1500
      ∧ ¬ topOfLadder.ProbeMeasures unusedGcm { aesCtx := some ⟨[], 0⟩ }
      ∧ ∀ nowMs, (topOfLadder.sendMtuProbe unusedGcm { aesCtx := some ⟨[], 0⟩ } nowMs).mtu
        = topOfLadder.mtu := by
  have hsize : topOfLadder.probePacketSize { aesCtx := some ⟨[], 0⟩ } = 1472 := by decide
  have hroom : UTP_HEADER_SIZE + 1 + 3 ≤ 1472 := by decide
  have hlong : ∀ s : SendControl, (probeRequest 1472).wirePacketLen
      (s.sendEnv { aesCtx := some ⟨[], 0⟩ }) = 1488 := fun _ =>
    wirePacketLen_probeRequest hroom
  have hrefused : checkSend (topOfLadder.sendEnv { aesCtx := some ⟨[], 0⟩ }) (probeRequest 1472)
      = .error (.error .wouldBlock "MTU probe exceeds absolute max") := by
    rw [checkSend_probeRequest (admits_default _), hlong]
    · exact if_pos (by decide)
    · rw [length_payload_probeRequest hroom]
      decide
    · rw [hlong]
      decide
  refine ⟨by decide, by decide, ?_, fun nowMs => ?_⟩
  · rintro ⟨-, hcheck, -⟩
    rw [hsize, hrefused] at hcheck
    cases hcheck
  · have hsent : topOfLadder.sendPacket unusedGcm { aesCtx := some ⟨[], 0⟩ } (probeRequest 1472) 0 0
        = (.error .wouldBlock "MTU probe exceeds absolute max", topOfLadder) := by
      unfold sendPacket Utp.sendPacket numberAfterSend
      rw [hrefused]
      rfl
    unfold sendMtuProbe
    simp only
    rw [show MtuDiscovery.packetSizeFromMtu topOfLadder.mtu.nextProbeMtu false = 1472 from hsize,
      hsent]
    rfl

/-- In clear it goes out. -/
theorem probeMeasures_topOfLadder : topOfLadder.ProbeMeasures unusedGcm {} :=
  (probeMeasures_iff unusedGcm {} false ladderOps {} topOfLadder 4 rfl (by decide)
    (admits_default none)).mpr ⟨rfl, by decide, fun _ hipv6 => absurd hipv6 (by decide)⟩

end SendControl

end Eular.Utp
