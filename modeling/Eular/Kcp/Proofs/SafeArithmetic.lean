/-
What the numbers of a peer do to a connection's own.

The MTU of a SYN goes into the segment size unchecked, and so does the result
of a search for the path MTU; the time stamps of an ACK go into sums of
`int32_t`. `Tame` is what they have to be: then the segment size stays
between 1 and `ETHERNET_MTU`, no sum overflows, and the estimates of the round
trip stay in their ranges, all along the life of a connection.
-/
import Eular.Kcp.Lifetime
import Eular.Kcp.Proofs.Waiting

namespace Eular.Kcp

open Lib

-- ==== signed numbers

/-- An `int32_t` holds it. -/
def Fits32 (n : Int) : Prop := -2 ^ 31 ≤ n ∧ n < 2 ^ 31

instance (n : Int) : Decidable (Fits32 n) := inferInstanceAs (Decidable (_ ∧ _))

theorem Fits32.i32_eq {n : Int} (h : Fits32 n) : i32 n = n := i32_of_le h.1 h.2

theorem tdiv_nonneg_iff (n : Int) {d : Nat} (hd : 0 < d) : 0 ≤ n.tdiv d ↔ -(d : Int) < n := by
  obtain hn | hn := Int.le_total 0 n
  · exact ⟨fun _ => by omega, fun _ => Int.tdiv_nonneg hn (by omega)⟩
  · obtain ⟨m, rfl⟩ : ∃ m : Nat, n = -(m : Int) := ⟨n.natAbs, by omega⟩
    rw [Int.neg_tdiv, ← Int.ofNat_tdiv]
    constructor
    · intro hle
      have hzero : m / d = 0 := Nat.le_zero.mp (Int.ofNat_le.mp (Int.neg_nonneg.mp hle))
      have hlt := (Nat.div_eq_zero_iff_lt hd).mp hzero
      omega
    · intro hlt
      rw [Nat.div_eq_of_lt (by omega)]
      exact Int.le_refl _

namespace KcpSender

variable {s : KcpSender} {interval rtt : Int}

/-- The exact results of the signed operations on the sample `rtt`, in the order they are made. -/
def smoothingResults (s : KcpSender) (interval rtt : Int) : List Int :=
  let t := s.updateRto interval rtt
  let delta := i32 (rtt - s.rxSrtt)
  let distance := if 0 < delta then delta else -delta
  (if s.rxSrtt = 0 then []
    else
      [rtt - s.rxSrtt, distance, s.rxSrtt * 7, i32 (s.rxSrtt * 7) + rtt, 3 * s.rxRttval,
        (i32 (3 * s.rxRttval) + i32 distance).tdiv 4])
    ++ [interval * 1000, 4 * t.rxRttval,
      t.rxSrtt + max (i32 (interval * 1000)) (i32 (4 * t.rxRttval))]

/-- Those of `on_kcp_ack_pcaket` on the segment the ACK names. -/
def signedResults (s : KcpSender) (interval : Int) (ack : KcpAckHeader) (now : Nat)
    (pos : KcpSegment) : List Int :=
  let elapsed := i32 now - i32 pos.ts
  let held := i32 ack.ackTs - i32 ack.packetTs
  [elapsed, held, i32 elapsed - i32 held]
    ++ if pos.xmit = 1 then s.smoothingResults interval (rttOf pos ack now) else []

/-- The estimates have room for the sample. -/
def SampleFits (s : KcpSender) (interval rtt : Int) : Prop :=
  if s.rxSrtt = 0 then 0 ≤ rtt ∧ rtt + max (1000 * interval) (4 * (rtt / 2)) < 2 ^ 31
  else
    -8 < 7 * s.rxSrtt + rtt ∧ 7 * s.rxSrtt < 2 ^ 31 ∧ 7 * s.rxSrtt + rtt < 2 ^ 31
      ∧ -2 ^ 31 < rtt - s.rxSrtt ∧ 3 * s.rxRttval < 2 ^ 31
      ∧ (7 * s.rxSrtt + rtt).tdiv 8
          + max (1000 * interval) (4 * ((3 * s.rxRttval + |rtt - s.rxSrtt|) / 4)) < 2 ^ 31

instance (s : KcpSender) (interval rtt : Int) : Decidable (s.SampleFits interval rtt) :=
  inferInstanceAs (Decidable (ite _ _ _))

/-- The times an ACK brings are near enough to those of the segment it names. -/
def AckFits (s : KcpSender) (interval : Int) (ack : KcpAckHeader) (now : Nat) (pos : KcpSegment) :
    Prop :=
  Fits32 (i32 now - i32 pos.ts) ∧ Fits32 (i32 ack.ackTs - i32 ack.packetTs)
    ∧ Fits32 (i32 now - i32 pos.ts - (i32 ack.ackTs - i32 ack.packetTs))
    ∧ (pos.xmit = 1 →
        s.SampleFits interval (i32 now - i32 pos.ts - (i32 ack.ackTs - i32 ack.packetTs)))

instance (s : KcpSender) (interval : Int) (ack : KcpAckHeader) (now : Nat) (pos : KcpSegment) :
    Decidable (s.AckFits interval ack now pos) :=
  inferInstanceAs (Decidable (_ ∧ _ ∧ _ ∧ _))

/-- The estimates are no negative times, and the timeout is between its bounds. -/
structure EstimatesInRange (s : KcpSender) : Prop where
  srtt : 0 ≤ s.rxSrtt
  rttval : 0 ≤ s.rxRttval
  minrto_le : s.rxMinrto ≤ s.rxRto
  rto_le : s.rxRto ≤ KCP_RTO_MAX * 1000

theorem clamp_bounds {x lo hi : Int} (h : lo ≤ hi) : lo ≤ clamp x lo hi ∧ clamp x lo hi ≤ hi := by
  unfold clamp
  split
  · exact ⟨le_rfl, h⟩
  · split
    · exact ⟨h, le_rfl⟩
    · omega

theorem rxRto_updateRto (interval rtt : Int) (hle : s.rxMinrto ≤ KCP_RTO_MAX * 1000) :
    (s.updateRto interval rtt).rxMinrto = s.rxMinrto
      ∧ s.rxMinrto ≤ (s.updateRto interval rtt).rxRto
      ∧ (s.updateRto interval rtt).rxRto ≤ KCP_RTO_MAX * 1000 := by
  unfold updateRto
  dsimp only
  split
  · exact ⟨rfl, clamp_bounds hle⟩
  · exact ⟨rfl, clamp_bounds hle⟩

theorem smoothing_first (hzero : s.rxSrtt = 0)
    (hinterval : 0 ≤ interval ∧ interval ≤ KCP_INTERVAL_MAX) :
    s.SampleFits interval rtt ↔ (∀ n ∈ s.smoothingResults interval rtt, Fits32 n)
      ∧ 0 ≤ (s.updateRto interval rtt).rxSrtt ∧ 0 ≤ (s.updateRto interval rtt).rxRttval := by
  have hsrtt : (s.updateRto interval rtt).rxSrtt = rtt := by
    unfold updateRto
    rw [if_pos hzero]
  have hrttval : (s.updateRto interval rtt).rxRttval = rtt.tdiv 2 := by
    unfold updateRto
    rw [if_pos hzero]
  have hperiod : i32 (interval * 1000) = interval * 1000 := by
    unfold KCP_INTERVAL_MAX at hinterval
    exact i32_of_le (by omega) (by omega)
  have hresults : (∀ n ∈ s.smoothingResults interval rtt, Fits32 n)
      ↔ Fits32 (interval * 1000) ∧ Fits32 (4 * rtt.tdiv 2)
        ∧ Fits32 (rtt + max (interval * 1000) (i32 (4 * rtt.tdiv 2))) := by
    unfold smoothingResults
    dsimp only
    rw [if_pos hzero, hsrtt, hrttval, hperiod, List.nil_append]
    simp only [List.forall_mem_cons, List.not_mem_nil, false_imp_iff, implies_true, and_true]
  unfold SampleFits KCP_INTERVAL_MAX at *
  rw [if_pos hzero, hresults, hsrtt, hrttval]
  constructor
  · rintro ⟨hnonneg, hsum⟩
    rw [Int.tdiv_eq_ediv_of_nonneg hnonneg]
    have hspread : i32 (4 * (rtt / 2)) = 4 * (rtt / 2) := i32_of_le (by omega) (by omega)
    rw [hspread]
    unfold Fits32
    omega
  · rintro ⟨⟨-, hfour, hsum⟩, hnonneg, -⟩
    rw [hfour.i32_eq] at hsum
    rw [Int.tdiv_eq_ediv_of_nonneg hnonneg] at hsum
    unfold Fits32 at hsum
    omega

theorem updateRto_next (interval : Int) (hne : s.rxSrtt ≠ 0) (hrttval : 0 ≤ s.rxRttval)
    (hbelow : -2 ^ 31 < rtt - s.rxSrtt) (habove : rtt - s.rxSrtt < 2 ^ 31)
    (hseven : Fits32 (s.rxSrtt * 7)) (hweighted : Fits32 (s.rxSrtt * 7 + rtt))
    (hthree : Fits32 (3 * s.rxRttval)) :
    (if 0 < i32 (rtt - s.rxSrtt) then i32 (rtt - s.rxSrtt) else -i32 (rtt - s.rxSrtt))
        = |rtt - s.rxSrtt|
      ∧ i32 |rtt - s.rxSrtt| = |rtt - s.rxSrtt|
      ∧ (s.updateRto interval rtt).rxSrtt = (7 * s.rxSrtt + rtt).tdiv 8
      ∧ (s.updateRto interval rtt).rxRttval = (3 * s.rxRttval + |rtt - s.rxSrtt|) / 4 := by
  have hdelta : i32 (rtt - s.rxSrtt) = rtt - s.rxSrtt := i32_of_le (by omega) habove
  have hdistance : (if 0 < rtt - s.rxSrtt then rtt - s.rxSrtt else -(rtt - s.rxSrtt))
      = |rtt - s.rxSrtt| := by
    split
    case isTrue hpos => exact (abs_of_pos hpos).symm
    case isFalse hneg => exact (abs_of_nonpos (not_lt.mp hneg)).symm
  have hfar : |rtt - s.rxSrtt| < 2 ^ 31 := abs_lt.mpr ⟨hbelow, habove⟩
  have hnear : 0 ≤ |rtt - s.rxSrtt| := abs_nonneg _
  have hdistance32 : i32 |rtt - s.rxSrtt| = |rtt - s.rxSrtt| := i32_of_le (by omega) hfar
  have hspread : (3 * s.rxRttval + |rtt - s.rxSrtt|).tdiv 4
      = (3 * s.rxRttval + |rtt - s.rxSrtt|) / 4 := Int.tdiv_eq_ediv_of_nonneg (by omega)
  have hspread32 : i32 ((3 * s.rxRttval + |rtt - s.rxSrtt|) / 4)
      = (3 * s.rxRttval + |rtt - s.rxSrtt|) / 4 := by
    have hlt := hthree.2
    exact i32_of_le (by omega) (by omega)
  refine ⟨by rw [hdelta, hdistance], hdistance32, ?_, ?_⟩
  · unfold updateRto
    rw [if_neg hne]
    dsimp only
    rw [hseven.i32_eq, hweighted.i32_eq, Int.mul_comm]
  · unfold updateRto
    rw [if_neg hne]
    dsimp only
    rw [hdelta, hdistance, hdistance32, hthree.i32_eq, hspread, hspread32]

theorem smoothing_next (hne : s.rxSrtt ≠ 0) (hrange : s.EstimatesInRange) (hrtt : Fits32 rtt)
    (hinterval : 0 ≤ interval ∧ interval ≤ KCP_INTERVAL_MAX) :
    s.SampleFits interval rtt ↔ (∀ n ∈ s.smoothingResults interval rtt, Fits32 n)
      ∧ 0 ≤ (s.updateRto interval rtt).rxSrtt ∧ 0 ≤ (s.updateRto interval rtt).rxRttval := by
  have hsrtt0 := hrange.srtt
  have hrttval0 := hrange.rttval
  have hrtt0 := hrtt.2
  have hperiod : i32 (interval * 1000) = interval * 1000 := by
    unfold KCP_INTERVAL_MAX at hinterval
    exact i32_of_le (by omega) (by omega)
  have hnear : 0 ≤ |rtt - s.rxSrtt| := abs_nonneg _
  have hsmooth : 0 ≤ (7 * s.rxSrtt + rtt).tdiv 8 ↔ -8 < 7 * s.rxSrtt + rtt :=
    tdiv_nonneg_iff (d := 8) _ (by omega)
  unfold SampleFits
  rw [if_neg hne]
  constructor
  · rintro ⟨hnonneg, hseven, hweighted, hbelow, hthree, hsum⟩
    obtain ⟨hdistance, hdistance32, hsrtt, hrttval⟩ := updateRto_next interval hne
      hrttval0 hbelow (by omega) ⟨by omega, by omega⟩ ⟨by omega, by omega⟩ ⟨by omega, hthree⟩
    have hseven32 : i32 (s.rxSrtt * 7) = s.rxSrtt * 7 := i32_of_le (by omega) (by omega)
    have hthree32 : i32 (3 * s.rxRttval) = 3 * s.rxRttval := i32_of_le (by omega) hthree
    have hfar : |rtt - s.rxSrtt| < 2 ^ 31 := abs_lt.mpr ⟨hbelow, by omega⟩
    have hpositive := hsmooth.mpr hnonneg
    have hroom : 4 * ((3 * s.rxRttval + |rtt - s.rxSrtt|) / 4) < 2 ^ 31 := by
      have hle := le_max_right (1000 * interval) (4 * ((3 * s.rxRttval + |rtt - s.rxSrtt|) / 4))
      linarith only [hle, hsum, hpositive]
    have hfour : i32 (4 * ((3 * s.rxRttval + |rtt - s.rxSrtt|) / 4))
        = 4 * ((3 * s.rxRttval + |rtt - s.rxSrtt|) / 4) := i32_of_le (by omega) hroom
    have hspread : (3 * s.rxRttval + |rtt - s.rxSrtt|).tdiv 4
        = (3 * s.rxRttval + |rtt - s.rxSrtt|) / 4 := Int.tdiv_eq_ediv_of_nonneg (by omega)
    unfold smoothingResults
    dsimp only
    rw [if_neg hne, hdistance, hdistance32, hsrtt, hrttval, hseven32, hthree32, hspread, hperiod,
      hfour]
    unfold KCP_INTERVAL_MAX at hinterval
    generalize |rtt - s.rxSrtt| = distance at *
    generalize (7 * s.rxSrtt + rtt).tdiv 8 = srtt at *
    simp only [List.cons_append, List.nil_append, List.forall_mem_cons, List.not_mem_nil,
      false_imp_iff, implies_true, and_true]
    unfold Fits32
    omega
  · rintro ⟨hresults, hpositive, -⟩
    unfold smoothingResults at hresults
    dsimp only at hresults
    rw [if_neg hne] at hresults
    simp only [List.cons_append, List.nil_append, List.forall_mem_cons, List.not_mem_nil,
      false_imp_iff, implies_true, and_true] at hresults
    obtain ⟨hdelta, hdistance, hseven, hweighted, hthree, -, -, hfour, hsum⟩ := hresults
    rw [hdelta.i32_eq] at hdistance
    rw [hseven.i32_eq] at hweighted
    have hbelow : -2 ^ 31 < rtt - s.rxSrtt := by
      have hlt := hdistance.2
      split at hlt <;> omega
    obtain ⟨-, -, hsrtt, hrttval⟩ := updateRto_next interval hne hrttval0 hbelow
      hdelta.2 hseven hweighted hthree
    rw [hsrtt] at hpositive
    rw [hfour.i32_eq, hperiod, hsrtt, hrttval, Int.mul_comm interval] at hsum
    have hseven' := hseven.2
    have hweighted' := hweighted.2
    exact ⟨hsmooth.mp hpositive, by omega, by omega, hbelow, hthree.2, hsum.2⟩

variable {ack : KcpAckHeader} {now : Nat} {pos : KcpSegment}

/-- The room a sample needs is what keeps the sums exact and the estimates no negative times. -/
theorem sampleFits_iff (hrange : s.EstimatesInRange) (hrtt : Fits32 rtt)
    (hinterval : 0 ≤ interval ∧ interval ≤ KCP_INTERVAL_MAX) :
    s.SampleFits interval rtt ↔ (∀ n ∈ s.smoothingResults interval rtt, Fits32 n)
      ∧ 0 ≤ (s.updateRto interval rtt).rxSrtt ∧ 0 ≤ (s.updateRto interval rtt).rxRttval := by
  by_cases hzero : s.rxSrtt = 0
  · exact smoothing_first hzero hinterval
  · exact smoothing_next hzero hrange hrtt hinterval

/-- An ACK fits exactly if nothing overflows on the segment it names, and the estimates it leaves
are no negative times. -/
theorem ackFits_iff (hrange : s.EstimatesInRange)
    (hinterval : 0 ≤ interval ∧ interval ≤ KCP_INTERVAL_MAX) :
    s.AckFits interval ack now pos
      ↔ (∀ n ∈ s.signedResults interval ack now pos, Fits32 n)
        ∧ (pos.xmit = 1 → 0 ≤ (s.updateRto interval (rttOf pos ack now)).rxSrtt
            ∧ 0 ≤ (s.updateRto interval (rttOf pos ack now)).rxRttval) := by
  unfold AckFits signedResults
  dsimp only
  rw [List.forall_mem_append]
  simp only [List.forall_mem_cons, List.not_mem_nil, false_imp_iff, implies_true, and_true]
  by_cases hfits : Fits32 (i32 now - i32 pos.ts) ∧ Fits32 (i32 ack.ackTs - i32 ack.packetTs)
      ∧ Fits32 (i32 now - i32 pos.ts - (i32 ack.ackTs - i32 ack.packetTs))
  · obtain ⟨helapsed, hheld, hrtt⟩ := hfits
    have hrttOf : rttOf pos ack now
        = i32 now - i32 pos.ts - (i32 ack.ackTs - i32 ack.packetTs) := by
      unfold rttOf
      rw [helapsed.i32_eq, hheld.i32_eq, hrtt.i32_eq]
    rw [helapsed.i32_eq, hheld.i32_eq, hrttOf]
    have hsample := sampleFits_iff hrange hrtt hinterval
    by_cases hxmit : pos.xmit = 1
    · rw [if_pos hxmit]
      exact ⟨fun h => ⟨⟨⟨h.1, h.2.1, h.2.2.1⟩, (hsample.mp (h.2.2.2 hxmit)).1⟩,
          fun _ => (hsample.mp (h.2.2.2 hxmit)).2⟩,
        fun h => ⟨helapsed, hheld, hrtt, fun _ => hsample.mpr ⟨h.1.2, h.2 hxmit⟩⟩⟩
    · rw [if_neg hxmit]
      exact ⟨fun _ => ⟨⟨⟨helapsed, hheld, hrtt⟩, fun n hn => nomatch hn⟩, fun h => absurd h hxmit⟩,
        fun _ => ⟨helapsed, hheld, hrtt, fun h => absurd h hxmit⟩⟩
  · refine ⟨fun h => absurd ⟨h.1, h.2.1, h.2.2.1⟩ hfits, fun h => absurd ?_ hfits⟩
    obtain ⟨⟨⟨helapsed, hheld, hrtt⟩, -⟩, -⟩ := h
    rw [helapsed.i32_eq, hheld.i32_eq] at hrtt
    exact ⟨helapsed, hheld, hrtt⟩

end KcpSender

-- ==== connections

namespace KcpConnection

/-- The numbers of a connection are as they should be: the segment size can be divided by, what
waits fits a segment's buffer, and the estimates are in their ranges. -/
structure SafeNumbers (c : KcpConnection) : Prop where
  one_le_mss : 1 ≤ c.mss
  mss_le : c.mss ≤ ETHERNET_MTU
  fits_segment : ∀ data ∈ c.payloads, data.length ≤ ETHERNET_MTU
  estimates : c.snd.EstimatesInRange

/-- No signed operation of the next ACK overflows. -/
def AckExact (c : KcpConnection) (ack : KcpAckHeader) (now : Nat) : Prop :=
  ∀ pos ∈ c.snd.answered ack, ∀ n ∈ c.snd.signedResults c.interval ack now pos, Fits32 n

/-- What a peer, a search for the path MTU and the application have to keep to. -/
def Tame (k : KcpSetting) (c : KcpConnection) : LifetimeOp → Prop
  | .synReceived synTs syn sent now =>
    u32 (sub64 (sub64 now synTs) (sub64 syn.ts syn.packetTs)) < 2 ^ 31
      ∧ (sent = true → c.state = .SYN_SENT → KCP_HEADER_SIZE < k.remoteMtu syn.mtu)
  | .accept option => c.state = .SYN_RECEIVED → KCP_HEADER_SIZE < k.remoteMtu option
  | .accepted _ => True
  | .configure config =>
    ∀ nodelay ∈ config.nodelay, minRto nodelay ≤ c.snd.rxRto
  | .probeCompleted mtu code =>
    code = NO_ERROR → c.mtu ≤ u32 mtu →
      ipUdpHeaderSize k.ipv6 + KCP_HEADER_SIZE < u32 mtu
        ∧ u32 mtu ≤ ipUdpHeaderSize k.ipv6 + KCP_HEADER_SIZE + ETHERNET_MTU
  | .transfer (.packet (.ack ack) now _) =>
    c.state = .CONNECTED → ∀ pos ∈ c.snd.answered ack, c.snd.AckFits c.interval ack now pos
  | .transfer _ => True

instance (c : KcpConnection) (ack : KcpAckHeader) (now : Nat) : Decidable (c.AckExact ack now) :=
  inferInstanceAs (Decidable (∀ _ ∈ _, _))

instance (k : KcpSetting) (c : KcpConnection) : (op : LifetimeOp) → Decidable (Tame k c op)
  | .synReceived .. => inferInstanceAs (Decidable (_ ∧ _))
  | .accept _ => inferInstanceAs (Decidable (_ → _))
  | .accepted _ => isTrue trivial
  | .configure _ => inferInstanceAs (Decidable (∀ _ ∈ _, _))
  | .probeCompleted .. => inferInstanceAs (Decidable (_ → _))
  | .transfer (.packet (.ack _) ..) => inferInstanceAs (Decidable (_ → ∀ _ ∈ _, _))
  | .transfer (.packet (.push _) ..) => isTrue trivial
  | .transfer (.packet (.control ..) ..) => isTrue trivial
  | .transfer (.send ..) => isTrue trivial
  | .transfer (.recv _) => isTrue trivial
  | .transfer (.flush ..) => isTrue trivial
  | .transfer (.windowSize _) => isTrue trivial

/-- What the steps keep: the segment size follows the MTU, and the interval is one that
`kcp_configure` lets pass. -/
structure SafeInv (c : KcpConnection) : Prop extends SafeNumbers c where
  mtu_eq : c.mtu = c.mss + KCP_HEADER_SIZE
  interval : KCP_INTERVAL_MIN ≤ c.interval ∧ c.interval ≤ KCP_INTERVAL_MAX
  minrto_le : c.snd.rxMinrto ≤ KCP_RTO_MAX * 1000

variable {k : KcpSetting} {c : KcpConnection} {xxh64 : Nat → Nat}

theorem safeInv_init (hlow : KCP_HEADER_SIZE < k.udpMtu)
    (hhigh : k.udpMtu ≤ KCP_HEADER_SIZE + ETHERNET_MTU) (state : KcpConnectionState)
    (fastlimit : Int) (now : Nat) : SafeInv (init k state fastlimit now) := by
  have hmtu : u32OfInt k.udpMtu = k.udpMtu.toNat := by
    unfold u32OfInt KCP_HEADER_SIZE ETHERNET_MTU at *
    omega
  have hmss : (init k state fastlimit now).mss = k.udpMtu.toNat - KCP_HEADER_SIZE := by
    show sub32 (u32OfInt k.udpMtu) KCP_HEADER_SIZE = _
    rw [hmtu]
    exact sub32_of_le (by omega)
  refine ⟨⟨?_, ?_, (fun data hdata => nomatch hdata), ?_⟩, ?_, ?_, ?_⟩
  · rw [hmss]
    omega
  · rw [hmss]
    omega
  · exact ⟨le_rfl, le_rfl, show KCP_RTO_MIN * 1000 ≤ KCP_RTO_DEF * 1000 by decide,
      show KCP_RTO_DEF * 1000 ≤ KCP_RTO_MAX * 1000 by decide⟩
  · rw [hmss]
    show u32OfInt k.udpMtu = _
    omega
  · exact ⟨show KCP_INTERVAL_MIN ≤ 30 by decide, show 30 ≤ KCP_INTERVAL_MAX by decide⟩
  · show KCP_RTO_MIN * 1000 ≤ KCP_RTO_MAX * 1000
    decide

theorem SafeInv.setMtu (h : SafeInv c) {mtu : Nat} (hlow : KCP_HEADER_SIZE < mtu)
    (hhigh : mtu ≤ KCP_HEADER_SIZE + ETHERNET_MTU) : SafeInv (c.setMtu mtu) := by
  have hmss : (c.setMtu mtu).mss = mtu - KCP_HEADER_SIZE := sub32_of_le (by omega)
  refine ⟨⟨?_, ?_, h.fits_segment, h.estimates⟩, ?_, h.interval, h.minrto_le⟩
  · rw [hmss]
    omega
  · rw [hmss]
    omega
  · rw [hmss]
    show mtu = _
    omega

theorem SafeInv.min_setMtu (h : SafeInv c) {remote : Nat} (hremote : KCP_HEADER_SIZE < remote) :
    SafeInv (c.setMtu (min remote c.mtu)) := by
  have hmtu := h.mtu_eq
  have hone := h.one_le_mss
  have hle := h.mss_le
  exact h.setMtu (lt_min hremote (by omega)) (by omega)

theorem SafeInv.congr (h : SafeInv c) {c' : KcpConnection} (hgauges : c'.gauges = c.gauges)
    (hpayloads : ∀ data ∈ c'.payloads, data.length ≤ ETHERNET_MTU) : SafeInv c' := by
  simp only [gauges, KcpSender.estimates, Prod.mk.injEq] at hgauges
  obtain ⟨hmtu, hmss, hinterval, hsrtt, hrttval, hrto, hminrto⟩ := hgauges
  obtain ⟨⟨hone, hle, -, hsrtt0, hrttval0, hrtolow, hrtohigh⟩, hmtu0, hinterval0, hminrto0⟩ := h
  constructor
  · refine ⟨by omega, by omega, hpayloads, ⟨by omega, by omega, by omega, by omega⟩⟩
  · omega
  · omega
  · omega

theorem SafeInv.payloads_le (h : SafeInv c) (xxh64 : Nat → Nat) (op : EndpointOp) :
    ∀ data ∈ (c.step xxh64 op).payloads, data.length ≤ ETHERNET_MTU :=
  step_payloads _ op h.fits_segment fun _ => h.mss_le

theorem SafeInv.interval_bounds (h : SafeInv c) : 0 ≤ c.interval ∧ c.interval ≤ KCP_INTERVAL_MAX :=
  ⟨le_trans (by decide) h.interval.1, h.interval.2⟩

-- ==== steps

theorem gauges_establish (now : Nat) : (c.establish now).gauges = c.gauges := by
  obtain ⟨-, hmtu, hmss, hinterval, hsnd⟩ := establish_fields c now
  rw [gauges, gauges, hmtu, hmss, hinterval, hsnd]

theorem SafeInv.establish (h : SafeInv c) (now : Nat) : SafeInv (c.establish now) := by
  refine h.congr (gauges_establish now) ?_
  rw [payloads, (establish_fields c now).2.2.2.2]
  exact h.fits_segment

theorem gauges_eq {c c' : KcpConnection} (hsizes : c'.sizes = c.sizes)
    (hestimates : c'.snd.estimates = c.snd.estimates) : c'.gauges = c.gauges := by
  simp only [sizes, Prod.mk.injEq] at hsizes
  obtain ⟨hmtu, hmss, hinterval⟩ := hsizes
  rw [gauges, gauges, hmtu, hmss, hinterval, hestimates]

theorem SafeInv.ack (h : SafeInv c) {c' : KcpConnection} {ack : KcpAckHeader} {now : Nat}
    (hsizes : c'.sizes = c.sizes)
    (hestimates : c'.snd.estimates = c.snd.sampled c.interval ack now (c.snd.answered ack))
    (hpayloads : ∀ data ∈ c'.payloads, data.length ≤ ETHERNET_MTU)
    (hfits : ∀ pos ∈ c.snd.answered ack, c.snd.AckFits c.interval ack now pos) : SafeInv c' := by
  cases hanswered : c.snd.answered ack with
  | none =>
    rw [hanswered] at hestimates
    exact h.congr (gauges_eq hsizes hestimates) hpayloads
  | some pos =>
    rw [hanswered] at hestimates
    unfold KcpSender.sampled at hestimates
    dsimp only at hestimates
    by_cases hxmit : pos.xmit = 1
    · rw [if_pos hxmit] at hestimates
      have hpos := ((KcpSender.ackFits_iff h.estimates h.interval_bounds).mp
        (hfits pos hanswered)).2 hxmit
      have hrto := KcpSender.rxRto_updateRto c.interval
        (KcpSender.rttOf pos ack now) h.minrto_le
      simp only [KcpSender.estimates, Prod.mk.injEq] at hestimates
      simp only [sizes, Prod.mk.injEq] at hsizes
      obtain ⟨hsrtt, hrttval, hrtoeq, hminrto⟩ := hestimates
      obtain ⟨hmtu, hmss, hinterval⟩ := hsizes
      have hone := h.one_le_mss
      have hle := h.mss_le
      have hmtu0 := h.mtu_eq
      have hinterval0 := h.interval
      have hminrto0 := h.minrto_le
      refine ⟨⟨by omega, by omega, hpayloads, ⟨by omega, by omega, by omega, by omega⟩⟩, by omega,
        by omega, by omega⟩
    · rw [if_neg hxmit] at hestimates
      exact h.congr (gauges_eq hsizes hestimates) hpayloads

theorem SafeInv.transfer (h : SafeInv c) (op : EndpointOp) (hop : Tame k c (.transfer op)) :
    SafeInv (c.step xxh64 op) := by
  have hpayloads := h.payloads_le xxh64 op
  obtain hsame | ⟨ack, now, malloc, rfl, hstate, hsizes, hestimates⟩ := step_gauges xxh64 c op
  · exact h.congr hsame hpayloads
  · exact h.ack hsizes hestimates hpayloads (hop hstate)

theorem SafeInv.setEstimates (h : SafeInv c) {srtt rttval : Int} (hsrtt : 0 ≤ srtt)
    (hrttval : 0 ≤ rttval) :
    SafeInv { c with snd := { c.snd with rxSrtt := srtt, rxRttval := rttval } } :=
  ⟨⟨h.one_le_mss, h.mss_le, h.fits_segment, ⟨hsrtt, hrttval, h.estimates.minrto_le,
    h.estimates.rto_le⟩⟩, h.mtu_eq, h.interval, h.minrto_le⟩

theorem SafeInv.setState (h : SafeInv c) (state : KcpConnectionState) :
    SafeInv { c with state } :=
  ⟨⟨h.one_le_mss, h.mss_le, h.fits_segment, h.estimates⟩, h.mtu_eq, h.interval, h.minrto_le⟩

theorem SafeInv.onSynReceived (h : SafeInv c) (synTs : Nat) (syn : KcpSynNode) (sent : Bool)
    (now : Nat) (hop : Tame k c (.synReceived synTs syn sent now)) :
    SafeInv (c.onSynReceived k synTs syn sent now) := by
  obtain ⟨hlow, hremote⟩ := hop
  have hsrtt : 0 ≤ i32 (sub64 (sub64 now synTs) (sub64 syn.ts syn.packetTs)) := by
    generalize sub64 (sub64 now synTs) (sub64 syn.ts syn.packetTs) = sample at hlow ⊢
    have hwrap : i32 sample = i32 (u32 sample : Nat) := by
      unfold i32 u32
      rw [Int.natCast_mod]
      exact (Int.emod_bmod sample (2 ^ 32)).symm
    rw [hwrap, i32_of_lt hlow]
    exact Int.natCast_nonneg _
  unfold KcpConnection.onSynReceived
  generalize i32 (sub64 (sub64 now synTs) (sub64 syn.ts syn.packetTs)) = srtt at hsrtt ⊢
  have hkept := h.setEstimates hsrtt (Int.tdiv_nonneg hsrtt (show (0 : Int) ≤ 2 by decide))
  dsimp only
  split
  case isTrue hsent =>
    split
    case isTrue hstate =>
      have hset := (hkept.setState .CONNECTED).min_setMtu (hremote hsent hstate)
      exact hset.establish now
    case isFalse => exact hkept
  case isFalse =>
    split
    · exact hkept
    · exact hkept.setState .DISCONNECTED

theorem SafeInv.configure (h : SafeInv c) (config : KcpConfig)
    (hop : Tame k c (.configure config)) : SafeInv (c.configure config) := by
  unfold KcpConnection.configure
  have hnodelay : SafeInv (c.configureNodelay config.nodelay) := by
    unfold configureNodelay
    cases hconfig : config.nodelay with
    | none => exact h
    | some nodelay =>
      have hrto := hop nodelay hconfig
      exact ⟨⟨h.one_le_mss, h.mss_le, h.fits_segment, ⟨h.estimates.srtt, h.estimates.rttval, hrto,
        h.estimates.rto_le⟩⟩, h.mtu_eq, h.interval, hrto.trans h.estimates.rto_le⟩
  dsimp only
  generalize c.configureNodelay config.nodelay = c' at hnodelay ⊢
  split
  case isTrue => exact hnodelay
  case isFalse hrefused =>
    have hinterval : SafeInv { c' with interval := config.interval.getD c'.interval } := by
      refine ⟨⟨hnodelay.one_le_mss, hnodelay.mss_le, hnodelay.fits_segment, hnodelay.estimates⟩,
        hnodelay.mtu_eq, ?_, hnodelay.minrto_le⟩
      show KCP_INTERVAL_MIN ≤ config.interval.getD c'.interval
        ∧ config.interval.getD c'.interval ≤ KCP_INTERVAL_MAX
      cases hconfig : config.interval with
      | none => exact hnodelay.interval
      | some interval =>
        rw [hconfig] at hrefused
        simp only [Option.isSome_some, Option.getD_some, true_and, not_or, not_lt] at hrefused
        exact hrefused
    split
    · exact hinterval
    · exact ⟨⟨hinterval.one_le_mss, hinterval.mss_le, hinterval.fits_segment,
        hinterval.estimates⟩, hinterval.mtu_eq, hinterval.interval, hinterval.minrto_le⟩

theorem safeInv_step (h : SafeInv c) (op : LifetimeOp) (hop : Tame k c op) :
    SafeInv (c.stepLifetime xxh64 k op) := by
  cases op with
  | synReceived synTs syn sent now => exact h.onSynReceived synTs syn sent now hop
  | accept option =>
    unfold stepLifetime
    dsimp only
    split
    case isTrue hstate =>
      unfold accept
      rw [min_comm]
      exact h.min_setMtu (hop hstate)
    case isFalse => exact h
  | accepted now =>
    unfold stepLifetime onAccepted
    dsimp only
    split
    · split
      · exact (h.setState .CONNECTED).establish now
      · exact h.setState .CONNECTED
    · exact h
  | configure config => exact h.configure config hop
  | probeCompleted mtu code =>
    show SafeInv (c.onMtuProbeCompleted k (u32 mtu) code)
    unfold onMtuProbeCompleted
    split
    case isFalse => exact h
    case isTrue hcode =>
      split
      case isTrue => exact h
      case isFalse hle =>
        obtain ⟨hlow, hhigh⟩ := hop hcode (not_lt.mp hle)
        rw [sub32_of_le (by omega)]
        exact h.setMtu (by omega) (by omega)
  | transfer op => exact h.transfer op hop

/-- Along a life whose steps are all tame the numbers are as they should be, and no ACK that is
tame overflows. -/
theorem arithmetic_safe (xxh64 : Nat → Nat) (k : KcpSetting) (state : KcpConnectionState)
    (fastlimit : Int) (start : Nat) (ops : List LifetimeOp) (hlow : KCP_HEADER_SIZE < k.udpMtu)
    (hhigh : k.udpMtu ≤ KCP_HEADER_SIZE + ETHERNET_MTU)
    (hok : Meets (stepLifetime xxh64 k) (Tame k) (init k state fastlimit start) ops) :
    SafeNumbers (run (stepLifetime xxh64 k) (init k state fastlimit start) ops)
      ∧ ∀ ack now,
        (run (stepLifetime xxh64 k) (init k state fastlimit start) ops).state = .CONNECTED →
        Tame k (run (stepLifetime xxh64 k) (init k state fastlimit start) ops)
          (.transfer (.packet (.ack ack) now)) →
        AckExact (run (stepLifetime xxh64 k) (init k state fastlimit start) ops) ack now := by
  have hinv : SafeInv (run (stepLifetime xxh64 k) (init k state fastlimit start) ops) :=
    run_inv (P := SafeInv) (fun _ op h hop => safeInv_step h op hop)
      (safeInv_init hlow hhigh state fastlimit start) hok
  refine ⟨hinv.toSafeNumbers, fun ack now hstate htame pos hpos => ?_⟩
  exact ((KcpSender.ackFits_iff hinv.estimates hinv.interval_bounds).mp (htame hstate pos hpos)).1

/-- A client whose SYN was on its way for 40 ms, and the ten bytes it sends. -/
def tenBytes : List LifetimeOp :=
  [.synReceived 0 ⟨1000, 2000, some 1300⟩ true 41000, .configure { interval := some 10 },
    .transfer (.send (List.replicate 10 7)), .transfer (.flush 100000 [])]

/-- The ACK comes 60 ms later, of which the peer has held it 20. -/
theorem arithmetic_safe_tenBytes :
    SafeNumbers (run (stepLifetime id ⟨1400, false, false, true⟩)
        (init ⟨1400, false, false, true⟩ .SYN_SENT 0 0) tenBytes)
      ∧ AckExact (run (stepLifetime id ⟨1400, false, false, true⟩)
        (init ⟨1400, false, false, true⟩ .SYN_SENT 0 0) tenBytes)
        ⟨128, 100000, 120000, 0, 1⟩ 160000 :=
  have hsafe := arithmetic_safe id ⟨1400, false, false, true⟩ .SYN_SENT 0 0 tenBytes (by decide)
    (by decide) (by decide +kernel)
  ⟨hsafe.1, hsafe.2 ⟨128, 100000, 120000, 0, 1⟩ 160000 (by decide +kernel) (by decide +kernel)⟩

/-- An option of 32 leaves no byte for data; an ACK held for 2^30 us makes the smoothed round trip
negative, and one held for 2^31 overflows. -/
theorem hostile_numbers :
    (run (stepLifetime id ⟨1400, false, false, true⟩)
        (init ⟨1400, false, false, true⟩ .SYN_SENT 0 0)
        [.synReceived 0 ⟨1000, 2000, some 32⟩ true 41000]).mss = 0
      ∧ (run (stepLifetime id ⟨1400, false, false, true⟩)
        (init ⟨1400, false, false, true⟩ .SYN_SENT 0 0)
        (tenBytes ++ [.transfer (.packet (.ack ⟨128, 0, 2 ^ 30, 0, 1⟩) 160000)])).snd.rxSrtt < 0
      ∧ ¬ AckExact (run (stepLifetime id ⟨1400, false, false, true⟩)
        (init ⟨1400, false, false, true⟩ .SYN_SENT 0 0) tenBytes)
        ⟨128, 0, 2 ^ 31, 0, 1⟩ 160000 := by
  decide +kernel

end KcpConnection

end Eular.Kcp
