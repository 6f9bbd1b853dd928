/-
The round-trip estimates, against the exact recurrence of RFC 6298.

`srtt` keeps eight times its value, and what an update drops is less than one
part in eight of that (`Near.srtt`): it is within one unit of the exact value
however many samples there are, and the second estimate within seven. `rttvar`
starts with the value scaled by four and is then updated, and read, unscaled:
it is within a unit a step of the recurrence that starts at twice the first
sample (`Near.var`), and so off the one that starts at half of it by what three
halves of that sample have decayed to (`var_gap`).
-/
import Eular.Utp.Congestion.Congestion

namespace Eular.Utp

variable {limit : Nat}

def us (x : Int64) : Nat := x.toUInt64.toNat

theorem us_of_pos {x : Int64} (h : 0 < x) : 0 < us x ∧ us x < 2 ^ 63 := by
  have hint : 0 < x.toBitVec.toInt := Int64.lt_iff_toInt_lt.mp h
  have hus : us x = x.toBitVec.toNat := rfl
  rw [BitVec.toInt_eq_toNat_cond] at hint
  rw [hus]
  split at hint <;> omega

theorem abs_sub_toNat {a b : UInt64} (ha : a.toNat < 2 ^ 63) (hb : b.toNat < 2 ^ 63) :
    (a.toInt64 - b.toInt64).abs.toUInt64.toNat = ((a.toNat : Int) - b.toNat).natAbs := by
  have hbits : (a.toInt64 - b.toInt64).abs.toUInt64.toNat
      = (a.toBitVec - b.toBitVec).abs.toNat := rfl
  rw [hbits]
  simp only [BitVec.toNat_abs, BitVec.msb_eq_decide, BitVec.toNat_sub, UInt64.toNat_toBitVec,
    decide_eq_true_eq]
  split <;> omega

theorem shiftRight_toNat (a : UInt64) :
    (a >>> 3).toNat = a.toNat / 8 ∧ (a >>> 2).toNat = a.toNat / 4 := by
  simp [UInt64.toNat_shiftRight, Nat.shiftRight_eq_div_pow]

namespace RttStats

/-- Estimates of samples up to `limit`. -/
structure Kept (limit : Nat) (s : RttStats) : Prop where
  srtt_pos : 0 < s.srtt.toNat
  srtt_le : s.srtt.toNat ≤ 8 * limit
  rttvar_le : s.rttvar.toNat ≤ 2 * limit

variable {limit : Nat} {s : RttStats} {x : Int64}

/-- An update, of values that do not overflow. -/
structure Updated (s : RttStats) (r : Nat) (s' : RttStats) : Prop where
  srtt : s'.srtt.toNat = s.srtt.toNat + r - s.srtt.toNat / 8
  rttvar : s'.rttvar.toNat = s.rttvar.toNat - s.rttvar.toNat / 4
    + ((r : Int) - (s.srtt.toNat / 8 : Nat)).natAbs / 4
  minrtt : s'.minrtt.toNat = min r s.minrtt.toNat

theorem Kept.updated (h : s.Kept limit) (hlimit : limit < 2 ^ 60) (hx : us x ≤ limit) :
    s.Updated (us x) (s.update x) := by
  have hne : s.srtt ≠ 0 := by
    intro hzero
    have hpos := h.srtt_pos
    rw [hzero] at hpos
    exact absurd hpos (by decide)
  have hle := h.srtt_le
  have hvar := h.rttvar_le
  have hshift : (s.srtt >>> alphaShift).toNat = s.srtt.toNat / 8 := (shiftRight_toNat s.srtt).1
  have hquarter (a : UInt64) : (a >>> betaShift).toNat = a.toNat / 4 := (shiftRight_toNat a).2
  have hx' : x.toUInt64.toNat ≤ limit := hx
  have hdelta : (x - (s.srtt >>> alphaShift).toInt64).abs.toUInt64.toNat
      = ((us x : Int) - (s.srtt.toNat / 8 : Nat)).natAbs := by
    rw [← hshift]
    exact abs_sub_toNat (by omega) (by omega)
  simp only [update, if_pos hne]
  constructor
  case srtt =>
    have hsum : (s.srtt.toInt64 + (x - (s.srtt >>> alphaShift).toInt64)).toUInt64
        = s.srtt + (x.toUInt64 - (s.srtt >>> alphaShift)) := rfl
    dsimp only
    rw [hsum, UInt64.toNat_add, UInt64.toNat_sub, hshift]
    unfold us
    omega
  case rttvar =>
    dsimp only
    rw [UInt64.toNat_add, UInt64.toNat_sub, hquarter, hquarter, hdelta]
    omega
  case minrtt =>
    dsimp only
    split
    case isTrue hless => exact (min_eq_left (UInt64.lt_iff_toNat_lt.mp hless).le).symm
    case isFalse hmore =>
      exact (min_eq_right (UInt64.le_iff_toNat_le.mp (UInt64.not_lt.mp hmore))).symm

theorem Kept.update (h : s.Kept limit) (hlimit : limit < 2 ^ 60) (hx : us x ≤ limit) :
    (s.update x).Kept limit := by
  have hnew := h.updated hlimit hx
  have hpos := h.srtt_pos
  have hle := h.srtt_le
  have hvar := h.rttvar_le
  constructor
  case srtt_pos =>
    rw [hnew.srtt]
    omega
  case srtt_le =>
    rw [hnew.srtt]
    omega
  case rttvar_le =>
    rw [hnew.rttvar]
    omega

theorem update_first (hx : 0 < x) :
    (update {} x).rttvar.toNat = 2 * us x ∧ (update {} x).minrtt.toNat = us x
      ∧ (us x < 2 ^ 60 → (update {} x).srtt.toNat = 8 * us x) := by
  have hlt := (us_of_pos hx).2
  have hbeta : ((2 : UInt64) - 1).toNat % 64 = 1 := rfl
  have halpha : (3 : UInt64).toNat % 64 = 3 := rfl
  have hus : x.toUInt64.toNat = us x := rfl
  have hfirst : update {} x = ⟨x.toUInt64 <<< alphaShift, x.toUInt64 <<< (betaShift - 1),
    x.toUInt64⟩ := if_neg (by decide)
  rw [hfirst]
  dsimp only [alphaShift, betaShift]
  rw [UInt64.toNat_shiftLeft, UInt64.toNat_shiftLeft, hbeta, halpha, Nat.shiftLeft_eq,
    Nat.shiftLeft_eq, hus]
  omega

end RttStats

-- ==== the recurrence

structure Exact where
  srtt : ℚ
  var : ℚ

def Exact.next (e : Exact) (r : Nat) : Exact :=
  ⟨7 / 8 * e.srtt + 1 / 8 * r, 3 / 4 * e.var + 1 / 4 * |e.srtt - r|⟩

/-- The recurrence, from the first sample and the variation it starts with. -/
def exactFrom (var : ℚ) (first : Int64) (rest : List Int64) : Exact :=
  rest.foldl (fun e x => e.next (us x)) ⟨us first, var⟩

theorem div_cases (a k : Nat) (hk : 0 < k) : ∃ q t, t < k ∧ a = k * q + t ∧ a / k = q :=
  ⟨a / k, a % k, Nat.mod_lt a hk, (Nat.div_add_mod a k).symm, rfl⟩

theorem distance_near {r q : Nat} {e gap : ℚ} (h : |(q : ℚ) - e| ≤ gap) :
    |(((r : Int) - q).natAbs : ℚ) - abs (e - r)| ≤ gap := by
  have hcast : (((r : Int) - q).natAbs : ℚ) = |(q : ℚ) - r| := by
    rw [Nat.cast_natAbs, Int.cast_abs, abs_sub_comm]
    push_cast
    rfl
  rw [hcast]
  have habs := abs_abs_sub_abs_le ((q : ℚ) - r) (e - r)
  rw [sub_sub_sub_cancel_right] at habs
  exact habs.trans h

theorem scaled_step {scaled r : Nat} {e : ℚ} (h : 8 * e ≤ scaled ∧ scaled ≤ 8 * e + 7) :
    8 * (7 / 8 * e + 1 / 8 * r) ≤ (scaled + r - scaled / 8 : Nat)
      ∧ ((scaled + r - scaled / 8 : Nat) : ℚ) ≤ 8 * (7 / 8 * e + 1 / 8 * r) + 7 := by
  obtain ⟨q, t, ht, hscaled, hq⟩ := div_cases scaled 8 (by decide)
  have hnext : scaled + r - scaled / 8 = 7 * q + t + r := by omega
  rw [hnext]
  rw [hscaled] at h
  have ht : (t : ℚ) ≤ 7 := by exact_mod_cast Nat.le_of_lt_succ ht
  push_cast at h ⊢
  constructor <;> linarith

/-- `srttUs`, of a value that is scaled so. -/
theorem scaled_near {scaled : Nat} {e : ℚ} (h : 8 * e ≤ scaled ∧ scaled ≤ 8 * e + 7) :
    |((scaled / 8 : Nat) : ℚ) - e| ≤ 7 / 8 := by
  obtain ⟨q, t, ht, hscaled, hq⟩ := div_cases scaled 8 (by decide)
  rw [hq, abs_le]
  rw [hscaled] at h
  have ht : (t : ℚ) ≤ 7 := by exact_mod_cast Nat.le_of_lt_succ ht
  push_cast at h
  constructor <;> linarith

theorem var_step {var d : Nat} {v e gap : ℚ} (h : |(var : ℚ) - v| ≤ gap)
    (hd : |(d : ℚ) - e| ≤ 7 / 8) :
    |((var - var / 4 + d / 4 : Nat) : ℚ) - (3 / 4 * v + 1 / 4 * e)| ≤ 3 / 4 * gap + 31 / 32 := by
  obtain ⟨p, u, hu, hvar, hp⟩ := div_cases var 4 (by decide)
  obtain ⟨b, w, hw, hd', hb⟩ := div_cases d 4 (by decide)
  have hnext : var - var / 4 + d / 4 = 3 * p + u + b := by omega
  rw [hnext]
  rw [hvar, abs_le] at h
  rw [hd', abs_le] at hd
  have hu : (u : ℚ) ≤ 3 := by exact_mod_cast Nat.le_of_lt_succ hu
  have hw : (w : ℚ) ≤ 3 := by exact_mod_cast Nat.le_of_lt_succ hw
  push_cast at h hd ⊢
  rw [abs_le]
  constructor <;> linarith

theorem obs_step {obs r : Nat} {e gap : ℚ} (h : e - gap ≤ obs ∧ obs ≤ e) :
    7 / 8 * e + 1 / 8 * r - (7 / 8 * gap + 7 / 8) ≤ ((obs * 7 + r) / 8 : Nat)
      ∧ (((obs * 7 + r) / 8 : Nat) : ℚ) ≤ 7 / 8 * e + 1 / 8 * r := by
  obtain ⟨q, t, ht, hsum, hq⟩ := div_cases (obs * 7 + r) 8 (by decide)
  rw [hq]
  have ht : (t : ℚ) ≤ 7 := by exact_mod_cast Nat.le_of_lt_succ ht
  have hsum : (obs : ℚ) * 7 + r = 8 * q + t := by exact_mod_cast hsum
  constructor <;> linarith

theorem obsVar_step {var d : Nat} {v e gap far : ℚ} (h : |(var : ℚ) - v| ≤ gap)
    (hd : |(d : ℚ) - e| ≤ far) :
    |(((var * 3 + d) / 4 : Nat) : ℚ) - (3 / 4 * v + 1 / 4 * e)|
      ≤ 3 / 4 * gap + 1 / 4 * far + 3 / 4 := by
  obtain ⟨q, t, ht, hsum, hq⟩ := div_cases (var * 3 + d) 4 (by decide)
  rw [hq]
  have ht : (t : ℚ) ≤ 3 := by exact_mod_cast Nat.le_of_lt_succ ht
  have hsum : (var : ℚ) * 3 + d = 4 * q + t := by exact_mod_cast hsum
  rw [abs_le] at h hd ⊢
  constructor <;> linarith

/-- The recurrence forgets what its variation starts with, by a quarter at each sample. -/
theorem var_gap (a b : ℚ) (first : Int64) (rest : List Int64) :
    (exactFrom a first rest).srtt = (exactFrom b first rest).srtt
      ∧ (exactFrom a first rest).var - (exactFrom b first rest).var
        = (3 / 4) ^ rest.length * (a - b) := by
  induction rest using List.reverseRecOn with
  | nil => simp [exactFrom]
  | append_singleton rest x ih =>
    obtain ⟨hsrtt, hvar⟩ := ih
    simp only [exactFrom, List.foldl_append, List.foldl_cons, List.foldl_nil, Exact.next,
      List.length_append, List.length_singleton, pow_succ] at hsrtt hvar ⊢
    rw [hsrtt]
    constructor
    · rfl
    · linarith

-- ==== estimates

/-- The estimates of a sequence of samples. -/
def estimates (first : Int64) (rest : List Int64) : RttEstimates :=
  (first :: rest).foldl (fun e x => e.sampled x.toUInt64) {}

theorem estimates_append (first : Int64) (rest : List Int64) (x : Int64) :
    estimates first (rest ++ [x]) = (estimates first rest).sampled x.toUInt64 := by
  simp only [estimates, ← List.cons_append, List.foldl_append, List.foldl_cons, List.foldl_nil]

namespace RttEstimates

/-- Estimates of samples up to `limit`. -/
structure Kept (limit : Nat) (e : RttEstimates) : Prop where
  rtt : e.rttStats.Kept limit
  obs_pos : 0 < e.obsRttUs.toNat
  obs_le : e.obsRttUs.toNat ≤ limit
  obsVar_le : e.obsRttVarUs.toNat ≤ limit

variable {limit : Nat} {e : RttEstimates} {x : Int64}

theorem sampled_rttStats (e : RttEstimates) (x : Int64) :
    (e.sampled x.toUInt64).rttStats = e.rttStats.update x := by
  unfold sampled
  split <;> rfl

/-- The second estimate, of values that do not overflow. -/
structure Updated (e : RttEstimates) (r : Nat) (e' : RttEstimates) : Prop where
  obs : e'.obsRttUs.toNat = (e.obsRttUs.toNat * 7 + r) / 8
  obsVar : e'.obsRttVarUs.toNat
    = (e.obsRttVarUs.toNat * 3 + ((r : Int) - e.obsRttUs.toNat).natAbs) / 4

theorem Kept.updated (h : e.Kept limit) (hlimit : limit < 2 ^ 60) (hx : us x ≤ limit) :
    e.Updated (us x) (e.sampled x.toUInt64) := by
  have hne : e.obsRttUs ≠ 0 := by
    intro hzero
    have hpos := h.obs_pos
    rw [hzero] at hpos
    exact absurd hpos (by decide)
  have hobs := h.obs_le
  have hvar := h.obsVar_le
  have hus : x.toUInt64.toNat = us x := rfl
  have hdelta : (if x.toUInt64 < e.obsRttUs then e.obsRttUs - x.toUInt64
      else x.toUInt64 - e.obsRttUs).toNat = ((us x : Int) - e.obsRttUs.toNat).natAbs := by
    split
    case isTrue hless =>
      have hless := UInt64.lt_iff_toNat_lt.mp hless
      rw [UInt64.toNat_sub_of_le _ _ (UInt64.le_iff_toNat_le.mpr hless.le), hus]
      omega
    case isFalse hmore =>
      have hmore := UInt64.le_iff_toNat_le.mp (UInt64.not_lt.mp hmore)
      rw [UInt64.toNat_sub_of_le _ _ (UInt64.le_iff_toNat_le.mpr hmore), hus]
      omega
  simp only [sampled, if_neg hne]
  constructor
  case obs =>
    dsimp only
    rw [UInt64.toNat_div, UInt64.toNat_add, UInt64.toNat_mul, hus]
    simp only [UInt64.reduceToNat]
    omega
  case obsVar =>
    dsimp only
    rw [UInt64.toNat_div, UInt64.toNat_add, UInt64.toNat_mul, hdelta]
    simp only [UInt64.reduceToNat]
    omega

theorem Kept.sampled (h : e.Kept limit) (hlimit : limit < 2 ^ 60) (hpos : 0 < us x)
    (hx : us x ≤ limit) : (e.sampled x.toUInt64).Kept limit := by
  have hnew := h.updated hlimit hx
  have hobs := h.obs_le
  have hobsPos := h.obs_pos
  have hvar := h.obsVar_le
  constructor
  case rtt =>
    rw [sampled_rttStats]
    exact h.rtt.update hlimit hx
  case obs_pos =>
    rw [hnew.obs]
    omega
  case obs_le =>
    rw [hnew.obs]
    omega
  case obsVar_le =>
    rw [hnew.obsVar]
    omega

/-- The estimates after `steps` samples more than the first, against the recurrence: `half`
starts as in RFC 6298, `double` at twice the first sample. -/
structure Near (steps : Nat) (double half : Exact) (e : RttEstimates) : Prop where
  srtt : 8 * half.srtt ≤ e.rttStats.srtt.toNat ∧ e.rttStats.srtt.toNat ≤ 8 * half.srtt + 7
  var : |(e.rttStats.rttvar.toNat : ℚ) - double.var| ≤ 31 / 32 * steps
  obs : half.srtt - steps ≤ e.obsRttUs.toNat ∧ e.obsRttUs.toNat ≤ half.srtt
  obsVar : |(e.obsRttVarUs.toNat : ℚ) - half.var| ≤ steps + 1 / 2

theorem Near.sampled {steps : Nat} {double half : Exact} (h : e.Near steps double half)
    (hsame : double.srtt = half.srtt) (hkept : e.Kept limit) (hlimit : limit < 2 ^ 60)
    (hx : us x ≤ limit) :
    (e.sampled x.toUInt64).Near (steps + 1) (double.next (us x)) (half.next (us x)) := by
  have hstats := hkept.rtt.updated hlimit hx
  have hnew := hkept.updated hlimit hx
  have hsteps : (0 : ℚ) ≤ steps := Nat.cast_nonneg steps
  constructor
  case srtt =>
    rw [sampled_rttStats, hstats.srtt]
    exact scaled_step h.srtt
  case var =>
    rw [sampled_rttStats, hstats.rttvar]
    have hnear := var_step h.var (distance_near (r := us x) (scaled_near h.srtt))
    simp only [Exact.next, hsame]
    apply hnear.trans
    push_cast
    linarith
  case obs =>
    rw [hnew.obs]
    obtain ⟨hlow, hhigh⟩ := obs_step (r := us x) h.obs
    simp only [Exact.next]
    push_cast
    constructor <;> linarith
  case obsVar =>
    rw [hnew.obsVar]
    have hfar : |(e.obsRttUs.toNat : ℚ) - half.srtt| ≤ steps := by
      rw [abs_le]
      constructor <;> linarith [h.obs.1, h.obs.2]
    have hnear := obsVar_step h.obsVar (distance_near (r := us x) hfar)
    simp only [Exact.next]
    apply hnear.trans
    push_cast
    linarith

end RttEstimates

variable {first : Int64}

theorem kept_first (hpos : 0 < first) (hlimit : limit < 2 ^ 60)
    (hle : us first ≤ limit) : (estimates first []).Kept limit := by
  obtain ⟨hvar, hmin, hsrtt⟩ := RttStats.update_first hpos
  have hsrtt := hsrtt (by omega)
  have hlow := us_of_pos hpos
  have hobs : (estimates first []).obsRttUs.toNat = us first := rfl
  have hobsVar : (estimates first []).obsRttVarUs.toNat = us first / 2 := UInt64.toNat_div _ 2
  have hstats : (estimates first []).rttStats = RttStats.update {} first := rfl
  exact ⟨by constructor <;> rw [hstats] <;> omega, by omega, by omega, by omega⟩

theorem near_first (hpos : 0 < first) (hlt : us first < 2 ^ 60) :
    (estimates first []).Near 0 (exactFrom (2 * us first) first [])
      (exactFrom (us first / 2) first []) := by
  obtain ⟨hvar, hmin, hsrtt⟩ := RttStats.update_first hpos
  have hsrtt := hsrtt hlt
  have hstats : (estimates first []).rttStats = RttStats.update {} first := rfl
  have hobs : (estimates first []).obsRttUs.toNat = us first := rfl
  have hobsVar : (estimates first []).obsRttVarUs.toNat = us first / 2 := UInt64.toNat_div _ 2
  obtain ⟨q, t, ht, hhalf, hq⟩ := div_cases (us first) 2 (by decide)
  simp only [exactFrom, List.foldl_nil]
  constructor
  case srtt =>
    rw [hstats, hsrtt]
    push_cast
    constructor <;> linarith
  case var =>
    rw [hstats, hvar]
    push_cast
    simp
  case obs =>
    rw [hobs]
    push_cast
    constructor <;> linarith
  case obsVar =>
    have ht : (t : ℚ) ≤ 1 := by exact_mod_cast Nat.le_of_lt_succ ht
    have ht' : (0 : ℚ) ≤ t := Nat.cast_nonneg t
    rw [hobsVar, hq, hhalf, abs_le]
    push_cast
    constructor <;> linarith

/-- The estimates of samples up to `limit`, through a whole sequence. -/
theorem estimates_near (hlimit : limit < 2 ^ 60) (rest : List Int64)
    (hrest : ∀ x ∈ first :: rest, 0 < x ∧ us x ≤ limit) :
    (estimates first rest).Kept limit
      ∧ (estimates first rest).Near rest.length (exactFrom (2 * us first) first rest)
        (exactFrom (us first / 2) first rest) := by
  induction rest using List.reverseRecOn with
  | nil =>
    obtain ⟨hpos, hle⟩ := hrest first List.mem_cons_self
    exact ⟨kept_first hpos hlimit hle, near_first hpos (by omega)⟩
  | append_singleton rest x ih =>
    obtain ⟨hkept, hnear⟩ := ih fun y hy => hrest y (by
      rcases List.mem_cons.mp hy with rfl | hy
      · exact List.mem_cons_self
      · exact List.mem_cons_of_mem _ (List.mem_append_left _ hy))
    obtain ⟨hpos, hle⟩ := hrest x (by simp)
    have hexact (var : ℚ) : exactFrom var first (rest ++ [x])
        = (exactFrom var first rest).next (us x) := by
      simp only [exactFrom, List.foldl_append, List.foldl_cons, List.foldl_nil]
    rw [estimates_append, hexact, hexact, List.length_append]
    apply And.intro
    · exact hkept.sampled hlimit (us_of_pos hpos).1 hle
    · exact hnear.sampled (var_gap _ _ first rest).1 hkept hlimit hle

-- ==== worth

/-- `minRTT` is the least of the samples. -/
theorem minRTT_isLeast (hlimit : limit < 2 ^ 60) (rest : List Int64)
    (hrest : ∀ x ∈ first :: rest, 0 < x ∧ us x ≤ limit) :
    IsLeast {r | ∃ x ∈ first :: rest, us x = r} (estimates first rest).rttStats.minRTT.toNat := by
  induction rest using List.reverseRecOn with
  | nil =>
    obtain ⟨hpos, -⟩ := hrest first List.mem_cons_self
    have hmin : (estimates first []).rttStats.minRTT.toNat = us first :=
      (RttStats.update_first hpos).2.1
    rw [hmin]
    constructor
    · exact ⟨first, List.mem_cons_self, rfl⟩
    · rintro r ⟨x, hx, rfl⟩
      rw [List.mem_singleton.mp hx]
  | append_singleton rest x ih =>
    have hbefore : ∀ y ∈ first :: rest, y ∈ first :: (rest ++ [x]) := by
      intro y hy
      rw [← List.cons_append]
      exact List.mem_append_left _ hy
    have hrest' : ∀ y ∈ first :: rest, 0 < y ∧ us y ≤ limit := fun y hy => hrest y (hbefore y hy)
    obtain ⟨⟨y, hy, hmem⟩, hleast⟩ := ih hrest'
    have hkept := (estimates_near hlimit rest hrest').1
    have hmin : (estimates first (rest ++ [x])).rttStats.minRTT.toNat
        = min (us x) (estimates first rest).rttStats.minRTT.toNat := by
      rw [estimates_append, RttEstimates.sampled_rttStats]
      exact (hkept.rtt.updated hlimit (hrest x (by simp)).2).minrtt
    rw [hmin]
    constructor
    · rcases min_choice (us x) (estimates first rest).rttStats.minRTT.toNat with hx | hold
      · exact ⟨x, by simp, hx.symm⟩
      · exact ⟨y, hbefore y hy, hmem.trans hold.symm⟩
    · rintro r ⟨z, hz, rfl⟩
      rw [← List.cons_append, List.mem_append, List.mem_singleton] at hz
      rcases hz with hz | rfl
      · exact (min_le_right _ _).trans (hleast ⟨z, hz, rfl⟩)
      · exact min_le_left _ _

-- ==== RFC 6298

/-- What is asked of `srtt` and `minRTT`. -/
structure SrttFollows (first : Int64) (rest : List Int64) (e : RttEstimates) : Prop where
  srtt : |(e.rttStats.srttUs.toNat : ℚ) - (exactFrom (us first / 2) first rest).srtt|
    < rest.length + 1
  srtt_le : ∀ limit, (∀ x ∈ first :: rest, us x ≤ limit) → e.rttStats.srttUs.toNat ≤ limit
  minRTT : IsLeast {r | ∃ x ∈ first :: rest, us x = r} e.rttStats.minRTT.toNat
  agrees : |(e.rttStats.srttUs.toNat : ℚ) - e.obsRttUs.toNat| < 2 * (rest.length + 1)

/-- And of `rttVar`. -/
structure VarFollows (first : Int64) (rest : List Int64) (e : RttEstimates) : Prop where
  var : |(e.rttStats.rttVar.toNat : ℚ) - (exactFrom (us first / 2) first rest).var|
    < rest.length + 1
  var_le : ∀ limit, (∀ x ∈ first :: rest, us x ≤ limit) → e.rttStats.rttVar.toNat ≤ limit
  agrees : |(e.rttStats.rttVar.toNat : ℚ) - e.obsRttVarUs.toNat| < 2 * (rest.length + 1)

def FollowsRfc (first : Int64) (rest : List Int64) (e : RttEstimates) : Prop :=
  SrttFollows first rest e ∧ VarFollows first rest e

theorem srttFollows (hlimit : limit < 2 ^ 60) (rest : List Int64)
    (hrest : ∀ x ∈ first :: rest, 0 < x ∧ us x ≤ limit) :
    SrttFollows first rest (estimates first rest) := by
  obtain ⟨hkept, hnear⟩ := estimates_near hlimit rest hrest
  have hsteps : (0 : ℚ) ≤ rest.length := Nat.cast_nonneg _
  have hsame := (var_gap (2 * us first) (us first / 2) first rest).1
  have hsrtt : (estimates first rest).rttStats.srttUs.toNat
      = (estimates first rest).rttStats.srtt.toNat / 8 := (shiftRight_toNat _).1
  have hclose := scaled_near hnear.srtt
  rw [← hsrtt] at hclose
  have hbounds := abs_le.mp hclose
  constructor
  case srtt => linarith
  case srtt_le =>
    intro least hleast
    by_cases hlow : least ≤ limit
    · have hkept : (estimates first rest).Kept least := (estimates_near (by omega) rest
        fun x hx => ⟨(hrest x hx).1, hleast x hx⟩).1
      have hle := hkept.rtt.srtt_le
      omega
    · have hle := hkept.rtt.srtt_le
      omega
  case minRTT => exact minRTT_isLeast hlimit rest hrest
  case agrees =>
    obtain ⟨hlow, hhigh⟩ := hnear.obs
    rw [abs_lt]
    constructor <;> linarith

/-- Of `rttVar` it fails at once: the first sample leaves it at twice that sample. -/
theorem not_varFollows_first (hpos : 0 < first) : ¬ VarFollows first [] (estimates first []) := by
  intro h
  have hlow := (us_of_pos hpos).1
  have hvar : (estimates first []).rttStats.rttVar.toNat = 2 * us first :=
    (RttStats.update_first hpos).1
  have hle := h.var_le (us first) fun x hx => by rw [List.mem_singleton.mp hx]
  omega

theorem rttVar_near (hlimit : limit < 2 ^ 60) (rest : List Int64)
    (hrest : ∀ x ∈ first :: rest, 0 < x ∧ us x ≤ limit) :
    |((estimates first rest).rttStats.rttVar.toNat : ℚ)
        - ((exactFrom (us first / 2) first rest).var + (3 / 4) ^ rest.length * (3 / 2 * us first))|
      < rest.length + 1 := by
  have hnear := (estimates_near hlimit rest hrest).2.var
  have hgap := (var_gap (2 * us first) (us first / 2) first rest).2
  have hsteps : (0 : ℚ) ≤ rest.length := Nat.cast_nonneg _
  have hvar : (exactFrom (us first / 2) first rest).var + (3 / 4) ^ rest.length * (3 / 2 * us first)
      = (exactFrom (2 * us first) first rest).var := by linarith
  rw [hvar]
  exact hnear.trans_lt (by linarith)

/-- No sequence of samples has `rttVar` follow RFC 6298 from its first sample on; `srtt` and
`minRTT` do, nothing wraps, and `rttVar` is off by what three halves of the first sample have
decayed to. -/
theorem rtt_estimation (first : Int64) (rest : List Int64) (hpos : ∀ x ∈ first :: rest, 0 < x) :
    (¬ ∀ before, before <+: rest → FollowsRfc first before (estimates first before))
      ∧ ∀ limit, limit < 2 ^ 60 → (∀ x ∈ first :: rest, us x ≤ limit) →
        SrttFollows first rest (estimates first rest)
        ∧ (∀ x, us x ≤ limit → (estimates first rest).rttStats.Updated (us x)
            ((estimates first rest).rttStats.update x))
        ∧ |((estimates first rest).rttStats.rttVar.toNat : ℚ)
            - ((exactFrom (us first / 2) first rest).var
              + (3 / 4) ^ rest.length * (3 / 2 * us first))| < rest.length + 1 := by
  apply And.intro
  · intro h
    exact not_varFollows_first (hpos first List.mem_cons_self) (h [] List.nil_prefix).2
  · intro limit hlimit hle
    have hrest : ∀ x ∈ first :: rest, 0 < x ∧ us x ≤ limit := fun x hx => ⟨hpos x hx, hle x hx⟩
    refine ⟨srttFollows hlimit rest hrest, ?_, rttVar_near hlimit rest hrest⟩
    intro x hx
    exact (estimates_near hlimit rest hrest).1.rtt.updated hlimit hx

theorem rtt_estimation_some :
    (¬ ∀ before, before <+: [(80 : Int64)] → FollowsRfc 100 before (estimates 100 before))
      ∧ ∀ limit, limit < 2 ^ 60 → (∀ x ∈ [(100 : Int64), 80], us x ≤ limit) →
        SrttFollows 100 [80] (estimates 100 [80])
        ∧ (∀ x, us x ≤ limit → (estimates 100 [80]).rttStats.Updated (us x)
            ((estimates 100 [80]).rttStats.update x))
        ∧ |((estimates 100 [80]).rttStats.rttVar.toNat : ℚ)
            - ((exactFrom (us 100 / 2) 100 [80]).var
              + (3 / 4) ^ [(80 : Int64)].length * (3 / 2 * us 100))|
          < [(80 : Int64)].length + 1 :=
  rtt_estimation 100 [80] (by
    intro x hx
    simp only [List.mem_cons, List.not_mem_nil, or_false] at hx
    rcases hx with rfl | rfl
    · decide
    · decide)

/-- One sample of 100 leaves 200, which is beyond every sample. -/
theorem rttVar_beyond : ¬ FollowsRfc 100 [] (estimates 100 []) := by
  intro h
  have hle := h.2.var_le 100 fun x hx => by
    rw [List.mem_singleton.mp hx]
    rfl
  exact absurd hle (by decide +kernel)

end Eular.Utp
