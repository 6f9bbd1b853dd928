/-
What the windowed maximum and minimum are worth.

The three samples are the filter of `Lib/WindowFilter.lean`, with times and
values as numbers (`kept`); the minimum is the same filter with the order of
the values turned round. While the clock does not run backwards no difference
of times wraps, and an update is an update of that filter (`kept_updateMax`,
`kept_updateMin`): an initial filter and one whose best value is 0 are replaced
whole, which the filter allows at any time.

So after every update the best is a measurement of the last window. What the
samples hold of a measurement is 32 bits, cut at the greatest (`clampToU32`):
a measurement beyond that is not returned (`clamped_measurement`).
-/
import Eular.Lib.WindowFilter
import Eular.Utp.Congestion.BandwidthSampler

namespace Eular.Utp.MinMax

open Eular.Lib

variable {better : UInt32 → UInt32 → Bool}

/-- The greatest value a sample holds. -/
def maxHeld : Nat := 2 ^ 32 - 1

theorem clampToU32_toNat (value : UInt64) :
    (clampToU32 value).toNat = min value.toNat maxHeld := by
  have hlt := value.toNat_lt
  simp only [clampToU32, maxHeld]
  split
  case isTrue h =>
    have h := UInt64.lt_iff_toNat_lt.mp h
    have hmax : (0xFFFFFFFF : UInt64).toNat = 2 ^ 32 - 1 := rfl
    have : (0xFFFFFFFF : UInt32).toNat = 2 ^ 32 - 1 := rfl
    omega
  case isFalse h =>
    have h := UInt64.not_lt.mp h
    have h := UInt64.le_iff_toNat_le.mp h
    have hmax : (0xFFFFFFFF : UInt64).toNat = 2 ^ 32 - 1 := rfl
    rw [UInt64.toNat_toUInt32]
    omega

-- ==== the filter

variable {α : Type*} (val : UInt32 → α)

def keptSample (s : MinMaxSample) : Nat × α := (s.time.toNat, val s.value)

/-- The samples, for the filter. -/
def kept (m : MinMax) : BestThree α :=
  ⟨keptSample val m.best, keptSample val m.second, keptSample val m.third⟩

/-- The samples are in the order of their times, none of them later than `now`. -/
structure Timed (m : MinMax) (now : UInt64) : Prop where
  second : m.best.time ≤ m.second.time
  third : m.second.time ≤ m.third.time
  now : m.third.time ≤ now

variable {val} {m : MinMax} {now : UInt64}

theorem expired_iff {window early late : UInt64} (h : early ≤ late) :
    window < late - early ↔ window.toNat < late.toNat - early.toNat := by
  rw [UInt64.lt_iff_toNat_lt, UInt64.toNat_sub_of_le _ _ h]

variable (window : UInt64)

theorem quarter_toNat : (window / 4).toNat = window.toNat / 4 :=
  UInt64.toNat_div window 4

theorem half_toNat : (window / 2).toNat = window.toNat / 2 :=
  UInt64.toNat_div window 2

theorem kept_subwinUpdate (s : MinMaxSample) (h : m.Timed s.time) :
    kept val (m.subwinUpdate s) = (kept val m).promote m.window.toNat (keptSample val s) := by
  have hsecond : m.second.time ≤ s.time := UInt64.le_trans h.third h.now
  have hbest : m.best.time ≤ s.time := UInt64.le_trans h.second hsecond
  simp only [subwinUpdate, BestThree.promote, BestThree.shift, kept, keptSample,
    expired_iff hbest, expired_iff hsecond, quarter_toNat, half_toNat, UInt64.toNat_inj,
    Bool.and_eq_true, decide_eq_true_eq]
  split
  case isTrue hexpired =>
    split
    case isTrue hagain => exact (if_pos hagain).symm
    case isFalse hagain => exact (if_neg hagain).symm
  case isFalse =>
    split
    case isTrue => rfl
    case isFalse => split <;> rfl

theorem subwinUpdate_window (s : MinMaxSample) : (m.subwinUpdate s).window = m.window := by
  simp only [subwinUpdate]
  split
  case isTrue => split <;> rfl
  case isFalse =>
    split
    case isTrue => rfl
    case isFalse => split <;> rfl

theorem Timed.both {s : MinMaxSample} (h : m.Timed s.time) :
    { m with second := s, third := s }.Timed s.time :=
  ⟨UInt64.le_trans h.second (UInt64.le_trans h.third h.now), UInt64.le_refl _, UInt64.le_refl _⟩

theorem Timed.last {s : MinMaxSample} (h : m.Timed s.time) : { m with third := s }.Timed s.time :=
  ⟨h.second, UInt64.le_trans h.third h.now, UInt64.le_refl _⟩

/-- The two updates, `better a b` where the value `b` is no worse than `a`. -/
def updateBy (better : UInt32 → UInt32 → Bool) (m : MinMax) (sample : MinMaxSample) : MinMax :=
  if m.best.value = 0 || better m.best.value sample.value
      || m.window < sample.time - m.third.time then
    m.reset sample
  else if better m.second.value sample.value then
    { m with second := sample, third := sample }.subwinUpdate sample
  else if better m.third.value sample.value then
    { m with third := sample }.subwinUpdate sample
  else m.subwinUpdate sample

theorem updateMax_eq (meas : UInt64) :
    m.updateMax now meas = m.updateBy (fun a b => a ≤ b) ⟨now, clampToU32 meas⟩ := by
  simp only [updateMax, updateBy, decide_eq_true_eq]

theorem updateMin_eq (meas : UInt64) :
    m.updateMin now meas = m.updateBy (fun a b => b ≤ a) ⟨now, clampToU32 meas⟩ := by
  simp only [updateMin, updateBy, decide_eq_true_eq]

theorem kept_updateBy [LinearOrder α]
    (hval : ∀ a b, better a b = true ↔ val a ≤ val b) (s : MinMaxSample) (h : m.Timed s.time) :
    kept val (m.updateBy better s)
      = (kept val m).update m.window.toNat (m.best.value = 0) (keptSample val s) := by
  have hthird := @expired_iff m.window _ _ h.now
  simp only [updateBy, Bool.or_eq_true, decide_eq_true_eq, hval, hthird, or_assoc]
  split
  case isTrue hfresh => exact (if_pos (hfresh.imp_left decide_eq_true)).symm
  case isFalse hkeep =>
    apply Eq.trans _ (if_neg fun h => hkeep (h.imp_left of_decide_eq_true)).symm
    split
    case isTrue hsecond =>
      have hreplace : (kept val m).replace (keptSample val s)
          = kept val { m with second := s, third := s } := if_pos hsecond
      rw [hreplace]
      exact kept_subwinUpdate s h.both
    case isFalse hsecond =>
      split
      case isTrue hlast =>
        have hreplace : (kept val m).replace (keptSample val s)
            = kept val { m with third := s } := (if_neg hsecond).trans (if_pos hlast)
        rw [hreplace]
        exact kept_subwinUpdate s h.last
      case isFalse hlast =>
        have hreplace : (kept val m).replace (keptSample val s) = kept val m :=
          (if_neg hsecond).trans (if_neg hlast)
        rw [hreplace]
        exact kept_subwinUpdate s h

theorem updateBy_window (better : UInt32 → UInt32 → Bool) (s : MinMaxSample) :
    (m.updateBy better s).window = m.window := by
  unfold updateBy
  split
  · rfl
  · split
    · apply subwinUpdate_window
    · split <;> apply subwinUpdate_window

-- ==== runs

/-- The filter that a sequence of measurements, times before values, leaves. -/
def updates (update : MinMax → UInt64 → UInt64 → MinMax) (window : UInt64) (m : MinMax)
    (measured : List (UInt64 × UInt64)) : MinMax :=
  measured.foldl (fun m x => update m x.1 x.2) (m.init window)

def NonDecreasing (measured : List (UInt64 × UInt64)) : Prop :=
  measured.Pairwise fun earlier later => earlier.1 ≤ later.1

/-- What a sample holds of a measurement. -/
def held (val : UInt32 → α) (x : UInt64 × UInt64) : Nat × α :=
  (x.1.toNat, val (clampToU32 x.2))

theorem tracks_updateBy [LinearOrder α]
    (hval : ∀ a b, better a b = true ↔ val a ≤ val b) {window : Nat} {taken : List (Nat × α)}
    {last : UInt64 × UInt64} (h : (kept val m).Tracks window taken (held val last))
    (hwindow : m.window.toNat = window) {x : UInt64 × UInt64} (htime : last.1 ≤ x.1) :
    (kept val (m.updateBy better ⟨x.1, clampToU32 x.2⟩)).Tracks window (held val x :: taken)
      (held val x) := by
  have htimed : m.Timed x.1 :=
    { second := UInt64.le_iff_toNat_le.mpr h.sorted.second_time
      third := UInt64.le_iff_toNat_le.mpr h.sorted.third_time
      now := UInt64.le_trans (UInt64.le_iff_toNat_le.mpr h.third_time) htime }
  rw [kept_updateBy hval _ htimed, hwindow]
  have hlater : (held val last).1 ≤ (held val x).1 := UInt64.le_iff_toNat_le.mp htime
  exact h.update hlater _

theorem tracks_updates [LinearOrder α]
    (hval : ∀ a b, better a b = true ↔ val a ≤ val b) (window : UInt64) (m : MinMax)
    (before : List (UInt64 × UInt64)) (latest : UInt64 × UInt64)
    (horder : NonDecreasing (before ++ [latest])) :
    (kept val (updates (fun m now meas => m.updateBy better ⟨now, clampToU32 meas⟩) window m
        (before ++ [latest]))).Tracks window.toNat
      ((before ++ [latest]).reverse.map (held val)) (held val latest)
    ∧ (updates (fun m now meas => m.updateBy better ⟨now, clampToU32 meas⟩) window m
        (before ++ [latest])).window = window := by
  induction before using List.reverseRecOn generalizing latest with
  | nil =>
    apply And.intro
    · have hfresh : (m.init window).updateBy better ⟨latest.1, clampToU32 latest.2⟩
          = (m.init window).reset ⟨latest.1, clampToU32 latest.2⟩ := if_pos rfl
      simp only [updates, List.nil_append, List.foldl_cons, List.foldl_nil, hfresh]
      exact BestThree.tracks_all (List.mem_singleton_self _)
    · exact updateBy_window (m := m.init window) better _
  | append_singleton before last ih =>
    obtain ⟨hbefore, -, hlast⟩ := List.pairwise_append.mp horder
    obtain ⟨htracks, hwindow⟩ := ih last hbefore
    have htime : last.1 ≤ latest.1 := hlast last (by simp) latest (by simp)
    simp only [updates, List.foldl_append, List.foldl_cons, List.foldl_nil,
      List.reverse_append, List.reverse_cons, List.reverse_nil, List.nil_append,
      List.map_cons, List.cons_append] at htracks hwindow ⊢
    apply And.intro
    · exact tracks_updateBy hval htracks (congrArg UInt64.toNat hwindow) htime
    · rw [updateBy_window]
      exact hwindow

-- ==== worth

/-- What a filter is worth after measurements of which `latest` is the last; `le` is the
order that it keeps the best of. A measurement counts as what a sample holds of it. -/
structure Sound (le : Nat → Nat → Prop) (window : UInt64) (measured : List (UInt64 × UInt64))
    (latest : UInt64 × UInt64) (m : MinMax) : Prop where
  is_measured : ∃ x ∈ measured, latest.1.toNat - x.1.toNat ≤ window.toNat
    ∧ m.get.toNat = min x.2.toNat maxHeld
  latest_le : le (min latest.2.toNat maxHeld) m.get.toNat
  le_bound : ∀ limit, (∀ x ∈ measured, latest.1.toNat - x.1.toNat ≤ window.toNat →
    le (min x.2.toNat maxHeld) limit) → le m.get.toNat limit
  times : m.best.time ≤ m.second.time ∧ m.second.time ≤ m.third.time ∧ m.third.time ≤ latest.1
  values : le m.third.value.toNat m.second.value.toNat ∧ le m.second.value.toNat m.best.value.toNat

theorem get_toNat : m.get.toNat = m.best.value.toNat := UInt32.toNat_toUInt64 _

variable (val) in
theorem Sound.of_tracks [LinearOrder α] {le : Nat → Nat → Prop}
    (hle : ∀ a b : UInt32, val a ≤ val b ↔ le a.toNat b.toNat) (hval : Function.Injective val)
    {window : UInt64} {measured : List (UInt64 × UInt64)} {latest : UInt64 × UInt64}
    (h : (kept val m).Tracks window.toNat (measured.reverse.map (held val)) (held val latest)) :
    m.Sound le window measured latest := by
  obtain ⟨x, hx, hbest⟩ := List.mem_map.mp h.sorted.best_mem
  have htime : x.1.toNat = m.best.time.toNat := congrArg Prod.fst hbest
  have hvalue : clampToU32 x.2 = m.best.value := hval (congrArg Prod.snd hbest)
  have hwithin : latest.1.toNat - x.1.toNat ≤ window.toNat := by
    rw [htime]
    exact h.best_within
  have hget : m.get.toNat = min x.2.toNat maxHeld := by
    rw [get_toNat, ← hvalue, clampToU32_toNat]
  constructor
  case is_measured => exact ⟨x, List.mem_reverse.mp hx, hwithin, hget⟩
  case latest_le =>
    rw [get_toNat, ← clampToU32_toNat, ← hle]
    exact h.newest_le
  case le_bound =>
    intro limit hlimit
    rw [hget]
    exact hlimit x (List.mem_reverse.mp hx) hwithin
  case times =>
    exact ⟨UInt64.le_iff_toNat_le.mpr h.sorted.second_time,
      UInt64.le_iff_toNat_le.mpr h.sorted.third_time, UInt64.le_iff_toNat_le.mpr h.third_time⟩
  case values =>
    exact ⟨(hle _ _).mp h.sorted.third_value, (hle _ _).mp h.sorted.second_value⟩

theorem sound_updateMax (m : MinMax) (before : List (UInt64 × UInt64))
    (latest : UInt64 × UInt64) (horder : NonDecreasing (before ++ [latest])) :
    (updates updateMax window m (before ++ [latest])).Sound (· ≤ ·) window (before ++ [latest])
      latest := by
  have hmax : updateMax
      = fun m now meas => m.updateBy (fun a b => a ≤ b) ⟨now, clampToU32 meas⟩ := by
    funext m now meas
    apply updateMax_eq
  rw [hmax]
  apply Sound.of_tracks UInt32.toNat (fun _ _ => Iff.rfl)
    (fun _ _ => UInt32.toNat_inj.mp)
  apply (tracks_updates _ window m before latest horder).1
  intro a b
  rw [decide_eq_true_eq, UInt32.le_iff_toNat_le]

theorem sound_updateMin (m : MinMax) (before : List (UInt64 × UInt64))
    (latest : UInt64 × UInt64) (horder : NonDecreasing (before ++ [latest])) :
    (updates updateMin window m (before ++ [latest])).Sound (· ≥ ·) window (before ++ [latest])
      latest := by
  have hmin : updateMin
      = fun m now meas => m.updateBy (fun a b => b ≤ a) ⟨now, clampToU32 meas⟩ := by
    funext m now meas
    apply updateMin_eq
  rw [hmin]
  apply Sound.of_tracks (fun value => OrderDual.toDual value.toNat) (fun _ _ => Iff.rfl)
    (fun _ _ => UInt32.toNat_inj.mp)
  apply (tracks_updates _ window m before latest horder).1
  intro a b
  rw [decide_eq_true_eq, UInt32.le_iff_toNat_le]
  exact Iff.rfl

/-- After every update the filters are worth the last window, of measurements cut at what a
sample holds. -/
theorem windowed_best (m : MinMax) (before : List (UInt64 × UInt64))
    (latest : UInt64 × UInt64) (horder : NonDecreasing (before ++ [latest])) :
    (updates updateMax window m (before ++ [latest])).Sound (· ≤ ·) window (before ++ [latest])
        latest
      ∧ (updates updateMin window m (before ++ [latest])).Sound (· ≥ ·) window
        (before ++ [latest]) latest :=
  ⟨sound_updateMax window m before latest horder, sound_updateMin window m before latest horder⟩

/-- A bandwidth of four gigabits per second, and then of nothing. -/
def someRates : List (UInt64 × UInt64) := [(1, 4000000000), (2, 0)]

theorem windowed_best_someRates :
    (updates updateMax 10 ⟨0, ⟨0, 0⟩, ⟨0, 0⟩, ⟨0, 0⟩⟩ (someRates ++ [(3, 7)])).Sound (· ≤ ·) 10
        (someRates ++ [(3, 7)]) (3, 7)
      ∧ (updates updateMin 10 ⟨0, ⟨0, 0⟩, ⟨0, 0⟩, ⟨0, 0⟩⟩ (someRates ++ [(3, 7)])).Sound (· ≥ ·) 10
        (someRates ++ [(3, 7)]) (3, 7) := by
  apply windowed_best
  unfold NonDecreasing
  decide

/-- Of a bandwidth of 2^32 bits per second the filter returns one bit less. -/
theorem clamped_measurement :
    ¬ ∃ x ∈ [((1 : UInt64), (4294967296 : UInt64))],
      (updates updateMax 10 ⟨0, ⟨0, 0⟩, ⟨0, 0⟩, ⟨0, 0⟩⟩ [(1, 4294967296)]).get = x.2 := by
  decide

end Eular.Utp.MinMax
