/-
Ageing: a stream that waits in strict mode is served within a bound.

Each round a stream waits lifts its counter, and `t` rounds lift it `s`
levels; at level 0 the round robin serves it within as many rounds as
there are streams. What needs care is the arithmetic: the number of
promotions is a `uint32_t` product that can wrap, and drop a stream that
had climbed. After a wrap the climb takes no longer than the first, and
lasts (`lifted_climb`); the counter itself stops below its limit, at a
value that is no wrap (`lifted_saturated`).
-/
import Eular.Utp.Scheduler.Proofs.Backlog

namespace Eular.Utp.StreamScheduler

open Lib

variable {cfg : StreamSchedulerConfig} {s : StreamScheduler} {st : SendStream} {r : Round}
  {a b p : Nat} {S : Finset Nat}

variable {rounds : List Round}

-- ==== promotions

/-- The promotions of a stream that has waited `w` rounds. -/
def lifted (cfg : StreamSchedulerConfig) (w : Nat) : Nat :=
  w / (agingThreshold cfg).toNat * (agingStep cfg).toNat % 4294967296

theorem toNat_promotions (cfg : StreamSchedulerConfig) (st : SendStream) :
    (promotions cfg st).toNat = lifted cfg st.schedWaitRounds.toNat := by
  unfold promotions lifted
  rw [UInt32.toNat_mul, UInt32.toNat_div]

theorem agingThreshold_bounds (cfg : StreamSchedulerConfig) :
    1 ≤ (agingThreshold cfg).toNat ∧ (agingThreshold cfg).toNat ≤ 65535 := by
  unfold agingThreshold
  split
  case isTrue hpos =>
    have hlt := UInt16.lt_iff_toNat_lt.mp hpos
    have hle := cfg.streamAgingThreshold.toNat_lt
    rw [UInt16.toNat_toUInt32]
    simp only [UInt16.toNat_ofNat] at hlt
    omega
  case isFalse => decide

theorem agingStep_bounds (cfg : StreamSchedulerConfig) :
    1 ≤ (agingStep cfg).toNat ∧ (agingStep cfg).toNat ≤ 255 := by
  unfold agingStep
  split
  case isTrue hpos =>
    have hlt := UInt8.lt_iff_toNat_lt.mp hpos
    have hle := cfg.streamAgingStep.toNat_lt
    rw [UInt8.toNat_toUInt32]
    simp only [UInt8.toNat_ofNat] at hlt
    omega
  case isFalse => decide

theorem saturated_product {t s : Nat} (ht : 1 ≤ t) (ht' : t ≤ 65535) (hs : 1 ≤ s)
    (hs' : s ≤ 255) : 7 ≤ 4294967295 / t * s % 4294967296 := by
  have hq : 65537 ≤ 4294967295 / t := (Nat.le_div_iff_mul_le ht).mpr (by omega)
  have hdiv := Nat.div_add_mod 4294967295 t
  have hm := Nat.mod_lt 4294967295 ht
  have hsplit := Nat.div_add_mod s t
  have hj := Nat.mod_lt s ht
  generalize 4294967295 / t = q at *
  generalize 4294967295 % t = m at *
  generalize hk : s / t = k at *
  generalize s % t = j at *
  -- one step is `k` turns of the threshold and `j` more
  have hproduct : q * s + k * (1 + m) = 4294967296 * k + q * j := by
    calc q * s + k * (1 + m) = (t * q + m + 1) * k + q * j := by rw [← hsplit]; ring
      _ = 4294967296 * k + q * j := by rw [hdiv]
  have hover : k * (1 + m) ≤ s := by
    calc k * (1 + m) ≤ k * t := Nat.mul_le_mul_left k (by omega)
      _ ≤ s := by rw [Nat.mul_comm]; omega
  have hqj : q * j + q ≤ 4294967295 := by
    calc q * j + q = q * (j + 1) := by ring
      _ ≤ q * t := Nat.mul_le_mul_left q hj
      _ ≤ 4294967295 := by rw [Nat.mul_comm]; omega
  rcases Nat.eq_zero_or_pos j with rfl | hpos
  · have hk1 : 1 ≤ k := by
      rcases Nat.eq_zero_or_pos k with rfl | hk1
      · simp at hsplit; omega
      · exact hk1
    have hover1 : 1 ≤ k * (1 + m) := Nat.mul_pos hk1 (by omega)
    omega
  · have hq1 : q ≤ q * j := Nat.le_mul_of_pos_right q hpos
    omega

theorem lifted_saturated (cfg : StreamSchedulerConfig) (hp : p ≤ 7) :
    p ≤ lifted cfg 4294967295 :=
  hp.trans (saturated_product (agingThreshold_bounds cfg).1 (agingThreshold_bounds cfg).2
    (agingStep_bounds cfg).1 (agingStep_bounds cfg).2)

/-- The rounds that lift a stream `p` levels. -/
def climb (p t s : Nat) : Nat := (p + s - 1) / s * t

theorem climb_levels {s : Nat} (hs : 1 ≤ s) (hp : p ≤ 7) :
    p ≤ (p + s - 1) / s * s ∧ (p + s - 1) / s ≤ 7 := by
  have hdiv := Nat.div_add_mod (p + s - 1) s
  have hmod := Nat.mod_lt (p + s - 1) hs
  constructor
  · rw [Nat.mul_comm]
    omega
  · have hle : (p + s - 1) / s ≤ p + s - 1 - (s - 1) := by
      rw [Nat.div_le_iff_le_mul_add_pred hs]
      rcases Nat.eq_zero_or_pos p with rfl | hp1
      · omega
      · have : p ≤ s * p := Nat.le_mul_of_pos_left p hs
        have hsub : p + s - 1 - (s - 1) = p := by omega
        rw [hsub]
        omega
    omega

/-- From a counter whose promotions are short of `p`, the climb takes them
there, and they stay. -/
theorem lifted_climb (cfg : StreamSchedulerConfig) {v i : Nat} (hp : p ≤ 7)
    (hshort : ¬ p ≤ lifted cfg v) (hi : i < 2 ^ 24) :
    p ≤ lifted cfg
      (min (v + climb p (agingThreshold cfg).toNat (agingStep cfg).toNat + i) 4294967295) := by
  by_cases hlimit : v + climb p (agingThreshold cfg).toNat (agingStep cfg).toNat + i
      < 4294967295
  case neg =>
    rw [min_eq_right (Nat.not_lt.mp hlimit)]
    exact lifted_saturated cfg hp
  case pos =>
    rw [min_eq_left hlimit.le]
    obtain ⟨ht, -⟩ := agingThreshold_bounds cfg
    obtain ⟨hs, hs'⟩ := agingStep_bounds cfg
    obtain ⟨hlevels, hfew⟩ := climb_levels hs hp
    unfold lifted climb at *
    generalize (agingThreshold cfg).toNat = t at *
    generalize (agingStep cfg).toNat = s at *
    generalize (p + s - 1) / s = k at *
    -- the whole thresholds between the two counters
    obtain ⟨e, he⟩ : ∃ e, (v + k * t + i) / t = v / t + e :=
      Nat.exists_eq_add_of_le (Nat.div_le_div_right (by omega))
    have hke : k ≤ e := by
      have : v / t + k ≤ v / t + e := by
        rw [← he, ← Nat.add_mul_div_right v k ht]
        exact Nat.div_le_div_right (by omega)
      omega
    have hek : e ≤ k + i := by
      have : v / t + e ≤ v / t + (k + i) := by
        rw [← he, ← Nat.add_mul_div_right v (k + i) ht]
        refine Nat.div_le_div_right ?_
        have : i ≤ i * t := Nat.le_mul_of_pos_right i ht
        rw [Nat.add_mul]
        omega
      omega
    have hlow : p ≤ e * s := hlevels.trans (Nat.mul_le_mul_right s hke)
    have hhigh : e * s ≤ (7 + 2 ^ 24) * 255 := Nat.mul_le_mul (by omega) hs'
    rw [he, Nat.add_mul]
    omega

-- ==== the counter

/-- A stream's counter in a table. -/
def waitIn (t : StreamMap) (b : Nat) : Nat :=
  ((t.find b).map fun st => st.schedWaitRounds.toNat).getD 0

theorem waitIn_of_mem {t : StreamMap} (hst : st ∈ t.entries) :
    waitIn t st.id = st.schedWaitRounds.toNat := by
  rw [waitIn, StreamMap.find_of_mem hst]
  rfl

/-- The stream `b` of base priority `p` has work that may go in a round of
pick and update; what else happens leaves its counter alone. -/
structure Waits (cfg : StreamSchedulerConfig) (b p : Nat) (S : Finset Nat) (s : StreamScheduler)
    (r : Round) : Prop where
  cfg : r.cfg = cfg
  outcome : r.outcome = .ok
  streams : ∀ x ∈ r.before.entries, x.id ∈ S
  before : ∃ st ∈ r.before.entries, st.id = b ∧ st.basePriority.toNat = p
    ∧ st.writable r.cfg r.conn r.nowUs = true
  after : ∃ st ∈ r.after.entries, st.id = b ∧ st.hasPendingSendWork = true
  counter : waitIn r.before b = waitIn s.streams b
  counter' : waitIn r.after b = waitIn r.before b

theorem aged_of_ne {x : Nat} (hwork : st.hasPendingSendWork = true) (hne : st.id ≠ x) :
    (aged x st).schedWaitRounds.toNat = min (st.schedWaitRounds.toNat + 1) 4294967295 := by
  unfold aged
  rw [if_neg (by simp [hwork]), if_neg hne]
  have hlimit := st.schedWaitRounds.toNat_lt
  split
  case isTrue hlt =>
    have hlt := UInt32.lt_iff_toNat_lt.mp hlt
    simp only [UInt32.toNat_ofNat] at hlt
    rw [UInt32.toNat_add, UInt32.toNat_one]
    omega
  case isFalse hge =>
    have hge := UInt32.le_iff_toNat_le.mp (UInt32.not_lt.mp hge)
    simp only [UInt32.toNat_ofNat] at hge
    omega

theorem Waits.several (hw : Waits cfg b p S s r) {x : SendStream}
    (hx : x ∈ r.before.entries) (hne : x.id ≠ b) : 1 < r.after.entries.length := by
  obtain ⟨st, hst, rfl, -, -⟩ := hw.before
  have hsub : [x.id, st.id] ⊆ r.after.entries.map SendStream.id := by
    intro id hid
    refine r.kept ?_
    rcases List.mem_pair.mp hid with rfl | rfl
    · exact List.mem_map_of_mem hx
    · exact List.mem_map_of_mem hst
  have hle := (List.subperm_of_subset (by simpa using hne) hsub).length_le
  rwa [List.length_map] at hle

theorem Waits.turn (hw : Waits cfg b p S s r) (hmode : cfg.streamSchedulerMode = .strict)
    (hnot : ¬ Serves b s r) :
    waitIn (s.turn r).streams b = min (waitIn s.streams b + 1) 4294967295 := by
  obtain ⟨st, hst, hid, -, hwritable⟩ := hw.before
  obtain ⟨st', hst', hid', hwork⟩ := hw.after
  have hcand : st ∈ ({ s with streams := r.before } : StreamScheduler).candidates
      r.cfg r.conn r.nowUs := mem_candidates.mpr ⟨hst, hwritable⟩
  obtain ⟨x, s', hx, hpick⟩ : ∃ x s', x ∈ r.before.entries ∧ s.picked r = (some x, s') := by
    unfold picked
    rcases pickNextWritableStream_cases hcand with ⟨-, heq⟩ | ⟨-, heq⟩
    · exact ⟨st, _, hst, heq⟩
    · obtain ⟨level, x, hx, -, hstrict⟩ := pickNextWritableStreamStrict_cases hcand
      rw [heq, pickByMode, hw.cfg, hmode]
      rw [hw.cfg] at hx hstrict
      exact ⟨x, _, (mem_candidates.mp (mem_byPriority.mp hx).1).1, hstrict⟩
  have hne : x.id ≠ b := fun heq => hnot (by rw [Serves, hpick]; simp [heq])
  have hstreams : (s.turn r).streams
      = r.after.update (aged x.id) (aged_id x.id) := by
    unfold StreamScheduler.turn
    rw [hpick, hw.outcome]
    simp only [updateStrictAgingState, hw.cfg, hmode, ne_eq, not_true_eq_false, if_false,
      if_neg (Nat.not_le.mpr (hw.several hx hne))]
    split
    · rfl
    · rfl
  have haged : aged x.id st' ∈ (r.after.update (aged x.id) (aged_id x.id)).entries :=
    List.mem_map_of_mem hst'
  have hcounter := waitIn_of_mem haged
  rw [aged_id, hid', aged_of_ne hwork (by rw [hid']; exact hne.symm), ← waitIn_of_mem hst', hid',
    hw.counter', hw.counter] at hcounter
  rw [hstreams, hcounter]

/-- Counting on from a counter that stops at `limit`. -/
theorem min_add_add (w k i limit : Nat) :
    min (min (w + k) limit + i) limit = min (w + (k + i)) limit := by
  omega

theorem waitIn_run (hmode : cfg.streamSchedulerMode = .strict)
    (hrounds : Meets turn (Waits cfg b p S) s rounds)
    (hnot : ¬ Happens turn (Serves b) s rounds) (hlimit : waitIn s.streams b ≤ 4294967295) :
    waitIn (run turn s rounds).streams b
      = min (waitIn s.streams b + rounds.length) 4294967295 := by
  induction rounds generalizing s with
  | nil => rw [run_nil, List.length_nil, Nat.add_zero, min_eq_left hlimit]
  | cons r rounds ih =>
    obtain ⟨hserves, hrest⟩ := not_or.mp hnot
    have hturn := hrounds.1.turn hmode hserves
    rw [run_cons, ih hrounds.2 hrest (by rw [hturn]; exact min_le_right _ _), hturn,
      List.length_cons, min_add_add, Nat.add_comm 1]

-- ==== at the top

theorem Waits.top (hw : Waits cfg b p S s r) (hmode : cfg.streamSchedulerMode = .strict)
    (htop : p ≤ lifted cfg (waitIn s.streams b)) :
    Serves b s r ∨ gap S ((s.turn r).strictRrCursor 0) b < gap S (s.strictRrCursor 0) b := by
  obtain ⟨st, hst, rfl, hbase, hwritable⟩ := hw.before
  have hcand : st ∈ ({ s with streams := r.before } : StreamScheduler).candidates
      r.cfg r.conn r.nowUs := mem_candidates.mpr ⟨hst, hwritable⟩
  have hlevel : st ∈ ({ s with streams := r.before } : StreamScheduler).byPriority
      r.cfg r.conn r.nowUs 0 := by
    refine mem_byPriority.mpr ⟨hcand, ?_⟩
    unfold effectivePriority
    rw [if_pos]
    rw [UInt32.le_iff_toNat_le, toNat_promotions, UInt8.toNat_toUInt32, hbase, hw.cfg,
      ← waitIn_of_mem hst, hw.counter]
    exact htop
  rw [(turn_cursors s r).1]
  unfold Serves picked
  rcases pickNextWritableStream_cases hcand with ⟨-, heq⟩ | ⟨-, heq⟩
  · exact .inl (by rw [heq]; rfl)
  · obtain ⟨x, hx, hturn, hpick⟩ := pickNextWritableStreamStrict_top hlevel
    rw [heq, pickByMode, show r.cfg.streamSchedulerMode = .strict by rw [hw.cfg, hmode]]
    simp only [hpick]
    rcases nextAfter_ahead hturn (List.mem_map_of_mem (f := SendStream.id) hlevel) with
      hid | hahead
    · exact .inl (by simp [hid])
    · have hxS := hw.streams x (mem_candidates.mp (mem_byPriority.mp hx).1).1
      simp only [Function.update_self]
      exact .inr (gap_lt_gap hxS hahead)

theorem top_served (hmode : cfg.streamSchedulerMode = .strict)
    (hrounds : Meets turn (Waits cfg b p S) s rounds) (hlimit : waitIn s.streams b ≤ 4294967295)
    (htop : ∀ i < rounds.length, p ≤ lifted cfg (min (waitIn s.streams b + i) 4294967295))
    (hlen : gap S (s.strictRrCursor 0) b < rounds.length) :
    Happens turn (Serves b) s rounds := by
  induction rounds generalizing s with
  | nil => exact absurd hlen (Nat.not_lt_zero _)
  | cons r rounds ih =>
    have hnow := htop 0 (Nat.succ_pos _)
    rw [Nat.add_zero, min_eq_left hlimit] at hnow
    by_cases hserves : Serves b s r
    · exact .inl hserves
    · have hturn := hrounds.1.turn hmode hserves
      have hgap := (hrounds.1.top hmode hnow).resolve_left hserves
      refine .inr (ih hrounds.2 (by rw [hturn]; exact min_le_right _ _) (fun i hi => ?_) ?_)
      · have hlater := htop (i + 1) (Nat.succ_lt_succ hi)
        rwa [hturn, min_add_add, Nat.add_comm 1]
      · rw [List.length_cons] at hlen
        omega

-- ==== the bound

/-- The rounds within which a stream of priority `p` is served, with `n`
streams: its turn at the top, at worst cut short by a wrap, the climb, and
its turn again. With so many streams that a turn outlasts the time to the
next wrap, it is the counter's limit and a turn. -/
def agingBound (p t s n : Nat) : Nat :=
  if n ≤ 2 ^ 24 then climb p t s + 2 * n else 2 ^ 32 + n

theorem waitIn_lt (t : StreamMap) (b : Nat) : waitIn t b ≤ 4294967295 := by
  unfold waitIn
  cases t.find b with
  | none => exact Nat.zero_le _
  | some st => exact Nat.le_of_lt_succ st.schedWaitRounds.toNat_lt

/-- A stream at the top, `k` rounds from now and then long enough. -/
theorem served_after (hmode : cfg.streamSchedulerMode = .strict) (hb : b ∈ S)
    (hrounds : Meets turn (Waits cfg b p S) s rounds) (k : Nat)
    (hlen : k + S.card ≤ rounds.length)
    (htop : ∀ i < S.card, p ≤ lifted cfg (min (waitIn s.streams b + (k + i)) 4294967295)) :
    Happens turn (Serves b) s rounds := by
  obtain ⟨xs, ys, rfl, rfl⟩ : ∃ xs ys, rounds = xs ++ ys ∧ xs.length = k :=
    ⟨rounds.take k, rounds.drop k, (List.take_append_drop k rounds).symm,
      List.length_take_of_le (by omega)⟩
  rw [List.length_append] at hlen
  obtain ⟨hxs, hys⟩ := (meets_append s xs ys).mp hrounds
  by_cases hbefore : Happens turn (Serves b) s xs
  · exact hbefore.append_left
  have hwait := waitIn_run hmode hxs hbefore (waitIn_lt _ _)
  obtain ⟨zs, rest, rfl, hzs⟩ : ∃ zs rest, ys = zs ++ rest ∧ zs.length = S.card :=
    ⟨ys.take S.card, ys.drop S.card, (List.take_append_drop _ ys).symm,
      List.length_take_of_le (by omega)⟩
  refine Happens.append_right (Happens.append_left ?_)
  refine top_served hmode ((meets_append _ zs rest).mp hys).1 (waitIn_lt _ _) (fun i hi => ?_) ?_
  · have h := htop i (by omega)
    rw [hwait]
    rwa [show min (min (waitIn s.streams b + xs.length) 4294967295 + i) 4294967295
      = min (waitIn s.streams b + (xs.length + i)) 4294967295 from min_add_add ..]
  · rw [hzs]
    exact gap_lt_card hb _

theorem strict_served (hmode : cfg.streamSchedulerMode = .strict) (hb : b ∈ S)
    (hrounds : Meets turn (Waits cfg b p S) s rounds)
    (hlen : agingBound p (agingThreshold cfg).toNat (agingStep cfg).toNat S.card
      ≤ rounds.length) :
    Happens turn (Serves b) s rounds := by
  have hcard : 0 < S.card := Finset.card_pos.mpr ⟨b, hb⟩
  have hp : p ≤ 7 := by
    cases rounds with
    | nil =>
      unfold agingBound at hlen
      rw [List.length_nil] at hlen
      split at hlen <;> omega
    | cons r rounds =>
      obtain ⟨st, -, -, rfl, -⟩ := hrounds.1.before
      exact basePriority_le st
  unfold agingBound at hlen
  split at hlen
  case isFalse =>
    -- the counter is at its limit by then
    refine served_after hmode hb hrounds (2 ^ 32) hlen fun i _ => ?_
    rw [min_eq_right (by omega)]
    exact lifted_saturated cfg hp
  case isTrue hfew =>
    by_cases htop : ∀ i < S.card, p ≤ lifted cfg (min (waitIn s.streams b + i) 4294967295)
    · refine served_after hmode hb hrounds 0 (by omega) fun i hi => ?_
      rw [Nat.zero_add]
      exact htop i hi
    · push Not at htop
      obtain ⟨j, hj, hshort⟩ := htop
      -- the climb starts where the promotions fall short
      refine served_after hmode hb hrounds
        (j + climb p (agingThreshold cfg).toNat (agingStep cfg).toNat) (by omega) fun i hi => ?_
      have h := lifted_climb cfg hp (Nat.not_le.mpr hshort) (i := i) (by omega)
      rw [Nat.add_assoc, min_add_add] at h
      rwa [Nat.add_assoc j]

-- ==== round robin

/-- The stream `b` competes in `level` in a round of strict mode. -/
structure Competes (b level : Nat) (r : Round) : Prop where
  mode : r.cfg.streamSchedulerMode = .strict
  before : ∃ st ∈ r.before.entries, st.id = b ∧ st.writable r.cfg r.conn r.nowUs = true
    ∧ effectivePriority r.cfg st = level

/-- A round in which `b` competes serves somebody of a level, in turn, or
`b` alone. -/
theorem Competes.cases {level : Nat} (hc : Competes b level r) (s : StreamScheduler) :
    Serves b s r ∧ r.before.entries.length = 1
      ∨ ∃ served x, x ∈ r.before.entries ∧ effectivePriority r.cfg x = served
          ∧ (s.picked r).1 = some x
          ∧ (s.turn r).strictRrCursor = Function.update s.strictRrCursor served x.id
          ∧ (served = level → x.id = b ∨ Ahead (s.strictRrCursor level) x.id b) := by
  obtain ⟨st, hst, rfl, hwritable, hlevel⟩ := hc.before
  have hcand : st ∈ ({ s with streams := r.before } : StreamScheduler).candidates
      r.cfg r.conn r.nowUs := mem_candidates.mpr ⟨hst, hwritable⟩
  rw [(turn_cursors s r).1]
  unfold Serves picked
  rcases pickNextWritableStream_cases hcand with ⟨hone, heq⟩ | ⟨-, heq⟩
  · exact .inl ⟨by rw [heq]; rfl, by rw [show r.before.entries = [st] from hone]; rfl⟩
  · obtain ⟨served, x, hx, hturn, hpick⟩ := pickNextWritableStreamStrict_cases hcand
    obtain ⟨hxcand, hserved⟩ := mem_byPriority.mp hx
    rw [heq, pickByMode, hc.mode]
    simp only [hpick]
    refine .inr ⟨served, x, (mem_candidates.mp hxcand).1, hserved, rfl, rfl, ?_⟩
    rintro rfl
    exact nextAfter_ahead hturn (List.mem_map_of_mem (f := SendStream.id)
      (mem_byPriority.mpr ⟨hcand, hlevel⟩))

/-- The stream `a` is picked from `level`. -/
def ServesAt (a level : Nat) (s : StreamScheduler) (r : Round) : Prop :=
  ∃ st, (s.picked r).1 = some st ∧ st.id = a ∧ effectivePriority r.cfg st = level

/-- Between two turns of `a` in a level, each `b` that competes there has
one: what is behind is the way from `a` to the cursor. -/
theorem round_robin {level : Nat} (hne : a ≠ b) {last : Round}
    (hcursor : s.strictRrCursor level = a ∨ Ahead a (s.strictRrCursor level) b)
    (hrounds : Meets turn (fun _ r => Competes b level r) s (rounds ++ [last]))
    (hlast : ServesAt a level (run turn s rounds) last) :
    Happens turn (Serves b) s rounds := by
  have hahead : ∀ {s : StreamScheduler} {x : Nat},
      s.strictRrCursor level = a ∨ Ahead a (s.strictRrCursor level) b →
        Ahead (s.strictRrCursor level) x b → Ahead a x b := fun h hx => by
    rcases h with h | h
    · rwa [h] at hx
    · exact h.trans hx
  induction rounds generalizing s with
  | nil =>
    obtain ⟨x, hpick, rfl, hlevel⟩ := hlast
    rw [run_nil] at hpick
    rcases hrounds.1.cases s with ⟨hserves, -⟩ | ⟨served, y, -, hserved, hy, -, hturn⟩
    · rw [Serves, hpick] at hserves
      exact absurd (Option.some.inj hserves) hne
    · obtain rfl := Option.some.inj (hpick.symm.trans hy)
      rcases hturn (hserved.symm.trans hlevel) with hid | hx
      · exact absurd hid hne
      · exact absurd (hahead hcursor hx) (not_ahead_cursor _ _)
  | cons r rounds ih =>
    by_cases hserves : Serves b s r
    · exact .inl hserves
    refine .inr (ih ?_ hrounds.2 hlast)
    rcases hrounds.1.cases s with ⟨hserved, -⟩ | ⟨served, y, -, hserved, hy, hturn, hnext⟩
    · exact absurd hserved hserves
    · rw [hturn]
      by_cases hsame : served = level
      · subst hsame
        rw [Function.update_self]
        rcases hnext rfl with hid | hx
        · exact absurd (by rw [Serves, hy]; simp [hid]) hserves
        · exact .inr (hahead hcursor hx)
      · rwa [Function.update_of_ne (Ne.symm hsame)]

-- ==== results

/-- Strict mode with ageing: a stream that always has work is served
within a bound, and equals take turns. -/
theorem strict_aging :
    (∀ cfg, cfg.streamSchedulerMode = .strict → ∀ p (S : Finset Nat), ∀ b ∈ S,
      ∀ s rounds, Meets turn (Waits cfg b p S) s rounds →
        agingBound p (agingThreshold cfg).toNat (agingStep cfg).toNat S.card ≤ rounds.length →
          Happens turn (Serves b) s rounds)
    ∧ ∀ a b level, a ≠ b → ∀ s first rounds last,
      Meets turn (fun _ r => Competes b level r) s (first :: (rounds ++ [last])) →
        ServesAt a level s first → ServesAt a level (run turn s (first :: rounds)) last →
          Happens turn (Serves b) (s.turn first) rounds := by
  refine ⟨fun cfg hmode p S b hb s rounds hrounds hlen =>
    strict_served hmode hb hrounds hlen, fun a b level hne s first rounds last hrounds hfirst
      hlast => ?_⟩
  refine round_robin hne (.inl ?_) hrounds.2 hlast
  obtain ⟨x, hpick, rfl, hlevel⟩ := hfirst
  rcases hrounds.1.cases s with ⟨hserves, -⟩ | ⟨served, y, -, hserved, hy, hturn, -⟩
  · rw [Serves, hpick] at hserves
    exact absurd (Option.some.inj hserves) hne
  · obtain rfl := Option.some.inj (hpick.symm.trans hy)
    rw [hturn, ← hserved, hlevel, Function.update_self]

instance : Decidable (Waits cfg b p S s r) :=
  decidable_of_iff
    (r.cfg = cfg ∧ r.outcome = .ok ∧ (∀ x ∈ r.before.entries, x.id ∈ S)
      ∧ (∃ st ∈ r.before.entries, st.id = b ∧ st.basePriority.toNat = p
        ∧ st.writable r.cfg r.conn r.nowUs = true)
      ∧ (∃ st ∈ r.after.entries, st.id = b ∧ st.hasPendingSendWork = true)
      ∧ waitIn r.before b = waitIn s.streams b ∧ waitIn r.after b = waitIn r.before b)
    ⟨fun ⟨h₁, h₂, h₃, h₄, h₅, h₆, h₇⟩ => ⟨h₁, h₂, h₃, h₄, h₅, h₆, h₇⟩,
      fun ⟨h₁, h₂, h₃, h₄, h₅, h₆, h₇⟩ => ⟨h₁, h₂, h₃, h₄, h₅, h₆, h₇⟩⟩

/-- Two streams of the highest priority, and one of the lowest that has
waited `w` rounds. -/
def unequal (w : UInt32) : StreamMap where
  entries :=
    [{ id := 0, priority := 0, sendQueuedBytes := 2000 },
      { id := 4, priority := 0, sendQueuedBytes := 2000 },
      { id := 8, priority := 7, sendQueuedBytes := 2000, schedWaitRounds := w }]
  distinct := by simp

/-- A round of the three, with a threshold of 1 and a step of 4. -/
def contest (w : UInt32) : Round where
  cfg := { streamAgingThreshold := 1, streamAgingStep := 4 }
  conn := {}
  nowUs := 0
  before := unequal w
  after := unequal w
  kept := List.Subset.refl _

theorem strict_aging_contest :
    Happens turn (Serves 8) { streams := unequal 0 } ([0, 1, 2, 3, 0, 1, 2, 0].map contest)
      ∧ Happens turn (Serves 0) (turn { streams := unequal 0 } (contest 0)) [contest 0] := by
  constructor
  · exact strict_aging.1 (contest 0).cfg rfl 7 {0, 4, 8} 8 (by decide) _ _ (by decide +kernel)
      (by decide)
  · refine strict_aging.2 4 0 0 (by decide) _ (contest 0) [contest 0] (contest 0) ?_ ?_ ?_
    · exact meets_of_forall (fun r hr _ => by
        obtain rfl : r = contest 0 := by simpa using hr
        exact ⟨rfl, by decide⟩) _
    · exact ⟨{ id := 4, priority := 0, sendQueuedBytes := 2000 }, by decide +kernel, rfl, by decide⟩
    · exact ⟨{ id := 4, priority := 0, sendQueuedBytes := 2000 }, by decide +kernel, rfl, by decide⟩

end Eular.Utp.StreamScheduler
