/-
What each picker returns.

A round-robin pick is the turn of one of its candidates
(`pickRoundRobinStream_turn`); the disabled mode makes one such pick, the
strict mode one in the first level that has a candidate. The visits of
the deficit mode are in the order of turns too, but a visit may pass:
`drrVisit_append` takes them apart, and what a visit leaves alone is a
frame lemma.
-/
import Eular.Lib.Run
import Eular.Utp.Scheduler.Scheduler

namespace Eular.Utp.StreamScheduler

open Lib

variable {cfg : StreamSchedulerConfig} {conn : SendReadiness} {nowUs : Nat}
  {s : StreamScheduler} {l : List SendStream} {st b : SendStream} {cursor : Nat}

variable {prio : Nat} {levels : List Nat}

theorem mem_candidates :
    st ∈ s.candidates cfg conn nowUs ↔
      st ∈ s.streams.entries ∧ st.writable cfg conn nowUs = true := List.mem_filter

theorem mem_byPriority :
    st ∈ s.byPriority cfg conn nowUs prio ↔
      st ∈ s.candidates cfg conn nowUs ∧ effectivePriority cfg st = prio := by
  simp [byPriority]

theorem eq_of_id (hst : st ∈ s.streams.entries) (hb : b ∈ s.streams.entries)
    (hid : st.id = b.id) : st = b :=
  List.inj_on_of_nodup_map s.streams.distinct hst hb hid

-- ==== the round-robin pick

theorem pickRoundRobinStream_turn (hsub : ∀ x ∈ l, x ∈ s.streams.entries) (hb : b ∈ l)
    (cursor : Nat) :
    ∃ st ∈ l, nextAfter (l.map SendStream.id) cursor = some st.id
      ∧ pickRoundRobinStream s.streams l cursor = (some st, st.id) := by
  obtain ⟨id, hid⟩ := exists_nextAfter (List.mem_map_of_mem (f := SendStream.id) hb) cursor
  obtain ⟨st, hst, rfl⟩ := List.mem_map.mp (nextAfter_mem hid)
  refine ⟨st, hst, hid, ?_⟩
  unfold pickRoundRobinStream
  rw [hid]
  simp only [StreamMap.find_of_mem (hsub st hst)]

theorem pickRoundRobinStream_nil (t : StreamMap) (cursor : Nat) :
    pickRoundRobinStream t [] cursor = (none, cursor) := by
  rfl

-- ==== disabled

theorem pickNextWritableStreamDisabled_turn (hb : b ∈ s.candidates cfg conn nowUs) :
    ∃ st ∈ s.candidates cfg conn nowUs,
      (s.pickNextWritableStreamDisabled cfg conn nowUs).1 = some st := by
  obtain ⟨st, hst, -, hpick⟩ := pickRoundRobinStream_turn
    (fun x hx => (mem_candidates.mp hx).1) hb s.disabledRrCursor
  exact ⟨st, hst, by simp only [pickNextWritableStreamDisabled, hpick]⟩

-- ==== strict

theorem pickFromLevels_empty
    (hempty : s.byPriority cfg conn nowUs prio = []) :
    s.pickFromLevels cfg conn nowUs (prio :: levels) = s.pickFromLevels cfg conn nowUs levels := by
  simp only [pickFromLevels, hempty, pickRoundRobinStream_nil, Function.update_eq_self]

theorem pickFromLevels_turn
    (hb : b ∈ s.byPriority cfg conn nowUs prio) :
    ∃ st ∈ s.byPriority cfg conn nowUs prio,
      nextAfter ((s.byPriority cfg conn nowUs prio).map SendStream.id) (s.strictRrCursor prio)
          = some st.id
        ∧ s.pickFromLevels cfg conn nowUs (prio :: levels) = (some st,
            { s with strictRrCursor := Function.update s.strictRrCursor prio st.id }) := by
  obtain ⟨st, hst, hturn, hpick⟩ := pickRoundRobinStream_turn
    (fun x hx => (mem_candidates.mp (mem_byPriority.mp hx).1).1) hb (s.strictRrCursor prio)
  exact ⟨st, hst, hturn, by simp only [pickFromLevels, hpick]⟩

theorem pickFromLevels_cases (hprio : prio ∈ levels)
    (hb : b ∈ s.byPriority cfg conn nowUs prio) :
    ∃ level, ∃ st ∈ s.byPriority cfg conn nowUs level,
      nextAfter ((s.byPriority cfg conn nowUs level).map SendStream.id) (s.strictRrCursor level)
          = some st.id
        ∧ s.pickFromLevels cfg conn nowUs levels = (some st,
            { s with strictRrCursor := Function.update s.strictRrCursor level st.id }) := by
  induction levels with
  | nil => cases hprio
  | cons level levels ih =>
    cases hlevel : s.byPriority cfg conn nowUs level with
    | nil =>
      rw [pickFromLevels_empty hlevel]
      refine ih ((List.mem_cons.mp hprio).resolve_left ?_)
      rintro rfl
      simp [hlevel] at hb
    | cons x xs =>
      have hx : x ∈ s.byPriority cfg conn nowUs level := by simp [hlevel]
      exact ⟨level, pickFromLevels_turn hx⟩

theorem basePriority_le (st : SendStream) : st.basePriority.toNat ≤ 7 := by
  change (if st.priority ≤ 7 then st.priority else 7).toNat ≤ 7
  split
  case isTrue hle => exact UInt8.le_iff_toNat_le.mp hle
  case isFalse => decide

theorem effectivePriority_lt (cfg : StreamSchedulerConfig) (st : SendStream) :
    effectivePriority cfg st < kMaxStreamPriorityLevels := by
  have hbase := basePriority_le st
  unfold effectivePriority kMaxStreamPriorityLevels
  split <;> omega

theorem pickNextWritableStreamStrict_cases (hb : b ∈ s.candidates cfg conn nowUs) :
    ∃ level, ∃ st ∈ s.byPriority cfg conn nowUs level,
      nextAfter ((s.byPriority cfg conn nowUs level).map SendStream.id) (s.strictRrCursor level)
          = some st.id
        ∧ s.pickNextWritableStreamStrict cfg conn nowUs = (some st,
            { s with strictRrCursor := Function.update s.strictRrCursor level st.id }) :=
  pickFromLevels_cases (List.mem_range.mpr (effectivePriority_lt cfg b))
    (mem_byPriority.mpr ⟨hb, rfl⟩)

theorem pickNextWritableStreamStrict_top (hb : b ∈ s.byPriority cfg conn nowUs 0) :
    ∃ st ∈ s.byPriority cfg conn nowUs 0,
      nextAfter ((s.byPriority cfg conn nowUs 0).map SendStream.id) (s.strictRrCursor 0)
          = some st.id
        ∧ s.pickNextWritableStreamStrict cfg conn nowUs = (some st,
            { s with strictRrCursor := Function.update s.strictRrCursor 0 st.id }) :=
  @pickFromLevels_turn cfg conn nowUs s b 0 [1, 2, 3, 4, 5, 6, 7] hb

-- ==== visits

theorem drrVisit_append (s : StreamScheduler) (xs ys : List SendStream) :
    s.drrVisit cfg (xs ++ ys) = match s.drrVisit cfg xs with
      | (some st, s') => (some st, s')
      | (none, s') => s'.drrVisit cfg ys := by
  induction xs generalizing s with
  | nil => rfl
  | cons x xs ih =>
    simp only [List.cons_append, drrVisit]
    split
    · rfl
    · exact ih _

theorem drrVisit_some {s' : StreamScheduler} (h : s.drrVisit cfg l = (some st, s')) :
    st ∈ l ∧ s'.drrCursor = st.id := by
  induction l generalizing s with
  | nil => simp [drrVisit] at h
  | cons x l ih =>
    simp only [drrVisit] at h
    split at h
    · obtain ⟨hx, rfl⟩ := Prod.mk.inj h
      obtain rfl := Option.some.inj hx
      exact ⟨List.mem_cons_self, rfl⟩
    · obtain ⟨hst, hcursor⟩ := ih h
      exact ⟨List.mem_cons_of_mem _ hst, hcursor⟩

theorem drrVisit_frame {id : Nat} (hothers : ∀ x ∈ l, x.id ≠ id) :
    (s.drrVisit cfg l).2.drrDeficit id = s.drrDeficit id := by
  induction l generalizing s with
  | nil => rfl
  | cons x l ih =>
    have hx := hothers x List.mem_cons_self
    simp only [drrVisit]
    split
    · simp only [Function.update_of_ne hx.symm, refill_drrDeficit_of_ne cfg s hx]
    · rw [ih fun y hy => hothers y (List.mem_cons_of_mem _ hy),
        refill_drrDeficit_of_ne cfg s hx]

theorem mem_drrOrder : st ∈ s.drrOrder cfg conn nowUs ↔ st ∈ s.candidates cfg conn nowUs := by
  simp [drrOrder]

theorem pairwise_drrOrder (s : StreamScheduler) :
    (s.drrOrder cfg conn nowUs).Pairwise fun x y => Ahead s.drrCursor x.id y.id := by
  refine pairwise_roundFrom (pairwise_lt_sortBy ?_) s.drrCursor
  exact s.streams.distinct.sublist (List.filter_sublist.map _)

end Eular.Utp.StreamScheduler
