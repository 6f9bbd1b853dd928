/-
How long a backlogged stream waits in deficit mode.

The rank of a waiting stream is lexicographic, as one number: the visits
its deficit still needs, and within each the streams ahead of it. A cap
that covers the stream's need makes every turn lower the rank; a cap that
does not keeps the stream waiting for ever.
-/
import Eular.Utp.Scheduler.Proofs.WorkConserving

namespace Eular.Utp.StreamScheduler

open Lib

variable {cfg : StreamSchedulerConfig} {conn : SendReadiness} {nowUs : Nat}
  {s : StreamScheduler} {l : List SendStream} {st : SendStream} {r : Round} {b : Nat}

-- ==== what a turn is

/-- The turn picks the stream `b`. -/
def Serves (b : Nat) (s : StreamScheduler) (r : Round) : Prop :=
  (s.picked r).1.map SendStream.id = some b

instance (b : Nat) (s : StreamScheduler) (r : Round) : Decidable (Serves b s r) :=
  inferInstanceAs (Decidable (_ = _))

@[simp] theorem pruneSchedulerState_streams (s : StreamScheduler) :
    s.pruneSchedulerState.streams = s.streams := rfl

@[simp] theorem pruneSchedulerState_strictRrCursor (s : StreamScheduler) :
    s.pruneSchedulerState.strictRrCursor = s.strictRrCursor := rfl

@[simp] theorem pruneSchedulerState_drrCursor (s : StreamScheduler) :
    s.pruneSchedulerState.drrCursor = s.drrCursor := rfl

@[simp] theorem updateStrictAgingState_cursors (s : StreamScheduler) (id : Nat) :
    (s.updateStrictAgingState cfg id).strictRrCursor = s.strictRrCursor
      ∧ (s.updateStrictAgingState cfg id).drrCursor = s.drrCursor
      ∧ (s.updateStrictAgingState cfg id).drrDeficit = s.drrDeficit := by
  unfold updateStrictAgingState
  repeat' split
  all_goals exact ⟨rfl, rfl, rfl⟩

theorem turn_cursors (s : StreamScheduler) (r : Round) :
    (s.turn r).strictRrCursor = (s.picked r).2.strictRrCursor
      ∧ (s.turn r).drrCursor = (s.picked r).2.drrCursor := by
  unfold turn
  rcases s.picked r with ⟨_ | st, s'⟩
  case none => exact ⟨rfl, rfl⟩
  case some =>
    have hcursors := @updateStrictAgingState_cursors r.cfg
      { s' with streams := r.after } st.id
    cases r.outcome with
    | wouldBlock => exact ⟨rfl, rfl⟩
    | failed => exact ⟨rfl, rfl⟩
    | ok =>
      dsimp only
      split
      · exact ⟨hcursors.1, hcursors.2.1⟩
      · exact ⟨hcursors.1, hcursors.2.1⟩

theorem pruneSchedulerState_drrDeficit (hst : st ∈ s.streams.entries)
    (hwork : st.hasPendingSendWork = true) :
    s.pruneSchedulerState.drrDeficit st.id = s.drrDeficit st.id := by
  simp only [pruneSchedulerState, StreamMap.find_of_mem hst, hwork, if_true]

theorem turn_drrDeficit (hmode : r.cfg.streamSchedulerMode = .drr) (hst : st ∈ r.after.entries)
    (hwork : st.hasPendingSendWork = true) :
    (s.turn r).drrDeficit st.id = (s.picked r).2.drrDeficit st.id := by
  unfold turn
  rcases s.picked r with ⟨_ | x, s'⟩
  case none =>
    exact pruneSchedulerState_drrDeficit (s := { s' with streams := r.after }) hst hwork
  case some =>
    have hsame : ({ s' with streams := r.after } : StreamScheduler).updateStrictAgingState r.cfg
        x.id = { s' with streams := r.after } := by
      rw [updateStrictAgingState, if_pos (by rw [hmode]; decide)]
    have hpruned := pruneSchedulerState_drrDeficit (s := { s' with streams := r.after }) hst hwork
    cases r.outcome with
    | wouldBlock => rfl
    | failed => exact hpruned
    | ok =>
      simp only [hsame]
      split
      · exact hpruned
      · rfl

-- ==== a covered need

/-- The stream `b` has work that may go in deficit mode, and still has when
another has written; `S` are the connection's streams. -/
structure Backlogged (b : Nat) (S : Finset Nat) (r : Round) : Prop where
  mode : r.cfg.streamSchedulerMode = .drr
  streams : ∀ x ∈ r.before.entries, x.id ∈ S
  before : ∃ st ∈ r.before.entries, st.id = b ∧ st.writable r.cfg r.conn r.nowUs = true
  after : ∃ st ∈ r.after.entries, st.id = b ∧ st.hasPendingSendWork = true

/-- The deficit cap is at least what `b` must have to be served. -/
def Covered (b : Nat) (r : Round) : Prop :=
  ∀ st ∈ r.before.entries, st.id = b → drrNeed st ≤ drrDeficitCap r.cfg

instance (b : Nat) (r : Round) : Decidable (Covered b r) :=
  inferInstanceAs (Decidable (∀ st ∈ r.before.entries, st.id = b → _))

/-- Every visit adds `q` to the deficit of `b`, or fills it. -/
def QuantumFrom (q b : Nat) (r : Round) : Prop :=
  ∀ st ∈ r.before.entries, st.id = b → q ≤ (drrQuantum r.cfg st).toNat

/-- The visits a deficit needs at most, by quanta of `q`. -/
def visitsLeft (q : Nat) (d : UInt32) : Nat :=
  if d.toNat < 65535 then (65535 - d.toNat) / q else 65535 / q + 1

/-- The rank of the waiting stream `b`. -/
def drrRank (q b : Nat) (S : Finset Nat) (s : StreamScheduler) : Nat :=
  visitsLeft q (s.drrDeficit b) * S.card + gap S s.drrCursor b

theorem visitsLeft_le (q : Nat) (d : UInt32) : visitsLeft q d ≤ 65535 / q + 1 := by
  unfold visitsLeft
  split
  · exact (Nat.div_le_div_right (by omega)).trans (Nat.le_succ _)
  · exact le_rfl

theorem Nearer.visitsLeft_lt {q : Nat} {d d' : UInt32} (hq : 0 < q) (h : Nearer q d d') :
    visitsLeft q d' < visitsLeft q d := by
  obtain ⟨hshort, hmore⟩ := h
  unfold visitsLeft
  rw [if_pos hshort]
  split
  case isTrue hd =>
    have hmore := hmore hd
    have hsplit : 65535 - d.toNat = (65535 - d'.toNat) + (d'.toNat - d.toNat) := by omega
    have hone : (65535 - d'.toNat) / q + 1 ≤ (65535 - d.toNat) / q := by
      rw [← Nat.add_div_right _ hq]
      exact Nat.div_le_div_right (by omega)
    omega
  case isFalse => exact Nat.lt_succ_of_le (Nat.div_le_div_right (by omega))

theorem drr_turn {q : Nat} {S : Finset Nat} (hq : 0 < q) (hback : Backlogged b S r)
    (hcovered : Covered b r) (hquantum : QuantumFrom q b r) :
    Serves b s r ∨ drrRank q b S (s.turn r) < drrRank q b S s := by
  obtain ⟨st, hst, rfl, hwritable⟩ := hback.before
  obtain ⟨st', hst', hid', hwork⟩ := hback.after
  have hdeficit := turn_drrDeficit (s := s) hback.mode hst' hwork
  have hcursor := (turn_cursors s r).2
  rw [hid'] at hdeficit
  have hcand : st ∈ ({ s with streams := r.before } : StreamScheduler).candidates
      r.cfg r.conn r.nowUs := mem_candidates.mpr ⟨hst, hwritable⟩
  unfold Serves
  unfold drrRank
  rw [hdeficit, hcursor]
  unfold picked
  rcases pickNextWritableStream_cases hcand with ⟨-, heq⟩ | ⟨-, heq⟩
  · exact .inl (by rw [heq]; rfl)
  rw [heq, pickByMode, hback.mode]
  dsimp only
  rcases drr_round hcand (hquantum st hst rfl) (hcovered st hst rfl) with
    hserved | ⟨x, hx, hahead, hcursor, hkept⟩ | hnear
  · exact .inl (by rw [hserved]; rfl)
  · have hxS := hback.streams x (mem_candidates.mp hx).1
    rw [hkept, hcursor]
    exact .inr (Nat.add_lt_add_left (gap_lt_gap hxS hahead) _)
  · -- one visit fewer outweighs any cursor
    have hvisits := hnear.visitsLeft_lt hq
    dsimp only at hvisits
    have hgap := gap_lt_card (hback.streams st hst)
      (({ s with streams := r.before } : StreamScheduler).pickNextWritableStreamDrr
        r.cfg r.conn r.nowUs).2.drrCursor
    have hmul := Nat.mul_le_mul_right S.card (Nat.succ_le_of_lt hvisits)
    rw [Nat.succ_mul] at hmul
    exact .inr (by omega)

theorem drr_served {q : Nat} {S : Finset Nat} (hq : 0 < q) (hb : b ∈ S) {rounds : List Round}
    (hrounds : Meets turn (fun _ r => Backlogged b S r ∧ Covered b r ∧ QuantumFrom q b r) s rounds)
    (hlen : (65535 / q + 2) * S.card ≤ rounds.length) : Happens turn (Serves b) s rounds := by
  refine happens_of_rank (drrRank q b S) (fun s r hr => drr_turn hq hr.1 hr.2.1 hr.2.2) hrounds ?_
  have hgap := gap_lt_card hb s.drrCursor
  have hvisits := Nat.mul_le_mul_right S.card (visitsLeft_le q (s.drrDeficit b))
  unfold drrRank
  calc visitsLeft q (s.drrDeficit b) * S.card + gap S s.drrCursor b
      < (65535 / q + 1) * S.card + S.card := by omega
    _ = (65535 / q + 2) * S.card := by ring
    _ ≤ rounds.length := hlen

-- ==== a need above the cap

/-- The deficit cap is less than what `b` must have, and `b` is not alone. -/
structure Starved (b : Nat) (r : Round) : Prop where
  mode : r.cfg.streamSchedulerMode = .drr
  several : r.before.entries.length ≠ 1
  short : ∀ st ∈ r.before.entries, st.id = b → ¬ drrNeed st ≤ drrDeficitCap r.cfg

theorem drrVisit_covered {s' : StreamScheduler} (h : s.drrVisit cfg l = (some st, s')) :
    drrNeed st ≤ drrDeficitCap cfg := by
  induction l generalizing s with
  | nil => simp [drrVisit] at h
  | cons x l ih =>
    simp only [drrVisit, refill_drrDeficit_self] at h
    split at h
    case isTrue hpays =>
      obtain rfl := Option.some.inj (Prod.mk.inj h).1
      exact UInt32.le_trans hpays (drrRefill_le_cap cfg x _)
    case isFalse => exact ih h

theorem Starved.not_serves (hr : Starved b r) (s : StreamScheduler) : ¬ Serves b s r := by
  intro hserves
  obtain ⟨st, hpick, rfl⟩ := Option.map_eq_some_iff.mp hserves
  have heq : s.picked r =
      ({ s with streams := r.before } : StreamScheduler).pickNextWritableStreamDrr
      r.cfg r.conn r.nowUs := by
    unfold picked pickNextWritableStream
    split
    case h_1 x hentries => exact absurd (by rw [hentries]; rfl) hr.several
    case h_2 => rw [pickByMode, hr.mode]
  rw [heq] at hpick
  have hmem := (mem_candidates.mp (pickNextWritableStreamDrr_mem hpick)).1
  have hvisit : pickNextWritableStreamDrr r.cfg r.conn r.nowUs { s with streams := r.before }
      = (some st, (pickNextWritableStreamDrr r.cfg r.conn r.nowUs
          { s with streams := r.before }).2) := Prod.ext hpick rfl
  exact hr.short st hmem rfl (drrVisit_covered hvisit)

-- ==== results

/-- Work and service, from any state: when a call serves somebody, and when a
backlogged stream in deficit mode is served at last. -/
theorem stream_scheduling (cfg : StreamSchedulerConfig) (conn : SendReadiness) (nowUs : Nat)
    (s : StreamScheduler) :
    (WorkConserving cfg conn nowUs s ↔
      (cfg.streamSchedulerMode = .drr → s.streams.entries.length ≠ 1 →
        (∃ b, b ∈ s.candidates cfg conn nowUs) →
          ∃ st ∈ s.candidates cfg conn nowUs, Pays cfg s st))
    ∧ (∀ (S : Finset Nat) b rounds, b ∈ S →
        Meets turn (fun _ r => Backlogged b S r ∧ Covered b r) s rounds →
          65537 * S.card ≤ rounds.length → Happens turn (Serves b) s rounds)
    ∧ ∀ b rounds, Meets turn (fun _ r => Starved b r) s rounds →
        ¬ Happens turn (Serves b) s rounds := by
  refine ⟨workConserving_iff cfg conn nowUs s, fun S b rounds hb hrounds hlen => ?_,
    fun b rounds hrounds => ?_⟩
  · refine drr_served (q := 1) Nat.one_pos hb (hrounds.imp fun s r hr => ?_) (by omega)
    exact ⟨hr.1, hr.2, fun st _ _ => (drrQuantum_bounds r.cfg st).1⟩
  · exact not_happens (fun s r hr => hr.not_serves s) hrounds

/-- Two streams with 65535 bytes queued each. -/
def longQueues : StreamMap where
  entries := [{ id := 0, sendQueuedBytes := 65535 }, { id := 4, sendQueuedBytes := 65535 }]
  distinct := by decide

/-- A turn between them, in deficit mode. -/
def drrContest (cap : UInt32) : Round where
  cfg := { streamSchedulerMode := .drr, streamDrrDeficitCap := cap }
  conn := {}
  nowUs := 0
  before := longQueues
  after := longQueues
  kept := List.Subset.refl _

theorem stream_scheduling_contest :
    Happens turn (Serves 0) { streams := longQueues }
        (List.replicate 131074 (drrContest (128 * 1024)))
      ∧ ¬ Happens turn (Serves 0) { streams := longQueues } [drrContest 1024] := by
  have hboth := stream_scheduling {} {} 0 { streams := longQueues }
  constructor
  · refine hboth.2.1 {0, 4} 0 _ (by decide)
      (meets_of_forall (fun r hr s => ?_) _) (by rw [List.length_replicate]; decide)
    rw [List.eq_of_mem_replicate hr]
    exact ⟨⟨rfl, by decide, by decide, by decide⟩, by decide⟩
  · exact hboth.2.2 0 _ ⟨⟨rfl, by decide, by decide⟩, trivial⟩

/-- With the default settings, in deficit mode, two long queues are not
served at all: two visits add 9600, and each queue asks for 65535. -/
theorem not_work_conserving :
    ¬ ∀ cfg conn nowUs (t : StreamMap), WorkConserving cfg conn nowUs { streams := t } := by
  intro h
  have hpays :=
    (workConserving_iff { streamSchedulerMode := .drr } {} 0 { streams := longQueues }).mp
    (h _ _ _ _) rfl (by decide) ⟨{ id := 0, sendQueuedBytes := 65535 }, by decide⟩
  revert hpays
  decide

end Eular.Utp.StreamScheduler
