/-
A timer that is due fires.

`rank` counts the steps the worker has left until then: to the end of the
round it is at, through the head of its loop and `ListExpireTimer`, and
through the round after that as far as the timer. A step of the worker
lowers it, since the worker is awake and a timer that is due ends every
wait; a call of `addTimer` raises it by four at most, and no other step
does. So the timer fires within a number of the worker's steps that the
state it is due in and the timers added meanwhile bound, whatever lands in
between.
-/
import Eular.Utils.Proofs.Timer

namespace Eular.Utils

open Lib

namespace Clocked

variable {C : Type} {w : Clocked C} {t : Timer C}

/-- How many timers the worker may still have to do with. -/
def alive (w : Clocked C) : Nat :=
  w.manager.timers.length + w.manager.expireTimerVec.length + w.manager.calling.toList.length

/-- The timer is still to be run in this round. -/
def inRound (w : Clocked C) (t : Timer C) : Bool :=
  w.manager.expireTimerVec.any fun u => u.uniqueId = t.uniqueId

/-- The steps left of the round the worker is at. -/
def roundLeft (w : Clocked C) : Nat :=
  2 * w.manager.expireTimerVec.length + w.manager.calling.toList.length

/-- The steps left until the timer fires, at most. -/
def rank (w : Clocked C) (t : Timer C) : Nat :=
  match w.manager.worker with
  | .top => 2 * w.alive + 3
  | .waiting => 2 * w.alive + 4
  | .selecting _ => 2 * w.alive + 3
  | .collecting => 2 * w.alive + 2
  | .listing c =>
    if t.time ≤ c then 2 * w.alive + 1 else 2 * w.manager.timers.length + 2 * w.alive + 5
  | .round => if w.inRound t then w.roundLeft else w.roundLeft + 2 * w.alive + 4
  | .exited => 0

theorem rank_le (w : Clocked C) (t : Timer C) : w.rank t ≤ 4 * w.alive + 5 := by
  unfold rank roundLeft alive
  split <;> first | omega | (split <;> omega)

/-- The timer is still to be run, and due. -/
structure Due (w : Clocked C) (t : Timer C) : Prop where
  pending : t ∈ w.pending
  time : t.time ≤ w.manager.now

theorem Due.mem_timers (h : w.Due t) (hvec : w.manager.expireTimerVec = []) :
    t ∈ w.manager.timers := by
  have hin := h.pending
  unfold Clocked.pending at hin
  rwa [hvec, List.append_nil] at hin

theorem firings_le_worked (w : Clocked C) (id : Nat) : w.firings id ≤ w.worked.firings id := by
  show _ ≤ (w.fired ++ _).countP _
  rw [List.countP_append]
  exact Nat.le_add_right _ _

theorem mem_takeWhile_of_due {timers : List (Timer C)} (hsorted : Sorted Timer.key timers)
    (ht : t ∈ timers) {c : Nat} (hc : t.time ≤ c) : t ∈ timers.takeWhile fun u => u.time ≤ c := by
  rw [← List.takeWhile_append_dropWhile (p := fun u : Timer C => u.time ≤ c) (l := timers)] at ht
  refine (List.mem_append.1 ht).resolve_right fun hdrop => ?_
  have hlater : Sorted Timer.key (timers.dropWhile fun u => u.time ≤ c) :=
    hsorted.sublist (List.dropWhile_sublist _)
  have hnot := List.head?_dropWhile_not (fun u : Timer C => decide (u.time ≤ c)) timers
  cases hlist : timers.dropWhile (fun u => decide (u.time ≤ c)) with
  | nil =>
    rw [hlist] at hdrop
    cases hdrop
  | cons head rest =>
    rw [hlist] at hdrop hlater hnot
    have hle := (TimerManager.head_time_le hlater hdrop).trans hc
    simp [hle] at hnot

/-- A step that only moves the worker leaves what is due. -/
theorem Due.moved (h : w.Due t) {signal notified : Nat} {worker : Worker}
    (hwork : w.worked.manager = { w.manager with signal, notified, worker }) :
    w.worked.Due t ∧ w.worked.alive = w.alive := by
  refine ⟨⟨?_, by rw [hwork]; exact h.time⟩, ?_⟩
  · unfold Clocked.pending
    rw [hwork]
    exact h.pending
  · unfold alive
    rw [hwork]

theorem rank_worked_top (hk : w.Kept) (hdue : w.Due t) (ht : t ∈ w.manager.timers)
    (hworker : w.manager.worker = .top) : w.worked.Due t ∧ w.worked.rank t < w.rank t := by
  have hsorted := hk.accounts.sorted
  obtain ⟨head, rest, htimers⟩ := List.exists_cons_of_ne_nil (List.ne_nil_of_mem ht)
  have hhead : ¬w.manager.now < head.time := by
    rw [htimers] at ht hsorted
    exact Nat.not_lt.2 ((TimerManager.head_time_le hsorted ht).trans hdue.time)
  have hwork : w.worked.manager = { w.manager with worker := .collecting } := by
    show w.manager.work = _
    simp only [TimerManager.work, hworker, TimerManager.workTop, htimers, if_neg hhead,
      lt_irrefl, if_false]
  obtain ⟨hd, halive⟩ := hdue.moved hwork
  refine ⟨hd, ?_⟩
  unfold rank
  rw [hworker, hwork, halive]
  exact Nat.lt_succ_self _

theorem rank_worked_waiting (hk : w.Kept) (hdue : w.Due t) (ht : t ∈ w.manager.timers)
    (hworker : w.manager.worker = .waiting) : w.worked.Due t ∧ w.worked.rank t < w.rank t := by
  have hsignal : 0 < w.manager.signal := by
    have hawake := hk.awake
    unfold TimerManager.Awake at hawake
    rw [hworker] at hawake
    exact hawake.resolve_left (List.ne_nil_of_mem ht)
  have hwork : w.worked.manager =
      { w.manager with signal := w.manager.signal - 1, worker := .top } := by
    show w.manager.work = _
    simp only [TimerManager.work, hworker, TimerManager.workWaiting, if_pos hsignal]
  obtain ⟨hd, halive⟩ := hdue.moved hwork
  refine ⟨hd, ?_⟩
  unfold rank
  rw [hworker, hwork, halive]
  exact Nat.lt_succ_self _

/-- The timer is due, so `select` has timed out if nothing has woken it. -/
theorem rank_worked_selecting (hk : w.Kept) (hdue : w.Due t) (ht : t ∈ w.manager.timers)
    {wakeAt : Nat} (hworker : w.manager.worker = .selecting wakeAt) :
    w.worked.Due t ∧ w.worked.rank t < w.rank t := by
  obtain ⟨notified, hwork⟩ : ∃ notified, w.worked.manager =
      { w.manager with notified := notified, worker := .collecting } := by
    by_cases hbytes : 0 < w.manager.notified
    · refine ⟨w.manager.notified - min w.manager.notified 64, ?_⟩
      show w.manager.work = _
      simp only [TimerManager.work, hworker, TimerManager.workSelecting, if_pos hbytes]
    · refine ⟨w.manager.notified, ?_⟩
      have hawake := hk.awake
      unfold TimerManager.Awake at hawake
      rw [hworker] at hawake
      have hwake := (hawake.resolve_left hbytes t ht).trans hdue.time
      show w.manager.work = _
      simp only [TimerManager.work, hworker, TimerManager.workSelecting, if_neg hbytes,
        if_pos hwake]
  obtain ⟨hd, halive⟩ := hdue.moved hwork
  refine ⟨hd, ?_⟩
  unfold rank
  rw [hworker, hwork, halive]
  exact Nat.lt_succ_self _

theorem rank_worked_collecting (hdue : w.Due t) (hworker : w.manager.worker = .collecting) :
    w.worked.Due t ∧ w.worked.rank t < w.rank t := by
  have hwork : w.worked.manager = { w.manager with worker := .listing w.manager.now } := by
    show w.manager.work = _
    simp only [TimerManager.work, hworker]
  obtain ⟨hd, halive⟩ := hdue.moved hwork
  refine ⟨hd, ?_⟩
  unfold rank
  rw [hworker, hwork, halive]
  simp only [if_pos hdue.time]
  exact Nat.lt_succ_self _

/-- The round that begins has the timer, unless the clock was read before
it was due. -/
theorem rank_worked_listing (hk : w.Kept) (hdue : w.Due t) (ht : t ∈ w.manager.timers) {c : Nat}
    (hworker : w.manager.worker = .listing c) :
    w.worked.Due t ∧ w.worked.rank t < w.rank t := by
  obtain ⟨hvec, hcalling⟩ := hk.accounts.idle (by simp [hworker])
  have hwork : w.worked.manager = w.manager.workListing c := by
    show w.manager.work = _
    simp only [TimerManager.work, hworker]
  have hsplit := List.takeWhile_append_dropWhile (p := fun u : Timer C => u.time ≤ c)
    (l := w.manager.timers)
  have hlength := congrArg List.length hsplit
  rw [List.length_append] at hlength
  refine ⟨⟨?_, ?_⟩, ?_⟩
  · show t ∈ w.worked.manager.timers ++ w.worked.manager.expireTimerVec
    rw [hwork]
    have hmem := ht
    rw [← hsplit] at hmem
    exact List.mem_append.2 (List.mem_append.1 hmem).symm
  · rw [hwork]
    exact hdue.time
  · unfold rank roundLeft alive
    rw [hworker, hwork]
    simp only [TimerManager.workListing, hvec, hcalling, Option.toList_none, List.length_nil]
    by_cases hc : t.time ≤ c
    · have hin : w.worked.inRound t = true := by
        unfold inRound
        rw [hwork]
        refine List.any_eq_true.2 ⟨t, ?_, decide_eq_true rfl⟩
        exact mem_takeWhile_of_due hk.accounts.sorted ht hc
      rw [if_pos hc, hin, if_pos rfl]
      omega
    · rw [if_neg hc]
      split <;> omega

theorem rank_worked_idle (hk : w.Kept) (hdue : w.Due t) (hround : w.manager.worker ≠ .round) :
    w.worked.Due t ∧ w.worked.rank t < w.rank t := by
  have ht := hdue.mem_timers (hk.accounts.idle hround).1
  cases hworker : w.manager.worker with
  | top => exact rank_worked_top hk hdue ht hworker
  | waiting => exact rank_worked_waiting hk hdue ht hworker
  | selecting wakeAt => exact rank_worked_selecting hk hdue ht hworker
  | collecting => exact rank_worked_collecting hdue hworker
  | listing c => exact rank_worked_listing hk hdue ht hworker
  | round => exact absurd hworker hround
  | exited =>
    have hawake := hk.awake
    unfold TimerManager.Awake at hawake
    rw [hworker] at hawake
    exact hawake.elim

/-- A callback returns: the timer it was for is armed again or deleted. -/
theorem rank_worked_called (hk : w.Kept) (hdue : w.Due t) (hround : w.manager.worker = .round)
    {u : Timer C} (hcalling : w.manager.calling = some u) :
    w.worked.Due t ∧ w.worked.rank t < w.rank t := by
  obtain ⟨timers, hwork, hsub, hlen⟩ : ∃ timers, w.worked.manager =
      { w.manager with timers := timers, calling := none } ∧ w.manager.timers ⊆ timers ∧
        timers.length ≤ w.manager.timers.length + 1 := by
    have hw : w.worked.manager = w.manager.workCalled u := by
      show w.manager.work = _
      simp only [TimerManager.work, hround, TimerManager.workRound, hcalling]
    by_cases hrecurs : u.recurs = true
    · have hfree : ∀ v ∈ w.manager.timers, v.uniqueId ≠ u.uniqueId := fun v hv =>
        hk.accounts.past_ne (by simp [unfired, hv]) (by simp [past, hcalling])
      have hperm := Timer.emplace_perm
        (t := { u with time := (u.time + u.recycleTime) % 2 ^ 64 }) hfree
      refine ⟨_, ?_, fun v hv => hperm.mem_iff.2 (List.mem_cons_of_mem _ hv), hperm.length_eq.le⟩
      rw [hw, TimerManager.workCalled, if_pos hrecurs]
    · refine ⟨w.manager.timers, ?_, fun v hv => hv, Nat.le_succ _⟩
      rw [hw, TimerManager.workCalled, if_neg hrecurs]
  refine ⟨⟨?_, by rw [hwork]; exact hdue.time⟩, ?_⟩
  · show t ∈ w.worked.manager.timers ++ w.worked.manager.expireTimerVec
    rw [hwork]
    exact List.mem_append.2 ((List.mem_append.1 hdue.pending).imp_left (hsub ·))
  · have hin : w.worked.inRound t = w.inRound t := by
      unfold inRound
      rw [hwork]
    unfold rank roundLeft alive
    rw [hround, hin, hwork]
    simp only [hround, hcalling, Option.toList_some, Option.toList_none, List.length_nil,
      List.length_singleton]
    split <;> omega

/-- Another timer's callback starts. -/
theorem rank_worked_other (hdue : w.Due t) (hround : w.manager.worker = .round)
    (hcalling : w.manager.calling = none) {u : Timer C} {rest : List (Timer C)}
    (hvec : w.manager.expireTimerVec = u :: rest) (hu : u.uniqueId ≠ t.uniqueId) :
    w.worked.Due t ∧ w.worked.rank t < w.rank t := by
  have hwork : w.worked.manager =
      { w.manager with calling := some u, expireTimerVec := rest } := by
    show w.manager.work = _
    simp only [TimerManager.work, hround, TimerManager.workRound, hcalling, hvec]
  have hne : t ≠ u := fun heq => hu (congrArg Timer.uniqueId heq).symm
  have hin : w.worked.inRound t = w.inRound t := by
    unfold inRound
    rw [hwork, hvec, List.any_cons]
    simp [hu]
  refine ⟨⟨?_, by rw [hwork]; exact hdue.time⟩, ?_⟩
  · show t ∈ w.worked.manager.timers ++ w.worked.manager.expireTimerVec
    have hmem := hdue.pending
    unfold Clocked.pending at hmem
    rw [hvec] at hmem
    rw [hwork]
    refine List.mem_append.2 ((List.mem_append.1 hmem).imp_right fun hcons => ?_)
    exact (List.mem_cons.1 hcons).resolve_left hne
  · unfold rank roundLeft alive
    rw [hround, hin, hwork]
    simp only [hround, hcalling, hvec, Option.toList_some, Option.toList_none,
      List.length_nil, List.length_cons]
    split <;> omega

theorem rank_worked_round (hk : w.Kept) (hdue : w.Due t) (hcb : t.cb.isSome)
    (hround : w.manager.worker = .round) :
    w.firings t.uniqueId < w.worked.firings t.uniqueId ∨
      w.worked.Due t ∧ w.worked.rank t < w.rank t := by
  cases hcalling : w.manager.calling with
  | some u => exact Or.inr (rank_worked_called hk hdue hround hcalling)
  | none =>
    cases hvec : w.manager.expireTimerVec with
    | nil =>
      right
      have hwork : w.worked.manager = { w.manager with worker := .top } := by
        show w.manager.work = _
        simp only [TimerManager.work, hround, TimerManager.workRound, hcalling, hvec]
      obtain ⟨hd, halive⟩ := hdue.moved hwork
      have hout : w.inRound t = false := by
        unfold inRound
        rw [hvec]
        rfl
      refine ⟨hd, ?_⟩
      unfold rank
      rw [hround, hwork, hout, halive]
      simp only [Bool.false_eq_true, if_false]
      omega
    | cons u rest =>
      by_cases hu : u.uniqueId = t.uniqueId
      · left
        have hsame : u = t := hk.accounts.eq_of_id (by simp [unfired, hvec])
          (List.mem_append_left _ (List.mem_append_left _ hdue.pending)) hu
        have hstarts : w.manager.starts = some t := by
          unfold TimerManager.starts
          rw [hround, hcalling, hvec]
          simp only [hsame, if_pos hcb]
        show w.firings t.uniqueId < (w.fired ++ (w.manager.starts.toList.map _)).countP _
        rw [hstarts, List.countP_append]
        show w.firings t.uniqueId < w.firings t.uniqueId + _
        simp
      · exact Or.inr (rank_worked_other hdue hround hcalling hvec hu)

theorem rank_worked (hk : w.Kept) (hdue : w.Due t) (hcb : t.cb.isSome) :
    w.firings t.uniqueId < w.worked.firings t.uniqueId ∨
      w.worked.Due t ∧ w.worked.rank t < w.rank t := by
  by_cases hround : w.manager.worker = .round
  · exact rank_worked_round hk hdue hcb hround
  · exact Or.inr (rank_worked_idle hk hdue hround)

/-- A timer more in the set is four steps more at most. -/
theorem rank_le_of_timers (w w' : Clocked C) (k : Nat)
    (hworker : w'.manager.worker = w.manager.worker)
    (hvec : w'.manager.expireTimerVec = w.manager.expireTimerVec)
    (hcalling : w'.manager.calling = w.manager.calling)
    (hlen : w'.manager.timers.length ≤ w.manager.timers.length + k) :
    w'.rank t ≤ w.rank t + 4 * k := by
  unfold rank roundLeft alive inRound
  rw [hworker, hvec, hcalling]
  cases w.manager.worker with
  | listing c =>
    dsimp only
    split <;> omega
  | round =>
    dsimp only
    split <;> omega
  | exited => exact Nat.zero_le _
  | top => dsimp only; omega
  | waiting => dsimp only; omega
  | selecting wakeAt => dsimp only; omega
  | collecting => dsimp only; omega

theorem rank_add (w : Clocked C) (t : Timer C) (ms : Nat) (cb : Option C) (recycle : UInt32) :
    (w.add ms cb recycle).rank t ≤ w.rank t + 4 := by
  refine rank_le_of_timers w _ 1 rfl rfl rfl ?_
  show (emplace Timer.key _ w.manager.timers).length ≤ _
  unfold emplace
  split
  · rename_i hnone
    exact (put_perm_of_lookup_none hnone).length_eq.le
  · exact Nat.le_succ _

theorem rank_del (w : Clocked C) (t : Timer C) (id : Nat) : (w.del id).rank t ≤ w.rank t :=
  rank_le_of_timers w _ 0 rfl rfl rfl (List.eraseP_sublist (l := w.manager.timers)).length_le

theorem Due.add (h : w.Due t) (hk : w.Kept) (ms : Nat) (cb : Option C) (recycle : UInt32) :
    (w.add ms cb recycle).Due t := by
  refine ⟨?_, h.time⟩
  show t ∈ emplace Timer.key _ w.manager.timers ++ w.manager.expireTimerVec
  refine List.mem_append.2 ((List.mem_append.1 h.pending).imp_left fun hset => ?_)
  exact (mem_emplace hk.accounts.sorted).2 (Or.inl hset)

theorem Due.del (h : w.Due t) {id : Nat} (hother : t.uniqueId ≠ id) : (w.del id).Due t := by
  refine ⟨?_, h.time⟩
  show t ∈ w.manager.timers.eraseP _ ++ w.manager.expireTimerVec
  refine List.mem_append.2 ((List.mem_append.1 h.pending).imp_left fun hset => ?_)
  exact (List.mem_eraseP_of_neg (by simpa using hother)).2 hset

theorem firings_le_run (ops : List (TimerOp C)) (w : Clocked C) (id : Nat) :
    w.firings id ≤ (run step w ops).firings id := by
  induction ops generalizing w with
  | nil => exact le_rfl
  | cons op ops ih =>
    have hstep : w.firings id ≤ (w.step op).firings id := by
      cases op with
      | work => exact firings_le_worked w id
      | addTimer ms cb recycle => exact le_rfl
      | delTimer uniqueId => exact le_rfl
      | interrupt => exact le_rfl
      | tick ms => exact le_rfl
    exact hstep.trans (ih _)

end Clocked

def TimerOp.works {C : Type} : TimerOp C → Bool
  | .work => true
  | _ => false

/-- A call of `addTimer`. -/
def TimerOp.adds {C : Type} : TimerOp C → Bool
  | .addTimer _ _ _ => true
  | _ => false

/-- A call of `delTimer` for a timer. -/
def TimerOp.deletes {C : Type} (id : Nat) : TimerOp C → Bool
  | .delTimer uniqueId => uniqueId = id
  | _ => false

namespace Clocked

variable {C : Type} {w : Clocked C} {t : Timer C}

theorem works_le_rank {ops : List (TimerOp C)} (hk : w.Kept) (hdue : w.Due t) (hcb : t.cb.isSome)
    (hsound : Meets step (fun (w : Clocked C) op => w.manager.Sound op) w ops)
    (hkept : ∀ op ∈ ops, op.deletes t.uniqueId = false) :
    w.firings t.uniqueId < (run step w ops).firings t.uniqueId ∨
      ops.countP TimerOp.works ≤ w.rank t + 4 * ops.countP TimerOp.adds := by
  induction ops generalizing w with
  | nil => exact Or.inr (Nat.zero_le _)
  | cons op ops ih =>
    have hnext := hk.step hsound.1
    have hrest : ∀ op ∈ ops, op.deletes t.uniqueId = false :=
      fun o ho => hkept o (List.mem_cons_of_mem _ ho)
    rw [run_cons]
    cases op with
    | addTimer ms cb recycle =>
      refine (ih hnext (hdue.add hk ms cb recycle) hsound.2 hrest).imp_right fun hle => ?_
      have hadd := rank_add w t ms cb recycle
      rw [List.countP_cons_of_neg (by simp [TimerOp.works]), List.countP_cons_of_pos rfl]
      exact hle.trans (by show (w.add ms cb recycle).rank t + _ ≤ _; omega)
    | delTimer id =>
      have hother : t.uniqueId ≠ id := by
        have hno := hkept _ List.mem_cons_self
        exact fun heq => of_decide_eq_false hno heq.symm
      refine (ih hnext (hdue.del hother) hsound.2 hrest).imp_right fun hle => ?_
      have hdel := rank_del w t id
      rw [List.countP_cons_of_neg (by simp [TimerOp.works]),
        List.countP_cons_of_neg (by simp [TimerOp.adds])]
      exact hle.trans (Nat.add_le_add_right hdel _)
    | work =>
      rcases rank_worked hk hdue hcb with hfired | ⟨hdue', hless⟩
      · exact Or.inl (hfired.trans_le (firings_le_run ops _ _))
      · rcases ih hnext hdue' hsound.2 hrest with hfired | hle
        · exact Or.inl ((firings_le_worked w _).trans_lt hfired)
        · right
          rw [List.countP_cons_of_pos rfl, List.countP_cons_of_neg (by simp [TimerOp.adds])]
          have hstep : (w.step .work).rank t < w.rank t := hless
          omega
    | interrupt =>
      have hsame := step_interrupt hsound.1
      have hmore := hsound.2
      rw [hsame] at hmore ⊢
      refine (ih hk hdue hmore hrest).imp_right fun hle => ?_
      rw [List.countP_cons_of_neg (by simp [TimerOp.works]),
        List.countP_cons_of_neg (by simp [TimerOp.adds])]
      exact hle
    | tick ms =>
      have hlater : (w.step (.tick ms)).Due t :=
        ⟨hdue.pending, Nat.le_add_right_of_le hdue.time⟩
      refine (ih hnext hlater hsound.2 hrest).imp_right fun hle => ?_
      rw [List.countP_cons_of_neg (by simp [TimerOp.works]),
        List.countP_cons_of_neg (by simp [TimerOp.adds])]
      exact hle

/-- In a run of sound steps, whatever lands between the steps of the worker,
the timers that fire are the right ones; and one that is due and is not
deleted fires within so many steps of the worker as the timers there are,
and those added meanwhile, allow it. -/
theorem timers_fire_right {ops more : List (TimerOp C)}
    (hsound : Meets step (fun (w : Clocked C) op => w.manager.Sound op) {} (ops ++ more)) :
    let w : Clocked C := run step {} ops
    w.FiresRight ∧ ∀ t ∈ w.pending, t.cb.isSome → t.time ≤ w.manager.now →
      (∀ op ∈ more, op.deletes t.uniqueId = false) →
        w.firings t.uniqueId < (run step w more).firings t.uniqueId ∨
          more.countP TimerOp.works ≤ 4 * w.alive + 5 + 4 * more.countP TimerOp.adds := by
  intro w
  obtain ⟨hops, hmore⟩ := (meets_append _ ops more).1 hsound
  have hk : w.Kept := run_inv (fun _ _ h hop => h.step hop) kept_new hops
  refine ⟨hk.firesRight, fun t ht hcb htime hkept => ?_⟩
  refine (works_le_rank hk ⟨ht, htime⟩ hcb hmore hkept).imp_right fun hle => ?_
  have hrank := rank_le w t
  omega

/-- A timer of five milliseconds, and the worker's steps as far as its
callback. -/
theorem timers_fire_right_single :
    let w : Clocked Unit := run step {} [.addTimer 5 (some ()) 0, .work, .tick 5]
    w.FiresRight ∧ (w.firings 1 < (run step w [.work, .work, .work, .work]).firings 1 ∨
      4 ≤ 4 * w.alive + 5) := by
  have h := @timers_fire_right Unit [.addTimer 5 (some ()) 0, .work, .tick 5]
    [.work, .work, .work, .work] (by decide +kernel)
  exact ⟨h.1, h.2 ⟨5, 0, some (), 1⟩ (by decide +kernel) rfl (by decide +kernel)
    (by decide +kernel)⟩

/-- A recurring timer whose callback deletes it: `delTimer` does not find
it, the worker arms it again, and ten milliseconds later it fires. -/
theorem not_fires_right_selfDeleted :
    ¬(run step {} [.addTimer 1 (some ()) 10, .work, .tick 1, .work, .work, .work, .work,
      .delTimer 1, .work, .tick 10, .work, .work, .work, .work, .work] :
        Clocked Unit).FiresRight := by
  intro h
  have hfired := h.deleted ⟨1, 1⟩ (by decide +kernel) ⟨⟨1, 10, some (), 1⟩, 1⟩ (by decide +kernel)
    rfl (by decide) rfl
  revert hfired
  decide +kernel

/-- A delay of `2^31` milliseconds takes the worker out of its loop. -/
example : (run step {} [.addTimer (2 ^ 31) (some ()) 0, .work] : Clocked Unit).manager.worker
    = .exited := by
  decide +kernel

end Clocked

end Eular.Utils
