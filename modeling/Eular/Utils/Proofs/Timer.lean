/-
Which timers fire, and when.

Every timer that was asked for is in one place: in the set, in the round
the worker is at, in its callback, or out, taken by `delTimer` or freed by
the worker (`Accounts`). A one-shot timer has fired when it is past its
callback's start and not before, and a timer that was taken out stays out
(`Counted`); a round runs in the order of the set (`Ordered`). `Awake` says
that the worker never sleeps past the first of the set: where a timer comes
before the one it sleeps for, there is something in the socket pair.

`Sound` is what the steps have to meet: no time is wrapped, no sleep of a
length that comes out negative, no signal in a sleep, and no recurring timer
deleted while it is in the round, where `delTimer` does not look for it.
-/
import Eular.Utils.Timer

namespace Eular.Utils

open Lib

-- ==== sleeping

/-- `select` takes a time that is not negative. -/
theorem selectTimeout_ms (ms : Int) :
    selectTimeout (ms.tdiv 1000, ms.tmod 1000 * 1000) = if ms < 0 then none else some ms.toNat := by
  unfold selectTimeout
  by_cases hneg : ms < 0
  · obtain ⟨k, rfl⟩ : ∃ k : Nat, ms = -(k : Int) := ⟨ms.natAbs, by omega⟩
    have hbad : (-(k : Int)).tdiv 1000 < 0 ∨ (-(k : Int)).tmod 1000 * 1000 < 0 := by
      rw [Int.neg_tdiv, Int.neg_tmod, Int.tdiv_eq_ediv_of_nonneg (by omega),
        Int.tmod_eq_emod_of_nonneg (by omega)]
      omega
    rw [if_pos hbad, if_pos hneg]
  · obtain ⟨k, rfl⟩ : ∃ k : Nat, ms = (k : Int) := ⟨ms.toNat, by omega⟩
    have hgood : ¬((k : Int).tdiv 1000 < 0 ∨ (k : Int).tmod 1000 * 1000 < 0) := by
      rw [Int.tdiv_eq_ediv_of_nonneg (by omega), Int.tmod_eq_emod_of_nonneg (by omega)]
      omega
    rw [if_neg hgood, if_neg hneg, Int.tdiv_eq_ediv_of_nonneg (by omega),
      Int.tmod_eq_emod_of_nonneg (by omega)]
    congr 1
    omega

/-- The milliseconds the worker sleeps: what 32 bits hold of them, as long
as that is not a negative number. -/
theorem selectTimeout_timeval (n : Nat) :
    selectTimeout (timeval n) = if n % 2 ^ 32 < 2 ^ 31 then some (n % 2 ^ 32) else none := by
  have hms : (n : Int).bmod (2 ^ 32) =
      if n % 2 ^ 32 < 2 ^ 31 then ((n % 2 ^ 32 : Nat) : Int) else (n % 2 ^ 32 : Nat) - 2 ^ 32 := by
    rw [Int.bmod_def]
    split <;> split <;> omega
  have hlt : n % 2 ^ 32 < 2 ^ 32 := Nat.mod_lt _ (by decide)
  unfold timeval
  rw [selectTimeout_ms, hms]
  by_cases hsmall : n % 2 ^ 32 < 2 ^ 31
  · rw [if_pos hsmall, if_pos hsmall, if_neg (by omega), Int.toNat_natCast]
  · rw [if_neg hsmall, if_neg hsmall, if_pos (by omega)]

/-- The worker is in `select`. -/
def Worker.sleeping : Worker → Bool
  | .selecting _ => true
  | _ => false

namespace TimerManager

variable {C : Type} {s : TimerManager C}

/-- The worker's sleep is not refused. -/
def Sleeps (s : TimerManager C) : Prop :=
  ∀ head ∈ s.timers.head?, (head.time - s.now) % 2 ^ 32 < 2 ^ 31

/-- What a step has to meet: a time that does not wrap, no deletion of a
recurring timer that is in the round, a sleep that is not refused, and no
signal in it. -/
def Sound (s : TimerManager C) : TimerOp C → Prop
  | .addTimer ms _ _ => s.now + ms < 2 ^ 64
  | .delTimer id =>
    ∀ t ∈ s.calling.toList ++ s.expireTimerVec, t.uniqueId = id → t.recurs ≠ true
  | .work =>
    (s.worker = .top → s.Sleeps) ∧ ∀ t ∈ s.calling, t.time + t.recycleTime < 2 ^ 64
  | .interrupt => s.worker.sleeping = false
  | .tick _ => True

instance Sound.decidable (s : TimerManager C) : ∀ op, Decidable (s.Sound op)
  | .addTimer ms _ _ => inferInstanceAs (Decidable (s.now + ms < 2 ^ 64))
  | .delTimer id => inferInstanceAs (Decidable
      (∀ t ∈ s.calling.toList ++ s.expireTimerVec, t.uniqueId = id → t.recurs ≠ true))
  | .work => inferInstanceAs (Decidable ((s.worker = .top →
      ∀ head ∈ s.timers.head?, (head.time - s.now) % 2 ^ 32 < 2 ^ 31) ∧
        ∀ t ∈ s.calling, t.time + t.recycleTime < 2 ^ 64))
  | .interrupt => inferInstanceAs (Decidable (s.worker.sleeping = false))
  | .tick _ => isTrue trivial

/-- Outside `select` a signal changes nothing. -/
theorem interrupt_eq (h : s.Sound .interrupt) : s.interrupt = s := by
  unfold interrupt
  cases hworker : s.worker with
  | selecting wakeAt =>
    have hawake : s.worker.sleeping = false := h
    rw [hworker] at hawake
    cases hawake
  | _ => rfl

/-- The worker is not out of its loop, waits for a signal only while there
is no timer or the signal is there, and sleeps past no timer unless it is
notified. -/
def Awake (s : TimerManager C) : Prop :=
  match s.worker with
  | .exited => False
  | .waiting => s.timers = [] ∨ 0 < s.signal
  | .selecting wakeAt => 0 < s.notified ∨ ∀ t ∈ s.timers, wakeAt ≤ t.time
  | _ => True

theorem Awake.delTimer (h : s.Awake) (id : Nat) : (s.delTimer id).1.Awake := by
  have hsub : s.timers.eraseP (fun t => t.uniqueId = id) ⊆ s.timers := List.eraseP_subset
  unfold Awake at *
  unfold TimerManager.delTimer
  cases hworker : s.worker <;> simp only [hworker] at h ⊢
  case waiting => exact h.imp_left fun hnil => by rw [hnil]; rfl
  case selecting wakeAt => exact h.imp_right fun hall t ht => hall t (hsub ht)

theorem head_time_le {head t : Timer C} {rest : List (Timer C)}
    (h : Sorted Timer.key (head :: rest)) (ht : t ∈ head :: rest) : head.time ≤ t.time := by
  rcases List.mem_cons.1 ht with rfl | hrest
  · exact le_rfl
  · have hlt := h.head_lt hrest
    rcases Prod.Lex.toLex_lt_toLex.1 hlt with hless | ⟨heq, -⟩
    · exact hless.le
    · exact heq.le

theorem Awake.addTimer (h : s.Awake) (hsorted : Sorted Timer.key s.timers) (ms : Nat)
    (cb : Option C) (recycle : UInt32) : (s.addTimer ms cb recycle).1.Awake := by
  let timer : Timer C := ⟨(s.now + ms) % 2 ^ 64, recycle.toNat, cb, s.timerCount + 1⟩
  have hset : Sorted Timer.key (emplace Timer.key timer s.timers) := sorted_emplace hsorted
  have hmem : ∀ t ∈ emplace Timer.key timer s.timers, t ∈ s.timers ∨ t = timer :=
    fun t ht => ((mem_emplace hsorted).1 ht).imp_right And.left
  unfold Awake at *
  unfold TimerManager.addTimer
  cases hworker : s.worker <;> simp only [hworker] at h ⊢
  case waiting =>
    right
    rcases h with hnil | hpos
    · have hone : (emplace Timer.key timer s.timers).length = 1 := by
        rw [hnil]
        rfl
      rw [if_pos hone]
      exact Nat.succ_pos _
    · split <;> omega
  case selecting wakeAt =>
    by_cases hfirst : (emplace Timer.key timer s.timers).head?.map Timer.uniqueId
        = some (s.timerCount + 1)
    · left
      rw [if_pos hfirst]
      exact Nat.succ_pos _
    · rw [if_neg hfirst]
      refine h.imp_right fun hall t ht => ?_
      cases hlist : emplace Timer.key timer s.timers with
      | nil =>
        rw [hlist] at ht
        cases ht
      | cons head rest =>
        rw [hlist] at ht hset hfirst
        have hhead : head ∈ s.timers := by
          refine (hmem head (by rw [hlist]; exact List.mem_cons_self)).resolve_right fun heq => ?_
          rw [heq] at hfirst
          exact hfirst rfl
        exact (hall head hhead).trans (head_time_le hset ht)

theorem Awake.work (h : s.Awake) (hsorted : Sorted Timer.key s.timers)
    (hsleeps : s.worker = .top → s.Sleeps) : s.work.Awake := by
  unfold TimerManager.work
  cases hworker : s.worker with
  | top =>
    simp only [workTop]
    cases htimers : s.timers with
    | nil => exact Or.inl rfl
    | cons head rest =>
      have hshort := hsleeps hworker head (by rw [htimers]; rfl)
      by_cases hlater : s.now < head.time
      · have hpos : 0 < head.time - s.now := by omega
        simp only [if_pos hlater, if_pos hpos, selectTimeout_timeval, if_pos hshort]
        refine Or.inr fun t ht => ?_
        have hfirst : head.time ≤ t.time := by
          rw [htimers] at hsorted
          exact head_time_le hsorted (htimers ▸ ht)
        have hmod := Nat.mod_le (head.time - s.now) (2 ^ 32)
        omega
      · simp only [if_neg hlater, lt_irrefl, if_false]
        trivial
  | waiting =>
    by_cases hsignal : 0 < s.signal
    · simp only [workWaiting, if_pos hsignal]
      trivial
    · simp only [workWaiting, if_neg hsignal]
      exact h
  | selecting wakeAt =>
    by_cases hbytes : 0 < s.notified
    · simp only [workSelecting, if_pos hbytes]
      trivial
    · by_cases htime : wakeAt ≤ s.now
      · simp only [workSelecting, if_neg hbytes, if_pos htime]
        trivial
      · simp only [workSelecting, if_neg hbytes, if_neg htime]
        exact h
  | collecting => trivial
  | listing currTimeMs => trivial
  | round =>
    simp only [workRound]
    cases hcalling : s.calling with
    | some timer =>
      by_cases hrecurs : timer.recurs = true
      · simp [workCalled, hrecurs, Awake, hworker]
      · simp [workCalled, hrecurs, Awake, hworker]
    | none =>
      cases hvec : s.expireTimerVec with
      | nil => trivial
      | cons timer rest => simp [Awake, hworker]
  | exited =>
    unfold Awake at h
    rw [hworker] at h
    exact h.elim

end TimerManager

-- ==== places

namespace Timer

variable {C : Type}

/-- What re-arming leaves of a timer. -/
def base (t : Timer C) : Timer C :=
  if t.recurs then { t with time := 0 } else t

@[simp] theorem base_uniqueId (t : Timer C) : t.base.uniqueId = t.uniqueId := by
  unfold base
  split <;> rfl

@[simp] theorem base_recurs (t : Timer C) : t.base.recurs = t.recurs := by
  by_cases h : t.recurs = true
  · rw [base, if_pos h]
    rfl
  · rw [base, if_neg h]

variable {t : Timer C}

theorem base_of_not_recurs (h : t.recurs ≠ true) : t.base = t := if_neg h

theorem base_rearmed (h : t.recurs = true) (time : Nat) :
    ({ t with time := time } : Timer C).base = t.base := by
  have h' : ({ t with time := time } : Timer C).recurs = true := h
  rw [base, if_pos h', base, if_pos h]

/-- A timer nobody in the set shares its id with is put there beside the
others. -/
theorem emplace_perm {l : List (Timer C)}
    (h : ∀ u ∈ l, u.uniqueId ≠ t.uniqueId) : (emplace key t l).Perm (t :: l) := by
  have hnone : lookup key t.key l = none := by
    refine List.find?_eq_none.2 fun u hu => ?_
    have hkey : u.key ≠ t.key := fun heq => h u hu (congrArg Prod.snd (toLex_inj.1 heq))
    simpa using hkey
  unfold emplace
  rw [hnone]
  exact put_perm_of_lookup_none hnone

end Timer

namespace Clocked

variable {C : Type} {w : Clocked C}

/-- A signal that is sound changes nothing. -/
theorem step_interrupt (hsound : w.manager.Sound .interrupt) : w.step .interrupt = w := by
  show { w with manager := w.manager.interrupt } = w
  rw [TimerManager.interrupt_eq hsound]

/-- The timers there have been, by where they are: those that have not
fired since they were armed, -/
def unfired (w : Clocked C) : List (Timer C) :=
  w.manager.timers ++ w.manager.expireTimerVec ++ w.removed

/-- and those that have. -/
def past (w : Clocked C) : List (Timer C) :=
  w.manager.calling.toList ++ w.freed

/-- Every timer asked for is in one place. -/
structure Accounts (w : Clocked C) : Prop where
  sorted : Sorted Timer.key w.manager.timers
  all : ((w.unfired ++ w.past).map Timer.base).Perm (w.requests.map fun r => r.timer.base)
  ids : (w.requests.map fun r => r.timer.uniqueId).Nodup
  fresh : ∀ r ∈ w.requests, r.timer.uniqueId ≤ w.manager.timerCount
  due : ∀ t ∈ w.unfired ++ w.past, ∀ r ∈ w.requests, r.timer.uniqueId = t.uniqueId →
    r.due ≤ t.time
  idle : w.manager.worker ≠ .round → w.manager.expireTimerVec = [] ∧ w.manager.calling = none

namespace Accounts

theorem perm_ids (h : w.Accounts) :
    ((w.unfired ++ w.past).map Timer.uniqueId).Perm (w.requests.map fun r => r.timer.uniqueId) := by
  have hids := h.all.map Timer.uniqueId
  rw [List.map_map, List.map_map] at hids
  simpa [Function.comp_def] using hids

theorem nodup (h : w.Accounts) : ((w.unfired ++ w.past).map Timer.uniqueId).Nodup :=
  h.perm_ids.nodup_iff.2 h.ids

theorem requested (h : w.Accounts) {t : Timer C} (ht : t ∈ w.unfired ++ w.past) :
    ∃ r ∈ w.requests, r.timer.base = t.base := by
  have hbase := h.all.mem_iff.1 (List.mem_map_of_mem ht)
  obtain ⟨r, hr, heq⟩ := List.mem_map.1 hbase
  exact ⟨r, hr, heq⟩

theorem somewhere (h : w.Accounts) {r : TimerRequest C} (hr : r ∈ w.requests) :
    ∃ t ∈ w.unfired ++ w.past, t.base = r.timer.base := by
  have hbase := h.all.mem_iff.2 (List.mem_map_of_mem (f := fun r => r.timer.base) hr)
  obtain ⟨t, ht, heq⟩ := List.mem_map.1 hbase
  exact ⟨t, ht, heq⟩

theorem id_le (h : w.Accounts) {t : Timer C} (ht : t ∈ w.unfired ++ w.past) :
    t.uniqueId ≤ w.manager.timerCount := by
  obtain ⟨r, hr, heq⟩ := h.requested ht
  have hid := congrArg Timer.uniqueId heq
  rw [Timer.base_uniqueId, Timer.base_uniqueId] at hid
  rw [← hid]
  exact h.fresh r hr

theorem eq_of_id (h : w.Accounts) {t u : Timer C} (ht : t ∈ w.unfired ++ w.past)
    (hu : u ∈ w.unfired ++ w.past) (heq : t.uniqueId = u.uniqueId) : t = u :=
  List.inj_on_of_nodup_map h.nodup ht hu heq

theorem past_ne (h : w.Accounts) {t u : Timer C} (ht : t ∈ w.unfired) (hu : u ∈ w.past) :
    t.uniqueId ≠ u.uniqueId := by
  have hnodup := h.nodup
  rw [List.map_append] at hnodup
  exact (List.nodup_append.1 hnodup).2.2 _ (List.mem_map_of_mem ht) _ (List.mem_map_of_mem hu)

theorem move (h : w.Accounts) {w' : Clocked C} (hrequests : w'.requests = w.requests)
    (hcount : w'.manager.timerCount = w.manager.timerCount)
    (hsorted : Sorted Timer.key w'.manager.timers)
    (hperm : ((w'.unfired ++ w'.past).map Timer.base).Perm
      ((w.unfired ++ w.past).map Timer.base))
    (hdue : ∀ t ∈ w'.unfired ++ w'.past, ∃ u ∈ w.unfired ++ w.past,
      u.uniqueId = t.uniqueId ∧ u.time ≤ t.time)
    (hidle : w'.manager.worker ≠ .round →
      w'.manager.expireTimerVec = [] ∧ w'.manager.calling = none) : w'.Accounts where
  sorted := hsorted
  all := by rw [hrequests]; exact hperm.trans h.all
  ids := by rw [hrequests]; exact h.ids
  fresh := by rw [hrequests, hcount]; exact h.fresh
  due := by
    intro t ht r hr hid
    rw [hrequests] at hr
    obtain ⟨u, hu, heq, hle⟩ := hdue t ht
    exact (h.due u hu r hr (hid.trans heq.symm)).trans hle
  idle := hidle

theorem of_perm (h : w.Accounts) {w' : Clocked C} (hrequests : w'.requests = w.requests)
    (hcount : w'.manager.timerCount = w.manager.timerCount)
    (hsorted : Sorted Timer.key w'.manager.timers)
    (hperm : (w'.unfired ++ w'.past).Perm (w.unfired ++ w.past))
    (hidle : w'.manager.worker ≠ .round →
      w'.manager.expireTimerVec = [] ∧ w'.manager.calling = none) : w'.Accounts :=
  h.move hrequests hcount hsorted (hperm.map _)
    (fun t ht => ⟨t, hperm.mem_iff.1 ht, rfl, le_rfl⟩) hidle

end Accounts

theorem accounts_new : ({} : Clocked C).Accounts where
  sorted := List.Pairwise.nil
  all := List.Perm.refl _
  ids := List.nodup_nil
  fresh _ h := nomatch h
  due _ h := nomatch h
  idle _ := ⟨rfl, rfl⟩

-- ==== the worker

/-- The start of a timer's callback, where it has one. -/
def firing (w : Clocked C) (t : Timer C) : List (Firing C) :=
  if t.cb.isSome then [⟨t, w.manager.now, w.rounds⟩] else []

theorem mem_firing {f : Firing C} {t : Timer C} (h : f ∈ w.firing t) :
    f = ⟨t, w.manager.now, w.rounds⟩ := by
  unfold firing at h
  split at h
  · exact List.mem_singleton.1 h
  · cases h

/-- What a step of the worker can do. -/
inductive Worked (w : Clocked C) : Clocked C → Prop where
  | quiet (signal notified : Nat) (worker : Worker) (hround : worker ≠ .round)
      (hlisting : ∀ c, worker ≠ .listing c)
      (hidle : w.manager.expireTimerVec = [] ∧ w.manager.calling = none) :
      Worked w { w with
        manager := { w.manager with signal := signal, notified := notified, worker := worker } }
  | reads (hworker : w.manager.worker = .collecting) :
      Worked w { w with
        manager := { w.manager with worker := .listing w.manager.now }, rounds := w.rounds + 1 }
  | lists (c : Nat) (hworker : w.manager.worker = .listing c) :
      Worked w { w with manager := w.manager.workListing c }
  | starts (t : Timer C) (rest : List (Timer C)) (hworker : w.manager.worker = .round)
      (hcalling : w.manager.calling = none) (hvec : w.manager.expireTimerVec = t :: rest) :
      Worked w { w with
        manager := { w.manager with calling := some t, expireTimerVec := rest }
        fired := w.fired ++ w.firing t }
  | rearms (t : Timer C) (hworker : w.manager.worker = .round)
      (hcalling : w.manager.calling = some t) (hrecurs : t.recurs = true) :
      Worked w { w with
        manager := { w.manager with
          timers := emplace Timer.key { t with time := (t.time + t.recycleTime) % 2 ^ 64 }
            w.manager.timers
          calling := none } }
  | frees (t : Timer C) (hworker : w.manager.worker = .round)
      (hcalling : w.manager.calling = some t) (honce : t.recurs ≠ true) :
      Worked w { w with manager := { w.manager with calling := none }, freed := w.freed ++ [t] }

theorem worked_cases (h : w.Accounts) : w.Worked w.worked := by
  have hidle := h.idle
  have hquiet : ∀ m : TimerManager C, (∃ signal notified worker, worker ≠ .round ∧
      (∀ c, worker ≠ .listing c) ∧
      m = { w.manager with signal := signal, notified := notified, worker := worker }) →
      w.manager.expireTimerVec = [] ∧ w.manager.calling = none →
        w.Worked { w with manager := m } := by
    rintro m ⟨signal, notified, worker, hround, hlisting, rfl⟩ hidle
    exact .quiet signal notified worker hround hlisting hidle
  unfold worked TimerManager.work TimerManager.starts TimerManager.frees
  cases hworker : w.manager.worker with
  | top =>
    simp only [Option.toList_none, List.map_nil, List.append_nil, reduceCtorEq, if_false]
    refine hquiet _ ?_ (hidle (by rw [hworker]; exact nofun))
    unfold TimerManager.workTop
    split
    · exact ⟨_, _, .waiting, nofun, nofun, rfl⟩
    · rename_i head rest _
      by_cases hlater : 0 < if w.manager.now < head.time then head.time - w.manager.now else 0
      · simp only [if_pos hlater]
        cases hsleep : selectTimeout (timeval
            (if w.manager.now < head.time then head.time - w.manager.now else 0)) with
        | none => exact ⟨_, _, .exited, nofun, nofun, rfl⟩
        | some ms => exact ⟨_, _, .selecting (w.manager.now + ms), nofun, nofun, rfl⟩
      · simp only [if_neg hlater]
        exact ⟨_, _, .collecting, nofun, nofun, rfl⟩
  | waiting =>
    simp only [Option.toList_none, List.map_nil, List.append_nil, reduceCtorEq, if_false]
    refine hquiet _ ?_ (hidle (by rw [hworker]; exact nofun))
    unfold TimerManager.workWaiting
    split
    · exact ⟨_, _, .top, nofun, nofun, rfl⟩
    · exact ⟨_, _, .waiting, nofun, nofun, by rw [← hworker]⟩
  | selecting wakeAt =>
    simp only [Option.toList_none, List.map_nil, List.append_nil, reduceCtorEq, if_false]
    refine hquiet _ ?_ (hidle (by rw [hworker]; exact nofun))
    unfold TimerManager.workSelecting
    split
    · exact ⟨_, _, .collecting, nofun, nofun, rfl⟩
    · split
      · exact ⟨_, _, .collecting, nofun, nofun, rfl⟩
      · exact ⟨_, _, .selecting wakeAt, nofun, nofun, by rw [← hworker]⟩
  | collecting =>
    simp only [Option.toList_none, List.map_nil, List.append_nil, if_true]
    exact .reads hworker
  | listing c =>
    simp only [Option.toList_none, List.map_nil, List.append_nil, reduceCtorEq, if_false]
    exact .lists c hworker
  | round =>
    simp only [reduceCtorEq, if_false]
    cases hcalling : w.manager.calling with
    | some t =>
      by_cases hrecurs : t.recurs = true
      · simpa [TimerManager.workRound, TimerManager.workCalled, hcalling, hrecurs]
          using Worked.rearms t hworker hcalling hrecurs
      · simpa [TimerManager.workRound, TimerManager.workCalled, hcalling, hrecurs]
          using Worked.frees t hworker hcalling hrecurs
    | none =>
      cases hvec : w.manager.expireTimerVec with
      | nil =>
        simp only [Option.toList_none, List.map_nil, List.append_nil]
        refine hquiet _ ⟨w.manager.signal, w.manager.notified, .top, nofun, nofun, ?_⟩
          ⟨hvec, hcalling⟩
        simp only [TimerManager.workRound, hcalling, hvec]
      | cons t rest =>
        have hstarts := Worked.starts t rest hworker hcalling hvec
        by_cases hcb : t.cb.isSome = true
        · simpa [TimerManager.workRound, hcalling, hvec, hcb, firing] using hstarts
        · simpa [TimerManager.workRound, hcalling, hvec, hcb, firing] using hstarts
  | exited =>
    simp only [Option.toList_none, List.map_nil, List.append_nil, reduceCtorEq, if_false]
    exact hquiet _ ⟨_, _, .exited, nofun, nofun, by rw [← hworker]⟩
      (hidle (by rw [hworker]; exact nofun))

namespace Accounts

theorem worked (h : w.Accounts) (hsound : w.manager.Sound .work) : w.worked.Accounts := by
  classical
  have hcases := worked_cases h
  generalize w.worked = w' at hcases
  cases hcases with
  | quiet signal notified worker hround hlisting hidle =>
    exact h.of_perm rfl rfl h.sorted (List.Perm.refl _) fun _ => hidle
  | reads hworker =>
    exact h.of_perm rfl rfl h.sorted (List.Perm.refl _)
      fun _ => h.idle (by rw [hworker]; exact nofun)
  | lists c hworker =>
    have hidle := h.idle (by rw [hworker]; exact nofun)
    refine h.of_perm rfl rfl (h.sorted.sublist (List.dropWhile_sublist _)) ?_
      fun hround => absurd rfl hround
    refine List.Perm.append_right _ (List.Perm.append_right _ ?_)
    rw [hidle.1, List.append_nil]
    have hsplit := @List.perm_append_comm _ (w.manager.timers.dropWhile fun t => t.time ≤ c)
      (w.manager.timers.takeWhile fun t => t.time ≤ c)
    rwa [List.takeWhile_append_dropWhile] at hsplit
  | starts t rest hworker hcalling hvec =>
    refine h.of_perm rfl rfl h.sorted ?_ fun hround => absurd hworker hround
    refine List.perm_iff_count.2 fun a => ?_
    simp only [unfired, past, hcalling, hvec, List.count_append, List.count_cons,
      Option.toList_some, Option.toList_none, List.count_nil]
    omega
  | rearms t hworker hcalling hrecurs =>
    have htime := hsound.2 t hcalling
    have hold : t ∈ w.unfired ++ w.past := by simp [unfired, past, hcalling]
    have hfree : ∀ u ∈ w.manager.timers, u.uniqueId ≠ t.uniqueId := fun u hu =>
      h.past_ne (by simp [unfired, hu]) (by simp [past, hcalling])
    have hperm := Timer.emplace_perm (t := { t with time := (t.time + t.recycleTime) % 2 ^ 64 })
      hfree
    refine h.move rfl rfl (sorted_emplace h.sorted) ?_ ?_ fun hround => absurd hworker hround
    · have hbase := hperm.map Timer.base
      rw [List.map_cons, Timer.base_rearmed hrecurs] at hbase
      refine List.perm_iff_count.2 fun a => ?_
      have hcount := hbase.count_eq a
      simp only [unfired, past, hcalling, List.map_append, List.count_append, List.map_cons,
        List.count_cons, Option.toList_some, Option.toList_none, List.count_nil, List.map_nil]
        at hcount ⊢
      omega
    · intro u hu
      by_cases hset : u ∈ w.manager.timers ∨ u ∈ w.unfired ++ w.past
      · refine ⟨u, ?_, rfl, le_rfl⟩
        exact hset.elim (fun hmem => by simp [unfired, hmem]) id
      · have hnew : u = { t with time := (t.time + t.recycleTime) % 2 ^ 64 } := by
          rcases List.mem_append.1 hu with hun | hpast
          · rcases List.mem_append.1 hun with hin | hrem
            · rcases List.mem_append.1 hin with hin | hvec
              · rcases List.mem_cons.1 (hperm.mem_iff.1 hin) with heq | hmem
                · exact heq
                · exact absurd (Or.inl hmem) hset
              · exact absurd (Or.inr (by simp [unfired, hvec])) hset
            · exact absurd (Or.inr (by simp [unfired, hrem])) hset
          · refine absurd (Or.inr ?_) hset
            simp only [past, Option.toList_none, List.nil_append] at hpast
            simp [past, hpast]
        refine ⟨t, hold, by rw [hnew], ?_⟩
        rw [hnew]
        show t.time ≤ (t.time + t.recycleTime) % 2 ^ 64
        rw [Nat.mod_eq_of_lt htime]
        exact Nat.le_add_right _ _
  | frees t hworker hcalling honce =>
    refine h.of_perm rfl rfl h.sorted ?_ fun hround => absurd hworker hround
    refine List.perm_iff_count.2 fun a => ?_
    simp only [unfired, past, hcalling, List.count_append, List.count_cons,
      Option.toList_some, Option.toList_none, List.count_nil]
    omega

/-- What `delTimer` finds and what it leaves are the set. -/
theorem find_eraseP_perm {α : Type*} (p : α → Bool) (l : List α) :
    (l.eraseP p ++ (l.find? p).toList).Perm l := by
  induction l with
  | nil => exact List.Perm.refl _
  | cons a l ih =>
    by_cases ha : p a = true
    · rw [List.eraseP_cons_of_pos ha, List.find?_cons_of_pos ha]
      exact List.perm_append_singleton _ _
    · rw [List.eraseP_cons_of_neg ha, List.find?_cons_of_neg ha]
      exact ih.cons a

theorem del (h : w.Accounts) (id : Nat) : (w.del id).Accounts := by
  classical
  refine h.of_perm rfl rfl (h.sorted.sublist List.eraseP_sublist) ?_ h.idle
  have hperm := find_eraseP_perm (fun t : Timer C => decide (t.uniqueId = id)) w.manager.timers
  refine List.perm_iff_count.2 fun a => ?_
  have hcount := hperm.count_eq a
  simp only [unfired, past, Clocked.del, TimerManager.delTimer, List.count_append] at hcount ⊢
  omega

theorem add (h : w.Accounts) {ms : Nat} {cb : Option C} {recycle : UInt32}
    (hsound : w.manager.Sound (.addTimer ms cb recycle)) : (w.add ms cb recycle).Accounts := by
  classical
  have hwrap : (w.manager.now + ms) % 2 ^ 64 = w.manager.now + ms := Nat.mod_eq_of_lt hsound
  let timer : Timer C :=
    ⟨(w.manager.now + ms) % 2 ^ 64, recycle.toNat, cb, w.manager.timerCount + 1⟩
  let request : TimerRequest C := ⟨timer, w.manager.now + ms⟩
  have hnew : ∀ t ∈ w.unfired ++ w.past, t.uniqueId ≠ timer.uniqueId := fun t ht heq => by
    have hle := h.id_le ht
    rw [heq] at hle
    exact absurd hle (Nat.not_succ_le_self _)
  have hperm : (emplace Timer.key timer w.manager.timers).Perm (timer :: w.manager.timers) :=
    Timer.emplace_perm fun u hu => hnew u (by simp [unfired, hu])
  have hall : ((w.add ms cb recycle).unfired ++ (w.add ms cb recycle).past).Perm
      (timer :: (w.unfired ++ w.past)) := by
    refine List.perm_iff_count.2 fun a => ?_
    have hcount := hperm.count_eq a
    show (emplace Timer.key timer w.manager.timers ++ w.manager.expireTimerVec ++ w.removed ++
      (w.manager.calling.toList ++ w.freed)).count a = _
    simp only [unfired, past, List.count_append, List.count_cons] at hcount ⊢
    omega
  refine ⟨sorted_emplace h.sorted, ?_, ?_, ?_, ?_, h.idle⟩
  · have hbases : (w.requests ++ [request]).map (fun r => r.timer.base) =
        w.requests.map (fun r => r.timer.base) ++ [timer.base] := List.map_append ..
    refine (hall.map Timer.base).trans ?_
    show List.Perm _ ((w.requests ++ [request]).map fun r => r.timer.base)
    rw [hbases]
    exact (h.all.cons _).trans (List.perm_append_singleton _ _).symm
  · show ((w.requests ++ [request]).map fun r => r.timer.uniqueId).Nodup
    rw [List.map_append]
    refine List.Nodup.append h.ids (List.nodup_singleton _) fun id hid hsingle => ?_
    obtain ⟨r, hr, rfl⟩ := List.mem_map.1 hid
    have hle := h.fresh r hr
    rw [List.map_singleton, List.mem_singleton] at hsingle
    rw [hsingle] at hle
    exact absurd hle (Nat.not_succ_le_self _)
  · intro r hr
    rcases List.mem_append.1 hr with hold | hnew
    · exact Nat.le_succ_of_le (h.fresh r hold)
    · rw [List.mem_singleton.1 hnew]
      exact le_rfl
  · intro t ht r hr hid
    rcases List.mem_cons.1 (hall.mem_iff.1 ht) with rfl | hold
    · rcases List.mem_append.1 hr with hrold | hrnew
      · have hle := h.fresh r hrold
        rw [hid] at hle
        exact absurd hle (Nat.not_succ_le_self _)
      · rw [List.mem_singleton.1 hrnew]
        exact hwrap.ge
    · rcases List.mem_append.1 hr with hrold | hrnew
      · exact h.due t hold r hrold hid
      · rw [List.mem_singleton.1 hrnew] at hid
        exact absurd hid.symm (hnew t hold)

theorem step (h : w.Accounts) {op : TimerOp C} (hsound : w.manager.Sound op) :
    (w.step op).Accounts := by
  cases op with
  | addTimer ms cb recycle => exact h.add hsound
  | delTimer id => exact h.del id
  | work => exact h.worked hsound
  | interrupt =>
    rw [step_interrupt hsound]
    exact h
  | tick ms => exact h.of_perm rfl rfl h.sorted (List.Perm.refl _) h.idle

end Accounts

-- ==== order

/-- A round runs in the order of the set, and not before its timers are
due. -/
structure Ordered (w : Clocked C) : Prop where
  vec : w.manager.expireTimerVec.Pairwise fun t u => t.time ≤ u.time
  ripe : ∀ t ∈ w.manager.expireTimerVec, t.time ≤ w.manager.now
  clock : ∀ c, w.manager.worker = .listing c → c ≤ w.manager.now ∧ ∀ f ∈ w.fired, f.round < w.rounds
  ahead : ∀ f ∈ w.fired, f.round ≤ w.rounds ∧
    (f.round = w.rounds → ∀ t ∈ w.manager.expireTimerVec, f.timer.time ≤ t.time)
  fired : w.fired.Pairwise fun f g => f.round = g.round → f.timer.time ≤ g.timer.time
  ontime : ∀ f ∈ w.fired, f.timer.time ≤ f.firedAt

namespace Ordered

theorem work (h : w.Ordered) (ha : w.Accounts) : w.worked.Ordered := by
  have hcases := worked_cases ha
  generalize w.worked = w' at hcases
  cases hcases with
  | quiet signal notified worker hround hlisting hidle =>
    exact ⟨h.vec, h.ripe, fun c hc => absurd hc (hlisting c), h.ahead, h.fired, h.ontime⟩
  | reads hworker =>
    have hidle := ha.idle (by rw [hworker]; exact nofun)
    refine ⟨h.vec, h.ripe, fun c hc => ?_, fun f hf => ?_, h.fired, h.ontime⟩
    · obtain rfl : w.manager.now = c := Worker.listing.inj hc
      exact ⟨le_rfl, fun f hf => Nat.lt_succ_of_le (h.ahead f hf).1⟩
    · refine ⟨Nat.le_succ_of_le (h.ahead f hf).1, fun _ t ht => ?_⟩
      rw [show w.manager.expireTimerVec = [] from hidle.1] at ht
      cases ht
  | lists c hworker =>
    obtain ⟨hc, hearlier⟩ := h.clock c hworker
    have hset : w.manager.timers.Pairwise fun t u => t.time ≤ u.time := ha.sorted.imp fun hlt => by
      rcases Prod.Lex.toLex_lt_toLex.1 hlt with hless | ⟨heq, -⟩
      · exact hless.le
      · exact heq.le
    refine ⟨hset.sublist (List.takeWhile_sublist _), fun t ht => ?_, nofun, fun f hf => ?_,
      h.fired, h.ontime⟩
    · have htime := List.mem_takeWhile_imp ht
      exact (of_decide_eq_true htime).trans hc
    · have hlt := hearlier f hf
      exact ⟨hlt.le, fun heq => absurd heq hlt.ne⟩
  | starts t rest hworker hcalling hvec =>
    have hvecs := h.vec
    rw [hvec] at hvecs
    obtain ⟨hfirst, hrest⟩ := List.pairwise_cons.1 hvecs
    refine ⟨hrest, fun u hu => h.ripe u ?_, fun c hc => ?_, fun f hf => ?_, ?_, fun f hf => ?_⟩
    · rw [hvec]
      exact List.mem_cons_of_mem _ hu
    · exact nomatch hworker.symm.trans hc
    · rcases List.mem_append.1 hf with hold | hadded
      · obtain ⟨hle, hahead⟩ := h.ahead f hold
        refine ⟨hle, fun heq u hu => hahead heq u ?_⟩
        rw [hvec]
        exact List.mem_cons_of_mem _ hu
      · rw [mem_firing hadded]
        exact ⟨le_rfl, fun _ u hu => hfirst u hu⟩
    · refine List.pairwise_append.2 ⟨h.fired, ?_, fun f hf g hg hround => ?_⟩
      · unfold firing
        split
        · exact List.pairwise_singleton _ _
        · exact List.Pairwise.nil
      · rw [mem_firing hg] at hround ⊢
        exact (h.ahead f hf).2 hround t (by rw [hvec]; exact List.mem_cons_self)
    · rcases List.mem_append.1 hf with hold | hadded
      · exact h.ontime f hold
      · rw [mem_firing hadded]
        exact h.ripe t (by rw [hvec]; exact List.mem_cons_self)
  | rearms t hworker hcalling hrecurs =>
    exact ⟨h.vec, h.ripe, fun c hc => (nomatch hworker.symm.trans hc), h.ahead, h.fired, h.ontime⟩
  | frees t hworker hcalling honce =>
    exact ⟨h.vec, h.ripe, fun c hc => (nomatch hworker.symm.trans hc), h.ahead, h.fired, h.ontime⟩

theorem step (h : w.Ordered) (ha : w.Accounts) {op : TimerOp C} (hsound : w.manager.Sound op) :
    (w.step op).Ordered := by
  cases op with
  | interrupt =>
    rw [step_interrupt hsound]
    exact h
  | addTimer ms cb recycle => exact ⟨h.vec, h.ripe, h.clock, h.ahead, h.fired, h.ontime⟩
  | delTimer id => exact ⟨h.vec, h.ripe, h.clock, h.ahead, h.fired, h.ontime⟩
  | work => exact h.work ha
  | tick ms =>
    exact ⟨h.vec, fun t ht => Nat.le_add_right_of_le (h.ripe t ht),
      fun c hc => ⟨Nat.le_add_right_of_le (h.clock c hc).1, (h.clock c hc).2⟩, h.ahead, h.fired,
      h.ontime⟩

end Ordered

-- ==== how often

/-- How often a timer has fired, by where it is. -/
structure Counted (w : Clocked C) : Prop where
  known : ∀ f ∈ w.fired, f.timer.uniqueId ≤ w.manager.timerCount
  due : ∀ f ∈ w.fired, ∀ r ∈ w.requests, r.timer.uniqueId = f.timer.uniqueId →
    r.due ≤ f.timer.time
  unfired : ∀ t ∈ w.unfired, t.recurs ≠ true → w.firings t.uniqueId = 0
  past : ∀ t ∈ w.past, t.recurs ≠ true → t.cb.isSome → w.firings t.uniqueId = 1
  freed : ∀ t ∈ w.freed, t.recurs ≠ true
  deleted : ∀ d ∈ w.deletions, d.uniqueId ≤ w.manager.timerCount ∧
    ∀ r ∈ w.requests, r.timer.uniqueId = d.uniqueId → r.timer.recurs = true →
      w.firings d.uniqueId = d.firings ∧ ∃ t ∈ w.removed, t.uniqueId = d.uniqueId

theorem firings_eq_zero (h : ∀ f ∈ w.fired, f.timer.uniqueId ≤ w.manager.timerCount) {id : Nat}
    (hid : w.manager.timerCount < id) : w.firings id = 0 := by
  refine List.countP_eq_zero.2 fun f hf => ?_
  have hle := h f hf
  simp only [decide_eq_true_eq]
  omega

namespace Counted

theorem add (h : w.Counted) (ha : w.Accounts) (ms : Nat) (cb : Option C) (recycle : UInt32) :
    (w.add ms cb recycle).Counted := by
  refine ⟨fun f hf => Nat.le_succ_of_le (h.known f hf), fun f hf r hr hid => ?_,
    fun t ht honce => ?_,
    h.past, h.freed, fun d hd => ⟨Nat.le_succ_of_le (h.deleted d hd).1, fun r hr hid hrecurs => ?_⟩⟩
  · rcases List.mem_append.1 hr with hold | hnew
    · exact h.due f hf r hold hid
    · rw [List.mem_singleton.1 hnew] at hid
      have hle := h.known f hf
      rw [← hid] at hle
      exact absurd hle (Nat.not_succ_le_self _)
  · rcases List.mem_append.1 ht with hin | hrem
    · rcases List.mem_append.1 hin with hset | hvec
      · rcases (mem_emplace ha.sorted).1 hset with hold | ⟨rfl, -⟩
        · exact h.unfired t (by simp [Clocked.unfired, hold]) honce
        · exact firings_eq_zero h.known (Nat.lt_succ_self _)
      · exact h.unfired t (List.mem_append_left _ (List.mem_append_right _ hvec)) honce
    · exact h.unfired t (List.mem_append_right _ hrem) honce
  · rcases List.mem_append.1 hr with hold | hnew
    · exact (h.deleted d hd).2 r hold hid hrecurs
    · rw [List.mem_singleton.1 hnew] at hid
      have hle := (h.deleted d hd).1
      rw [← hid] at hle
      exact absurd hle (Nat.not_succ_le_self _)

theorem removed_of_recurs (h : w.Counted) (ha : w.Accounts) {id : Nat}
    (hsound : w.manager.Sound (.delTimer id)) {r : TimerRequest C} (hr : r ∈ w.requests)
    (hid : r.timer.uniqueId = id) (hrecurs : r.timer.recurs = true) :
    ∃ t ∈ (w.del id).removed, t.uniqueId = id := by
  obtain ⟨t, ht, hbase⟩ := ha.somewhere hr
  have hsame : t.uniqueId = id := by
    have heq := congrArg Timer.uniqueId hbase
    rw [Timer.base_uniqueId, Timer.base_uniqueId] at heq
    exact heq.trans hid
  have hagain : t.recurs = true := by
    have heq := congrArg Timer.recurs hbase
    rw [Timer.base_recurs, Timer.base_recurs] at heq
    exact heq.trans hrecurs
  rcases List.mem_append.1 ht with hun | hpast
  · rcases List.mem_append.1 hun with hin | hrem
    · rcases List.mem_append.1 hin with hset | hvec
      · cases hfind : w.manager.timers.find? fun t => decide (t.uniqueId = id) with
        | none =>
          have hnot := List.find?_eq_none.1 hfind t hset
          exact absurd (decide_eq_true hsame) hnot
        | some u =>
          have hu := List.find?_some hfind
          refine ⟨u, ?_, of_decide_eq_true hu⟩
          show u ∈ w.removed ++ (w.manager.timers.find? _).toList
          rw [hfind]
          exact List.mem_append_right _ (List.mem_singleton_self u)
      · exact absurd hagain (hsound t (List.mem_append_right _ hvec) hsame)
    · exact ⟨t, List.mem_append_left _ hrem, hsame⟩
  · rcases List.mem_append.1 hpast with hcalling | hfreed
    · exact absurd hagain (hsound t (List.mem_append_left _ hcalling) hsame)
    · exact absurd hagain (h.freed t hfreed)

theorem del (h : w.Counted) (ha : w.Accounts) {id : Nat}
    (hsound : w.manager.Sound (.delTimer id)) : (w.del id).Counted := by
  refine ⟨h.known, h.due, fun t ht honce => h.unfired t ?_ honce, h.past, h.freed, fun d hd => ?_⟩
  · have hperm := Accounts.find_eraseP_perm (fun t : Timer C => decide (t.uniqueId = id))
      w.manager.timers
    rcases List.mem_append.1 ht with hin | hrem
    · rcases List.mem_append.1 hin with hset | hvec
      · exact List.mem_append_left _ (List.mem_append_left _ (List.mem_of_mem_eraseP hset))
      · exact List.mem_append_left _ (List.mem_append_right _ hvec)
    · rcases List.mem_append.1 hrem with hold | hfound
      · exact List.mem_append_right _ hold
      · exact List.mem_append_left _ (List.mem_append_left _
          (hperm.mem_iff.1 (List.mem_append_right _ hfound)))
  · have hold : d ∈ w.deletions → d.uniqueId ≤ w.manager.timerCount ∧
        ∀ r ∈ w.requests, r.timer.uniqueId = d.uniqueId → r.timer.recurs = true →
          w.firings d.uniqueId = d.firings ∧ ∃ t ∈ (w.del id).removed, t.uniqueId = d.uniqueId := by
      intro hd
      obtain ⟨hle, hall⟩ := h.deleted d hd
      refine ⟨hle, fun r hr hid hrecurs => ?_⟩
      obtain ⟨hsame, t, ht, heq⟩ := hall r hr hid hrecurs
      exact ⟨hsame, t, List.mem_append_left _ ht, heq⟩
    have hdel : d ∈ (if w.requests.any fun r => decide (r.timer.uniqueId = id) then
        w.deletions ++ [⟨id, w.firings id⟩] else w.deletions) := hd
    by_cases hknown : (w.requests.any fun r => decide (r.timer.uniqueId = id)) = true
    · rw [if_pos hknown] at hdel
      rcases List.mem_append.1 hdel with hd | hnew
      · exact hold hd
      · rw [List.mem_singleton.1 hnew]
        obtain ⟨r, hr, hid⟩ := List.any_eq_true.1 hknown
        refine ⟨?_, fun r hr hid hrecurs => ⟨rfl, h.removed_of_recurs ha hsound hr hid hrecurs⟩⟩
        have hle := ha.fresh r hr
        rwa [of_decide_eq_true hid] at hle
    · rw [if_neg hknown] at hdel
      exact hold hdel

/-- The counts are told by ids, so a step that fires nothing and moves
timers within what has fired and what has not keeps them. -/
theorem of_fired (h : w.Counted) {w' : Clocked C} (hfired : w'.fired = w.fired)
    (hrequests : w'.requests = w.requests) (hcount : w'.manager.timerCount = w.manager.timerCount)
    (hunfired : ∀ t ∈ w'.unfired, t.recurs ≠ true → t ∈ w.unfired)
    (hpast : ∀ t ∈ w'.past, t ∈ w.past) (hfreed : ∀ t ∈ w'.freed, t.recurs ≠ true)
    (hremoved : w'.removed = w.removed) (hdeletions : w'.deletions = w.deletions) : w'.Counted := by
  have hsame : ∀ id, w'.firings id = w.firings id := fun id => by rw [firings, hfired]; rfl
  refine ⟨?_, ?_, fun t ht honce => ?_, fun t ht honce hcb => ?_, hfreed, ?_⟩
  · rw [hfired, hcount]
    exact h.known
  · rw [hfired, hrequests]
    exact h.due
  · rw [hsame]
    exact h.unfired t (hunfired t ht honce) honce
  · rw [hsame]
    exact h.past t (hpast t ht) honce hcb
  · rw [hdeletions, hrequests, hremoved, hcount]
    simp only [hsame]
    exact h.deleted

theorem starts (h : w.Counted) (ha : w.Accounts) {t : Timer C} {rest : List (Timer C)}
    (hvec : w.manager.expireTimerVec = t :: rest) :
    ({ w with
        manager := { w.manager with calling := some t, expireTimerVec := rest }
        fired := w.fired ++ w.firing t } :
      Clocked C).Counted := by
  have ht : t ∈ w.unfired :=
    List.mem_append_left _ (List.mem_append_right _ (by rw [hvec]; exact List.mem_cons_self))
  have hall : t ∈ w.unfired ++ w.past := List.mem_append_left _ ht
  have hother : ∀ id, t.uniqueId ≠ id →
      (w.fired ++ w.firing t).countP (fun f => decide (f.timer.uniqueId = id)) = w.firings id := by
    intro id hid
    have hnone : (w.firing t).countP (fun f => decide (f.timer.uniqueId = id)) = 0 := by
      refine List.countP_eq_zero.2 fun f hf => ?_
      rw [mem_firing hf]
      simpa using hid
    rw [List.countP_append, hnone]
    rfl
  -- the ids of what is left in the round, and of what was taken out, are others
  have hrest : ∀ u ∈ w.manager.timers ++ rest ++ w.removed, t.uniqueId ≠ u.uniqueId := by
    have hnodup := ha.nodup
    rw [List.map_append] at hnodup
    have hun := (List.nodup_append.1 hnodup).1
    have hperm : w.unfired.Perm (t :: (w.manager.timers ++ rest ++ w.removed)) := by
      unfold Clocked.unfired
      rw [hvec, List.append_assoc, List.append_assoc]
      exact List.perm_middle
    have hcons := (hperm.map Timer.uniqueId).nodup_iff.1 hun
    intro u hu heq
    exact (List.nodup_cons.1 hcons).1 (heq ▸ List.mem_map_of_mem hu)
  refine ⟨fun f hf => ?_, fun f hf r hr hid => ?_, fun u hu honce => ?_, fun u hu honce hcb => ?_,
    h.freed, fun d hd => ⟨(h.deleted d hd).1, fun r hr hid hrecurs => ?_⟩⟩
  · rcases List.mem_append.1 hf with hold | hnew
    · exact h.known f hold
    · rw [mem_firing hnew]
      exact ha.id_le hall
  · rcases List.mem_append.1 hf with hold | hnew
    · exact h.due f hold r hr hid
    · rw [mem_firing hnew] at hid ⊢
      exact ha.due t hall r hr hid
  · have hold : u ∈ w.unfired := by
      rcases List.mem_append.1 hu with hin | hrem
      · rcases List.mem_append.1 hin with hset | hleft
        · exact List.mem_append_left _ (List.mem_append_left _ hset)
        · exact List.mem_append_left _ (List.mem_append_right _
            (by rw [hvec]; exact List.mem_cons_of_mem _ hleft))
      · exact List.mem_append_right _ hrem
    exact (hother _ (hrest u hu)).trans (h.unfired u hold honce)
  · rcases List.mem_append.1 hu with hnew | hfreed
    · obtain rfl : u = t := List.mem_singleton.1 hnew
      have hzero := h.unfired u ht honce
      show (w.fired ++ w.firing u).countP _ = 1
      rw [firing, if_pos hcb, List.countP_append]
      show w.firings u.uniqueId + _ = 1
      rw [hzero]
      simp
    · have hold : u ∈ w.past := List.mem_append_right _ hfreed
      exact (hother _ (ha.past_ne ht hold)).trans (h.past u hold honce hcb)
  · obtain ⟨hsame, u, hu, heq⟩ := (h.deleted d hd).2 r hr hid hrecurs
    refine ⟨(hother _ ?_).trans hsame, u, hu, heq⟩
    rw [← heq]
    exact hrest u (List.mem_append_right _ hu)

theorem work (h : w.Counted) (ha : w.Accounts) : w.worked.Counted := by
  have hcases := worked_cases ha
  generalize w.worked = w' at hcases
  cases hcases with
  | quiet signal notified worker hround hlisting hidle =>
    exact h.of_fired rfl rfl rfl (fun _ ht _ => ht) (fun _ ht => ht) h.freed rfl rfl
  | reads hworker =>
    exact h.of_fired rfl rfl rfl (fun _ ht _ => ht) (fun _ ht => ht) h.freed rfl rfl
  | lists c hworker =>
    refine h.of_fired rfl rfl rfl (fun t ht _ => ?_) (fun _ ht => ht) h.freed rfl rfl
    rcases List.mem_append.1 ht with hin | hrem
    · refine List.mem_append_left _ (List.mem_append_left _ ?_)
      rcases List.mem_append.1 hin with hlater | hnow
      · exact (List.dropWhile_sublist _).subset hlater
      · exact (List.takeWhile_sublist _).subset hnow
    · exact List.mem_append_right _ hrem
  | starts t rest hworker hcalling hvec => exact h.starts ha hvec
  | rearms t hworker hcalling hrecurs =>
    refine h.of_fired rfl rfl rfl (fun u hu honce => ?_) (fun u hu => ?_) h.freed rfl rfl
    · rcases List.mem_append.1 hu with hin | hrem
      · rcases List.mem_append.1 hin with hset | hvec
        · rcases (mem_emplace ha.sorted).1 hset with hold | ⟨rfl, -⟩
          · exact List.mem_append_left _ (List.mem_append_left _ hold)
          · exact absurd hrecurs honce
        · exact List.mem_append_left _ (List.mem_append_right _ hvec)
      · exact List.mem_append_right _ hrem
    · exact List.mem_append_right _ hu
  | frees t hworker hcalling honce =>
    refine h.of_fired rfl rfl rfl (fun _ hu _ => hu) (fun u hu => ?_) (fun u hu => ?_) rfl rfl
    · rcases List.mem_append.1 hu with hnone | hfreed
      · cases hnone
      · rcases List.mem_append.1 hfreed with hold | hnew
        · exact List.mem_append_right _ hold
        · rw [List.mem_singleton.1 hnew]
          exact List.mem_append_left _ (by rw [hcalling]; exact List.mem_singleton_self t)
    · rcases List.mem_append.1 hu with hold | hnew
      · exact h.freed u hold
      · rwa [List.mem_singleton.1 hnew]

theorem step (h : w.Counted) (ha : w.Accounts) {op : TimerOp C} (hsound : w.manager.Sound op) :
    (w.step op).Counted := by
  cases op with
  | addTimer ms cb recycle => exact h.add ha ms cb recycle
  | delTimer id => exact h.del ha hsound
  | work => exact h.work ha
  | interrupt =>
    rw [step_interrupt hsound]
    exact h
  | tick ms => exact h.of_fired rfl rfl rfl (fun _ ht _ => ht) (fun _ ht => ht) h.freed rfl rfl

end Counted

-- ==== runs

/-- What holds in every state that sound steps lead to. -/
structure Kept (w : Clocked C) : Prop where
  accounts : w.Accounts
  ordered : w.Ordered
  counted : w.Counted
  awake : w.manager.Awake

theorem kept_new : ({} : Clocked C).Kept where
  accounts := accounts_new
  ordered := ⟨List.Pairwise.nil, nofun, nofun, nofun, List.Pairwise.nil, nofun⟩
  counted := ⟨nofun, nofun, nofun, nofun, nofun, nofun⟩
  awake := trivial

theorem Kept.step (h : w.Kept) {op : TimerOp C} (hsound : w.manager.Sound op) :
    (w.step op).Kept := by
  refine ⟨h.accounts.step hsound, h.ordered.step h.accounts hsound,
    h.counted.step h.accounts hsound, ?_⟩
  cases op with
  | interrupt =>
    rw [step_interrupt hsound]
    exact h.awake
  | addTimer ms cb recycle => exact h.awake.addTimer h.accounts.sorted ms cb recycle
  | delTimer id => exact h.awake.delTimer id
  | work => exact h.awake.work h.accounts.sorted hsound.1
  | tick ms => exact h.awake

/-- The timers that are still to be run. -/
def pending (w : Clocked C) : List (Timer C) :=
  w.manager.timers ++ w.manager.expireTimerVec

/-- What a timer manager is for. -/
structure FiresRight (w : Clocked C) : Prop where
  /-- A one-shot timer that was not deleted is still to be run, or has fired
  once. -/
  once : ∀ r ∈ w.requests, r.timer.recycleTime = 0 → r.timer.cb.isSome → r.timer ∉ w.removed →
    (w.firings r.timer.uniqueId = 0 ∧ r.timer ∈ w.pending) ∨
      (w.firings r.timer.uniqueId = 1 ∧ r.timer ∉ w.pending)
  /-- One that was deleted before the worker collected it has not fired. -/
  removed : ∀ t ∈ w.removed, t.recycleTime = 0 → w.firings t.uniqueId = 0
  /-- No timer fires before its time, -/
  notEarly : ∀ f ∈ w.fired, ∀ r ∈ w.requests, r.timer.uniqueId = f.timer.uniqueId →
    r.due ≤ f.firedAt
  /-- and those of one round fire in the order of theirs. -/
  inOrder : w.fired.Pairwise fun f g => f.round = g.round → f.timer.time ≤ g.timer.time
  /-- A recurring timer has not fired since it was deleted. -/
  deleted : ∀ d ∈ w.deletions, ∀ r ∈ w.requests, r.timer.uniqueId = d.uniqueId →
    0 < r.timer.recycleTime → r.timer.cb.isSome → w.firings d.uniqueId = d.firings
  /-- The worker sleeps past no timer. -/
  awake : w.manager.Awake

theorem not_recurs_of_once {t : Timer C} (h : t.recycleTime = 0) : t.recurs ≠ true := by
  simp [Timer.recurs, h]

theorem Kept.firesRight (h : w.Kept) : w.FiresRight where
  once := by
    intro r hr hrecycle hcb hremoved
    have honce := not_recurs_of_once hrecycle
    obtain ⟨t, ht, hbase⟩ := h.accounts.somewhere hr
    have hrecurs := congrArg Timer.recurs hbase
    rw [Timer.base_recurs, Timer.base_recurs] at hrecurs
    rw [Timer.base_of_not_recurs (by rw [hrecurs]; exact honce), Timer.base_of_not_recurs honce]
      at hbase
    subst hbase
    rcases List.mem_append.1 ht with hun | hpast
    · rcases List.mem_append.1 hun with hin | hrem
      · exact Or.inl ⟨h.counted.unfired _ hun honce, hin⟩
      · exact absurd hrem hremoved
    · refine Or.inr ⟨h.counted.past _ hpast honce hcb, fun hin => ?_⟩
      exact h.accounts.past_ne (List.mem_append_left _ hin) hpast rfl
  removed t ht hrecycle :=
    h.counted.unfired t (List.mem_append_right _ ht) (not_recurs_of_once hrecycle)
  notEarly f hf r hr hid := (h.counted.due f hf r hr hid).trans (h.ordered.ontime f hf)
  inOrder := h.ordered.fired
  deleted d hd r hr hid hrecycle hcb :=
    ((h.counted.deleted d hd).2 r hr hid (by simp [Timer.recurs, hrecycle, hcb])).1
  awake := h.awake

end Clocked

end Eular.Utils
