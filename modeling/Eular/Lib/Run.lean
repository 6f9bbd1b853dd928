/-
Runs of a deterministic machine, and the rule that carries an invariant
along one.

A component of the program is a state and a step function on it; what
the environment does (frames arriving, the application reading, a packet
being lost) is the list of operations the steps consume. Two things are
said about such a list again and again: that some condition held at
every step, in the state the step was taken in, and that some property
holds in the state it ends in. `Meets` is the first, `run` computes the
second, and `run_inv` is the only induction over operation lists the
stateful results need.

`Reaches` forgets the list: one state leads to another by steps that
meet a condition. It is what relates a machine to a simpler one, whose
runs its own steps are.

Of a run that goes on for ever `after` is the state it has come to.
`eventually_of_rank` is the rule for what must happen in it: a rank no step
raises, that every waking step lowers, and fairness, which says that the wait
is ended or woken again whenever one looks. The rank may lie in any
well-founded order, so that it need not be known beforehand how often the
wait is woken.
-/
import Mathlib

namespace Eular.Lib

variable {σ ι : Type*} {step : σ → ι → σ} {ok ok' : σ → ι → Prop}

-- ==== runs

/-- The state a list of operations leads to. -/
def run (step : σ → ι → σ) (s : σ) (ops : List ι) : σ :=
  ops.foldl step s

/-- Every step of the run meets `ok` in the state it is taken in. -/
def Meets (step : σ → ι → σ) (ok : σ → ι → Prop) : σ → List ι → Prop
  | _, [] => True
  | s, op :: ops => ok s op ∧ Meets step ok (step s op) ops

instance Meets.decidable [∀ s op, Decidable (ok s op)] :
    ∀ (s : σ) (ops : List ι), Decidable (Meets step ok s ops)
  | _, [] => isTrue trivial
  | s, op :: ops =>
    have := Meets.decidable (step s op) ops
    inferInstanceAs (Decidable (ok s op ∧ Meets step ok (step s op) ops))

@[simp] theorem run_nil (s : σ) : run step s [] = s := rfl

@[simp] theorem run_cons (s : σ) (op : ι) (ops : List ι) :
    run step s (op :: ops) = run step (step s op) ops := rfl

@[simp] theorem meets_nil (s : σ) : Meets step ok s [] := trivial

@[simp] theorem meets_cons (s : σ) (op : ι) (ops : List ι) :
    Meets step ok s (op :: ops) ↔
      ok s op ∧ Meets step ok (step s op) ops := Iff.rfl

variable {ops : List ι}

theorem meets_of_forall (h : ∀ op ∈ ops, ∀ s, ok s op) (s : σ) :
    Meets step ok s ops := by
  induction ops generalizing s with
  | nil => trivial
  | cons op ops ih =>
    exact ⟨h op List.mem_cons_self s, ih (fun x hx => h x (List.mem_cons_of_mem _ hx)) _⟩

theorem run_append (s : σ) (xs ys : List ι) :
    run step s (xs ++ ys) = run step (run step s xs) ys :=
  List.foldl_append

-- ==== the induction rule

/-- The invariant rule: a property every admissible step keeps holds at
the end of every run of admissible steps. Since a prefix of such a run
is such a run, it holds in every state the run passes through. -/
theorem run_inv {P : σ → Prop}
    (hstep : ∀ s op, P s → ok s op → P (step s op)) :
    ∀ {ops : List ι} {s : σ},
      P s → Meets step ok s ops → P (run step s ops) := by
  intro ops
  induction ops with
  | nil => intro s hs _; exact hs
  | cons op ops ih =>
    intro s hs hok
    exact ih (hstep s op hs hok.1) hok.2

/-- Two conditions that agree wherever an invariant holds pick the same
runs, if either of them keeps the invariant. -/
theorem meets_congr {P : σ → Prop} (hiff : ∀ s op, P s → (ok s op ↔ ok' s op))
    (hstep : ∀ s op, P s → ok' s op → P (step s op)) :
    ∀ {ops : List ι} {s : σ}, P s → (Meets step ok s ops ↔ Meets step ok' s ops) := by
  intro ops
  induction ops with
  | nil => intro s _; exact Iff.rfl
  | cons op ops ih =>
    intro s hs
    rw [meets_cons, meets_cons, hiff s op hs]
    exact and_congr_right fun hok => ih (hstep s op hs hok)

theorem run_inv_of_step {P : σ → Prop} (hstep : ∀ s op, P s → P (step s op))
    (ops : List ι) {s : σ} (hs : P s) : P (run step s ops) := by
  induction ops generalizing s with
  | nil => exact hs
  | cons op ops ih => exact ih (hstep s op hs)

-- ==== what must happen

/-- Some step of the run meets `P` in the state it is taken in. -/
def Happens (step : σ → ι → σ) (P : σ → ι → Prop) : σ → List ι → Prop
  | _, [] => False
  | s, op :: ops => P s op ∨ Happens step P (step s op) ops

variable {P : σ → ι → Prop}

theorem Happens.append_left {xs ys : List ι} :
    ∀ {s : σ}, Happens step P s xs → Happens step P s (xs ++ ys) := by
  induction xs with
  | nil => intro s h; exact h.elim
  | cons x xs ih => intro s h; exact h.imp_right ih

theorem Happens.append_right {xs ys : List ι} :
    ∀ {s : σ}, Happens step P (run step s xs) ys → Happens step P s (xs ++ ys) := by
  induction xs with
  | nil => intro s h; exact h
  | cons x xs ih => intro s h; exact .inr (ih h)

theorem not_happens (hnot : ∀ s op, ok s op → ¬ P s op) :
    ∀ {ops : List ι} {s : σ}, Meets step ok s ops → ¬ Happens step P s ops := by
  intro ops
  induction ops with
  | nil => intro s _ h; exact h
  | cons op ops ih =>
    intro s hok h
    exact h.elim (hnot s op hok.1) (ih hok.2)

/-- The rank rule: where every admissible step meets `P` or lowers the
rank, a run longer than the rank meets `P` somewhere. -/
theorem happens_of_rank (rank : σ → Nat)
    (hstep : ∀ s op, ok s op → P s op ∨ rank (step s op) < rank s) :
    ∀ {ops : List ι} {s : σ}, Meets step ok s ops → rank s < ops.length →
      Happens step P s ops := by
  intro ops
  induction ops with
  | nil => intro s _ hlen; exact absurd hlen (Nat.not_lt_zero _)
  | cons op ops ih =>
    intro s hok hlen
    refine (hstep s op hok.1).imp_right fun hdrop => ih hok.2 ?_
    rw [List.length_cons] at hlen
    omega

/-- How many steps of the run meet `P` in the state they are taken in. -/
def countSteps (step : σ → ι → σ) (P : σ → ι → Prop) [∀ s op, Decidable (P s op)] :
    σ → List ι → Nat
  | _, [] => 0
  | s, op :: ops => (if P s op then 1 else 0) + countSteps step P (step s op) ops

/-- The rank rule for a step that keeps coming back: where every such step
lowers the rank or settles the matter, no admissible step raises it, and what
is settled stays so, the rank bounds how often the step is taken before. -/
theorem countSteps_le_rank [∀ s op, Decidable (P s op)] {Q : σ → Prop}
    (rank : σ → Nat) (hhit : ∀ s op, ok s op → P s op → Q (step s op) ∨ rank (step s op) < rank s)
    (hmiss : ∀ s op, ok s op → ¬ P s op → Q (step s op) ∨ rank (step s op) ≤ rank s)
    (hstay : ∀ s op, Q s → ok s op → Q (step s op)) :
    ∀ {ops : List ι} {s : σ}, Meets step ok s ops →
      Q (run step s ops) ∨ countSteps step P s ops ≤ rank s := by
  intro ops
  induction ops with
  | nil => intro s _; exact .inr (Nat.zero_le _)
  | cons op ops ih =>
    intro s hok
    have hkeep : Q (step s op) → Q (run step s (op :: ops)) := by
      intro hq
      rw [run_cons]
      exact run_inv hstay hq hok.2
    by_cases hp : P s op
    · refine (hhit s op hok.1 hp).elim (fun hq => .inl (hkeep hq)) fun hdrop => ?_
      refine (ih hok.2).imp_right fun hle => ?_
      rw [countSteps, if_pos hp]
      omega
    · refine (hmiss s op hok.1 hp).elim (fun hq => .inl (hkeep hq)) fun hdrop => ?_
      refine (ih hok.2).imp_right fun hle => ?_
      rw [countSteps, if_neg hp]
      omega

@[simp] theorem countSteps_true (s : σ) (ops : List ι) :
    countSteps step (fun _ _ => True) s ops = ops.length := by
  induction ops generalizing s with
  | nil => rfl
  | cons op ops ih =>
    rw [countSteps, if_pos trivial, ih, List.length_cons]
    omega

/-- Where every admissible step settles the matter or lowers the rank, a run
longer than the rank settles it. -/
theorem settles_of_rank {Q : σ → Prop} (rank : σ → Nat)
    (hstep : ∀ s op, ok s op → Q (step s op) ∨ rank (step s op) < rank s)
    (hstay : ∀ s op, Q s → ok s op → Q (step s op)) {s : σ}
    (hok : Meets step ok s ops) (hlen : rank s < ops.length) : Q (run step s ops) := by
  have hcount : Q (run step s ops) ∨ countSteps step (fun _ _ => True) s ops ≤ rank s :=
    countSteps_le_rank rank (fun s op h _ => hstep s op h) (fun _ _ _ h => absurd trivial h)
      hstay hok
  rw [countSteps_true] at hcount
  exact hcount.resolve_right (Nat.not_le_of_lt hlen)

-- ==== reachability

theorem meets_append (s : σ) (xs ys : List ι) :
    Meets step ok s (xs ++ ys) ↔ Meets step ok s xs ∧ Meets step ok (run step s xs) ys := by
  induction xs generalizing s with
  | nil => simp
  | cons x xs ih => rw [List.cons_append, meets_cons, meets_cons, ih, and_assoc, run_cons]

theorem Meets.and : ∀ {ops : List ι} {s : σ}, Meets step ok s ops → Meets step ok' s ops →
    Meets step (fun s op => ok s op ∧ ok' s op) s ops := by
  intro ops
  induction ops with
  | nil => intro s _ _; trivial
  | cons op ops ih =>
    intro s h h'
    exact ⟨⟨h.1, h'.1⟩, ih h.2 h'.2⟩

theorem meets_of_prefix {s : σ}
    (h : ∀ xs op ys, ops = xs ++ op :: ys → ok (run step s xs) op) : Meets step ok s ops := by
  induction ops generalizing s with
  | nil => trivial
  | cons op ops ih =>
    refine ⟨h [] op ops rfl, ih fun xs x ys heq => ?_⟩
    exact h (op :: xs) x ys (by rw [heq, List.cons_append])

theorem Meets.and_inv {P : σ → Prop} (hstep : ∀ s op, P s → ok s op → P (step s op)) :
    ∀ {ops : List ι} {s : σ}, P s → Meets step ok s ops →
      Meets step (fun s op => P s ∧ ok s op) s ops := by
  intro ops
  induction ops with
  | nil => intro s _ _; trivial
  | cons op ops ih =>
    intro s hs hok
    exact ⟨⟨hs, hok.1⟩, ih (hstep s op hs hok.1) hok.2⟩

theorem Meets.imp (h : ∀ s op, ok s op → ok' s op) :
    ∀ {ops : List ι} {s : σ}, Meets step ok s ops → Meets step ok' s ops := by
  intro ops
  induction ops with
  | nil => intro s _; trivial
  | cons op ops ih =>
    intro s hok
    exact ⟨h s op hok.1, ih hok.2⟩

/-- Steps that meet `ok` lead from `s` to `t`. -/
def Reaches (step : σ → ι → σ) (ok : σ → ι → Prop) (s t : σ) : Prop :=
  ∃ ops, Meets step ok s ops ∧ run step s ops = t

namespace Reaches

theorem refl (s : σ) : Reaches step ok s s := ⟨[], trivial, rfl⟩

theorem single {s : σ} (op : ι) (h : ok s op) : Reaches step ok s (step s op) :=
  ⟨[op], ⟨h, trivial⟩, rfl⟩

theorem trans {s t u : σ} (h : Reaches step ok s t) (h' : Reaches step ok t u) :
    Reaches step ok s u := by
  obtain ⟨xs, hxs, rfl⟩ := h
  obtain ⟨ys, hys, rfl⟩ := h'
  exact ⟨xs ++ ys, (meets_append s xs ys).mpr ⟨hxs, hys⟩, run_append s xs ys⟩

theorem imp {s t : σ} (h : Reaches step ok s t) (himp : ∀ s op, ok s op → ok' s op) :
    Reaches step ok' s t := by
  obtain ⟨ops, hops, rfl⟩ := h
  exact ⟨ops, hops.imp himp, rfl⟩

theorem inv {P : σ → Prop} {s t : σ} (h : Reaches step ok s t)
    (hstep : ∀ s op, P s → ok s op → P (step s op)) (hs : P s) : P t := by
  obtain ⟨ops, hops, rfl⟩ := h
  exact run_inv hstep hs hops

end Reaches

-- ==== endless runs

variable {α : Type*}

/-- The state the first operations of an endless run lead to. -/
def after (step : σ → ι → σ) (s : σ) (ops : Nat → ι) : Nat → σ
  | 0 => s
  | n + 1 => step (after step s ops n) (ops n)

/-- Every step of the endless run meets `ok` in the state it is taken in. -/
def MeetsAll (step : σ → ι → σ) (ok : σ → ι → Prop) (s : σ) (ops : Nat → ι) : Prop :=
  ∀ n, ok (after step s ops n) (ops n)

@[simp] theorem after_zero (s : σ) (ops : Nat → ι) : after step s ops 0 = s := rfl

@[simp] theorem after_succ (s : σ) (ops : Nat → ι) (n : Nat) :
    after step s ops (n + 1) = step (after step s ops n) (ops n) := rfl

theorem after_inv {P : σ → Prop} (hstep : ∀ s op, P s → ok s op → P (step s op)) {s : σ}
    {ops : Nat → ι} (hs : P s) (hok : MeetsAll step ok s ops) (n : Nat) :
    P (after step s ops n) := by
  induction n with
  | zero => exact hs
  | succ n ih => exact hstep _ _ ih (hok n)

section Rank

variable [Preorder α] {P Q : σ → Prop} {wakes : σ → ι → Prop} {rank : σ → α}
  {s : σ} {ops : Nat → ι}

theorem rank_le_of_after
    (hstep : ∀ s op, P s → ok s op → Q (step s op) ∨
      P (step s op) ∧ rank (step s op) ≤ rank s ∧ (wakes s op → rank (step s op) < rank s))
    (hok : MeetsAll step ok s ops) (n k : Nat) (hP : P (after step s ops n)) :
    (∃ m, Q (after step s ops m)) ∨
      P (after step s ops (n + k)) ∧
        rank (after step s ops (n + k)) ≤ rank (after step s ops n) := by
  induction k with
  | zero => exact .inr ⟨hP, le_refl _⟩
  | succ k ih =>
    rcases ih with hmet | ⟨hk, hle⟩
    · exact .inl hmet
    · rcases hstep _ (ops (n + k)) hk (hok (n + k)) with hmet | ⟨hnext, hdrop, -⟩
      · exact .inl ⟨n + k + 1, hmet⟩
      · exact .inr ⟨hnext, hdrop.trans hle⟩

theorem eventually_of_rank [WellFoundedLT α] (wakes : σ → ι → Prop) (rank : σ → α)
    (hstep : ∀ s op, P s → ok s op → Q (step s op) ∨
      P (step s op) ∧ rank (step s op) ≤ rank s ∧ (wakes s op → rank (step s op) < rank s))
    (hok : MeetsAll step ok s ops) (hs : P s)
    (hfair : ∀ n, ∃ m, n ≤ m ∧ (Q (after step s ops m) ∨ wakes (after step s ops m) (ops m))) :
    ∃ n, Q (after step s ops n) := by
  suffices h : ∀ a : α, ∀ n, P (after step s ops n) → rank (after step s ops n) = a →
      ∃ m, Q (after step s ops m) from h _ 0 hs rfl
  intro a
  induction a using WellFoundedLT.induction with
  | ind a ih =>
    intro n hn hrank
    obtain ⟨m, hle, hm⟩ := hfair n
    obtain ⟨k, rfl⟩ := Nat.exists_eq_add_of_le hle
    rcases hm with hmet | hwake
    · exact ⟨_, hmet⟩
    · rcases rank_le_of_after hstep hok n k hn with hmet | ⟨hk, hrise⟩
      · exact hmet
      · rcases hstep _ (ops (n + k)) hk (hok (n + k)) with hmet | ⟨hnext, -, hdrop⟩
        · exact ⟨n + k + 1, hmet⟩
        · exact ih _ (hrank ▸ (hdrop hwake).trans_le hrise) (n + k + 1) hnext rfl

end Rank

end Eular.Lib
