/-
Whether there is work, and whether it is done.

The round-robin modes serve somebody whenever somebody may write. The
deficit mode asks for a whole queue's worth of deficit before it serves
a stream, and gives up after two visits each: it serves somebody exactly
if one of them can pay by then (`workConserving_iff`).

# A backlogged stream in deficit mode

While the stream waits, each turn either serves one that is ahead of it,
so that its visit comes nearer, or visits it, so that its deficit grows
(`drr_round`). A deficit below the cap cannot grow for ever, and a need
above the cap is never met.
-/
import Eular.Utp.Scheduler.Proofs.Picks

namespace Eular.Utp.StreamScheduler

open Lib

variable {cfg : StreamSchedulerConfig} {conn : SendReadiness} {nowUs : Nat}
  {s s' : StreamScheduler} {l : List SendStream} {st b : SendStream} {r : Round}

variable {q : Nat}

-- ==== one call

/-- If a stream may write, the pick is one that may. -/
def WorkConserving (cfg : StreamSchedulerConfig) (conn : SendReadiness) (nowUs : Nat)
    (s : StreamScheduler) : Prop :=
  (∃ b, b ∈ s.candidates cfg conn nowUs) →
    ∃ st ∈ s.candidates cfg conn nowUs, (s.pickNextWritableStream cfg conn nowUs).1 = some st

/-- A stream can pay after one visit or after two. -/
def Pays (cfg : StreamSchedulerConfig) (s : StreamScheduler) (st : SendStream) : Prop :=
  drrNeed st ≤ drrRefill cfg st (s.drrDeficit st.id)
    ∨ drrNeed st ≤ drrRefill cfg st (drrRefill cfg st (s.drrDeficit st.id))

instance (cfg : StreamSchedulerConfig) (s : StreamScheduler) (st : SendStream) :
    Decidable (Pays cfg s st) :=
  inferInstanceAs (Decidable (_ ∨ _))

theorem drrVisit_none_iff (hdistinct : l.Pairwise fun x y => x.id ≠ y.id) :
    (s.drrVisit cfg l).1 = none ↔
      ∀ st ∈ l, ¬ drrNeed st ≤ drrRefill cfg st (s.drrDeficit st.id) := by
  induction l generalizing s with
  | nil => simp [drrVisit]
  | cons x l ih =>
    obtain ⟨hx, hrest⟩ := List.pairwise_cons.mp hdistinct
    simp only [drrVisit, refill_drrDeficit_self]
    split
    case isTrue hpays => simp [hpays]
    case isFalse hfails =>
      rw [ih hrest, List.forall_mem_cons]
      refine ⟨fun h => ⟨hfails, fun st hst => ?_⟩, fun h st hst => ?_⟩
      · simpa only [refill_drrDeficit_of_ne cfg s (hx st hst)] using h st hst
      · simpa only [refill_drrDeficit_of_ne cfg s (hx st hst)] using h.2 st hst

theorem drrVisit_refills (hdistinct : l.Pairwise fun x y => x.id ≠ y.id)
    (hnone : (s.drrVisit cfg l).1 = none) (hst : st ∈ l) :
    (s.drrVisit cfg l).2.drrDeficit st.id = drrRefill cfg st (s.drrDeficit st.id) := by
  induction l generalizing s with
  | nil => cases hst
  | cons x l ih =>
    obtain ⟨hx, hrest⟩ := List.pairwise_cons.mp hdistinct
    simp only [drrVisit] at hnone ⊢
    split at hnone
    case isTrue => cases hnone
    case isFalse hfails =>
      rw [if_neg hfails]
      rcases List.mem_cons.mp hst with rfl | hst
      · rw [drrVisit_frame fun y hy => (hx y hy).symm, refill_drrDeficit_self]
      · rw [ih hrest hnone hst, refill_drrDeficit_of_ne cfg s (hx st hst)]

theorem distinct_drrOrder (s : StreamScheduler) :
    (s.drrOrder cfg conn nowUs).Pairwise fun x y => x.id ≠ y.id :=
  (pairwise_drrOrder s).imp fun h => h.ne

theorem pickNextWritableStreamDrr_none_iff (s : StreamScheduler) :
    (s.pickNextWritableStreamDrr cfg conn nowUs).1 = none ↔
      ∀ st ∈ s.candidates cfg conn nowUs, ¬ Pays cfg s st := by
  have hdistinct := @distinct_drrOrder cfg conn nowUs s
  have hfirst := @drrVisit_none_iff cfg s _ hdistinct
  unfold pickNextWritableStreamDrr Pays
  rw [drrVisit_append]
  rcases hpass : s.drrVisit cfg (s.drrOrder cfg conn nowUs) with ⟨_ | x, s'⟩
  case some =>
    simp only [hpass, reduceCtorEq, false_iff, not_forall] at hfirst ⊢
    obtain ⟨st, hst, hpays⟩ := hfirst
    exact ⟨st, mem_drrOrder.mp hst, fun h => hpays fun hp => h (.inl hp)⟩
  case none =>
    have hrefill : ∀ st ∈ s.drrOrder cfg conn nowUs,
        s'.drrDeficit st.id = drrRefill cfg st (s.drrDeficit st.id) := fun st hst => by
      have h := @drrVisit_refills cfg s _ _ hdistinct (by rw [hpass]) hst
      rwa [hpass] at h
    simp only [hpass, true_iff] at hfirst
    simp only [drrVisit_none_iff hdistinct]
    refine ⟨fun h st hst => ?_, fun h st hst => ?_⟩
    · have hst := mem_drrOrder.mpr hst
      refine not_or.mpr ⟨hfirst st hst, ?_⟩
      rw [← hrefill st hst]
      exact h st hst
    · rw [hrefill st hst]
      exact (not_or.mp (h st (mem_drrOrder.mp hst))).2

theorem pickNextWritableStreamDrr_mem
    (h : (s.pickNextWritableStreamDrr cfg conn nowUs).1 = some st) :
    st ∈ s.candidates cfg conn nowUs := by
  have hvisit : s.pickNextWritableStreamDrr cfg conn nowUs
      = (some st, (s.pickNextWritableStreamDrr cfg conn nowUs).2) := Prod.ext h rfl
  have hmem := (drrVisit_some hvisit).1
  rcases List.mem_append.mp hmem with hst | hst
  all_goals exact mem_drrOrder.mp hst

theorem pickNextWritableStream_cases (hb : b ∈ s.candidates cfg conn nowUs) :
    s.streams.entries = [b] ∧ s.pickNextWritableStream cfg conn nowUs = (some b, s)
      ∨ s.streams.entries.length ≠ 1
        ∧ s.pickNextWritableStream cfg conn nowUs = s.pickByMode cfg conn nowUs := by
  obtain ⟨hmem, hwritable⟩ := mem_candidates.mp hb
  unfold pickNextWritableStream
  split
  case h_1 x hentries =>
    rw [hentries] at hmem
    obtain rfl := List.mem_singleton.mp hmem
    exact .inl ⟨hentries, if_pos hwritable⟩
  case h_2 hother =>
    refine .inr ⟨fun hlen => ?_, rfl⟩
    obtain ⟨x, hx⟩ := List.length_eq_one_iff.mp hlen
    exact hother x hx

theorem workConserving_iff (cfg : StreamSchedulerConfig) (conn : SendReadiness) (nowUs : Nat)
    (s : StreamScheduler) :
    WorkConserving cfg conn nowUs s ↔
      (cfg.streamSchedulerMode = .drr → s.streams.entries.length ≠ 1 →
        (∃ b, b ∈ s.candidates cfg conn nowUs) →
          ∃ st ∈ s.candidates cfg conn nowUs, Pays cfg s st) := by
  have hdrr : (∃ st ∈ s.candidates cfg conn nowUs, Pays cfg s st) ↔
      ∃ st ∈ s.candidates cfg conn nowUs,
        (s.pickNextWritableStreamDrr cfg conn nowUs).1 = some st := by
    have hnone := @pickNextWritableStreamDrr_none_iff cfg conn nowUs s
    cases hpick : (s.pickNextWritableStreamDrr cfg conn nowUs).1 with
    | none =>
      have hnobody := hnone.mp hpick
      exact ⟨fun ⟨st, hst, hpays⟩ => absurd hpays (hnobody st hst), fun ⟨_, _, h⟩ => by cases h⟩
    | some x =>
      refine ⟨fun _ => ⟨x, pickNextWritableStreamDrr_mem hpick, rfl⟩, fun _ => ?_⟩
      by_contra hnobody
      rw [hnone.mpr fun st hst hpays => hnobody ⟨st, hst, hpays⟩] at hpick
      cases hpick
  refine ⟨fun h hmode hmany hwork => ?_, fun h hwork => ?_⟩
  · obtain ⟨b, hb⟩ := hwork
    obtain ⟨st, hst, hpick⟩ := h ⟨b, hb⟩
    rcases pickNextWritableStream_cases hb with ⟨hone, -⟩ | ⟨-, heq⟩
    · exact absurd (by rw [hone]; rfl) hmany
    · rw [heq, pickByMode, hmode] at hpick
      exact hdrr.mpr ⟨st, hst, hpick⟩
  · obtain ⟨b, hb⟩ := hwork
    rcases pickNextWritableStream_cases hb with ⟨-, heq⟩ | ⟨hmany, heq⟩
    · exact ⟨b, hb, by rw [heq]⟩
    · rw [heq, pickByMode]
      cases hmode : cfg.streamSchedulerMode with
      | disabled => exact pickNextWritableStreamDisabled_turn hb
      | strict =>
        obtain ⟨level, st, hst, -, hpick⟩ := pickNextWritableStreamStrict_cases hb
        exact ⟨st, (mem_byPriority.mp hst).1, by simp only [hpick]⟩
      | drr => exact hdrr.mp (h hmode hmany ⟨b, hb⟩)

-- ==== a backlogged stream waits

/-- A deficit that grew by at least `q` and is still short of `need`. -/
def Nearer (q : Nat) (d d' : UInt32) : Prop :=
  d'.toNat < 65535 ∧ (d.toNat < 65535 → d.toNat + q ≤ d'.toNat)

theorem Nearer.trans {d₁ d₂ d₃ : UInt32} (h : Nearer q d₁ d₂) (h' : Nearer q d₂ d₃) :
    Nearer q d₁ d₃ :=
  ⟨h'.1, fun hd => by
    have h₁ := h.2 hd
    have h₂ := h'.2 h.1
    omega⟩

theorem drrNeed_le (st : SendStream) : (drrNeed st).toNat ≤ 65535 := by
  unfold drrNeed
  split
  · rw [UInt32.toNat_ofNat', Nat.mod_eq_of_lt (by omega)]
    omega
  · decide

theorem drrQuantum_bounds (cfg : StreamSchedulerConfig) (st : SendStream) :
    1 ≤ (drrQuantum cfg st).toNat ∧ (drrQuantum cfg st).toNat ≤ 65535 * 8 := by
  have hbase : 1 ≤ (if 0 < cfg.streamDrrQuantum then cfg.streamDrrQuantum.toUInt32
        else 1200).toNat
      ∧ (if 0 < cfg.streamDrrQuantum then cfg.streamDrrQuantum.toUInt32 else 1200).toNat
        ≤ 65535 := by
    split
    case isTrue hpos =>
      have hlt := UInt16.lt_iff_toNat_lt.mp hpos
      have hle := cfg.streamDrrQuantum.toNat_lt
      rw [UInt16.toNat_toUInt32]
      simp only [UInt16.toNat_ofNat] at hlt
      omega
    case isFalse => decide
  have hweight : 1 ≤ (kPriorityLowest - st.basePriority + 1).toUInt32.toNat
      ∧ (kPriorityLowest - st.basePriority + 1).toUInt32.toNat ≤ 8 := by
    have hle := basePriority_le st
    have hsub : (kPriorityLowest - st.basePriority).toNat = 7 - st.basePriority.toNat :=
      UInt8.toNat_sub_of_le _ _ (UInt8.le_iff_toNat_le.mpr hle)
    rw [UInt8.toNat_toUInt32, UInt8.toNat_add, hsub]
    simp only [UInt8.toNat_ofNat]
    omega
  unfold drrQuantum
  have hlow := Nat.mul_le_mul hbase.1 hweight.1
  have hhigh := Nat.mul_le_mul hbase.2 hweight.2
  rw [UInt32.toNat_mul, Nat.mod_eq_of_lt (by omega)]
  omega

theorem drrRefill_le_cap (cfg : StreamSchedulerConfig) (st : SendStream) (d : UInt32) :
    drrRefill cfg st d ≤ drrDeficitCap cfg := by
  unfold drrRefill
  split
  case isTrue => exact UInt32.le_refl _
  case isFalse hlow => exact UInt32.le_of_lt (UInt32.not_le.mp hlow)

theorem nearer_drrRefill {d : UInt32} (hq : q ≤ (drrQuantum cfg st).toNat)
    (hcap : drrNeed st ≤ drrDeficitCap cfg) (hfails : ¬ drrNeed st ≤ drrRefill cfg st d) :
    Nearer q d (drrRefill cfg st d) := by
  have hneed := drrNeed_le st
  have hquantum := (drrQuantum_bounds cfg st).2
  have hlt : (drrRefill cfg st d).toNat < (drrNeed st).toNat :=
    UInt32.lt_iff_toNat_lt.mp (UInt32.not_le.mp hfails)
  refine ⟨by omega, fun hd => ?_⟩
  unfold drrRefill at hfails ⊢
  split at hfails
  case isTrue => exact absurd hcap hfails
  case isFalse hlow =>
    rw [if_neg hlow, UInt32.toNat_add, Nat.mod_eq_of_lt (by omega)]
    omega

/-- Visits in which the stream may be: it is served, or not visited, or
its deficit grew. -/
theorem drrVisit_nearer (hq : q ≤ (drrQuantum cfg b).toNat)
    (hcap : drrNeed b ≤ drrDeficitCap cfg) (hsame : ∀ x ∈ l, x.id = b.id → x = b) :
    (s.drrVisit cfg l).1 = some b
      ∨ (s.drrVisit cfg l).2.drrDeficit b.id = s.drrDeficit b.id
      ∨ Nearer q (s.drrDeficit b.id) ((s.drrVisit cfg l).2.drrDeficit b.id) := by
  induction l generalizing s with
  | nil => exact .inr (.inl rfl)
  | cons x l ih =>
    have hrest : ∀ y ∈ l, y.id = b.id → y = b := fun y hy => hsame y (List.mem_cons_of_mem _ hy)
    simp only [drrVisit]
    by_cases hx : x.id = b.id
    · obtain rfl := hsame x List.mem_cons_self hx
      rw [refill_drrDeficit_self]
      split
      case isTrue => exact .inl rfl
      case isFalse hfails =>
        have hnear := nearer_drrRefill hq hcap hfails
        have h := ih (s := s.refill cfg x) hrest
        rw [refill_drrDeficit_self] at h
        rcases h with hserved | hkept | hmore
        · exact .inl hserved
        · exact .inr (.inr (by rwa [hkept]))
        · exact .inr (.inr (hnear.trans hmore))
    · split
      case isTrue =>
        refine .inr (.inl ?_)
        simp only [Function.update_of_ne (Ne.symm hx), refill_drrDeficit_of_ne cfg s hx]
      case isFalse =>
        have h := ih (s := s.refill cfg x) hrest
        rwa [refill_drrDeficit_of_ne cfg s hx] at h

/-- A call with a backlogged stream: it is served, or one ahead of it is,
or its deficit grew. -/
theorem drr_round (hb : b ∈ s.candidates cfg conn nowUs)
    (hq : q ≤ (drrQuantum cfg b).toNat) (hcap : drrNeed b ≤ drrDeficitCap cfg) :
    (s.pickNextWritableStreamDrr cfg conn nowUs).1 = some b
      ∨ (∃ x ∈ s.candidates cfg conn nowUs, Ahead s.drrCursor x.id b.id
          ∧ (s.pickNextWritableStreamDrr cfg conn nowUs).2.drrCursor = x.id
          ∧ (s.pickNextWritableStreamDrr cfg conn nowUs).2.drrDeficit b.id = s.drrDeficit b.id)
      ∨ Nearer q (s.drrDeficit b.id)
          ((s.pickNextWritableStreamDrr cfg conn nowUs).2.drrDeficit b.id) := by
  obtain ⟨pre, post, horder⟩ := List.append_of_mem (mem_drrOrder.mpr hb)
  have hturns := @pairwise_drrOrder cfg conn nowUs s
  rw [horder] at hturns
  have hahead : ∀ x ∈ pre, Ahead s.drrCursor x.id b.id := fun x hx =>
    (List.pairwise_append.mp hturns).2.2 x hx b List.mem_cons_self
  have hmem : ∀ x ∈ s.drrOrder cfg conn nowUs, x ∈ s.streams.entries := fun x hx =>
    (mem_candidates.mp (mem_drrOrder.mp hx)).1
  have hframe := @drrVisit_frame cfg s _ _ fun x hx => (hahead x hx).ne
  have hsame : ∀ x ∈ b :: (post ++ s.drrOrder cfg conn nowUs), x.id = b.id → x = b := by
    intro x hx hid
    refine eq_of_id ?_ (mem_candidates.mp hb).1 hid
    rcases List.mem_cons.mp hx with rfl | hx
    · exact (mem_candidates.mp hb).1
    · rcases List.mem_append.mp hx with hx | hx
      · exact hmem x (by rw [horder]; simp [hx])
      · exact hmem x hx
  have hpick : s.pickNextWritableStreamDrr cfg conn nowUs
      = s.drrVisit cfg (pre ++ b :: (post ++ s.drrOrder cfg conn nowUs)) := by
    unfold pickNextWritableStreamDrr
    nth_rewrite 1 [horder]
    rw [List.append_assoc, List.cons_append]
  rw [hpick, drrVisit_append]
  rcases hfirst : s.drrVisit cfg pre with ⟨_ | x, s'⟩
  case some =>
    obtain ⟨hx, hcursor⟩ := drrVisit_some hfirst
    rw [hfirst] at hframe
    refine .inr (.inl ⟨x, mem_drrOrder.mp ?_, hahead x hx, hcursor, hframe⟩)
    rw [horder]
    exact List.mem_append_left _ hx
  case none =>
    rw [hfirst] at hframe
    simp only [drrVisit, refill_drrDeficit_self]
    split
    case isTrue => exact .inl rfl
    case isFalse hfails =>
      rw [hframe] at hfails
      have hnear := nearer_drrRefill hq hcap hfails
      have hrest := drrVisit_nearer (s := s'.refill cfg b) hq hcap fun x hx =>
        hsame x (List.mem_cons_of_mem _ hx)
      rw [refill_drrDeficit_self, hframe] at hrest
      rcases hrest with hserved | hkept | hmore
      · exact .inl hserved
      · exact .inr (.inr (by rwa [hkept]))
      · exact .inr (.inr (hnear.trans hmore))

end Eular.Utp.StreamScheduler
