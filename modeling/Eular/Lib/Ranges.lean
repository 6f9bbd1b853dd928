/-
Sets as lists of ranges.

A range `(a, b)` holds what is from `a` on and before `b`. A list of ranges is
`Separate` when none is empty and between each and the next is something that
neither holds; a set has at most one such list (`Separate.eq_of_covers`).
`add` puts one more range into such a list: it joins what the range overlaps
or touches, the one before it and any number behind it (`absorb`).
-/
import Eular.Lib.SortedTable

namespace Eular.Lib.Ranges

variable {κ : Type*} [LinearOrder κ]

/-- One of the ranges holds `x`. -/
def Covers (l : List (κ × κ)) (x : κ) : Prop := ∃ r ∈ l, r.1 ≤ x ∧ x < r.2

structure Separate (l : List (κ × κ)) : Prop where
  nonempty : ∀ r ∈ l, r.1 < r.2
  apart : l.Pairwise fun a b => a.2 < b.1

/-- The ranges that begin up to `stop` are joined to what ends there. -/
def absorb (stop : κ) : List (κ × κ) → κ × List (κ × κ)
  | [] => (stop, [])
  | r :: rest => if r.1 ≤ stop then absorb (max stop r.2) rest else (stop, r :: rest)

def add (start stop : κ) (l : List (κ × κ)) : List (κ × κ) :=
  let before := l.takeWhile fun r => r.1 < start
  let after := l.dropWhile fun r => r.1 < start
  match before.getLast? with
  | some p =>
    if start ≤ p.2 then
      let e := absorb (max stop p.2) after
      before.dropLast ++ (p.1, e.1) :: e.2
    else
      let e := absorb stop after
      before ++ (start, e.1) :: e.2
  | none =>
    let e := absorb stop after
    before ++ (start, e.1) :: e.2

variable {l l' before rest : List (κ × κ)} {r : κ × κ} {x start stop : κ}

-- ==== covers

@[simp] theorem not_covers_nil : ¬ Covers [] x := fun ⟨_, h, _⟩ => absurd h (by simp)

theorem covers_cons : Covers (r :: l) x ↔ (r.1 ≤ x ∧ x < r.2) ∨ Covers l x := by
  simp [Covers]

theorem covers_append : Covers (l ++ l') x ↔ Covers l x ∨ Covers l' x := by
  simp only [Covers, List.mem_append]
  constructor
  · rintro ⟨r, hr | hr, hx⟩
    · exact .inl ⟨r, hr, hx⟩
    · exact .inr ⟨r, hr, hx⟩
  · rintro (⟨r, hr, hx⟩ | ⟨r, hr, hx⟩)
    · exact ⟨r, .inl hr, hx⟩
    · exact ⟨r, .inr hr, hx⟩

-- ==== separate

theorem separate_nil : Separate ([] : List (κ × κ)) := ⟨by simp, List.Pairwise.nil⟩

theorem separate_cons :
    Separate (r :: l) ↔ r.1 < r.2 ∧ (∀ s ∈ l, r.2 < s.1) ∧ Separate l := by
  constructor
  · intro h
    obtain ⟨hfirst, hrest⟩ := List.pairwise_cons.mp h.apart
    exact ⟨h.nonempty r List.mem_cons_self, hfirst,
      fun s hs => h.nonempty s (List.mem_cons_of_mem _ hs), hrest⟩
  · rintro ⟨hr, hfirst, hrest⟩
    refine ⟨?_, List.pairwise_cons.mpr ⟨hfirst, hrest.apart⟩⟩
    intro s hs
    rcases List.mem_cons.mp hs with rfl | hs
    · exact hr
    · exact hrest.nonempty s hs

theorem Separate.sublist (h : Separate l) (hsub : l'.Sublist l) : Separate l' :=
  ⟨fun r hr => h.nonempty r (hsub.subset hr), h.apart.sublist hsub⟩

theorem Separate.sorted (h : Separate l) : Sorted Prod.fst l := by
  apply h.apart.imp_of_mem
  intro a b ha _ hab
  exact (h.nonempty a ha).trans hab

theorem separate_append (h : Separate l) (h' : Separate l')
    (hapart : ∀ r ∈ l, ∀ s ∈ l', r.2 < s.1) : Separate (l ++ l') := by
  refine ⟨?_, List.pairwise_append.mpr ⟨h.apart, h'.apart, hapart⟩⟩
  intro r hr
  rcases List.mem_append.mp hr with hr | hr
  · exact h.nonempty r hr
  · exact h'.nonempty r hr

theorem Separate.lt_of_covers (h : Separate (r :: l)) (hx : Covers l x) : r.2 < x := by
  obtain ⟨s, hs, hle, -⟩ := hx
  exact ((separate_cons.mp h).2.1 s hs).trans_le hle

theorem Separate.le_of_covers (h : Separate (r :: l)) (hx : Covers (r :: l) x) : r.1 ≤ x := by
  rcases covers_cons.mp hx with hx | hx
  · exact hx.1
  · exact ((separate_cons.mp h).1.trans (h.lt_of_covers hx)).le

theorem Separate.not_covers_stop (h : Separate (r :: l)) : ¬ Covers (r :: l) r.2 := by
  intro hx
  rcases covers_cons.mp hx with hx | hx
  · exact lt_irrefl _ hx.2
  · exact lt_irrefl _ (h.lt_of_covers hx)

theorem Separate.covers_start (h : Separate (r :: l)) : Covers (r :: l) r.1 :=
  covers_cons.mpr (.inl ⟨le_rfl, (separate_cons.mp h).1⟩)

theorem Separate.stop_le {s : κ × κ} (h : Separate (r :: l)) (hstart : r.1 = s.1)
    (hcovers : ∀ x, Covers (s :: l') x → Covers (r :: l) x) : s.2 ≤ r.2 := by
  by_contra hlt
  have hin : Covers (s :: l') r.2 := covers_cons.mpr
    (.inl ⟨hstart ▸ (separate_cons.mp h).1.le, not_le.mp hlt⟩)
  exact h.not_covers_stop (hcovers _ hin)

theorem Separate.eq_of_covers (h : Separate l) (h' : Separate l')
    (hcovers : ∀ x, Covers l x ↔ Covers l' x) : l = l' := by
  induction l generalizing l' with
  | nil =>
    cases l' with
    | nil => rfl
    | cons s l' => exact absurd ((hcovers _).mpr h'.covers_start) not_covers_nil
  | cons r l ih =>
    cases l' with
    | nil => exact absurd ((hcovers _).mp h.covers_start) not_covers_nil
    | cons s l' =>
      have hstart : r.1 = s.1 := le_antisymm
        (h.le_of_covers ((hcovers _).mpr h'.covers_start))
        (h'.le_of_covers ((hcovers _).mp h.covers_start))
      have hstop : r.2 = s.2 := le_antisymm
        (h'.stop_le hstart.symm fun x => (hcovers x).mp)
        (h.stop_le hstart fun x => (hcovers x).mpr)
      have heq : r = s := Prod.ext hstart hstop
      subst heq
      have hrest : l = l' := by
        apply ih (separate_cons.mp h).2.2 (separate_cons.mp h').2.2
        intro x
        constructor
        · intro hx
          rcases covers_cons.mp ((hcovers x).mp (covers_cons.mpr (.inr hx))) with hfirst | hx'
          · exact absurd (h.lt_of_covers hx) hfirst.2.not_gt
          · exact hx'
        · intro hx
          rcases covers_cons.mp ((hcovers x).mpr (covers_cons.mpr (.inr hx))) with hfirst | hx'
          · exact absurd (h'.lt_of_covers hx) hfirst.2.not_gt
          · exact hx'
      rw [hrest]

-- ==== adding

/-- What `absorb` leaves: the ranges beyond the end it has come to. -/
structure Absorbed (start stop : κ) (l : List (κ × κ)) (e : κ × List (κ × κ)) : Prop where
  le : stop ≤ e.1
  sublist : e.2.Sublist l
  beyond : ∀ r ∈ e.2, e.1 < r.1
  covers : ∀ x, ((start ≤ x ∧ x < e.1) ∨ Covers e.2 x) ↔ ((start ≤ x ∧ x < stop) ∨ Covers l x)

theorem mem_join {low mid a b : κ} (hlow : low ≤ mid) (hmid : mid ≤ a) :
    (low ≤ x ∧ x < max a b) ↔ (low ≤ x ∧ x < a) ∨ (mid ≤ x ∧ x < b) := by
  constructor
  · rintro ⟨hx, hlt⟩
    rcases lt_or_ge x a with hbefore | hbehind
    · exact .inl ⟨hx, hbefore⟩
    · exact .inr ⟨hmid.trans hbehind, (lt_max_iff.mp hlt).resolve_left hbehind.not_gt⟩
  · rintro (⟨hx, hlt⟩ | ⟨hx, hlt⟩)
    · exact ⟨hx, lt_max_of_lt_left hlt⟩
    · exact ⟨hlow.trans hx, lt_max_of_lt_right hlt⟩

theorem absorb_spec (h : Separate l) (hstart : ∀ r ∈ l, start ≤ r.1) :
    Absorbed start stop l (absorb stop l) := by
  induction l generalizing stop with
  | nil => exact ⟨le_rfl, List.Sublist.refl _, by simp [absorb], fun x => Iff.rfl⟩
  | cons r l ih =>
    obtain ⟨hr, hfirst, hrest⟩ := separate_cons.mp h
    rw [absorb]
    split
    case isTrue hjoin =>
      have hlow := hstart r List.mem_cons_self
      have hnext : Absorbed start (max stop r.2) l (absorb (max stop r.2) l) := ih hrest fun s hs =>
        hstart s (List.mem_cons_of_mem _ hs)
      refine ⟨(le_max_left _ _).trans hnext.le, hnext.sublist.cons r, hnext.beyond, ?_⟩
      intro x
      rw [hnext.covers, covers_cons, ← or_assoc, mem_join hlow hjoin]
    case isFalse hbeyond =>
      refine ⟨le_rfl, List.Sublist.refl _, ?_, fun x => Iff.rfl⟩
      intro s hs
      rcases List.mem_cons.mp hs with rfl | hs
      · exact not_le.mp hbeyond
      · exact (not_le.mp hbeyond).trans (hr.trans (hfirst s hs))

theorem separate_insert (hbefore : Separate before) (hrest : Separate rest) (hlt : start < stop)
    (hlow : ∀ r ∈ before, r.2 < start) (hhigh : ∀ r ∈ rest, stop < r.1) :
    Separate (before ++ (start, stop) :: rest) := by
  apply separate_append hbefore (separate_cons.mpr ⟨hlt, hhigh, hrest⟩)
  intro r hr s hs
  rcases List.mem_cons.mp hs with rfl | hs
  · exact hlow r hr
  · exact (hlow r hr).trans (hlt.trans (hhigh s hs))

/-- A range between those that end before it and those behind, of which it takes what it
reaches. -/
theorem separate_absorb (hbefore : Separate before) (hrest : Separate rest) (hlt : start < stop)
    (hlow : ∀ r ∈ before, r.2 < start) (hstart : ∀ r ∈ rest, start ≤ r.1) :
    Separate (before ++ (start, (absorb stop rest).1) :: (absorb stop rest).2)
      ∧ ∀ x, Covers (before ++ (start, (absorb stop rest).1) :: (absorb stop rest).2) x
        ↔ (start ≤ x ∧ x < stop) ∨ Covers (before ++ rest) x := by
  have hspec : Absorbed start stop rest (absorb stop rest) := absorb_spec hrest hstart
  constructor
  · exact separate_insert hbefore (hrest.sublist hspec.sublist) (hlt.trans_le hspec.le) hlow
      hspec.beyond
  · intro x
    rw [covers_append, covers_cons, hspec.covers, covers_append]
    exact or_left_comm

/-- The ranges that begin before `start`, and those from it on. -/
structure Split (start : κ) (l before after : List (κ × κ)) : Prop where
  append : before ++ after = l
  lt : ∀ r ∈ before, r.1 < start
  le : ∀ r ∈ after, start ≤ r.1
  separate_before : Separate before
  separate_after : Separate after

theorem Separate.split (h : Separate l) (start : κ) :
    Split start l (l.takeWhile fun r => r.1 < start) (l.dropWhile fun r => r.1 < start) where
  append := List.takeWhile_append_dropWhile
  separate_before := h.sublist (List.takeWhile_sublist _)
  separate_after := h.sublist (List.dropWhile_sublist _)
  lt r hr := by simpa using List.mem_takeWhile_imp hr
  le r hr := ((mem_lowerBound h.sorted).mp hr).2

/-- The last range that begins before `start`. -/
theorem Split.concat {init after : List (κ × κ)} {p : κ × κ}
    (h : Split start l (init ++ [p]) after) :
    Separate init ∧ p.1 < start ∧ ∀ r ∈ init, r.2 < p.1 :=
  ⟨h.separate_before.sublist (List.sublist_append_left _ _), h.lt p (by simp),
    fun r hr => (List.pairwise_append.mp h.separate_before.apart).2.2 r hr p (by simp)⟩

theorem add_spec (h : Separate l) (hlt : start < stop) :
    Separate (add start stop l)
      ∧ ∀ x, Covers (add start stop l) x ↔ (start ≤ x ∧ x < stop) ∨ Covers l x := by
  have hsplit := h.split start
  unfold add
  dsimp only
  generalize l.takeWhile (fun r => r.1 < start) = before at *
  generalize l.dropWhile (fun r => r.1 < start) = after at *
  split
  case h_1 p hp =>
    obtain ⟨init, rfl⟩ : ∃ init, before = init ++ [p] :=
      ⟨before.dropLast, (List.dropLast_append_getLast? p hp).symm⟩
    obtain ⟨hinit, hp_lt, hinit_lt⟩ := hsplit.concat
    rw [List.dropLast_concat, ← hsplit.append]
    split
    case isTrue hjoin =>
      obtain ⟨hsep, hcovers⟩ := separate_absorb hinit hsplit.separate_after
        (hp_lt.trans_le (hlt.le.trans (le_max_left stop p.2))) hinit_lt
        fun r hr => hp_lt.le.trans (hsplit.le r hr)
      refine ⟨hsep, fun x => ?_⟩
      rw [hcovers, max_comm, mem_join hp_lt.le hjoin, covers_append, covers_append,
        covers_append, covers_cons]
      simp only [not_covers_nil, or_false]
      tauto
    case isFalse hapart =>
      apply separate_absorb hsplit.separate_before hsplit.separate_after hlt _ hsplit.le
      intro r hr
      rcases List.mem_append.mp hr with hr | hr
      · exact (hinit_lt r hr).trans hp_lt
      · rw [List.mem_singleton.mp hr]
        exact not_le.mp hapart
  case h_2 hnone =>
    rw [List.getLast?_eq_none_iff] at hnone
    subst hnone
    rw [← hsplit.append]
    exact separate_absorb separate_nil hsplit.separate_after hlt (by simp) hsplit.le

end Eular.Lib.Ranges
