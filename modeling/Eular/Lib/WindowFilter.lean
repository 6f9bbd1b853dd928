/-
The best value of a sliding window, from three samples.

A filter holds the best sample and two later ones to fall back on. `update`
takes a new sample: one that is the best, or that finds the whole filter out
of date, replaces all three (as may any other, `fresh`); otherwise it replaces
what it is no worse than, and `promote` moves the samples up where the best
has left the window, or makes the new one a fallback where a part of the
window has gone by without one.

`Tracks` says what such a filter is worth: its samples have been taken, in
that order and each no better than the one before it, the best of them within
the window and no worse than the newest.
-/
import Mathlib

namespace Eular.Lib

variable {α : Type*} [LinearOrder α]

/-- The best sample, and two later ones. -/
structure BestThree (α : Type*) where
  best : Nat × α
  second : Nat × α
  third : Nat × α

namespace BestThree

def all (s : Nat × α) : BestThree α := ⟨s, s, s⟩

def shift (f : BestThree α) (s : Nat × α) : BestThree α := ⟨f.second, f.third, s⟩

def promote (f : BestThree α) (window : Nat) (s : Nat × α) : BestThree α :=
  if window < s.1 - f.best.1 then
    if window < s.1 - (f.shift s).best.1 then (f.shift s).shift s else f.shift s
  else if f.second.1 = f.best.1 ∧ window / 4 < s.1 - f.best.1 then
    { f with second := s, third := s }
  else if f.third.1 = f.second.1 ∧ window / 2 < s.1 - f.best.1 then { f with third := s }
  else f

/-- The fallbacks that the new sample is no worse than are replaced. -/
def replace (f : BestThree α) (s : Nat × α) : BestThree α :=
  if f.second.2 ≤ s.2 then { f with second := s, third := s }
  else if f.third.2 ≤ s.2 then { f with third := s }
  else f

def update (f : BestThree α) (window : Nat) (fresh : Bool) (s : Nat × α) : BestThree α :=
  if fresh ∨ f.best.2 ≤ s.2 ∨ window < s.1 - f.third.1 then all s
  else (f.replace s).promote window s

-- ==== tracking

/-- The samples are of those taken, in order. -/
structure Sorted (taken : List (Nat × α)) (f : BestThree α) : Prop where
  best_mem : f.best ∈ taken
  second_mem : f.second ∈ taken
  third_mem : f.third ∈ taken
  second_time : f.best.1 ≤ f.second.1
  third_time : f.second.1 ≤ f.third.1
  second_value : f.second.2 ≤ f.best.2
  third_value : f.third.2 ≤ f.second.2

/-- The filter stands for the window that the sample `s` ends. -/
structure Tracks (window : Nat) (taken : List (Nat × α)) (s : Nat × α) (f : BestThree α) :
    Prop where
  sorted : f.Sorted taken
  best_within : s.1 - f.best.1 ≤ window
  third_time : f.third.1 ≤ s.1
  third_value : s.2 ≤ f.third.2

variable {window : Nat} {taken : List (Nat × α)} {f : BestThree α} {s : Nat × α}

theorem Tracks.newest_le (h : f.Tracks window taken s) : s.2 ≤ f.best.2 :=
  h.third_value.trans (h.sorted.third_value.trans h.sorted.second_value)

theorem tracks_all (hs : s ∈ taken) : (all s).Tracks window taken s :=
  ⟨⟨hs, hs, hs, le_refl _, le_refl _, le_refl _, le_refl _⟩, by simp [all], le_refl _, le_refl _⟩

theorem Sorted.more (h : f.Sorted taken) (s : Nat × α) : f.Sorted (s :: taken) :=
  { h with
    best_mem := List.mem_cons_of_mem _ h.best_mem
    second_mem := List.mem_cons_of_mem _ h.second_mem
    third_mem := List.mem_cons_of_mem _ h.third_mem }

/-- What the new sample is to a filter that has taken it in. -/
structure Takes (window : Nat) (taken : List (Nat × α)) (s : Nat × α) (f : BestThree α) :
    Prop where
  sorted : f.Sorted taken
  third_within : s.1 - f.third.1 ≤ window
  third_time : f.third.1 ≤ s.1
  third_value : s.2 ≤ f.third.2

theorem Takes.shift (h : f.Takes window taken s) (hs : s ∈ taken) :
    (f.shift s).Takes window taken s where
  sorted :=
    { best_mem := h.sorted.second_mem
      second_mem := h.sorted.third_mem
      third_mem := hs
      second_time := h.sorted.third_time
      third_time := h.third_time
      second_value := h.sorted.third_value
      third_value := h.third_value }
  third_within := by simp [BestThree.shift]
  third_time := le_refl _
  third_value := le_refl _

theorem Takes.tracks (h : f.Takes window taken s) (hbest : s.1 - f.best.1 ≤ window) :
    f.Tracks window taken s :=
  ⟨h.sorted, hbest, h.third_time, h.third_value⟩

theorem Takes.replace (h : f.Sorted taken) (hs : s ∈ taken) (htime : f.third.1 ≤ s.1)
    (hthird : s.1 - f.third.1 ≤ window) (hbest : s.2 ≤ f.best.2) :
    (f.replace s).Takes window taken s := by
  unfold BestThree.replace
  split
  case isTrue hsecond =>
    exact ⟨⟨h.best_mem, hs, hs, (h.second_time.trans h.third_time).trans htime, le_refl _, hbest,
      le_refl _⟩, by simp, le_refl _, le_refl _⟩
  case isFalse hsecond =>
    split
    case isTrue hlast =>
      exact ⟨⟨h.best_mem, h.second_mem, hs, h.second_time, h.third_time.trans htime,
        h.second_value, (not_le.mp hsecond).le⟩, by simp, le_refl _, le_refl _⟩
    case isFalse hlast => exact ⟨h, hthird, htime, (not_le.mp hlast).le⟩

theorem Takes.promote (h : f.Takes window taken s) (hs : s ∈ taken) :
    (f.promote window s).Tracks window taken s := by
  have hbest : s.2 ≤ f.best.2 := (h.third_value.trans h.sorted.third_value).trans
    h.sorted.second_value
  have htime : f.best.1 ≤ s.1 := (h.sorted.second_time.trans h.sorted.third_time).trans h.third_time
  unfold BestThree.promote
  split
  case isTrue hexpired =>
    have hshift := h.shift hs
    split
    case isTrue hagain => exact (hshift.shift hs).tracks h.third_within
    case isFalse hsecond => exact hshift.tracks (not_lt.mp hsecond)
  case isFalse hwithin =>
    have hin := not_lt.mp hwithin
    split
    · exact ⟨⟨h.sorted.best_mem, hs, hs, htime, le_refl _, hbest, le_refl _⟩, hin, le_refl _,
        le_refl _⟩
    · split
      · exact ⟨⟨h.sorted.best_mem, h.sorted.second_mem, hs, h.sorted.second_time,
          h.sorted.third_time.trans h.third_time, h.sorted.second_value,
          h.third_value.trans h.sorted.third_value⟩, hin, le_refl _, le_refl _⟩
      · exact h.tracks hin

theorem Tracks.update {last : Nat × α} (h : f.Tracks window taken last) (htime : last.1 ≤ s.1)
    (fresh : Bool) : (f.update window fresh s).Tracks window (s :: taken) s := by
  have hs : s ∈ s :: taken := List.mem_cons_self
  unfold BestThree.update
  split
  case isTrue => exact tracks_all hs
  case isFalse hkeep =>
    obtain ⟨-, hbest, hthird⟩ := by simpa only [not_or] using hkeep
    apply Takes.promote _ hs
    apply Takes.replace (h.sorted.more s) hs (h.third_time.trans htime)
    · exact not_lt.mp hthird
    · exact (not_le.mp hbest).le

end BestThree

end Eular.Lib
