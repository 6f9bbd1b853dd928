/-
A replay cache: keys that are remembered for a while.

A key is accepted once and then refused until its entry has expired;
expired entries are purged whenever the cache is asked. What such a
cache promises is about time: two acceptances of one key are at least
one window apart. `Guards` is the invariant behind it: every acceptance
is still in the cache, or its window is over.
-/
import Mathlib

namespace Eular.Lib

variable {κ : Type*}

/-- Keys, each with the time its entry expires. -/
abbrev ReplayCache (κ : Type*) := List (κ × Nat)

namespace ReplayCache

variable {cache : ReplayCache κ} {window now now' : Nat} {key : κ} {log : List (κ × Nat)}

def purge (cache : ReplayCache κ) (now : Nat) : ReplayCache κ :=
  cache.filter fun entry => now < entry.2

/-- Whether the key is new, and the cache that remembers it. -/
def remember [DecidableEq κ] (cache : ReplayCache κ) (window : Nat) (key : κ) (now : Nat) :
    Bool × ReplayCache κ :=
  let cache := cache.purge now
  if cache.any fun entry => entry.1 = key then (false, cache)
  else (true, cache ++ [(key, now + window)])

/-- Every acceptance in `log` is in the cache, or its window is over. -/
def Guards (cache : ReplayCache κ) (window : Nat) (log : List (κ × Nat)) (now : Nat) : Prop :=
  ∀ entry ∈ log, (entry.1, entry.2 + window) ∈ cache ∨ entry.2 + window ≤ now

theorem guards_nil (cache : ReplayCache κ) (window now : Nat) : cache.Guards window [] now :=
  fun _ hentry => absurd hentry List.not_mem_nil

theorem Guards.purge (hg : cache.Guards window log now) (hnow : now ≤ now') :
    (cache.purge now').Guards window log now' := by
  intro entry hentry
  rcases hg entry hentry with hmem | hover
  · by_cases hlive : now' < entry.2 + window
    · exact .inl (List.mem_filter.mpr ⟨hmem, by simpa using hlive⟩)
    · exact .inr (Nat.not_lt.mp hlive)
  · exact .inr (hover.trans hnow)

theorem Guards.later (hg : cache.Guards window log now) (hnow : now ≤ now') :
    cache.Guards window log now' :=
  fun entry hentry => (hg entry hentry).imp_right fun hover => hover.trans hnow

variable [DecidableEq κ]

theorem Guards.accepted (hg : cache.Guards window log now) (hnow : now ≤ now')
    (hnew : (cache.remember window key now').1 = true) :
    ∀ entry ∈ log, entry.1 = key → entry.2 + window ≤ now' := by
  intro entry hentry hkey
  rcases hg.purge hnow entry hentry with hmem | hover
  · unfold remember at hnew
    dsimp only at hnew
    rw [if_pos] at hnew
    · cases hnew
    · exact List.any_eq_true.mpr ⟨_, hmem, by simpa using hkey⟩
  · exact hover

theorem Guards.remember (hg : cache.Guards window log now) (hnow : now ≤ now') (key : κ) :
    (cache.remember window key now').2.Guards window
      (if (cache.remember window key now').1 then log ++ [(key, now')] else log) now' := by
  have hpurged := hg.purge hnow
  unfold ReplayCache.remember
  dsimp only
  split
  case isTrue => exact hpurged
  case isFalse =>
    intro entry hentry
    rcases List.mem_append.mp hentry with hold | hnew
    · exact (hpurged entry hold).imp_left (List.mem_append_left _)
    · rw [List.mem_singleton.mp hnew]
      exact .inl (List.mem_append_right _ (List.mem_singleton_self _))

end ReplayCache

end Eular.Lib
