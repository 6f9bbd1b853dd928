/-
Messages cut into fragments and numbered in one sequence.

The `k`-th message starts at `startOf ms k`; a number belongs to one
fragment of one message. A sorted list of indices below `n` lies inside
`List.range n`, so it is all of it when it is as long.
-/
import Mathlib

namespace Eular.Lib

variable {α : Type*} {ms : List (List α)} {m m' : List α} {a : α} {i i' j k n : Nat}

-- ==== numbering

/-- The number the `k`-th message starts at. -/
def startOf (ms : List (List α)) (k : Nat) : Nat := (ms.take k).flatten.length

theorem startOf_mono (h : j ≤ k) : startOf ms j ≤ startOf ms k := by
  unfold startOf
  rw [← Nat.add_sub_cancel' h, List.take_add, List.flatten_append, List.length_append]
  exact Nat.le_add_right _ _

theorem startOf_succ (h : ms[k]? = some m) : startOf ms (k + 1) = startOf ms k + m.length := by
  unfold startOf
  rw [List.take_add_one, h, Option.toList_some, List.flatten_append, List.length_append]
  rw [List.flatten_singleton]

theorem startOf_add_le (hjk : j < k) (h : ms[j]? = some m) :
    startOf ms j + m.length ≤ startOf ms k :=
  startOf_succ h ▸ startOf_mono hjk

theorem startOf_add_le_length (h : ms[k]? = some m) :
    startOf ms k + m.length ≤ ms.flatten.length := by
  have hle := startOf_add_le (List.getElem?_eq_some_iff.mp h).1 h
  rwa [startOf, startOf, List.take_length] at hle

theorem startOf_add_inj (hj : ms[j]? = some m) (hi : i < m.length) (hk : ms[k]? = some m')
    (hi' : i' < m'.length) (heq : startOf ms j + i = startOf ms k + i') : j = k := by
  obtain hlt | rfl | hgt := Nat.lt_trichotomy j k
  · have hle := startOf_add_le hlt hj
    omega
  · rfl
  · have hle := startOf_add_le hgt hk
    omega

theorem length_le_flatten (h : ∀ m ∈ ms, m ≠ []) : ms.length ≤ ms.flatten.length := by
  induction ms with
  | nil => exact Nat.zero_le _
  | cons m rest ih =>
    obtain ⟨hm, hrest⟩ := List.forall_mem_cons.mp h
    have hpos := List.length_pos_of_ne_nil hm
    have hle := ih hrest
    rw [List.flatten_cons, List.length_append, List.length_cons]
    omega

theorem exists_startOf_add (h : ms.flatten[n]? = some a) :
    ∃ k m i, ms[k]? = some m ∧ m[i]? = some a ∧ n = startOf ms k + i := by
  induction ms generalizing n with
  | nil => cases h
  | cons first rest ih =>
    rw [List.flatten_cons, List.getElem?_append] at h
    split at h
    · exact ⟨0, first, n, rfl, h, by simp [startOf]⟩
    · obtain ⟨k, m, i, hk, hi, hn⟩ := ih h
      refine ⟨k + 1, m, i, hk, hi, ?_⟩
      have hstart : startOf (first :: rest) (k + 1) = first.length + startOf rest k := by
        simp [startOf]
      omega

-- ==== sorted lists

theorem pairwise_orderedInsert {key : α → Nat} {l : List α}
    (h : l.Pairwise fun x y => key x < key y) (hne : ∀ x ∈ l, key x ≠ key a) :
    (l.orderedInsert (fun x y => key x < key y) a).Pairwise fun x y => key x < key y := by
  induction l with
  | nil => exact List.pairwise_singleton _ _
  | cons b rest ih =>
    obtain ⟨hb, hrest⟩ := List.pairwise_cons.mp h
    obtain ⟨hneb, hnerest⟩ := List.forall_mem_cons.mp hne
    rw [List.orderedInsert]
    split
    case isTrue hlt =>
      exact List.pairwise_cons.mpr
        ⟨List.forall_mem_cons.mpr ⟨hlt, fun x hx => hlt.trans (hb x hx)⟩, h⟩
    case isFalse hge =>
      refine List.pairwise_cons.mpr ⟨fun x hx => ?_, ih hrest hnerest⟩
      obtain rfl | hx := (List.mem_orderedInsert _).mp hx
      · omega
      · exact hb x hx

theorem sublist_range {l : List Nat} (hsorted : l.Pairwise (· < ·)) (hlt : ∀ x ∈ l, x < n) :
    l.Sublist (List.range n) :=
  List.sublist_of_subperm_of_pairwise
    (List.subperm_of_subset (hsorted.imp Nat.ne_of_lt) fun x hx => List.mem_range.mpr (hlt x hx))
    hsorted List.pairwise_lt_range

end Eular.Lib
