/-
An ordered table, as its in-order sequence.

The balanced search trees of the source (`rbtree.h`, `std::map`) are
used through four operations only: the first entry at or above a key,
the last entry below it, insertion under a fresh key, and replacement of
the entry that already holds the key. On a table that is strictly
sorted by key each of these is determined by the in-order sequence of
entries, so a table is a list here and `Sorted` is what a search tree
maintains. The membership lemmas are the interface: no later proof looks
at how the list is walked.
-/
import Mathlib

namespace Eular.Lib

variable {α κ : Type*} [LinearOrder κ] {key : α → κ}

-- ==== operations

/-- The table is strictly sorted by key. -/
def Sorted (key : α → κ) (t : List α) : Prop :=
  t.Pairwise fun a b => key a < key b

/-- The entries from the first one whose key is at least `k` on. -/
def lowerBound (key : α → κ) (k : κ) (t : List α) : List α :=
  t.dropWhile fun a => key a < k

/-- The last entry whose key is below `k`. -/
def prev (key : α → κ) (k : κ) (t : List α) : Option α :=
  (t.takeWhile fun a => key a < k).getLast?

/-- The entry whose key is `k`. -/
def lookup (key : α → κ) (k : κ) (t : List α) : Option α :=
  t.find? fun a => key a = k

/-- Put `x` at its place, in place of an entry of the same key. -/
def put (key : α → κ) (x : α) : List α → List α
  | [] => [x]
  | y :: ys =>
    if key x < key y then x :: y :: ys
    else if key y < key x then y :: put key x ys
    else x :: ys

-- ==== sortedness

variable {a : α} {t : List α}

theorem Sorted.tail (h : Sorted key (a :: t)) :
    Sorted key t :=
  (List.pairwise_cons.mp h).2

theorem Sorted.head_lt {a b : α} (h : Sorted key (a :: t))
    (hb : b ∈ t) : key a < key b :=
  (List.pairwise_cons.mp h).1 b hb

theorem Sorted.eq_of_key (h : Sorted key t) :
    ∀ {a b : α}, a ∈ t → b ∈ t → key a = key b → a = b := by
  induction t with
  | nil => intro a b ha; simp at ha
  | cons c t ih =>
    intro a b ha hb hab
    rcases List.mem_cons.mp ha with rfl | ha' <;>
      rcases List.mem_cons.mp hb with rfl | hb'
    · rfl
    · exact absurd hab (ne_of_lt (h.head_lt hb'))
    · exact absurd hab.symm (ne_of_lt (h.head_lt ha'))
    · exact ih h.tail ha' hb' hab

theorem Sorted.map {g : α → α} (h : Sorted key t)
    (hg : ∀ a, key (g a) = key a) : Sorted key (t.map g) := by
  refine List.pairwise_map.mpr (h.imp ?_)
  intro a b hab
  rwa [hg, hg]

-- ==== the lower bound

theorem lowerBound_sublist (k : κ) (t : List α) :
    (lowerBound key k t).Sublist t :=
  List.dropWhile_sublist _

variable {k : κ}

theorem mem_lowerBound (h : Sorted key t) :
    a ∈ lowerBound key k t ↔ a ∈ t ∧ k ≤ key a := by
  induction t with
  | nil => simp [lowerBound]
  | cons b t ih =>
    unfold lowerBound
    by_cases hb : key b < k
    · rw [List.dropWhile_cons_of_pos (by simpa using hb)]
      rw [← lowerBound, ih h.tail]
      constructor
      · rintro ⟨ha, hk⟩
        exact ⟨List.mem_cons_of_mem _ ha, hk⟩
      · rintro ⟨ha, hk⟩
        rcases List.mem_cons.mp ha with rfl | ha
        · exact absurd hb (not_lt.mpr hk)
        · exact ⟨ha, hk⟩
    · rw [List.dropWhile_cons_of_neg (by simpa using hb)]
      refine ⟨fun ha => ⟨ha, ?_⟩, fun ha => ha.1⟩
      rcases List.mem_cons.mp ha with rfl | ha
      · exact not_lt.mp hb
      · exact (not_lt.mp hb).trans (h.head_lt ha).le

-- ==== the predecessor

theorem prev_eq_none (h : Sorted key t)
    (hp : prev key k t = none) (ha : a ∈ t) : k ≤ key a := by
  cases t with
  | nil => simp at ha
  | cons b t =>
    have hb : ¬ key b < k := by
      intro hb
      rw [prev, List.takeWhile_cons_of_pos (by simpa using hb)] at hp
      simp at hp
    rcases List.mem_cons.mp ha with rfl | ha
    · exact not_lt.mp hb
    · exact (not_lt.mp hb).trans (h.head_lt ha).le

/-- The predecessor is an entry below the key, and every other entry
below the key comes before it. -/
theorem prev_eq_some (h : Sorted key t) {p : α}
    (hp : prev key k t = some p) :
    p ∈ t ∧ key p < k ∧ ∀ a ∈ t, key a < k → a = p ∨ key a < key p := by
  induction t generalizing p with
  | nil => simp [prev] at hp
  | cons b t ih =>
    by_cases hb : key b < k
    case neg =>
      rw [prev, List.takeWhile_cons_of_neg (by simpa using hb)] at hp
      simp at hp
    rw [prev, List.takeWhile_cons_of_pos (by simpa using hb)] at hp
    cases hq : prev key k t with
    | none =>
      have hempty : t.takeWhile (fun a => decide (key a < k)) = [] := by
        simpa [prev] using hq
      rw [hempty] at hp
      obtain rfl : b = p := by simpa using hp
      refine ⟨List.mem_cons_self, hb, ?_⟩
      intro a ha hak
      rcases List.mem_cons.mp ha with rfl | ha
      · exact Or.inl rfl
      · exact absurd hak (not_lt.mpr (prev_eq_none h.tail hq ha))
    | some q =>
      obtain ⟨hmem, hlt, hmax⟩ := ih h.tail hq
      have hp' : q = p := by
        rw [prev] at hq
        rw [List.getLast?_cons, hq] at hp
        simpa using hp
      subst hp'
      refine ⟨List.mem_cons_of_mem _ hmem, hlt, ?_⟩
      intro a ha hak
      rcases List.mem_cons.mp ha with rfl | ha
      · exact Or.inr (h.head_lt hmem)
      · exact hmax a ha hak

-- ==== lookup

theorem lookup_eq_some
    (h : lookup key k t = some a) : a ∈ t ∧ key a = k :=
  ⟨List.mem_of_find?_eq_some h, by simpa using List.find?_some h⟩

theorem lookup_eq_none (h : lookup key k t = none)
    (ha : a ∈ t) : key a ≠ k := by
  simpa using List.find?_eq_none.mp h a ha

-- ==== insertion

/-- The table after `put`: the new entry, and the old ones of other
keys. -/
theorem mem_put {x a : α} (h : Sorted key t) :
    a ∈ put key x t ↔ a = x ∨ a ∈ t ∧ key a ≠ key x := by
  induction t with
  | nil => simp [put]
  | cons b t ih =>
    have hbt : ∀ c ∈ t, key b < key c := fun c hc => h.head_lt hc
    unfold put
    split
    case isTrue hlt =>
      have hne : ∀ c ∈ b :: t, key c ≠ key x := by
        intro c hc
        rcases List.mem_cons.mp hc with rfl | hc
        · exact ne_of_gt hlt
        · exact ne_of_gt (hlt.trans (hbt c hc))
      rw [List.mem_cons]
      exact or_congr_right ⟨fun ha => ⟨ha, hne a ha⟩, fun ha => ha.1⟩
    case isFalse hnlt =>
      split
      case isTrue hgt =>
        rw [List.mem_cons, ih h.tail, List.mem_cons]
        have hb : key b ≠ key x := ne_of_lt hgt
        constructor
        · rintro (rfl | rfl | ⟨ha, hk⟩)
          · exact Or.inr ⟨Or.inl rfl, hb⟩
          · exact Or.inl rfl
          · exact Or.inr ⟨Or.inr ha, hk⟩
        · rintro (rfl | ⟨rfl | ha, hk⟩)
          · exact Or.inr (Or.inl rfl)
          · exact Or.inl rfl
          · exact Or.inr (Or.inr ⟨ha, hk⟩)
      case isFalse hngt =>
        have heq : key x = key b := le_antisymm (not_lt.mp hngt) (not_lt.mp hnlt)
        rw [List.mem_cons, List.mem_cons]
        constructor
        · rintro (rfl | ha)
          · exact Or.inl rfl
          · exact Or.inr ⟨Or.inr ha, by rw [heq]; exact ne_of_gt (hbt a ha)⟩
        · rintro (rfl | ⟨rfl | ha, hk⟩)
          · exact Or.inl rfl
          · exact absurd heq.symm hk
          · exact Or.inr ha

theorem mem_put_self (x : α) (t : List α) : x ∈ put key x t := by
  induction t with
  | nil => exact List.mem_singleton_self x
  | cons y ys ih =>
    unfold put
    split
    · exact List.mem_cons_self ..
    · split
      · exact List.mem_cons_of_mem _ ih
      · exact List.mem_cons_self ..

theorem length_put_le (x : α) (t : List α) : (put key x t).length ≤ t.length + 1 := by
  induction t with
  | nil => exact Nat.le_refl 1
  | cons y ys ih =>
    unfold put
    split
    · exact Nat.le_refl _
    · split
      · exact Nat.succ_le_succ ih
      · exact Nat.le_succ _

variable {x : α}

theorem put_of_lt (h : ∀ a ∈ t, key a < key x) :
    put key x t = t ++ [x] := by
  induction t with
  | nil => rfl
  | cons b t ih =>
    obtain ⟨hlt, hrest⟩ := List.forall_mem_cons.1 h
    rw [put, if_neg (lt_asymm hlt), if_pos hlt, ih hrest, List.cons_append]

theorem lookup_put_self (x : α) (t : List α) : lookup key (key x) (put key x t) = some x := by
  induction t with
  | nil => simp [put, lookup]
  | cons y ys ih =>
    unfold put
    split
    · simp [lookup]
    · split
      case isTrue hlt =>
        rw [lookup, List.find?_cons_of_neg (by simpa using ne_of_lt hlt)]
        exact ih
      case isFalse => simp [lookup]

theorem lookup_filter {p : α → Bool} (h : lookup key k t = some x)
    (hp : p x = true) : lookup key k (t.filter p) = some x := by
  induction t with
  | nil => cases h
  | cons y ys ih =>
    rw [lookup, List.find?_cons] at h
    by_cases hy : key y = k
    · simp only [hy, decide_true] at h
      cases h
      simp [lookup, hp, hy]
    · simp only [hy, decide_false] at h
      by_cases hpy : p y = true
      · rw [List.filter_cons_of_pos hpy, lookup, List.find?_cons_of_neg (by simpa using hy)]
        exact ih h
      · rw [List.filter_cons_of_neg hpy]
        exact ih h

theorem mem_of_mem_put {x a : α} (h : a ∈ put key x t) : a = x ∨ a ∈ t := by
  induction t with
  | nil => exact Or.inl (List.mem_singleton.mp h)
  | cons b t ih =>
    unfold put at h
    split at h
    · exact List.mem_cons.mp h
    · split at h
      · cases List.mem_cons.mp h with
        | inl hb => exact Or.inr (hb ▸ List.mem_cons_self ..)
        | inr ht => exact (ih ht).imp_right (List.mem_cons_of_mem _)
      · exact (List.mem_cons.mp h).imp_right (List.mem_cons_of_mem _)

/-- `put` keeps the table sorted. -/
theorem sorted_put (h : Sorted key t) :
    Sorted key (put key x t) := by
  induction t with
  | nil => simp [put, Sorted]
  | cons b t ih =>
    unfold put
    split
    case isTrue hlt =>
      refine List.pairwise_cons.mpr ⟨?_, h⟩
      intro c hc
      rcases List.mem_cons.mp hc with rfl | hc
      · exact hlt
      · exact hlt.trans (h.head_lt hc)
    case isFalse hnlt =>
      split
      case isTrue hgt =>
        refine List.pairwise_cons.mpr ⟨?_, ih h.tail⟩
        intro c hc
        rcases (mem_put h.tail).mp hc with rfl | ⟨hc, -⟩
        · exact hgt
        · exact h.head_lt hc
      case isFalse hngt =>
        have heq : key x = key b := le_antisymm (not_lt.mp hngt) (not_lt.mp hnlt)
        refine List.pairwise_cons.mpr ⟨?_, h.tail⟩
        intro c hc
        rw [heq]
        exact h.head_lt hc

theorem put_append {before after : List α} (hbefore : ∀ a ∈ before, key a < key x)
    (hafter : ∀ a ∈ after, key x < key a) :
    put key x (before ++ after) = before ++ x :: after := by
  induction before with
  | nil =>
    cases after with
    | nil => rfl
    | cons a after => exact if_pos (hafter a List.mem_cons_self)
  | cons b before ih =>
    have hb := hbefore b List.mem_cons_self
    rw [List.cons_append, put, if_neg hb.not_gt, if_pos hb,
      ih fun a ha => hbefore a (List.mem_cons_of_mem _ ha), List.cons_append]

/-- Under a fresh key `put` adds an entry. -/
theorem put_perm_of_lookup_none
    (h : lookup key (key x) t = none) : (put key x t).Perm (x :: t) := by
  induction t with
  | nil => exact List.Perm.refl _
  | cons b t ih =>
    have hne : key b ≠ key x := lookup_eq_none h List.mem_cons_self
    have htail : lookup key (key x) t = none := by
      rw [lookup, List.find?_cons_of_neg (by simpa using hne)] at h
      exact h
    unfold put
    split
    case isTrue => exact List.Perm.refl _
    case isFalse hnlt =>
      rw [if_pos (lt_of_le_of_ne (not_lt.mp hnlt) hne)]
      exact ((ih htail).cons b).trans (List.Perm.swap x b t)

/-- Under a key that is taken `put` exchanges two entries. -/
theorem put_perm_of_lookup_some {x c : α} (hs : Sorted key t)
    (h : lookup key (key x) t = some c) :
    (c :: put key x t).Perm (x :: t) := by
  induction t with
  | nil => simp [lookup] at h
  | cons b t ih =>
    unfold put
    by_cases hb : key b = key x
    · rw [lookup, List.find?_cons_of_pos (by simpa using hb)] at h
      obtain rfl : b = c := by simpa using h
      rw [if_neg (by rw [hb]; exact lt_irrefl _), if_neg (by rw [hb]; exact lt_irrefl _)]
      exact List.Perm.swap x b t
    · rw [lookup, List.find?_cons_of_neg (by simpa using hb)] at h
      have hlt : key b < key x := by
        obtain ⟨hc, hk⟩ := lookup_eq_some h
        rw [← hk]
        exact hs.head_lt hc
      rw [if_neg (not_lt.mpr hlt.le), if_pos hlt]
      have hswap : (c :: b :: put key x t).Perm (b :: c :: put key x t) :=
        List.Perm.swap b c _
      have htail : (b :: c :: put key x t).Perm (b :: x :: t) :=
        (ih hs.tail h).cons b
      exact (hswap.trans htail).trans (List.Perm.swap x b t)

-- ==== entries that are kept out

/-- Add `x`, unless an entry has its key. -/
def emplace (key : α → κ) (x : α) (t : List α) : List α :=
  match lookup key (key x) t with
  | none => put key x t
  | some _ => t

theorem sorted_emplace (h : Sorted key t) : Sorted key (emplace key x t) := by
  unfold emplace
  split
  · exact sorted_put h
  · exact h

theorem mem_emplace {x a : α} (h : Sorted key t) :
    a ∈ emplace key x t ↔ a ∈ t ∨ a = x ∧ ∀ b ∈ t, key b ≠ key x := by
  unfold emplace
  split
  case h_1 hnone =>
    rw [mem_put h]
    have hfresh : ∀ b ∈ t, key b ≠ key x := fun b hb => lookup_eq_none hnone hb
    constructor
    · rintro (rfl | ⟨ha, -⟩)
      · exact Or.inr ⟨rfl, hfresh⟩
      · exact Or.inl ha
    · rintro (ha | ⟨rfl, -⟩)
      · exact Or.inr ⟨ha, hfresh a ha⟩
      · exact Or.inl rfl
  case h_2 b hsome =>
    obtain ⟨hb, hkey⟩ := lookup_eq_some hsome
    refine ⟨Or.inl, fun ha => ha.elim id fun hnew => absurd hkey (hnew.2 b hb)⟩

def erase (key : α → κ) (k : κ) (t : List α) : List α := t.filter fun a => key a ≠ k

theorem mem_erase : a ∈ erase key k t ↔ a ∈ t ∧ key a ≠ k := by
  simp [erase]

theorem sorted_erase (h : Sorted key t) : Sorted key (erase key k t) :=
  h.filter _

theorem Sorted.eq_of_mem_iff {t t' : List α} (h : Sorted key t) (h' : Sorted key t')
    (hmem : ∀ a, a ∈ t ↔ a ∈ t') : t = t' := by
  have hnodup : ∀ {t : List α}, Sorted key t → t.Nodup := fun hs =>
    hs.imp fun hlt heq => absurd (congrArg key heq) (ne_of_lt hlt)
  have hperm : t.Perm t' := (List.perm_ext_iff_of_nodup (hnodup h) (hnodup h')).mpr hmem
  exact hperm.eq_of_pairwise (fun a b _ _ hab hba => absurd hba (not_lt.mpr hab.le)) h h'

-- ==== round the ring

/-- The first entry at or above `k`, and the first of all when there is
none. -/
def next (key : α → κ) (k : κ) (t : List α) : Option α :=
  match lowerBound key k t with
  | [] => t.head?
  | a :: _ => some a

/-- Going up from `k` and round, `b` is met before `a`. -/
def Before (key : α → κ) (k : κ) (b a : α) : Prop :=
  (k ≤ key b ∧ key a < k) ∨ ((k ≤ key b ↔ k ≤ key a) ∧ key b < key a)

theorem before_or_before {a b : α} (hne : key a ≠ key b) :
    Before key k a b ∨ Before key k b a := by
  unfold Before
  rcases lt_or_gt_of_ne hne with hlt | hlt <;>
    rcases le_or_gt k (key a) with ha | ha <;> rcases le_or_gt k (key b) with hb | hb <;>
      simp_all [not_le.mpr]

theorem next_eq_none (h : next key k t = none) : t = [] := by
  unfold next at h
  split at h
  · exact List.head?_eq_none_iff.mp h
  · cases h

theorem first_of_next (h : Sorted key t) (ha : next key k t = some a) :
    a ∈ t ∧ ∀ b ∈ t, ¬ Before key k b a := by
  have hmem := fun b => mem_lowerBound (k := k) h (a := b)
  have hsorted : Sorted key (lowerBound key k t) := h.sublist (lowerBound_sublist k t)
  unfold next at ha
  cases hlow : lowerBound key k t with
  | nil =>
    rw [hlow] at ha hmem
    have hbelow : ∀ b ∈ t, ¬ k ≤ key b := fun b hb hle =>
      List.not_mem_nil ((hmem b).mpr ⟨hb, hle⟩)
    obtain ⟨rest, rfl⟩ := List.head?_eq_some_iff.mp ha
    refine ⟨List.mem_cons_self, fun b hb hbefore => ?_⟩
    rcases hbefore with ⟨hle, -⟩ | ⟨-, hlt⟩
    · exact hbelow b hb hle
    · rcases List.mem_cons.mp hb with rfl | hb
      · exact lt_irrefl _ hlt
      · exact lt_asymm hlt (h.head_lt hb)
  | cons c rest =>
    rw [hlow] at ha hmem hsorted
    obtain rfl : c = a := Option.some.inj ha
    obtain ⟨hc, hle⟩ := (hmem c).mp List.mem_cons_self
    refine ⟨hc, fun b hb hbefore => ?_⟩
    rcases hbefore with ⟨-, hlt⟩ | ⟨hiff, hlt⟩
    · exact not_lt.mpr hle hlt
    · rcases List.mem_cons.mp ((hmem b).mpr ⟨hb, hiff.mpr hle⟩) with rfl | hb
      · exact lt_irrefl _ hlt
      · exact lt_asymm hlt (hsorted.head_lt hb)

/-- `next` is the entry no other is met before. -/
theorem next_eq_some (h : Sorted key t) :
    next key k t = some a ↔ a ∈ t ∧ ∀ b ∈ t, ¬ Before key k b a := by
  refine ⟨first_of_next h, fun ⟨ha, hfirst⟩ => ?_⟩
  cases hnext : next key k t with
  | none =>
    rw [next_eq_none hnext] at ha
    exact absurd ha List.not_mem_nil
  | some c =>
    obtain ⟨hc, hfirst'⟩ := first_of_next h hnext
    by_cases hkey : key a = key c
    · rw [h.eq_of_key ha hc hkey]
    · cases before_or_before (k := k) hkey with
      | inl hac => exact absurd hac (hfirst' a ha)
      | inr hca => exact absurd hca (hfirst c hc)

theorem next_of_subset {t t' : List α} (h : Sorted key t) (h' : Sorted key t')
    (hsub : t ⊆ t') (ha : next key k t' = some a) (hmem : a ∈ t) : next key k t = some a :=
  (next_eq_some h).mpr ⟨hmem, fun b hb => ((next_eq_some h').mp ha).2 b (hsub hb)⟩

end Eular.Lib
