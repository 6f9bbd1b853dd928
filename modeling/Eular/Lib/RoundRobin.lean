/-
Turns: who is next when keys are served in order, round and round.

A cursor holds the key that was served last. The next turn is that of
the first key above it, or, if there is none, of the first of all.
`Ahead c x b` says that `x` lies on the way from the cursor `c` to `b`;
it is all that fairness needs. Whoever is served instead of a waiting
`b` was ahead of it and is not any more (`gap_lt_gap`), so `b`'s turn
comes; and between two turns of one key each waiting key has its own
(`Ahead.trans`).
-/
import Mathlib

namespace Eular.Lib

variable {κ α : Type*} [LinearOrder κ] {c x y a b : κ}

-- ==== ahead of a key

/-- On the way from the cursor `c` round to `b`. -/
def Ahead (c x b : κ) : Prop :=
  if c < b then c < x ∧ x < b else c < x ∨ x < b

instance (c x b : κ) : Decidable (Ahead c x b) :=
  inferInstanceAs (Decidable (if c < b then c < x ∧ x < b else c < x ∨ x < b))

theorem not_ahead_self (c b : κ) : ¬ Ahead c b b := by
  unfold Ahead
  split <;> grind

theorem not_ahead_cursor (c b : κ) : ¬ Ahead c c b := by
  unfold Ahead
  split <;> grind

theorem Ahead.trans (hx : Ahead c x b) (hy : Ahead x y b) : Ahead c y b := by
  unfold Ahead at *
  grind

theorem Ahead.ne (hx : Ahead c x b) : x ≠ b := by
  rintro rfl
  exact not_ahead_self c x hx

-- ==== by key

/-- A list in the order of its keys. -/
def sortBy (key : α → κ) (l : List α) : List α :=
  l.insertionSort fun a b => key a ≤ key b

variable {key : α → κ} {l : List α}

@[simp] theorem mem_sortBy {a : α} : a ∈ sortBy key l ↔ a ∈ l := List.mem_insertionSort _

theorem perm_sortBy (key : α → κ) (l : List α) : (sortBy key l).Perm l :=
  List.perm_insertionSort _ l

theorem pairwise_sortBy (key : α → κ) (l : List α) :
    (sortBy key l).Pairwise fun a b => key a ≤ key b :=
  have : Std.Total fun a b : α => key a ≤ key b := ⟨fun a b => le_total (key a) (key b)⟩
  have : IsTrans α fun a b => key a ≤ key b := ⟨fun _ _ _ => le_trans⟩
  List.pairwise_insertionSort _ l

theorem pairwise_lt_sortBy (hdistinct : (l.map key).Nodup) :
    (sortBy key l).Pairwise fun a b => key a < key b := by
  have hne : (sortBy key l).Pairwise fun a b => key a ≠ key b :=
    List.pairwise_map.mp (((perm_sortBy key l).map key).nodup_iff.mpr hdistinct)
  exact (pairwise_sortBy key l).imp₂ (fun a b hab hne => lt_of_le_of_ne hab hne) hne

-- ==== the turns

def nextAfter (keys : List κ) (cursor : κ) : Option κ :=
  let sorted := sortBy id keys
  (sorted.find? fun key => cursor < key).or sorted.head?

variable {keys : List κ}

theorem nextAfter_mem (h : nextAfter keys c = some x) : x ∈ keys := by
  unfold nextAfter at h
  rcases Option.or_eq_some_iff.mp h with hfind | ⟨-, hhead⟩
  · exact mem_sortBy.mp (List.mem_of_find?_eq_some hfind)
  · exact mem_sortBy.mp (List.mem_of_mem_head? hhead)

theorem exists_nextAfter (hb : b ∈ keys) (c : κ) : ∃ x, nextAfter keys c = some x := by
  unfold nextAfter
  have hmem : b ∈ sortBy id keys := mem_sortBy.mpr hb
  cases hsorted : sortBy id keys with
  | nil => simp [hsorted] at hmem
  | cons y ys =>
    cases hfind : (y :: ys).find? fun key => c < key with
    | none => exact ⟨y, by simp only [hfind]; rfl⟩
    | some z => exact ⟨z, by simp only [hfind]; rfl⟩

theorem nextAfter_ahead (h : nextAfter keys c = some x) (hb : b ∈ keys) :
    x = b ∨ Ahead c x b := by
  have hsorted : (sortBy id keys).Pairwise (· ≤ ·) := pairwise_sortBy id keys
  have hmem : b ∈ sortBy id keys := mem_sortBy.mpr hb
  unfold nextAfter at h
  rcases Option.or_eq_some_iff.mp h with hfind | ⟨hnone, hhead⟩
  · obtain ⟨hcx, pre, post, heq, hpre⟩ := List.find?_eq_some_iff_append.mp hfind
    rw [heq] at hsorted hmem
    have hpost := (List.pairwise_cons.mp (List.pairwise_append.mp hsorted).2.1).1
    unfold Ahead
    rcases List.mem_append.mp hmem with hin | hin
    · have hbc := hpre b hin
      grind
    · rcases List.mem_cons.mp hin with rfl | hin
      · exact .inl rfl
      · have hxb := hpost b hin
        grind
  · have hbc := List.find?_eq_none.mp hnone b hmem
    have hxb : x ≤ b := by
      cases hs : sortBy id keys with
      | nil => simp [hs] at hmem
      | cons y ys =>
        rw [hs] at hmem hsorted hhead
        obtain rfl : y = x := by simpa using hhead
        rcases List.mem_cons.mp hmem with rfl | hin
        · exact le_rfl
        · exact (List.pairwise_cons.mp hsorted).1 b hin
    unfold Ahead
    grind

-- ==== the gap

/-- How many keys of `S` are ahead of `b`. -/
def gap (S : Finset κ) (c b : κ) : Nat := (S.filter fun x => Ahead c x b).card

variable {S : Finset κ}

theorem gap_lt_card (hb : b ∈ S) (c : κ) : gap S c b < S.card := by
  refine Finset.card_lt_card (Finset.filter_ssubset.mpr ⟨b, hb, ?_⟩)
  exact not_ahead_self c b

/-- Serving a key that is ahead brings `b` nearer. -/
theorem gap_lt_gap (hx : x ∈ S) (hahead : Ahead c x b) : gap S x b < gap S c b := by
  refine Finset.card_lt_card (Finset.ssubset_iff_of_subset ?_ |>.mpr ⟨x, ?_, ?_⟩)
  · intro y hy
    obtain ⟨hyS, hy⟩ := Finset.mem_filter.mp hy
    exact Finset.mem_filter.mpr ⟨hyS, hahead.trans hy⟩
  · exact Finset.mem_filter.mpr ⟨hx, hahead⟩
  · intro hself
    have hself := (Finset.mem_filter.mp hself).2
    unfold Ahead at hself
    split at hself <;> grind

-- ==== a whole round in order

/-- The round from the first key above the cursor on. -/
def roundFrom (key : α → κ) (l : List α) (cursor : κ) : List α :=
  l.rotate ((l.findIdx? fun a => cursor < key a).getD 0)

@[simp] theorem mem_roundFrom {a : α} : a ∈ roundFrom key l c ↔ a ∈ l := List.mem_rotate

theorem pairwise_roundFrom (hsorted : l.Pairwise fun a b => key a < key b) (c : κ) :
    (roundFrom key l c).Pairwise fun a b => Ahead c (key a) (key b) := by
  unfold roundFrom
  cases hidx : l.findIdx? fun a => decide (c < key a) with
  | none =>
    have hlow := List.findIdx?_eq_none_iff.mp hidx
    rw [Option.getD_none, List.rotate_zero]
    refine hsorted.imp_of_mem fun {a b} ha hb hab => ?_
    have := hlow b hb
    unfold Ahead
    grind
  | some i =>
    obtain ⟨hi, hhigh, hlow⟩ := List.findIdx?_eq_some_iff_getElem.mp hidx
    rw [Option.getD_some, List.rotate_eq_drop_append_take hi.le]
    have hsplit := hsorted
    rw [← List.take_append_drop i l] at hsplit
    obtain ⟨htake, hdrop, -⟩ := List.pairwise_append.mp hsplit
    have habove : ∀ a ∈ l.drop i, c < key a := by
      intro a ha
      rw [List.drop_eq_getElem_cons hi] at ha hdrop
      rcases List.mem_cons.mp ha with rfl | ha
      · simpa using hhigh
      · exact (by simpa using hhigh : c < key l[i]).trans ((List.pairwise_cons.mp hdrop).1 a ha)
    have hbelow : ∀ a ∈ l.take i, ¬ c < key a := by
      intro a ha
      obtain ⟨j, hj, rfl⟩ := List.getElem_of_mem ha
      rw [List.length_take] at hj
      rw [List.getElem_take]
      simpa using hlow j (by omega)
    refine List.pairwise_append.mpr ⟨?_, ?_, ?_⟩
    · refine hdrop.imp_of_mem fun {a b} ha hb hab => ?_
      have := habove a ha
      have := habove b hb
      unfold Ahead
      grind
    · refine htake.imp_of_mem fun {a b} ha hb hab => ?_
      have := hbelow b hb
      unfold Ahead
      grind
    · intro a ha b hb
      have := habove a ha
      have := hbelow b hb
      unfold Ahead
      grind

end Eular.Lib
