/-
An ordered map: a strictly sorted table of keys and values.

It is `std::map` as a program without iterators sees it, and, where nobody
asks for the order, `std::unordered_map` as well. The table is sorted by
construction, so two maps that answer every `find` alike are one map
(`ext_find`), and a map is known by four lemmas: what `find` gives in the
empty map and after `insert`, `erase` and `filter`.
-/
import Eular.Lib.SortedTable

namespace Eular.Lib

/-- Entries under distinct keys, in the order of the keys. -/
structure SortedMap (κ β : Type*) [LinearOrder κ] where
  entries : List (κ × β)
  sorted : Sorted Prod.fst entries

namespace SortedMap

variable {κ β : Type*} [LinearOrder κ] {k k' : κ} {v : β} {m m' : SortedMap κ β}

@[ext] theorem ext (h : m.entries = m'.entries) : m = m' := by
  cases m
  cases m'
  simpa using h

instance [DecidableEq β] : DecidableEq (SortedMap κ β) := fun m m' =>
  decidable_of_iff (m.entries = m'.entries) ⟨ext, fun h => h ▸ rfl⟩

-- ==== operations

def empty : SortedMap κ β := ⟨[], List.Pairwise.nil⟩

def find (m : SortedMap κ β) (k : κ) : Option β :=
  (lookup Prod.fst k m.entries).map Prod.snd

/-- The map with `v` under `k`, whatever was there: `m[k] = v`. -/
def insert (m : SortedMap κ β) (k : κ) (v : β) : SortedMap κ β :=
  ⟨put Prod.fst (k, v) m.entries, sorted_put m.sorted⟩

/-- The entries that meet `p`. -/
def filter (m : SortedMap κ β) (p : κ → β → Bool) : SortedMap κ β :=
  ⟨m.entries.filter fun e => p e.1 e.2, m.sorted.filter _⟩

def erase (m : SortedMap κ β) (k : κ) : SortedMap κ β := m.filter fun k' _ => k' ≠ k

-- ==== find

theorem find_eq_some_iff : m.find k = some v ↔ (k, v) ∈ m.entries := by
  constructor
  · intro h
    obtain ⟨⟨k', v'⟩, hfound, rfl⟩ := Option.map_eq_some_iff.1 h
    obtain ⟨hmem, rfl⟩ := lookup_eq_some hfound
    exact hmem
  · intro hmem
    cases hfound : lookup Prod.fst k m.entries with
    | none => exact absurd rfl (lookup_eq_none hfound hmem)
    | some e =>
      obtain ⟨he, hkey⟩ := lookup_eq_some hfound
      rw [find, hfound, m.sorted.eq_of_key he hmem hkey]
      rfl

/-- A map is what its `find` answers. -/
theorem ext_find (h : ∀ k, m.find k = m'.find k) : m = m' := by
  refine ext (m.sorted.eq_of_mem_iff m'.sorted fun ⟨k, v⟩ => ?_)
  rw [← find_eq_some_iff, h, find_eq_some_iff]

@[simp] theorem find_empty : (empty : SortedMap κ β).find k = none := rfl

@[simp] theorem find_insert_self : (m.insert k v).find k = some v :=
  find_eq_some_iff.2 (mem_put_self ..)

theorem find_insert_of_ne (h : k' ≠ k) : (m.insert k v).find k' = m.find k' := by
  ext w
  show (m.insert k v).find k' = some w ↔ m.find k' = some w
  rw [find_eq_some_iff, find_eq_some_iff]
  refine (mem_put m.sorted).trans ⟨?_, fun hw => Or.inr ⟨hw, h⟩⟩
  rintro (heq | ⟨hw, -⟩)
  · exact absurd (congrArg Prod.fst heq) h
  · exact hw

theorem find_insert : (m.insert k v).find k' = if k' = k then some v else m.find k' := by
  split
  · rename_i h
    rw [h, find_insert_self]
  · rename_i h
    exact find_insert_of_ne h

theorem find_filter {p : κ → β → Bool} : (m.filter p).find k = (m.find k).filter (p k) := by
  ext w
  show (m.filter p).find k = some w ↔ (m.find k).filter (p k) = some w
  rw [find_eq_some_iff, Option.filter_eq_some_iff, find_eq_some_iff]
  exact List.mem_filter

theorem find_erase : (m.erase k).find k' = if k' = k then none else m.find k' := by
  rw [erase, find_filter]
  split
  · rename_i h
    cases m.find k' <;> simp [h]
  · rename_i h
    cases m.find k' <;> simp [h]

/-- The map with `v` under `k`, unless something is: `m.emplace(k, v)`. -/
def emplace (m : SortedMap κ β) (k : κ) (v : β) : SortedMap κ β :=
  match m.find k with
  | some _ => m
  | none => m.insert k v

theorem find_emplace :
    (m.emplace k v).find k' = (m.find k').or (if k' = k then some v else none) := by
  unfold emplace
  cases hk : m.find k with
  | some w =>
    dsimp only
    by_cases heq : k' = k
    · rw [heq, hk]
      rfl
    · rw [if_neg heq, Option.or_none]
  | none =>
    dsimp only
    rw [find_insert]
    by_cases heq : k' = k
    · rw [if_pos heq, if_pos heq, heq, hk]
      rfl
    · rw [if_neg heq, if_neg heq, Option.or_none]

theorem find_foldl_emplace {α : Type*} (key : α → κ) (val : α → β) (l : List α) :
    (l.foldl (fun m a => m.emplace (key a) (val a)) m).find k
      = (m.find k).or ((l.find? fun a => key a = k).map val) := by
  induction l generalizing m with
  | nil => simp
  | cons a l ih =>
    rw [List.foldl_cons, ih, find_emplace, Option.or_assoc]
    by_cases ha : key a = k
    · rw [if_pos ha.symm, List.find?_cons_of_pos (by simpa using ha)]
      rfl
    · rw [if_neg (fun h => ha h.symm), List.find?_cons_of_neg (by simpa using ha)]
      rfl

theorem find_of_lt (h : ∀ e ∈ m.entries, e.1 < k) : m.find k = none := by
  cases hfind : m.find k with
  | none => rfl
  | some v => exact absurd (h _ (find_eq_some_iff.1 hfind)) (lt_irrefl k)

theorem entries_insert_of_lt (h : ∀ e ∈ m.entries, e.1 < k) :
    (m.insert k v).entries = m.entries ++ [(k, v)] :=
  put_of_lt h

theorem length_insert_le : (m.insert k v).entries.length ≤ m.entries.length + 1 :=
  length_put_le (k, v) m.entries

theorem insert_of_find (h : m.find k = some v) : m.insert k v = m := by
  refine ext_find fun k' => ?_
  rw [find_insert]
  split
  · rename_i hk
    rw [hk, h]
  · rfl

end SortedMap

-- ==== many updates

section Updates

variable {σ α κ β : Type*} [DecidableEq κ] {g : σ → κ → Option β} {upd : σ → α → σ}
  {key : α → κ} {val : α → β}

theorem get_foldl (h : ∀ s a k, g (upd s a) k = if k = key a then some (val a) else g s k)
    (l : List α) (s : σ) (k : κ) :
    g (l.foldl upd s) k = ((l.reverse.find? fun a => key a = k).map val).or (g s k) := by
  induction l generalizing s with
  | nil => rfl
  | cons a l ih =>
    rw [List.foldl_cons, ih, h, List.reverse_cons, List.find?_append]
    cases l.reverse.find? fun a => decide (key a = k) with
    | some b => rfl
    | none =>
      by_cases ha : k = key a
      · rw [if_pos ha, List.find?_cons_of_pos (by simpa using ha.symm)]
        rfl
      · rw [if_neg ha, List.find?_cons_of_neg (by simpa using fun heq => ha heq.symm)]
        rfl

theorem get_foldl_eq_some
    (h : ∀ s a k, g (upd s a) k = if k = key a then some (val a) else g s k) {l : List α}
    (hl : (l.map key).Nodup) {s : σ} {k : κ} (hs : g s k = none) {v : β} :
    g (l.foldl upd s) k = some v ↔ ∃ a ∈ l, key a = k ∧ val a = v := by
  rw [get_foldl h, hs, Option.or_none, Option.map_eq_some_iff]
  constructor
  · rintro ⟨a, ha, rfl⟩
    have hkey := List.find?_some ha
    exact ⟨a, List.mem_reverse.1 (List.mem_of_find?_eq_some ha), of_decide_eq_true hkey, rfl⟩
  · rintro ⟨a, ha, rfl, rfl⟩
    cases hfind : l.reverse.find? fun b => decide (key b = key a) with
    | none =>
      have hno := List.find?_eq_none.1 hfind a (List.mem_reverse.2 ha)
      exact absurd (decide_eq_true rfl) hno
    | some b =>
      refine ⟨b, rfl, ?_⟩
      have hb := List.mem_reverse.1 (List.mem_of_find?_eq_some hfind)
      have hkey := List.find?_some hfind
      have hkey : key b = key a := of_decide_eq_true hkey
      rw [List.inj_on_of_nodup_map hl hb ha hkey]

end Updates

end Eular.Lib
