/-
The LRU cache against its meaning.

`Rep c cells` says that the entries of `c` are `cells`, linked in this order
and each once in the hash set. A call takes it to the cells the order of use
asks for; the one exception is a `put` of a key that is there while the
cache is full. It makes room before it looks for the key, and so throws the
oldest entry out for nothing, or forgets that the key was there.
-/
import Eular.Utils.LruCache

namespace Eular.Utils

open Lib

/-- In a list without two entries of one key, the one of a key is found, and
the others are left without it. -/
theorem Lru.find_split {K V : Type} [DecidableEq K] {xs ys : List (K × V)} {key : K} {v : V}
    (hkeys : ((xs ++ (key, v) :: ys).map Prod.fst).Nodup) :
    (xs ++ (key, v) :: ys).find? (fun e => e.1 = key) = some (key, v)
      ∧ (xs ++ (key, v) :: ys).filter (fun e => e.1 ≠ key) = xs ++ ys := by
  rw [List.map_append, List.map_cons, List.nodup_middle, List.nodup_cons, List.mem_append, not_or]
    at hkeys
  have hbefore : ∀ e ∈ xs, e.1 ≠ key := fun e he heq =>
    hkeys.1.1 (List.mem_map.mpr ⟨e, he, heq⟩)
  have hafter : ∀ e ∈ ys, e.1 ≠ key := fun e he heq =>
    hkeys.1.2 (List.mem_map.mpr ⟨e, he, heq⟩)
  constructor
  · rw [List.find?_append, List.find?_eq_none.mpr fun e he => by simpa using hbefore e he]
    simp
  · rw [List.filter_append, List.filter_cons_of_neg (by simp)]
    rw [List.filter_eq_self.mpr fun e he => by simpa using hbefore e he]
    rw [List.filter_eq_self.mpr fun e he => by simpa using hafter e he]

namespace LruCache

variable {K V : Type} {c : LruCache K V} {cells xs ys : List (Nat × (K × V))} {a : Nat} {x : K × V}

-- ==== the list

structure Linked (c : LruCache K V) (cells : List (Nat × (K × V))) : Prop where
  seg : Seg c.heap none cells none
  oldest : c.mOldest = firstOf none cells
  youngest : c.mYoungest = lastOf none cells
  nodup : (cells.map Prod.fst).Nodup

/-- What the list functions leave alone. -/
def rest (c : LruCache K V) := (c.free, c.mSet, c.mListener, c.mMaxCapacity, c.notified)

/-- The neighbour before an entry, or the head of the list, is told what
comes after it. -/
def skipChild (c : LruCache K V) (parent child : Option Nat) : LruCache K V :=
  match parent with
  | some parent => c.setChild parent child
  | none => { c with mOldest := child }

/-- The neighbour after it, or the tail, is told what came before. -/
def skipParent (c : LruCache K V) (parent child : Option Nat) : LruCache K V :=
  match child with
  | some child => c.setParent child parent
  | none => { c with mYoungest := parent }

theorem detachFromCache_eq {e : Node (K × V)} (he : c.heap a = some e) :
    c.detachFromCache a
      = ((c.skipChild e.parent e.child).skipParent e.parent e.child).setLinks a none none := by
  unfold detachFromCache
  rw [he]
  rfl

theorem skipChild_spec (hnodup : ((xs ++ (a, x) :: ys).map Prod.fst).Nodup)
    (hxs : Seg c.heap none xs (some a)) (hys : Seg c.heap (some a) ys none)
    (holdest : c.mOldest = firstOf none (xs ++ (a, x) :: ys)) :
    Seg (c.skipChild (lastOf none xs) (firstOf none ys)).heap none xs (firstOf none ys)
      ∧ Seg (c.skipChild (lastOf none xs) (firstOf none ys)).heap (some a) ys none
      ∧ (c.skipChild (lastOf none xs) (firstOf none ys)).mOldest = firstOf none (xs ++ ys)
      ∧ (c.skipChild (lastOf none xs) (firstOf none ys)).mYoungest = c.mYoungest
      ∧ (c.skipChild (lastOf none xs) (firstOf none ys)).rest = c.rest
      ∧ ∀ b, b ∉ xs.map Prod.fst →
          (c.skipChild (lastOf none xs) (firstOf none ys)).heap b = c.heap b := by
  rcases List.eq_nil_or_concat xs with rfl | ⟨before, last, rfl⟩
  · exact ⟨trivial, hys, rfl, rfl, rfl, fun b _ => rfl⟩
  · rw [List.concat_eq_append] at *
    have hlast : lastOf none (before ++ [last]) = some last.1 := lastOf_append
    rw [hlast]
    rw [List.map_append, List.map_append, List.nodup_append, List.nodup_append] at hnodup
    obtain ⟨⟨-, -, hbefore⟩, -, hafter⟩ := hnodup
    have hnot : last.1 ∉ before.map Prod.fst := fun hmem =>
      hbefore _ hmem _ (by simp) rfl
    have hnot' : last.1 ∉ ys.map Prod.fst := fun hmem =>
      hafter last.1 (by simp) last.1 (List.mem_cons_of_mem _ hmem) rfl
    refine ⟨hxs.setChild hnot _, hys.frame fun b hb => ?_, ?_, rfl, rfl, fun b hb => ?_⟩
    · exact NodeHeap.modify_of_ne _ (ne_of_mem_of_not_mem hb hnot') _
    · show c.mOldest = _
      rw [holdest]
      cases before <;> rfl
    · exact NodeHeap.modify_of_ne _ (fun heq => hb (by simp [heq])) _

theorem skipParent_spec (hnodup : ((xs ++ (a, x) :: ys).map Prod.fst).Nodup)
    (hxs : Seg c.heap none xs (firstOf none ys)) (hys : Seg c.heap (some a) ys none)
    (hyoungest : c.mYoungest = lastOf none (xs ++ (a, x) :: ys)) :
    Seg (c.skipParent (lastOf none xs) (firstOf none ys)).heap none xs (firstOf none ys)
      ∧ Seg (c.skipParent (lastOf none xs) (firstOf none ys)).heap (lastOf none xs) ys none
      ∧ (c.skipParent (lastOf none xs) (firstOf none ys)).mYoungest = lastOf none (xs ++ ys)
      ∧ (c.skipParent (lastOf none xs) (firstOf none ys)).mOldest = c.mOldest
      ∧ (c.skipParent (lastOf none xs) (firstOf none ys)).rest = c.rest
      ∧ ∀ b, b ∉ ys.map Prod.fst →
          (c.skipParent (lastOf none xs) (firstOf none ys)).heap b = c.heap b := by
  cases ys with
  | nil =>
    refine ⟨hxs, trivial, ?_, rfl, rfl, fun b _ => rfl⟩
    rw [List.append_nil]
    rfl
  | cons first after =>
    rw [List.map_append, List.map_cons, List.nodup_append, List.nodup_cons] at hnodup
    obtain ⟨-, ⟨-, hafter⟩, hbefore⟩ := hnodup
    have hnot : first.1 ∉ after.map Prod.fst := (List.nodup_cons.mp hafter).1
    have hnot' : first.1 ∉ xs.map Prod.fst := fun hmem =>
      hbefore first.1 hmem first.1 (by simp) rfl
    refine ⟨hxs.frame fun b hb => ?_, hys.setParent hnot _, ?_, rfl, rfl, fun b hb => ?_⟩
    · exact NodeHeap.modify_of_ne _ (ne_of_mem_of_not_mem hb hnot') _
    · show c.mYoungest = _
      rw [hyoungest, lastOf_append, lastOf_append]
      rfl
    · exact NodeHeap.modify_of_ne _ (fun heq => hb (by simp [heq])) _

theorem detachFromCache_spec (hlinked : c.Linked (xs ++ (a, x) :: ys)) :
    (c.detachFromCache a).Linked (xs ++ ys)
      ∧ (c.detachFromCache a).heap a = some ⟨x, none, none⟩
      ∧ (c.detachFromCache a).rest = c.rest
      ∧ ∀ b, b ∉ (xs ++ (a, x) :: ys).map Prod.fst → (c.detachFromCache a).heap b = c.heap b := by
  have hnodup := hlinked.nodup
  obtain ⟨hxs, hthis, hys⟩ := seg_append.mp hlinked.seg
  obtain ⟨hxs1, hys1, holdest1, hyoungest1, hrest1, hframe1⟩ :=
    skipChild_spec hnodup hxs hys hlinked.oldest
  obtain ⟨hxs2, hys2, hyoungest2, holdest2, hrest2, hframe2⟩ :=
    skipParent_spec hnodup hxs1 hys1 (hyoungest1.trans hlinked.youngest)
  rw [detachFromCache_eq hthis]
  rw [List.map_append, List.map_cons, List.nodup_middle] at hnodup
  obtain ⟨hnot, hleft⟩ := List.nodup_cons.mp hnodup
  have hnotx : a ∉ xs.map Prod.fst := fun hmem => hnot (List.mem_append_left _ hmem)
  have hnoty : a ∉ ys.map Prod.fst := fun hmem => hnot (List.mem_append_right _ hmem)
  refine ⟨⟨?_, holdest2.trans holdest1, hyoungest2, by rwa [List.map_append]⟩, ?_,
    hrest2.trans hrest1, fun b hb => ?_⟩
  · refine (seg_append.mpr ⟨hxs2, hys2⟩).frame fun b hb => ?_
    rw [List.map_append] at hb
    exact NodeHeap.modify_of_ne _ (ne_of_mem_of_not_mem hb hnot) _
  · refine (NodeHeap.modify_self _ _ _).trans ?_
    rw [hframe2 a hnoty, hframe1 a hnotx, hthis]
    rfl
  · rw [List.map_append, List.map_cons, List.mem_append, List.mem_cons, not_or, not_or] at hb
    refine (NodeHeap.modify_of_ne _ hb.2.1 _).trans ?_
    rw [hframe2 b hb.2.2, hframe1 b hb.1]

theorem attachToCache_spec {e : Node (K × V)} (hlinked : c.Linked cells)
    (hnew : a ∉ cells.map Prod.fst) (he : c.heap a = some e) :
    (c.attachToCache a).Linked (cells ++ [(a, e.data)])
      ∧ (c.attachToCache a).rest = c.rest
      ∧ ∀ b, b ∉ cells.map Prod.fst → b ≠ a → (c.attachToCache a).heap b = c.heap b := by
  have hnodup : ((cells ++ [(a, e.data)]).map Prod.fst).Nodup := by
    rw [List.map_append]
    refine List.nodup_append.mpr ⟨hlinked.nodup, List.nodup_singleton _, fun b hb d hd => ?_⟩
    rw [List.mem_singleton.mp hd]
    exact ne_of_mem_of_not_mem hb hnew
  unfold attachToCache
  rcases List.eq_nil_or_concat cells with rfl | ⟨before, last, rfl⟩
  · have hyoungest : (c.setLinks a none none).mYoungest = none := hlinked.youngest
    dsimp only
    rw [hyoungest]
    refine ⟨⟨⟨?_, trivial⟩, rfl, rfl, hnodup⟩, rfl, fun b _ hne => NodeHeap.modify_of_ne _ hne _⟩
    refine (NodeHeap.modify_self _ _ _).trans ?_
    rw [he]
    rfl
  · rw [List.concat_eq_append] at *
    have hlast : lastOf none (before ++ [last]) = some last.1 := lastOf_append
    have hyoungest : (c.setLinks a none none).mYoungest = some last.1 :=
      hlinked.youngest.trans hlast
    dsimp only
    rw [hyoungest]
    have hne : last.1 ≠ a := fun heq => hnew (by simp [← heq])
    have hnot : last.1 ∉ before.map Prod.fst := by
      have hall := hlinked.nodup
      rw [List.map_append, List.nodup_append] at hall
      exact fun hmem => hall.2.2 last.1 hmem last.1 (by simp) rfl
    -- the two writes at `a` leave the list alone
    have hsame : ∀ b, b ≠ a →
        ((c.setLinks a none none).setParent a (some last.1)).heap b = c.heap b := fun b hb =>
      (NodeHeap.modify_of_ne _ hb _).trans (NodeHeap.modify_of_ne _ hb _)
    have hold : Seg ((c.setLinks a none none).setParent a (some last.1)).heap none
        (before ++ [last])
        none := hlinked.seg.frame fun b hb => hsame b (ne_of_mem_of_not_mem hb hnew)
    refine ⟨⟨?_, ?_, ?_, hnodup⟩, rfl, fun b hb hba => ?_⟩
    · refine seg_append.mpr ⟨hold.setChild hnot _, ?_, trivial⟩
      rw [hlast]
      refine (NodeHeap.modify_of_ne _ hne.symm _).trans ?_
      refine (NodeHeap.modify_self _ _ _).trans ?_
      have hbare : (c.setLinks a none none).heap a = some ⟨e.data, none, none⟩ :=
        (NodeHeap.modify_self _ _ _).trans (by rw [he]; rfl)
      rw [hbare]
      rfl
    · show c.mOldest = _
      rw [hlinked.oldest]
      cases before <;> rfl
    · rw [lastOf_append]
      rfl
    · refine (NodeHeap.modify_of_ne _ (fun heq => hb (by simp [heq])) _).trans ?_
      exact hsame b hba

-- ==== the entries

/-- The entries of a cache: in the list and in the set once each, no two of
one key, and nothing else is allocated. -/
structure Rep (c : LruCache K V) (cells : List (Nat × (K × V))) : Prop extends Linked c cells where
  keys : (cells.map fun cell => cell.2.1).Nodup
  set : c.mSet.Perm (cells.map Prod.fst)
  fresh : ∀ a ∈ cells.map Prod.fst, a < c.free
  owned : ∀ a, a ∉ cells.map Prod.fst → c.heap a = none

theorem rep_empty (capacity : Nat) : Rep ({ mMaxCapacity := capacity } : LruCache K V) [] :=
  ⟨⟨trivial, rfl, rfl, List.nodup_nil⟩, List.nodup_nil, List.Perm.refl _,
    fun _ ha => absurd ha List.not_mem_nil, fun _ _ => rfl⟩

theorem Rep.size_eq (h : c.Rep cells) : c.size = cells.length := by
  rw [size, h.set.length_eq, List.length_map]

variable [DecidableEq K] {key : K}

theorem Rep.any_iff (h : c.Rep cells) (ha : a ∈ c.mSet) :
    ((c.heap a).any fun e => e.data.1 = key) = true ↔ ∃ v, (a, (key, v)) ∈ cells := by
  obtain ⟨cell, hcell, rfl⟩ := List.mem_map.mp (h.set.mem_iff.mp ha)
  obtain ⟨parent, child, hget⟩ := h.seg.get cell hcell
  rw [hget]
  constructor
  · intro hkey
    have hkey : cell.2.1 = key := by simpa using hkey
    exact ⟨cell.2.2, by rw [← hkey]; exact hcell⟩
  · rintro ⟨v, hmem⟩
    -- the address names one cell
    have hsame : cell = (cell.1, (key, v)) := by
      refine List.inj_on_of_nodup_map h.nodup hcell hmem rfl
    rw [hsame]
    simp

theorem Rep.findByKey_some (h : c.Rep cells) (hfind : c.findByKey key = some a) :
    ∃ xs v ys, cells = xs ++ (a, (key, v)) :: ys := by
  have ha := List.mem_of_find?_eq_some hfind
  obtain ⟨v, hmem⟩ := (h.any_iff ha).mp (by simpa using List.find?_some hfind)
  obtain ⟨xs, ys, rfl⟩ := List.append_of_mem hmem
  exact ⟨xs, v, ys, rfl⟩

theorem Rep.findByKey_none (h : c.Rep cells) (hfind : c.findByKey key = none) :
    key ∉ cells.map fun cell => cell.2.1 := by
  intro hmem
  obtain ⟨cell, hcell, hkey⟩ := List.mem_map.mp hmem
  have ha : cell.1 ∈ c.mSet := h.set.mem_iff.mpr (List.mem_map_of_mem hcell)
  have hnot := List.find?_eq_none.mp hfind cell.1 ha
  exact hnot (by simpa using (h.any_iff ha).mpr ⟨cell.2.2, by rw [← hkey]; exact hcell⟩)

variable {v : V}

/-- The key of the cell `a` is found there. -/
theorem Rep.findByKey_eq (h : c.Rep (xs ++ (a, (key, v)) :: ys)) :
    c.findByKey key = some a := by
  cases hfind : c.findByKey key with
  | none => exact absurd (by simp) (h.findByKey_none hfind)
  | some b =>
    obtain ⟨xs', v', ys', heq⟩ := h.findByKey_some hfind
    have hmem : (a, (key, v)) ∈ xs ++ (a, (key, v)) :: ys := by simp
    have hmem' : (b, (key, v')) ∈ xs ++ (a, (key, v)) :: ys := by rw [heq]; simp
    have hsame := List.inj_on_of_nodup_map h.keys hmem hmem' rfl
    exact congrArg some (congrArg Prod.fst hsame).symm

-- ==== each call

/-- `get` puts the entry behind the others. -/
theorem Rep.get (h : c.Rep (xs ++ (a, (key, v)) :: ys)) :
    (c.get key).1.Rep (xs ++ ys ++ [(a, (key, v))]) ∧ (c.get key).2 = some v
      ∧ (c.get key).1.rest = c.rest := by
  obtain ⟨hlinked, hthis, hrest, hframe⟩ := detachFromCache_spec h.toLinked
  have hnodup := h.nodup
  rw [List.map_append, List.map_cons, List.nodup_middle, List.nodup_cons,
    ← List.map_append] at hnodup
  obtain ⟨hlinked', hrest', hframe'⟩ := attachToCache_spec hlinked hnodup.1 hthis
  have hperm : (xs ++ ys ++ [(a, (key, v))]).Perm (xs ++ (a, (key, v)) :: ys) :=
    (List.perm_append_singleton _ _).trans List.perm_middle.symm
  have hrest := hrest'.trans hrest
  unfold LruCache.get
  rw [h.findByKey_eq]
  dsimp only
  have hparts := hrest
  simp only [rest, Prod.mk.injEq] at hparts
  obtain ⟨hfree, hset, -, -, -⟩ := hparts
  refine ⟨⟨hlinked', (hperm.map _).nodup_iff.mpr h.keys, ?_, ?_, ?_⟩, ?_, hrest⟩
  · rw [hset]
    exact h.set.trans (hperm.map _).symm
  · intro b hb
    rw [hfree]
    exact h.fresh b ((hperm.map _).mem_iff.mp hb)
  · intro b hb
    have hold := fun hmem => hb ((hperm.map Prod.fst).mem_iff.mpr hmem)
    rw [List.map_append, List.mem_append, not_or] at hb
    rw [hframe' b hb.1 (by simpa using hb.2), hframe b hold, h.owned b hold]
  · obtain ⟨parent, child, hget⟩ := hlinked'.seg.get (a, (key, v)) (by simp)
    rw [hget]
    rfl

theorem get_absent (h : c.findByKey key = none) : c.get key = (c, none) := by
  rw [LruCache.get, h]

theorem Rep.remove (h : c.Rep (xs ++ (a, (key, v)) :: ys)) :
    (c.remove key).1.Rep (xs ++ ys) ∧ (c.remove key).2 = true
      ∧ (c.remove key).1.mListener = c.mListener ∧ (c.remove key).1.mMaxCapacity = c.mMaxCapacity
      ∧ (c.remove key).1.notified
          = if c.mListener then c.notified ++ [(key, v)] else c.notified := by
  obtain ⟨parent, child, hget⟩ := h.seg.get (a, (key, v)) (by simp)
  -- the set and the listener have no part in the list
  have hlinked : (({ c with mSet := c.mSet.erase a } : LruCache K V).notify (key, v)).Linked
      (xs ++ (a, (key, v)) :: ys) := by
    unfold notify
    split <;> exact ⟨h.seg, h.oldest, h.youngest, h.nodup⟩
  have hheap : (({ c with mSet := c.mSet.erase a } : LruCache K V).notify (key, v)).heap
      = c.heap := by
    unfold notify
    split <;> rfl
  obtain ⟨hleft, -, hrest, hframe⟩ := detachFromCache_spec hlinked
  have hnodup := h.nodup
  have hkeys := h.keys
  have hset := h.set
  rw [List.map_append, List.map_cons, List.nodup_middle, List.nodup_cons,
    ← List.map_append] at hnodup
  rw [List.map_append, List.map_cons, List.nodup_middle, List.nodup_cons,
    ← List.map_append] at hkeys
  rw [List.map_append, List.map_cons] at hset
  have hperm := (hset.trans List.perm_middle).erase a
  rw [List.erase_cons_head, ← List.map_append] at hperm
  simp only [rest, Prod.mk.injEq] at hrest
  obtain ⟨hfree, hmset, hlistener, hcapacity, hnotified⟩ := hrest
  have hother : ∀ b ∈ (xs ++ ys).map Prod.fst, b ∈ (xs ++ (a, (key, v)) :: ys).map Prod.fst := by
    intro b hb
    rw [List.map_append, List.map_cons, List.mem_append, List.mem_cons]
    rw [List.map_append, List.mem_append] at hb
    tauto
  unfold LruCache.remove
  rw [h.findByKey_eq]
  dsimp only
  rw [hget]
  dsimp only
  refine ⟨⟨⟨?_, hleft.oldest, hleft.youngest, hleft.nodup⟩, hkeys.2, ?_, ?_, ?_⟩, rfl, ?_, ?_, ?_⟩
  · exact hleft.seg.frame fun b hb => Function.update_of_ne (ne_of_mem_of_not_mem hb hnodup.1) ..
  · show (LruCache.detachFromCache _ a).mSet.Perm _
    rw [hmset]
    unfold notify
    split <;> exact hperm
  · intro b hb
    show b < (LruCache.detachFromCache _ a).free
    rw [hfree]
    have hlt := h.fresh b (hother b hb)
    unfold notify
    split <;> exact hlt
  · intro b hb
    by_cases hba : b = a
    · rw [hba]
      exact Function.update_self ..
    · have hnot : b ∉ (xs ++ (a, (key, v)) :: ys).map Prod.fst := by
        rw [List.map_append, List.map_cons, List.mem_append, List.mem_cons]
        rw [List.map_append, List.mem_append] at hb
        tauto
      refine (Function.update_of_ne hba ..).trans ?_
      rw [hframe b hnot, hheap]
      exact h.owned b hnot
  · show (LruCache.detachFromCache _ a).mListener = _
    rw [hlistener]
    unfold notify
    split <;> rfl
  · show (LruCache.detachFromCache _ a).mMaxCapacity = _
    rw [hcapacity]
    unfold notify
    split <;> rfl
  · show (LruCache.detachFromCache _ a).notified = _
    rw [hnotified]
    unfold notify
    split <;> rfl

theorem remove_absent (h : c.findByKey key = none) : c.remove key = (c, false) := by
  rw [LruCache.remove, h]

theorem Rep.removeOldest_cons (h : c.Rep ((a, (key, v)) :: ys)) :
    c.removeOldest = c.remove key := by
  have hoi : c.mOldest = some a := h.oldest
  obtain ⟨parent, child, hget⟩ := h.seg.get (a, (key, v)) List.mem_cons_self
  unfold removeOldest
  rw [hoi, Option.bind_some, hget]

theorem Rep.removeOldest_nil (h : c.Rep []) : c.removeOldest = (c, false) := by
  have hoi : c.mOldest = none := h.oldest
  unfold removeOldest
  rw [hoi]
  rfl

omit [DecidableEq K] in
theorem Rep.add (h : c.Rep cells) (hnew : key ∉ cells.map fun cell => cell.2.1) (value : V) :
    (c.addEntry key value).Rep (cells ++ [(c.free, (key, value))])
      ∧ (c.addEntry key value).mListener = c.mListener
      ∧ (c.addEntry key value).mMaxCapacity = c.mMaxCapacity
      ∧ (c.addEntry key value).notified = c.notified := by
  have hfree : c.free ∉ cells.map Prod.fst := fun hmem => Nat.lt_irrefl _ (h.fresh _ hmem)
  have hlinked : ({ c with
      heap := Function.update c.heap c.free (some { data := (key, value) })
      free := c.free + 1
      mSet := c.free :: c.mSet } : LruCache K V).Linked cells :=
    ⟨h.seg.frame fun b hb => Function.update_of_ne (ne_of_mem_of_not_mem hb hfree) .., h.oldest,
      h.youngest, h.nodup⟩
  obtain ⟨hlinked', hrest, hframe⟩ := attachToCache_spec hlinked hfree (Function.update_self ..)
  simp only [rest, Prod.mk.injEq] at hrest
  obtain ⟨hnext, hset, hlistener, hcapacity, hnotified⟩ := hrest
  refine ⟨⟨hlinked', ?_, ?_, ?_, ?_⟩, hlistener, hcapacity, hnotified⟩
  · rw [List.map_append]
    refine List.nodup_append.mpr ⟨h.keys, List.nodup_singleton _, fun k hk k' hk' => ?_⟩
    rw [List.mem_singleton.mp hk']
    exact ne_of_mem_of_not_mem hk hnew
  · show (LruCache.attachToCache _ c.free).mSet.Perm _
    rw [hset, List.map_append]
    exact (h.set.cons _).trans (List.perm_append_singleton _ _).symm
  · intro b hb
    show b < (LruCache.attachToCache _ c.free).free
    rw [hnext]
    rw [List.map_append, List.mem_append] at hb
    rcases hb with hb | hb
    · exact Nat.lt_succ_of_lt (h.fresh b hb)
    · rw [List.mem_singleton.mp hb]
      exact Nat.lt_succ_self _
  · intro b hb
    rw [List.map_append, List.mem_append, not_or] at hb
    have hne : b ≠ c.free := by simpa using hb.2
    refine (hframe b hb.1 hne).trans ?_
    exact (Function.update_of_ne hne ..).trans (h.owned b hb.1)

omit [DecidableEq K] in
/-- The walk of `clear` meets every entry, the oldest first. -/
theorem walk_eq {h : NodeHeap (K × V)} (n : Nat) :
    ∀ {cells : List (Nat × (K × V))} {p : Option Nat},
    cells.length ≤ n → Seg h p cells none → walk h n (firstOf none cells) = cells.map Prod.snd := by
  induction n with
  | zero =>
    intro cells p hlen _
    rw [List.eq_nil_of_length_eq_zero (Nat.le_zero.mp hlen)]
    rfl
  | succ n ih =>
    intro cells p hlen hseg
    cases cells with
    | nil => rfl
    | cons cell rest =>
      have hrest := ih (Nat.le_of_succ_le_succ hlen) hseg.2
      have hhead : h cell.1 = some ⟨cell.2, p, firstOf none rest⟩ := hseg.1
      show walk h (n + 1) (some cell.1) = _
      rw [walk, hhead]
      dsimp only
      rw [hrest, List.map_cons]

omit [DecidableEq K] in
theorem Rep.clear (h : c.Rep cells) :
    c.clear.Rep [] ∧ c.clear.mListener = c.mListener ∧ c.clear.mMaxCapacity = c.mMaxCapacity
      ∧ c.clear.notified
          = if c.mListener then c.notified ++ cells.map Prod.snd else c.notified := by
  have hlen : cells.length ≤ c.mSet.length := by
    rw [h.set.length_eq, List.length_map]
  have hwalk : walk c.heap c.mSet.length c.mOldest = cells.map Prod.snd := by
    rw [h.oldest]
    exact walk_eq _ hlen h.seg
  have howned : ∀ b, (if b ∈ c.mSet then none else c.heap b) = none := by
    intro b
    split
    case isTrue => rfl
    case isFalse hb => exact h.owned b fun hmem => hb (h.set.mem_iff.mpr hmem)
  unfold LruCache.clear
  rw [hwalk]
  split
  · exact ⟨⟨⟨trivial, rfl, rfl, List.nodup_nil⟩, List.nodup_nil, List.Perm.refl _,
      fun _ hb => absurd hb List.not_mem_nil, fun b _ => howned b⟩, rfl, rfl, rfl⟩
  · exact ⟨⟨⟨trivial, rfl, rfl, List.nodup_nil⟩, List.nodup_nil, List.Perm.refl _,
      fun _ hb => absurd hb List.not_mem_nil, fun b _ => howned b⟩, rfl, rfl, rfl⟩

-- ==== the meaning

/-- The cache `c` means `m`. -/
def Shows (c : LruCache K V) (m : Lru K V) : Prop :=
  ∃ cells, c.Rep cells ∧ m.entries = cells.map Prod.snd ∧ m.capacity = c.mMaxCapacity
    ∧ m.listener = c.mListener ∧ m.notified = c.notified

variable {m : Lru K V}

theorem find_of_entries (h : c.Rep (xs ++ (a, (key, v)) :: ys))
    (hm : m.entries = (xs ++ (a, (key, v)) :: ys).map Prod.snd) :
    m.find key = some (key, v) ∧ m.entries.filter (·.1 ≠ key) = (xs ++ ys).map Prod.snd := by
  have hkeys : (((xs ++ (a, (key, v)) :: ys).map Prod.snd).map Prod.fst).Nodup := by
    rw [List.map_map]
    exact h.keys
  rw [Lru.find, hm, List.map_append, List.map_cons, List.map_append]
  rw [List.map_append, List.map_cons] at hkeys
  exact Lru.find_split hkeys

theorem find_none (h : c.Rep cells) (hm : m.entries = cells.map Prod.snd)
    (hfind : c.findByKey key = none) : m.find key = none := by
  refine List.find?_eq_none.mpr fun e he => ?_
  rw [hm] at he
  obtain ⟨cell, hcell, rfl⟩ := List.mem_map.mp he
  have hnot := h.findByKey_none hfind
  simpa using fun heq => hnot (List.mem_map.mpr ⟨cell, hcell, heq⟩)

/-- A `put` finds the key or finds room. -/
def Roomy (c : LruCache K V) : CacheOp K V → Prop
  | .put key _ => c.findByKey key = none ∨ ¬ (c.mMaxCapacity ≠ 0 ∧ c.mMaxCapacity ≤ c.size)
  | _ => True

/-- The code answers what the meaning does, and leaves what it leaves. -/
def Agrees (c : LruCache K V) (m : Lru K V) (op : CacheOp K V) : Prop :=
  (c.call op).2 = (m.call op).2 ∧ Shows (c.call op).1 (m.call op).1

theorem shows_remove (h : Shows c m) (key : K) :
    (c.remove key).2 = (m.remove key).2 ∧ Shows (c.remove key).1 (m.remove key).1 := by
  obtain ⟨cells, hrep, hentries, hcapacity, hlistener, hnotified⟩ := h
  unfold Lru.remove
  cases hfind : c.findByKey key with
  | none =>
    rw [remove_absent hfind, find_none hrep hentries hfind]
    exact ⟨rfl, cells, hrep, hentries, hcapacity, hlistener, hnotified⟩
  | some a =>
    obtain ⟨xs, v, ys, rfl⟩ := hrep.findByKey_some hfind
    obtain ⟨hfound, hleft⟩ := find_of_entries hrep hentries
    obtain ⟨hrep', hflag, hlistener', hcapacity', hnotified'⟩ := hrep.remove
    rw [hfound, hflag]
    refine ⟨rfl, xs ++ ys, hrep', hleft, hcapacity.trans hcapacity'.symm,
      hlistener.trans hlistener'.symm, ?_⟩
    show (if m.listener then m.notified ++ [(key, v)] else m.notified) = _
    rw [hnotified', hlistener, hnotified]

theorem shows_get (h : Shows c m) (key : K) :
    (c.get key).2 = (m.get key).2 ∧ Shows (c.get key).1 (m.get key).1 := by
  obtain ⟨cells, hrep, hentries, hcapacity, hlistener, hnotified⟩ := h
  unfold Lru.get
  cases hfind : c.findByKey key with
  | none =>
    rw [get_absent hfind, find_none hrep hentries hfind]
    exact ⟨rfl, cells, hrep, hentries, hcapacity, hlistener, hnotified⟩
  | some a =>
    obtain ⟨xs, v, ys, rfl⟩ := hrep.findByKey_some hfind
    obtain ⟨hfound, hleft⟩ := find_of_entries hrep hentries
    obtain ⟨hrep', hvalue, hrest⟩ := hrep.get
    simp only [rest, Prod.mk.injEq] at hrest
    obtain ⟨-, -, hlistener', hcapacity', hnotified'⟩ := hrest
    rw [hfound, hvalue]
    refine ⟨rfl, _, hrep', ?_, hcapacity.trans hcapacity'.symm, hlistener.trans hlistener'.symm,
      hnotified.trans hnotified'.symm⟩
    show m.entries.filter (·.1 ≠ key) ++ [(key, v)] = _
    rw [hleft, List.map_append, List.map_append, List.map_append]
    rfl

theorem shows_removeOldest (h : Shows c m) :
    c.removeOldest.2 = m.removeOldest.2 ∧ Shows c.removeOldest.1 m.removeOldest.1 := by
  obtain ⟨cells, hrep, hentries, hcapacity, hlistener, hnotified⟩ := h
  unfold Lru.removeOldest
  cases cells with
  | nil =>
    rw [hrep.removeOldest_nil, hentries]
    exact ⟨rfl, [], hrep, hentries, hcapacity, hlistener, hnotified⟩
  | cons cell rest =>
    obtain ⟨a, key, v⟩ := cell
    obtain ⟨hrep', hflag, hlistener', hcapacity', hnotified'⟩ :=
      Rep.remove (show c.Rep ([] ++ (a, (key, v)) :: rest) from hrep)
    rw [hrep.removeOldest_cons, hflag, hentries]
    refine ⟨rfl, rest, hrep', rfl, hcapacity.trans hcapacity'.symm,
      hlistener.trans hlistener'.symm, ?_⟩
    show (if m.listener then m.notified ++ [(key, v)] else m.notified) = _
    rw [hnotified', hlistener, hnotified]

omit [DecidableEq K] in
theorem peekOldestValue_eq (h : Shows c m) : c.peekOldestValue = m.peekOldestValue := by
  obtain ⟨cells, hrep, hentries, -⟩ := h
  have hoi := hrep.oldest
  unfold peekOldestValue Lru.peekOldestValue
  rw [hentries]
  cases cells with
  | nil =>
    rw [hoi]
    rfl
  | cons cell rest =>
    obtain ⟨parent, child, hget⟩ := hrep.seg.get cell List.mem_cons_self
    rw [hoi]
    show ((c.heap cell.1).map (·.data.2)) = _
    rw [hget]
    rfl

omit [DecidableEq K] in
theorem shows_clear (h : Shows c m) : Shows c.clear (m.evict m.entries []) := by
  obtain ⟨cells, hrep, hentries, hcapacity, hlistener, hnotified⟩ := h
  obtain ⟨hrep', hlistener', hcapacity', hnotified'⟩ := hrep.clear
  refine ⟨[], hrep', rfl, hcapacity.trans hcapacity'.symm, hlistener.trans hlistener'.symm, ?_⟩
  show (if m.listener then m.notified ++ m.entries else m.notified) = _
  rw [hnotified', hlistener, hnotified, hentries]

omit [DecidableEq K] in
theorem isFull_iff (h : Shows c m) : m.isFull ↔ c.mMaxCapacity ≠ 0 ∧ c.mMaxCapacity ≤ c.size := by
  obtain ⟨cells, hrep, hentries, hcapacity, -⟩ := h
  unfold Lru.isFull
  rw [hcapacity, hrep.size_eq, hentries, List.length_map]

theorem shows_makeRoom (h : Shows c m) :
    Shows c.makeRoom (if m.isFull then m.evict (m.entries.take 1) (m.entries.drop 1) else m) := by
  unfold makeRoom
  by_cases hfull : m.isFull
  · rw [if_pos hfull, if_pos ((isFull_iff h).mp hfull)]
    obtain ⟨-, hshows⟩ := shows_removeOldest h
    unfold Lru.removeOldest at hshows
    cases hentries : m.entries with
    | nil =>
      rw [hentries] at hshows
      obtain ⟨hcapacity, hlen⟩ := hfull
      rw [hentries] at hlen
      exact absurd (Nat.le_zero.mp hlen) hcapacity
    | cons e rest =>
      rw [hentries] at hshows
      exact hshows
  · rw [if_neg hfull, if_neg fun hc => hfull ((isFull_iff h).mpr hc)]
    exact h

theorem shows_add {value : V} (h : Shows c m) (hnew : c.findByKey key = none) :
    Shows (c.addEntry key value) { m with entries := m.entries ++ [(key, value)] } := by
  obtain ⟨cells, hrep, hentries, hcapacity, hlistener, hnotified⟩ := h
  obtain ⟨hrep', hlistener', hcapacity', hnotified'⟩ := hrep.add (hrep.findByKey_none hnew) value
  refine ⟨_, hrep', ?_, hcapacity.trans hcapacity'.symm, hlistener.trans hlistener'.symm,
    hnotified.trans hnotified'.symm⟩
  rw [List.map_append, ← hentries]
  rfl

theorem findByKey_makeRoom (h : Shows c m) (hnew : c.findByKey key = none) :
    c.makeRoom.findByKey key = none := by
  obtain ⟨cells, hrep, -⟩ := h
  unfold makeRoom
  split
  case isFalse => exact hnew
  case isTrue =>
    cases cells with
    | nil =>
      rw [hrep.removeOldest_nil]
      exact hnew
    | cons cell rest =>
      obtain ⟨a, key', v⟩ := cell
      have hleft := (Rep.remove (show c.Rep ([] ++ (a, (key', v)) :: rest) from hrep)).1
      rw [hrep.removeOldest_cons]
      cases hfind : (c.remove key').1.findByKey key with
      | none => rfl
      | some b =>
        obtain ⟨xs, v', ys, heq⟩ := hleft.findByKey_some hfind
        have hnot := hrep.findByKey_none hnew
        rw [List.nil_append] at heq
        rw [heq] at hnot
        exact absurd (by simp) hnot

theorem shows_put (h : Shows c m) (value : V) (hroomy : Roomy c (.put key value)) :
    (c.put key value).2 = (m.put key value).2 ∧ Shows (c.put key value).1 (m.put key value).1 := by
  have hroom := shows_makeRoom h
  unfold LruCache.put Lru.put
  dsimp only
  cases hfind : c.findByKey key with
  | none =>
    have hmissing : m.find key = none := by
      obtain ⟨cells, hrep, hentries, -⟩ := h
      exact find_none hrep hentries hfind
    have hfind' := findByKey_makeRoom h hfind
    rw [hfind', hmissing]
    exact ⟨rfl, shows_add hroom hfind'⟩
  | some a =>
    have hnotfull : ¬ (c.mMaxCapacity ≠ 0 ∧ c.mMaxCapacity ≤ c.size) :=
      hroomy.resolve_left fun hnone => by rw [hfind] at hnone; cases hnone
    have hsame : c.makeRoom = c := if_neg hnotfull
    rw [hsame, hfind]
    have hshows := h
    obtain ⟨cells, hrep, hentries, -⟩ := h
    obtain ⟨xs, v, ys, rfl⟩ := hrep.findByKey_some hfind
    rw [(find_of_entries hrep hentries).1]
    exact ⟨rfl, hshows⟩

theorem agrees_of_roomy (h : Shows c m) (op : CacheOp K V) (hroomy : Roomy c op) :
    Agrees c m op := by
  cases op with
  | put key value =>
    obtain ⟨hflag, hshows⟩ := shows_put h value hroomy
    exact ⟨congrArg CacheAnswer.flag hflag, hshows⟩
  | get key =>
    obtain ⟨hvalue, hshows⟩ := shows_get h key
    exact ⟨congrArg CacheAnswer.value hvalue, hshows⟩
  | remove key =>
    obtain ⟨hflag, hshows⟩ := shows_remove h key
    exact ⟨congrArg CacheAnswer.flag hflag, hshows⟩
  | removeOldest =>
    obtain ⟨hflag, hshows⟩ := shows_removeOldest h
    exact ⟨congrArg CacheAnswer.flag hflag, hshows⟩
  | peekOldestValue => exact ⟨congrArg CacheAnswer.value (peekOldestValue_eq h), h⟩
  | size =>
    refine ⟨congrArg CacheAnswer.count ?_, h⟩
    obtain ⟨cells, hrep, hentries, -⟩ := h
    rw [hrep.size_eq, hentries, List.length_map]
  | clear => exact ⟨rfl, shows_clear h⟩
  | setOnEntryRemovedListener listener =>
    obtain ⟨cells, hrep, hentries, hcapacity, -, hnotified⟩ := h
    refine ⟨rfl, cells, ?_, hentries, hcapacity, rfl, hnotified⟩
    exact ⟨⟨hrep.seg, hrep.oldest, hrep.youngest, hrep.nodup⟩, hrep.keys, hrep.set, hrep.fresh,
      hrep.owned⟩

/-- A `put` of a key that is there, while the cache is full, goes wrong. -/
theorem roomy_of_agrees (h : Shows c m) (op : CacheOp K V) (hagrees : Agrees c m op) :
    Roomy c op := by
  cases op with
  | put key value =>
    by_contra hnot
    simp only [Roomy, not_or, not_not] at hnot
    obtain ⟨hpresent, hfull⟩ := hnot
    obtain ⟨hflag, hshows⟩ := hagrees
    obtain ⟨cells, hrep, hentries, -⟩ := h
    cases hfind : c.findByKey key with
    | none => exact hpresent hfind
    | some a =>
      obtain ⟨xs, v, ys, hcells⟩ := hrep.findByKey_some hfind
      have hfound : m.find key = some (key, v) :=
        (find_of_entries (hcells ▸ hrep) (hcells ▸ hentries)).1
      have hmeaning : m.put key value = (m, false) := by rw [Lru.put, hfound]
      have hroom : c.makeRoom = c.removeOldest.1 := if_pos hfull
      simp only [call, Lru.call, hmeaning] at hflag hshows
      obtain ⟨cells', hrep', hentries', -⟩ := hshows
      have hlen : cells'.length = cells.length := by
        rw [← List.length_map (f := Prod.snd), ← hentries', hentries, List.length_map]
      rw [LruCache.put, hroom] at hflag hrep'
      cases cells with
      | nil => cases xs <;> cases hcells
      | cons cell left =>
        obtain ⟨b, key', v'⟩ := cell
        obtain ⟨hleft, -⟩ := Rep.remove (show c.Rep ([] ++ (b, (key', v')) :: left) from hrep)
        rw [hrep.removeOldest_cons] at hflag hrep'
        -- the key is gone with the oldest entry, or an entry is lost
        cases hagain : (c.remove key').1.findByKey key with
        | none =>
          rw [hagain] at hflag
          cases hflag
        | some d =>
          rw [hagain] at hrep'
          have hsize := hrep'.size_eq.symm.trans hleft.size_eq
          rw [List.nil_append] at hsize
          rw [List.length_cons] at hlen
          omega
  | _ => trivial

end LruCache

-- ==== runs

namespace Lru

variable {K V : Type} [DecidableEq K] {m : Lru K V}

def added (m : Lru K V) : CacheOp K V → List (K × V)
  | .put key value => if (m.find key).isNone then [(key, value)] else []
  | _ => []

/-- No key is there twice, and there are no more entries than the capacity
allows. -/
structure Sound (m : Lru K V) : Prop where
  keys : (m.entries.map (·.1)).Nodup
  within : m.capacity ≠ 0 → m.entries.length ≤ m.capacity

theorem Sound.split (h : m.Sound) {key : K} {e : K × V} (hfind : m.find key = some e) :
    ∃ xs ys, m.entries = xs ++ e :: ys ∧ m.entries.filter (fun e => e.1 ≠ key) = xs ++ ys := by
  have hmem := List.mem_of_find?_eq_some hfind
  obtain rfl : e.1 = key := by simpa using List.find?_some hfind
  obtain ⟨xs, ys, hentries⟩ := List.append_of_mem hmem
  have hkeys := h.keys
  rw [hentries] at hkeys
  exact ⟨xs, ys, hentries, by rw [hentries]; exact (find_split hkeys).2⟩

omit [DecidableEq K] in
theorem notified_nil (m : Lru K V) :
    m.notified = if m.listener then m.notified ++ [] else m.notified := by
  rw [List.append_nil, ite_self]

theorem Sound.leaves (h : m.Sound) (op : CacheOp K V) :
    ∃ gone, (m.entries ++ m.added op).Perm (gone ++ (m.call op).1.entries)
      ∧ (m.call op).1.notified = if m.listener then m.notified ++ gone else m.notified := by
  cases op with
  | put key value =>
    simp only [Lru.call, Lru.put, added]
    cases hfind : m.find key with
    | some e => exact ⟨[], by simp, notified_nil m⟩
    | none =>
      simp only [Option.isNone_none, if_true]
      by_cases hfull : m.isFull
      · rw [if_pos hfull]
        refine ⟨m.entries.take 1, ?_, rfl⟩
        show (m.entries ++ [(key, value)]).Perm
          (m.entries.take 1 ++ (m.entries.drop 1 ++ [(key, value)]))
        rw [← List.append_assoc, List.take_append_drop]
      · rw [if_neg hfull]
        exact ⟨[], List.Perm.refl _, notified_nil m⟩
  | get key =>
    simp only [Lru.call, Lru.get, added, List.append_nil]
    cases hfind : m.find key with
    | none => exact ⟨[], List.Perm.refl _, notified_nil m⟩
    | some e =>
      obtain ⟨xs, ys, hentries, hleft⟩ := h.split hfind
      refine ⟨[], ?_, notified_nil m⟩
      show m.entries.Perm (m.entries.filter (fun e => e.1 ≠ key) ++ [e])
      rw [hleft, hentries]
      exact List.perm_middle.trans (List.perm_append_singleton _ _).symm
  | remove key =>
    simp only [Lru.call, Lru.remove, added, List.append_nil]
    cases hfind : m.find key with
    | none => exact ⟨[], List.Perm.refl _, notified_nil m⟩
    | some e =>
      obtain ⟨xs, ys, hentries, hleft⟩ := h.split hfind
      refine ⟨[e], ?_, rfl⟩
      show m.entries.Perm ([e] ++ m.entries.filter (fun e => e.1 ≠ key))
      rw [hleft, hentries]
      exact List.perm_middle
  | removeOldest =>
    simp only [Lru.call, Lru.removeOldest, added, List.append_nil]
    cases hentries : m.entries with
    | nil => exact ⟨[], by rw [hentries]; exact List.Perm.refl _, notified_nil m⟩
    | cons e rest => exact ⟨[e], List.Perm.refl _, rfl⟩
  | clear => exact ⟨m.entries, by simp [added, Lru.call, evict], rfl⟩
  | peekOldestValue => exact ⟨[], by simp [added, Lru.call], notified_nil m⟩
  | size => exact ⟨[], by simp [added, Lru.call], notified_nil m⟩
  | setOnEntryRemovedListener listener => exact ⟨[], by simp [added, Lru.call], notified_nil m⟩

theorem capacity_call (op : CacheOp K V) : (m.call op).1.capacity = m.capacity := by
  cases op with
  | put key value =>
    simp only [Lru.call, Lru.put]
    split
    · rfl
    · dsimp only
      split <;> rfl
  | get key =>
    simp only [Lru.call, Lru.get]
    split <;> rfl
  | remove key =>
    simp only [Lru.call, Lru.remove]
    split <;> rfl
  | removeOldest =>
    simp only [Lru.call, Lru.removeOldest]
    split <;> rfl
  | _ => rfl

theorem Sound.added (h : m.Sound) (op : CacheOp K V) :
    ((m.entries ++ m.added op).map (·.1)).Nodup := by
  cases op with
  | put key value =>
    rw [Lru.added]
    cases hfind : m.find key with
    | some e => simpa using h.keys
    | none =>
      have hnot : ∀ e ∈ m.entries, e.1 ≠ key := by
        simpa [Lru.find] using hfind
      rw [List.map_append]
      refine List.nodup_append.mpr ⟨h.keys, by simp, fun k hk k' hk' => ?_⟩
      obtain ⟨e, he, rfl⟩ := List.mem_map.mp hk
      obtain rfl : k' = key := by simpa using hk'
      exact hnot e he
  | _ => simpa [Lru.added] using h.keys

theorem Sound.call (h : m.Sound) (op : CacheOp K V) : (m.call op).1.Sound := by
  obtain ⟨gone, hperm, -⟩ := h.leaves op
  constructor
  · have hnodup := ((hperm.map (·.1)).nodup_iff).mp (h.added op)
    rw [List.map_append] at hnodup
    exact (List.nodup_append.mp hnodup).2.1
  · intro hcapacity
    rw [capacity_call] at hcapacity ⊢
    have hwithin := h.within hcapacity
    have hlen := hperm.length_eq
    rw [List.length_append, List.length_append] at hlen
    cases op with
    | put key value =>
      simp only [Lru.call, Lru.put] at hlen ⊢
      cases hfind : m.find key with
      | some e => exact hwithin
      | none =>
        dsimp only
        by_cases hfull : m.isFull
        · rw [if_pos hfull]
          show (m.entries.drop 1 ++ [(key, value)]).length ≤ m.capacity
          have hroom := hfull.2
          rw [List.length_append, List.length_drop, List.length_singleton]
          omega
        · rw [if_neg hfull, List.length_append, List.length_singleton]
          unfold isFull at hfull
          omega
    | _ =>
      simp only [Lru.added, List.length_nil] at hlen
      omega

end Lru

namespace LruCache

variable {K V : Type} [DecidableEq K]

/-- The cache and its meaning, one call each. -/
def step (q : LruCache K V × Lru K V) (op : CacheOp K V) : LruCache K V × Lru K V :=
  ((q.1.call op).1, (q.2.call op).1)

def new (capacity : Nat) : LruCache K V × Lru K V := ({ mMaxCapacity := capacity }, { capacity })

omit [DecidableEq K] in
theorem shows_new (capacity : Nat) :
    Shows (new capacity : LruCache K V × Lru K V).1 (new capacity).2 :=
  ⟨[], rep_empty capacity, rfl, rfl, rfl, rfl⟩

/-- The cache does what it means in every call of a run exactly if every `put`
finds the key missing or finds room; and after such a run the set and the
list hold the entries it means, in the order of use and within the capacity,
and the listener has been told all that have left. -/
theorem run_agrees_iff (capacity : Nat) (ops : List (CacheOp K V)) :
    (Meets step (fun q op => Roomy q.1 op) (new capacity) ops
      ↔ Meets step (fun q op => Agrees q.1 q.2 op) (new capacity) ops)
    ∧ (Meets step (fun q op => Roomy q.1 op) (new capacity) ops →
        Shows (run step (new capacity) ops).1 (run step (new capacity) ops).2
        ∧ ((run step (new capacity) ops).1.mMaxCapacity ≠ 0 →
            (run step (new capacity) ops).1.size ≤ (run step (new capacity) ops).1.mMaxCapacity)
        ∧ ∀ op, ∃ gone,
            ((run step (new capacity) ops).2.entries
              ++ (run step (new capacity) ops).2.added op).Perm
                (gone ++ ((run step (new capacity) ops).2.call op).1.entries)
              ∧ ((run step (new capacity) ops).2.call op).1.notified
                  = if (run step (new capacity) ops).2.listener
                    then (run step (new capacity) ops).2.notified ++ gone
                    else (run step (new capacity) ops).2.notified) := by
  have hiff : ∀ (q : LruCache K V × Lru K V) op, Shows q.1 q.2 →
      (Roomy q.1 op ↔ Agrees q.1 q.2 op) := fun q op h =>
    ⟨agrees_of_roomy h op, roomy_of_agrees h op⟩
  refine ⟨meets_congr hiff (fun q op _ hagrees => hagrees.2) (shows_new capacity), fun hops => ?_⟩
  have hshows : Shows (run step (new capacity) ops).1 (run step (new capacity) ops).2 :=
    run_inv (P := fun q : LruCache K V × Lru K V => Shows q.1 q.2)
      (fun q op h hroomy => (agrees_of_roomy h op hroomy).2) (shows_new capacity) hops
  have hsound : (run step (new capacity) ops).2.Sound :=
    run_inv_of_step (P := fun q : LruCache K V × Lru K V => q.2.Sound)
      (fun q op h => h.call op) ops ⟨List.nodup_nil, fun _ => Nat.zero_le _⟩
  refine ⟨hshows, fun hcapacity => ?_, fun op => hsound.leaves op⟩
  obtain ⟨cells, hrep, hentries, hcap, -⟩ := hshows
  have hwithin := hsound.within (by rw [hcap]; exact hcapacity)
  rw [hrep.size_eq, ← hcap]
  rwa [hentries, List.length_map] at hwithin

omit [DecidableEq K] in
theorem Shows.size_eq {c : LruCache K V} {m : Lru K V} (h : Shows c m) :
    c.size = m.entries.length := by
  obtain ⟨cells, hrep, hentries, -⟩ := h
  rw [hrep.size_eq, hentries, List.length_map]

/-- A full cache of two, and its younger entry put again: the answer is right,
the older entry is gone. -/
theorem not_agrees_put_again :
    ¬ Meets step (fun q op => Agrees q.1 q.2 op) (new 2)
      [.put (1 : Nat) (10 : Nat), .put 2 20, .put 2 20] := by
  rintro ⟨-, -, hagrees, -⟩
  have hne : (run step (new 2) [.put (1 : Nat) (10 : Nat), .put 2 20, .put 2 20]).1.size
      ≠ (run step (new 2) [.put (1 : Nat) (10 : Nat), .put 2 20, .put 2 20]).2.entries.length := by
    decide
  exact hne hagrees.2.size_eq

end LruCache

end Eular.Utils
