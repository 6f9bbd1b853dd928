/-
The slots hold the list of ranges.

`Holds h idx`: the slots `idx` are linked one to the next from the head, and
they and the free ones are all the slots there are, each once. Three changes
keep this and say what becomes of the ranges: of the numbers of a slot
(`Holds.set`), the unlinking of a slot (`Holds.unlink`) and a new one
(`Holds.place`). What the code does to the slots is made of these, and is what
`ReceiveHistory` does to the list (`insert_toHistory`).
-/
import Eular.Lib.LinkedList
import Eular.Utp.Connection.HistorySlots

namespace Eular.Utp.HistorySlots

open Eular.Lib

variable {cutoff : Nat} {rounds cur : Nat} {elements : List Element} {e : Element}

def next (h : HistorySlots) (i : Nat) : Nat := (h.elements i).next

def view (h : HistorySlots) (idx : List Nat) : List Element := idx.map fun i => (h.elements i).range

structure Holds (h : HistorySlots) (idx : List Nat) : Prop where
  chain : Chain.Seg h.next h.head idx npos
  slots : (idx ++ h.free).Perm (List.range h.size)
  count : h.usedCount = idx.length
  size_le : h.size ≤ npos

/-- The slot before those that `passed`, nearest first, are followed by. -/
def before (passed : List Nat) : Nat := passed.headD npos

variable {h : HistorySlots} {idx passed xs ys : List Nat} {c : Nat}

-- ==== slots

theorem Holds.nodup (hh : h.Holds idx) : (idx ++ h.free).Nodup :=
  hh.slots.nodup_iff.mpr List.nodup_range

theorem Holds.notMem (hh : h.Holds (xs ++ c :: ys)) : c ∉ xs ∧ c ∉ ys := by
  have hnodup : (xs ++ c :: ys).Nodup := hh.nodup.of_append_left
  rw [List.nodup_middle, List.nodup_cons, List.mem_append, not_or] at hnodup
  exact hnodup.1

theorem Holds.lt_size (hh : h.Holds idx) (hc : c ∈ idx ++ h.free) : c < h.size :=
  List.mem_range.mp (hh.slots.mem_iff.mp hc)

theorem Holds.ne_npos (hh : h.Holds idx) (hc : c ∈ idx) : c ≠ npos := by
  have hlt := hh.lt_size (List.mem_append_left _ hc)
  have hle := hh.size_le
  omega

theorem Holds.length_le (hh : h.Holds idx) : idx.length ≤ h.size := by
  have hlen := hh.slots.length_eq
  rw [List.length_append, List.length_range] at hlen
  omega

theorem view_append : h.view (xs ++ ys) = h.view xs ++ h.view ys := List.map_append

theorem view_congr {h' : HistorySlots} (hsame : ∀ i ∈ idx, (h'.elements i).range
    = (h.elements i).range) : h'.view idx = h.view idx :=
  List.map_congr_left hsame

theorem view_tail {h' : HistorySlots} (hsame : h'.view (c :: ys) = h.view (c :: ys)) :
    h'.view ys = h.view ys :=
  (List.cons.inj hsame).2

@[simp] theorem set_elements_self (h : HistorySlots) (i : Nat) (slot : Slot) :
    (h.set i slot).elements i = slot := Function.update_self ..

theorem set_elements_of_ne (h : HistorySlots) {i j : Nat} (hne : j ≠ i) (slot : Slot) :
    (h.set i slot).elements j = h.elements j := Function.update_of_ne hne ..

@[simp] theorem set_set (h : HistorySlots) (i : Nat) (slot slot' : Slot) :
    (h.set i slot).set i slot' = h.set i slot' := by
  simp only [HistorySlots.set, Function.update_idem]

theorem slotsFrom_eq (hchain : Chain.Seg h.next cur idx npos)
    (hidx : ∀ i ∈ idx, i ≠ npos) (hrounds : idx.length ≤ rounds) :
    slotsFrom rounds h cur = idx := by
  induction idx generalizing rounds cur with
  | nil =>
    obtain rfl : cur = npos := hchain
    cases rounds with
    | zero => rfl
    | succ rounds => exact if_pos rfl
  | cons i idx ih =>
    obtain ⟨rfl, hrest⟩ := hchain
    cases rounds with
    | zero => exact absurd hrounds (by simp)
    | succ rounds =>
      rw [slotsFrom, if_neg (hidx cur List.mem_cons_self)]
      congr 1
      exact ih hrest (fun j hj => hidx j (List.mem_cons_of_mem _ hj))
        (Nat.le_of_succ_le_succ hrounds)

theorem Holds.used_eq (hh : h.Holds idx) : h.used = idx :=
  slotsFrom_eq hh.chain (fun _ hi => hh.ne_npos hi) hh.length_le

theorem Holds.ranges_eq (hh : h.Holds idx) : h.ranges = h.view idx := by
  rw [ranges, hh.used_eq]
  rfl

-- ==== changes

@[simp] theorem link_range (h : HistorySlots) (prev target i : Nat) :
    ((h.link prev target).elements i).range = (h.elements i).range := by
  unfold link
  split
  · rfl
  · by_cases hi : i = prev
    · rw [hi, set_elements_self]
      rfl
    · rw [set_elements_of_ne h hi]

theorem link_fields (h : HistorySlots) (prev target : Nat) :
    (h.link prev target).free = h.free ∧ (h.link prev target).size = h.size
      ∧ (h.link prev target).usedCount = h.usedCount := by
  unfold link
  split
  · exact ⟨rfl, rfl, rfl⟩
  · exact ⟨rfl, rfl, rfl⟩

/-- What the list of ranges is no part of. -/
def rest (h : HistorySlots) : Nat × Nat × Nat × Nat :=
  (h.maxRanges, h.cutoff, h.largest, h.largestAckedReceived)

@[simp] theorem set_rest (h : HistorySlots) (i : Nat) (slot : Slot) :
    (h.set i slot).rest = h.rest := rfl

@[simp] theorem removeElement_rest (h : HistorySlots) (i : Nat) :
    (h.removeElement i).rest = h.rest := rfl

@[simp] theorem link_rest (h : HistorySlots) (prev target : Nat) :
    (h.link prev target).rest = h.rest := by
  unfold link
  split
  · rfl
  · rfl

/-- What a slot that ends the first part of a chain, or the head, is linked to comes after
that part. -/
theorem link_chain {target q : Nat} (hpassed : Chain.Seg h.next h.head passed.reverse q)
    (hnodup : passed.Nodup) (hnpos : ∀ i ∈ passed, i ≠ npos)
    (htarget : Chain.Seg h.next target ys npos) (hout : ∀ i ∈ passed, i ∉ ys) :
    Chain.Seg (h.link (before passed) target).next (h.link (before passed) target).head
      (passed.reverse ++ ys) npos := by
  cases passed with
  | nil =>
    rw [before, List.headD_nil, link, if_pos rfl]
    exact htarget
  | cons p passed =>
    have hp : p ≠ npos := hnpos p List.mem_cons_self
    rw [before, List.headD_cons, link, if_neg hp]
    have hsame (i : Nat) (hi : i ≠ p) :
        (h.set p { h.elements p with next := target }).next i = h.next i := by
      rw [next, set_elements_of_ne h hi, next]
    have hself : (h.set p { h.elements p with next := target }).next p = target := by
      rw [next, set_elements_self]
    rw [List.reverse_cons] at hpassed ⊢
    refine Chain.seg_append.mpr ⟨target, ?_, ?_⟩
    · have hlast := hpassed.relink (fun hin =>
        (List.nodup_cons.mp hnodup).1 (List.mem_reverse.mp hin)) hsame
      rw [hself] at hlast
      exact hlast
    · exact htarget.frame fun i hi => hsame i fun heq =>
        hout p List.mem_cons_self (heq ▸ hi)

theorem Holds.set (hh : h.Holds (xs ++ c :: ys)) (low count : Nat) :
    (h.set c ⟨low, count, (h.elements c).next⟩).Holds (xs ++ c :: ys)
      ∧ (h.set c ⟨low, count, (h.elements c).next⟩).view xs = h.view xs
      ∧ (h.set c ⟨low, count, (h.elements c).next⟩).view ys = h.view ys := by
  have hsame (i : Nat) : (h.set c ⟨low, count, (h.elements c).next⟩).next i = h.next i := by
    unfold next
    by_cases hi : i = c
    · rw [hi, set_elements_self]
    · rw [set_elements_of_ne h hi]
  obtain ⟨hxs, hys⟩ := hh.notMem
  refine ⟨⟨hh.chain.frame fun i _ => hsame i, hh.slots, hh.count, hh.size_le⟩, ?_, ?_⟩
  · exact view_congr fun i hi => by rw [set_elements_of_ne h (ne_of_mem_of_not_mem hi hxs)]
  · exact view_congr fun i hi => by rw [set_elements_of_ne h (ne_of_mem_of_not_mem hi hys)]

theorem Holds.split (hh : h.Holds (passed.reverse ++ ys)) :
    ∃ q, Chain.Seg h.next h.head passed.reverse q ∧ Chain.Seg h.next q ys npos
      ∧ passed.Nodup ∧ (∀ i ∈ passed, i ≠ npos) ∧ ∀ i ∈ passed, i ∉ ys := by
  obtain ⟨q, hpassed, hys⟩ := Chain.seg_append.mp hh.chain
  have hnodup := List.nodup_append.mp hh.nodup.of_append_left
  refine ⟨q, hpassed, hys, List.nodup_reverse.mp hnodup.1, ?_, ?_⟩
  · exact fun i hi => hh.ne_npos (List.mem_append_left _ (List.mem_reverse.mpr hi))
  · exact fun i hi hin => hnodup.2.2 i (List.mem_reverse.mpr hi) i hin rfl

theorem Holds.unlink (hh : h.Holds (passed.reverse ++ c :: ys)) :
    ((h.link (before passed) (h.next c)).removeElement c).Holds (passed.reverse ++ ys)
      ∧ ∀ idx, c ∉ idx →
        ((h.link (before passed) (h.next c)).removeElement c).view idx = h.view idx := by
  obtain ⟨q, hpassed, ⟨-, hys⟩, hnodup, hnpos, hout⟩ := hh.split
  obtain ⟨hnot, hnot'⟩ := hh.notMem
  have hchain := link_chain hpassed hnodup hnpos hys fun i hi hin =>
    hout i hi (List.mem_cons_of_mem _ hin)
  obtain ⟨hfree, hsize, hcount⟩ := link_fields h (before passed) (h.next c)
  have hrange := link_range h (before passed) (h.next c)
  generalize h.link (before passed) (h.next c) = h' at *
  have hsame {i : Nat} (hi : i ≠ c) : (h'.removeElement c).elements i = h'.elements i :=
    set_elements_of_ne h' hi _
  refine ⟨⟨hchain.frame ?_, ?_, ?_, hsize ▸ hh.size_le⟩, ?_⟩
  · intro i hi
    have hne : i ≠ c := by
      rintro rfl
      exact (List.mem_append.mp hi).elim hnot hnot'
    rw [next, hsame hne, next]
  · change (passed.reverse ++ ys ++ c :: h'.free).Perm (List.range h'.size)
    rw [hfree, hsize]
    refine List.Perm.trans ?_ hh.slots
    rw [List.append_assoc, List.append_assoc]
    exact List.perm_middle.append_left _
  · change h'.usedCount - 1 = (passed.reverse ++ ys).length
    rw [hcount, hh.count]
    simp
  · intro idx hidx
    apply view_congr
    intro i hi
    rw [hsame (ne_of_mem_of_not_mem hi hidx), hrange]

theorem Holds.alloc (hh : h.Holds idx) (hroom : idx.length < npos) :
    ∃ c h', h.allocElement = (c, h') ∧ c ∉ idx ∧ c ≠ npos
      ∧ (∀ i ≠ c, h'.elements i = h.elements i) ∧ h'.head = h.head
      ∧ (c :: (idx ++ h'.free)).Perm (List.range h'.size)
      ∧ h'.usedCount = idx.length + 1 ∧ h'.size ≤ npos := by
  have hcount : toU32 (h.usedCount + 1) = idx.length + 1 := by
    rw [hh.count, toU32, Nat.mod_eq_of_lt (by unfold npos at hroom; omega)]
  cases hfree : h.free with
  | cons c free =>
    refine ⟨c, { h with free, usedCount := toU32 (h.usedCount + 1) }, by rw [allocElement, hfree],
      ?_, ?_, fun _ _ => rfl, rfl, ?_, hcount, hh.size_le⟩
    · have hnodup := hh.nodup
      rw [hfree, List.nodup_middle, List.nodup_cons, List.mem_append, not_or] at hnodup
      exact hnodup.1.1
    · have hlt : c < h.size := hh.lt_size (by rw [hfree]; simp)
      have hle := hh.size_le
      omega
    · refine List.Perm.trans ?_ hh.slots
      rw [hfree]
      exact List.perm_middle.symm
  | nil =>
    have hslots := hh.slots
    rw [hfree, List.append_nil] at hslots
    have hsize : h.size = idx.length := by
      rw [hslots.length_eq, List.length_range]
    have hlt : h.size < npos := hsize ▸ hroom
    have hself : toU32 h.size = h.size := Nat.mod_eq_of_lt (by unfold npos at hlt; omega)
    refine ⟨h.size, { h.set h.size ⟨0, 0, npos⟩ with
      size := h.size + 1, usedCount := toU32 (h.usedCount + 1) },
      by rw [allocElement, hfree, hself], ?_, hlt.ne, ?_, rfl, ?_, hcount, hlt⟩
    · intro hin
      exact lt_irrefl _ (List.mem_range.mp (hslots.mem_iff.mp hin))
    · exact fun i hi => set_elements_of_ne h hi _
    · change (h.size :: (idx ++ h.free)).Perm (List.range (h.size + 1))
      rw [hfree, List.append_nil, List.range_succ]
      exact (hslots.cons _).trans (List.perm_append_singleton _ _).symm

theorem Holds.place (pn : Nat) {cur : Nat} (hh : h.Holds (passed.reverse ++ ys))
    (hcur : Chain.Seg h.next cur ys npos) (hroom : (passed.reverse ++ ys).length < npos) :
    ∃ c, (h.place pn (before passed) cur).Holds (passed.reverse ++ c :: ys)
      ∧ (h.place pn (before passed) cur).view (passed.reverse ++ c :: ys)
        = h.view passed.reverse ++ ⟨pn, 1⟩ :: h.view ys := by
  obtain ⟨q, hpassed, -, hnodup, hnpos, hout⟩ := hh.split
  obtain ⟨c, h', halloc, hnew, hc, helements, hhead, hslots, hcount, hsize⟩ := hh.alloc hroom
  rw [List.mem_append, List.mem_reverse, not_or] at hnew
  have hplace : h.place pn (before passed) cur
      = (h'.set c ⟨pn, 1, cur⟩).link (before passed) c := by
    rw [HistorySlots.place, halloc]
  have hsame {i : Nat} (hi : i ≠ c) : (h'.set c ⟨pn, 1, cur⟩).elements i = h.elements i := by
    rw [set_elements_of_ne _ hi, helements i hi]
  have hself : (h'.set c ⟨pn, 1, cur⟩).elements c = ⟨pn, 1, cur⟩ := set_elements_self ..
  obtain ⟨hfree', hsize', hcount'⟩ := link_fields (h'.set c ⟨pn, 1, cur⟩) (before passed) c
  rw [hplace]
  refine ⟨c, ⟨?_, ?_, ?_, ?_⟩, ?_⟩
  · apply link_chain (q := q) _ hnodup hnpos
    · refine ⟨rfl, ?_⟩
      rw [next, hself]
      exact hcur.frame fun i hi => by
        rw [next, hsame (ne_of_mem_of_not_mem hi hnew.2), next]
    · intro i hi hin
      rcases List.mem_cons.mp hin with rfl | hin
      · exact hnew.1 hi
      · exact hout i hi hin
    · rw [show (h'.set c ⟨pn, 1, cur⟩).head = h.head from hhead]
      exact hpassed.frame fun i hi => by
        rw [next, hsame (ne_of_mem_of_not_mem (List.mem_reverse.mp hi) hnew.1), next]
  · rw [hfree', hsize']
    refine List.Perm.trans ?_ hslots
    rw [List.append_assoc]
    exact List.perm_middle.trans (by rw [List.append_assoc]; rfl)
  · rw [hcount', show (h'.set c ⟨pn, 1, cur⟩).usedCount = h'.usedCount from rfl, hcount]
    simp [Nat.add_assoc]
  · rw [hsize']
    exact hsize
  · rw [view, List.map_append, List.map_cons, link_range, hself]
    congr 1
    · apply List.map_congr_left
      intro i hi
      rw [link_range, hsame (ne_of_mem_of_not_mem (List.mem_reverse.mp hi) hnew.1)]
    · congr 1
      apply List.map_congr_left
      intro i hi
      rw [link_range, hsame (ne_of_mem_of_not_mem hi hnew.2)]

theorem Holds.join {p n : Nat} (hh : h.Holds (xs ++ p :: n :: ys)) (low count : Nat) :
    ((h.set p ⟨low, count, h.next n⟩).removeElement n).Holds (xs ++ p :: ys)
      ∧ ((h.set p ⟨low, count, h.next n⟩).removeElement n).view (xs ++ p :: ys)
        = h.view xs ++ ⟨low, count⟩ :: h.view ys := by
  obtain ⟨hset, hxs, hys⟩ := hh.set low count
  have hp : p ≠ npos := hh.ne_npos (by simp)
  have hcells : xs ++ p :: n :: ys = (p :: xs.reverse).reverse ++ n :: ys := by simp
  have hn : n ∉ xs ++ [p] ∧ n ∉ ys := by
    rw [hcells] at hh
    have hnot := hh.notMem
    rwa [List.reverse_cons, List.reverse_reverse] at hnot
  have hnp : n ≠ p := fun heq => hn.1 (by simp [heq])
  have hself : (h.set p ⟨low, count, (h.elements p).next⟩).elements p
      = ⟨low, count, (h.elements p).next⟩ := set_elements_self ..
  have hnext : (h.set p ⟨low, count, (h.elements p).next⟩).next n = h.next n := by
    rw [next, set_elements_of_ne h hnp, next]
  have hlink : (h.set p ⟨low, count, (h.elements p).next⟩).link p (h.next n)
      = h.set p ⟨low, count, h.next n⟩ := by
    rw [link, if_neg hp, hself, set_set]
  rw [hcells] at hset
  obtain ⟨hunlink, hview⟩ := hset.unlink
  rw [hnext, before, List.headD_cons, hlink] at hunlink hview
  rw [List.reverse_cons, List.reverse_reverse, List.append_assoc] at hunlink
  refine ⟨hunlink, ?_⟩
  rw [hview _ (by simpa [hnp] using hn), view_append]
  rw [hxs]
  congr 1
  rw [view, List.map_cons, hself]
  exact congrArg _ (view_tail hys)

-- ==== insertion

/-- The slots hold these ranges. -/
def Lists (h : HistorySlots) (elements : List Element) : Prop :=
  ∃ idx, h.Holds idx ∧ h.view idx = elements

theorem view_cons : h.view (c :: ys) = (h.elements c).range :: h.view ys := rfl

theorem view_reverse : h.view xs.reverse = (h.view xs).reverse := List.map_reverse

theorem next_seg {cur : Nat} (hchain : Chain.Seg h.next cur (c :: ys) npos) :
    cur = c ∧ Chain.Seg h.next (h.next c) ys npos := hchain

theorem Holds.set_view (hh : h.Holds (xs ++ c :: ys)) (low count : Nat) :
    (h.set c ⟨low, count, (h.elements c).next⟩).view (xs ++ c :: ys)
      = h.view xs ++ ⟨low, count⟩ :: h.view ys := by
  obtain ⟨-, hxs, hys⟩ := hh.set low count
  rw [view_append, view_cons, hxs, hys, set_elements_self]
  rfl

theorem Holds.next_eq (hh : h.Holds (xs ++ c :: ys)) :
    (h.elements c).next = ys.headD npos ∧ ∀ n ∈ ys, n ≠ npos ∧ n ≠ c := by
  have hchain := hh.chain
  obtain ⟨q, -, -, hys⟩ := Chain.seg_append.mp hchain
  refine ⟨?_, fun n hn => ⟨hh.ne_npos (by simp [hn]), ne_of_mem_of_not_mem hn hh.notMem.2⟩⟩
  cases ys with
  | nil => exact hys
  | cons n ys => exact hys.1

theorem Holds.extendDown {pn : Nat} (hh : h.Holds (passed.reverse ++ c :: ys)) :
    (h.extendDown pn c).Lists ((h.view passed).reverse
      ++ ReceiveHistory.extendDown pn (h.elements c).range (h.view ys)) := by
  obtain ⟨hnext, hother⟩ := hh.next_eq
  rw [HistorySlots.extendDown, ← view_reverse]
  generalize hcount : toU32 (add64 (sub64 (h.elements c).range.high pn) 1) = count
  have hset := hh.set pn count
  have hview := hh.set_view pn count
  rw [hnext] at hset hview ⊢
  cases ys with
  | nil =>
    rw [List.headD_nil, if_neg (fun hand => hand.1 rfl)]
    exact ⟨_, hset.1, hview.trans (by rw [← hcount]; rfl)⟩
  | cons n ys =>
    obtain ⟨hn, hne⟩ := hother n List.mem_cons_self
    have hself : (h.set c ⟨pn, count, n⟩).elements n = h.elements n := set_elements_of_ne h hne _
    rw [List.headD_cons] at hset hview ⊢
    rw [hself, view_cons, ReceiveHistory.extendDown]
    by_cases hbelow : add64 (h.elements n).range.high 1 = pn
    · rw [if_pos ⟨hn, hbelow⟩, if_pos hbelow]
      obtain ⟨hjoin, hjoined⟩ := hset.1.join (h.elements n).low
        (toU32 (add64 (sub64 (h.elements c).range.high (h.elements n).low) 1))
      rw [next, hself] at hjoin hjoined
      refine ⟨_, hjoin, hjoined.trans ?_⟩
      rw [hset.2.1, view_tail hset.2.2]
      rfl
    · rw [if_neg (fun hand => hbelow hand.2), if_neg hbelow]
      exact ⟨_, hset.1, hview.trans (by rw [← hcount]; rfl)⟩

theorem Holds.extendUp {pn : Nat} (hh : h.Holds (passed.reverse ++ c :: ys)) :
    (h.extendUp pn c).Lists ((h.view passed).reverse
      ++ ReceiveHistory.extendUp pn (h.elements c).range (h.view ys)) := by
  obtain ⟨hnext, hother⟩ := hh.next_eq
  rw [HistorySlots.extendUp, ← view_reverse]
  generalize hcount : toU32 (add64 (sub64 pn (h.elements c).low) 1) = count
  have hset := hh.set (h.elements c).low count
  have hview := hh.set_view (h.elements c).low count
  rw [hnext] at hset hview ⊢
  cases ys with
  | nil =>
    rw [List.headD_nil, if_neg (fun hand => hand.1 rfl)]
    exact ⟨_, hset.1, hview.trans (by rw [← hcount]; rfl)⟩
  | cons n ys =>
    obtain ⟨hn, hne⟩ := hother n List.mem_cons_self
    have hself : (h.set c ⟨(h.elements c).low, count, n⟩).elements n = h.elements n :=
      set_elements_of_ne h hne _
    rw [List.headD_cons] at hset hview ⊢
    rw [hself, view_cons, ReceiveHistory.extendUp]
    by_cases habove : add64 pn 1 = (h.elements n).low
    · rw [if_pos ⟨hn, habove⟩, if_pos (show add64 pn 1 = (h.elements n).range.low from habove)]
      obtain ⟨hjoin, hjoined⟩ := hset.1.join (h.elements c).low
        (toU32 (add64 (sub64 (h.elements n).range.high (h.elements c).low) 1))
      rw [next, hself] at hjoin hjoined
      refine ⟨_, hjoin, hjoined.trans ?_⟩
      rw [hset.2.1, view_tail hset.2.2]
      rfl
    · rw [if_neg (fun hand => habove hand.2),
        if_neg (show ¬ add64 pn 1 = (h.elements n).range.low from habove)]
      exact ⟨_, hset.1, hview.trans (by rw [← hcount]; rfl)⟩

theorem Holds.mergePrev {p pn : Nat} (hh : h.Holds ((p :: passed).reverse ++ c :: ys)) :
    (h.mergePrev pn p c).Lists ((h.view passed).reverse
      ++ { (h.elements p).range with
            count := toU32 (sub64 (add64 pn (toU32 (add64 (sub64 (h.elements c).range.high pn) 1)))
              (h.elements p).low) } :: h.view ys) := by
  obtain ⟨hnot, -⟩ := hh.notMem
  have hne : p ≠ c := fun heq => hnot (by simp [heq])
  rw [HistorySlots.mergePrev, ← view_reverse]
  dsimp only
  generalize toU32 (add64 (sub64 (h.elements c).range.high pn) 1) = count
  obtain ⟨hset, hxs, hys⟩ := hh.set pn count
  have hself : (h.set c ⟨pn, count, (h.elements c).next⟩).elements p = h.elements p :=
    set_elements_of_ne h hne _
  rw [List.reverse_cons, List.append_assoc] at hset
  obtain ⟨hjoin, hjoined⟩ := hset.join (h.elements p).low
    (toU32 (sub64 (add64 pn count) (h.elements p).low))
  rw [next, set_elements_self] at hjoin hjoined
  rw [hself]
  refine ⟨_, hjoin, hjoined.trans ?_⟩
  rw [List.reverse_cons, view_append, view_append] at hxs
  rw [hys, (List.append_inj hxs (by simp [view])).1]
  rfl

/-- What the loop does to the slots behind `cur` is what `insertFrom` does to the list. -/
theorem Holds.insertLoop {rounds pn cur : Nat} (hh : h.Holds (passed.reverse ++ ys))
    (hcur : Chain.Seg h.next cur ys npos) (hrounds : ys.length < rounds)
    (hroom : (passed.reverse ++ ys).length < npos) :
    (HistorySlots.insertLoop rounds h pn (before passed) cur).Lists
      (ReceiveHistory.insertFrom pn (h.view passed) (h.view ys)) := by
  induction ys generalizing rounds passed cur with
  | nil =>
    obtain ⟨rounds, rfl⟩ := Nat.exists_eq_add_one_of_ne_zero (Nat.ne_of_gt hrounds)
    have hend : cur = npos := hcur
    rw [HistorySlots.insertLoop, if_pos hend]
    obtain ⟨c, hplace, hview⟩ := hh.place pn hcur hroom
    exact ⟨_, hplace, hview.trans (by rw [view_reverse]; rfl)⟩
  | cons c ys ih =>
    obtain ⟨rounds, rfl⟩ := Nat.exists_eq_add_one_of_ne_zero
      (Nat.ne_of_gt (Nat.zero_lt_of_lt hrounds))
    obtain ⟨rfl, hys⟩ := next_seg hcur
    have hc : cur ≠ npos := hh.ne_npos (by simp)
    rw [HistorySlots.insertLoop, if_neg hc, view_cons, ReceiveHistory.insertFrom]
    dsimp only
    split
    · refine ⟨_, hh, ?_⟩
      rw [view_append, view_reverse, view_cons]
    split
    · cases passed with
      | nil =>
        have hfirst : ¬ (before [] ≠ npos ∧ add64 (h.elements (before [])).range.high 1 = pn) :=
          fun hand => hand.1 rfl
        rw [if_neg hfirst]
        exact hh.extendDown
      | cons p passed =>
        have hp : p ≠ npos := hh.ne_npos (by simp)
        rw [before, List.headD_cons, view_cons]
        dsimp only
        by_cases hmerge : add64 (h.elements p).range.high 1 = pn
        · rw [if_pos ⟨hp, hmerge⟩, if_pos hmerge]
          exact hh.mergePrev
        · rw [if_neg (fun hand => hmerge hand.2), if_neg hmerge]
          exact hh.extendDown
    split
    · exact hh.extendUp
    split
    · obtain ⟨c, hplace, hview⟩ := hh.place pn hcur hroom
      exact ⟨_, hplace, hview.trans (by rw [view_reverse, view_cons])⟩
    · have hcells : passed.reverse ++ cur :: ys = (cur :: passed).reverse ++ ys := by simp
      rw [hcells] at hh hroom
      exact ih hh hys (Nat.lt_of_succ_lt_succ hrounds) hroom

theorem Holds.head_eq_npos (hh : h.Holds idx) : h.head = npos ↔ idx = [] := by
  cases idx with
  | nil => exact iff_of_true hh.chain rfl
  | cons c idx =>
    have hc : c ≠ npos := hh.ne_npos List.mem_cons_self
    exact iff_of_false (fun hempty => hc (hh.chain.1.symm.trans hempty)) (by simp)

theorem Holds.insertIntoList {pn : Nat} (hh : h.Holds idx) (hroom : idx.length < npos) :
    (h.insertIntoList pn).Lists (ReceiveHistory.insertFrom pn [] (h.view idx)) := by
  rw [HistorySlots.insertIntoList]
  split
  case isTrue hempty =>
    obtain rfl := hh.head_eq_npos.mp hempty
    have hnone : h.Holds (List.reverse [] ++ []) := hh
    obtain ⟨c, hplace, hview⟩ := hnone.place pn rfl hroom
    exact ⟨_, hplace, hview⟩
  case isFalse hne =>
    have hall : h.Holds (List.reverse [] ++ idx) := hh
    exact hall.insertLoop hh.chain (Nat.lt_succ_of_le hh.length_le) hroom

-- ==== eviction

theorem lastSlot_eq (hh : h.Holds (passed.reverse ++ c :: ys))
    (hcur : cur = c) (hrounds : ys.length ≤ rounds) :
    ∃ passed' last, passed'.reverse ++ [last] = passed.reverse ++ c :: ys
      ∧ lastSlot rounds h (before passed) cur = (before passed', last) := by
  subst hcur
  induction ys generalizing rounds passed cur with
  | nil =>
    refine ⟨passed, cur, rfl, ?_⟩
    cases rounds with
    | zero => rfl
    | succ rounds => exact if_pos hh.next_eq.1
  | cons n ys ih =>
    obtain ⟨hnext, hother⟩ := hh.next_eq
    rw [List.headD_cons] at hnext
    obtain ⟨rounds, rfl⟩ := Nat.exists_eq_add_one_of_ne_zero
      (Nat.ne_of_gt (Nat.zero_lt_of_lt hrounds))
    have hcells : passed.reverse ++ cur :: n :: ys = (cur :: passed).reverse ++ n :: ys := by simp
    rw [hcells] at hh
    obtain ⟨passed', last, heq, hlast⟩ := ih (Nat.le_of_succ_le_succ hrounds) hh
    refine ⟨passed', last, heq.trans hcells.symm, ?_⟩
    rw [lastSlot, hnext, if_neg (hother n List.mem_cons_self).1]
    exact hlast

theorem Holds.withCutoff (hh : h.Holds idx) (cutoff : Nat) : { h with cutoff }.Holds idx :=
  ⟨hh.chain, hh.slots, hh.count, hh.size_le⟩

theorem view_withCutoff (h : HistorySlots) (cutoff : Nat) :
    { h with cutoff }.view idx = h.view idx := rfl

theorem Holds.unlink_last {last : Nat} (hh : h.Holds (passed.reverse ++ [last])) :
    ((h.link (before passed) npos).removeElement last).Lists (h.view passed.reverse) := by
  obtain ⟨hunlink, hview⟩ := hh.unlink
  rw [next, hh.next_eq.1, List.headD_nil] at hunlink hview
  rw [List.append_nil] at hunlink
  exact ⟨_, hunlink, hview _ hh.notMem.1⟩

theorem Holds.dropOldestRange (hh : h.Holds idx) :
    h.dropOldestRange.Lists (h.view idx).dropLast
      ∧ h.dropOldestRange.rest = (h.maxRanges,
        (h.view idx).getLast?.elim h.cutoff fun e => add64 e.high 1, h.largest,
        h.largestAckedReceived) := by
  rw [HistorySlots.dropOldestRange]
  cases idx with
  | nil =>
    rw [if_pos (hh.head_eq_npos.mpr rfl)]
    exact ⟨⟨[], hh, rfl⟩, rfl⟩
  | cons c idx =>
    rw [if_neg (fun hempty => absurd (hh.head_eq_npos.mp hempty) (by simp))]
    have hlen : idx.length ≤ h.size := Nat.le_of_succ_le hh.length_le
    have hall : h.Holds (List.reverse [] ++ c :: idx) := hh
    obtain ⟨passed, last, hcells, hlast⟩ := lastSlot_eq hall hh.chain.1 hlen
    rw [List.reverse_nil, List.nil_append] at hcells
    rw [← hcells] at hh ⊢
    have hlast' : lastSlot h.size h npos h.head = (before passed, last) := hlast
    rw [hlast']
    have hview : h.view (passed.reverse ++ [last])
        = h.view passed.reverse ++ [(h.elements last).range] := view_append
    rw [hview, List.dropLast_concat, List.getLast?_concat, Option.elim_some]
    have hlist := (hh.withCutoff (add64 (h.elements last).range.high 1)).unlink_last
    rw [view_withCutoff] at hlist
    exact ⟨hlist, link_rest _ _ _⟩

-- ==== cutoff

theorem trim_below (hbelow : e.high < cutoff) :
    ReceiveHistory.trim cutoff e = none := if_pos hbelow

theorem trim_across (hbelow : ¬ e.high < cutoff)
    (hcut : e.low < cutoff) :
    ReceiveHistory.trim cutoff e = some ⟨add64 e.low (toU32 (sub64 cutoff e.low)),
      toU32 (e.count + 2 ^ 32 - toU32 (sub64 cutoff e.low))⟩ := by
  rw [ReceiveHistory.trim, if_neg hbelow, if_pos hcut]

theorem trim_above (hbelow : ¬ e.high < cutoff)
    (hcut : ¬ e.low < cutoff) : ReceiveHistory.trim cutoff e = some e := by
  rw [ReceiveHistory.trim, if_neg hbelow, if_neg hcut]

/-- What the loop does to the slots behind `cur` is to trim the ranges of the list. -/
theorem Holds.stopLoop (hh : h.Holds (passed.reverse ++ ys)) (cutoff : Nat)
    (hcur : cur = ys.headD npos) (hrounds : ys.length < rounds) :
    (HistorySlots.stopLoop rounds h cutoff (before passed) cur).Lists
        ((h.view passed).reverse ++ (h.view ys).filterMap (ReceiveHistory.trim cutoff))
      ∧ (HistorySlots.stopLoop rounds h cutoff (before passed) cur).rest = h.rest := by
  induction ys generalizing h rounds passed cur with
  | nil =>
    obtain ⟨rounds, rfl⟩ := Nat.exists_eq_add_one_of_ne_zero (Nat.ne_of_gt hrounds)
    have hend : cur = npos := hcur
    rw [HistorySlots.stopLoop, if_pos hend]
    exact ⟨⟨_, hh, by rw [view_append, view_reverse]; rfl⟩, rfl⟩
  | cons c ys ih =>
    obtain ⟨rounds, rfl⟩ := Nat.exists_eq_add_one_of_ne_zero
      (Nat.ne_of_gt (Nat.zero_lt_of_lt hrounds))
    replace hrounds : ys.length < rounds := Nat.lt_of_succ_lt_succ hrounds
    obtain rfl : cur = c := hcur
    have hc : cur ≠ npos := hh.ne_npos (by simp)
    obtain ⟨hnext, -⟩ := hh.next_eq
    have hcells (c : Nat) : passed.reverse ++ c :: ys = (c :: passed).reverse ++ ys := by simp
    rw [HistorySlots.stopLoop, if_neg hc, view_cons]
    dsimp only
    by_cases hbelow : (h.elements cur).range.high < cutoff
    · rw [if_pos hbelow, List.filterMap_cons_none (trim_below hbelow)]
      obtain ⟨hunlink, hview⟩ := hh.unlink
      obtain ⟨hnot, hnot'⟩ := hh.notMem
      obtain ⟨hlists, hrest⟩ := ih hunlink hnext hrounds
      rw [hview _ (fun hin => hnot (List.mem_reverse.mpr hin)), hview _ hnot'] at hlists
      exact ⟨hlists, hrest.trans (link_rest _ _ _)⟩
    rw [if_neg hbelow]
    by_cases hcut : (h.elements cur).low < cutoff
    · have htrim : ReceiveHistory.trim cutoff (h.elements cur).range
          = some ⟨add64 (h.elements cur).low (toU32 (sub64 cutoff (h.elements cur).low)),
            toU32 ((h.elements cur).count + 2 ^ 32
              - toU32 (sub64 cutoff (h.elements cur).low))⟩ := trim_across hbelow hcut
      rw [if_pos hcut, List.filterMap_cons_some htrim]
      generalize add64 (h.elements cur).low (toU32 (sub64 cutoff (h.elements cur).low)) = low
      generalize toU32 ((h.elements cur).count + 2 ^ 32
        - toU32 (sub64 cutoff (h.elements cur).low)) = count
      obtain ⟨hset, hxs, hys⟩ := hh.set low count
      rw [hcells] at hset
      obtain ⟨hlists, hrest⟩ := ih hset hnext hrounds
      rw [view_reverse, view_reverse, List.reverse_inj] at hxs
      rw [view_cons, set_elements_self, hxs, hys, List.reverse_cons, List.append_assoc] at hlists
      exact ⟨hlists, hrest⟩
    · rw [if_neg hcut, List.filterMap_cons_some (trim_above hbelow hcut)]
      rw [hcells] at hh
      obtain ⟨hlists, hrest⟩ := ih hh hnext hrounds
      rw [view_cons, List.reverse_cons, List.append_assoc] at hlists
      exact ⟨hlists, hrest⟩

-- ==== the operations

theorem alloc_rest (h : HistorySlots) : h.allocElement.2.rest = h.rest := by
  rw [allocElement]
  cases h.free with
  | nil => rfl
  | cons c free => rfl

@[simp] theorem place_rest (h : HistorySlots) (pn prev cur : Nat) :
    (h.place pn prev cur).rest = h.rest := by
  rw [HistorySlots.place, link_rest, set_rest, alloc_rest]

theorem extendDown_rest (h : HistorySlots) (pn cur : Nat) :
    (h.extendDown pn cur).rest = h.rest := by
  rw [HistorySlots.extendDown, apply_ite rest, removeElement_rest, set_rest, set_rest, ite_self]

theorem extendUp_rest (h : HistorySlots) (pn cur : Nat) : (h.extendUp pn cur).rest = h.rest := by
  rw [HistorySlots.extendUp, apply_ite rest, removeElement_rest, set_rest, set_rest, ite_self]

theorem mergePrev_rest (h : HistorySlots) (pn prev cur : Nat) :
    (h.mergePrev pn prev cur).rest = h.rest := by
  rw [HistorySlots.mergePrev, removeElement_rest, set_rest, set_rest]

theorem insertLoop_rest (rounds : Nat) (h : HistorySlots) (pn prev cur : Nat) :
    (insertLoop rounds h pn prev cur).rest = h.rest := by
  induction rounds generalizing prev cur with
  | zero => rfl
  | succ rounds ih =>
    rw [insertLoop]
    dsimp only
    split
    · exact place_rest ..
    split
    · rfl
    split
    · split
      · exact mergePrev_rest ..
      · exact extendDown_rest ..
    split
    · exact extendUp_rest ..
    split
    · exact place_rest ..
    · exact ih _ _

theorem insertIntoList_rest (h : HistorySlots) (pn : Nat) :
    (h.insertIntoList pn).rest = h.rest := by
  unfold insertIntoList
  split
  · exact place_rest ..
  · exact insertLoop_rest ..

def toHistory (h : HistorySlots) : ReceiveHistory where
  elements := h.ranges
  cutoff := h.cutoff
  largest := h.largest
  maxRanges := h.maxRanges

/-- The slots in use are linked, and they and the free ones are all there are. -/
def Linked (h : HistorySlots) : Prop := ∃ idx, h.Holds idx

theorem Lists.ranges_eq (hl : h.Lists elements) :
    h.ranges = elements := by
  obtain ⟨idx, hh, hview⟩ := hl
  exact hh.ranges_eq.trans hview

theorem Lists.usedCount_eq (hl : h.Lists elements) :
    h.usedCount = elements.length := by
  obtain ⟨idx, hh, hview⟩ := hl
  rw [hh.count, ← hview, view, List.length_map]

theorem linked_new (maxRanges : Nat) : (new maxRanges).Linked :=
  ⟨[], rfl, List.Perm.refl _, rfl, Nat.zero_le _⟩

theorem Lists.toHistory_eq (hl : h.Lists elements)
    {maxRanges cutoff largest at_ : Nat} (hrest : h.rest = (maxRanges, cutoff, largest, at_)) :
    h.toHistory = ⟨elements, cutoff, largest, maxRanges⟩ := by
  have hmax : h.maxRanges = maxRanges := congrArg Prod.fst hrest
  have hcutoff : h.cutoff = cutoff := congrArg (fun r => r.2.1) hrest
  have hlargest : h.largest = largest := congrArg (fun r => r.2.2.1) hrest
  rw [toHistory, hl.ranges_eq, hcutoff, hlargest, hmax]

theorem Linked.lists (hl : h.Linked) : h.Lists h.toHistory.elements :=
  hl.imp fun _ hh => ⟨hh, hh.ranges_eq.symm⟩

theorem Lists.linked (hl : h.Lists elements) : h.Linked :=
  hl.imp fun _ hh => hh.1

theorem Linked.usedCount_eq (hl : h.Linked) : h.usedCount = h.toHistory.elements.length :=
  hl.lists.usedCount_eq

/-- The largest number so far is noted. -/
def note (h : HistorySlots) (pn now : Nat) : HistorySlots :=
  if h.largest < pn then { h with largest := pn, largestAckedReceived := now } else h

theorem Linked.note (hl : h.Linked) (pn now : Nat) :
    (h.note pn now).Linked ∧ (h.note pn now).usedCount = h.usedCount
      ∧ (h.note pn now).toHistory = if h.toHistory.largest < pn then
        { h.toHistory with largest := pn } else h.toHistory := by
  obtain ⟨idx, hh⟩ := hl
  unfold HistorySlots.note
  by_cases hlt : h.largest < pn
  · rw [if_pos hlt, if_pos (show h.toHistory.largest < pn from hlt)]
    have hh' : { h with largest := pn, largestAckedReceived := now }.Holds idx :=
      ⟨hh.chain, hh.slots, hh.count, hh.size_le⟩
    refine ⟨⟨idx, hh'⟩, rfl, ?_⟩
    rw [toHistory, hh'.ranges_eq, toHistory, hh.ranges_eq]
    rfl
  · rw [if_neg hlt, if_neg (show ¬ h.toHistory.largest < pn from hlt)]
    exact ⟨⟨idx, hh⟩, rfl, rfl⟩

theorem Linked.insertIntoList (hl : h.Linked) (pn : Nat) (hroom : h.usedCount < npos) :
    (h.insertIntoList pn).Linked
      ∧ (h.insertIntoList pn).toHistory = h.toHistory.insertIntoList pn := by
  have hlisted : (h.insertIntoList pn).Lists
      (ReceiveHistory.insertFrom pn [] h.toHistory.elements) := by
    obtain ⟨idx, hh, hview⟩ := hl.lists
    exact hview ▸ hh.insertIntoList (hh.count ▸ hroom)
  exact ⟨hlisted.linked, hlisted.toHistory_eq (insertIntoList_rest h pn)⟩

theorem Linked.dropOldestRange (hl : h.Linked) :
    h.dropOldestRange.Linked ∧ h.dropOldestRange.toHistory = h.toHistory.dropOldestRange := by
  obtain ⟨idx, hh, hview⟩ := hl.lists
  obtain ⟨hlisted, hrest⟩ := hh.dropOldestRange
  refine ⟨hlisted.linked, ?_⟩
  rw [hlisted.toHistory_eq hrest, ReceiveHistory.dropOldestRange, ← hview]
  cases hlast : (h.view idx).getLast? with
  | none =>
    have hempty : h.view idx = [] := List.getLast?_eq_none_iff.mp hlast
    have hranges : h.ranges = [] := hview.symm.trans hempty
    rw [hempty, Option.elim_none, toHistory, hranges, List.dropLast_nil]
  | some e => rw [Option.elim_some, toHistory]

theorem Linked.stopWait (hl : h.Linked) (cutoff : Nat) :
    (h.stopWait cutoff).Linked ∧ (h.stopWait cutoff).toHistory = h.toHistory.stopWait cutoff := by
  obtain ⟨idx, hh, hview⟩ := hl.lists
  rw [HistorySlots.stopWait, ReceiveHistory.stopWait]
  by_cases hold : cutoff ≤ h.cutoff
  · rw [if_pos hold, if_pos (show cutoff ≤ h.toHistory.cutoff from hold)]
    exact ⟨hl, rfl⟩
  · rw [if_neg hold, if_neg (show ¬ cutoff ≤ h.toHistory.cutoff from hold), ← hview]
    have hcut : { h with cutoff }.Holds (List.reverse [] ++ idx) := hh.withCutoff cutoff
    have hhead : h.head = idx.headD npos := by
      cases idx with
      | nil => exact hh.chain
      | cons c idx => exact hh.chain.1
    obtain ⟨hlists, hrest⟩ := hcut.stopLoop cutoff hhead (Nat.lt_succ_of_le hh.length_le)
    exact ⟨hlists.linked, hlists.toHistory_eq hrest⟩

theorem Linked.insert (hl : h.Linked) (pn now : Nat) (hroom : h.usedCount < npos) :
    (h.insert pn now).Linked ∧ (h.insert pn now).toHistory = h.toHistory.insert pn := by
  rw [HistorySlots.insert, ReceiveHistory.insert]
  by_cases hold : h.cutoff ≠ 0 ∧ pn < h.cutoff
  · rw [if_pos hold, if_pos (show h.toHistory.cutoff ≠ 0 ∧ pn < h.toHistory.cutoff from hold)]
    exact ⟨hl, rfl⟩
  · rw [if_neg hold, if_neg (show ¬ (h.toHistory.cutoff ≠ 0 ∧ pn < h.toHistory.cutoff) from hold)]
    obtain ⟨hnoted, hused, hnote⟩ := hl.note pn now
    obtain ⟨hlinked, hlist⟩ := hnoted.insertIntoList pn (hused.symm ▸ hroom)
    dsimp only
    rw [← hnote, ← hlist, show (if h.largest < pn then
      { h with largest := pn, largestAckedReceived := now } else h) = h.note pn now from rfl,
      ← hlinked.usedCount_eq, show ((h.note pn now).insertIntoList pn).toHistory.maxRanges
        = ((h.note pn now).insertIntoList pn).maxRanges from rfl]
    split
    · exact hlinked.dropOldestRange
    · exact ⟨hlinked, rfl⟩

end Eular.Utp.HistorySlots
