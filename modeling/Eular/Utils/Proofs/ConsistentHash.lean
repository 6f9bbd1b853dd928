/-
When the ring is what its nodes make it.

A ring is `Canonical` if it holds exactly the points of its live nodes; then
every node owns its points, and what a key maps to is decided by the nodes
alone. A call keeps that exactly if it is `Separate`: no node that is
inserted meets a live node with another value on a point, and no key that is
removed shares a point with a live node of another key.
-/
import Eular.Utils.ConsistentHash

namespace Eular.Utils

open Lib

namespace ConsistentHash

variable {V : Type} {hash : List UInt8 → Nat} {r : ConsistentHash V}

-- ==== the loops

/-- The loop of `insertNode`: the points that were free get the value. -/
theorem foldl_emplace {value : V} (hs : List Nat) :
    ∀ {m : List (Nat × V)}, Sorted Prod.fst m →
      Sorted Prod.fst (hs.foldl (fun m h => emplace Prod.fst (h, value) m) m)
        ∧ ∀ h v, (h, v) ∈ hs.foldl (fun m h => emplace Prod.fst (h, value) m) m
            ↔ (h, v) ∈ m ∨ v = value ∧ h ∈ hs ∧ ∀ w, (h, w) ∉ m := by
  induction hs with
  | nil => exact fun hm => ⟨hm, fun h v => by simp⟩
  | cons point rest ih =>
    intro m hm
    obtain ⟨hsorted, hmem⟩ := ih (sorted_emplace (x := (point, value)) hm)
    refine ⟨hsorted, fun h v => ?_⟩
    have hput : ∀ w, (h, w) ∈ emplace Prod.fst (point, value) m
        ↔ (h, w) ∈ m ∨ (h = point ∧ w = value) ∧ ∀ b ∈ m, b.1 ≠ point :=
      fun w => by rw [mem_emplace hm, Prod.mk.injEq]
    have hfree : (∀ b ∈ m, b.1 ≠ point) ↔ ∀ w, (point, w) ∉ m :=
      ⟨fun hall w hw => hall _ hw rfl, fun hall b hb heq => hall b.2 (heq ▸ hb)⟩
    rw [List.foldl_cons, hmem h v]
    simp only [hput, hfree, List.mem_cons]
    by_cases hthis : h = point
    · subst hthis
      by_cases hnone : ∀ w, (h, w) ∉ m
      · simp [hnone]
      · simp [hnone]
    · simp [hthis]

/-- The loop of `removeNode`. -/
theorem foldl_erase (hs : List Nat) :
    ∀ {m : List (Nat × V)}, Sorted Prod.fst m →
      Sorted Prod.fst (hs.foldl (fun m h => erase Prod.fst h m) m)
        ∧ ∀ h v, (h, v) ∈ hs.foldl (fun m h => erase Prod.fst h m) m ↔ (h, v) ∈ m ∧ h ∉ hs := by
  induction hs with
  | nil => exact fun hm => ⟨hm, fun h v => by simp⟩
  | cons point rest ih =>
    intro m hm
    obtain ⟨hsorted, hmem⟩ := ih (sorted_erase (k := point) hm)
    refine ⟨hsorted, fun h v => ?_⟩
    rw [List.foldl_cons, hmem h v, mem_erase, List.mem_cons, not_or, and_assoc]

theorem insertNode_spec (hash : List UInt8 → Nat) (hm : Sorted Prod.fst r.nodeMap)
    (key : List UInt8) (value : V) :
    Sorted Prod.fst (r.insertNode hash key value).nodeMap
      ∧ ∀ h v, (h, v) ∈ (r.insertNode hash key value).nodeMap
          ↔ (h, v) ∈ r.nodeMap ∨ v = value ∧ h ∈ r.points hash key ∧ ∀ w, (h, w) ∉ r.nodeMap :=
  foldl_emplace _ hm

theorem removeNode_spec (hash : List UInt8 → Nat) (hm : Sorted Prod.fst r.nodeMap)
    (key : List UInt8) :
    Sorted Prod.fst (r.removeNode hash key).nodeMap
      ∧ ∀ h v, (h, v) ∈ (r.removeNode hash key).nodeMap
          ↔ (h, v) ∈ r.nodeMap ∧ h ∉ r.points hash key :=
  foldl_erase _ hm

/-- Of a key whose answer changes when points are added, the answer is one of
these. -/
theorem getNode_of_subset {r' : ConsistentHash V} (hm : Sorted Prod.fst r.nodeMap)
    (hm' : Sorted Prod.fst r'.nodeMap) (hsub : r.nodeMap ⊆ r'.nodeMap) {key : List UInt8}
    (hchange : r'.getNode hash key ≠ r.getNode hash key) :
    ∃ h v, (h, v) ∈ r'.nodeMap ∧ (h, v) ∉ r.nodeMap ∧ r'.getNode hash key = some v := by
  cases hnext : next Prod.fst (hash key) r'.nodeMap with
  | none =>
    have hnil' := next_eq_none hnext
    have hnil : r.nodeMap = [] := List.eq_nil_of_subset_nil (hnil' ▸ hsub)
    refine absurd ?_ hchange
    unfold getNode
    rw [hnil, hnil']
  | some point =>
    obtain ⟨hmem, -⟩ := (next_eq_some hm').mp hnext
    refine ⟨point.1, point.2, hmem, fun hold => hchange ?_, by rw [getNode, hnext]; rfl⟩
    rw [getNode, getNode, hnext, next_of_subset hm hm' hsub hnext hold]

end ConsistentHash

-- ==== canonical

namespace Ring

variable {V : Type} {hash : List UInt8 → Nat} {s : Ring V}

/-- The node owns all of its points. -/
def Owns (hash : List UInt8 → Nat) (s : Ring V) (node : List UInt8 × V) : Prop :=
  ∀ h ∈ s.table.points hash node.1, (h, node.2) ∈ s.table.nodeMap

/-- The ring holds the points of the live nodes, and no others. -/
structure Canonical (hash : List UInt8 → Nat) (s : Ring V) : Prop where
  sorted : Sorted Prod.fst s.table.nodeMap
  mem : ∀ h v, (h, v) ∈ s.table.nodeMap ↔ ∃ node ∈ s.live, node.2 = v
    ∧ h ∈ s.table.points hash node.1

theorem Canonical.owns (h : s.Canonical hash) {node : List UInt8 × V} (hnode : node ∈ s.live) :
    s.Owns hash node :=
  fun point hpoint => (h.mem point node.2).mpr ⟨node, hnode, rfl, hpoint⟩

/-- A call that brings no two nodes together on a point. -/
def Separate (hash : List UInt8 → Nat) (s : Ring V) : RingOp V → Prop
  | .insert key value =>
    ∀ node ∈ s.live, node.2 ≠ value →
      ∀ h ∈ s.table.points hash node.1, h ∉ s.table.points hash key
  | .remove key =>
    ∀ node ∈ s.live, node.1 ≠ key →
      ∀ h ∈ s.table.points hash node.1, h ∉ s.table.points hash key

instance [DecidableEq V] (s : Ring V) (op : RingOp V) : Decidable (s.Separate hash op) := by
  unfold Separate
  split <;> infer_instance

theorem sorted_step (hash : List UInt8 → Nat) (hs : Sorted Prod.fst s.table.nodeMap)
    (op : RingOp V) :
    Sorted Prod.fst (s.step hash op).table.nodeMap := by
  cases op with
  | insert key value => exact (ConsistentHash.insertNode_spec hash hs key value).1
  | remove key => exact (ConsistentHash.removeNode_spec hash hs key).1

theorem Canonical.step (hs : s.Canonical hash) (op : RingOp V) (hop : s.Separate hash op) :
    (s.step hash op).Canonical hash := by
  refine ⟨sorted_step hash hs.sorted op, fun h v => ?_⟩
  cases op with
  | insert key value =>
    show (h, v) ∈ (s.table.insertNode hash key value).nodeMap
      ↔ ∃ node ∈ (key, value) :: s.live, node.2 = v ∧ h ∈ s.table.points hash node.1
    rw [(ConsistentHash.insertNode_spec hash hs.sorted key value).2, hs.mem]
    constructor
    · rintro (⟨node, hnode, hv, hh⟩ | ⟨rfl, hh, -⟩)
      · exact ⟨node, List.mem_cons_of_mem _ hnode, hv, hh⟩
      · exact ⟨(key, v), List.mem_cons_self, rfl, hh⟩
    · rintro ⟨node, hnode, rfl, hh⟩
      rcases List.mem_cons.mp hnode with rfl | hnode
      · by_cases hfree : ∀ w, (h, w) ∉ s.table.nodeMap
        · exact .inr ⟨rfl, hh, hfree⟩
        · -- the point is taken, by a node of the same value
          simp only [not_forall, not_not] at hfree
          obtain ⟨w, hw⟩ := hfree
          obtain ⟨other, hother, hval, hpoint⟩ := (hs.mem h w).mp hw
          by_cases hsame : other.2 = value
          · exact .inl ⟨other, hother, hsame, hpoint⟩
          · exact absurd hh (hop other hother hsame h hpoint)
      · exact .inl ⟨node, hnode, rfl, hh⟩
  | remove key =>
    show (h, v) ∈ (s.table.removeNode hash key).nodeMap
      ↔ ∃ node ∈ s.live.filter (fun node => node.1 ≠ key), node.2 = v
        ∧ h ∈ s.table.points hash node.1
    rw [(ConsistentHash.removeNode_spec hash hs.sorted key).2, hs.mem]
    constructor
    · rintro ⟨⟨node, hnode, hv, hh⟩, hnot⟩
      refine ⟨node, List.mem_filter.mpr ⟨hnode, ?_⟩, hv, hh⟩
      have hne : node.1 ≠ key := fun heq => hnot (heq ▸ hh)
      simpa using hne
    · rintro ⟨node, hnode, hv, hh⟩
      obtain ⟨hlive, hne⟩ := List.mem_filter.mp hnode
      exact ⟨⟨node, hlive, hv, hh⟩, hop node hlive (by simpa using hne) h hh⟩

/-- After a call every live node owns its points exactly if the call is
separate. -/
theorem Canonical.separate_iff (hs : s.Canonical hash) (op : RingOp V) :
    s.Separate hash op ↔ ∀ node ∈ (s.step hash op).live, (s.step hash op).Owns hash node := by
  refine ⟨fun hop node hnode => (hs.step op hop).owns hnode, fun howns => ?_⟩
  have hsorted := sorted_step hash hs.sorted op
  cases op with
  | insert key value =>
    intro node hnode hne h hh hkey
    have hold := howns node (List.mem_cons_of_mem _ hnode) h hh
    have hnew := howns (key, value) List.mem_cons_self h hkey
    have heq := hsorted.eq_of_key hold hnew rfl
    exact hne (congrArg Prod.snd heq)
  | remove key =>
    intro node hnode hne h hh hkey
    have hlive : node ∈ s.live.filter fun node => node.1 ≠ key :=
      List.mem_filter.mpr ⟨hnode, by simpa using hne⟩
    have hkept := howns node hlive h hh
    exact (((ConsistentHash.removeNode_spec hash hs.sorted key).2 h node.2).mp hkept).2 hkey

-- ==== runs

theorem canonical_empty (count : Nat) : (empty V count).Canonical hash :=
  ⟨List.Pairwise.nil, fun h v => by simp [empty]⟩

theorem count_run (ops : List (RingOp V)) (s : Ring V) :
    (run (step hash) s ops).table.virtualNodeCount = s.table.virtualNodeCount := by
  refine run_inv_of_step
    (P := fun t : Ring V => t.table.virtualNodeCount = s.table.virtualNodeCount)
    (fun t op ht => ?_) ops rfl
  cases op <;> exact ht

theorem Canonical.nodeMap_eq {s' : Ring V} (hs : s.Canonical hash) (hs' : s'.Canonical hash)
    (hcount : s'.table.virtualNodeCount = s.table.virtualNodeCount)
    (hlive : ∀ node, node ∈ s'.live ↔ node ∈ s.live) : s'.table.nodeMap = s.table.nodeMap := by
  refine hs'.sorted.eq_of_mem_iff hs.sorted fun point => ?_
  have hpoints : ∀ key, s'.table.points hash key = s.table.points hash key := fun key => by
    rw [ConsistentHash.points, ConsistentHash.points, hcount]
  rw [show point = (point.1, point.2) from rfl, hs.mem, hs'.mem]
  simp only [hlive, hpoints]

/-- A key whose answer changes when a node is inserted is answered by that
node. -/
theorem getNode_insert (hs : Sorted Prod.fst s.table.nodeMap) (node : List UInt8) (value : V)
    {key : List UInt8} (hchange : (s.step hash (.insert node value)).table.getNode hash key
      ≠ s.table.getNode hash key) :
    (s.step hash (.insert node value)).table.getNode hash key = some value := by
  obtain ⟨hsorted, hmem⟩ := ConsistentHash.insertNode_spec hash hs node value
  have hsub : s.table.nodeMap ⊆ (s.table.insertNode hash node value).nodeMap :=
    fun point hpoint => (hmem point.1 point.2).mpr (.inl hpoint)
  obtain ⟨h, v, hnew, hnot, hget⟩ := ConsistentHash.getNode_of_subset hs hsorted hsub hchange
  obtain hold | ⟨rfl, -, -⟩ := (hmem h v).mp hnew
  · exact absurd hold hnot
  · exact hget

/-- A key whose answer changes when a node is removed was answered by that
node. -/
theorem Canonical.getNode_remove (hs : s.Canonical hash) {node : List UInt8}
    (hop : s.Separate hash (.remove node)) {key : List UInt8}
    (hchange : (s.step hash (.remove node)).table.getNode hash key ≠ s.table.getNode hash key) :
    ∃ value, (node, value) ∈ s.live ∧ s.table.getNode hash key = some value := by
  obtain ⟨hsorted, hmem⟩ := ConsistentHash.removeNode_spec hash hs.sorted node
  have hsub : (s.table.removeNode hash node).nodeMap ⊆ s.table.nodeMap :=
    fun point hpoint => ((hmem point.1 point.2).mp hpoint).1
  obtain ⟨h, v, hold, hgone, hget⟩ :=
    ConsistentHash.getNode_of_subset hsorted hs.sorted hsub hchange.symm
  have hpoint : h ∈ s.table.points hash node := by
    by_contra hnot
    exact hgone ((hmem h v).mpr ⟨hold, hnot⟩)
  obtain ⟨owner, howner, rfl, hown⟩ := (hs.mem h v).mp hold
  by_cases hsame : owner.1 = node
  · exact ⟨owner.2, hsame ▸ howner, hget⟩
  · exact absurd hpoint (hop owner howner hsame h hown)

/-- Every node owns its points after every call exactly if the calls are
separate; and after such calls the answers depend on the live nodes alone,
and change for the keys of a node that comes or goes only. -/
theorem run_separate_iff (hash : List UInt8 → Nat) (count : Nat) (ops : List (RingOp V)) :
    (Meets (step hash) (Separate hash) (empty V count) ops
      ↔ Meets (step hash) (fun s op =>
        ∀ node ∈ (s.step hash op).live, (s.step hash op).Owns hash node)
          (empty V count) ops)
    ∧ (Meets (step hash) (Separate hash) (empty V count) ops →
        (∀ node ∈ (run (step hash) (empty V count) ops).live,
          (run (step hash) (empty V count) ops).Owns hash node)
        ∧ (∀ ops', Meets (step hash) (Separate hash) (empty V count) ops' →
            (∀ node, node ∈ (run (step hash) (empty V count) ops').live
              ↔ node ∈ (run (step hash) (empty V count) ops).live) →
            ∀ key, (run (step hash) (empty V count) ops').table.getNode hash key
              = (run (step hash) (empty V count) ops).table.getNode hash key)
        ∧ (∀ node value key,
            (run (step hash) (empty V count) (ops ++ [.insert node value])).table.getNode hash key
                ≠ (run (step hash) (empty V count) ops).table.getNode hash key →
              (run (step hash) (empty V count) (ops ++ [.insert node value])).table.getNode hash key
                = some value)
        ∧ ∀ node, (run (step hash) (empty V count) ops).Separate hash (.remove node) → ∀ key,
            (run (step hash) (empty V count) (ops ++ [.remove node])).table.getNode hash key
                ≠ (run (step hash) (empty V count) ops).table.getNode hash key →
              ∃ value, (node, value) ∈ (run (step hash) (empty V count) ops).live
                ∧ (run (step hash) (empty V count) ops).table.getNode hash key = some value) := by
  have hstep : ∀ (s : Ring V) op, s.Canonical hash → s.Separate hash op →
      (s.step hash op).Canonical hash := fun s op hs hop => hs.step op hop
  refine ⟨(meets_congr (fun s op hs => (hs.separate_iff op).symm) hstep
    (canonical_empty count)).symm, fun hops => ?_⟩
  have hcanonical := run_inv hstep (canonical_empty count) hops
  refine ⟨fun node hnode => hcanonical.owns hnode, fun ops' hops' hlive key => ?_, ?_, ?_⟩
  · have hcanonical' := run_inv hstep (canonical_empty count) hops'
    have hmap := hcanonical.nodeMap_eq hcanonical' (by rw [count_run, count_run]) hlive
    rw [ConsistentHash.getNode, ConsistentHash.getNode, hmap]
  · intro node value key hchange
    rw [run_append] at hchange ⊢
    exact getNode_insert hcanonical.sorted node value hchange
  · intro node hop key hchange
    rw [run_append] at hchange
    exact hcanonical.getNode_remove hop hchange

/-- "crt" and "aaia" meet on several points; with the one the other loses
them. -/
theorem not_owns_crt_aaia :
    ¬ ∀ node ∈ (run (step FNVHash) (empty Nat 17)
        [.insert [0x63, 0x72, 0x74] 1, .insert [0x61, 0x61, 0x69, 0x61] 2,
          .remove [0x63, 0x72, 0x74]]).live,
      (run (step FNVHash) (empty Nat 17)
        [.insert [0x63, 0x72, 0x74] 1, .insert [0x61, 0x61, 0x69, 0x61] 2,
          .remove [0x63, 0x72, 0x74]]).Owns FNVHash node := by
  unfold Owns
  decide +kernel

end Ring

end Eular.Utils
