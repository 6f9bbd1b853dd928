/-
The ring is a queue with room.

The places of the block in ring order (`slots`) hold first what is queued and
then the room behind it (`queue`). The views are these places, of a window of
the order (`places_split`), so what is seen through them is a part of the
queue and what is stored through them a part of the room. `produce` and
`consume` move the border and the start; growth copies the queue to the front
of the new block. Each call thus does to the queue what is asked of it
(`serves_call`), and so does every run (`ring_refines`).
-/
import Eular.Lib.RoomyQueue
import Eular.Lib.Run
import Eular.Utp.Stream.RingBuffer

namespace Eular.Utp

open Eular.Lib

-- ==== views

theorem places_cons (v : View) (views : List View) :
    places (v :: views) = (List.range v.len).map (fun i => v.start + i) ++ places views :=
  List.flatMap_cons

theorem copyOut_eq (buffer : Memory) (views : List View) :
    copyOut buffer views = (places views).map buffer := by
  simp only [copyOut, places, List.map_flatMap, List.map_map]
  rfl

theorem copyIn_of_not_mem {views : List View} {place : Nat} (h : place ∉ places views) :
    ∀ (buffer : Memory) (data : List UInt8), copyIn buffer views data place = buffer place := by
  induction views with
  | nil => intro buffer data; rfl
  | cons v views ih =>
    intro buffer data
    rw [places_cons, List.mem_append, not_or] at h
    rw [copyIn, ih h.2]
    unfold writeMem
    split
    case isFalse => rfl
    case isTrue hstart =>
      have hout : ¬ place - v.start < v.len := by
        intro hlt
        exact h.1 (List.mem_map.mpr ⟨place - v.start, List.mem_range.mpr hlt, by omega⟩)
      apply List.getD_eq_default
      rw [List.length_take]
      omega

theorem map_copyIn {views : List View} (hnodup : (places views).Nodup) :
    ∀ (buffer : Memory) {data : List UInt8}, (places views).length ≤ data.length →
      (places views).map (copyIn buffer views data) = data.take (places views).length := by
  induction views with
  | nil => intro buffer data _; rfl
  | cons v views ih =>
    intro buffer data hlen
    rw [places_cons] at hnodup hlen ⊢
    rw [List.length_append, List.length_map, List.length_range] at hlen
    obtain ⟨-, hrest, hapart⟩ := List.nodup_append.mp hnodup
    have hfirst : ((List.range v.len).map fun i => v.start + i).map
          (copyIn buffer (v :: views) data)
        = readMem (writeMem buffer v.start (data.take v.len)) v.start v.len := by
      rw [List.map_map]
      apply List.map_congr_left
      intro i hi
      have hnot : v.start + i ∉ places views := fun hmem =>
        hapart _ (List.mem_map_of_mem hi) _ hmem rfl
      exact copyIn_of_not_mem hnot _ _
    have htake : (data.take v.len).length = v.len := by
      rw [List.length_take]
      omega
    have hread := readMem_writeMem buffer v.start (data.take v.len)
    rw [htake] at hread
    rw [List.map_append, hfirst, hread, copyIn, ih hrest _ (by rw [List.length_drop]; omega),
      List.length_append, List.length_map, List.length_range, List.take_add]

-- ==== slots

namespace RingBuffer

/-- The block is as large as it says, and its places are within it. -/
structure WellFormed (m : RingBuffer) : Prop where
  head_lt : m.head < max m.capacity 1
  size_le : m.size ≤ m.capacity
  capacity_le : m.capacity ≤ maxAlloc

/-- `n` places from the `k`th on, in the order of the ring. -/
def slots (m : RingBuffer) (k n : Nat) : List Nat :=
  (List.range n).map fun i => (m.head + (k + i)) % m.capacity

/-- What is queued, and what lies in the room. -/
def queue (m : RingBuffer) : RoomyQueue UInt8 where
  contents := (m.slots 0 m.size).map m.buffer
  room := (m.slots m.size m.freeSize).map m.buffer

variable {m : RingBuffer} {k n : Nat}

@[simp] theorem length_slots : (m.slots k n).length = n := by simp [slots]

@[simp] theorem length_contents : m.queue.contents.length = m.size := by simp [queue]

@[simp] theorem length_room : m.queue.room.length = m.freeSize := by simp [queue]

theorem slots_add (a b : Nat) : m.slots k (a + b) = m.slots k a ++ m.slots (k + a) b := by
  simp only [slots, List.range_add, List.map_append, List.map_map, Nat.add_assoc]
  rfl

theorem take_slots (a : Nat) : (m.slots k n).take a = m.slots k (min a n) := by
  rcases Nat.le_total a n with h | h
  · obtain ⟨rest, rfl⟩ := Nat.exists_eq_add_of_le h
    rw [slots_add, min_eq_left h, List.take_left' length_slots]
  · rw [min_eq_right h, List.take_of_length_le (by rw [length_slots]; exact h)]

theorem drop_slots (a : Nat) : (m.slots k n).drop a = m.slots (k + a) (n - a) := by
  rcases Nat.le_total a n with h | h
  · obtain ⟨rest, rfl⟩ := Nat.exists_eq_add_of_le h
    rw [slots_add, Nat.add_sub_cancel_left, List.drop_left' length_slots]
  · rw [Nat.sub_eq_zero_of_le h, List.drop_of_length_le (by rw [length_slots]; exact h)]
    rfl

theorem nodup_slots (h : k + n ≤ m.capacity) : (m.slots k n).Nodup := by
  apply List.Nodup.map_on _ List.nodup_range
  intro i hi j hj hij
  have hi := List.mem_range.mp hi
  have hj := List.mem_range.mp hj
  have hmod : k + i ≡ k + j [MOD m.capacity] := Nat.ModEq.add_left_cancel' m.head hij
  have heq := hmod.eq_of_lt_of_lt (by omega) (by omega)
  omega

theorem slots_apart (a : Nat) {b : Nat} (h : k + (a + b) ≤ m.capacity) :
    ∀ place ∈ m.slots k a, place ∉ m.slots (k + a) b := by
  have hnodup := nodup_slots h
  rw [slots_add] at hnodup
  intro place hfirst hsecond
  exact (List.nodup_append.mp hnodup).2.2 place hfirst place hsecond rfl

theorem slots_lt (hcapacity : 0 < m.capacity) : ∀ place ∈ m.slots k n, place < m.capacity := by
  intro place h
  obtain ⟨i, -, rfl⟩ := List.mem_map.mp h
  exact Nat.mod_lt _ hcapacity

/-- The views of `bytes` places from the `k`th on. -/
theorem places_split (hcapacity : 0 < m.capacity) (hn : n ≤ m.capacity) :
    places (m.split ((m.head + k) % m.capacity) n) = m.slots k n := by
  have hstart := Nat.mod_lt (m.head + k) hcapacity
  have hmod (i : Nat) : (m.head + (k + i)) % m.capacity
      = ((m.head + k) % m.capacity + i) % m.capacity := by
    rw [Nat.mod_add_mod, Nat.add_assoc]
  simp only [slots, hmod]
  generalize (m.head + k) % m.capacity = start at hstart
  have hfirst {len : Nat} (hlen : len ≤ m.capacity - start) :
      (List.range len).map (fun i => (start + i) % m.capacity)
        = (List.range len).map fun i => start + i := by
    apply List.map_congr_left
    intro i hi
    have hi := List.mem_range.mp hi
    exact Nat.mod_eq_of_lt (by omega)
  unfold split
  dsimp only
  split
  case isTrue hwraps =>
    obtain ⟨rest, rfl⟩ : ∃ rest, n = (m.capacity - start) + rest :=
      ⟨n - (m.capacity - start), by omega⟩
    rw [min_eq_right (Nat.le_add_right _ _), Nat.add_sub_cancel_left, List.range_add,
      List.map_append, hfirst le_rfl, places_cons, places_cons, List.map_map]
    congr 1
    simp only [places, List.flatMap_nil, List.append_nil]
    apply List.map_congr_left
    intro i hi
    have hi := List.mem_range.mp hi
    have hround : start + (m.capacity - start + i) = i + m.capacity := by omega
    dsimp only [Function.comp]
    rw [hround, Nat.add_mod_right, Nat.mod_eq_of_lt (by omega), Nat.zero_add]
  case isFalse hwhole =>
    have hle : n ≤ m.capacity - start := by omega
    rw [min_eq_left hle, places_cons, hfirst hle]
    simp [places]

theorem sum_mod {a b : Nat} (ha : a ≤ maxAlloc) (hb : b ≤ maxAlloc) :
    (a + b) % 2 ^ 64 = a + b := by
  apply Nat.mod_eq_of_lt
  unfold maxAlloc at ha hb
  omega

theorem WellFormed.head_le (h : m.WellFormed) : m.head ≤ maxAlloc := by
  have hhead := h.head_lt
  have hcapacity := h.capacity_le
  unfold maxAlloc at *
  omega

theorem places_readableViewsFrom (h : m.WellFormed) (startOffset maxBytes : Nat) :
    places (m.readableViewsFrom startOffset maxBytes)
      = ((m.slots 0 m.size).drop startOffset).take maxBytes := by
  have hsize := h.size_le
  rw [drop_slots, take_slots, Nat.zero_add]
  unfold readableViewsFrom
  split
  case isTrue hnone =>
    have hzero : min maxBytes (m.size - startOffset) = 0 := by omega
    rw [hzero]
    rfl
  case isFalse hsome =>
    dsimp only
    rw [sum_mod h.head_le (by have := h.capacity_le; omega)]
    exact places_split (by omega) (by omega)

theorem places_readableViews (h : m.WellFormed) (maxBytes : Nat) :
    places (m.readableViews maxBytes) = (m.slots 0 m.size).take maxBytes := by
  have hsize := h.size_le
  have hhead := h.head_lt
  rw [take_slots]
  unfold readableViews
  split
  case isTrue hnone =>
    have hzero : min maxBytes m.size = 0 := by omega
    rw [hzero]
    rfl
  case isFalse hsome =>
    have hstart : m.head = (m.head + 0) % m.capacity := (Nat.mod_eq_of_lt (by omega)).symm
    conv_lhs => rw [hstart]
    exact places_split (by omega) (by omega)

theorem places_writableViews (h : m.WellFormed) (maxBytes : Nat) :
    places (m.writableViews maxBytes) = (m.slots m.size m.freeSize).take maxBytes := by
  have hsize := h.size_le
  have hfree : m.freeSize = m.capacity - m.size := rfl
  rw [take_slots]
  unfold writableViews
  split
  case isTrue hnone =>
    have hzero : min maxBytes m.freeSize = 0 := by omega
    rw [hzero]
    rfl
  case isFalse hsome =>
    rw [sum_mod h.head_le (by have := h.capacity_le; omega)]
    exact places_split (by omega) (by omega)

theorem seen_readableViewsFrom (h : m.WellFormed) (startOffset maxBytes : Nat) :
    copyOut m.buffer (m.readableViewsFrom startOffset maxBytes)
      = (m.queue.contents.drop startOffset).take maxBytes := by
  rw [copyOut_eq, places_readableViewsFrom h, List.map_take, List.map_drop]
  rfl

theorem seen_readableViews (h : m.WellFormed) (maxBytes : Nat) :
    copyOut m.buffer (m.readableViews maxBytes) = m.queue.contents.take maxBytes := by
  rw [copyOut_eq, places_readableViews h, List.map_take]
  rfl

theorem granted_writableViews (h : m.WellFormed) (maxBytes : Nat) :
    (places (m.writableViews maxBytes)).length = min maxBytes m.queue.room.length := by
  rw [places_writableViews h, List.length_take, length_slots, length_room]

-- ==== calls

theorem queue_produce (h : m.WellFormed) (hn : n ≤ maxAlloc) :
    (m.produce n).WellFormed ∧ (m.produce n).queue = m.queue.push n := by
  have hsize := h.size_le
  have hcapacity := h.capacity_le
  have hnew : (m.produce n).size = m.size + min n m.freeSize := by
    have hsum : (m.size + n) % 2 ^ 64 = m.size + n := sum_mod (by omega) hn
    simp only [produce, hsum, freeSize]
    omega
  have hfree : (m.produce n).freeSize = m.freeSize - n := by
    unfold freeSize at *
    rw [hnew]
    simp only [produce]
    omega
  have hslots (k n' : Nat) : (m.produce n).slots k n' = m.slots k n' := rfl
  constructor
  · exact ⟨h.head_lt, by rw [hnew]; simp only [produce, freeSize]; omega, h.capacity_le⟩
  · unfold queue RoomyQueue.push
    dsimp only
    rw [hslots, hslots, hnew, hfree, slots_add, List.map_append, Nat.zero_add, ← List.map_take,
      take_slots, ← List.map_drop, drop_slots]
    congr 2
    rcases Nat.le_total n m.freeSize with hle | hle
    · rw [min_eq_left hle]
    · rw [Nat.sub_eq_zero_of_le hle]
      rfl

theorem slots_round : m.slots (k + m.capacity) n = m.slots k n := by
  apply List.map_congr_left
  intro i _
  have hround : m.head + (k + m.capacity + i) = m.head + (k + i) + m.capacity := by omega
  rw [hround, Nat.add_mod_right]

theorem slots_consume (h : m.WellFormed) (hcapacity : 0 < m.capacity) (n k len : Nat) :
    (m.consume n).slots k len = m.slots (min n m.size + k) len := by
  have hmod : (m.head + min n m.size) % 2 ^ 64 = m.head + min n m.size :=
    sum_mod h.head_le (by have := h.size_le; have := h.capacity_le; omega)
  apply List.map_congr_left
  intro i _
  simp only [consume, if_pos (Nat.pos_iff_ne_zero.mp hcapacity), hmod, Nat.mod_add_mod]
  congr 1
  omega

theorem queue_consume (h : m.WellFormed) (n : Nat) :
    (m.consume n).WellFormed ∧ (m.consume n).queue = m.queue.pop n := by
  have hsize := h.size_le
  have hnew : (m.consume n).size = m.size - min n m.size := rfl
  rcases Nat.eq_zero_or_pos m.capacity with hnone | hcapacity
  · have hempty : m.size = 0 := by omega
    have hsame : m.consume n = m := by
      obtain ⟨buffer, capacity, head, size⟩ := m
      dsimp only at hnone hempty
      subst hnone hempty
      simp [consume]
    have hqueue : m.queue = ⟨[], []⟩ := by
      simp [queue, slots, freeSize, hempty, hnone]
    rw [hsame, hqueue]
    exact ⟨h, by simp [RoomyQueue.pop]⟩
  · constructor
    · refine ⟨?_, by rw [hnew]; exact (Nat.sub_le _ _).trans hsize, h.capacity_le⟩
      have hlt := Nat.mod_lt ((m.head + min n m.size) % 2 ^ 64) hcapacity
      simp only [consume, if_pos (Nat.pos_iff_ne_zero.mp hcapacity)]
      omega
    · have hfree : (m.consume n).freeSize = m.freeSize + min n m.size := by
        unfold freeSize
        rw [hnew]
        simp only [consume]
        omega
      have hcontents : (m.consume n).slots 0 (m.consume n).size = (m.slots 0 m.size).drop n := by
        rw [slots_consume h hcapacity, hnew, drop_slots, Nat.zero_add, Nat.add_zero]
        rcases Nat.le_total n m.size with hle | hle
        · rw [min_eq_left hle]
        · rw [min_eq_right hle, Nat.sub_self, Nat.sub_eq_zero_of_le hle]
          rfl
      have hroom : (m.consume n).slots (m.consume n).size (m.consume n).freeSize
          = m.slots m.size m.freeSize ++ (m.slots 0 m.size).take n := by
        have hborder : min n m.size + (m.size - min n m.size) = m.size := by omega
        have hround : m.size + m.freeSize = 0 + m.capacity := by
          unfold freeSize
          omega
        rw [slots_consume h hcapacity, hnew, hfree, hborder, slots_add, hround, slots_round,
          take_slots]
      unfold queue RoomyQueue.pop
      dsimp only
      rw [hcontents, hroom, List.map_drop, List.map_append, List.map_take]
      rfl

theorem queue_store (h : m.WellFormed) (maxBytes i : Nat) (byte : UInt8) :
    (m.store maxBytes i byte).WellFormed
      ∧ (m.store maxBytes i byte).queue
        = if i < min maxBytes m.queue.room.length then m.queue.store i byte else m.queue := by
  have hsize := h.size_le
  have hlen := granted_writableViews h maxBytes
  unfold store
  split
  case h_2 hnone =>
    have hout := List.getElem?_eq_none_iff.mp hnone
    rw [if_neg (by omega)]
    exact ⟨h, rfl⟩
  case h_1 place hplace =>
    obtain ⟨hi, hplace⟩ := List.getElem?_eq_some_iff.mp hplace
    rw [if_pos (by omega)]
    refine ⟨⟨h.head_lt, h.size_le, h.capacity_le⟩, ?_⟩
    have hfree : m.size + m.freeSize = m.capacity := by
      unfold freeSize
      omega
    have hroom : i < (m.slots m.size m.freeSize).length := by
      rw [length_slots, ← length_room]
      omega
    have hslot : (m.slots m.size m.freeSize)[i] = place := by
      simp only [places_writableViews h, List.getElem_take] at hplace
      exact hplace
    have hmem : place ∈ m.slots m.size m.freeSize := by
      rw [← hslot]
      exact List.getElem_mem hroom
    have hcontents : (m.slots 0 m.size).map (Function.update m.buffer place byte)
        = (m.slots 0 m.size).map m.buffer := by
      apply List.map_congr_left
      intro other hother
      apply Function.update_of_ne
      rintro rfl
      have hapart := slots_apart (k := 0) m.size (b := m.freeSize) (by omega) other hother
      rw [Nat.zero_add] at hapart
      exact hapart hmem
    have hstored : (m.slots m.size m.freeSize).map (Function.update m.buffer place byte)
        = ((m.slots m.size m.freeSize).map m.buffer).set i byte := by
      apply List.ext_getElem (by simp)
      intro j hj _
      rw [List.length_map] at hj
      rw [List.getElem_map, List.getElem_set, List.getElem_map]
      split
      case isTrue hij =>
        subst hij
        rw [hslot, Function.update_self]
      case isFalse hij =>
        apply Function.update_of_ne
        intro heq
        have hnodup : (m.slots m.size m.freeSize).Nodup := nodup_slots (by omega)
        exact hij (hnodup.getElem_inj_iff.mp (heq.trans hslot.symm)).symm
    unfold queue RoomyQueue.store
    dsimp only
    rw [← hstored, ← hcontents]
    rfl

theorem grown_spec {rounds newCap required cap : Nat}
    (h : grown rounds newCap required = some cap) :
    required ≤ cap ∧ (cap = newCap ∨ newCap < required) := by
  induction rounds generalizing newCap with
  | zero => exact absurd h (by simp [grown])
  | succ rounds ih =>
    rw [grown] at h
    split at h
    case isTrue hless => exact ⟨(ih h).1, .inr hless⟩
    case isFalse hmore =>
      obtain rfl := Option.some.inj h
      exact ⟨not_lt.mp hmore, .inl rfl⟩

theorem grown_some (rounds newCap : Nat) {required : Nat} (hle : required ≤ 2 ^ 62)
    (hrounds : required ≤ newCap * 2 ^ rounds) :
    ∃ cap, grown (rounds + 1) newCap required = some cap ∧ (cap = newCap ∨ cap < 2 ^ 63) := by
  induction rounds generalizing newCap with
  | zero =>
    rw [pow_zero, Nat.mul_one] at hrounds
    exact ⟨newCap, by rw [grown, if_neg (not_lt.mpr hrounds)], .inl rfl⟩
  | succ rounds ih =>
    rw [grown]
    split
    case isTrue hless =>
      have hdouble : newCap * 2 % 2 ^ 64 = newCap * 2 := Nat.mod_eq_of_lt (by omega)
      rw [hdouble]
      obtain ⟨cap, hcap, hlt⟩ := ih (newCap * 2) (by
        rw [pow_succ] at hrounds
        linarith)
      exact ⟨cap, hcap, .inr (by omega)⟩
    case isFalse hmore => exact ⟨newCap, rfl, .inl rfl⟩

end RingBuffer

/-- A queue that has been made room in. -/
structure Grows (n : Nat) (q q' : RoomyQueue UInt8) : Prop where
  contents : q'.contents = q.contents
  capacity : q.capacity ≤ q'.capacity
  kept : n ≤ q.room.length → q' = q
  room : q.contents.length + n < 2 ^ 64 → n ≤ q'.room.length

namespace RingBuffer

variable {m : RingBuffer} {k n : Nat}
variable {memory : Option Memory}

theorem queue_moved (h : m.WellFormed) (newBuffer : Memory) {cap : Nat} (hsize : m.size ≤ cap)
    (hcap : cap ≤ maxAlloc) :
    let moved : RingBuffer := { m with
      buffer := writeMem newBuffer 0 (copyOut m.buffer (m.readableViews m.size))
      capacity := cap
      head := 0 }
    moved.WellFormed ∧ moved.queue.contents = m.queue.contents := by
  intro moved
  refine ⟨⟨by simp only [moved]; omega, hsize, hcap⟩, ?_⟩
  have hcopied : copyOut m.buffer (m.readableViews m.size) = m.queue.contents := by
    rw [seen_readableViews h, List.take_of_length_le (by rw [length_contents])]
  have hread := readMem_writeMem newBuffer 0 m.queue.contents
  rw [length_contents] at hread
  rw [← hread, ← hcopied]
  simp only [queue, slots, readMem, List.map_map, moved]
  apply List.map_congr_left
  intro i hi
  have hi := List.mem_range.mp hi
  dsimp only [Function.comp]
  rw [Nat.zero_add, Nat.zero_add, Nat.mod_eq_of_lt (by omega)]

theorem queue_ensureFree (h : m.WellFormed) {m' : RingBuffer}
    (hcall : m.ensureFree memory n = some m') : m'.WellFormed ∧ Grows n m.queue m'.queue := by
  have hsize := h.size_le
  unfold ensureFree at hcall
  split at hcall
  case isTrue hroom =>
    obtain rfl := Option.some.inj hcall
    exact ⟨h, ⟨rfl, le_rfl, fun _ => rfl, fun _ => by rw [length_room]; exact hroom⟩⟩
  case isFalse hroom =>
    obtain ⟨cap, hcap, hcall⟩ := Option.bind_eq_some_iff.mp hcall
    obtain ⟨newBuffer, hnew, hcall⟩ := Option.bind_eq_some_iff.mp hcall
    obtain rfl := Option.some.inj hcall
    unfold newBlock at hnew
    split at hnew
    case isFalse => exact absurd hnew (by simp)
    case isTrue hlimit =>
      obtain ⟨hrequired, hgrown⟩ := grown_spec hcap
      have hle : m.capacity ≤ cap := by omega
      obtain ⟨hwell, hcontents⟩ := queue_moved h newBuffer (hsize.trans hle) hlimit
      refine ⟨hwell, ⟨hcontents, ?_, ?_, ?_⟩⟩
      · simp only [RoomyQueue.capacity, length_contents, length_room, freeSize]
        omega
      · intro hkept
        rw [length_room] at hkept
        exact absurd hkept hroom
      · intro hnowrap
        rw [length_contents] at hnowrap
        rw [Nat.mod_eq_of_lt hnowrap] at hrequired
        rw [length_room]
        simp only [freeSize]
        omega

theorem ensureFree_none (h : m.WellFormed)
    (hcall : m.ensureFree memory n = none) :
    m.freeSize < n ∧ (memory = none ∨ 2 ^ 62 < m.size + n) := by
  have hcapacity := h.capacity_le
  unfold ensureFree at hcall
  split at hcall
  case isTrue => exact absurd hcall (by simp)
  case isFalse hroom =>
    refine ⟨not_le.mp hroom, ?_⟩
    by_contra hserved
    obtain ⟨hmemory, hle⟩ := not_or.mp hserved
    obtain ⟨newBuffer, rfl⟩ := Option.ne_none_iff_exists'.mp hmemory
    have hrequired : (m.size + n) % 2 ^ 64 = m.size + n := Nat.mod_eq_of_lt (by omega)
    obtain ⟨cap, hcap, hlt⟩ := grown_some 64 (max m.capacity 1) (not_lt.mp hle) (by omega)
    have hlimit : cap ≤ maxAlloc := by
      unfold maxAlloc at *
      omega
    rw [← hrequired] at hcap
    have hblock : newBlock (some newBuffer) cap = some newBuffer := if_pos hlimit
    simp only [hcap, hblock, Option.bind_eq_bind, Option.bind_some, reduceCtorEq] at hcall

theorem queue_filled (h : m.WellFormed) (data : List UInt8) :
    let filled : RingBuffer :=
      { m with buffer := copyIn m.buffer (m.writableViews data.length) data }
    filled.WellFormed ∧ filled.queue = m.queue.fill (data.take (min data.length m.freeSize)) := by
  intro filled
  refine ⟨⟨h.head_lt, h.size_le, h.capacity_le⟩, ?_⟩
  have hsize := h.size_le
  have hplaces : places (m.writableViews data.length)
      = m.slots m.size (min data.length m.freeSize) := by
    rw [places_writableViews h, take_slots]
  generalize hwritten : min data.length m.freeSize = written at hplaces ⊢
  have hfree : m.size + m.freeSize = m.capacity := by
    unfold freeSize
    omega
  have hle : written ≤ m.freeSize := hwritten ▸ min_le_right _ _
  obtain ⟨rest, hrest⟩ := Nat.exists_eq_add_of_le hle
  have hkept {k n : Nat}
      (hapart : ∀ place ∈ m.slots k n, place ∉ m.slots m.size written) :
      (m.slots k n).map filled.buffer = (m.slots k n).map m.buffer := by
    apply List.map_congr_left
    intro place hplace
    apply copyIn_of_not_mem
    rw [hplaces]
    exact hapart place hplace
  have hcontents : (m.slots 0 m.size).map filled.buffer = (m.slots 0 m.size).map m.buffer := by
    apply hkept
    have hapart := slots_apart (m := m) (k := 0) m.size (b := written) (by omega)
    rwa [Nat.zero_add] at hapart
  have hnew : (m.slots m.size written).map filled.buffer = data.take written := by
    have hnodup : (places (m.writableViews data.length)).Nodup := by
      rw [hplaces]
      exact nodup_slots (by omega)
    have hlen : (places (m.writableViews data.length)).length ≤ data.length := by
      rw [hplaces, length_slots, ← hwritten]
      exact min_le_left _ _
    have hmap := map_copyIn hnodup m.buffer hlen
    rw [hplaces, length_slots] at hmap
    exact hmap
  have hrestKept : (m.slots (m.size + written) rest).map filled.buffer
      = (m.slots (m.size + written) rest).map m.buffer := by
    apply hkept
    intro place hplace hmem
    exact slots_apart written (by omega) place hmem hplace
  have hlen : (data.take written).length = written := by
    rw [List.length_take]
    omega
  unfold queue RoomyQueue.fill
  dsimp only
  rw [hlen, ← hcontents, ← List.map_drop, drop_slots, hrest, Nat.add_sub_cancel_left, ← hrestKept,
    ← hnew, ← List.map_append, ← slots_add, ← hrest]
  rfl

theorem queue_write (h : m.WellFormed) {data : List UInt8}
    {written : Nat} {m' : RingBuffer} (hcall : m.write memory data = some (written, m')) :
    m'.WellFormed ∧ ∃ grown, Grows data.length m.queue grown
      ∧ written = min data.length grown.room.length
      ∧ m'.queue = (grown.fill (data.take written)).push written := by
  unfold write at hcall
  split at hcall
  case isTrue hempty =>
    obtain ⟨rfl, rfl⟩ := Prod.mk.inj (Option.some.inj hcall)
    refine ⟨h, m.queue, ⟨rfl, le_rfl, fun _ => rfl, fun _ => ?_⟩, ?_, ?_⟩
    · rw [hempty]
      exact Nat.zero_le _
    · rw [hempty, Nat.zero_min]
    · simp [RoomyQueue.fill, RoomyQueue.push]
  case isFalse =>
    obtain ⟨large, hlarge, hcall⟩ := Option.bind_eq_some_iff.mp hcall
    obtain ⟨rfl, rfl⟩ := Prod.mk.inj (Option.some.inj hcall)
    obtain ⟨hwell, hgrows⟩ := queue_ensureFree h hlarge
    obtain ⟨hfilled, hqueue⟩ := queue_filled hwell data
    have hwritten : (places (large.writableViews data.length)).length
        = min data.length large.freeSize := by
      rw [granted_writableViews hwell, length_room]
    have hlimit : min data.length large.freeSize ≤ maxAlloc := by
      have hcapacity := hwell.capacity_le
      unfold freeSize
      omega
    obtain ⟨hproduced, hpushed⟩ := queue_produce hfilled (n := min data.length large.freeSize)
      hlimit
    rw [hqueue] at hpushed
    rw [hwritten]
    exact ⟨hproduced, large.queue, hgrows, by rw [length_room], hpushed⟩

theorem write_none (h : m.WellFormed) {data : List UInt8}
    (hcall : m.write memory data = none) :
    m.freeSize < data.length ∧ (memory = none ∨ 2 ^ 62 < m.size + data.length) := by
  unfold write at hcall
  split at hcall
  case isTrue => exact absurd hcall (by simp)
  case isFalse =>
    rcases Option.eq_none_or_eq_some (m.ensureFree memory data.length) with hnone | ⟨large, hlarge⟩
    · exact ensureFree_none h hnone
    · simp [hlarge] at hcall

theorem queue_read (h : m.WellFormed) (len : Nat) :
    (m.read len).1 = m.queue.contents.take len ∧ (m.read len).2.WellFormed
      ∧ (m.read len).2.queue = m.queue.pop len := by
  unfold read
  split
  case isTrue hzero =>
    rw [hzero, List.take_zero]
    exact ⟨rfl, h, by simp [RoomyQueue.pop]⟩
  case isFalse =>
    have hsame : m.consume (min len m.size) = m.consume len := by
      simp only [consume, min_assoc, min_self]
    have hcopied := seen_readableViews h len
    have hlen : (copyOut m.buffer (m.readableViews len)).length = min len m.size := by
      rw [hcopied, List.length_take, length_contents]
    dsimp only
    rw [hlen, hsame]
    exact ⟨hcopied, queue_consume h len⟩

end RingBuffer

-- ==== runs

/-- What a call is to do to the queue, and to answer. -/
def Serves (q : RoomyQueue UInt8) : RingOp → RingAnswer → RoomyQueue UInt8 → Prop
  | .ensureFree _ freeBytes, .done, q' => Grows freeBytes q q'
  | .ensureFree memory freeBytes, .failed, q' =>
    q' = q ∧ q.room.length < freeBytes
      ∧ (memory = none ∨ 2 ^ 62 < q.contents.length + freeBytes)
  | .write _ data, .written n, q' =>
    ∃ grown, Grows data.length q grown ∧ n = min data.length grown.room.length
      ∧ q' = (grown.fill (data.take n)).push n
  | .write memory data, .failed, q' =>
    q' = q ∧ q.room.length < data.length
      ∧ (memory = none ∨ 2 ^ 62 < q.contents.length + data.length)
  | .read len, .seen bytes, q' => bytes = q.contents.take len ∧ q' = q.pop len
  | .readableViews maxBytes, .seen bytes, q' => bytes = q.contents.take maxBytes ∧ q' = q
  | .readableViewsFrom startOffset maxBytes, .seen bytes, q' =>
    bytes = (q.contents.drop startOffset).take maxBytes ∧ q' = q
  | .writableViews maxBytes, .granted n, q' => n = min maxBytes q.room.length ∧ q' = q
  | .store maxBytes i byte, .done, q' =>
    q' = if i < min maxBytes q.room.length then q.store i byte else q
  | .produce bytes, .done, q' => q' = q.push bytes
  | .consume bytes, .done, q' => q' = q.pop bytes
  | .sizes, .sizes size free, q' =>
    size = q.contents.length ∧ free = q.room.length ∧ q' = q
  | _, _, _ => False

def ServesAll (q : RoomyQueue UInt8) :
    List RingOp → List RingAnswer → RoomyQueue UInt8 → Prop
  | [], [], q' => q' = q
  | op :: ops, answer :: answers, q' =>
    ∃ next, Serves q op answer next ∧ ServesAll next ops answers q'
  | _, _, _ => False

/-- No views are of more than a block can be. -/
def Granted : RingOp → Prop
  | .produce bytes => bytes ≤ maxAlloc
  | _ => True

namespace RingBuffer

variable {m : RingBuffer}

theorem serves_call (h : m.WellFormed) (op : RingOp) (hgranted : Granted op) :
    (m.step op).WellFormed ∧ Serves m.queue op (m.call op).1 (m.step op).queue := by
  cases op with
  | ensureFree memory freeBytes =>
    rcases hcall : m.ensureFree memory freeBytes with _ | m'
    · have hfailed : m.call (.ensureFree memory freeBytes) = (.failed, m) := by
        simp only [call, hcall]
      obtain ⟨hroom, hfails⟩ := ensureFree_none h hcall
      rw [step, hfailed]
      refine ⟨h, rfl, ?_, ?_⟩
      · rw [length_room]
        exact hroom
      · rw [length_contents]
        exact hfails
    · have hdone : m.call (.ensureFree memory freeBytes) = (.done, m') := by
        simp only [call, hcall]
      rw [step, hdone]
      exact queue_ensureFree h hcall
  | write memory data =>
    rcases hcall : m.write memory data with _ | ⟨n, m'⟩
    · have hfailed : m.call (.write memory data) = (.failed, m) := by simp only [call, hcall]
      obtain ⟨hroom, hfails⟩ := write_none h hcall
      rw [step, hfailed]
      refine ⟨h, rfl, ?_, ?_⟩
      · rw [length_room]
        exact hroom
      · rw [length_contents]
        exact hfails
    · have hwritten : m.call (.write memory data) = (.written n, m') := by
        simp only [call, hcall]
      rw [step, hwritten]
      exact queue_write h hcall
  | read len =>
    obtain ⟨hseen, hwell, hqueue⟩ := queue_read h len
    exact ⟨hwell, hseen, hqueue⟩
  | readableViews maxBytes => exact ⟨h, seen_readableViews h maxBytes, rfl⟩
  | readableViewsFrom startOffset maxBytes =>
    exact ⟨h, seen_readableViewsFrom h startOffset maxBytes, rfl⟩
  | writableViews maxBytes => exact ⟨h, granted_writableViews h maxBytes, rfl⟩
  | store maxBytes i byte => exact queue_store h maxBytes i byte
  | produce bytes => exact queue_produce h hgranted
  | consume bytes => exact queue_consume h bytes
  | sizes => exact ⟨h, length_contents.symm, length_room.symm, rfl⟩

theorem serves_run (h : m.WellFormed) {ops : List RingOp} (hgranted : ∀ op ∈ ops, Granted op) :
    (run step m ops).WellFormed
      ∧ ServesAll m.queue ops (m.answers ops) (run step m ops).queue := by
  induction ops generalizing m with
  | nil => exact ⟨h, rfl⟩
  | cons op ops ih =>
    obtain ⟨hwell, hserves⟩ := serves_call h op (hgranted op List.mem_cons_self)
    obtain ⟨hend, hall⟩ := ih hwell fun x hx => hgranted x (List.mem_cons_of_mem _ hx)
    exact ⟨hend, _, hserves, hall⟩

/-- A ring that a constructor makes. -/
def Constructed (m : RingBuffer) : Prop :=
  (m.capacity = 0 ∧ m.head = 0 ∧ m.size = 0)
    ∨ ∃ memory capacity, ofCapacity memory capacity = some m

theorem Constructed.wellFormed (h : m.Constructed) :
    m.WellFormed ∧ m.queue.contents = [] ∧ m.queue.room.length = m.capacity := by
  have hnew : m.head = 0 ∧ m.size = 0 ∧ m.capacity ≤ maxAlloc := by
    rcases h with ⟨hcapacity, hhead, hsize⟩ | ⟨memory, capacity, hmade⟩
    · exact ⟨hhead, hsize, by omega⟩
    · obtain ⟨buffer, hbuffer, rfl⟩ := Option.map_eq_some_iff.mp hmade
      unfold newBlock at hbuffer
      split at hbuffer
      case isTrue hle => exact ⟨rfl, rfl, hle⟩
      case isFalse => exact absurd hbuffer (by simp)
  obtain ⟨hhead, hsize, hle⟩ := hnew
  refine ⟨⟨by omega, by omega, hle⟩, ?_, ?_⟩
  · exact List.eq_nil_of_length_eq_zero (by rw [length_contents, hsize])
  · rw [length_room, freeSize, hsize, Nat.sub_zero]

theorem WellFormed.views_within (h : m.WellFormed) (startOffset maxBytes : Nat) :
    ∀ place ∈ places (m.readableViews maxBytes)
        ++ places (m.readableViewsFrom startOffset maxBytes)
        ++ places (m.writableViews maxBytes), place < m.capacity := by
  rw [places_readableViews h, places_readableViewsFrom h, places_writableViews h]
  intro place hplace
  have hmem : place ∈ m.slots 0 m.size ∨ place ∈ m.slots m.size m.freeSize := by
    rcases List.mem_append.mp hplace with hread | hwritten
    · rcases List.mem_append.mp hread with hread | hread
      · exact .inl (List.mem_of_mem_take hread)
      · exact .inl (List.mem_of_mem_drop (List.mem_of_mem_take hread))
    · exact .inr (List.mem_of_mem_take hwritten)
  have hpos : 0 < m.capacity := by
    have hsize := h.size_le
    have hfree : m.freeSize = m.capacity - m.size := rfl
    rcases hmem with hmem | hmem <;>
      · have hlen := List.length_pos_of_mem hmem
        rw [length_slots] at hlen
        omega
  rcases hmem with hmem | hmem <;> exact slots_lt hpos place hmem

/-- Every run of a ring is one of the queue: each call answers what the queue has it answer,
and what is then queued is what the queue holds. -/
theorem ring_refines (m : RingBuffer) (hnew : m.Constructed) (ops : List RingOp)
    (hgranted : ∀ op ∈ ops, Granted op) :
    m.queue.contents = [] ∧ m.queue.room.length = m.capacity
      ∧ ServesAll m.queue ops (m.answers ops) (run step m ops).queue
      ∧ ∀ startOffset maxBytes, ∀ place ∈ places ((run step m ops).readableViews maxBytes)
          ++ places ((run step m ops).readableViewsFrom startOffset maxBytes)
          ++ places ((run step m ops).writableViews maxBytes),
        place < (run step m ops).capacity := by
  obtain ⟨hwell, hempty, hroom⟩ := hnew.wellFormed
  obtain ⟨hend, hall⟩ := serves_run hwell hgranted
  exact ⟨hempty, hroom, hall, hend.views_within⟩

/-- A ring of four bytes: three in, two out, and four more across its end. -/
def someCalls : List RingOp :=
  [.write none [1, 2, 3], .read 2, .store 4 0 7, .produce 1, .write (some fun _ => 9) [4, 5, 6, 8]]

theorem ring_refines_someCalls :
    (⟨fun _ => 0, 4, 0, 0⟩ : RingBuffer).queue.contents = []
      ∧ (⟨fun _ => 0, 4, 0, 0⟩ : RingBuffer).queue.room.length = 4
      ∧ ServesAll (⟨fun _ => 0, 4, 0, 0⟩ : RingBuffer).queue someCalls
          ((⟨fun _ => 0, 4, 0, 0⟩ : RingBuffer).answers someCalls)
          (run step ⟨fun _ => 0, 4, 0, 0⟩ someCalls).queue
      ∧ ∀ startOffset maxBytes,
        ∀ place ∈ places ((run step ⟨fun _ => 0, 4, 0, 0⟩ someCalls).readableViews maxBytes)
          ++ places ((run step ⟨fun _ => 0, 4, 0, 0⟩ someCalls).readableViewsFrom startOffset
            maxBytes)
          ++ places ((run step ⟨fun _ => 0, 4, 0, 0⟩ someCalls).writableViews maxBytes),
        place < (run step ⟨fun _ => 0, 4, 0, 0⟩ someCalls).capacity := by
  apply ring_refines
  · exact .inr ⟨some fun _ => 0, 4, rfl⟩
  · intro op hop
    fin_cases hop <;> simp [Granted, maxAlloc]

end RingBuffer

end Eular.Utp
