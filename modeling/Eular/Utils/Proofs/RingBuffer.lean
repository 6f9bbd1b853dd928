/-
The ring buffer is a bounded queue.

It keeps the ring of a stream without its growth, and the position of the
writer beside it (`WellFormed.writePos_eq`): the places in ring order hold
what is queued and then the room (`queue`), and what the stream's ring says
of copying, producing and consuming holds here (`queue_advanceRead`,
`queue_advanceWrite`, `queue_write`). A region is the longest run of
neighbouring places (`longest_region`). `serves_call` says of each call what
it does to the queue, and `balanced_step` of the totals; both then hold along
every run (`refines_fifo`).
-/
import Eular.Utp.Stream.Proofs.RingBuffer
import Eular.Utils.RingBuffer

namespace Eular.Utils

open Eular.Lib
open Utp (maxAlloc copyOut copyIn)
open Utp.RingBuffer (length_contents length_room length_slots sum_mod)

namespace RingBuffer

/-- The stream's ring with these bytes at these places. -/
def ring (m : RingBuffer) : Utp.RingBuffer where
  buffer := m.buffer
  capacity := m.capacity
  head := m.readPos
  size := m.usedSize

/-- The places are within the block, and the writer is behind what is used. -/
structure WellFormed (m : RingBuffer) : Prop where
  readPos_lt : m.readPos < m.capacity
  usedSize_le : m.usedSize ≤ m.capacity
  capacity_le : m.capacity ≤ maxAlloc
  writePos_eq : m.writePos = (m.readPos + m.usedSize) % m.capacity

/-- What is queued, and what lies in the room. -/
def queue (m : RingBuffer) : RoomyQueue UInt8 := m.ring.queue

variable {m : RingBuffer} {n : Nat}

theorem WellFormed.ring (h : m.WellFormed) : m.ring.WellFormed where
  head_lt := lt_max_of_lt_left h.readPos_lt
  size_le := h.usedSize_le
  capacity_le := h.capacity_le

theorem WellFormed.capacity_pos (h : m.WellFormed) : 0 < m.capacity :=
  Nat.zero_lt_of_lt h.readPos_lt

theorem WellFormed.writePos_lt (h : m.WellFormed) : m.writePos < m.capacity := by
  rw [h.writePos_eq]
  exact Nat.mod_lt _ h.capacity_pos

theorem length_queued : m.queue.contents.length = m.usedSize := length_contents

theorem length_free : m.queue.room.length = m.writableSize := length_room

theorem capacity_queue (h : m.WellFormed) : m.queue.capacity = m.capacity := by
  have hused := h.usedSize_le
  unfold RoomyQueue.capacity
  rw [length_queued, length_free]
  unfold writableSize
  omega

-- ==== positions

/-- What is copied from the `k`th place on. -/
theorem copied_eq (h : m.WellFormed) (k : Nat) (hn : n ≤ m.capacity) :
    m.copied ((m.readPos + k) % m.capacity) n = (m.ring.slots k n).map m.buffer := by
  have hplaces := Utp.RingBuffer.places_split (m := m.ring) (k := k) h.capacity_pos hn
  have hviews : m.copied ((m.readPos + k) % m.capacity) n
      = copyOut m.buffer (m.ring.split ((m.ring.head + k) % m.ring.capacity) n) := by
    unfold copied Utp.RingBuffer.split
    simp only [ring, Nat.sub_pos_iff_lt]
    split
    · simp [copyOut]
    · simp [copyOut]
  rw [hviews, Utp.copyOut_eq, hplaces]

theorem copied_queue (h : m.WellFormed) (k : Nat) (hn : k + n ≤ m.usedSize) :
    m.copied ((m.readPos + k) % m.capacity) n = (m.queue.contents.drop k).take n := by
  have hused := h.usedSize_le
  have hslots : ((m.ring.slots 0 m.usedSize).drop k).take n = m.ring.slots k n := by
    rw [Utp.RingBuffer.drop_slots, Utp.RingBuffer.take_slots, Nat.zero_add,
      min_eq_left (by omega)]
  rw [copied_eq h k (by omega), ← hslots, List.map_take, List.map_drop]
  rfl

theorem queue_advanceRead (h : m.WellFormed) (hn : n ≤ m.usedSize) :
    (m.advanceRead n).WellFormed ∧ (m.advanceRead n).queue = m.queue.pop n := by
  have hpos := h.capacity_pos
  have hused := h.usedSize_le
  have hring : (m.advanceRead n).ring = m.ring.consume n := by
    unfold advanceRead ring Utp.RingBuffer.consume
    simp only [min_eq_left hn]
    rw [if_pos (Nat.pos_iff_ne_zero.mp hpos)]
  obtain ⟨-, hqueue⟩ := Utp.RingBuffer.queue_consume h.ring n
  rw [← hring] at hqueue
  refine ⟨⟨Nat.mod_lt _ hpos, (Nat.sub_le _ _).trans hused, h.capacity_le, ?_⟩, hqueue⟩
  have hsum : (m.readPos + n) % 2 ^ 64 = m.readPos + n :=
    sum_mod (h.readPos_lt.le.trans h.capacity_le) (hn.trans (hused.trans h.capacity_le))
  show m.writePos = ((m.readPos + n) % 2 ^ 64 % m.capacity + (m.usedSize - n)) % m.capacity
  rw [hsum, Nat.mod_add_mod, h.writePos_eq, Nat.add_assoc, Nat.add_sub_cancel' hn]

theorem queue_advanceWrite (h : m.WellFormed) (hn : n ≤ m.writableSize) :
    (m.advanceWrite n).WellFormed ∧ (m.advanceWrite n).queue = m.queue.push n := by
  have hpos := h.capacity_pos
  have hused := h.usedSize_le
  have hcapacity := h.capacity_le
  have hfree : m.usedSize + n ≤ m.capacity := by
    unfold writableSize at hn
    omega
  have hsize : (m.usedSize + n) % 2 ^ 64 = m.usedSize + n := sum_mod (by omega) (by omega)
  have hring : (m.advanceWrite n).ring = m.ring.produce n := by
    unfold advanceWrite ring Utp.RingBuffer.produce
    simp only [hsize, min_eq_left hfree]
  obtain ⟨-, hqueue⟩ := Utp.RingBuffer.queue_produce h.ring (n := n) (by omega)
  rw [← hring] at hqueue
  refine ⟨⟨h.readPos_lt, ?_, hcapacity, ?_⟩, hqueue⟩
  · show (m.usedSize + n) % 2 ^ 64 ≤ m.capacity
    omega
  · have hsum : (m.writePos + n) % 2 ^ 64 = m.writePos + n :=
      sum_mod (h.writePos_lt.le.trans hcapacity) (by omega)
    show (m.writePos + n) % 2 ^ 64 % m.capacity
      = (m.readPos + (m.usedSize + n) % 2 ^ 64) % m.capacity
    rw [hsum, hsize, h.writePos_eq, Nat.mod_add_mod, Nat.add_assoc]

-- ==== copies

theorem read_spec (h : m.WellFormed) (data : Bool) (len : Nat) :
    (m.read data len).1 = m.queue.contents.take (if data then len else 0)
      ∧ (m.read data len).2.WellFormed
      ∧ (m.read data len).2.queue = m.queue.pop (m.read data len).1.length := by
  have hlen := length_queued (m := m)
  have hstart : m.readPos = (m.readPos + 0) % m.capacity :=
    (Nat.mod_eq_of_lt h.readPos_lt).symm
  by_cases hnone : data = false ∨ min len m.usedSize = 0
  · have hread : m.read data len = ([], m) := if_pos hnone
    have htake : m.queue.contents.take (if data then len else 0) = [] := by
      rcases hnone with rfl | hzero
      · rfl
      · apply List.eq_nil_of_length_eq_zero
        rw [List.length_take, hlen]
        split
        · exact hzero
        · exact Nat.zero_min _
    rw [hread, htake]
    exact ⟨rfl, h, by simp [RoomyQueue.pop]⟩
  · have hread : m.read data len
        = (m.copied m.readPos (min len m.usedSize), m.advanceRead (min len m.usedSize)) :=
      if_neg hnone
    obtain ⟨hdata, -⟩ := not_or.mp hnone
    have hcopied : m.copied m.readPos (min len m.usedSize) = m.queue.contents.take len := by
      conv_lhs => rw [hstart]
      rw [copied_queue h 0 (by omega), List.drop_zero, ← hlen, ← List.take_eq_take_min]
    have hcount : (m.queue.contents.take len).length = min len m.usedSize := by
      rw [List.length_take, hlen]
    obtain ⟨hwell, hqueue⟩ := queue_advanceRead h (min_le_right len m.usedSize)
    rw [hread, hcopied, hcount, if_pos (by simpa using hdata)]
    exact ⟨rfl, hwell, hqueue⟩

theorem peek_spec (h : m.WellFormed) (data : Bool) (len : Nat) :
    m.peek data len = m.queue.contents.take (if data then len else 0) := by
  rw [← (read_spec h data len).1]
  unfold peek read
  dsimp only
  split <;> rfl

theorem peekAt_spec (h : m.WellFormed) (data : Bool) (len offset : Nat) :
    m.peekAt data len offset
      = (m.queue.contents.drop offset).take (if data then len else 0) := by
  have hlen := length_queued (m := m)
  unfold peekAt
  split
  case isTrue hnone =>
    rcases hnone with rfl | rfl | hle
    · simp
    · simp
    · rw [List.drop_of_length_le (hlen ▸ hle), List.take_nil]
  case isFalse hsome =>
    simp only [not_or, Bool.not_eq_false, not_le] at hsome
    obtain ⟨hdata, -, hlt⟩ := hsome
    have hsum : (m.readPos + offset) % 2 ^ 64 = m.readPos + offset :=
      sum_mod (h.readPos_lt.le.trans h.capacity_le)
        (hlt.le.trans (h.usedSize_le.trans h.capacity_le))
    dsimp only
    rw [hsum, copied_queue h offset (by omega), if_pos hdata, ← hlen, ← List.length_drop,
      ← List.take_eq_take_min]

/-- The ring with `src` copied into its room. -/
def filled (m : RingBuffer) (src : List UInt8) : RingBuffer :=
  { m with buffer := copyIn m.buffer (m.ring.writableViews src.length) src }

theorem queue_filled (h : m.WellFormed) (src : List UInt8) :
    (m.filled src).WellFormed
      ∧ (m.filled src).queue = m.queue.fill (src.take (min src.length m.writableSize)) :=
  ⟨⟨h.readPos_lt, h.usedSize_le, h.capacity_le, h.writePos_eq⟩,
    (Utp.RingBuffer.queue_filled h.ring src).2⟩

theorem writableViews_eq (h : m.WellFormed) {maxBytes : Nat}
    (hsome : min maxBytes m.writableSize ≠ 0) :
    m.ring.writableViews maxBytes = m.ring.split m.writePos (min maxBytes m.writableSize) := by
  have hsum : (m.readPos + m.usedSize) % 2 ^ 64 = m.readPos + m.usedSize :=
    sum_mod (h.readPos_lt.le.trans h.capacity_le) (h.usedSize_le.trans h.capacity_le)
  unfold Utp.RingBuffer.writableViews
  rw [if_neg]
  · show m.ring.split ((m.readPos + m.usedSize) % 2 ^ 64 % m.capacity) _ = _
    rw [hsum, ← h.writePos_eq]
    rfl
  · have hpos := h.capacity_pos
    unfold Utp.RingBuffer.freeSize ring
    unfold writableSize at hsome
    dsimp only
    omega

/-- The two `memcpy` of `write`. -/
theorem write_eq (h : m.WellFormed) {src : List UInt8} (hsome : min src.length m.writableSize ≠ 0) :
    m.write (some src) = (min src.length m.writableSize,
      (m.filled src).advanceWrite (min src.length m.writableSize)) := by
  unfold write filled
  dsimp only
  rw [if_neg hsome, writableViews_eq h hsome]
  unfold Utp.RingBuffer.split
  simp only [ring, Nat.sub_pos_iff_lt]
  split
  · rfl
  · rfl

theorem write_spec (h : m.WellFormed) (data : Option (List UInt8)) :
    (m.write data).1 = min (data.getD []).length m.queue.room.length
      ∧ (m.write data).2.WellFormed
      ∧ (m.write data).2.queue
        = (m.queue.fill ((data.getD []).take (m.write data).1)).push (m.write data).1 := by
  cases data with
  | none =>
    refine ⟨?_, h, ?_⟩
    · simp [write]
    · simp [write, RoomyQueue.fill, RoomyQueue.push]
  | some src =>
    rw [Option.getD_some, length_free]
    by_cases hsome : min src.length m.writableSize = 0
    · have hsame : m.write (some src) = (0, m) := by
        unfold write
        exact if_pos hsome
      rw [hsame, hsome]
      exact ⟨rfl, h, by simp [RoomyQueue.fill, RoomyQueue.push]⟩
    · rw [write_eq h hsome]
      obtain ⟨hfilled, hqueue⟩ := queue_filled h src
      obtain ⟨hwell, hpushed⟩ := queue_advanceWrite hfilled
        (n := min src.length m.writableSize) (min_le_right _ _)
      rw [hqueue] at hpushed
      exact ⟨rfl, hwell, hpushed⟩

-- ==== regions

/-- A region is the longest run of neighbouring places that some places begin with, and says
whether more of them follow. -/
structure Longest (places : List Nat) (r : Region) : Prop where
  ptr_eq : r.ptr = none ↔ places = []
  take_len : places.take r.len = (List.range r.len).map fun i => r.ptr.getD 0 + i
  longest : ∀ n ≤ places.length,
    (∃ start, places.take n = (List.range n).map fun i => start + i) → n ≤ r.len
  more_iff : r.more = true ↔ r.len < places.length

theorem region_eq {pos : Nat} (hpos : pos < m.capacity) (hn : n ≤ m.capacity)
    (hle : m.capacity ≤ maxAlloc) :
    m.region pos n
      = ⟨if n = 0 then none else some pos, min n (m.capacity - pos),
        decide (m.capacity - pos < n)⟩ := by
  have hsum : (pos + n) % 2 ^ 64 = pos + n := sum_mod (by omega) (by omega)
  unfold region
  rw [hsum]
  by_cases hzero : n = 0
  · simp [hzero]
  · rw [if_neg hzero, if_neg hzero]
    split
    · rw [min_eq_left (by omega), decide_eq_false (by omega)]
    · rw [min_eq_right (by omega), decide_eq_true (by omega)]

theorem longest_region (h : m.WellFormed) (k : Nat) (hn : n ≤ m.capacity) :
    Longest (m.ring.slots k n) (m.region ((m.readPos + k) % m.capacity) n) := by
  have hpos := Nat.mod_lt (m.readPos + k) h.capacity_pos
  have hslots : m.ring.slots k n
      = (List.range n).map fun i => ((m.readPos + k) % m.capacity + i) % m.capacity := by
    apply List.map_congr_left
    intro i _
    show (m.readPos + (k + i)) % m.capacity = _
    rw [Nat.mod_add_mod, Nat.add_assoc]
  have hlen : (m.ring.slots k n).length = n := length_slots
  rw [region_eq hpos hn h.capacity_le]
  generalize (m.readPos + k) % m.capacity = pos at hpos hslots ⊢
  refine ⟨?_, ?_, ?_, ?_⟩
  · rw [← List.length_eq_zero_iff, hlen]
    split
    case isTrue hzero => simp [hzero]
    case isFalse hsome => simp [hsome]
  · rw [hslots, ← List.map_take, List.take_range, min_eq_left (min_le_left _ _)]
    apply List.map_congr_left
    intro i hi
    have hi := List.mem_range.mp hi
    have hsome : n ≠ 0 := by omega
    dsimp only
    rw [if_neg hsome]
    exact Nat.mod_eq_of_lt (by omega)
  · rintro len hle ⟨start, hstart⟩
    by_contra hlonger
    rw [hlen] at hle
    -- the first place past the end of the block is place 0, which no place is in front of
    have hwraps : m.capacity - pos < len := by
      dsimp only at hlonger
      omega
    rw [hslots, ← List.map_take, List.take_range, min_eq_left hle] at hstart
    have hround := congrArg (fun places => places[m.capacity - pos]?) hstart
    simp only [List.getElem?_map, List.getElem?_range hwraps, Option.map_some,
      Option.some.injEq] at hround
    have hwhole : pos + (m.capacity - pos) = m.capacity := by omega
    rw [hwhole, Nat.mod_self] at hround
    omega
  · rw [hlen, decide_eq_true_iff]
    dsimp only
    omega

theorem WellFormed.readable_eq (h : m.WellFormed) :
    m.getReadableRegion = m.region ((m.readPos + 0) % m.capacity) m.usedSize := by
  rw [Nat.add_zero, Nat.mod_eq_of_lt h.readPos_lt]
  rfl

theorem WellFormed.writable_eq (h : m.WellFormed) :
    m.getWritableRegion = m.region ((m.readPos + m.usedSize) % m.capacity) m.writableSize := by
  rw [← h.writePos_eq]
  rfl

theorem longest_readable (h : m.WellFormed) :
    Longest (m.ring.slots 0 m.usedSize) m.getReadableRegion := by
  rw [h.readable_eq]
  exact longest_region h 0 h.usedSize_le

theorem longest_writable (h : m.WellFormed) :
    Longest (m.ring.slots m.usedSize m.writableSize) m.getWritableRegion := by
  rw [h.writable_eq]
  exact longest_region h m.usedSize (Nat.sub_le _ _)

theorem len_readable (h : m.WellFormed) :
    m.getReadableRegion.len = min m.usedSize (m.capacity - m.readPos) := by
  rw [getReadableRegion, region_eq h.readPos_lt h.usedSize_le h.capacity_le]

theorem writable_region (h : m.WellFormed) :
    m.getWritableRegion
      = ⟨if m.writableSize = 0 then none else some m.writePos,
        min m.writableSize (m.capacity - m.writePos),
        decide (m.capacity - m.writePos < m.writableSize)⟩ :=
  region_eq h.writePos_lt (Nat.sub_le _ _) h.capacity_le

theorem seen_readable (h : m.WellFormed) :
    readMem m.buffer (m.getReadableRegion.ptr.getD 0) m.getReadableRegion.len
      = m.queue.contents.take m.getReadableRegion.len := by
  have htake := congrArg (List.map m.buffer) (longest_readable h).take_len
  rw [List.map_take, List.map_map] at htake
  exact htake.symm

theorem queue_fillRegion (h : m.WellFormed) (i : Nat) (byte : UInt8) :
    (m.fillRegion i byte).WellFormed
      ∧ (m.fillRegion i byte).queue
        = if i < m.getWritableRegion.len then m.queue.store i byte else m.queue := by
  have hregion := writable_region h
  by_cases hi : i < m.getWritableRegion.len
  · have hlen : m.getWritableRegion.len = min m.writableSize (m.capacity - m.writePos) := by
      rw [hregion]
    have hsome : m.writableSize ≠ 0 := by omega
    have hptr : m.getWritableRegion.ptr = some m.writePos := by
      rw [hregion]
      exact if_neg hsome
    have hfill : m.fillRegion i byte
        = { m with buffer := Function.update m.buffer (m.writePos + i) byte } := by
      unfold fillRegion
      rw [hptr]
      exact if_pos hi
    have hfirst : m.ring.writableViews m.getWritableRegion.len
        = [⟨m.writePos, m.getWritableRegion.len⟩] := by
      have hwhole : min m.getWritableRegion.len m.writableSize = m.getWritableRegion.len :=
        min_eq_left (by omega)
      have hpart : min m.getWritableRegion.len (m.capacity - m.writePos)
          = m.getWritableRegion.len := min_eq_left (by omega)
      rw [writableViews_eq h (by omega), hwhole]
      unfold Utp.RingBuffer.split
      show (if 0 < m.getWritableRegion.len
          - min m.getWritableRegion.len (m.capacity - m.writePos) then _
        else [Utp.View.mk m.writePos (min m.getWritableRegion.len (m.capacity - m.writePos))]) = _
      rw [hpart, Nat.sub_self, if_neg (Nat.lt_irrefl 0)]
    have hring : (m.fillRegion i byte).ring = m.ring.store m.getWritableRegion.len i byte := by
      rw [hfill]
      unfold Utp.RingBuffer.store
      rw [hfirst]
      simp [Utp.places, hi, ring]
    obtain ⟨-, hqueue⟩ := Utp.RingBuffer.queue_store h.ring m.getWritableRegion.len i byte
    rw [← hring, if_pos (by rw [length_room]; show i < min _ m.writableSize; omega)] at hqueue
    rw [if_pos hi]
    refine ⟨?_, hqueue⟩
    rw [hfill]
    exact ⟨h.readPos_lt, h.usedSize_le, h.capacity_le, h.writePos_eq⟩
  · have hsame : m.fillRegion i byte = m := by
      unfold fillRegion
      split
      · exact if_neg hi
      · rfl
    rw [hsame, if_neg hi]
    exact ⟨h, rfl⟩

theorem clear_spec (h : m.WellFormed) :
    m.clear.WellFormed ∧ m.clear.queue.contents = []
      ∧ m.clear.queue.capacity = m.queue.capacity := by
  have hwell : m.clear.WellFormed :=
    ⟨h.capacity_pos, Nat.zero_le _, h.capacity_le, (Nat.zero_mod _).symm⟩
  refine ⟨hwell, List.eq_nil_of_length_eq_zero length_queued, ?_⟩
  rw [capacity_queue hwell, capacity_queue h]
  rfl

-- ==== calls

/-- What a call is to do to the queue, and to answer. -/
def Serves (m : RingBuffer) : RingBufferOp → RingBufferAnswer → RingBuffer → Prop
  | .write data, .count n, m' =>
    n = min (data.getD []).length m.queue.room.length
      ∧ m'.queue = (m.queue.fill ((data.getD []).take n)).push n
  | .read data len, .bytes bytes, m' =>
    bytes = m.queue.contents.take (if data then len else 0)
      ∧ m'.queue = m.queue.pop bytes.length
  | .peek data len, .bytes bytes, m' =>
    bytes = m.queue.contents.take (if data then len else 0) ∧ m' = m
  | .peekAt data len offset, .bytes bytes, m' =>
    bytes = (m.queue.contents.drop offset).take (if data then len else 0) ∧ m' = m
  | .skip len, .count n, m' => n = min len m.queue.contents.length ∧ m'.queue = m.queue.pop n
  | .getReadableRegion, .readable r bytes, m' =>
    Longest (m.ring.slots 0 m.usedSize) r ∧ bytes = m.queue.contents.take r.len ∧ m' = m
  | .commitRead len, .done, m' => m'.queue = m.queue.pop (min len m.getReadableRegion.len)
  | .getWritableRegion, .writable r, m' =>
    Longest (m.ring.slots m.usedSize m.writableSize) r ∧ m' = m
  | .fillRegion i byte, .done, m' =>
    m'.queue = if i < m.getWritableRegion.len then m.queue.store i byte else m.queue
  | .commitWrite len, .done, m' => m'.queue = m.queue.push (min len m.getWritableRegion.len)
  | .clear, .done, m' => m'.queue.contents = [] ∧ m'.queue.capacity = m.queue.capacity
  | .reset, .done, m' =>
    m'.queue.contents = [] ∧ m'.queue.capacity = m.queue.capacity
      ∧ m'.totalBytesWritten = 0 ∧ m'.totalBytesRead = 0
  | _, _, _ => False

theorem serves_call (h : m.WellFormed) (op : RingBufferOp) :
    (m.step op).WellFormed ∧ m.Serves op (m.call op).1 (m.step op) := by
  cases op with
  | write data =>
    obtain ⟨hcount, hwell, hqueue⟩ := write_spec h data
    exact ⟨hwell, hcount, hqueue⟩
  | read data len =>
    obtain ⟨hbytes, hwell, hqueue⟩ := read_spec h data len
    exact ⟨hwell, hbytes, hqueue⟩
  | peek data len => exact ⟨h, peek_spec h data len, rfl⟩
  | peekAt data len offset => exact ⟨h, peekAt_spec h data len offset, rfl⟩
  | skip len =>
    obtain ⟨hwell, hqueue⟩ := queue_advanceRead h (min_le_right len m.usedSize)
    refine ⟨hwell, ?_, hqueue⟩
    rw [length_queued]
    rfl
  | getReadableRegion => exact ⟨h, longest_readable h, seen_readable h, rfl⟩
  | commitRead len =>
    have hle : min len (min m.usedSize (m.capacity - m.readPos)) ≤ m.usedSize := by omega
    obtain ⟨hwell, hqueue⟩ := queue_advanceRead h hle
    refine ⟨hwell, hqueue.trans ?_⟩
    rw [← len_readable h]
  | getWritableRegion => exact ⟨h, longest_writable h, rfl⟩
  | fillRegion i byte => exact queue_fillRegion h i byte
  | commitWrite len =>
    have hle : min len (min m.writableSize (m.capacity - m.writePos)) ≤ m.writableSize := by
      omega
    have hlen : m.getWritableRegion.len = min m.writableSize (m.capacity - m.writePos) := by
      rw [writable_region h]
    obtain ⟨hwell, hqueue⟩ := queue_advanceWrite h hle
    refine ⟨hwell, hqueue.trans ?_⟩
    rw [← hlen]
  | clear => exact clear_spec h
  | reset =>
    obtain ⟨hwell, hempty, hcapacity⟩ := clear_spec h
    exact ⟨⟨hwell.readPos_lt, hwell.usedSize_le, hwell.capacity_le, hwell.writePos_eq⟩, hempty,
      hcapacity, rfl, rfl⟩

-- ==== totals

/-- What is used, and the two totals. -/
def counts (m : RingBuffer) : Nat × Nat × Nat :=
  (m.usedSize, m.totalBytesWritten, m.totalBytesRead)

/-- Calls that do not empty the buffer. -/
def Keeps : RingBufferOp → Prop
  | .clear => False
  | .reset => False
  | _ => True

/-- The totals have moved apart by as much as there is more in the buffer. -/
def Balanced (m m' : RingBuffer) : Prop :=
  (m'.totalBytesWritten - m'.totalBytesRead : ℤ) - (m.totalBytesWritten - m.totalBytesRead)
    ≡ m'.usedSize - m.usedSize [ZMOD 2 ^ 64]

theorem Balanced.refl (m : RingBuffer) : Balanced m m := by
  unfold Balanced
  rw [Int.sub_self, Int.sub_self]

theorem Balanced.trans {m m' m'' : RingBuffer} (h : Balanced m m') (h' : Balanced m' m'') :
    Balanced m m'' := by
  have hsum := h.add h'
  unfold Balanced
  have hleft : (m''.totalBytesWritten - m''.totalBytesRead : ℤ)
        - (m.totalBytesWritten - m.totalBytesRead)
      = (m'.totalBytesWritten - m'.totalBytesRead - (m.totalBytesWritten - m.totalBytesRead))
        + (m''.totalBytesWritten - m''.totalBytesRead
          - (m'.totalBytesWritten - m'.totalBytesRead)) := by ring
  have hright : (m''.usedSize - m.usedSize : ℤ)
      = (m'.usedSize - m.usedSize) + (m''.usedSize - m'.usedSize) := by ring
  rw [hleft, hright]
  exact hsum

theorem counts_step (h : m.WellFormed) (op : RingBufferOp) (hkeeps : Keeps op) :
    (m.step op).counts = m.counts
      ∨ (∃ n ≤ m.usedSize, (m.step op).counts = (m.advanceRead n).counts)
      ∨ ∃ n ≤ m.writableSize, (m.step op).counts = (m.advanceWrite n).counts := by
  cases op with
  | write data =>
    cases data with
    | none => exact .inl rfl
    | some src =>
      by_cases hsome : min src.length m.writableSize = 0
      · have hsame : m.write (some src) = (0, m) := if_pos hsome
        exact .inl (by rw [step, call, hsame])
      · refine .inr (.inr ⟨min src.length m.writableSize, min_le_right _ _, ?_⟩)
        rw [step, call, write_eq h hsome]
        rfl
  | read data len =>
    by_cases hnone : data = false ∨ min len m.usedSize = 0
    · have hsame : m.read data len = ([], m) := if_pos hnone
      exact .inl (by rw [step, call, hsame])
    · have hread : m.read data len = (m.copied m.readPos (min len m.usedSize),
          m.advanceRead (min len m.usedSize)) := if_neg hnone
      exact .inr (.inl ⟨_, min_le_right len m.usedSize, by rw [step, call, hread]⟩)
  | peek data len => exact .inl rfl
  | peekAt data len offset => exact .inl rfl
  | skip len => exact .inr (.inl ⟨_, min_le_right len m.usedSize, rfl⟩)
  | getReadableRegion => exact .inl rfl
  | commitRead len =>
    exact .inr (.inl ⟨min len (min m.usedSize (m.capacity - m.readPos)), by omega, rfl⟩)
  | getWritableRegion => exact .inl rfl
  | fillRegion i byte =>
    refine .inl ?_
    show (m.fillRegion i byte).counts = m.counts
    unfold fillRegion
    split
    · split
      · rfl
      · rfl
    · rfl
  | commitWrite len =>
    exact .inr (.inr ⟨min len (min m.writableSize (m.capacity - m.writePos)), by omega, rfl⟩)
  | clear => exact absurd hkeeps id
  | reset => exact absurd hkeeps id

theorem balanced_step (h : m.WellFormed) (op : RingBufferOp) (hkeeps : Keeps op) :
    Balanced m (m.step op) := by
  have hused := h.usedSize_le
  have hcapacity := h.capacity_le
  unfold Balanced
  obtain hsame | ⟨n, hn, hread⟩ | ⟨n, hn, hwritten⟩ := counts_step h op hkeeps
  · simp only [counts, Prod.mk.injEq] at hsame
    obtain ⟨hused', hwritten, hread⟩ := hsame
    rw [hused', hwritten, hread, Int.sub_self, Int.sub_self]
  · simp only [counts, advanceRead, Prod.mk.injEq] at hread
    obtain ⟨hused', hwritten, hread⟩ := hread
    rw [hused', hwritten, hread, Int.modEq_iff_dvd]
    unfold maxAlloc at hcapacity
    omega
  · simp only [counts, advanceWrite, Prod.mk.injEq] at hwritten
    obtain ⟨hused', hwritten, hread⟩ := hwritten
    rw [hused', hwritten, hread, Int.modEq_iff_dvd]
    unfold writableSize at hn
    unfold maxAlloc at hcapacity
    omega

theorem balanced_run (h : m.WellFormed) {ops : List RingBufferOp} (hkeeps : ∀ op ∈ ops, Keeps op) :
    Balanced m (run step m ops) := by
  induction ops generalizing m with
  | nil => exact Balanced.refl m
  | cons op ops ih =>
    obtain ⟨hwell, -⟩ := serves_call h op
    exact (balanced_step h op (hkeeps op List.mem_cons_self)).trans
      (ih hwell fun op hop => hkeeps op (List.mem_cons_of_mem _ hop))

-- ==== runs

theorem wellFormed_ofCapacity {enough : Bool} {capacity : Nat}
    (h : ofCapacity enough capacity = some m) :
    m.WellFormed ∧ m.queue.contents = [] ∧ m.queue.capacity = capacity := by
  unfold ofCapacity at h
  split at h
  · cases h
  · split at h
    · cases h
    · cases h
      have hwell : WellFormed { capacity, buffer := fun _ => 0 } :=
        ⟨show 0 < capacity by omega, Nat.zero_le _, show capacity ≤ maxAlloc by omega,
          (Nat.zero_mod _).symm⟩
      exact ⟨hwell, List.eq_nil_of_length_eq_zero length_queued, capacity_queue hwell⟩

theorem wellFormed_run (h : m.WellFormed) (ops : List RingBufferOp) :
    (run step m ops).WellFormed := by
  induction ops generalizing m with
  | nil => exact h
  | cons op ops ih => exact ih (serves_call h op).1

theorem capacity_step (m : RingBuffer) (op : RingBufferOp) : (m.step op).capacity = m.capacity := by
  cases op with
  | write data =>
    cases data with
    | none => rfl
    | some src =>
      show (m.write (some src)).2.capacity = m.capacity
      unfold write
      dsimp only
      split
      · rfl
      · rfl
  | read data len =>
    show (m.read data len).2.capacity = m.capacity
    unfold read
    dsimp only
    split
    · rfl
    · rfl
  | fillRegion i byte =>
    show (m.fillRegion i byte).capacity = m.capacity
    unfold fillRegion
    split
    · split
      · rfl
      · rfl
    · rfl
  | peek data len => rfl
  | peekAt data len offset => rfl
  | skip len => rfl
  | getReadableRegion => rfl
  | commitRead len => rfl
  | getWritableRegion => rfl
  | commitWrite len => rfl
  | clear => rfl
  | reset => rfl

theorem capacity_run (m : RingBuffer) (ops : List RingBufferOp) :
    (run step m ops).capacity = m.capacity := by
  induction ops generalizing m with
  | nil => rfl
  | cons op ops ih => exact (ih (m.step op)).trans (capacity_step m op)

/-- What holds of a buffer in use: its next call, whichever it is, does to the queue what it is to
do; the sizes are those of the queue; and the totals move with what is held up to the next clear. -/
structure IsFifo (capacity : Nat) (m : RingBuffer) : Prop where
  serves : ∀ op, m.Serves op (m.call op).1 (m.step op)
  readable : m.readableSize = m.queue.contents.length
  writable : m.writableSize = m.queue.room.length
  sizes : m.readableSize + m.writableSize = capacity
  totals : ∀ ops, (∀ op ∈ ops, Keeps op) → Balanced m (run step m ops)

/-- The buffer that a constructor makes is an empty queue of its capacity, and a queue it is along
every run. -/
theorem refines_fifo (enough : Bool) (capacity : Nat) (m : RingBuffer)
    (hnew : ofCapacity enough capacity = some m) (ops : List RingBufferOp) :
    m.queue.contents = [] ∧ m.queue.capacity = capacity ∧ IsFifo capacity (run step m ops) := by
  obtain ⟨hwell, hempty, hcapacity⟩ := wellFormed_ofCapacity hnew
  have hend := wellFormed_run hwell ops
  have hsize : (run step m ops).capacity = capacity := by
    rw [capacity_run, ← capacity_queue hwell, hcapacity]
  refine ⟨hempty, hcapacity, fun op => (serves_call hend op).2, length_queued.symm,
    length_free.symm, ?_, fun more => balanced_run hend⟩
  have hused := hend.usedSize_le
  unfold readableSize writableSize
  omega

/-- Four bytes: a write that wraps behind the last byte and fills the buffer, and both regions. -/
def wrapping : List RingBufferOp :=
  [.write (some [1, 2, 3]), .read true 2, .write (some [4, 5, 6, 7]), .getReadableRegion,
    .commitRead 2, .getWritableRegion, .fillRegion 1 8, .commitWrite 1]

theorem refines_fifo_wrapping :
    queue ⟨4, fun _ => 0, 0, 0, 0, 0, 0⟩ = ⟨[], [0, 0, 0, 0]⟩
      ∧ IsFifo 4 (run step ⟨4, fun _ => 0, 0, 0, 0, 0, 0⟩ wrapping) :=
  ⟨rfl, (refines_fifo true 4 ⟨4, fun _ => 0, 0, 0, 0, 0, 0⟩ rfl wrapping).2.2⟩

end RingBuffer

end Eular.Utils
