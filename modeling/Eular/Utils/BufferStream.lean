/-
The byte stream over a buffer (`buffer_stream.cpp`, and of `buffer.cpp`
what it calls).

A `ByteBuffer` is its content and the size of the block it lies in; who
else owns the block makes no difference here, since a copy keeps content
and size. Allocations succeed. The stream keeps two positions in the
buffer: what lies between them is unread. A write that does not fit behind
the write position first moves the unread bytes to the front (`compact`).

A value other than a string goes through as the bytes of its object
representation, a string as its characters and a NUL.
-/
import Mathlib

namespace Eular.Utils

-- ==== buffer

/-- `UINT32_MAX`. -/
def uint32Max : Nat := 2 ^ 32 - 1

/-- `ByteBuffer`: `mDataSize` is the length of the content. -/
structure ByteBuffer where
  content : List UInt8
  capacity : Nat
  content_le : content.length ≤ capacity
  capacity_le : capacity ≤ uint32Max

namespace ByteBuffer

variable (b : ByteBuffer)

def size : Nat := b.content.length

/-- An empty buffer in a block of `capacity` bytes. -/
def ofCapacity (capacity : Nat) (h : capacity ≤ uint32Max) : ByteBuffer :=
  ⟨[], capacity, Nat.zero_le _, h⟩

def calculate (dataSize : Nat) : Nat :=
  if 256 ≤ dataSize then
    if uint32Max - dataSize / 2 < dataSize then uint32Max else dataSize + dataSize / 2
  else 256

/-- The capacity `set` leaves behind. -/
def grown (newSize : Nat) : Nat :=
  if b.capacity < newSize then calculate newSize else b.capacity

theorem le_grown {newSize : Nat} (h : newSize ≤ uint32Max) :
    newSize ≤ b.grown newSize ∧ b.grown newSize ≤ uint32Max := by
  have hcap := b.capacity_le
  unfold grown calculate
  unfold uint32Max at *
  split
  · split
    · split <;> omega
    · omega
  · omega

/-- `set`: `data` from `offset` on, and nothing behind it; what it answers
is how much it took. -/
def set (data : List UInt8) (offset : Nat) : ByteBuffer × Nat :=
  if data = [] ∨ b.size < offset then (b, 0)
  else if h : data.length + offset ≤ uint32Max then
    ({ content := b.content.take offset ++ data
       capacity := b.grown (data.length + offset)
       content_le := by
         rw [List.length_append]
         have hgrown := (b.le_grown h).1
         have htake := List.length_take_le offset b.content
         omega
       capacity_le := (b.le_grown h).2 }, data.length)
  else (b, 0)

def append (data : List UInt8) : ByteBuffer := (b.set data b.size).1

theorem content_set {b : ByteBuffer} {data : List UInt8} {offset : Nat} (hdata : data ≠ [])
    (hoffset : offset ≤ b.size) (hsize : data.length + offset ≤ uint32Max) :
    (b.set data offset).1.content = b.content.take offset ++ data ∧
      (b.set data offset).2 = data.length := by
  have hcond : ¬ (data = [] ∨ b.size < offset) := by
    rintro (h | h)
    · exact hdata h
    · omega
  rw [set, if_neg hcond, dif_pos hsize]
  exact ⟨rfl, rfl⟩

theorem size_le_append (data : List UInt8) : b.size ≤ (b.append data).size := by
  unfold append set
  split
  · exact le_rfl
  · split
    · simp [size]
    · exact le_rfl

end ByteBuffer

-- ==== stream

inductive StreamError where
  | stringTooLarge
  | insufficientData
  | invalidState
  | notEnoughMemory
  | sizeOverflow
deriving DecidableEq, Repr

/-- `BufferStream`, over a buffer that is there. -/
structure BufferStream where
  buffer : ByteBuffer
  rpos : Nat
  wpos : Nat
  rpos_le : rpos ≤ wpos
  wpos_le : wpos ≤ buffer.size

namespace BufferStream

/-- `BufferStream(buffer)`. -/
def ofBuffer (b : ByteBuffer) : BufferStream := ⟨b, 0, b.size, Nat.zero_le _, le_rfl⟩

variable (s : BufferStream)

/-- What is between the two positions. -/
def unread : List UInt8 := (s.buffer.content.take s.wpos).drop s.rpos

theorem length_unread : s.unread.length = s.wpos - s.rpos := by
  have hwpos : s.wpos ≤ s.buffer.content.length := s.wpos_le
  rw [unread, List.length_drop, List.length_take, min_eq_left hwpos]

/-- The first step of `write`: where the data do not fit behind the write
position, the unread bytes move to the front. `set` takes nothing when
there are none. -/
def compact (size : Nat) : BufferStream × Bool :=
  if s.rpos ≠ 0 ∧ s.buffer.capacity - s.wpos < size then
    let copied := s.buffer.set s.unread 0
    if h : copied.2 = s.wpos - s.rpos ∧ s.wpos - s.rpos ≤ copied.1.size then
      (⟨copied.1, 0, s.wpos - s.rpos, Nat.zero_le _, h.2⟩, true)
    else (s, false)
  else (s, true)

/-- `write`: what it throws, and the stream after it. -/
def write (data : List UInt8) : Except StreamError Unit × BufferStream :=
  if data = [] then (.ok (), s)
  else if s.wpos < s.rpos ∨ s.buffer.size < s.wpos ∨ s.buffer.capacity < s.buffer.size then
    (.error .invalidState, s)
  else
    let (s, moved) := s.compact data.length
    if !moved then (.error .notEnoughMemory, s)
    else if uint32Max - s.wpos < data.length then (.error .sizeOverflow, s)
    else
      let expectedSize := s.wpos + data.length
      if h : (s.buffer.append data).size = expectedSize then
        (.ok (), ⟨s.buffer.append data, s.rpos, expectedSize, Nat.le_add_right_of_le s.rpos_le,
          h.ge⟩)
      else
        (.error .notEnoughMemory, ⟨s.buffer.append data, s.rpos, s.wpos, s.rpos_le,
          s.wpos_le.trans (s.buffer.size_le_append data)⟩)

/-- `read`: `size` bytes, if that many are unread. -/
def read (size : Nat) : Option {bs : List UInt8 // bs.length = size} × BufferStream :=
  if h : size ≤ s.wpos - s.rpos then
    (some ⟨s.unread.take size, by rw [List.length_take, length_unread, min_eq_left h]⟩,
      ⟨s.buffer, s.rpos + size, s.wpos, by have := s.rpos_le; omega, s.wpos_le⟩)
  else (none, s)

/-- The loop of `operator>>(std::string &)`; `fuel` bounds its rounds. -/
def readString : Nat → List UInt8 → BufferStream → Except StreamError (List UInt8) × BufferStream
  | 0, _, s => (.error .insufficientData, s)
  | fuel + 1, temp, s =>
    match s.read 1 with
    | (none, s) => (.error .insufficientData, s)
    | (some ⟨bs, _⟩, s) =>
      match bs with
      | ch :: _ => if ch ≠ 0 then readString fuel (temp ++ [ch]) s else (.ok temp, s)
      | [] => (.error .insufficientData, s)

end BufferStream

-- ==== values

/-- The types that go through as they lie in memory. -/
inductive ScalarType where
  | bool | int8 | uint8 | wchar | int16 | uint16 | float | int32 | uint32 | double | int64 | uint64
deriving DecidableEq, Repr

def ScalarType.sizeof : ScalarType → Nat
  | bool | int8 | uint8 => 1
  | int16 | uint16 => 2
  | wchar | float | int32 | uint32 => 4
  | double | int64 | uint64 => 8

theorem ScalarType.sizeof_pos (t : ScalarType) : 0 < t.sizeof := by
  cases t <;> decide

inductive ItemType where
  | scalar (t : ScalarType)
  | string
deriving DecidableEq, Repr

/-- A value: its object representation, or the characters of a string. -/
inductive Item where
  | scalar (t : ScalarType) (image : {bs : List UInt8 // bs.length = t.sizeof})
  | string (value : List UInt8)

namespace Item

def type : Item → ItemType
  | scalar t _ => .scalar t
  | string _ => .string

/-- The bytes a value is written as. -/
def bytes : Item → List UInt8
  | scalar _ image => image.1
  | string value => value ++ [0]

theorem bytes_ne_nil : ∀ v : Item, v.bytes ≠ []
  | scalar t image => by
      intro h
      have hlen := image.2
      have hpos := t.sizeof_pos
      rw [bytes] at h
      rw [h, List.length_nil] at hlen
      omega
  | string value => by simp [bytes]

end Item

namespace BufferStream

/-- `operator<<`. -/
def put (s : BufferStream) : Item → Except StreamError Unit × BufferStream
  | .scalar _ image => s.write image.1
  | .string value =>
    if uint32Max ≤ value.length then (.error .stringTooLarge, s) else s.write (value ++ [0])

/-- `operator>>`. -/
def get (s : BufferStream) : ItemType → Except StreamError Item × BufferStream
  | .scalar t =>
    match s.read t.sizeof with
    | (some image, s) => (.ok (.scalar t image), s)
    | (none, s) => (.error .insufficientData, s)
  | .string =>
    match readString (s.wpos - s.rpos + 1) [] s with
    | (.ok value, s) => (.ok (.string value), s)
    | (.error e, s) => (.error e, s)

end BufferStream

end Eular.Utils
