/-
The ring buffer (`ring_buffer.{h,cpp}` of utils).

A `size_t` is of 64 bits. The vector is the block and what it holds, zeros at
first; `vector(capacity)` throws for what no object fills and where the
allocator has nothing, and then there is no ring. A pointer that a caller
passes is null or points to as many bytes as it says, and the pointer of a
region is the place in the block.

A caller fills a region byte by byte (`fillRegion`), before the call of
`commitWrite` or in several goes.
-/
import Eular.Utp.Stream.RingBuffer

namespace Eular.Utils

open Eular.Lib
open Utp (Memory maxAlloc)

structure RingBuffer where
  capacity : Nat
  buffer : Memory
  readPos : Nat := 0
  writePos : Nat := 0
  usedSize : Nat := 0
  totalBytesWritten : Nat := 0
  totalBytesRead : Nat := 0

namespace RingBuffer

/-- `RingBuffer(capacity)`; `enough` is whether the allocator has that much. -/
def ofCapacity (enough : Bool) (capacity : Nat) : Option RingBuffer :=
  if maxAlloc < capacity ∨ enough = false then none
  else if capacity = 0 then none
  else some { capacity, buffer := fun _ => 0 }

variable (m : RingBuffer)

def readableSize : Nat := m.usedSize

def writableSize : Nat := m.capacity - m.usedSize

/-- The two `memcpy` out of the block, of `n` bytes from `pos` on. -/
def copied (pos n : Nat) : List UInt8 :=
  let first_part := min n (m.capacity - pos)
  readMem m.buffer pos first_part
    ++ if first_part < n then readMem m.buffer 0 (n - first_part) else []

/-- Both positions of the reader, `n` bytes on. -/
def advanceRead (n : Nat) : RingBuffer :=
  { m with
    readPos := (m.readPos + n) % 2 ^ 64 % m.capacity
    usedSize := m.usedSize - n
    totalBytesRead := (m.totalBytesRead + n) % 2 ^ 64 }

/-- Both positions of the writer, `n` bytes on. -/
def advanceWrite (n : Nat) : RingBuffer :=
  { m with
    writePos := (m.writePos + n) % 2 ^ 64 % m.capacity
    usedSize := (m.usedSize + n) % 2 ^ 64
    totalBytesWritten := (m.totalBytesWritten + n) % 2 ^ 64 }

/-- `write`; `data` is `none` for the null pointer. -/
def write (data : Option (List UInt8)) : Nat × RingBuffer :=
  match data with
  | none => (0, m)
  | some src =>
    let to_write := min src.length m.writableSize
    if to_write = 0 then (0, m)
    else
      let first_part := min to_write (m.capacity - m.writePos)
      let buffer := writeMem m.buffer m.writePos (src.take first_part)
      let buffer :=
        if first_part < to_write then
          writeMem buffer 0 ((src.drop first_part).take (to_write - first_part))
        else buffer
      (to_write, { m with buffer }.advanceWrite to_write)

/-- `read`, and the bytes it copies; `data` is whether there is a pointer. -/
def read (data : Bool) (len : Nat) : List UInt8 × RingBuffer :=
  let to_read := min len m.readableSize
  if data = false ∨ to_read = 0 then ([], m)
  else (m.copied m.readPos to_read, m.advanceRead to_read)

def peek (data : Bool) (len : Nat) : List UInt8 :=
  let to_peek := min len m.readableSize
  if data = false ∨ to_peek = 0 then [] else m.copied m.readPos to_peek

def peekAt (data : Bool) (len offset : Nat) : List UInt8 :=
  if data = false ∨ len = 0 ∨ m.usedSize ≤ offset then []
  else
    let to_peek := min len (m.usedSize - offset)
    m.copied ((m.readPos + offset) % 2 ^ 64 % m.capacity) to_peek

def skip (len : Nat) : Nat × RingBuffer :=
  let to_skip := min len m.readableSize
  (to_skip, m.advanceRead to_skip)

def clear : RingBuffer :=
  { m with readPos := 0, writePos := 0, usedSize := 0 }

def reset : RingBuffer :=
  { m.clear with totalBytesWritten := 0, totalBytesRead := 0 }

/-- What a region is answered as: `ptr`, `len` and the boolean. -/
structure Region where
  ptr : Option Nat
  len : Nat
  more : Bool
deriving DecidableEq, Repr

/-- The region of `n` bytes from `pos` on. -/
def region (pos n : Nat) : Region :=
  if n = 0 then ⟨none, 0, false⟩
  else if (pos + n) % 2 ^ 64 ≤ m.capacity then ⟨some pos, n, false⟩
  else ⟨some pos, m.capacity - pos, true⟩

def getReadableRegion : Region := m.region m.readPos m.usedSize

def getWritableRegion : Region := m.region m.writePos m.writableSize

/-- A caller stores `byte` at `i` in the writable region. -/
def fillRegion (i : Nat) (byte : UInt8) : RingBuffer :=
  match m.getWritableRegion.ptr with
  | some ptr =>
    if i < m.getWritableRegion.len then
      { m with buffer := Function.update m.buffer (ptr + i) byte }
    else m
  | none => m

def commitWrite (len : Nat) : RingBuffer :=
  let contiguous := min m.writableSize (m.capacity - m.writePos)
  m.advanceWrite (min len contiguous)

def commitRead (len : Nat) : RingBuffer :=
  let contiguous := min m.readableSize (m.capacity - m.readPos)
  m.advanceRead (min len contiguous)

end RingBuffer

-- ==== calls

inductive RingBufferOp where
  | write (data : Option (List UInt8))
  | read (data : Bool) (len : Nat)
  | peek (data : Bool) (len : Nat)
  | peekAt (data : Bool) (len offset : Nat)
  | skip (len : Nat)
  | getReadableRegion
  | commitRead (len : Nat)
  | getWritableRegion
  | fillRegion (i : Nat) (byte : UInt8)
  | commitWrite (len : Nat)
  | clear
  | reset

/-- What a caller learns: a number, the bytes copied out to it, or a region, and of a readable
one the bytes it sees there. -/
inductive RingBufferAnswer where
  | done
  | count (n : Nat)
  | bytes (bytes : List UInt8)
  | readable (r : RingBuffer.Region) (bytes : List UInt8)
  | writable (r : RingBuffer.Region)
deriving DecidableEq, Repr

namespace RingBuffer

def call (m : RingBuffer) : RingBufferOp → RingBufferAnswer × RingBuffer
  | .write data => (.count (m.write data).1, (m.write data).2)
  | .read data len => (.bytes (m.read data len).1, (m.read data len).2)
  | .peek data len => (.bytes (m.peek data len), m)
  | .peekAt data len offset => (.bytes (m.peekAt data len offset), m)
  | .skip len => (.count (m.skip len).1, (m.skip len).2)
  | .getReadableRegion =>
    let r := m.getReadableRegion
    (.readable r (readMem m.buffer (r.ptr.getD 0) r.len), m)
  | .commitRead len => (.done, m.commitRead len)
  | .getWritableRegion => (.writable m.getWritableRegion, m)
  | .fillRegion i byte => (.done, m.fillRegion i byte)
  | .commitWrite len => (.done, m.commitWrite len)
  | .clear => (.done, m.clear)
  | .reset => (.done, m.reset)

def step (m : RingBuffer) (op : RingBufferOp) : RingBuffer := (m.call op).2

end RingBuffer

end Eular.Utils
