/-
The ring of a stream's send side (`util/ring_buffer.{h,cpp}`).

A `size_t` is of 64 bits. A view is where it starts in the block and how long
it is; the arrays of views that callers pass are there, so the answer is the
views filled in. `new` may throw, and does for a block that no object fills;
what a new block holds is not said. A call that throws leaves the ring alone,
as does one that never returns: both are `none`.
-/
import Eular.Lib.Bytes

namespace Eular.Utp

open Eular.Lib

abbrev Memory := Nat → UInt8

/-- `PTRDIFF_MAX`. -/
def maxAlloc : Nat := 2 ^ 63 - 1

/-- `ConstBufferView` and `MutableBufferView`, in the block. -/
structure View where
  start : Nat
  len : Nat
deriving DecidableEq, Repr

/-- The places of the views, in order. -/
def places (views : List View) : List Nat :=
  views.flatMap fun v => (List.range v.len).map fun i => v.start + i

/-- The loop of `memcpy` out of the views. -/
def copyOut (buffer : Memory) (views : List View) : List UInt8 :=
  views.flatMap fun v => readMem buffer v.start v.len

/-- The loop of `memcpy` into them. -/
def copyIn (buffer : Memory) : List View → List UInt8 → Memory
  | [], _ => buffer
  | v :: views, data =>
    copyIn (writeMem buffer v.start (data.take v.len)) views (data.drop v.len)

/-- `new uint8_t[n]`, where `memory` is what the allocator answers. -/
def newBlock (memory : Option Memory) (n : Nat) : Option Memory :=
  if n ≤ maxAlloc then memory else none

structure RingBuffer where
  buffer : Memory
  capacity : Nat := 0
  head : Nat := 0
  size : Nat := 0

namespace RingBuffer

/-- `RingBuffer(capacity)`, in a new block. -/
def ofCapacity (memory : Option Memory) (capacity : Nat) : Option RingBuffer :=
  (newBlock memory (max capacity 1)).map fun buffer => { buffer, capacity := max capacity 1 }

variable (m : RingBuffer)

def freeSize : Nat := m.capacity - m.size

/-- The views of `bytes` places from `start` on. -/
def split (start bytes : Nat) : List View :=
  let first := min bytes (m.capacity - start)
  let second := bytes - first
  if 0 < second then [⟨start, first⟩, ⟨0, second⟩] else [⟨start, first⟩]

def readableViews (maxBytes : Nat) : List View :=
  if m.capacity = 0 ∨ m.size = 0 ∨ maxBytes = 0 then []
  else m.split m.head (min maxBytes m.size)

def readableViewsFrom (startOffset maxBytes : Nat) : List View :=
  if m.capacity = 0 ∨ m.size = 0 ∨ maxBytes = 0 ∨ m.size ≤ startOffset then []
  else
    let available := m.size - startOffset
    m.split ((m.head + startOffset) % 2 ^ 64 % m.capacity) (min maxBytes available)

def writableViews (maxBytes : Nat) : List View :=
  if m.capacity = 0 ∨ maxBytes = 0 ∨ m.freeSize = 0 then []
  else m.split ((m.head + m.size) % 2 ^ 64 % m.capacity) (min maxBytes m.freeSize)

def produce (bytes : Nat) : RingBuffer :=
  { m with size := min ((m.size + bytes) % 2 ^ 64) m.capacity }

def consume (bytes : Nat) : RingBuffer :=
  let n := min bytes m.size
  { m with
    head := if m.capacity ≠ 0 then (m.head + n) % 2 ^ 64 % m.capacity else m.head
    size := m.size - n }

/-- The doubling loop of `ensureFree`: after 64 rounds `newCap` is 0, and stays it. -/
def grown : Nat → Nat → Nat → Option Nat
  | 0, _, _ => none
  | rounds + 1, newCap, required =>
    if newCap < required then grown rounds (newCap * 2 % 2 ^ 64) required else some newCap

/-- `ensureFree`; `memory` is what `new` answers. -/
def ensureFree (memory : Option Memory) (freeBytes : Nat) : Option RingBuffer :=
  if freeBytes ≤ m.freeSize then some m
  else do
    let required := (m.size + freeBytes) % 2 ^ 64
    let newCap ← grown 65 (max m.capacity 1) required
    let newBuffer ← newBlock memory newCap
    let views := m.readableViews m.size
    some { m with
      buffer := writeMem newBuffer 0 (copyOut m.buffer views), capacity := newCap, head := 0 }

/-- `write`, and how much it has written. -/
def write (memory : Option Memory) (data : List UInt8) :
    Option (Nat × RingBuffer) :=
  if data.length = 0 then some (0, m)
  else do
    let m ← m.ensureFree memory data.length
    let views := m.writableViews data.length
    let written := (places views).length
    some (written, { m with buffer := copyIn m.buffer views data }.produce written)

/-- `read`, into a buffer that is there; the bytes are what it copies out. -/
def read (len : Nat) : List UInt8 × RingBuffer :=
  if len = 0 then ([], m)
  else
    let copied := copyOut m.buffer (m.readableViews len)
    (copied, m.consume copied.length)

/-- A caller puts `byte` at place `i` of the views that `writableViews` grants it. -/
def store (maxBytes i : Nat) (byte : UInt8) : RingBuffer :=
  match (places (m.writableViews maxBytes))[i]? with
  | some place => { m with buffer := Function.update m.buffer place byte }
  | none => m

end RingBuffer

-- ==== calls

inductive RingOp where
  | ensureFree (memory : Option Memory) (freeBytes : Nat)
  | write (memory : Option Memory) (data : List UInt8)
  | read (len : Nat)
  | readableViews (maxBytes : Nat)
  | readableViewsFrom (startOffset maxBytes : Nat)
  | writableViews (maxBytes : Nat)
  | store (maxBytes i : Nat) (byte : UInt8)
  | produce (bytes : Nat)
  | consume (bytes : Nat)
  | sizes

/-- What a caller learns: of views, the bytes that it sees through them or the places that
they grant it; of `sizes`, `size` and `freeSize`. -/
inductive RingAnswer where
  | failed
  | done
  | written (n : Nat)
  | seen (bytes : List UInt8)
  | granted (n : Nat)
  | sizes (size free : Nat)
deriving DecidableEq, Repr

namespace RingBuffer

def call (m : RingBuffer) : RingOp → RingAnswer × RingBuffer
  | .ensureFree memory freeBytes =>
    match m.ensureFree memory freeBytes with
    | some m' => (.done, m')
    | none => (.failed, m)
  | .write memory data =>
    match m.write memory data with
    | some (n, m') => (.written n, m')
    | none => (.failed, m)
  | .read len => (.seen (m.read len).1, (m.read len).2)
  | .readableViews maxBytes => (.seen (copyOut m.buffer (m.readableViews maxBytes)), m)
  | .readableViewsFrom startOffset maxBytes =>
    (.seen (copyOut m.buffer (m.readableViewsFrom startOffset maxBytes)), m)
  | .writableViews maxBytes => (.granted (places (m.writableViews maxBytes)).length, m)
  | .store maxBytes i byte => (.done, m.store maxBytes i byte)
  | .produce bytes => (.done, m.produce bytes)
  | .consume bytes => (.done, m.consume bytes)
  | .sizes => (.sizes m.size m.freeSize, m)

def step (m : RingBuffer) (op : RingOp) : RingBuffer := (m.call op).2

/-- What the calls of a run answer. -/
def answers (m : RingBuffer) : List RingOp → List RingAnswer
  | [] => []
  | op :: ops => (m.call op).1 :: (m.step op).answers ops

end RingBuffer

end Eular.Utp
