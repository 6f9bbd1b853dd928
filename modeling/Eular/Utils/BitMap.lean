/-
The bit map (`bitmap.{h,cpp}` of utils).

A block is what `malloc` answers: its bytes, and how many they are. No two
maps ever point to one block (`alloc` is the only place a pointer comes
from), so that a map holds its block; what `operator=` leaks is gone. Whether
`malloc` has memory is an input of the calls that ask for some, and
`nullThrow` throws where the answer is `threw`.

`IndexSet` is what a map is for: so many indexes, and which of them are in.
-/
import Eular.Lib.Bitmap
import Eular.Lib.Run

namespace Eular.Utils

open Lib

def BITS_PEER_BYTE : Nat := 8

def DEFAULT_SIZE : Nat := 256

/-- A block of `malloc`. -/
structure Block where
  bytes : Nat
  memory : Nat → UInt8

structure BitMap where
  mBitMap : Option Block := none
  mSize : Nat := 0
  mCapacity : Nat := 0

namespace BitMap

variable (b : BitMap) (ok : Bool)

/-- `alloc`, and the block it returns; `ok` is whether `malloc` has the memory. -/
def alloc (bitSize : Nat) : Option Block × BitMap :=
  let bytes := bitSize / BITS_PEER_BYTE + if bitSize % BITS_PEER_BYTE ≠ 0 then 1 else 0
  if ok then
    (some ⟨bytes, fun _ => 0⟩, { b with
      mCapacity := bytes * BITS_PEER_BYTE % 2 ^ 32
      mSize := bytes * BITS_PEER_BYTE % 2 ^ 32 })
  else (none, { b with mCapacity := 0 })

/-- `memcpy` of the first `bytes` bytes, where there is something to copy from. -/
def copyFront (target : Block) (source : Option Block) (bytes : Nat) : Block :=
  match source with
  | some block =>
    { target with memory := fun i => if i < bytes then block.memory i else target.memory i }
  | none => target

def resize (bitSize : Nat) : Bool × BitMap :=
  if bitSize ≤ b.mCapacity then (true, { b with mSize := bitSize })
  else
    match b.alloc ok bitSize with
    | (none, b') => (false, b')
    | (some newBitMap, b') =>
      let bytes :=
        if b'.mCapacity < b.mCapacity then b'.mCapacity / BITS_PEER_BYTE
        else b.mCapacity / BITS_PEER_BYTE
      (true, { b' with
        mSize := bitSize
        mBitMap := some (copyFront newBitMap b.mBitMap bytes) })

/-- `BitMap()`. -/
def ofDefault : BitMap :=
  let (block, b) := alloc {} ok DEFAULT_SIZE
  { b with mBitMap := block }

/-- `BitMap(bitSize)`. -/
def ofSize (bitSize : Nat) : BitMap :=
  (resize {} ok (if bitSize = 0 then DEFAULT_SIZE else bitSize)).2

/-- The copy of `other` that the copy constructor and `operator=` make where it has a block. -/
def copied (other : BitMap) : BitMap :=
  let (block, b) := b.alloc ok other.mCapacity
  { b with
    mBitMap := block.map fun block =>
      copyFront block other.mBitMap (b.mCapacity / BITS_PEER_BYTE)
    mSize := other.mSize }

/-- `BitMap(other)`. -/
def ofCopy (other : BitMap) : BitMap :=
  if other.mBitMap.isSome ∧ other.mCapacity ≠ 0 then copied {} ok other else {}

/-- `operator=`, of another object. -/
def assign (other : BitMap) : BitMap :=
  if other.mBitMap.isSome ∧ other.mCapacity ≠ 0 then b.copied ok other else b

/-- `set`; `none` where it throws. -/
def set (idx : Nat) (v : Bool) : Option (Bool × BitMap) :=
  if b.mCapacity ≤ idx then some (false, b)
  else
    match b.mBitMap with
    | none => none
    | some block =>
      some (true, { b with mBitMap := some { block with memory := setBit block.memory idx v } })

/-- `at`; `none` where it throws. -/
def at? (idx : Nat) : Option Bool :=
  if b.mCapacity ≤ idx then some false
  else
    match b.mBitMap with
    | none => none
    | some block => some (getBit block.memory idx)

def clear : BitMap :=
  { b with mBitMap := b.mBitMap.map fun block =>
      { block with memory := fun i =>
          if i < b.mCapacity / BITS_PEER_BYTE then 0 else block.memory i } }

/-- `count_bits<uint64_t>`. -/
def countBits64 (v : Nat) : Nat := popcount 32 (v % 2 ^ 32) + popcount 32 (v / 2 ^ 32)

/-- `count`: the whole words, and the bytes behind them. The sums wrap where a `uint32_t` does. -/
def count : Nat :=
  let bytes := b.mCapacity / BITS_PEER_BYTE
  let len := bytes / 8
  let reserveSize := bytes % 8
  let memory := (b.mBitMap.map (·.memory)).getD fun _ => 0
  (((List.range len).map fun i => countBits64 (readLittle memory (8 * i) 8)).sum
    + ((List.range reserveSize).map fun i =>
        popcount 8 (memory (8 * len + i)).toNat).sum) % 2 ^ 32

end BitMap

-- ==== the indexes

/-- A set of the indexes below `size`. -/
structure IndexSet where
  size : Nat
  holds : Nat → Bool

namespace IndexSet

def empty (size : Nat) : IndexSet := ⟨size, fun _ => false⟩

variable (s : IndexSet)

def at' (i : Nat) : Bool := decide (i < s.size) && s.holds i

def set (i : Nat) (v : Bool) : Bool × IndexSet :=
  if i < s.size then (true, { s with holds := Function.update s.holds i v }) else (false, s)

/-- What comes into range is not in the set. -/
def resize (size : Nat) : IndexSet := ⟨size, s.at'⟩

def clear : IndexSet := empty s.size

def count : Nat := (List.range s.size).countP s.at'

end IndexSet

-- ==== the calls

/-- Calls on objects that have names: constructions, and calls of members. -/
inductive BitMapOp where
  | new (x : Nat) (ok : Bool)
  | newSize (x : Nat) (bitSize : Nat) (ok : Bool)
  | newCopy (x y : Nat) (ok : Bool)
  | assign (x y : Nat) (ok : Bool)
  | resize (x : Nat) (bitSize : Nat) (ok : Bool)
  | set (x : Nat) (idx : Nat) (v : Bool)
  | clear (x : Nat)
  | at (x : Nat) (idx : Nat)
  | count (x : Nat)
  | size (x : Nat)

inductive BitMapAnswer where
  | done
  | flag (b : Bool)
  | number (n : Nat)
  | threw
deriving DecidableEq, Repr

abbrev Objects (α : Type) := Nat → Option α

/-- A call on the object `x`, where there is one. -/
def Objects.on {α : Type} (w : Objects α) (x : Nat) (f : α → BitMapAnswer × α) :
    BitMapAnswer × Objects α :=
  match w x with
  | none => (.done, w)
  | some a => ((f a).1, Function.update w x (some (f a).2))

namespace BitMap

def call (w : Objects BitMap) : BitMapOp → BitMapAnswer × Objects BitMap
  | .new x ok => (.done, Function.update w x (some (ofDefault ok)))
  | .newSize x bitSize ok => (.done, Function.update w x (some (ofSize ok bitSize)))
  | .newCopy x y ok =>
    match w y with
    | none => (.done, w)
    | some other => (.done, Function.update w x (some (ofCopy ok other)))
  | .assign x y ok =>
    match w y with
    | none => (.done, w)
    | some other => w.on x fun b => (.done, if x = y then b else b.assign ok other)
  | .resize x bitSize ok => w.on x fun b => (.flag (b.resize ok bitSize).1, (b.resize ok bitSize).2)
  | .set x idx v => w.on x fun b =>
    match b.set idx v with
    | none => (.threw, b)
    | some (done, b') => (.flag done, b')
  | .clear x => w.on x fun b => (.done, b.clear)
  | .at x idx => w.on x fun b => (((b.at? idx).map .flag).getD .threw, b)
  | .count x => w.on x fun b => (.number b.count, b)
  | .size x => w.on x fun b => (.number b.mSize, b)

def step (w : Objects BitMap) (op : BitMapOp) : Objects BitMap := (call w op).2

/-- What the calls of a run answer. -/
def answers (w : Objects BitMap) : List BitMapOp → List BitMapAnswer
  | [] => []
  | op :: ops => (call w op).1 :: answers (step w op) ops

end BitMap

namespace IndexSet

def call (w : Objects IndexSet) : BitMapOp → BitMapAnswer × Objects IndexSet
  | .new x _ => (.done, Function.update w x (some (empty DEFAULT_SIZE)))
  | .newSize x bitSize _ =>
    (.done, Function.update w x (some (empty (if bitSize = 0 then DEFAULT_SIZE else bitSize))))
  | .newCopy x y _ =>
    match w y with
    | none => (.done, w)
    | some other => (.done, Function.update w x (some other))
  | .assign x y _ =>
    match w y with
    | none => (.done, w)
    | some other => w.on x fun _ => (.done, other)
  | .resize x bitSize _ => w.on x fun s => (.flag true, s.resize bitSize)
  | .set x idx v => w.on x fun s => (.flag (s.set idx v).1, (s.set idx v).2)
  | .clear x => w.on x fun s => (.done, s.clear)
  | .at x idx => w.on x fun s => (.flag (s.at' idx), s)
  | .count x => w.on x fun s => (.number s.count, s)
  | .size x => w.on x fun s => (.number s.size, s)

def step (w : Objects IndexSet) (op : BitMapOp) : Objects IndexSet := (call w op).2

def answers (w : Objects IndexSet) : List BitMapOp → List BitMapAnswer
  | [] => []
  | op :: ops => (call w op).1 :: answers (step w op) ops

end IndexSet

end Eular.Utils
