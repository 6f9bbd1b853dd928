/-
The ids of a context's connections (`bitmap.c`, `kcp_alloc_local_scid`,
`kcp_accept`, `kcp_connect_candidates`, `kcp_connection_destroy`).

A connection is live from the call that makes it until its destruction. Of
the calls that make one, what matters for its id is whether the table took
it, which ids were drawn, and whether the rest of the call went through;
whether the table has room for the peer's id is not looked into. The values
`getrandom` gives are inputs.
-/
import Eular.Lib.Bitmap
import Eular.Lib.Run
import Eular.Kcp.Segment

namespace Eular.Kcp

open Lib

def KCP_BITMAP_SIZE : Nat := 65535

def BITS_PEER_BYTE : Nat := 8

-- ==== the bitmap

structure Bitmap where
  array : Nat → UInt8
  size : Nat

namespace Bitmap

variable (b : Bitmap)

/-- `bitmap_set`. -/
def set (index : Nat) (value : Bool) : Bitmap :=
  if b.size ≤ index then b else { b with array := setBit b.array index value }

/-- `bitmap_get`. -/
def get (index : Nat) : Bool :=
  if b.size ≤ index then false else getBit b.array index

/-- `count_bits64`, on two halves. -/
def countBits64 (v : Nat) : Nat := popcount 32 (v % 2 ^ 32) + popcount 32 (v / 2 ^ 32)

/-- `bitmap_count`: the whole words, then the bytes behind them. -/
def count : Nat :=
  let bytes := b.size / BITS_PEER_BYTE
  let len := bytes / 8
  let reserveSize := bytes % 8
  ((List.range len).map fun i => countBits64 (readLittle b.array (8 * i) 8)).sum
    + ((List.range reserveSize).map fun i => popcount 8 (b.array (8 * len + i)).toNat).sum

theorem get_set (i j : Nat) (value : Bool) :
    (b.set i value).get j = if j = i ∧ i < b.size then value else b.get j := by
  rw [set]
  by_cases hi : b.size ≤ i
  · rw [if_pos hi, if_neg fun h => absurd h.2 (Nat.not_lt_of_le hi)]
  · rw [if_neg hi, get, get]
    dsimp only
    by_cases hj : b.size ≤ j
    · rw [if_pos hj, if_pos hj, if_neg fun h => absurd h.2 (by omega)]
    · have hboth : (j = i ∧ i < b.size) ↔ j = i := and_iff_left (Nat.lt_of_not_le hi)
      rw [if_neg hj, if_neg hj, getBit_setBit]
      simp only [hboth]

@[simp] theorem size_set (i : Nat) (value : Bool) : (b.set i value).size = b.size := by
  rw [set]
  split <;> rfl

theorem count_le : b.count ≤ 8 * (b.size / BITS_PEER_BYTE) := by
  have hwords : ∀ n, ((List.range n).map fun i =>
      countBits64 (readLittle b.array (8 * i) 8)).sum ≤ 64 * n := by
    intro n
    refine (List.sum_le_card_nsmul _ 64 ?_).trans (by simp [Nat.mul_comm])
    rintro x hx
    obtain ⟨i, -, rfl⟩ := List.mem_map.mp hx
    exact Nat.add_le_add (popcount_le 32 _) (popcount_le 32 _)
  have hrest : ∀ n m, ((List.range n).map fun i =>
      popcount 8 (b.array (8 * m + i)).toNat).sum ≤ 8 * n := by
    intro n m
    refine (List.sum_le_card_nsmul _ 8 ?_).trans (by simp [Nat.mul_comm])
    rintro x hx
    obtain ⟨i, -, rfl⟩ := List.mem_map.mp hx
    exact popcount_le 8 _
  have h := Nat.add_le_add (hwords (b.size / BITS_PEER_BYTE / 8))
    (hrest (b.size / BITS_PEER_BYTE % 8) (b.size / BITS_PEER_BYTE / 8))
  rw [count]
  omega

end Bitmap

-- ==== the context

/-- `kcp_random`, on the number the system gives. -/
def kcpRandom (min max value : Nat) : Nat :=
  let lo := if max < min then max else min
  let hi := if max < min then min else max
  if lo = hi then lo else lo + value % (hi - lo + 1)

/-- What `kcp_alloc_local_scid` answers. -/
inductive ScidResult where
  | ok (scid : Nat)
  | NO_MORE_CONV
  | CONNECTION_ID_CONFLICT
deriving DecidableEq, Repr

/-- What of `KcpContext` the ids are about; `live` are the `scid`s of its connections. -/
structure IdContext where
  connectionId : Nat
  convBitmap : Bitmap
  live : List Nat := []

namespace IdContext

/-- The loop of `kcp_alloc_local_scid`, a candidate a round. -/
def drawScid (c : IdContext) : List Nat → ScidResult
  | [] => .CONNECTION_ID_CONFLICT
  | value :: values =>
    let candidate := u16 (kcpRandom 1 KCP_BITMAP_SIZE value)
    if candidate = c.connectionId then c.drawScid values
    else if c.convBitmap.get candidate then c.drawScid values
    else .ok candidate

variable (c : IdContext)

/-- `kcp_alloc_local_scid`, with what it draws. -/
def allocLocalScid (values : List Nat) : ScidResult :=
  if c.convBitmap.count = c.convBitmap.size then .NO_MORE_CONV else c.drawScid values

/-- `kcp_connection_destroy`, of a connection with this id. -/
def release (scid : Nat) : IdContext :=
  if scid ≠ 0 ∧ c.convBitmap.get scid = true then
    { c with convBitmap := c.convBitmap.set scid false }
  else c

/-- A connection is made: it goes into the table, gets an id, and the rest of the call
completes it. Where one of these fails it is destroyed. -/
def establish (inserted : Bool) (values : List Nat) (completed : Bool) : IdContext :=
  if inserted then
    match c.allocLocalScid values with
    | .ok scid =>
      let c := { c with convBitmap := c.convBitmap.set scid true }
      if completed then { c with live := c.live ++ [scid] } else c.release scid
    | _ => c.release 0
  else c.release 0

/-- `kcp_accept`, with the three draws of its two retries. -/
def accept (inserted : Bool) (value₀ value₁ value₂ : Nat) (completed : Bool) :
    IdContext := c.establish inserted [value₀, value₁, value₂] completed

/-- `kcp_connect_candidates`, which returns at once where there is a connection. -/
def connect (first inserted : Bool) (value₀ value₁ value₂ : Nat)
    (completed : Bool) : IdContext :=
  if first then c.establish inserted [value₀, value₁, value₂] completed else c

/-- `kcp_connection_destroy`, of the `i`-th live connection. -/
def destroy (i : Nat) : IdContext :=
  match c.live[i]? with
  | none => c
  | some scid => { c with live := c.live.eraseIdx i }.release scid

end IdContext

/-- What happens to the connections of a context. -/
inductive IdOp where
  | accept (inserted : Bool) (value₀ value₁ value₂ : Nat) (completed : Bool)
  | connect (first inserted : Bool) (value₀ value₁ value₂ : Nat) (completed : Bool)
  | destroy (i : Nat)
deriving DecidableEq, Repr

namespace IdContext

def step (c : IdContext) : IdOp → IdContext
  | .accept inserted value₀ value₁ value₂ completed =>
    c.accept inserted value₀ value₁ value₂ completed
  | .connect first inserted value₀ value₁ value₂ completed =>
    c.connect first inserted value₀ value₁ value₂ completed
  | .destroy i => c.destroy i

/-- A context whose socket is bound and whose bitmap is cleared. -/
def start (value : Nat) : IdContext where
  connectionId := u16 (kcpRandom 1 KCP_BITMAP_SIZE value)
  convBitmap := ⟨fun _ => 0, KCP_BITMAP_SIZE⟩

end IdContext

end Eular.Kcp
