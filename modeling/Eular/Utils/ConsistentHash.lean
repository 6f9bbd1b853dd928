/-
The consistent hash ring (`consistent_hash.h`).

A node puts `m_virtualNodeCount` points on the ring, a key is served by the
first node at or above its hash. `std::map::emplace` leaves a point that is
taken as it is, and `std::map::erase` drops a point whoever holds it; what
follows from the two is in `Proofs/ConsistentHash.lean`.

A `std::string` is the list of its bytes. The hash function is a parameter;
the source's own is `FNVHash`.
-/
import Eular.Lib.Run
import Eular.Lib.SortedTable

namespace Eular.Utils

open Lib

def FNVHash (key : List UInt8) : Nat :=
  (key.foldl (fun hash c => (hash ^^^ c.toUInt32) * 0x01000193) 0x811c9dc5 : UInt32).toNat

/-- `key + "#" + std::to_string(i)`. -/
def virtualNode (key : List UInt8) (i : Nat) : List UInt8 :=
  key ++ 0x23 :: (Nat.toDigits 10 i).map Char.toUInt8

/-- `ConsistentHash<T>`; `V` stands for `T *`. -/
structure ConsistentHash (V : Type) where
  nodeMap : List (Nat × V) := []
  virtualNodeCount : Nat := 17
deriving DecidableEq, Repr

namespace ConsistentHash

variable {V : Type}

variable (hash : List UInt8 → Nat) (r : ConsistentHash V) (key : List UInt8)

/-- The points of a node, in the order the source takes them. -/
def points : List Nat :=
  (List.range r.virtualNodeCount).map fun i => hash (virtualNode key i)

def insertNode (value : V) :
    ConsistentHash V :=
  { r with
    nodeMap := (r.points hash key).foldl (fun m h => emplace Prod.fst (h, value) m) r.nodeMap }

/-- `getNode`; on an empty ring it throws. -/
def getNode : Option V :=
  (next Prod.fst (hash key) r.nodeMap).map Prod.snd

def removeNode :
    ConsistentHash V :=
  { r with nodeMap := (r.points hash key).foldl (fun m h => erase Prod.fst h m) r.nodeMap }

end ConsistentHash

-- ==== what is live

/-- The calls that change a ring. -/
inductive RingOp (V : Type) where
  | insert (key : List UInt8) (value : V)
  | remove (key : List UInt8)
deriving DecidableEq, Repr

/-- A ring beside the nodes it is meant to hold. -/
structure Ring (V : Type) where
  table : ConsistentHash V
  live : List (List UInt8 × V) := []
deriving DecidableEq, Repr

/-- One call. A node that is inserted is live until its key is removed. -/
def Ring.step {V : Type} (hash : List UInt8 → Nat) (s : Ring V) : RingOp V → Ring V
  | .insert key value => ⟨s.table.insertNode hash key value, (key, value) :: s.live⟩
  | .remove key => ⟨s.table.removeNode hash key, s.live.filter fun node => node.1 ≠ key⟩

/-- The ring of `count` points a node, without nodes. -/
def Ring.empty (V : Type) (count : Nat) : Ring V := { table := { virtualNodeCount := count } }

end Eular.Utils
