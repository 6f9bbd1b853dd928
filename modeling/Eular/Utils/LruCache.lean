/-
The LRU cache (`lru_cache.hpp`).

The hash set holds the addresses of the entries and is asked for a key, so
it is the list of these addresses; the entries themselves lie on a heap,
linked in a list from the oldest to the youngest. `new` takes the next
address, `delete` empties one. The calls of the listener are kept in
`notified`.

Keys and values are passed as values: the arguments of a call are no
references into the cache.

`Lru` is what the cache is for: the entries in the order of their use, and
what a call does to them.
-/
import Eular.Lib.LinkedList
import Eular.Lib.Run

namespace Eular.Utils

open Lib

-- ==== the cache

/-- `LruCache<TKey, TValue>`; an `Entry` is a node that carries the key and
the value. -/
structure LruCache (K V : Type) where
  heap : NodeHeap (K × V) := fun _ => none
  /-- the address the next `new` returns -/
  free : Nat := 0
  mSet : List Nat := []
  mListener : Bool := false
  mOldest : Option Nat := none
  mYoungest : Option Nat := none
  mMaxCapacity : Nat := 0
  /-- what the listener has been called with -/
  notified : List (K × V) := []

namespace LruCache

variable {K V : Type} [DecidableEq K]

variable (c : LruCache K V) (key : K)

def findByKey : Option Nat :=
  c.mSet.find? fun a => (c.heap a).any fun e => e.data.1 = key

/-- The links of the entry at `a`. -/
def setLinks (a : Nat) (parent child : Option Nat) : LruCache K V :=
  { c with heap := c.heap.modify a fun e => { e with parent, child } }

def setParent (a : Nat) (parent : Option Nat) : LruCache K V :=
  { c with heap := c.heap.modify a fun e => { e with parent } }

def setChild (a : Nat) (child : Option Nat) : LruCache K V :=
  { c with heap := c.heap.modify a fun e => { e with child } }

def attachToCache (entry : Nat) : LruCache K V :=
  let c := c.setLinks entry none none
  match c.mYoungest with
  | none => { c with mYoungest := some entry, mOldest := some entry }
  | some youngest =>
    { (c.setParent entry (some youngest)).setChild youngest (some entry) with
      mYoungest := some entry }

def detachFromCache (entry : Nat) : LruCache K V :=
  match c.heap entry with
  | none => c
  | some e =>
    let c := match e.parent with
      | some parent => c.setChild parent e.child
      | none => { c with mOldest := e.child }
    let c := match e.child with
      | some child => c.setParent child e.parent
      | none => { c with mYoungest := e.parent }
    c.setLinks entry none none

def size : Nat := c.mSet.length

/-- The listener is called, if there is one. -/
def notify (entry : K × V) : LruCache K V :=
  if c.mListener then { c with notified := c.notified ++ [entry] } else c

def get : LruCache K V × Option V :=
  match c.findByKey key with
  | none => (c, none)
  | some entry =>
    let c := (c.detachFromCache entry).attachToCache entry
    (c, (c.heap entry).map (·.data.2))

def remove : LruCache K V × Bool :=
  match c.findByKey key with
  | none => (c, false)
  | some entry =>
    match c.heap entry with
    | none => (c, true)
    | some e =>
      let c := { c with mSet := c.mSet.erase entry }
      let c := (c.notify e.data).detachFromCache entry
      ({ c with heap := Function.update c.heap entry none }, true)

def removeOldest : LruCache K V × Bool :=
  match c.mOldest.bind c.heap with
  | some e => c.remove e.data.1
  | none => (c, false)

/-- A new entry enters the set and the list. -/
def addEntry (value : V) : LruCache K V :=
  let newEntry := c.free
  { c with
    heap := Function.update c.heap newEntry (some { data := (key, value) })
    free := newEntry + 1
    mSet := newEntry :: c.mSet }.attachToCache newEntry

/-- The room `put` makes. -/
def makeRoom : LruCache K V :=
  if c.mMaxCapacity ≠ 0 ∧ c.mMaxCapacity ≤ c.size then c.removeOldest.1 else c

def put (value : V) : LruCache K V × Bool :=
  let c := c.makeRoom
  match c.findByKey key with
  | some _ => (c, false)
  | none => (c.addEntry key value, true)

def peekOldestValue : Option V := (c.mOldest.bind c.heap).map (·.data.2)

/-- The loop of `clear` over the list; there are no more entries than the
set has. -/
def walk (h : NodeHeap (K × V)) : Nat → Option Nat → List (K × V)
  | 0, _ => []
  | _, none => []
  | fuel + 1, some a =>
    match h a with
    | none => []
    | some e => e.data :: walk h fuel e.child

def clear : LruCache K V :=
  let c :=
    if c.mListener then
      { c with notified := c.notified ++ walk c.heap c.mSet.length c.mOldest }
    else c
  { c with
    mYoungest := none
    mOldest := none
    heap := fun a => if a ∈ c.mSet then none else c.heap a
    mSet := [] }

end LruCache

-- ==== the calls

inductive CacheOp (K V : Type) where
  | put (key : K) (value : V)
  | get (key : K)
  | remove (key : K)
  | removeOldest
  | peekOldestValue
  | size
  | clear
  | setOnEntryRemovedListener (listener : Bool)
deriving DecidableEq, Repr

inductive CacheAnswer (V : Type) where
  | done
  | flag (b : Bool)
  | value (v : Option V)
  | count (n : Nat)
deriving DecidableEq, Repr

namespace LruCache

variable {K V : Type} [DecidableEq K]

def call (c : LruCache K V) : CacheOp K V → LruCache K V × CacheAnswer V
  | .put key value => ((c.put key value).1, .flag (c.put key value).2)
  | .get key => ((c.get key).1, .value (c.get key).2)
  | .remove key => ((c.remove key).1, .flag (c.remove key).2)
  | .removeOldest => (c.removeOldest.1, .flag c.removeOldest.2)
  | .peekOldestValue => (c, .value c.peekOldestValue)
  | .size => (c, .count c.size)
  | .clear => (c.clear, .done)
  | .setOnEntryRemovedListener listener => ({ c with mListener := listener }, .done)

end LruCache

-- ==== what it is for

/-- The cache as the order of use of its entries, the oldest first. -/
structure Lru (K V : Type) where
  entries : List (K × V) := []
  capacity : Nat := 0
  listener : Bool := false
  notified : List (K × V) := []
deriving DecidableEq, Repr

namespace Lru

variable {K V : Type} [DecidableEq K]

def find (m : Lru K V) (key : K) : Option (K × V) := m.entries.find? fun e => e.1 = key

variable (m : Lru K V)

def evict (gone left : List (K × V)) : Lru K V :=
  { m with entries := left, notified := if m.listener then m.notified ++ gone else m.notified }

/-- There is no room for one more. -/
def isFull : Prop := m.capacity ≠ 0 ∧ m.capacity ≤ m.entries.length

instance (m : Lru K V) : Decidable m.isFull := inferInstanceAs (Decidable (_ ∧ _))

/-- A key that is there stays as it is; a new one makes room by the oldest
entry, if there is none. -/
def put (key : K) (value : V) : Lru K V × Bool :=
  match m.find key with
  | some _ => (m, false)
  | none =>
    let m := if m.isFull then m.evict (m.entries.take 1) (m.entries.drop 1) else m
    ({ m with entries := m.entries ++ [(key, value)] }, true)

/-- The entry becomes the youngest. -/
def get (key : K) : Lru K V × Option V :=
  match m.find key with
  | some e => ({ m with entries := m.entries.filter (·.1 ≠ key) ++ [e] }, some e.2)
  | none => (m, none)

def remove (key : K) : Lru K V × Bool :=
  match m.find key with
  | some e => (m.evict [e] (m.entries.filter (·.1 ≠ key)), true)
  | none => (m, false)

def removeOldest : Lru K V × Bool :=
  match m.entries with
  | e :: rest => (m.evict [e] rest, true)
  | [] => (m, false)

def peekOldestValue : Option V := m.entries.head?.map (·.2)

def call : CacheOp K V → Lru K V × CacheAnswer V
  | .put key value => ((m.put key value).1, .flag (m.put key value).2)
  | .get key => ((m.get key).1, .value (m.get key).2)
  | .remove key => ((m.remove key).1, .flag (m.remove key).2)
  | .removeOldest => (m.removeOldest.1, .flag m.removeOldest.2)
  | .peekOldestValue => (m, .value m.peekOldestValue)
  | .size => (m, .count m.entries.length)
  | .clear => (m.evict m.entries [], .done)
  | .setOnEntryRemovedListener listener => ({ m with listener }, .done)

end Lru

end Eular.Utils
