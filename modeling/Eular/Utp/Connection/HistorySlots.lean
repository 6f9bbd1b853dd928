/-
The packet numbers received so far (`util/receive_history.{h,cpp}`).

Ranges of packet numbers, the highest first, at most 256 of them: an ACK
frame is written from them. A range is its lowest number, 64 bits, and how
many numbers it has, 32 bits; `high` is computed in 64-bit arithmetic and so
are the differences the code takes before it narrows them to 32 bits.

In `ReceiveHistory` the linked list of the source is a list. In
`HistorySlots` it is what the source has: the ranges are linked through
indices into the vector of elements, and the slots of ranges that are gone
wait on a stack; the loops follow the links, in no more rounds than there
are slots.
-/
import Eular.Utp.Stream.Recv

namespace Eular.Utp

/-- A `uint64_t` difference. -/
def sub64 (a b : Nat) : Nat := (a + 2 ^ 64 - b) % 2 ^ 64

/-- `static_cast<uint32_t>`. -/
def toU32 (n : Nat) : Nat := n % 2 ^ 32

structure Element where
  low : Nat
  count : Nat
deriving DecidableEq, Repr

/-- `e.low + e.count - 1`. -/
def Element.high (e : Element) : Nat := sub64 (add64 e.low e.count) 1

structure ReceiveHistory where
  elements : List Element := []
  cutoff : Nat := 0
  largest : Nat := 0
  maxRanges : Nat := 256
deriving DecidableEq, Repr

namespace ReceiveHistory

/-- `pn` extends `e` downwards; the next range may now touch it. -/
def extendDown (pn : Nat) (e : Element) : List Element → List Element
  | [] => [{ low := pn, count := toU32 (add64 (sub64 e.high pn) 1) }]
  | ne :: rest =>
    if add64 ne.high 1 = pn then
      { low := ne.low, count := toU32 (add64 (sub64 e.high ne.low) 1) } :: rest
    else { low := pn, count := toU32 (add64 (sub64 e.high pn) 1) } :: ne :: rest

/-- `pn` extends `e` upwards; the next range may now touch it. -/
def extendUp (pn : Nat) (e : Element) : List Element → List Element
  | [] => [{ e with count := toU32 (add64 (sub64 pn e.low) 1) }]
  | ne :: rest =>
    if add64 pn 1 = ne.low then
      { e with count := toU32 (add64 (sub64 ne.high e.low) 1) } :: rest
    else { e with count := toU32 (add64 (sub64 pn e.low) 1) } :: ne :: rest

/-- The `while` loop of `insertIntoList`: `passed` are the ranges behind
`cur`, nearest first. -/
def insertFrom (pn : Nat) : List Element → List Element → List Element
  | passed, [] => passed.reverse ++ [{ low := pn, count := 1 }]
  | passed, e :: rest =>
    if e.low ≤ pn ∧ pn ≤ e.high then passed.reverse ++ e :: rest
    else if add64 pn 1 = e.low then
      let extended : Element := { low := pn, count := toU32 (add64 (sub64 e.high pn) 1) }
      match passed with
      | pe :: passed' =>
        if add64 pe.high 1 = pn then
          passed'.reverse
            ++ { pe with count := toU32 (sub64 (add64 pn extended.count) pe.low) } :: rest
        else passed.reverse ++ extendDown pn e rest
      | [] => extendDown pn e rest
    else if pn = add64 e.high 1 then passed.reverse ++ extendUp pn e rest
    else if e.high < pn then passed.reverse ++ { low := pn, count := 1 } :: e :: rest
    else insertFrom pn (e :: passed) rest

variable (h : ReceiveHistory)

def insertIntoList (pn : Nat) : ReceiveHistory :=
  { h with elements := insertFrom pn [] h.elements }

def dropOldestRange : ReceiveHistory :=
  match h.elements.getLast? with
  | none => h
  | some e => { h with cutoff := add64 e.high 1, elements := h.elements.dropLast }

def insert (pn : Nat) : ReceiveHistory :=
  if h.cutoff ≠ 0 ∧ pn < h.cutoff then h
  else
    let h := if h.largest < pn then { h with largest := pn } else h
    let h := h.insertIntoList pn
    if h.maxRanges < h.elements.length then h.dropOldestRange else h

/-- What `stopWait` leaves of a range. -/
def trim (cutoff : Nat) (e : Element) : Option Element :=
  if e.high < cutoff then none
  else if e.low < cutoff then
    let delta := toU32 (sub64 cutoff e.low)
    some { low := add64 e.low delta, count := toU32 (e.count + 2 ^ 32 - delta) }
  else some e

def stopWait (cutoff : Nat) : ReceiveHistory :=
  if cutoff ≤ h.cutoff then h
  else { h with cutoff, elements := h.elements.filterMap (trim cutoff) }

/-- The number lies in one of the ranges. -/
def contains (pn : Nat) : Bool :=
  h.elements.any fun e => e.low ≤ pn && pn ≤ e.high

end ReceiveHistory

-- ==== the slots

def npos : Nat := 2 ^ 32 - 1

/-- `ReceiveHistory::Element`, with its link. -/
structure Slot where
  low : Nat
  count : Nat
  next : Nat
deriving DecidableEq, Repr

def Slot.range (s : Slot) : Element := ⟨s.low, s.count⟩

/-- `ReceiveHistory`; `m_elements` are the first `size` of `elements`. -/
structure HistorySlots where
  maxRanges : Nat
  elements : Nat → Slot
  size : Nat := 0
  free : List Nat := []
  head : Nat := npos
  usedCount : Nat := 0
  cutoff : Nat := 0
  largest : Nat := 0
  largestAckedReceived : Nat := 0

namespace HistorySlots

/-- `ReceiveHistory(maxRanges)`. -/
def new (maxRanges : Nat) : HistorySlots := { maxRanges, elements := fun _ => ⟨0, 0, npos⟩ }

variable (h : HistorySlots)

/-- `m_elements[i] = slot`. -/
def set (i : Nat) (slot : Slot) : HistorySlots :=
  { h with elements := Function.update h.elements i slot }

/-- What links to the slot after `prev`: that slot, or the head. -/
def link (prev target : Nat) : HistorySlots :=
  if prev = npos then { h with head := target }
  else h.set prev { h.elements prev with next := target }

def allocElement : Nat × HistorySlots :=
  match h.free with
  | idx :: free => (idx, { h with free, usedCount := toU32 (h.usedCount + 1) })
  | [] =>
    (toU32 h.size, { h.set h.size ⟨0, 0, npos⟩ with
      size := h.size + 1, usedCount := toU32 (h.usedCount + 1) })

def removeElement (idx : Nat) : HistorySlots :=
  { h.set idx { h.elements idx with next := npos } with
    free := idx :: h.free, usedCount := h.usedCount - 1 }

/-- A new range of one number, between `prev` and `cur`. -/
def place (pn prev cur : Nat) : HistorySlots :=
  let (idx, h) := h.allocElement
  (h.set idx ⟨pn, 1, cur⟩).link prev idx

/-- `pn` is right below the range at `cur`. -/
def extendDown (pn cur : Nat) : HistorySlots :=
  let e := h.elements cur
  let high := e.range.high
  let h := h.set cur { e with low := pn, count := toU32 (add64 (sub64 high pn) 1) }
  let ne := h.elements e.next
  if e.next ≠ npos ∧ add64 ne.range.high 1 = pn then
    (h.set cur ⟨ne.low, toU32 (add64 (sub64 high ne.low) 1), ne.next⟩).removeElement e.next
  else h

/-- And the range before it, `prev`, ends there. -/
def mergePrev (pn prev cur : Nat) : HistorySlots :=
  let e := h.elements cur
  let count := toU32 (add64 (sub64 e.range.high pn) 1)
  let h := h.set cur { e with low := pn, count }
  let pe := h.elements prev
  (h.set prev { pe with
    count := toU32 (sub64 (add64 pn count) pe.low), next := e.next }).removeElement cur

/-- `pn` is right above the range at `cur`. -/
def extendUp (pn cur : Nat) : HistorySlots :=
  let e := h.elements cur
  let h := h.set cur { e with count := toU32 (add64 (sub64 pn e.low) 1) }
  let ne := h.elements e.next
  if e.next ≠ npos ∧ add64 pn 1 = ne.low then
    (h.set cur { e with
      count := toU32 (add64 (sub64 ne.range.high e.low) 1), next := ne.next }).removeElement e.next
  else h

/-- The loop of `insertIntoList`. -/
def insertLoop : Nat → HistorySlots → Nat → Nat → Nat → HistorySlots
  | 0, h, _, _, _ => h
  | rounds + 1, h, pn, prev, cur =>
    if cur = npos then h.place pn prev cur
    else
      let e := (h.elements cur).range
      if e.low ≤ pn ∧ pn ≤ e.high then h
      else if add64 pn 1 = e.low then
        if prev ≠ npos ∧ add64 (h.elements prev).range.high 1 = pn then h.mergePrev pn prev cur
        else h.extendDown pn cur
      else if pn = add64 e.high 1 then h.extendUp pn cur
      else if e.high < pn then h.place pn prev cur
      else insertLoop rounds h pn cur (h.elements cur).next

def insertIntoList (pn : Nat) : HistorySlots :=
  if h.head = npos then h.place pn npos npos else insertLoop (h.size + 1) h pn npos h.head

/-- The loop of `dropOldestRange`, to the last slot and the one before it. -/
def lastSlot : Nat → HistorySlots → Nat → Nat → Nat × Nat
  | 0, _, prev, cur => (prev, cur)
  | rounds + 1, h, prev, cur =>
    if (h.elements cur).next = npos then (prev, cur)
    else lastSlot rounds h cur (h.elements cur).next

def dropOldestRange : HistorySlots :=
  if h.head = npos then h
  else
    let (prev, cur) := lastSlot h.size h npos h.head
    let h := { h with cutoff := add64 (h.elements cur).range.high 1 }
    (h.link prev npos).removeElement cur

def insert (pn now : Nat) : HistorySlots :=
  if h.cutoff ≠ 0 ∧ pn < h.cutoff then h
  else
    let h := if h.largest < pn then { h with largest := pn, largestAckedReceived := now } else h
    let h := h.insertIntoList pn
    if h.maxRanges < h.usedCount then h.dropOldestRange else h

/-- The loop of `stopWait`. -/
def stopLoop : Nat → HistorySlots → Nat → Nat → Nat → HistorySlots
  | 0, h, _, _, _ => h
  | rounds + 1, h, cutoff, prev, cur =>
    if cur = npos then h
    else
      let e := h.elements cur
      if e.range.high < cutoff then
        stopLoop rounds ((h.link prev e.next).removeElement cur) cutoff prev e.next
      else if e.low < cutoff then
        let delta := toU32 (sub64 cutoff e.low)
        stopLoop rounds
          (h.set cur { e with
            low := add64 e.low delta, count := toU32 (e.count + 2 ^ 32 - delta) })
          cutoff cur e.next
      else stopLoop rounds h cutoff cur e.next

def stopWait (cutoff : Nat) : HistorySlots :=
  if cutoff ≤ h.cutoff then h
  else stopLoop (h.size + 1) { h with cutoff } cutoff npos h.head

/-- The slots from `begin()` to `end()`. -/
def slotsFrom : Nat → HistorySlots → Nat → List Nat
  | 0, _, _ => []
  | rounds + 1, h, cur =>
    if cur = npos then [] else cur :: slotsFrom rounds h (h.elements cur).next

def used : List Nat := slotsFrom h.size h h.head

def ranges : List Element := h.used.map fun i => (h.elements i).range

-- ==== runs

inductive Op where
  | insert (pn now : Nat)
  | stopWait (cutoff : Nat)
deriving DecidableEq, Repr

def step : Op → HistorySlots
  | .insert pn now => h.insert pn now
  | .stopWait cutoff => h.stopWait cutoff

end HistorySlots

end Eular.Utp
