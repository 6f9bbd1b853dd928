/-
The receive half of a stream (`context/stream_impl.{h,cpp}`).

STREAM frames arrive in any order; `onFrame` cuts each one against what
the application already consumed and against the fragments already
buffered, and stores the rest as fragments keyed by stream offset. The
application takes bytes off the front with `read`, or looks at them with
`acquireReadViews` and releases them with `commitReadViews`.

# Representation

- Offsets are `uint64_t`: a `Nat` here, with every sum the source forms
  in that type reduced by `add64`. Byte counts (`size_t`) are plain
  `Nat`.
- A fragment's `data` pointer and `len` are one list of bytes. Which
  packet the bytes live in, and its reference count, is not modelled.
- The red-black tree of fragments is its in-order list
  (`Lib/SortedTable`): insertion keeps it strictly sorted whatever
  arrives, so the searches of the source find what the list walks find.
- A pointer to a fragment that outlives one loop turn (`insertedLast`,
  `tail`) is that fragment's offset, which names it.
- `getRecvFragment` never fails, and callbacks are not run: a callback
  that reads is a read after the call.
-/
import Eular.Lib.SortedTable
import Eular.Utp.Status

namespace Eular.Utp

open Lib

/-- A `uint64_t` sum. -/
def add64 (a b : Nat) : Nat := (a + b) % 2 ^ 64

-- ==== data

/-- A STREAM frame as the decoder leaves it (`proto/frame/stream.h`).
`streamData` is the `stream_data_length` bytes behind `stream_data`. -/
structure FrameStream where
  streamFlag : Nat
  streamId : Nat
  streamOffset : Nat
  streamData : List UInt8
deriving DecidableEq, Repr

/-- `STREAM_IS_FIN`. -/
def FrameStream.isFin (f : FrameStream) : Bool := f.streamFlag.testBit 0

structure RecvFragment where
  data : List UInt8
  consumed : Nat := 0
  offset : Nat
  fin : Bool := false
deriving DecidableEq, Repr

namespace RecvFragment

def len (f : RecvFragment) : Nat := f.data.length

/-- `len > consumed ? len - consumed : 0`. -/
def remaining (f : RecvFragment) : Nat := f.len - f.consumed

end RecvFragment

/-- The part of `StreamImpl` the receive half reads and writes. -/
structure StreamImpl where
  streamId : Nat
  recvOffset : Nat := 0
  localFinQueued : Bool := false
  localFinSent : Bool := false
  peerFin : Bool := false
  resetByPeer : Bool := false
  resetNotified : Bool := false
  closedNotified : Bool := false
  resetErrorCode : Nat := 0
  recvBufferedBytes : Nat := 0
  recvFragmentsTree : List RecvFragment := []
deriving DecidableEq, Repr

/-- `Stream::State`. -/
inductive StreamState where
  | open
  | halfClosedLocal
  | halfClosedRemote
  | closed
deriving DecidableEq, Repr

namespace StreamImpl

def kMaxRecvFragmentBytes : Nat := 2 * 1024 * 1024

-- ==== notifications

variable (s : StreamImpl)

def maybeNotifyClosed : StreamImpl :=
  if s.closedNotified then s
  else if s.localFinQueued && s.localFinSent && s.peerFin
      && s.recvBufferedBytes == 0 then
    { s with closedNotified := true }
  else s

def notifyResetOnce : StreamImpl :=
  { s with resetNotified := true }

-- ==== the fragment tree

def findLowerBound (offset : Nat) : List RecvFragment :=
  lowerBound RecvFragment.offset offset s.recvFragmentsTree

def findPrev (offset : Nat) : Option RecvFragment :=
  prev RecvFragment.offset offset s.recvFragmentsTree

/-- What `insertRecvFragment` answers: its status, `*inserted`, and the
stream it leaves. -/
structure Insertion where
  status : Status
  inserted : Bool
  stream : StreamImpl

/-- Insert a fragment under its offset. A fragment that already sits
there is kept when it is at least as long, replaced otherwise. -/
def insertRecvFragment (fragment : RecvFragment) : Insertion :=
  if 0 < fragment.len ∧ kMaxRecvFragmentBytes < s.recvBufferedBytes + fragment.len then
    ⟨.error .wouldBlock "recv buffer full", false, s⟩
  else
    let tree := put RecvFragment.offset fragment s.recvFragmentsTree
    match lookup RecvFragment.offset fragment.offset s.recvFragmentsTree with
    | some current =>
      if fragment.len ≤ current.len then
        ⟨.success, false, s⟩
      else
        ⟨.success, true, { s with
          recvBufferedBytes :=
            s.recvBufferedBytes - current.remaining + fragment.remaining
          recvFragmentsTree := tree }⟩
    | none =>
      ⟨.success, true, { s with
        recvBufferedBytes := s.recvBufferedBytes + fragment.remaining
        recvFragmentsTree := tree }⟩

def clearRecvFragments : StreamImpl :=
  { s with recvFragmentsTree := [], recvBufferedBytes := 0 }

/-- `fragment->fin = true` on the fragment at `offset`. -/
def setFin (offset : Nat) : StreamImpl :=
  { s with recvFragmentsTree := s.recvFragmentsTree.map fun g =>
      if g.offset = offset then { g with fin := true } else g }

/-- The loop of `maybeAdvancePeerFin`: `tree` is what is left of the
fragment tree, its head is `firstFragment()`. -/
def advancePeerFin : List RecvFragment → StreamImpl → StreamImpl
  | [], s => { s with recvFragmentsTree := [] }
  | f :: rest, s =>
    if add64 f.offset f.consumed = s.recvOffset ∧ f.remaining = 0 then
      advancePeerFin rest { s with
        peerFin := s.peerFin || f.fin
        recvBufferedBytes := s.recvBufferedBytes - f.remaining }
    else { s with recvFragmentsTree := f :: rest }

def maybeAdvancePeerFin : StreamImpl :=
  advancePeerFin s.recvFragmentsTree s

-- ==== arrival

/-- What the insertion loop of `onFrame` leaves: a status, the stream,
and the offset of the fragment inserted last. -/
structure Fill where
  status : Status
  stream : StreamImpl
  insertedLast : Option Nat

/-- One insertion of the loop: a fragment for `data` at `cursor`. -/
def insertPiece (cursor : Nat) (data : List UInt8) (fin : Bool)
    (insertedLast : Option Nat) : Fill :=
  let r := s.insertRecvFragment { data, offset := cursor, fin }
  ⟨r.status, r.stream, if r.inserted then some cursor else insertedLast⟩

/-- Skip the part of the frame that `iter` already holds: the cursor and
the bytes left after the `iterEnd <= cursor` test and the trim. -/
def trimBy (iter : RecvFragment) (cursor : Nat) (data : List UInt8) :
    Nat × List UInt8 :=
  let iterEnd := add64 iter.offset iter.len
  if iterEnd ≤ cursor then (cursor, data)
  else
    let trim := min (iterEnd - cursor) data.length
    (add64 cursor trim, data.drop trim)

/-- The `while (frameLength > 0)` loop of `onFrame`. The first list is the
tree from `iter` on, `data` the `frameLength` bytes at `cursorData`.

A turn that stores the gap before `iter` comes back to the same `iter`
with `cursor` on it and bytes left over: of its three tests only the
last one can then apply, so the trimming turn follows at once. -/
def fillGaps (frameFin : Bool) (originalEnd : Nat) :
    List RecvFragment → Nat → List UInt8 → StreamImpl → Option Nat → Fill
  | [], cursor, data, s, insertedLast =>
    if data.isEmpty then ⟨.success, s, insertedLast⟩
    else
      s.insertPiece cursor data
        (frameFin && add64 cursor data.length == originalEnd) insertedLast
  | iter :: rest, cursor, data, s, insertedLast =>
    if data.isEmpty then ⟨.success, s, insertedLast⟩
    else if add64 cursor data.length ≤ iter.offset then
      s.insertPiece cursor data
        (frameFin && add64 cursor data.length == originalEnd) insertedLast
    else if cursor < iter.offset then
      let chunk := min (iter.offset - cursor) data.length
      let r := s.insertPiece cursor (data.take chunk) false insertedLast
      if r.status.ok then
        let t := trimBy iter (add64 cursor chunk) (data.drop chunk)
        fillGaps frameFin originalEnd rest t.1 t.2 r.stream r.insertedLast
      else r
    else
      let t := trimBy iter cursor data
      fillGaps frameFin originalEnd rest t.1 t.2 s insertedLast

/-- The FIN of a frame no fragment ends with: at `recvOffset` the peer is
finished, further on a zero-length fragment marks the place. -/
def placeFin (originalEnd : Nat) : Status × StreamImpl :=
  if originalEnd = s.recvOffset then (.success, { s with peerFin := true })
  else
    let r := s.insertRecvFragment { data := [], offset := originalEnd, fin := true }
    (r.status, r.stream)

/-- The FIN branch after the loop. -/
def markFin (originalEnd : Nat) (insertedLast : Option Nat) :
    Status × StreamImpl :=
  match insertedLast with
  | some offset => (.success, s.setFin offset)
  | none =>
    match s.findPrev (add64 originalEnd 1) with
    | some tail =>
      if add64 tail.offset tail.len = originalEnd then
        (.success, s.setFin tail.offset)
      else s.placeFin originalEnd
    | none => s.placeFin originalEnd

/-- The overlap test against the nearest predecessor, then the loop. -/
def startFill (frameFin : Bool) (frameOffset : Nat)
    (data : List UInt8) : Fill :=
  let t := match s.findPrev frameOffset with
    | some p => trimBy p frameOffset data
    | none => (frameOffset, data)
  fillGaps frameFin (add64 frameOffset data.length) (s.findLowerBound t.1) t.1 t.2
    s none

/-- `onFrame` from the overlap test on: `frameOffset` and `data` are what
is left of the frame above `recvOffset`. -/
def storeFrame (frameFin : Bool) (frameOffset : Nat)
    (data : List UInt8) : Status × StreamImpl :=
  let r := s.startFill frameFin frameOffset data
  if r.status.ok then
    let m := if frameFin then
        r.stream.markFin (add64 frameOffset data.length) r.insertedLast
      else (.success, r.stream)
    if m.1.ok then (.success, m.2.maybeAdvancePeerFin.maybeNotifyClosed) else m
  else (r.status, r.stream)

def onFrame (frame : FrameStream) : Status × StreamImpl :=
  if s.resetByPeer then (.error .streamClosed "stream reset by peer", s)
  else if frame.streamId ≠ s.streamId then
    (.error .invalidParam "stream id mismatch", s)
  else
    let frameOffset := frame.streamOffset
    let data := frame.streamData
    let frameEnd := add64 frameOffset data.length
    if frameOffset < s.recvOffset then
      let trim := s.recvOffset - frameOffset
      if data.length ≤ trim then
        if frame.isFin ∧ frameEnd = s.recvOffset then
          (.success, { s with peerFin := true }.maybeNotifyClosed)
        else (.success, s)
      else s.storeFrame frame.isFin (add64 frameOffset trim) (data.drop trim)
    else s.storeFrame frame.isFin frameOffset data

-- ==== consumption

/-- The loop of `contiguousReadableBytes`. -/
def contiguousFrom (maxBytes : Nat) : List RecvFragment → Nat → Nat → Nat
  | [], total, _ => total
  | f :: rest, total, expectedOffset =>
    if maxBytes ≤ total then total
    else if add64 f.offset f.consumed ≠ expectedOffset then total
    else if f.remaining = 0 then
      if f.fin then total else contiguousFrom maxBytes rest total expectedOffset
    else
      let n := min f.remaining (maxBytes - total)
      contiguousFrom maxBytes rest (total + n) (add64 expectedOffset n)

def contiguousReadableBytes (maxBytes : Nat) : Nat :=
  contiguousFrom maxBytes s.recvFragmentsTree 0 s.recvOffset

def readable : Bool := 0 < s.contiguousReadableBytes 1

/-- The consuming loop that `read` and `commitReadViews` share: take up to
`want` bytes off the fragments at the front, and erase each fragment that
is used up. Returns the bytes taken. It stops early at a fragment that
does not start at `recvOffset`; `read` then ends its loop and
`commitReadViews` answers an error. -/
def consume : List RecvFragment → Nat → StreamImpl → List UInt8 × StreamImpl
  | [], _, s => ([], { s with recvFragmentsTree := [] })
  | f :: rest, want, s =>
    if want = 0 ∨ add64 f.offset f.consumed ≠ s.recvOffset then
      ([], { s with recvFragmentsTree := f :: rest })
    else
      let n := min f.remaining want
      let bytes := (f.data.drop f.consumed).take n
      let f' := { f with consumed := f.consumed + n }
      let s' := { s with
        recvBufferedBytes := s.recvBufferedBytes - n
        recvOffset := add64 s.recvOffset n }
      if f'.remaining = 0 then
        let r := consume rest (want - n) { s' with peerFin := s'.peerFin || f.fin }
        (bytes ++ r.1, r.2)
      else (bytes, { s' with recvFragmentsTree := f' :: rest })

/-- `read`: the bytes copied out, or the error the call leaves. Answering
`0` is `.ok []`. -/
def read (capacity : Nat) : Except Status (List UInt8) × StreamImpl :=
  if capacity = 0 then (.error (streamErr .invalidParam), s)
  else
    let contiguous := s.contiguousReadableBytes capacity
    if contiguous = 0 then
      let s := s.maybeAdvancePeerFin
      (if s.peerFin then .ok [] else .error (streamErr .wouldBlock), s)
    else
      let r := consume s.recvFragmentsTree contiguous s
      (.ok r.1, r.2.maybeAdvancePeerFin.maybeNotifyClosed)

/-- The loop of `acquireReadViews`; `idx` views are filled. -/
def viewsFrom (maxBytes : Nat) :
    List RecvFragment → Nat → Nat → Nat → List (List UInt8)
  | [], _, _, _ => []
  | f :: rest, idx, total, expectedOffset =>
    if 2 ≤ idx ∨ maxBytes ≤ total then []
    else if add64 f.offset f.consumed ≠ expectedOffset then []
    else if f.remaining = 0 then
      if f.fin then [] else viewsFrom maxBytes rest idx total expectedOffset
    else
      let n := min f.remaining (maxBytes - total)
      (f.data.drop f.consumed).take n
        :: viewsFrom maxBytes rest (idx + 1) (total + n) (add64 expectedOffset n)

/-- `acquireReadViews`: the at most two views, in order. The count the
call returns is their total length. -/
def acquireReadViews (maxBytes : Nat) : List (List UInt8) :=
  viewsFrom maxBytes s.recvFragmentsTree 0 0 s.recvOffset

/-- `commitReadViews`: the byte count, or the error the call leaves. -/
def commitReadViews (bytes : Nat) : Except Status Nat × StreamImpl :=
  if bytes = 0 then (.ok 0, s.maybeAdvancePeerFin.maybeNotifyClosed)
  else if s.contiguousReadableBytes bytes < bytes then
    (.error (streamErr .overflow), s)
  else
    let r := consume s.recvFragmentsTree bytes s
    if r.1.length < bytes then (.error (streamErr .overflow), r.2)
    else (.ok bytes, r.2.maybeAdvancePeerFin.maybeNotifyClosed)

def state : StreamState :=
  if s.localFinQueued && s.localFinSent && s.peerFin then .closed
  else if s.localFinQueued then .halfClosedLocal
  else if s.peerFin then .halfClosedRemote
  else .open

-- ==== resets

/-- `reset`; `sent` is what `sendResetStreamFrame` answered. -/
def reset (sent : Status) : Except Status Unit × StreamImpl :=
  if s.localFinQueued && s.localFinSent && s.peerFin then
    (.error (streamErr .streamClosed), s)
  else if !sent.ok then (.error (streamErr sent.code), s)
  else
    (.ok (), { s.clearRecvFragments with
      localFinQueued := true
      localFinSent := true
      peerFin := true }.maybeNotifyClosed)

def onReset (errorCode : Nat) (fromPeer : Bool) : StreamImpl :=
  { s.clearRecvFragments with
    resetErrorCode := errorCode
    resetByPeer := s.resetByPeer || fromPeer
    localFinQueued := true
    localFinSent := true
    peerFin := true }.notifyResetOnce.maybeNotifyClosed

-- ==== the local half

/-- `commitWrite`, as far as the fields above go: once a FIN is queued it
refuses; otherwise it may queue one. -/
def commitWrite (fin : Bool) : StreamImpl :=
  if s.localFinQueued then s
  else { s with localFinQueued := fin }.maybeNotifyClosed

/-- `flushPendingSends` when it sends the frame with the queued FIN. -/
def flushFin : StreamImpl :=
  if s.localFinQueued && !s.localFinSent then { s with localFinSent := true } else s

-- ==== runs

/-- What can happen to a stream. -/
inductive Op where
  | frame (frame : FrameStream)
  | read (capacity : Nat)
  | acquireReadViews (maxBytes : Nat)
  | commitReadViews (bytes : Nat)
  | commitWrite (fin : Bool)
  | flushFin
  | reset (sent : Status)
  | onReset (errorCode : Nat) (fromPeer : Bool)
deriving DecidableEq, Repr

def step : Op → StreamImpl
  | .frame frame => (s.onFrame frame).2
  | .read capacity => (s.read capacity).2
  | .acquireReadViews _ => s
  | .commitReadViews bytes => (s.commitReadViews bytes).2
  | .commitWrite fin => s.commitWrite fin
  | .flushFin => s.flushFin
  | .reset sent => (s.reset sent).2
  | .onReset errorCode fromPeer => s.onReset errorCode fromPeer

end StreamImpl

end Eular.Utp
