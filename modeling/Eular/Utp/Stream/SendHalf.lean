/-
The send half of a stream (`context/stream_impl.cpp`).

What the application has written lies in the ring from the offset that is
acknowledged on: first what is in flight, then what is queued. The ranges that
are acknowledged ahead of that offset are the entries of the `std::map`, by
their starts, in order.

A write puts bytes into the views that it is granted and commits them; a turn
of `flushPendingSends` sends one frame, of as many bytes as the connection
took (it takes none that would end beyond 2^64, `sendStreamFrame`). Offsets are
of 64 bits.
-/
import Eular.Lib.SortedTable
import Eular.Utp.Stream.RingBuffer

namespace Eular.Utp

open Eular.Lib

/-- `kMaxSendQueueBytes`. -/
def maxSendQueueBytes : Nat := 16 * 1024 * 1024

/-- The part of `StreamImpl` that the send half reads and writes; `bufferLimit` is
`StreamSendBufferLimit` of its connection. -/
structure SendHalf where
  bufferLimit : Nat
  sendBuffer : RingBuffer
  nextSendOffset : Nat := 0
  sendAckedOffset : Nat := 0
  localFinQueued : Bool := false
  localFinSent : Bool := false
  sendQueuedBytes : Nat := 0
  sendInFlightBytes : Nat := 0
  sendAckedRanges : List (Nat × Nat) := []

namespace SendHalf

-- ==== write

variable (s : SendHalf)

def appWriteCredit : Nat :=
  let used := s.sendQueuedBytes + s.sendInFlightBytes
  let queueCredit := if s.bufferLimit ≤ used then 0 else s.bufferLimit - used
  min queueCredit s.sendBuffer.freeSize

/-- The application stores a byte in the views of `acquireWriteBuffer`. -/
def fillWriteBuffer (maxBytes i : Nat) (byte : UInt8) : SendHalf :=
  if s.localFinQueued ∨ maxBytes = 0 ∨ min maxBytes s.appWriteCredit = 0 then s
  else { s with sendBuffer := s.sendBuffer.store (min maxBytes s.appWriteCredit) i byte }

/-- What makes `commitWrite` refuse. -/
def Refuses (bytes : Nat) : Prop :=
  s.localFinQueued ∨ s.appWriteCredit < bytes ∨ s.sendBuffer.freeSize < bytes ∨ 2 ^ 32 - 1 < bytes
    ∨ maxSendQueueBytes < s.sendQueuedBytes + s.sendInFlightBytes + bytes

instance (s : SendHalf) (bytes : Nat) : Decidable (s.Refuses bytes) :=
  inferInstanceAs (Decidable (_ ∨ _))

/-- `commitWrite`, up to the flush that may follow it. -/
def commitWrite (bytes : Nat) (fin : Bool) : SendHalf :=
  if s.Refuses bytes then s
  else
    let s := if 0 < bytes then
        { s with
          sendBuffer := s.sendBuffer.produce bytes
          sendQueuedBytes := s.sendQueuedBytes + bytes }
      else s
    { s with localFinQueued := s.localFinQueued || fin }

-- ==== send

/-- A turn of the loop of `flushPendingSends`, where the connection takes a frame of
`payloadLen` bytes, not none. -/
def sendTurn (payloadLen : Nat) : SendHalf :=
  let inFlightBytes := min (s.nextSendOffset - s.sendAckedOffset) s.sendBuffer.size
  let maxQueuedFromBuffer := s.sendBuffer.size - inFlightBytes
  let s := if maxQueuedFromBuffer < s.sendQueuedBytes then
      { s with sendQueuedBytes := maxQueuedFromBuffer }
    else s
  let unsentBytes := s.sendQueuedBytes
  if payloadLen = 0 ∨ unsentBytes < payloadLen ∨ 2 ^ 64 ≤ s.nextSendOffset + payloadLen then s
  else
    let frameFin := s.localFinQueued && !s.localFinSent && payloadLen = unsentBytes
    { s with
      nextSendOffset := s.nextSendOffset + payloadLen
      sendQueuedBytes := s.sendQueuedBytes - payloadLen
      sendInFlightBytes := s.sendInFlightBytes + payloadLen
      localFinSent := s.localFinSent || frameFin }

-- ==== acknowledgement

/-- The entries that begin up to `stop` are erased, and `stop` moves to the end of them. -/
def eraseReached (stop : Nat) : List (Nat × Nat) → Nat × List (Nat × Nat)
  | [] => (stop, [])
  | it :: rest => if it.1 ≤ stop then eraseReached (max stop it.2) rest else (stop, it :: rest)

/-- The range `[start, stop)` among the acknowledged ones. -/
def mergeRange (ranges : List (Nat × Nat)) (start stop : Nat) : List (Nat × Nat) :=
  let before := ranges.takeWhile fun r => r.1 < start
  let it := lowerBound Prod.fst start ranges
  match before.getLast? with
  | some prev =>
    if start ≤ prev.2 then
      let e := eraseReached (max stop prev.2) it
      put Prod.fst (prev.1, e.1) (before.dropLast ++ e.2)
    else
      let e := eraseReached stop it
      put Prod.fst (start, e.1) (before ++ e.2)
  | none =>
    let e := eraseReached stop it
    put Prod.fst (start, e.1) (before ++ e.2)

/-- The acknowledged offset moves to the end of a range that holds it. -/
def advanceAcked : SendHalf :=
  let advancedTo := match s.sendAckedRanges with
    | [] => s.sendAckedOffset
    | begin :: _ =>
      if begin.1 ≤ s.sendAckedOffset ∧ s.sendAckedOffset < begin.2 then begin.2
      else s.sendAckedOffset
  if s.sendAckedOffset < advancedTo then
    let delta := min (advancedTo - s.sendAckedOffset) s.sendBuffer.size
    if 0 < delta then
      { s with
        sendBuffer := s.sendBuffer.consume delta
        sendAckedOffset := s.sendAckedOffset + delta
        sendInFlightBytes := s.sendInFlightBytes - delta }
    else s
  else s

/-- The last loop: what the acknowledged offset has passed goes. -/
def dropPassed : SendHalf :=
  { s with
    sendAckedRanges := s.sendAckedRanges.dropWhile fun front => front.2 ≤ s.sendAckedOffset }

def onPacketAcked (streamOffset len : Nat) : SendHalf :=
  if len = 0 then s
  else
    let start := streamOffset
    let stop := (streamOffset + len) % 2 ^ 64
    if stop ≤ s.sendAckedOffset then s
    else
      let start := if start < s.sendAckedOffset then s.sendAckedOffset else start
      dropPassed
        (advanceAcked { s with sendAckedRanges := mergeRange s.sendAckedRanges start stop })

-- ==== runs

inductive SendOp where
  | fillWriteBuffer (maxBytes i : Nat) (byte : UInt8)
  | commitWrite (bytes : Nat) (fin : Bool)
  | sendTurn (payloadLen : Nat)
  | onPacketAcked (streamOffset len : Nat)
deriving DecidableEq, Repr

def step : SendOp → SendHalf
  | .fillWriteBuffer maxBytes i byte => s.fillWriteBuffer maxBytes i byte
  | .commitWrite bytes fin => s.commitWrite bytes fin
  | .sendTurn payloadLen => s.sendTurn payloadLen
  | .onPacketAcked streamOffset len => s.onPacketAcked streamOffset len

end SendHalf

end Eular.Utp
