/-
Notifications between threads (`event_async.cpp`).

A `notify` writes a token of eight bytes into a socket pair, the event loop
reads them at the other end and runs the callback registered for each. A
call of `notify` reads the map once, at its start, and may take several
calls of `send`; every one of these is a step, and so is every `recv` of
the receive callback. What follows the last `recv` is one step: the map is
read once, and the bytes received are nobody else's. It settles which
callbacks run, so running them is no step of its own.

`T` names the threads that notify, a callback is a name for it. The socket
takes of a `send` as much as it likes; a failed one takes nothing.
-/
import Eular.Lib.Framing
import Eular.Lib.Run

namespace Eular.Libevent

open Lib

abbrev AsyncId := UInt32

inductive AsyncMode where
  | normal
  | strictIsolation
deriving DecidableEq

structure AsyncSlot (C : Type) where
  mode : AsyncMode
  generation : UInt32
  cb : C

structure AsyncToken where
  id : AsyncId := 0
  generation : UInt32 := 0
deriving DecidableEq

abbrev AsyncMap (C : Type) := AsyncId → Option (AsyncSlot C)

-- ==== tokens

/-- `sizeof(AsyncToken)`. -/
def tokenSize : Nat := 8

/-- A 32-bit number as it lies in memory. -/
def u32Bytes (n : UInt32) : List UInt8 :=
  [n.toUInt8, (n >>> 8).toUInt8, (n >>> 16).toUInt8, (n >>> 24).toUInt8]

def u32Of (bs : List UInt8) : UInt32 :=
  UInt32.ofNat (bs.foldr (fun b n => b.toNat + 256 * n) 0)

/-- `memcpy(payload, &token, sizeof(token))`. -/
def tokenBytes (token : AsyncToken) : List UInt8 :=
  u32Bytes token.id ++ u32Bytes token.generation

/-- `memcpy(outToken, ..., sizeof(AsyncToken))`. -/
def tokenOf (bs : List UInt8) : AsyncToken :=
  ⟨u32Of (bs.take 4), u32Of (bs.drop 4)⟩

/-- `PopOneAsyncToken`: the token at `offset` and the offset behind it. -/
def popOneAsyncToken (buffer : List UInt8) (offset : Nat) : Option (AsyncToken × Nat) :=
  if buffer.length < offset + tokenSize then none
  else some (tokenOf ((buffer.drop offset).take tokenSize), offset + tokenSize)

/-- The loop that pops tokens, for at most `fuel` rounds: the tokens and
where it stops. -/
def popTokens (buffer : List UInt8) : Nat → Nat → List AsyncToken × Nat
  | 0, offset => ([], offset)
  | fuel + 1, offset =>
    match popOneAsyncToken buffer offset with
    | none => ([], offset)
    | some (token, next) =>
      let rest := popTokens buffer fuel next
      (token :: rest.1, rest.2)

-- ==== state

/-- A call of `notify` in progress: its token, and what of the payload is
left to send. -/
structure NotifyCall where
  token : AsyncToken
  left : List UInt8

/-- `EventAsync`, with the bytes in its socket pair and the calls of
`notify` that are in progress. -/
structure EventAsync (C T : Type) where
  nextGeneration : UInt32 := 1
  asyncSnapshot : AsyncMap C := fun _ => none
  recvBuffer : List UInt8 := []
  socket : List UInt8 := []
  calls : T → Option NotifyCall := fun _ => none

namespace EventAsync

variable {C T : Type} [DecidableEq T]

variable (s : EventAsync C T)

def addAsync (id : AsyncId) (cb : Option C) (mode : AsyncMode) :
    EventAsync C T × Bool :=
  match cb with
  | none => (s, false)
  | some cb =>
    if (s.asyncSnapshot id).isSome then (s, false)
    else
      let generation := if mode = .strictIsolation then s.nextGeneration else 0
      ({ s with
          nextGeneration :=
            if mode = .strictIsolation then s.nextGeneration + 1 else s.nextGeneration
          asyncSnapshot := Function.update s.asyncSnapshot id (some ⟨mode, generation, cb⟩) },
        true)

def delAsync (id : AsyncId) : EventAsync C T :=
  { s with asyncSnapshot := Function.update s.asyncSnapshot id none }

/-- The token of a `notify`: the generation is that of a strict slot. -/
def tokenFor (id : AsyncId) : AsyncToken :=
  match s.asyncSnapshot id with
  | some slot => if slot.mode = .strictIsolation then ⟨id, slot.generation⟩ else ⟨id, 0⟩
  | none => ⟨id, 0⟩

/-- `notify`, up to its loop. A thread is in one call at a time. -/
def beginNotify (t : T) (id : AsyncId) : EventAsync C T :=
  match s.calls t with
  | some _ => s
  | none =>
    let token := s.tokenFor id
    { s with calls := Function.update s.calls t (some ⟨token, tokenBytes token⟩) }

/-- One round of the loop of `notify`, whose `send` takes `sendSize` bytes
of what is left, or fails for 0: what `notify` answers for its token, where
this ends it. -/
def send (t : T) (sendSize : Nat) :
    EventAsync C T × Option (AsyncToken × Bool) :=
  match s.calls t with
  | none => (s, none)
  | some call =>
    if sendSize = 0 then
      ({ s with calls := Function.update s.calls t none }, some (call.token, false))
    else
      let socket := s.socket ++ call.left.take sendSize
      let left := call.left.drop sendSize
      if left = [] then
        ({ s with socket := socket, calls := Function.update s.calls t none },
          some (call.token, true))
      else
        ({ s with
            socket := socket
            calls := Function.update s.calls t (some { call with left := left }) }, none)

/-- One `recv` of the receive callback, of at most `n` bytes. -/
def recv (n : Nat) : EventAsync C T :=
  { s with
    recvBuffer := s.recvBuffer ++ s.socket.take (min n 1024)
    socket := s.socket.drop (min n 1024) }

/-- The slot whose callback is run for a token. -/
def slotFor (snapshot : AsyncMap C) (token : AsyncToken) : Option (AsyncSlot C) :=
  match snapshot token.id with
  | none => none
  | some slot =>
    if slot.mode = .strictIsolation ∧ slot.generation ≠ token.generation then none
    else some slot

/-- The receive callback behind its last `recv`: the tokens popped, and the
callbacks run with their arguments. -/
def dispatch : EventAsync C T × List AsyncToken × List (C × AsyncId) :=
  let (tokens, readOffset) := popTokens s.recvBuffer s.recvBuffer.length 0
  ({ s with recvBuffer := s.recvBuffer.drop readOffset }, tokens,
    tokens.filterMap fun token =>
      (slotFor s.asyncSnapshot token).map fun slot => (slot.cb, token.id))

end EventAsync

/-- What can happen to an `EventAsync`. -/
inductive AsyncOp (C T : Type) where
  | addAsync (id : AsyncId) (cb : Option C) (mode : AsyncMode)
  | delAsync (id : AsyncId)
  | notify (t : T) (id : AsyncId)
  | send (t : T) (sendSize : Nat)
  | recv (n : Nat)
  | dispatch

-- ==== history

/-- A run of a registered callback: which of the tokens decoded it is for,
the mode of the registration, and how many calls of `notify` had answered
`true` when it was made. -/
structure CallbackRun (C : Type) where
  cb : C
  id : AsyncId
  index : Nat
  mode : AsyncMode
  since : Nat

/-- An `EventAsync` with what has come of it: the tokens of the calls of
`notify` that answered `true`, in the order they did, the tokens decoded,
the callbacks run. -/
structure Watched (C T : Type) where
  async : EventAsync C T := {}
  sent : List AsyncToken := []
  decoded : List AsyncToken := []
  since : AsyncId → Nat := fun _ => 0
  runs : List (CallbackRun C) := []

namespace Watched

variable {C T : Type} [DecidableEq T]

/-- The runs for tokens of which the first is the `index`th. -/
def runsFor (w : Watched C T) : Nat → List AsyncToken → List (CallbackRun C)
  | _, [] => []
  | index, token :: tokens =>
    match EventAsync.slotFor w.async.asyncSnapshot token with
    | none => w.runsFor (index + 1) tokens
    | some slot =>
      ⟨slot.cb, token.id, index, slot.mode, w.since token.id⟩ :: w.runsFor (index + 1) tokens

def step (w : Watched C T) : AsyncOp C T → Watched C T
  | .addAsync id cb mode =>
    let (async, added) := w.async.addAsync id cb mode
    { w with
      async := async
      since := if added then Function.update w.since id w.sent.length else w.since }
  | .delAsync id => { w with async := w.async.delAsync id }
  | .notify t id => { w with async := w.async.beginNotify t id }
  | .send t sendSize =>
    match w.async.send t sendSize with
    | (async, some (token, true)) => { w with async := async, sent := w.sent ++ [token] }
    | (async, _) => { w with async := async }
  | .recv n => { w with async := w.async.recv n }
  | .dispatch =>
    let (async, tokens, _) := w.async.dispatch
    { w with
      async := async
      decoded := w.decoded ++ tokens
      runs := w.runs ++ w.runsFor w.decoded.length tokens }

end Watched

end Eular.Libevent
