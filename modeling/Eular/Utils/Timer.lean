/-
The timer manager (`timer.cpp`): callers that add and delete timers, and
the worker that fires them.

The calls of `addTimer` and `delTimer` hold the lock throughout and are one
step each; the worker's loop is taken apart where a call can land: between
reading the set and sleeping, between reading the clock and collecting what
has expired, before, during and after every callback. A `select` may return
late, which is a worker that takes its next step late.

The clock is `steady_clock` in milliseconds, and is not taken to reach
`2^64`. The manager hands out no timer that could be changed, so `cancel`
and its like never reach one of its own. `select` fails where it refuses its
timeout, or for a signal (`interrupt`). The bytes in the socket pair that
wake it are counted without a limit: what matters of them is whether there
are any.
-/
import Eular.Lib.Run
import Eular.Lib.SortedTable

namespace Eular.Utils

open Lib

/-- `Timer`: a callback is a name for it. -/
structure Timer (C : Type) where
  time : Nat
  recycleTime : Nat
  cb : Option C
  uniqueId : Nat
deriving DecidableEq

namespace Timer

variable {C : Type}

/-- `Comparator`: by time, then by id. -/
def key (t : Timer C) : Nat ×ₗ Nat := toLex (t.time, t.uniqueId)

/-- The worker arms the timer again after its callback. -/
def recurs (t : Timer C) : Bool :=
  decide (0 < t.recycleTime) && t.cb.isSome

end Timer

/-- Where the worker is in its loop. -/
inductive Worker where
  /-- at the head of it -/
  | top
  /-- in `mSignal.wait()` -/
  | waiting
  /-- in `select`, which times out at `wakeAt` -/
  | selecting (wakeAt : Nat)
  /-- at the call of `ListExpireTimer` -/
  | collecting
  /-- in it, with the clock read and the lock not yet taken -/
  | listing (currTimeMs : Nat)
  /-- in the loop over `mExpireTimerVec` -/
  | round
  /-- out of it -/
  | exited
deriving DecidableEq

/-- `TimerManager`, with the clock. Of `mExpireTimerVec` there is what is
still to be run; `calling` is the timer whose callback runs. -/
structure TimerManager (C : Type) where
  now : Nat := 0
  timerCount : Nat := 0
  timers : List (Timer C) := []
  signal : Nat := 0
  notified : Nat := 0
  worker : Worker := .top
  expireTimerVec : List (Timer C) := []
  calling : Option (Timer C) := none

/-- `struct timeval tv = {(int32_t)nextTime / 1000, (int32_t)nextTime % 1000 * 1000}`. -/
def timeval (nextTime : Nat) : Int × Int :=
  let ms := (nextTime : Int).bmod (2 ^ 32)
  (ms.tdiv 1000, ms.tmod 1000 * 1000)

/-- How long `select` waits at most, in milliseconds; it refuses a negative
time. -/
def selectTimeout (tv : Int × Int) : Option Nat :=
  if tv.1 < 0 ∨ tv.2 < 0 then none else some (tv.1.toNat * 1000 + tv.2.toNat / 1000)

namespace TimerManager

variable {C : Type} (s : TimerManager C)

/-- `addTimer(ms, cb, recycle)`: the id. -/
def addTimer (ms : Nat) (cb : Option C) (recycle : UInt32) : TimerManager C × Nat :=
  let uniqueId := s.timerCount + 1
  let timer : Timer C := ⟨(s.now + ms) % 2 ^ 64, recycle.toNat, cb, uniqueId⟩
  let timers := emplace Timer.key timer s.timers
  ({ s with
      timerCount := uniqueId
      timers := timers
      signal := if timers.length = 1 then s.signal + 1 else s.signal
      notified :=
        if timers.head?.map Timer.uniqueId = some uniqueId then s.notified + 1 else s.notified },
    uniqueId)

def delTimer (uniqueId : Nat) : TimerManager C × Bool :=
  ({ s with timers := s.timers.eraseP fun t => t.uniqueId = uniqueId },
    s.timers.any fun t => t.uniqueId = uniqueId)

/-- The head of the loop, up to `select`. -/
def workTop : TimerManager C :=
  match s.timers with
  | [] => { s with worker := .waiting }
  | head :: _ =>
    let nextTime := if s.now < head.time then head.time - s.now else 0
    if 0 < nextTime then
      match selectTimeout (timeval nextTime) with
      | none => { s with worker := .exited }
      | some ms => { s with worker := .selecting (s.now + ms) }
    else { s with worker := .collecting }

/-- `mSignal.wait()`, which goes on when it can. -/
def workWaiting : TimerManager C :=
  if 0 < s.signal then { s with signal := s.signal - 1, worker := .top } else s

/-- `select`, which returns when something can be read or at its timeout. -/
def workSelecting (wakeAt : Nat) : TimerManager C :=
  if 0 < s.notified then
    { s with notified := s.notified - min s.notified 64, worker := .collecting }
  else if wakeAt ≤ s.now then { s with worker := .collecting }
  else s

/-- A signal is handled in the worker's thread: `select` answers -1, and the
worker leaves its loop. -/
def interrupt : TimerManager C :=
  match s.worker with
  | .selecting _ => { s with worker := .exited }
  | _ => s

/-- `ListExpireTimer`, with the lock taken. -/
def workListing (currTimeMs : Nat) : TimerManager C :=
  { s with
    timers := s.timers.dropWhile fun t => t.time ≤ currTimeMs
    expireTimerVec := s.timers.takeWhile fun t => t.time ≤ currTimeMs
    worker := .round }

/-- What is done with a timer whose callback has returned. -/
def workCalled (timer : Timer C) : TimerManager C :=
  if timer.recurs then
    { s with
      timers := emplace Timer.key { timer with time := (timer.time + timer.recycleTime) % 2 ^ 64 }
        s.timers
      calling := none }
  else { s with calling := none }

/-- The loop over `mExpireTimerVec`: the end of a callback, the start of
the next, or the end of the round. -/
def workRound : TimerManager C :=
  match s.calling, s.expireTimerVec with
  | some timer, _ => s.workCalled timer
  | none, timer :: rest => { s with calling := some timer, expireTimerVec := rest }
  | none, [] => { s with worker := .top }

def work : TimerManager C :=
  match s.worker with
  | .top => s.workTop
  | .waiting => s.workWaiting
  | .selecting wakeAt => s.workSelecting wakeAt
  | .collecting => { s with worker := .listing s.now }
  | .listing currTimeMs => s.workListing currTimeMs
  | .round => s.workRound
  | .exited => s

/-- The timer whose callback a step of the worker starts. -/
def starts : Option (Timer C) :=
  match s.worker, s.calling, s.expireTimerVec with
  | .round, none, timer :: _ => if timer.cb.isSome then some timer else none
  | _, _, _ => none

/-- The timer that a step of the worker deletes. -/
def frees : Option (Timer C) :=
  match s.worker, s.calling with
  | .round, some timer => if timer.recurs then none else some timer
  | _, _ => none

end TimerManager

/-- What can happen to a timer manager. -/
inductive TimerOp (C : Type) where
  | addTimer (ms : Nat) (cb : Option C) (recycle : UInt32)
  | delTimer (uniqueId : Nat)
  | work
  | interrupt
  | tick (ms : Nat)

-- ==== history

/-- A timer that was asked for, and the time it was asked for. -/
structure TimerRequest (C : Type) where
  timer : Timer C
  due : Nat
deriving DecidableEq

/-- A callback that was started, in which round of the worker. -/
structure Firing (C : Type) where
  timer : Timer C
  firedAt : Nat
  round : Nat

/-- A call of `delTimer` for a timer that had been added, and how often
that had fired. -/
structure Deletion where
  uniqueId : Nat
  firings : Nat
deriving DecidableEq

/-- A timer manager with what has come of it. `removed` are the timers
`delTimer` took out of the set, `freed` those the worker was done with. -/
structure Clocked (C : Type) where
  manager : TimerManager C := {}
  requests : List (TimerRequest C) := []
  fired : List (Firing C) := []
  rounds : Nat := 0
  removed : List (Timer C) := []
  freed : List (Timer C) := []
  deletions : List Deletion := []

namespace Clocked

variable {C : Type}

/-- How often a timer has fired. -/
def firings (w : Clocked C) (uniqueId : Nat) : Nat :=
  w.fired.countP fun f => f.timer.uniqueId = uniqueId

def add (w : Clocked C) (ms : Nat) (cb : Option C) (recycle : UInt32) : Clocked C :=
  let (manager, uniqueId) := w.manager.addTimer ms cb recycle
  { w with
    manager := manager
    requests := w.requests ++
      [⟨⟨(w.manager.now + ms) % 2 ^ 64, recycle.toNat, cb, uniqueId⟩, w.manager.now + ms⟩] }

def del (w : Clocked C) (uniqueId : Nat) : Clocked C :=
  { w with
    manager := (w.manager.delTimer uniqueId).1
    removed := w.removed ++ (w.manager.timers.find? fun t => t.uniqueId = uniqueId).toList
    deletions :=
      if w.requests.any fun r => r.timer.uniqueId = uniqueId then
        w.deletions ++ [⟨uniqueId, w.firings uniqueId⟩]
      else w.deletions }

def worked (w : Clocked C) : Clocked C :=
  { w with
    manager := w.manager.work
    fired := w.fired ++ w.manager.starts.toList.map fun t => ⟨t, w.manager.now, w.rounds⟩
    rounds := if w.manager.worker = .collecting then w.rounds + 1 else w.rounds
    freed := w.freed ++ w.manager.frees.toList }

def step (w : Clocked C) : TimerOp C → Clocked C
  | .addTimer ms cb recycle => w.add ms cb recycle
  | .delTimer uniqueId => w.del uniqueId
  | .work => w.worked
  | .interrupt => { w with manager := w.manager.interrupt }
  | .tick ms => { w with manager := { w.manager with now := w.manager.now + ms } }

end Clocked

end Eular.Utils
