/-
The stream scheduler (`context/connection_impl.cpp`,
`flushPendingStreamWrites` and the `pickNextWritableStream` family).

A connection with several streams decides, packet by packet, which of
them writes next. Three modes share the question who may write at all
(`shouldDeferSend`) and differ in the choice: round robin over all,
round robin in the best priority with ageing, or deficit round robin.

# The table and its order

`m_streams` is a hash map; each picker sorts what it takes from it, so
the table is a list of streams with distinct ids, in any order. What the
application and the peer do to the streams between two turns of the loop
is not the scheduler's: a turn takes the streams as it finds them.
-/
import Eular.Lib.RoundRobin
import Eular.Utp.Status

namespace Eular.Utp

open Lib

-- ==== settings

inductive StreamSchedulerMode where
  | disabled
  | strict
  | drr
deriving DecidableEq, Repr

/-- The part of `Config` that scheduling reads. -/
structure StreamSchedulerConfig where
  streamSchedulerMode : StreamSchedulerMode := .strict
  streamAgingThreshold : UInt16 := 8
  streamAgingStep : UInt8 := 1
  streamDrrQuantum : UInt16 := 1200
  streamDrrDeficitCap : UInt32 := 128 * 1024
  streamEnableCoalescing : Bool := true
  streamMinPayloadBeforeImmediateSend : Nat := 1200
  streamCoalesceDelayUs : Nat := 1000
deriving DecidableEq, Repr

/-- What `StreamImpl::shouldDeferSend` asks of the connection. -/
structure SendReadiness where
  needPathValidation : Bool := false
  handshakeDonePending : Bool := false
  handshakeDoneSent : Bool := false
  bytesIn : Nat := 2048
deriving DecidableEq, Repr

-- ==== streams

/-- The part of `StreamImpl` that scheduling reads. -/
structure SendStream where
  id : Nat
  /-- 0 is the highest. -/
  priority : UInt8 := 4
  sendQueuedBytes : Nat := 0
  localFinQueued : Bool := false
  localFinSent : Bool := false
  lastSendQueuedAtUs : Nat := 0
  /-- `m_schedWaitRounds`. -/
  schedWaitRounds : UInt32 := 0
deriving DecidableEq, Repr

def kPriorityLowest : UInt8 := 7

def kMaxStreamPriorityLevels : Nat := 8

namespace SendStream

def hasPendingSendWork (st : SendStream) : Bool :=
  0 < st.sendQueuedBytes || (st.localFinQueued && !st.localFinSent)

def shouldDeferSend (cfg : StreamSchedulerConfig) (conn : SendReadiness) (nowUs : Nat)
    (st : SendStream) : Bool :=
  if !st.hasPendingSendWork then false
  else if st.localFinQueued then false
  else if conn.needPathValidation then false
  else if conn.handshakeDonePending && !conn.handshakeDoneSent then false
  else if conn.bytesIn < 2048 then false
  else if !cfg.streamEnableCoalescing then false
  else if cfg.streamCoalesceDelayUs = 0 then false
  else if cfg.streamMinPayloadBeforeImmediateSend ≤ st.sendQueuedBytes then false
  else if st.lastSendQueuedAtUs = 0 then false
  else nowUs < st.lastSendQueuedAtUs + cfg.streamCoalesceDelayUs

def writable (cfg : StreamSchedulerConfig) (conn : SendReadiness) (nowUs : Nat)
    (st : SendStream) : Bool :=
  st.hasPendingSendWork && !st.shouldDeferSend cfg conn nowUs

/-- The base priority: no lower than the lowest. -/
def basePriority (st : SendStream) : UInt8 := min st.priority kPriorityLowest

end SendStream

/-- `m_streams`. -/
structure StreamMap where
  entries : List SendStream
  /-- It is a map by id. -/
  distinct : (entries.map SendStream.id).Nodup

namespace StreamMap

/-- `m_streams.find(id)`. -/
def find (t : StreamMap) (id : Nat) : Option SendStream := t.entries.find? fun st => st.id = id

/-- A change of the streams that leaves their ids. -/
def update (t : StreamMap) (f : SendStream → SendStream) (hf : ∀ st, (f st).id = st.id) :
    StreamMap where
  entries := t.entries.map f
  distinct := by
    rw [List.map_map, show SendStream.id ∘ f = SendStream.id from funext hf]
    exact t.distinct

theorem find_of_mem {t : StreamMap} {st : SendStream} (hst : st ∈ t.entries) :
    t.find st.id = some st := by
  have hinj := List.inj_on_of_nodup_map t.distinct
  obtain ⟨x, hx⟩ : ∃ x, t.find st.id = some x :=
    Option.isSome_iff_exists.mp (List.find?_isSome.mpr ⟨st, hst, by simp⟩)
  have hid : x.id = st.id := by simpa using List.find?_some hx
  rw [hx, hinj (List.mem_of_find?_eq_some hx) hst hid]

end StreamMap

-- ==== the state

/-- The scheduler's state in `ConnectionImpl`. -/
structure StreamScheduler where
  streams : StreamMap
  /-- `m_strictRrCursor`, by level. -/
  strictRrCursor : Nat → Nat := fun _ => 0
  disabledRrCursor : Nat := 0
  drrCursor : Nat := 0
  /-- `m_drrDeficit`, by stream; 0 where it has no entry. -/
  drrDeficit : Nat → UInt32 := fun _ => 0

namespace StreamScheduler

variable (cfg : StreamSchedulerConfig) (conn : SendReadiness) (nowUs : Nat)

def pickRoundRobinStream (t : StreamMap) (candidates : List SendStream) (cursor : Nat) :
    Option SendStream × Nat :=
  match nextAfter (candidates.map SendStream.id) cursor with
  | none => (none, cursor)
  | some selectedId => (t.find selectedId, selectedId)

variable (s : StreamScheduler)

def candidates : List SendStream :=
  s.streams.entries.filter fun st => st.writable cfg conn nowUs

def pickNextWritableStreamDisabled : Option SendStream × StreamScheduler :=
  let (selected, cursor) :=
    pickRoundRobinStream s.streams (s.candidates cfg conn nowUs) s.disabledRrCursor
  (selected, { s with disabledRrCursor := cursor })

-- ==== strict priority

/-- The ageing threshold, at least 1. -/
def agingThreshold : UInt32 :=
  if 0 < cfg.streamAgingThreshold then cfg.streamAgingThreshold.toUInt32 else 1

/-- The ageing step, at least 1. -/
def agingStep : UInt32 := if 0 < cfg.streamAgingStep then cfg.streamAgingStep.toUInt32 else 1

variable (st : SendStream)

/-- How many levels its waiting has lifted a stream, as a `uint32_t`. -/
def promotions : UInt32 :=
  st.schedWaitRounds / agingThreshold cfg * agingStep cfg

/-- The level a stream competes in. -/
def effectivePriority : Nat :=
  if st.basePriority.toUInt32 ≤ promotions cfg st then 0
  else st.basePriority.toNat - (promotions cfg st).toNat

/-- `byPriority[prio]`. -/
def byPriority (prio : Nat) : List SendStream :=
  (s.candidates cfg conn nowUs).filter fun st => effectivePriority cfg st = prio

/-- The levels, from the given ones on. -/
def pickFromLevels (s : StreamScheduler) : List Nat → Option SendStream × StreamScheduler
  | [] => (none, s)
  | prio :: levels =>
    let (selected, cursor) :=
      pickRoundRobinStream s.streams (s.byPriority cfg conn nowUs prio) (s.strictRrCursor prio)
    let s := { s with strictRrCursor := Function.update s.strictRrCursor prio cursor }
    match selected with
    | some selected => (some selected, s)
    | none => pickFromLevels s levels

def pickNextWritableStreamStrict : Option SendStream × StreamScheduler :=
  s.pickFromLevels cfg conn nowUs (List.range kMaxStreamPriorityLevels)

-- ==== deficit round robin

/-- What a visit adds to a stream's deficit, as a `uint32_t`. -/
def drrQuantum : UInt32 :=
  (if 0 < cfg.streamDrrQuantum then cfg.streamDrrQuantum.toUInt32 else 1200)
    * (kPriorityLowest - st.basePriority + 1).toUInt32

def drrDeficitCap : UInt32 :=
  if 0 < cfg.streamDrrDeficitCap then cfg.streamDrrDeficitCap else 64 * 1024

/-- A stream's deficit after a visit. -/
def drrRefill (deficit : UInt32) : UInt32 :=
  if drrDeficitCap cfg ≤ deficit + drrQuantum cfg st then drrDeficitCap cfg
  else deficit + drrQuantum cfg st

/-- What a stream must have to be served. -/
def drrNeed : UInt32 :=
  if 0 < st.sendQueuedBytes then .ofNat (min st.sendQueuedBytes 65535) else 1

/-- The state when a stream's deficit has been refilled. -/
def refill : StreamScheduler :=
  { s with
    drrDeficit :=
      Function.update s.drrDeficit st.id (drrRefill cfg st (s.drrDeficit st.id)) }

def drrVisit (s : StreamScheduler) : List SendStream → Option SendStream × StreamScheduler
  | [] => (none, s)
  | st :: rest =>
    let s := s.refill cfg st
    if drrNeed st ≤ s.drrDeficit st.id then
      (some st, { s with
        drrDeficit :=
          Function.update s.drrDeficit st.id (s.drrDeficit st.id - drrNeed st)
        drrCursor := st.id })
    else drrVisit s rest

@[simp] theorem refill_drrDeficit_self :
    (s.refill cfg st).drrDeficit st.id = drrRefill cfg st (s.drrDeficit st.id) :=
  Function.update_self ..

theorem refill_drrDeficit_of_ne {st : SendStream} {id : Nat}
    (hne : st.id ≠ id) : (s.refill cfg st).drrDeficit id = s.drrDeficit id :=
  Function.update_of_ne hne.symm ..

/-- The candidates in the order of their visits. -/
def drrOrder : List SendStream :=
  roundFrom SendStream.id (sortBy SendStream.id (s.candidates cfg conn nowUs)) s.drrCursor

/-- `ConnectionImpl::pickNextWritableStreamDrr`: two passes. -/
def pickNextWritableStreamDrr : Option SendStream × StreamScheduler :=
  s.drrVisit cfg (s.drrOrder cfg conn nowUs ++ s.drrOrder cfg conn nowUs)

-- ==== the loop

/-- `ConnectionImpl::pickNextWritableStream`, by the mode. -/
def pickByMode : Option SendStream × StreamScheduler :=
  match cfg.streamSchedulerMode with
  | .disabled => s.pickNextWritableStreamDisabled cfg conn nowUs
  | .drr => s.pickNextWritableStreamDrr cfg conn nowUs
  | .strict => s.pickNextWritableStreamStrict cfg conn nowUs

def pickNextWritableStream : Option SendStream × StreamScheduler :=
  match s.streams.entries with
  | [st] => if st.writable cfg conn nowUs then (some st, s) else s.pickByMode cfg conn nowUs
  | _ => s.pickByMode cfg conn nowUs

/-- A stream's wait after a round in which `selectedStreamId` was served. -/
def aged (selectedStreamId : Nat) (st : SendStream) : SendStream :=
  if !st.hasPendingSendWork then { st with schedWaitRounds := 0 }
  else if st.id = selectedStreamId then { st with schedWaitRounds := 0 }
  else if st.schedWaitRounds < 0xffffffff then
    { st with schedWaitRounds := st.schedWaitRounds + 1 }
  else st

theorem aged_id (selectedStreamId : Nat) (st : SendStream) :
    (aged selectedStreamId st).id = st.id := by
  unfold aged
  repeat' split
  all_goals rfl

def updateStrictAgingState (selectedStreamId : Nat) : StreamScheduler :=
  if cfg.streamSchedulerMode ≠ .strict then s
  else if s.streams.entries.length ≤ 1 then s
  else { s with streams := s.streams.update (aged selectedStreamId) (aged_id selectedStreamId) }

def pruneSchedulerState : StreamScheduler :=
  { s with
    drrDeficit := fun id =>
      match s.streams.find id with
      | none => 0
      | some st => if st.hasPendingSendWork then s.drrDeficit id else 0 }

/-- What `StreamImpl::onConnectionWritable` returned. -/
inductive WriteOutcome where
  | ok
  | wouldBlock
  | failed
deriving DecidableEq, Repr

/-- One turn of the loop of `flushPendingStreamWrites`. -/
structure Round where
  cfg : StreamSchedulerConfig
  conn : SendReadiness
  nowUs : Nat
  /-- The streams, when one of them is picked. -/
  before : StreamMap
  /-- The streams, when it has written. -/
  after : StreamMap
  /-- Streams are collected only after the loop. -/
  kept : before.entries.map SendStream.id ⊆ after.entries.map SendStream.id
  outcome : WriteOutcome := .ok
  /-- It is the last turn of the flush (`kMaxStreamSendBurstsPerFlush`). -/
  last : Bool := false

def picked (r : Round) : Option SendStream × StreamScheduler :=
  pickNextWritableStream r.cfg r.conn r.nowUs { s with streams := r.before }

/-- A turn, and the end of the flush if it is the last one. -/
def turn (r : Round) : StreamScheduler :=
  match s.picked r with
  | (none, s) => { s with streams := r.after }.pruneSchedulerState
  | (some st, s) =>
    let s := { s with streams := r.after }
    match r.outcome with
    | .wouldBlock => s
    | .failed => s.pruneSchedulerState
    | .ok =>
      let s := s.updateStrictAgingState r.cfg st.id
      if r.last then s.pruneSchedulerState else s

end StreamScheduler

end Eular.Utp
