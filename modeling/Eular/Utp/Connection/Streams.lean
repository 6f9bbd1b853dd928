/-
The streams of a connection (`context/connection_impl.cpp`).

A stream id carries who opened it in bit 0 and its direction in bit 1;
the ids of one kind are four apart. `m_streams` holds the live streams by
id. A frame for an id that is not there opens the stream, if the peer may
open it; `collectClosedStreams` drops streams that are finished in both
directions and read to the end.

The map is its in-order list (`Lib/SortedTable`). `incoming` records the
calls of `m_onIncomingStream`.
-/
import Eular.Utp.Stream.Recv

namespace Eular.Utp

open Lib

/-- `TransportParams`, with its defaults. -/
structure TransportParams where
  initMaxStreamsBidi : Nat := 64
  initMaxStreamsUni : Nat := 32
  initialMaxData : Nat := 64 * 1024 * 1024
  initialMaxStreamDataBidiLocal : Nat := 16 * 1024 * 1024
  initialMaxStreamDataBidiRemote : Nat := 16 * 1024 * 1024
deriving DecidableEq, Repr

/-- `Connection::StreamType`, the two kinds that can be created. -/
inductive StreamType where
  | bidirectional
  | unidirectional
deriving DecidableEq, Repr

def STREAM_TYPES : Nat := 4

/-- `STREAM_ID_IS_CLIENT`, `STREAM_ID_IS_SERVER`. -/
def streamIdIsClient (id : Nat) : Bool := id % 2 = 0
def streamIdIsServer (id : Nat) : Bool := id % 2 = 1

/-- `StreamTypeFromStreamId`, from bit 1. -/
def streamTypeFromStreamId (id : Nat) : StreamType :=
  if id / 2 % 2 = 1 then .unidirectional else .bidirectional

def isLocalInitiatedStream (id : Nat) (isClientInitiator : Bool) : Bool :=
  if isClientInitiator then streamIdIsClient id else streamIdIsServer id

/-- The stream side of a connection. -/
structure Streams where
  isClientInitiator : Bool
  localTP : TransportParams
  peerTP : TransportParams
  streams : List StreamImpl := []
  /-- `m_streamId`, by slot. -/
  streamId : Nat → Nat := fun _ => 0
  incoming : List Nat := []

namespace Streams

variable (t : Streams)

/-- `m_streams.find(streamId)`. -/
def find (id : Nat) : Option StreamImpl := lookup StreamImpl.streamId id t.streams

/-- The stream stored under its id. -/
def store (s : StreamImpl) : Streams :=
  { t with streams := put StreamImpl.streamId s t.streams }

variable (streamType : StreamType)

def streamLimit (peerLimit : Bool) : Nat :=
  let tp := if peerLimit then t.peerTP else t.localTP
  max 1 (match streamType with
    | .unidirectional => tp.initMaxStreamsUni
    | .bidirectional => tp.initMaxStreamsBidi)

def streamIdSlot : Nat :=
  let roleBase := if t.isClientInitiator then 0 else 1
  match streamType with
  | .unidirectional => roleBase + 2
  | .bidirectional => roleBase

def activeLocalStreamCount : Nat :=
  t.streams.countP fun s =>
    s.state ≠ .closed && streamTypeFromStreamId s.streamId = streamType
      && isLocalInitiatedStream s.streamId t.isClientInitiator

/-- What `collectClosedStreams` drops. -/
def collectable (s : StreamImpl) : Bool := s.state = .closed && !s.readable

def collectClosedStreams : Streams :=
  { t with streams := t.streams.filter fun s => !collectable s }

def validateIncomingStreamId (id : Nat) : Status :=
  if !isLocalInitiatedStream id (!t.isClientInitiator) then
    .error .streamStateError "peer initiated stream flag mismatch"
  else if t.streamLimit (streamTypeFromStreamId id) false < id / STREAM_TYPES + 1 then
    .error .streamLimitError "peer initiated stream exceeds limit"
  else .success

/-- The stream `id`, opened by the peer if it is not there. -/
def findOrOpen (id : Nat) : Except Status (StreamImpl × Streams) :=
  match t.find id with
  | some s => .ok (s, t)
  | none =>
    let st := t.validateIncomingStreamId id
    if !st.ok then .error st
    else
      let s : StreamImpl := { streamId := id }
      .ok (s, { t.store s with incoming := t.incoming ++ [id] })

def ingestStreamFrame (frame : FrameStream) : Status × Streams :=
  match t.findOrOpen frame.streamId with
  | .error st => (st, t)
  | .ok (s, t) =>
    let r := s.onFrame frame
    (r.1, (t.store r.2).collectClosedStreams)

def handleResetStreamFrame (id errorCode : Nat) : Streams :=
  match t.findOrOpen id with
  | .error _ => t
  | .ok (s, t) => t.store (s.onReset errorCode true)

/-- The slot's next id, made the first one of its kind while it is 0. -/
def nextStreamId : Nat :=
  let next := t.streamId (t.streamIdSlot streamType)
  if next = 0 then
    (if t.isClientInitiator then 0 else 1)
      + (match streamType with
        | .unidirectional => 2
        | .bidirectional => 0)
  else next

/-- `createStreamInternal`, from `collectClosedStreams` on. -/
def openLocal (limitReached exhausted : Status) :
    Except Status Nat × Streams :=
  let t := t.collectClosedStreams
  if t.streamLimit streamType true ≤ t.activeLocalStreamCount streamType then
    (.error limitReached, t)
  else
    let id := t.nextStreamId streamType
    let slot := t.streamIdSlot streamType
    let t := { t with streamId := Function.update t.streamId slot ((id + STREAM_TYPES) % 2 ^ 32) }
    match t.find id with
    | some _ => (.error exhausted, t)
    | none => (.ok id, t.store { streamId := id })

end Streams

end Eular.Utp
