/-
Two connected endpoints and the frames between them.

Everything a side has sent stays deliverable: a step delivers any frame
of the past, again or for the first time, so a run may lose, reorder,
duplicate and retransmit at will.

`handshake` is where a run starts: the client has the parameters the
server sent before it had a connection, the server has those the client
took from its `Config`. `advertisedMaxData` and
`advertisedStreamData` say what a side has promised on the wire so far;
the window a side lets its peer send in is, in the words of `Config`, its
`initial_max_stream_data_bidi_local`.
-/
import Eular.Lib.Run
import Eular.Utp.Connection.FlowControl
import Eular.Utp.Send.Peers

namespace Eular.Utp

open Lib

/-- The two connections, all they have sent, and whether
`insertRecvFragment` has answered WOULD_BLOCK. -/
structure Link where
  client : FlowConn
  server : FlowConn
  toServer : List FlowFrame := []
  toClient : List FlowFrame := []
  refused : Bool := false

def Link.handshake (client server : Config) : Link where
  client := (FlowConn.bootstrap client true).onTransportParams (pendingTransportParams server)
  server := (FlowConn.bootstrap server false).initPassive (localTransportParams client)

/-- What can happen: a stream is created, bytes of a stream go out, the
application calls a stream, the `i`-th frame the other side sent arrives. -/
inductive LinkOp where
  | createStream (streamType : StreamType)
  | flush (env : FlowEnv) (id : Nat) (data : List UInt8) (fin : Bool)
  | app (env : FlowEnv) (id : Nat) (op : AppOp)
  | deliver (env : FlowEnv) (i : Nat)

namespace FlowConn

/-- `createStreamInternal` on an established connection. -/
def createStream (c : FlowConn) (streamType : StreamType) : FlowConn :=
  let refused : Status := .error .streamLimitError "stream limit reached"
  let taken : Status := .error .streamIdExhausted "stream id exhausted"
  if c.connected then { c with table := (c.table.openLocal streamType refused taken).2 } else c

/-- The frame is a STREAM frame that meets a full buffer. -/
def refuses (c : FlowConn) : FlowFrame → Bool
  | .stream frame => (c.onStreamFrame frame).1.code = .wouldBlock
  | _ => false

/-- One event on a side, `inbox` being what the other side has sent: the
side, the frames that go out, and whether a STREAM frame was refused. -/
def event (c : FlowConn) (inbox : List FlowFrame) : LinkOp → FlowConn × List FlowFrame × Bool
  | .createStream streamType => (c.createStream streamType, [], false)
  | .flush env id data fin =>
    let r := c.flush env id data fin
    (r.1, r.2, false)
  | .app env id op =>
    let r := c.onApp env id op
    (r.1, r.2, false)
  | .deliver env i =>
    match inbox[i]? with
    | none => (c, [], false)
    | some frame =>
      if !c.connected then (c, [], false)
      else
        let r := c.onFrame env frame
        (r.1, r.2, c.refuses frame)

/-- What the sender may send in all, ⊤ standing for no limit. -/
def connectionLimit (c : FlowConn) : ℕ∞ := if c.peerMaxData = 0 then ⊤ else c.peerMaxData

end FlowConn

/-- One event at one of the sides. -/
def Link.step (l : Link) : Side × LinkOp → Link
  | (.client, op) =>
    let r := l.client.event l.toClient op
    { l with client := r.1, toServer := l.toServer ++ r.2.1, refused := l.refused || r.2.2 }
  | (.server, op) =>
    let r := l.server.event l.toServer op
    { l with server := r.1, toClient := l.toClient ++ r.2.1, refused := l.refused || r.2.2 }

-- ==== promises

/-- The connection window a side has advertised. -/
def advertisedMaxData (tp : TransportParams) (sent : List FlowFrame) : Nat :=
  sent.foldl
    (fun limit frame =>
      match frame with
      | .maxData maximumData => max limit maximumData
      | _ => limit)
    (positiveOr tp.initialMaxData kDefaultInitialMaxData)

/-- The window of a stream a side has advertised. -/
def advertisedStreamData (tp : TransportParams) (sent : List FlowFrame) (id : Nat) : Nat :=
  sent.foldl
    (fun limit frame =>
      match frame with
      | .maxStreamData streamId maximumStreamData =>
        if streamId = id then max limit maximumStreamData else limit
      | _ => limit)
    (positiveOr tp.initialMaxStreamDataBidiLocal kDefaultInitialMaxStreamData)

/-- Neither side believes it may send more on a stream than the other has
advertised. -/
def StreamLimitsKept (client server : Config) (l : Link) : Prop :=
  ∀ id, l.client.peerStreamDataLimit id
      ≤ advertisedStreamData (pendingTransportParams server) l.toClient id
    ∧ l.server.peerStreamDataLimit id
      ≤ advertisedStreamData (localTransportParams client) l.toServer id

/-- The same for the connection. -/
def ConnectionLimitsKept (client server : Config) (l : Link) : Prop :=
  l.client.connectionLimit ≤ advertisedMaxData (pendingTransportParams server) l.toClient
    ∧ l.server.connectionLimit ≤ advertisedMaxData (localTransportParams client) l.toServer

/-- The two sides agree, and nothing honest was refused. -/
structure FlowAgreed (client server : Config) (l : Link) : Prop where
  stream : StreamLimitsKept client server l
  connection : ConnectionLimitsKept client server l
  accepted : l.refused = false

end Eular.Utp
