/-
The send control as its connection drives it.

`SendControl.step` lets every function of the send control be called at
any time. Here are the calls there really are. The connection sends:
control frames, and the bytes of its streams, each stream at its own
`m_nextSendOffset` (`StreamImpl::flushPendingSends`). Acknowledgements
arrive. Two timers fire, and when the context finds that the connection
wants to write, `ConnectionImpl::onWrite` sends what is due and calls
`onCanWrite`.

# What a stream sends

The bytes an application writes are a function of stream and offset,
`content`. A stream sends them in pieces of any length and never goes
back: what is lost is the send control's to repeat. When and in what
pieces it sends is the environment's choice, and so is what happens to
each piece on the way to the socket.
-/
import Eular.Utp.Send.CanWrite

namespace Eular.Utp

open Lib

/-- A stream's sending end: `m_nextSendOffset`, and where its FIN was sent. -/
structure StreamOut where
  nextSendOffset : Nat := 0
  localFinSent : Option Nat := none
deriving DecidableEq, Repr

/-- The sending side of a connection. -/
structure SendSide extends SendControl where
  streams : UInt32 → StreamOut := fun _ => {}

/-- Something the connection sends. -/
inductive Outgoing where
  | control (req : ControlRequest)
  | stream (id : UInt32) (len : Nat) (fin : Bool)

inductive SendSideOp where
  | send (out : Outgoing)
  | ack (ackInfo : AckInfo)
  | retransTimer
  | scheduleTimer
  | write (outs : List Outgoing)

namespace SendSide

variable (gcm : Gcm) (content : UInt32 → Nat → UInt8) (env : SendCtlEnv)

variable (s : SendSide)

/-- The piece of `len` bytes a stream sends next. -/
def nextFrame (id : UInt32) (len : Nat) (fin : Bool) : FrameStream where
  streamFlag := if fin then 1 else 0
  streamId := id.toNat
  streamOffset := (s.streams id).nextSendOffset
  streamData := (List.range len).map fun i => content id ((s.streams id).nextSendOffset + i)

def sentFrame (id : UInt32) (len : Nat) (fin : Bool) : UInt32 → StreamOut :=
  let nextSendOffset := (s.streams id).nextSendOffset + len
  Function.update s.streams id
    { nextSendOffset, localFinSent := if fin then some nextSendOffset else none }

/-- One turn of the loop of `flushPendingSends`. Nothing follows a FIN, a
frame without bytes is a FIN, and the total of bytes sent, which is no
smaller than any offset, does not leave 64 bits. -/
def sendStream (id : UInt32) (len : Nat) (fin : Bool) : SendSide :=
  if (s.streams id).localFinSent.isSome || (len = 0 && !fin)
      || 2 ^ 64 ≤ (s.streams id).nextSendOffset + len then s
  else
    let r := s.toSendControl.sendStreamFrame gcm env (s.nextFrame content id len fin)
    if r.1.ok then { toSendControl := r.2, streams := s.sentFrame id len fin }
    else if r.1.code = .wouldBlock then { s with toSendControl := r.2.scheduleWrite }
    else { s with toSendControl := r.2 }

def sendOut : Outgoing → SendSide
  | .control req => { s with toSendControl := (s.sendPacket gcm env req.toRequest 0 0).2 }
  | .stream id len fin => s.sendStream gcm content env id len fin

/-- `ConnectionImpl::onWrite`, of a connection that is not closing. -/
def onWrite (outs : List Outgoing) : SendSide :=
  let s := outs.foldl (sendOut gcm content env) s
  { s with toSendControl := s.onCanWrite gcm env }

/-- One event. A timer that is not running does not fire, and the context
calls who asked for it. -/
def step : SendCtlEnv × SendSideOp → SendSide
  | (env, .send out) => s.sendOut gcm content env out
  | (env, .ack ackInfo) =>
    { s with toSendControl := (s.onAckReceived gcm env ackInfo).scheduleWrite }
  | (env, .retransTimer) =>
    if s.retransTimer then { s with toSendControl := s.onRetransTimer env } else s
  | (_, .scheduleTimer) =>
    if s.scheduleTimer then
      { s with toSendControl := { s.toSendControl with scheduleTimer := false }.scheduleWrite }
    else s
  | (env, .write outs) =>
    if s.wantWrite then
      { s with toSendControl := { s.toSendControl with wantWrite := false } }.onWrite gcm content
        env outs
    else s

/-- A sending side before anything was sent by it. -/
def init (packetNumber : UInt64) (mtu : MtuDiscovery) (bytesOut : Nat) : SendSide :=
  { packetNumber, mtu, bytesOut }

end SendSide

end Eular.Utp
