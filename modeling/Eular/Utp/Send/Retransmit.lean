/-
Loss and retransmission of one packet (`context/send_ctl.cpp`).

A tracked packet waits in `m_unackedPackets`. `handleRegularLostPacket`
moves it to `m_lostPackets` and marks its number for renewal;
`retransmitLostBatch` and `retransmitLostPacket`, which treat each packet
alike, edit it, renumber it, seal it again and send it, and it waits once
more. The packet leaves the system when it is acknowledged, or when
`retransmitSplitStreamPacket` has sent its frames in other packets.
-/
import Eular.Utp.Send.SendPacket

namespace Eular.Utp

open Lib

inductive PacketQueue where
  | unacked
  | lost
  | released
deriving DecidableEq, Repr

/-- What `retransmitLostPacket` reads of the connection. -/
structure RetransmitEnv where
  /-- The number `packetNumber()` hands out. -/
  packetNumber : UInt64
  canSendStreamUnackedBytes : Nat → Bool
  canSendOnCurrentPath : Nat → FrameType → Bool
  /-- Whether `retransmitSplitStreamPacket` succeeds, when it is tried. -/
  splitOk : Bool
  /-- Whether the socket takes the datagram. -/
  udpSent : List UInt8 → Bool

def handleRegularLostPacket (packet : PacketOut) : PacketOut :=
  { packet with
    poFlags := { packet.poFlags with
      unAcked := false, lost := true, lossRecorded := true, resetPackNo := true } }

variable (gcm : Gcm)

/-- What became of an attempt to send a lost packet again. -/
inductive Attempt where
  | blocked (st : Status)
  | split
  | ready (wire : List UInt8)
deriving DecidableEq, Repr

/-- The packet after an attempt, and what the attempt took from the
connection: `m_packetNumber` afterwards, and the call of the cipher. -/
structure Prepared where
  packet : PacketOut
  attempt : Attempt
  packetNumber : UInt64
  sealCall : Option SealCall

/-- An encrypted packet is sealed again if its number is new or its sealed
form is gone. -/
def resealPacket (aesCtx : Option AesGcmContext) (packetNumber : UInt64)
    (needResetPackNo : Bool) (packet : PacketOut) : Prepared :=
  match aesCtx with
  | none => { packet, attempt := .ready packet.wire, packetNumber, sealCall := none }
  | some ctx =>
    if packet.poFlags.encrypted && (needResetPackNo || packet.encryptData = .null) then
      match ctx.encrypt gcm packet with
      | .error _ =>
        { packet, attempt := .blocked (.error .cryptoEncryption "re-encryption failed"),
          packetNumber, sealCall := none }
      | .ok encrypted =>
        let packet' := { encrypted with dataSize := encrypted.encryptDataSize }
        { packet := packet', attempt := .ready packet'.wire, packetNumber,
          sealCall := some (ctx.encryptCall packet) }
    else { packet, attempt := .ready packet.wire, packetNumber, sealCall := none }

/-- The packet is renumbered and sealed again. -/
def renewPacket (aesCtx : Option AesGcmContext) (packetNumber : UInt64) (packet : PacketOut) :
    Prepared :=
  if packet.poFlags.resetPackNo then
    match rewritePacketNumber packet packetNumber with
    | none =>
      { packet, packetNumber, sealCall := none,
        attempt := .blocked (.error .internalError "failed to rewrite packet number") }
    | some packet => resealPacket gcm aesCtx (packetNumber + 1) true packet
  else resealPacket gcm aesCtx packetNumber false packet

/-- The body of `SendControl::retransmitLostPacket`, up to the socket. -/
def prepareLostPacket (env : RetransmitEnv) (aesCtx : Option AesGcmContext)
    (packet : PacketOut) : Prepared :=
  let stop (packet : PacketOut) (attempt : Attempt) : Prepared :=
    { packet, attempt, packetNumber := env.packetNumber, sealCall := none }
  if !env.canSendStreamUnackedBytes packet.streamDataSize then
    stop packet (.blocked (.error .wouldBlock "congestion control blocked"))
  else
    let stripped :=
      if 0 < packet.streamDataSize ∧ 0 < packet.transientAckSize then
        stripTransientAckPayload packet
      else some packet
    match stripped with
    | none =>
      stop packet (.blocked (.error .internalError "failed to strip transient ack payload"))
    | some packet =>
      if !env.canSendOnCurrentPath packet.dataSize (firstFrameType packet.frameTypes) then
        if env.splitOk then stop packet .split
        else stop packet (.blocked (.error .wouldBlock "path validation blocked"))
      else renewPacket gcm aesCtx env.packetNumber packet

/-- A tracked packet, and the datagrams it has left as so far. -/
structure Tracked where
  packet : PacketOut
  queue : PacketQueue
  wires : List (List UInt8)

/-- What can happen to a tracked packet. -/
inductive TrackedOp where
  | lose
  | retransmit (env : RetransmitEnv)
  | ack

/-- After a retransmission the packet waits for its acknowledgement. -/
def afterRetransmit (packet : PacketOut) : PacketOut :=
  { packet with
    poFlags := { packet.poFlags with
      unAcked := true, lost := false, lossRecorded := false, resetPackNo := false } }

def retransmitLostPacket (env : RetransmitEnv) (aesCtx : Option AesGcmContext)
    (t : Tracked) : Tracked :=
  let prepared := prepareLostPacket gcm env aesCtx t.packet
  match prepared.attempt with
  | .blocked _ => { t with packet := prepared.packet }
  | .split => { t with packet := prepared.packet, queue := .released }
  | .ready wire =>
    if env.udpSent wire then
      { packet := afterRetransmit prepared.packet, queue := .unacked,
        wires := t.wires ++ [wire] }
    else { t with packet := prepared.packet }

/-- One event in the life of a tracked packet. -/
def Tracked.step (aesCtx : Option AesGcmContext) (t : Tracked) : TrackedOp → Tracked
  | .lose =>
    if t.queue = .unacked then
      { t with packet := handleRegularLostPacket t.packet, queue := .lost }
    else t
  | .retransmit env =>
    if t.queue = .lost then retransmitLostPacket gcm env aesCtx t else t
  | .ack => { t with queue := .released }

end Eular.Utp
