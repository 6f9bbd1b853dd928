/-
Frames on the wire (`proto/frame.h`, `proto/frame/*.h`,
`PacketIn::frameLength`).

A packet's payload is a sequence of frames, each opened by its type
byte. Nothing separates them: the length of each follows from its type
and, for the variable ones, from a length field in its head, and
`splitFrames` cuts a payload by those lengths as `PacketIn::decode` and
`PacketIn::nextFrame` do.
-/
import Eular.Lib.Bytes
import Eular.Utp.Status

namespace Eular.Utp

open Lib

inductive FrameType where
  | invalid
  | stream
  | ack
  | padding
  | connectionClose
  | ping
  | resetStream
  | streamsBlocked
  | maxStreams
  | pathChallenge
  | pathResponse
  | crypto
  | sessionToken
  | ackFrequency
  | version
  | handshakeDone
  | transportParams
  | handshakeDelay
  | maxData
  | maxStreamData
  | dataBlocked
  | streamDataBlocked
deriving DecidableEq, Repr

namespace FrameType

def value : FrameType → Nat
  | invalid => 0
  | stream => 1
  | ack => 2
  | padding => 3
  | connectionClose => 4
  | ping => 5
  | resetStream => 6
  | streamsBlocked => 7
  | maxStreams => 8
  | pathChallenge => 9
  | pathResponse => 10
  | crypto => 11
  | sessionToken => 12
  | ackFrequency => 13
  | version => 14
  | handshakeDone => 15
  | transportParams => 16
  | handshakeDelay => 17
  | maxData => 18
  | maxStreamData => 19
  | dataBlocked => 20
  | streamDataBlocked => 21

/-- The type of a type byte; `none` from `kFrameMax` on. -/
def ofValue : Nat → Option FrameType
  | 0 => some invalid
  | 1 => some stream
  | 2 => some ack
  | 3 => some padding
  | 4 => some connectionClose
  | 5 => some ping
  | 6 => some resetStream
  | 7 => some streamsBlocked
  | 8 => some maxStreams
  | 9 => some pathChallenge
  | 10 => some pathResponse
  | 11 => some crypto
  | 12 => some sessionToken
  | 13 => some ackFrequency
  | 14 => some version
  | 15 => some handshakeDone
  | 16 => some transportParams
  | 17 => some handshakeDelay
  | 18 => some maxData
  | 19 => some maxStreamData
  | 20 => some dataBlocked
  | 21 => some streamDataBlocked
  | _ => none

/-- `1u << frameType`. -/
def bit (t : FrameType) : Nat := 2 ^ t.value

end FrameType

/-- `ReadBE16(p + offset)`. -/
def readBE16 (p : List UInt8) (offset : Nat) : Nat := ofBigEndian ((p.drop offset).take 2)

/-- A frame whose head of `hdrSize` bytes says how many bytes follow. -/
def sizedFrame (left hdrSize body : Nat) (short : String) : Except Status Nat :=
  if left < hdrSize then .error (.error .overflow short) else .ok (hdrSize + body)

/-- The switch of `PacketIn::frameLength`: the length of the frame at the
front of `p`. -/
def frameSize (p : List UInt8) : FrameType → Except Status Nat
  | .ping => .ok 1
  | .handshakeDone => .ok (1 + 8)
  | .pathChallenge | .pathResponse => .ok (1 + 8)
  | .version => .ok (1 + 4)
  | .padding => sizedFrame p.length (1 + 2) (readBE16 p 1) "padding frame too short"
  | .sessionToken =>
    sizedFrame p.length (1 + 1 + 2) ((p.getD 1 0).toNat) "session token frame too short"
  | .connectionClose =>
    sizedFrame p.length (1 + 2 + 2) (readBE16 p 3) "connection close frame too short"
  | .stream =>
    sizedFrame p.length (1 + 1 + 2 + 4 + 8) (readBE16 p 2) "stream frame too short"
  | .ack =>
    sizedFrame p.length (1 + 1 + 2 + 4 + 8) ((p.getD 1 0).toNat * 8) "ack frame too short"
  | .crypto => .ok (1 + 1 + 1 + 32)
  | .resetStream => .ok (1 + 2 + 4 + 8)
  | .ackFrequency => .ok (1 + 1 + 1 + 4)
  | .transportParams => .ok (1 + 2 + 4 + 2 + 2 + 2 + 1 + 8 + 8 + 8)
  | .handshakeDelay => .ok (1 + 4)
  | .maxData => .ok (1 + 8)
  | .maxStreamData => .ok (1 + 4 + 8)
  | .dataBlocked => .ok (1 + 8)
  | .streamDataBlocked => .ok (1 + 4 + 8)
  | .invalid | .streamsBlocked | .maxStreams =>
    .error (.error .frameUnexpected "unknown frame type")

def frameLength (p : List UInt8) : Except Status (FrameType × Nat) :=
  match p with
  | [] => .error (.error .overflow "frameLength: null data or empty payload")
  | b :: _ =>
    match FrameType.ofValue b.toNat with
    | none => .error (.error .frameUnexpected "unknown frame type")
    | some frameType =>
      match frameSize p frameType with
      | .error st => .error st
      | .ok frameLen =>
        if p.length < frameLen then
          .error (.error .overflow "frame exceeds payload remainder")
        else .ok (frameType, frameLen)

/-- Cut a payload into frames; `none` when some frame is malformed. Every
frame has at least its type byte, so the payload's length is fuel
enough. -/
def splitFrames : Nat → List UInt8 → Option (List (FrameType × List UInt8))
  | _, [] => some []
  | 0, _ :: _ => none
  | fuel + 1, b :: p =>
    match frameLength (b :: p) with
    | .error _ => none
    | .ok (frameType, frameLen) =>
      match splitFrames fuel ((b :: p).drop frameLen) with
      | none => none
      | some rest => some ((frameType, (b :: p).take frameLen) :: rest)

def frames (payload : List UInt8) : Option (List (FrameType × List UInt8)) :=
  splitFrames payload.length payload

/-- The bitmap of the frame types present. -/
def frameTypeBits (fs : List (FrameType × List UInt8)) : Nat :=
  fs.foldl (fun bits f => bits ||| f.1.bit) 0

end Eular.Utp
