/-
The binary frames of the NAT probes (`binary_protocol.h`,
`ntrs_binary_protocol.cpp`).

The buffer of a frame is the caller's, from its first byte on; data that is
parsed is a list of bytes, and the pointers of a view are places in it. Of the
pointers only that of a value may be null. An enumeration is passed as its
number; the compilers keep a number that is none of the enumerators, as
`next_tlv` makes them. Ports are in host order.
-/
import Eular.Lib.Bytes
import Eular.Lib.Records

namespace Eular.Ntrs.Binary

open Lib

def NTRS_BINARY_FRAME_MAGIC : UInt32 := 0x4E545250

def NTRS_BINARY_FRAME_VERSION : UInt8 := 1

def kNtrsBinaryHeaderSize : Nat := 24

def kNtrsBinaryTlvHeaderSize : Nat := 4

def NTRS_BINARY_TLV_UNKNOWN : UInt16 := 0

-- ==== enumerations

def NTRS_BINARY_FRAME_PROBE_REQ : UInt8 := 1
def NTRS_BINARY_FRAME_PROBE_RSP : UInt8 := 2
def NTRS_BINARY_FRAME_FILTER_REQ : UInt8 := 3
def NTRS_BINARY_FRAME_FILTER_RSP : UInt8 := 4
def NTRS_BINARY_FRAME_PUNCH_REQ : UInt8 := 5
def NTRS_BINARY_FRAME_PUNCH_ACK : UInt8 := 6

/-- `ntrs_binary_frame_type_is_valid`. -/
def frameTypeIsValid (frame_type : UInt8) : Bool :=
  frame_type = NTRS_BINARY_FRAME_PROBE_REQ || frame_type = NTRS_BINARY_FRAME_PROBE_RSP
    || frame_type = NTRS_BINARY_FRAME_FILTER_REQ || frame_type = NTRS_BINARY_FRAME_FILTER_RSP
    || frame_type = NTRS_BINARY_FRAME_PUNCH_REQ || frame_type = NTRS_BINARY_FRAME_PUNCH_ACK

def NTRS_BINARY_PHASE_PROBE1 : UInt8 := 1
def NTRS_BINARY_PHASE_CHANGE_PORT : UInt8 := 2
def NTRS_BINARY_PHASE_CHANGE_IP : UInt8 := 3
def NTRS_BINARY_PHASE_PROBE2 : UInt8 := 4
def NTRS_BINARY_PHASE_PUNCH : UInt8 := 5

/-- `ntrs_binary_phase_is_valid`. -/
def phaseIsValid (phase : UInt8) : Bool :=
  phase = NTRS_BINARY_PHASE_PROBE1 || phase = NTRS_BINARY_PHASE_CHANGE_PORT
    || phase = NTRS_BINARY_PHASE_CHANGE_IP || phase = NTRS_BINARY_PHASE_PROBE2
    || phase = NTRS_BINARY_PHASE_PUNCH

-- ==== writing

/-- `ntrs_binary_frame_header_t`. -/
structure Header where
  magic : UInt32 := 0
  version : UInt8 := 0
  frame_type : UInt8 := 0
  phase : UInt8 := 0
  flags : UInt8 := 0
  request_id : UInt32 := 0
  sequence : UInt32 := 0
  timestamp_ms : UInt64 := 0
deriving DecidableEq, Repr

/-- A value as it is passed, its length in 16 bits. -/
abbrev Value := {value : List UInt8 // value.length < 2 ^ 16}

/-- `ntrs_binary_frame_t`. -/
structure Frame where
  buffer : Nat → UInt8
  capacity : Nat
  length : Nat

def Frame.written (f : Frame) : List UInt8 := readMem f.buffer 0 f.length

/-- `ntrs_binary_frame_init`. -/
def frameInit (buffer : Nat → UInt8) (capacity : Nat) : Option Frame :=
  if capacity < kNtrsBinaryHeaderSize then none
  else some
    { buffer := fun i => if i < capacity then 0 else buffer i, capacity, length := 0 }

/-- `ntrs_binary_frame_set_header`. -/
def setHeader (f : Frame) (frame_type phase flags : UInt8) (request_id sequence : UInt32)
    (timestamp_ms : UInt64) : Bool × Frame :=
  if f.capacity < kNtrsBinaryHeaderSize ∨ frameTypeIsValid frame_type = false
      ∨ phaseIsValid phase = false then
    (false, f)
  else
    let header := bigEndian 4 NTRS_BINARY_FRAME_MAGIC.toNat
      ++ [NTRS_BINARY_FRAME_VERSION, frame_type, phase, flags]
      ++ bigEndian 4 request_id.toNat ++ bigEndian 4 sequence.toNat
      ++ bigEndian 8 timestamp_ms.toNat
    (true, { f with buffer := writeMem f.buffer 0 header, length := kNtrsBinaryHeaderSize })

/-- `ntrs_binary_frame_add_tlv`. -/
def addTlv (f : Frame) (type : UInt16) (value : Option Value) : Bool × Frame :=
  match value with
  | none => (false, f)
  | some value =>
    if f.length < kNtrsBinaryHeaderSize ∨ type = NTRS_BINARY_TLV_UNKNOWN then (false, f)
    else if f.capacity < f.length + kNtrsBinaryTlvHeaderSize + value.1.length then (false, f)
    else
      let tlv := bigEndian 2 type.toNat ++ bigEndian 2 value.1.length ++ value.1
      (true, { f with
        buffer := writeMem f.buffer f.length tlv
        length := f.length + (kNtrsBinaryTlvHeaderSize + value.1.length) })

-- ==== parsing

variable (data : List UInt8)

/-- `GetU16Be`, `GetU32Be` and `GetU64Be`, of the `w` bytes at a place. -/
def getBe (w offset : Nat) : Nat := ofBigEndian ((data.drop offset).take w)

/-- `ntrs_binary_frame_view_t`. -/
structure FrameView where
  header : Header
  payload : Nat
  payload_len : Nat
deriving DecidableEq, Repr

/-- `ntrs_binary_frame_parse`. -/
def frameParse : Option FrameView :=
  if data.length < kNtrsBinaryHeaderSize then none
  else
    let header : Header := {
      magic := UInt32.ofNat (getBe data 4 0)
      version := data.getD 4 0
      frame_type := data.getD 5 0
      phase := data.getD 6 0
      flags := data.getD 7 0
      request_id := UInt32.ofNat (getBe data 4 8)
      sequence := UInt32.ofNat (getBe data 4 12)
      timestamp_ms := UInt64.ofNat (getBe data 8 16) }
    if header.magic ≠ NTRS_BINARY_FRAME_MAGIC then none
    else if header.version ≠ NTRS_BINARY_FRAME_VERSION
        ∨ frameTypeIsValid header.frame_type = false ∨ phaseIsValid header.phase = false then
      none
    else some
      { header, payload := kNtrsBinaryHeaderSize
        payload_len := data.length - kNtrsBinaryHeaderSize }

/-- `ntrs_binary_tlv_view_t`. -/
structure TlvView where
  type : UInt16
  value : Nat
  value_len : Nat
deriving DecidableEq, Repr

def TlvView.bytes (tlv : TlvView) : List UInt8 :=
  (data.drop tlv.value).take tlv.value_len

/-- `ntrs_binary_frame_next_tlv`, and the cursor behind what it found. -/
def nextTlv (view : FrameView) (cursor : Nat) : Option (TlvView × Nat) :=
  if view.payload_len ≤ cursor then none
  else if view.payload_len - cursor < kNtrsBinaryTlvHeaderSize then none
  else
    let type := getBe data 2 (view.payload + cursor)
    let value_len := getBe data 2 (view.payload + cursor + 2)
    let offset := cursor + kNtrsBinaryTlvHeaderSize
    if view.payload_len - offset < value_len then none
    else some (⟨UInt16.ofNat type, view.payload + offset, value_len⟩, offset + value_len)

/-- The calls of `next_tlv` from a cursor on until one fails, where `fuel` calls are enough: what
they found, and where the cursor ends. -/
def iterate (data : List UInt8) (view : FrameView) : Nat → Nat → Option (List TlvView × Nat)
  | 0, _ => none
  | fuel + 1, cursor =>
    match nextTlv data view cursor with
    | none => some ([], cursor)
    | some (tlv, next) =>
      (iterate data view fuel next).map fun found => (tlv :: found.1, found.2)

/-- The loop of `ntrs_binary_frame_find_tlv`, where `fuel` rounds are enough. -/
def findFrom (data : List UInt8) (view : FrameView) (type : UInt16) :
    Nat → Nat → Option (Option TlvView)
  | 0, _ => none
  | fuel + 1, cursor =>
    match nextTlv data view cursor with
    | none => some none
    | some (tlv, next) =>
      if tlv.type = type then some (some tlv) else findFrom data view type fuel next

/-- `ntrs_binary_frame_find_tlv`. -/
def findTlv (view : FrameView) (type : UInt16) (fuel : Nat) :
    Option (Option TlvView) :=
  if type = NTRS_BINARY_TLV_UNKNOWN then some none else findFrom data view type fuel 0

-- ==== endpoints

/-- A socket address: `AF_INET` and `AF_INET6` with what the frames carry of them, or another
family. -/
inductive SockAddr where
  | in4 (port : UInt16) (addr : {addr : List UInt8 // addr.length = 4})
  | in6 (port : UInt16) (addr : {addr : List UInt8 // addr.length = 16})
  | other
deriving DecidableEq

def NTRS_BINARY_ADDR_FAMILY_IPV4 : UInt8 := 4

def NTRS_BINARY_ADDR_FAMILY_IPV6 : UInt8 := 6

/-- The bytes of an endpoint, in front of the address. -/
def endpointHead (family : UInt8) (port : UInt16) : List UInt8 :=
  [family, 0] ++ bigEndian 2 port.toNat

/-- `ntrs_binary_frame_add_endpoint_tlv`. -/
def addEndpointTlv (f : Frame) (type : UInt16) (addr : SockAddr) : Bool × Frame :=
  match addr with
  | .in4 port addr =>
    addTlv f type (some ⟨endpointHead NTRS_BINARY_ADDR_FAMILY_IPV4 port ++ addr.1, by
      simp [endpointHead, addr.2]⟩)
  | .in6 port addr =>
    addTlv f type (some ⟨endpointHead NTRS_BINARY_ADDR_FAMILY_IPV6 port ++ addr.1, by
      simp [endpointHead, addr.2]⟩)
  | .other => (false, f)

/-- `ntrs_binary_tlv_parse_endpoint`, of the bytes of a view. -/
def parseEndpoint (value : List UInt8) : Option SockAddr :=
  if value.length < 4 then none
  else
    let family := value.getD 0 0
    let port := UInt16.ofNat (getBe value 2 2)
    if h : family = NTRS_BINARY_ADDR_FAMILY_IPV4 ∧ value.length = 8 then
      some (.in4 port ⟨(value.drop 4).take 4, by rw [List.length_take, List.length_drop]; omega⟩)
    else if h : family = NTRS_BINARY_ADDR_FAMILY_IPV6 ∧ value.length = 20 then
      some (.in6 port ⟨(value.drop 4).take 16, by rw [List.length_take, List.length_drop]; omega⟩)
    else none

end Eular.Ntrs.Binary
