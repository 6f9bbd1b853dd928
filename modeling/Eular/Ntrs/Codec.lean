/-
The message codec (`codec.h`, `ntrs_codec.cpp`).

A message is the list of its fields, found by key from the front and by tag
over an index of the tag added last. The bytes of a field stand in the
message's storage, which only grows, so a field has them here itself; of the
storage its length is kept. A field's `value_len` is the length of its value:
every caller of `AppendField` passes that. Bytes to decode are read from
memory.
-/
import Eular.Lib.Bytes
import Eular.Ntrs.HubState

namespace Eular.Ntrs.Codec

open Lib

-- ==== fields

inductive FieldType where
  | bytes
  | bool
  | u8
  | u16
  | u32
  | i32
  | u64
deriving DecidableEq, Repr

/-- `FieldDef`, with the tag as its number. -/
structure FieldDef where
  key : String
  tag : UInt16
  type : FieldType
deriving DecidableEq, Repr

def kFieldDefs : List FieldDef :=
  [⟨"assignment_backup1", 0x0063, .bytes⟩, ⟨"assignment_primary1", 0x0061, .bytes⟩,
    ⟨"assignment_primary2", 0x0062, .bytes⟩, ⟨"assignment_version", 0x0060, .u32⟩,
    ⟨"backup1_control", 0x0066, .bytes⟩, ⟨"boot_id", 0x0041, .bytes⟩,
    ⟨"clusterVersion", 0x0047, .u64⟩, ⟨"code", 0x0003, .bytes⟩,
    ⟨"control_endpoint", 0x002B, .bytes⟩, ⟨"connect_role", 0x007C, .u8⟩,
    ⟨"device_id", 0x0011, .bytes⟩, ⟨"dst_device_id", 0x0019, .bytes⟩,
    ⟨"diff_ip_sent", 0x003F, .bool⟩, ⟨"dst_peer_id", 0x0013, .bytes⟩, ⟨"event", 0x0046, .u8⟩,
    ⟨"expire_at", 0x0054, .u32⟩, ⟨"federation", 0x0056, .bytes⟩,
    ⟨"heartbeat_interval_sec", 0x0051, .u32⟩, ⟨"lease_default_sec", 0x0052, .u32⟩,
    ⟨"lease_sec", 0x0050, .u32⟩, ⟨"lease_seq", 0x0053, .u32⟩, ⟨"load", 0x0044, .u32⟩,
    ⟨"local_ip", 0x0020, .bytes⟩, ⟨"local_port", 0x0021, .u16⟩, ⟨"message", 0x0004, .bytes⟩,
    ⟨"nat_class", 0x0067, .u16⟩, ⟨"nat_type", 0x0031, .bytes⟩, ⟨"node_count", 0x0048, .u32⟩,
    ⟨"node_id", 0x0040, .bytes⟩, ⟨"nodes", 0x0049, .bytes⟩, ⟨"peer_id", 0x0010, .bytes⟩,
    ⟨"peer_device_id", 0x001A, .bytes⟩, ⟨"peer_nat_class", 0x0075, .u16⟩,
    ⟨"peer_local_ip", 0x0079, .bytes⟩, ⟨"peer_local_port", 0x007A, .u16⟩,
    ⟨"peer_srflx_ip", 0x0071, .bytes⟩, ⟨"peer_srflx_ip_2", 0x0073, .bytes⟩,
    ⟨"peer_srflx_port", 0x0072, .u16⟩, ⟨"peer_srflx_port_2", 0x0074, .u16⟩,
    ⟨"primary1_control", 0x0064, .bytes⟩, ⟨"primary2_control", 0x0065, .bytes⟩,
    ⟨"probe1", 0x007F, .bytes⟩, ⟨"probe2", 0x0080, .bytes⟩, ⟨"probe_endpoint", 0x0081, .bytes⟩,
    ⟨"probe_token", 0x0082, .bytes⟩, ⟨"warmup_interval_ms", 0x007E, .u32⟩,
    ⟨"warmup_rounds", 0x007D, .u32⟩, ⟨"punch_order", 0x007B, .u8⟩,
    ⟨"probe1_distinct_mappings", 0x003A, .u32⟩, ⟨"probe1_ok", 0x0033, .bool⟩,
    ⟨"probe1_rtt_ms", 0x0035, .i32⟩, ⟨"probe1_success_count", 0x0038, .u32⟩,
    ⟨"probe2_distinct_mappings", 0x003B, .u32⟩, ⟨"probe2_ok", 0x0034, .bool⟩,
    ⟨"probe2_rtt_ms", 0x0036, .i32⟩, ⟨"probe2_success_count", 0x0039, .u32⟩,
    ⟨"probe_rounds", 0x0037, .u32⟩, ⟨"query", 0x0017, .bytes⟩, ⟨"reason", 0x0002, .u8⟩,
    ⟨"region", 0x0042, .bytes⟩, ⟨"result", 0x0001, .u8⟩, ⟨"role", 0x0016, .u8⟩,
    ⟨"same_ip_diff_port_sent", 0x003E, .bool⟩, ⟨"selected_control", 0x002C, .bytes⟩,
    ⟨"session_id", 0x0014, .bytes⟩, ⟨"src_peer_id", 0x0012, .bytes⟩,
    ⟨"src_device_id", 0x0018, .bytes⟩, ⟨"srflx_ip", 0x0022, .bytes⟩,
    ⟨"srflx_ip_2", 0x0024, .bytes⟩, ⟨"srflx_port", 0x0023, .u16⟩, ⟨"srflx_port_2", 0x0025, .u16⟩,
    ⟨"status", 0x0043, .u8⟩, ⟨"target_ip", 0x0026, .bytes⟩, ⟨"target_port", 0x0027, .u16⟩,
    ⟨"token", 0x0015, .bytes⟩, ⟨"ts", 0x0045, .bytes⟩, ⟨"use_alt_port", 0x002E, .bool⟩,
    ⟨"version", 0x0055, .bytes⟩]

def TAG_INDEX_SIZE : Nat := 128

def findFieldDefByKey (key : String) : Option FieldDef := kFieldDefs.find? fun d => d.key = key

/-- `FindFieldDefByTag`; of the definitions with a small tag the index keeps the last. -/
def findFieldDefByTag (tag : UInt16) : Option FieldDef :=
  if tag.toNat < TAG_INDEX_SIZE then kFieldDefs.reverse.find? fun d => d.tag = tag
  else kFieldDefs.find? fun d => d.tag = tag

/-- The `FieldType` of a value. -/
def valueType : FieldValue → FieldType
  | .bytes _ => .bytes
  | .bool _ => .bool
  | .u8 _ => .u8
  | .u16 _ => .u16
  | .u32 _ => .u32
  | .i32 _ => .i32
  | .u64 _ => .u64

/-- `value_len`. -/
def valueLen : FieldValue → Nat
  | .bytes value => value.length
  | .bool _ => 1
  | .u8 _ => 1
  | .u16 _ => 2
  | .u32 _ => 4
  | .i32 _ => 4
  | .u64 _ => 8

structure MessageField where
  key : Option String
  tag : UInt16
  value : FieldValue
deriving DecidableEq

-- ==== messages

def MAX_FIELDS : Nat := 96

def STORAGE_SIZE : Nat := 8192

/-- `Message`; `field_count` is the length of `fields`. -/
structure Message where
  type : UInt8
  request_id : UInt32
  fields : List MessageField
  tag_index : Nat → Int
  storage_len : Nat

def messageInit (type : UInt8) (request_id : UInt32) : Message :=
  { type, request_id, fields := [], tag_index := fun _ => -1, storage_len := 0 }

/-- What a value takes of the storage: its bytes and a NUL. -/
def stored : FieldValue → Nat
  | .bytes value => value.length + 1
  | _ => 0

variable (msg : Message)

/-- A field behind the others, with the index of its tag. -/
def Message.push (field : MessageField) : Message :=
  { msg with
    fields := msg.fields ++ [field]
    tag_index := fun i =>
      if i = field.tag.toNat ∧ field.tag.toNat < TAG_INDEX_SIZE then msg.fields.length
      else msg.tag_index i
    storage_len := msg.storage_len + stored field.value }

/-- There is no room for one more field, or not for its bytes. -/
def Message.Full (value : FieldValue) : Prop :=
  MAX_FIELDS ≤ msg.fields.length
    ∨ valueType value = .bytes ∧ STORAGE_SIZE < msg.storage_len + valueLen value + 1

instance (msg : Message) (value : FieldValue) : Decidable (msg.Full value) :=
  inferInstanceAs (Decidable (_ ∨ _))

def appendField (key : String) (value : FieldValue) : Bool × Message :=
  if msg.Full value then (false, msg)
  else
    match findFieldDefByKey key with
    | some d => (true, msg.push ⟨some d.key, d.tag, value⟩)
    | none => (true, msg.push ⟨some key, 0, value⟩)

variable (tag : UInt16)

def appendFieldByTag (value : FieldValue) : Bool × Message :=
  if msg.Full value then (false, msg)
  else (true, msg.push ⟨(findFieldDefByTag tag).map FieldDef.key, tag, value⟩)

-- ==== adding

/-- What is passed on of a string: as many bytes as its length has in 16 bits. -/
def narrowed (value : List UInt8) : FieldValue :=
  .bytes (value.take (UInt16.ofNat value.length).toNat)

/-- What is passed on of `len` bytes. -/
def bytesAt (data : Option (Nat → UInt8)) (len : UInt16) : FieldValue :=
  .bytes (match data with
    | none => []
    | some data => readMem data 0 len.toNat)

/-- `value ? 1u : 0u`. -/
def boolean (value : Bool) : FieldValue := .bool (if value then 1 else 0)

variable (key : String)

def messageAddString (value : Option (List UInt8)) :
    Bool × Message :=
  appendField msg key (narrowed (value.getD []))

def messageAddStringByTag (value : Option (List UInt8)) :
    Bool × Message :=
  appendFieldByTag msg tag (narrowed (value.getD []))

def messageAddBytes (data : Option (Nat → UInt8)) (len : UInt16) :
    Bool × Message :=
  if data.isNone ∧ len ≠ 0 then (false, msg) else appendField msg key (bytesAt data len)

def messageAddBytesByTag (data : Option (Nat → UInt8))
    (len : UInt16) : Bool × Message :=
  if data.isNone ∧ len ≠ 0 then (false, msg) else appendFieldByTag msg tag (bytesAt data len)

def messageAddBool (value : Bool) : Bool × Message :=
  appendField msg key (boolean value)

def messageAddBoolByTag (value : Bool) : Bool × Message :=
  appendFieldByTag msg tag (boolean value)

def messageAddU8 (value : UInt8) : Bool × Message :=
  appendField msg key (.u8 value)

def messageAddU8ByTag (value : UInt8) : Bool × Message :=
  appendFieldByTag msg tag (.u8 value)

def messageAddU16 (value : UInt16) : Bool × Message :=
  appendField msg key (.u16 value)

def messageAddU16ByTag (value : UInt16) : Bool × Message :=
  appendFieldByTag msg tag (.u16 value)

def messageAddU32 (value : UInt32) : Bool × Message :=
  appendField msg key (.u32 value)

def messageAddU32ByTag (value : UInt32) : Bool × Message :=
  appendFieldByTag msg tag (.u32 value)

def messageAddI32 (value : Int32) : Bool × Message :=
  appendField msg key (.i32 value)

def messageAddI32ByTag (value : Int32) : Bool × Message :=
  appendFieldByTag msg tag (.i32 value)

def messageAddU64 (value : UInt64) : Bool × Message :=
  appendField msg key (.u64 value)

def messageAddU64ByTag (value : UInt64) : Bool × Message :=
  appendFieldByTag msg tag (.u64 value)

-- ==== finding

/-- `FindField`: the first field with the key. -/
def findField : Option MessageField :=
  msg.fields.find? fun f => f.key = some key

/-- `FindFieldByTag`, and the message with what the index has learned. -/
def findFieldByTag : Option MessageField × Message :=
  let indexed :=
    if tag.toNat < TAG_INDEX_SIZE ∧ 0 ≤ msg.tag_index tag.toNat then
      msg.fields[(msg.tag_index tag.toNat).toNat]?
    else none
  match indexed with
  | some field => (some field, msg)
  | none =>
    match msg.fields.findIdx? fun f => f.tag = tag with
    | none => (none, msg)
    | some i =>
      (msg.fields[i]?,
        if tag.toNat < TAG_INDEX_SIZE then
          { msg with tag_index := Function.update msg.tag_index tag.toNat i }
        else msg)

/-- What the accessors read of the field that was found. -/
def stringOf (field : Option MessageField) : List UInt8 :=
  match field.map MessageField.value with
  | some (.bytes value) => cString value
  | _ => []

def bytesOf (field : Option MessageField) : Option (List UInt8) :=
  match field.map MessageField.value with
  | some (.bytes value) => some value
  | _ => none

def boolOf (field : Option MessageField) : Option Bool :=
  match field.map MessageField.value with
  | some (.bool value) => some (value ≠ 0)
  | _ => none

def u8Of (field : Option MessageField) : Option UInt8 :=
  match field.map MessageField.value with
  | some (.u8 value) => some value
  | _ => none

def u16Of (field : Option MessageField) : Option UInt16 :=
  match field.map MessageField.value with
  | some (.u16 value) => some value
  | _ => none

def u32Of (field : Option MessageField) : Option UInt32 :=
  match field.map MessageField.value with
  | some (.u32 value) => some value
  | _ => none

def i32Of (field : Option MessageField) : Option Int32 :=
  match field.map MessageField.value with
  | some (.i32 value) => some value
  | _ => none

def u64Of (field : Option MessageField) : Option UInt64 :=
  match field.map MessageField.value with
  | some (.u64 value) => some value
  | _ => none

def messageGetString : List UInt8 := stringOf (findField msg key)

def messageGetStringByTag : List UInt8 :=
  stringOf (findFieldByTag msg tag).1

def messageGetBytes : Option (List UInt8) :=
  bytesOf (findField msg key)

def messageGetBytesByTag : Option (List UInt8) :=
  bytesOf (findFieldByTag msg tag).1

def messageGetBool : Option Bool := boolOf (findField msg key)

def messageGetBoolByTag : Option Bool :=
  boolOf (findFieldByTag msg tag).1

def messageGetU8 : Option UInt8 := u8Of (findField msg key)

def messageGetU8ByTag : Option UInt8 :=
  u8Of (findFieldByTag msg tag).1

def messageGetU16 : Option UInt16 := u16Of (findField msg key)

def messageGetU16ByTag : Option UInt16 :=
  u16Of (findFieldByTag msg tag).1

def messageGetU32 : Option UInt32 := u32Of (findField msg key)

def messageGetU32ByTag : Option UInt32 :=
  u32Of (findFieldByTag msg tag).1

def messageGetI32 : Option Int32 := i32Of (findField msg key)

/-- It looks at `value_len` too, as does that of a `uint64_t`. -/
def messageGetI32ByTag : Option Int32 :=
  match (findFieldByTag msg tag).1 with
  | none => none
  | some field => if valueLen field.value ≠ 4 then none else i32Of (some field)

def messageGetU64 : Option UInt64 := u64Of (findField msg key)

def messageGetU64ByTag : Option UInt64 :=
  match (findFieldByTag msg tag).1 with
  | none => none
  | some field => if valueLen field.value ≠ 8 then none else u64Of (some field)

-- ==== encoding

def FRAME_MAGIC : UInt32 := 0x4E545253

def FRAME_VERSION : UInt8 := 1

def FRAME_HDR_SIZE : Nat := 16

def TLV_HDR_SIZE : Nat := 4

/-- The value as a frame has it. -/
def valueBytes : FieldValue → List UInt8
  | .bytes value => value
  | .bool value => [value]
  | .u8 value => [value]
  | .u16 value => bigEndian 2 value.toNat
  | .u32 value => bigEndian 4 value.toNat
  | .i32 value => bigEndian 4 value.toUInt32.toNat
  | .u64 value => bigEndian 8 value.toNat

/-- The loop of `EncodeMessage` over the fields that are left: what it appends from `off` on, or
that there is no room. -/
def encodeFields (cap : Nat) : Nat → List MessageField → Option (List UInt8)
  | _, [] => some []
  | off, field :: fields =>
    let required := TLV_HDR_SIZE + valueLen field.value
    if field.tag = 0 then encodeFields cap off fields
    else if cap < off + required then none
    else
      (encodeFields cap (off + required) fields).map fun rest =>
        bigEndian 2 field.tag.toNat ++ bigEndian 2 (valueLen field.value)
          ++ valueBytes field.value ++ rest

/-- Magic, version, type, reserved, request and body length. -/
def frameHeader (type : UInt8) (request_id : UInt32) (body_len : Nat) : List UInt8 :=
  bigEndian 4 FRAME_MAGIC.toNat ++ [FRAME_VERSION, type] ++ bigEndian 2 0
    ++ bigEndian 4 request_id.toNat ++ bigEndian 4 body_len

/-- `EncodeMessage`: the bytes it leaves in a buffer of `cap`. -/
def encodeMessage (cap : Nat) : Option (List UInt8) :=
  if cap < FRAME_HDR_SIZE then none
  else
    (encodeFields cap FRAME_HDR_SIZE msg.fields).map fun body =>
      frameHeader msg.type msg.request_id body.length ++ body

-- ==== decoding

/-- `GetU16Be`, `GetU32Be` and `GetU64Be`, of the `w` bytes at a place. -/
def getBe (data : Nat → UInt8) (w offset : Nat) : Nat := ofBigEndian (readMem data offset w)

/-- `FrameSizeFromHeader`; the sum is a `uint32_t`. -/
def frameSizeFromHeader (data : Nat → UInt8) (len : Nat) : Option Nat :=
  if len < FRAME_HDR_SIZE then none
  else if getBe data 4 0 ≠ FRAME_MAGIC.toNat ∨ data 4 ≠ FRAME_VERSION then none
  else some ((FRAME_HDR_SIZE + getBe data 4 12) % 2 ^ 32)

/-- The length that a value of a type is decoded from; none for bytes. -/
def decodedLen : FieldType → Option Nat
  | .bytes => none
  | .bool => some 1
  | .u8 => some 1
  | .u16 => some 2
  | .u32 => some 4
  | .i32 => some 4
  | .u64 => some 8

/-- The value that is decoded from some bytes. -/
def decodedValue (type : FieldType) (data : List UInt8) : FieldValue :=
  match type with
  | .bytes => .bytes data
  | .bool => .bool (if data.getD 0 0 = 0 then 0 else 1)
  | .u8 => .u8 (data.getD 0 0)
  | .u16 => .u16 (UInt16.ofNat (ofBigEndian data))
  | .u32 => .u32 (UInt32.ofNat (ofBigEndian data))
  | .i32 => .i32 (UInt32.ofNat (ofBigEndian data)).toInt32
  | .u64 => .u64 (UInt64.ofNat (ofBigEndian data))

/-- What `CopyDecodedBytes` refuses. -/
def Message.Refuses (d : FieldDef) (data : List UInt8) : Prop :=
  MAX_FIELDS ≤ msg.fields.length ∨
    match decodedLen d.type with
    | some len => data.length ≠ len
    | none => STORAGE_SIZE < msg.storage_len + data.length + 1

instance (msg : Message) (d : FieldDef) (data : List UInt8) : Decidable (msg.Refuses d data) := by
  unfold Message.Refuses
  cases decodedLen d.type with
  | none => infer_instance
  | some len => infer_instance

/-- `CopyDecodedBytes`. -/
def copyDecodedBytes (d : FieldDef) (data : List UInt8) : Bool × Message :=
  if msg.Refuses d data then (false, msg)
  else (true, msg.push ⟨some d.key, d.tag, decodedValue d.type data⟩)

/-- The loop of `DecodeMessage`, for at most `fuel` rounds: whether it comes to the end. -/
def decodeFields (data : Nat → UInt8) (limit : Nat) :
    Nat → Nat → Message → Option (Bool × Message)
  | 0, _, _ => none
  | fuel + 1, off, msg =>
    if limit < off + TLV_HDR_SIZE then some (true, msg)
    else
      let tag := UInt16.ofNat (getBe data 2 off)
      let value_len := getBe data 2 (off + 2)
      let off := off + TLV_HDR_SIZE
      if limit < off + value_len then some (false, msg)
      else
        match findFieldDefByTag tag with
        | none => decodeFields data limit fuel (off + value_len) msg
        | some d =>
          match copyDecodedBytes msg d (readMem data off value_len) with
          | (false, msg) => some (false, msg)
          | (true, msg) => decodeFields data limit fuel (off + value_len) msg

/-- `DecodeMessage` of `len` bytes, for at most `fuel` rounds of its loop. -/
def decodeMessage (data : Nat → UInt8) (len fuel : Nat) : Option (Bool × Message) :=
  let msg := messageInit 0 0
  match frameSizeFromHeader data len with
  | none => some (false, msg)
  | some frame_size =>
    if len < frame_size ∨ frame_size < FRAME_HDR_SIZE then some (false, msg)
    else
      let headed := { msg with type := data 5, request_id := UInt32.ofNat (getBe data 4 8) }
      match decodeFields data frame_size fuel FRAME_HDR_SIZE headed with
      | none => none
      | some (false, msg) => some (false, msg)
      | some (true, msg) => some (msg.type ≠ 0, msg)

end Eular.Ntrs.Codec
