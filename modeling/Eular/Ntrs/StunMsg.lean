/-
The builder and the parser of STUN messages (`stun.cpp`), with what they use of
the bundled library (`stun_msg.c`).

A header is kept as its bytes lie in the memory of a little-endian machine, so
`htobe16` and `htobe32` turn a field round. A message that is parsed is memory
from its first byte on, whatever lies behind it. What the program reads without
having written it, the digest of a MESSAGE-INTEGRITY and the checksum of a
FINGERPRINT are given from outside (`Env`).
-/
import Eular.Lib.Bytes
import Eular.Lib.SortedMap
import Eular.Lib.Text

namespace Eular.Ntrs.Stun

open Lib

-- ==== types

def STUN_MAGIC_COOKIE : Nat := 0x2112A442
def STUN_XOR_FINGERPRINT : UInt32 := 0x5354554E

def STUN_MSG_HDR_SIZE : Nat := 20
def STUN_ATTR_HDR_SIZE : Nat := 4

def STUN_BINDING_REQUEST : UInt16 := 0x0001

def STUN_ATTR_MAPPED_ADDRESS : UInt16 := 0x0001
def STUN_ATTR_RESPONSE_ADDRESS : UInt16 := 0x0002
def STUN_ATTR_CHANGE_REQUEST : UInt16 := 0x0003
def STUN_ATTR_SOURCE_ADDRESS : UInt16 := 0x0004
def STUN_ATTR_CHANGED_ADDRESS : UInt16 := 0x0005
def STUN_ATTR_USERNAME : UInt16 := 0x0006
def STUN_ATTR_PASSWORD : UInt16 := 0x0007
def STUN_ATTR_MESSAGE_INTEGRITY : UInt16 := 0x0008
def STUN_ATTR_ERROR_CODE : UInt16 := 0x0009
def STUN_ATTR_UNKNOWN_ATTRIBUTES : UInt16 := 0x000A
def STUN_ATTR_REFLECTED_FROM : UInt16 := 0x000B
def STUN_ATTR_CHANNEL_NUMBER : UInt16 := 0x000C
def STUN_ATTR_LIFETIME : UInt16 := 0x000D
def STUN_ATTR_BANDWIDTH : UInt16 := 0x0010
def STUN_ATTR_XOR_PEER_ADDRESS : UInt16 := 0x0012
def STUN_ATTR_DATA : UInt16 := 0x0013
def STUN_ATTR_REALM : UInt16 := 0x0014
def STUN_ATTR_NONCE : UInt16 := 0x0015
def STUN_ATTR_XOR_RELAYED_ADDRESS : UInt16 := 0x0016
def STUN_ATTR_REQUESTED_TRANSPORT : UInt16 := 0x0019
def STUN_ATTR_XOR_MAPPED_ADDRESS : UInt16 := 0x0020
def STUN_ATTR_TIMER_VAL : UInt16 := 0x0021
def STUN_ATTR_PRIORITY : UInt16 := 0x0024
def STUN_ATTR_PADDING : UInt16 := 0x0026
def STUN_ATTR_CONNECTION_ID : UInt16 := 0x002A
def STUN_ATTR_SOFTWARE : UInt16 := 0x8022
def STUN_ATTR_ALTERNATE_SERVER : UInt16 := 0x8023
def STUN_ATTR_FINGERPRINT : UInt16 := 0x8028
def STUN_ATTR_RESPONSE_ORIGIN : UInt16 := 0x802B
def STUN_ATTR_OTHER_ADDRESS : UInt16 := 0x802C

/-- The cases of the two switches; `other` has no code in either. -/
inductive AttrKind where
  | sockaddr
  | uint32
  | varsize
  | msgint
  | errcode
  | unknown
  | xorSockaddr
  | other
deriving DecidableEq

def attrKind (type : UInt16) : AttrKind :=
  if type ∈ [STUN_ATTR_MAPPED_ADDRESS, STUN_ATTR_RESPONSE_ADDRESS, STUN_ATTR_CHANGED_ADDRESS,
      STUN_ATTR_SOURCE_ADDRESS, STUN_ATTR_REFLECTED_FROM, STUN_ATTR_ALTERNATE_SERVER,
      STUN_ATTR_OTHER_ADDRESS, STUN_ATTR_RESPONSE_ORIGIN] then .sockaddr
  else if type ∈ [STUN_ATTR_CHANGE_REQUEST, STUN_ATTR_CHANNEL_NUMBER, STUN_ATTR_LIFETIME,
      STUN_ATTR_BANDWIDTH, STUN_ATTR_REQUESTED_TRANSPORT, STUN_ATTR_TIMER_VAL,
      STUN_ATTR_PRIORITY, STUN_ATTR_CONNECTION_ID, STUN_ATTR_FINGERPRINT] then .uint32
  else if type ∈ [STUN_ATTR_USERNAME, STUN_ATTR_PASSWORD, STUN_ATTR_DATA, STUN_ATTR_REALM,
      STUN_ATTR_NONCE, STUN_ATTR_PADDING, STUN_ATTR_SOFTWARE] then .varsize
  else if type = STUN_ATTR_MESSAGE_INTEGRITY then .msgint
  else if type = STUN_ATTR_ERROR_CODE then .errcode
  else if type = STUN_ATTR_UNKNOWN_ATTRIBUTES then .unknown
  else if type ∈ [STUN_ATTR_XOR_PEER_ADDRESS, STUN_ATTR_XOR_RELAYED_ADDRESS,
      STUN_ATTR_XOR_MAPPED_ADDRESS] then .xorSockaddr
  else .other

/-- What `operator==` compares of a `SocketAddress`: the port, in network order, and the address.
A new one is of neither family. -/
inductive SocketAddress where
  | inet (port : Vector UInt8 2) (addr : Vector UInt8 4)
  | inet6 (port : Vector UInt8 2) (addr : Vector UInt8 16)
  | unspec
deriving DecidableEq

/-- The values that an `eular::any` holds here. -/
inductive Any where
  | socketAddress (addr : SocketAddress)
  | uint32 (value : UInt32)
  | varSize (value : List UInt8)
  | errorCode (error_code : UInt16) (error_reason : List UInt8)
  | uint16s (values : List UInt16)
deriving DecidableEq

/-- What comes from outside: the bytes of a block from `malloc`, those of an attribute and of an
address on the stack, a MESSAGE-INTEGRITY of a buffer under a key, and `crc32`. -/
structure Env where
  heap : Nat → UInt8
  stack : Vector UInt8 24
  sockAddr : SocketAddress
  msgint : List UInt8 → List UInt8 → Vector UInt8 24
  crc32 : List UInt8 → UInt32

-- ==== attributes

/-- `PADDING_SIZE`. -/
def paddingSize (len : Nat) : Nat := if len % 4 ≠ 0 then 4 - len % 4 else 0

/-- `store_padding` of zeros. -/
def padding (n : Nat) : List UInt8 := List.replicate (paddingSize n) 0

/-- `stun_attr_hdr_init`; a length keeps its low 16 bits. -/
def attrHdrInit (type : UInt16) (length : Nat) : List UInt8 :=
  bigEndian 2 type.toNat ++ bigEndian 2 length

/-- `stun_attr_sockaddr_init`, if the family is supported. -/
def sockaddrInit (type : UInt16) : SocketAddress → Option (List UInt8)
  | .inet port addr => some (attrHdrInit type 8 ++ [0, 1] ++ port.toList ++ addr.toList)
  | .inet6 port addr => some (attrHdrInit type 20 ++ [0, 2] ++ port.toList ++ addr.toList)
  | .unspec => none

/-- The bytes of STUN_MAGIC_COOKIE in network order. -/
def magicBytes : Vector UInt8 4 := #v[0x21, 0x12, 0xA4, 0x42]

def xorBytes {n : Nat} (a b : Vector UInt8 n) : Vector UInt8 n := Vector.zipWith (· ^^^ ·) a b

/-- The address with its port and its bytes XOR'ed with the cookie and the transaction id. -/
def SocketAddress.xor (tsx_id : Vector UInt8 12) : SocketAddress → SocketAddress
  | .inet port addr => .inet (xorBytes port #v[0x21, 0x12]) (xorBytes addr magicBytes)
  | .inet6 port addr => .inet6 (xorBytes port #v[0x21, 0x12]) (xorBytes addr (magicBytes ++ tsx_id))
  | .unspec => .unspec

/-- `stun_attr_xor_sockaddr_init`. -/
def xorSockaddrInit (type : UInt16) (addr : SocketAddress) (tsx_id : Vector UInt8 12) :
    Option (List UInt8) :=
  sockaddrInit type (addr.xor tsx_id)

/-- As many bytes of an attribute as `STUN_ATTR_SOCKADDR_SIZE` says for its family; of what is on
the stack if it was not initialised. -/
def sockaddrBytes (env : Env) (attr : Option (List UInt8)) : List UInt8 :=
  let bytes := attr.getD env.stack.toList
  bytes.take (4 + 4 + if bytes.getD 5 0 = 1 then 4 else 16)

/-- `stun_attr_varsize_init`. -/
def varsizeInit (type : UInt16) (value : List UInt8) : List UInt8 :=
  attrHdrInit type value.length ++ value ++ padding value.length

/-- `stun_attr_errcode_init` in a block of as many bytes as `addAttribute` allocates. -/
def errcodeInit (env : Env) (error_code : UInt16) (error_reason : List UInt8) : List UInt8 :=
  let text := cString error_reason
  let attr_len := (4 + text.length) % 65536
  let attr := attrHdrInit STUN_ATTR_ERROR_CODE attr_len
    ++ [0, 0, UInt8.ofNat (error_code.toNat / 100), UInt8.ofNat (error_code.toNat % 100)] ++ text
  let block := writeMem (writeMem env.heap 0 attr) (4 + attr_len) (padding attr_len)
  readMem block 0 (9 - 1 + error_reason.length + paddingSize error_reason.length)

-- ==== builder

/-- `stun_msg_hdr`, in memory. -/
structure MsgHdr where
  type : List UInt8
  length : List UInt8
  magic : List UInt8
  tsx_id : Vector UInt8 12
deriving DecidableEq

def MsgHdr.bytes (hdr : MsgHdr) : List UInt8 :=
  hdr.type ++ hdr.length ++ hdr.magic ++ hdr.tsx_id.toList

/-- `StunMsgBuilderPrivate`. -/
structure StunMsgBuilder where
  msg_hdr : MsgHdr
  tsx_id_set : Bool
  msg_buf : List UInt8
deriving DecidableEq

namespace StunMsgBuilder

/-- `StunMsgBuilder()`. -/
def init : StunMsgBuilder :=
  ⟨⟨littleEndian 2 STUN_BINDING_REQUEST.toNat, littleEndian 2 0, littleEndian 4 STUN_MAGIC_COOKIE,
    Vector.replicate 12 0⟩, false, []⟩

variable (s : StunMsgBuilder)

def clearAttributes : StunMsgBuilder :=
  { s with msg_hdr := { s.msg_hdr with length := littleEndian 2 0 }, msg_buf := [] }

def setMsgType (msgType : UInt16) : StunMsgBuilder :=
  clearAttributes
    { s with
      msg_hdr :=
        { s.msg_hdr with
          type := littleEndian 2 msgType.toNat
          length := littleEndian 2 0
          magic := littleEndian 4 STUN_MAGIC_COOKIE }
      tsx_id_set := false }

def setTransactionId (transactionId : Vector UInt8 12) : StunMsgBuilder :=
  clearAttributes
    { s with msg_hdr := { s.msg_hdr with tsx_id := transactionId }, tsx_id_set := true }

/-- An empty buffer gets the header, which is put into network order first. -/
def fill : StunMsgBuilder :=
  if s.msg_buf = [] then
    let msg_hdr : MsgHdr :=
      { s.msg_hdr with
        type := s.msg_hdr.type.reverse
        length := s.msg_hdr.length.reverse
        magic := s.msg_hdr.magic.reverse }
    { s with msg_hdr := msg_hdr, msg_buf := msg_hdr.bytes }
  else s

/-- What `addAttribute` puts behind the buffer. -/
def attrBytes (env : Env) (s : StunMsgBuilder) (type : UInt16) (value : Any) : List UInt8 :=
  match attrKind type, value with
  | .sockaddr, .socketAddress addr => sockaddrBytes env (sockaddrInit type addr)
  | .uint32, .uint32 value => attrHdrInit type 4 ++ bigEndian 4 value.toNat
  | .varsize, .varSize value => varsizeInit type value
  | .msgint, .varSize key => (env.msgint s.msg_buf key).toList
  | .errcode, .errorCode error_code error_reason => errcodeInit env error_code error_reason
  | .xorSockaddr, .socketAddress addr =>
    sockaddrBytes env (xorSockaddrInit type addr s.msg_hdr.tsx_id)
  | _, _ => []

def addAttribute (env : Env) (s : StunMsgBuilder) (type : UInt16) (value : Any) : StunMsgBuilder :=
  if s.tsx_id_set = false then s
  else
    let s := s.fill
    let attr := s.attrBytes env type value
    let attr_length := ofBigEndian s.msg_hdr.length + attr.length
    let msg_buf := s.msg_buf ++ attr
    if attr_length > 65535 then { s with msg_buf := msg_buf }
    else
      let msg_hdr := { s.msg_hdr with length := bigEndian 2 attr_length }
      { s with
        msg_hdr := msg_hdr
        msg_buf := msg_hdr.bytes ++ msg_buf.drop STUN_MSG_HDR_SIZE }

/-- `message`: the builder afterwards, and the message. -/
def message : StunMsgBuilder × List UInt8 := (s.fill, s.fill.msg_buf)

end StunMsgBuilder

-- ==== message

section Message

variable (env : Env) (m : Nat → UInt8)

/-- `stun_msg_len`, which is also where the message ends. -/
def msgLen : Nat := STUN_MSG_HDR_SIZE + ofBigEndian (readMem m 2 2)

variable (attr : Nat)

/-- `stun_attr_type`. -/
def attrType : UInt16 := UInt16.ofNat (ofBigEndian (readMem m attr 2))

/-- `stun_attr_len`. -/
def attrLen : Nat := ofBigEndian (readMem m (attr + 2) 2)

/-- `stun_attr_block_len`. -/
def attrBlockLen : Nat := STUN_ATTR_HDR_SIZE + (attrLen m attr + 3) / 4 * 4

/-- `stun_attr_fingerprint_check`. -/
def fingerprintCheck : Bool :=
  UInt32.ofNat (ofBigEndian (readMem m (attr + 4) 4))
    = env.crc32 (readMem m 0 attr) ^^^ STUN_XOR_FINGERPRINT

/-- The loop of `stun_msg_verify`: the last attribute it has seen, and where it stopped. -/
def verifyLoop (p_end : Nat) : Nat → Nat → Nat × Nat
  | 0, p => (p, p)
  | fuel + 1, p =>
    if p + attrBlockLen m p < p_end then verifyLoop p_end fuel (p + attrBlockLen m p)
    else (p, p + attrBlockLen m p)

/-- `stun_msg_verify`. -/
def msgVerify (msg_size : Nat) : Bool :=
  if m 0 ≠ 0 ∧ m 0 ≠ 1 then false
  else if msgLen m > msg_size then false
  else if msgLen m % 4 ≠ 0 then false
  else if STUN_MSG_HDR_SIZE = msgLen m then true
  else
    let (attr_hdr, p) := verifyLoop m (msgLen m) (msgLen m) STUN_MSG_HDR_SIZE
    if p ≠ msgLen m then false
    else if attrType m attr_hdr = STUN_ATTR_FINGERPRINT then fingerprintCheck env m attr_hdr
    else true

/-- `stun_msg_next_attr`. -/
def nextAttr (attr_hdr : Option Nat) : Option Nat :=
  let p := match attr_hdr with
    | none => STUN_MSG_HDR_SIZE
    | some attr => attr + attrBlockLen m attr
  if p ≥ msgLen m then none else some p

/-- `n` bytes from a place on. -/
def octets (p n : Nat) : Vector UInt8 n := Vector.ofFn fun i => m (p + i)

/-- `stun_attr_sockaddr_read`, if the family is known. -/
def sockaddrRead : Option SocketAddress :=
  if m (attr + 5) = 1 then some (.inet (octets m (attr + 6) 2) (octets m (attr + 8) 4))
  else if m (attr + 5) = 2 then some (.inet6 (octets m (attr + 6) 2) (octets m (attr + 8) 16))
  else none

/-- `stun_attr_errcode_status`, and what the parser makes of it. -/
def errorCode : UInt16 :=
  let parsed_code := (m (attr + 6)).toNat * 100 + (m (attr + 7)).toNat
  if parsed_code > 65535 then 65535 else UInt16.ofNat parsed_code

/-- What the parser puts into its map for an attribute. -/
def attrValue : Option Any :=
  match attrKind (attrType m attr) with
  | .sockaddr => some (.socketAddress ((sockaddrRead m attr).getD env.sockAddr))
  | .uint32 => some (.uint32 (UInt32.ofNat (ofBigEndian (readMem m (attr + 4) 4))))
  | .varsize => some (.varSize (readMem m (attr + 4) (attrLen m attr)))
  | .msgint => some (.varSize (readMem m (attr + 4) (attrLen m attr)))
  | .errcode =>
    some (.errorCode (errorCode m attr)
      (if attrLen m attr > 0 then readMem m (attr + 8) (attrLen m attr - 1) else []))
  | .unknown =>
    some (.uint16s ((List.range (attrLen m attr / 2)).map fun i =>
      UInt16.ofNat (ofLittleEndian (readMem m (attr + 4 + 2 * i) 2))))
  | .xorSockaddr =>
    some (.socketAddress (((sockaddrRead m attr).map (.xor (octets m 8 12))).getD env.sockAddr))
  | .other => none

/-- The loop of `parse`; an attribute is found by the number of its type. -/
def parseLoop : Nat → Option Nat → SortedMap Nat Any → SortedMap Nat Any
  | 0, _, attributes => attributes
  | _, none, attributes => attributes
  | fuel + 1, some attr, attributes =>
    parseLoop fuel (nextAttr m (some attr))
      (match attrValue env m attr with
        | some value => attributes.insert (attrType m attr).toNat value
        | none => attributes)

end Message

-- ==== parser

/-- `StunMsgParserPrivate`; its header is in host order. -/
structure StunMsgParser where
  type : UInt16
  length : Nat
  magic : Nat
  tsx_id : Vector UInt8 12
  attributes : SortedMap Nat Any

namespace StunMsgParser

def parse (env : Env) (s : StunMsgParser) (data : Option (Nat → UInt8)) (size : Nat) :
    Bool × StunMsgParser :=
  match data with
  | none => (false, s)
  | some m =>
    if size < STUN_MSG_HDR_SIZE then (false, s)
    else
      let s := { s with attributes := .empty }
      if msgVerify env m size = false then (false, s)
      else
        (true,
          { type := UInt16.ofNat (ofBigEndian (readMem m 0 2))
            length := ofBigEndian (readMem m 2 2)
            magic := ofBigEndian (readMem m 4 4)
            tsx_id := octets m 8 12
            attributes := parseLoop env m (msgLen m) (nextAttr m none) s.attributes })

def msgType (s : StunMsgParser) : UInt16 := s.type

def transactionId (s : StunMsgParser) : Vector UInt8 12 := s.tsx_id

def getAttribute (s : StunMsgParser) (type : UInt16) : Option Any := s.attributes.find type.toNat

end StunMsgParser

-- ==== calls

inductive StunOp where
  | setMsgType (msgType : UInt16)
  | setTransactionId (transactionId : Vector UInt8 12)
  | addAttribute (type : UInt16) (value : Any)
  | clearAttributes
  | message

def StunMsgBuilder.step (env : Env) (s : StunMsgBuilder) : StunOp → StunMsgBuilder
  | .setMsgType msgType => s.setMsgType msgType
  | .setTransactionId transactionId => s.setTransactionId transactionId
  | .addAttribute type value => s.addAttribute env type value
  | .clearAttributes => s.clearAttributes
  | .message => s.message.1

end Eular.Ntrs.Stun
