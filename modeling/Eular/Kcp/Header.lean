/-
The header on the wire (`kcp_proto_header_encode`, `kcp_segment_encode`,
`kcp_proto_parse`, and the loop of `kcp_parse_packet`).

Every packet begins with the same eight bytes; what the other 24 hold
follows from the command, so the union of `kcp_proto_header_t` is an
inductive type here and the structure says which of its members the
command goes with. The fields have the widths of the C types.

The encoder stores its fields one behind the other, and a store moves the
cursor by what it wrote. So what it has written when it returns is a list of
bytes from the start of the buffer, and nothing but the command byte depends
on what the buffer held. The parser reads memory: `dataSize` is how much of
it belongs to the datagram, and how far the reads really went is part of its
result.
-/
import Eular.Lib.Bytes
import Eular.Kcp.Control

namespace Eular.Kcp

open Lib

def KCP_CMD_PUSH : Nat := 3

def KCP_CMD_OPT : Nat := 1

def KCP_OPTION_TAG_MTU : UInt8 := 1

scoped instance neZero_sixteen : NeZero 16 := ⟨by decide⟩

-- ==== headers

/-- `KcpOption`, with the number it carries. -/
structure KcpOption where
  tag : Int8
  length : Int8
  u64Value : UInt64
deriving DecidableEq, Repr

/-- The members of the union in `KcpProtoHeader`. -/
inductive KcpLayout where
  | packetData
  | synFinData
  | ackData
  | pingData
deriving DecidableEq, Repr

def kcpLayout (cmd : Fin 16) : KcpLayout :=
  if cmd.val = KCP_CMD_ACK then .ackData
  else if cmd.val = KCP_CMD_SYN ∨ cmd.val = KCP_CMD_FIN then .synFinData
  else if cmd.val = KCP_CMD_PING ∨ cmd.val = KCP_CMD_PONG then .pingData
  else .packetData

/-- The union. The `len` of a data packet is the length of its data. -/
inductive KcpBody where
  | packetData (ts : UInt64) (sn psn una : UInt32) (data : List UInt8)
      (len_lt : data.length < 2 ^ 32)
  | synFinData (packetTs ts : UInt64) (packetSn randSn : UInt32)
  | ackData (packetTs ackTs : UInt64) (sn una : UInt32)
  | pingData (packetTs ts sn : UInt64)
deriving DecidableEq, Repr

namespace KcpBody

def layout : KcpBody → KcpLayout
  | packetData .. => .packetData
  | synFinData .. => .synFinData
  | ackData .. => .ackData
  | pingData .. => .pingData

def data : KcpBody → List UInt8
  | packetData _ _ _ _ data _ => data
  | _ => []

/-- The stores for the last 24 bytes of the header. -/
def fields : KcpBody → List (Nat × Nat)
  | packetData ts sn psn una data _ =>
    [(8, ts.toNat), (4, sn.toNat), (4, psn.toNat), (4, una.toNat), (4, data.length)]
  | synFinData packetTs ts packetSn randSn =>
    [(8, packetTs.toNat), (8, ts.toNat), (4, packetSn.toNat), (4, randSn.toNat)]
  | ackData packetTs ackTs sn una =>
    [(8, packetTs.toNat), (8, ackTs.toNat), (4, sn.toNat), (4, una.toNat)]
  | pingData packetTs ts sn => [(8, packetTs.toNat), (8, ts.toNat), (8, sn.toNat)]

end KcpBody

structure KcpProtoHeader where
  scid : UInt16
  dcid : UInt16
  cmd : Fin 16
  opt : Fin 16
  frg : UInt8
  wnd : UInt16
  body : KcpBody
  options : List KcpOption := []
  body_layout : body.layout = kcpLayout cmd
deriving DecidableEq

-- ==== encoding

/-- What an encoder returns, and the bytes it has written by then, from the start of the
buffer. -/
structure Encoded where
  written : List UInt8
  status : Except KcpError Int
deriving DecidableEq

/-- The loop over the options. The option's length is a signed byte, and the sums are of 32
bits. -/
def encodeOptions (bufferSize : Nat) : Nat → List KcpOption → Encoded
  | lengeth, [] => ⟨[], .ok (i32 (u32 (KCP_HEADER_SIZE + lengeth)))⟩
  | lengeth, pos :: options =>
    if bufferSize < u32OfInt (KCP_HEADER_SIZE + lengeth + pos.length.toInt) then
      ⟨[], .error .BUFFER_TOO_SMALL⟩
    else if pos.tag.toUInt8 = KCP_OPTION_TAG_MTU then
      let rest := encodeOptions bufferSize (u32OfInt (lengeth + (2 + pos.length.toInt))) options
      ⟨[pos.tag.toUInt8, pos.length.toUInt8] ++ littleEndian 4 pos.u64Value.toNat ++ rest.written,
        rest.status⟩
    else ⟨[pos.tag.toUInt8, pos.length.toUInt8], .error .INVALID_PARAM⟩

namespace KcpProtoHeader

/-- The command and the option bits, in one byte. -/
def commandByte (h : KcpProtoHeader) : UInt8 :=
  UInt8.ofNat h.cmd.val ||| UInt8.ofNat h.opt.val <<< 4

/-- The stores for the first eight bytes; the fifth is ored into what is there. -/
def fields (h : KcpProtoHeader) (buffer : Nat → UInt8) : List (Nat × Nat) :=
  [(2, h.scid.toNat), (2, h.dcid.toNat),
    (1, (buffer 4 ||| UInt8.ofNat h.cmd.val ||| UInt8.ofNat h.opt.val <<< 4).toNat),
    (1, h.frg.toNat), (2, h.wnd.toNat)]

/-- The options that are written. -/
def writtenOptions (h : KcpProtoHeader) : List KcpOption :=
  if h.opt.val &&& KCP_CMD_OPT ≠ 0 then h.options else []

/-- `kcp_proto_header_encode`. -/
def protoHeaderEncode (h : KcpProtoHeader) (buffer : Nat → UInt8) (bufferSize : Nat) : Encoded :=
  if bufferSize < KCP_HEADER_SIZE then ⟨[], .error .BUFFER_TOO_SMALL⟩
  else if h.body.layout = .packetData ∧ bufferSize < u32 (KCP_HEADER_SIZE + h.body.data.length) then
    ⟨packed (h.fields buffer), .error .BUFFER_TOO_SMALL⟩
  else
    let rest := encodeOptions bufferSize h.body.data.length h.writtenOptions
    ⟨packed (h.fields buffer ++ h.body.fields) ++ h.body.data ++ rest.written, rest.status⟩

end KcpProtoHeader

/-- `kcp_segment_encode`. The connection's ids and the command are those of the segment. -/
def segmentEncode (scid dcid : UInt16) (cmd : Nat) (segment : KcpSegment) (bufferSize : Nat) :
    Encoded :=
  if bufferSize < u32 (KCP_HEADER_SIZE + segment.len) then ⟨[], .error .BUFFER_TOO_SMALL⟩
  else
    ⟨packed [(2, scid.toNat), (2, dcid.toNat), (1, cmd), (1, segment.frg), (2, segment.wnd),
        (8, segment.ts), (4, segment.sn), (4, segment.psn), (4, segment.una), (4, segment.len)]
      ++ segment.data, .ok (i32 (u32 (KCP_HEADER_SIZE + segment.len)))⟩

-- ==== parsing

/-- What the loop over the options ends with; no options are `INVALID_KCP_HEADER`. -/
structure ParsedOptions where
  options : Option (List KcpOption × Nat)
  /-- the end of the furthest byte read -/
  reach : Nat
  /-- a value was read that its option's length does not cover -/
  uncovered : Bool := false
deriving DecidableEq

/-- The loop over the options, which goes to the end of the datagram. An option takes at least
two bytes, so that as many rounds as there are bytes are enough. -/
def parseOptions (m : Nat → UInt8) (last : Nat) : Nat → Nat → ParsedOptions
  | 0, offset => ⟨some ([], offset), 0, false⟩
  | rounds + 1, offset =>
    if last ≤ offset then ⟨some ([], offset), 0, false⟩
    else if last - offset < 2 then ⟨none, 0, false⟩
    else if last - (offset + 2) < (m (offset + 1)).toNat then ⟨none, offset + 2, false⟩
    else if m offset = KCP_OPTION_TAG_MTU then
      let rest := parseOptions m last rounds (offset + 2 + (m (offset + 1)).toNat)
      { options := rest.options.map fun (options, offset') =>
          (⟨(m offset).toInt8, (m (offset + 1)).toInt8,
            UInt64.ofNat (readLittle m (offset + 2) 4)⟩ :: options, offset')
        reach := max (offset + 6) rest.reach
        uncovered := decide ((m (offset + 1)).toNat < 4) || rest.uncovered }
    else ⟨none, offset + 2, false⟩

variable (m : Nat → UInt8)

theorem parseOptions_done {last offset : Nat} (hdone : last ≤ offset)
    (rounds : Nat) : parseOptions m last rounds offset = ⟨some ([], offset), 0, false⟩ := by
  cases rounds with
  | zero => rfl
  | succ rounds => rw [parseOptions, if_pos hdone]

theorem parseOptions_mtu {m : Nat → UInt8} {last offset : Nat} (hmore : offset + 2 ≤ last)
    (hlength : offset + 2 + (m (offset + 1)).toNat ≤ last) (htag : m offset = KCP_OPTION_TAG_MTU)
    (rounds : Nat) :
    parseOptions m last (rounds + 1) offset =
      { options :=
          (parseOptions m last rounds (offset + 2 + (m (offset + 1)).toNat)).options.map
            fun (options, offset') =>
              (⟨(m offset).toInt8, (m (offset + 1)).toInt8,
                UInt64.ofNat (readLittle m (offset + 2) 4)⟩ :: options, offset')
        reach := max (offset + 6)
          (parseOptions m last rounds (offset + 2 + (m (offset + 1)).toNat)).reach
        uncovered := decide ((m (offset + 1)).toNat < 4)
          || (parseOptions m last rounds (offset + 2 + (m (offset + 1)).toNat)).uncovered } := by
  have hnot : ¬ last ≤ offset := by omega
  have hshort : ¬ last - offset < 2 := by omega
  have hlong : ¬ last - (offset + 2) < (m (offset + 1)).toNat := by omega
  rw [parseOptions, if_neg hnot, if_neg hshort, if_neg hlong, if_pos htag]

/-- The last 24 bytes of a header, and for a data packet where its data is said to be. -/
def parseBody (data : Nat) : KcpLayout → KcpBody
  | .packetData =>
    .packetData (UInt64.ofNat (readLittle m (data + 8) 8))
      (UInt32.ofNat (readLittle m (data + 16) 4)) (UInt32.ofNat (readLittle m (data + 20) 4))
      (UInt32.ofNat (readLittle m (data + 24) 4))
      (readMem m (data + KCP_HEADER_SIZE) (readLittle m (data + 28) 4))
      (by rw [length_readMem]; exact readLittle_lt m (data + 28) 4)
  | .synFinData =>
    .synFinData (UInt64.ofNat (readLittle m (data + 8) 8))
      (UInt64.ofNat (readLittle m (data + 16) 8)) (UInt32.ofNat (readLittle m (data + 24) 4))
      (UInt32.ofNat (readLittle m (data + 28) 4))
  | .ackData =>
    .ackData (UInt64.ofNat (readLittle m (data + 8) 8)) (UInt64.ofNat (readLittle m (data + 16) 8))
      (UInt32.ofNat (readLittle m (data + 24) 4)) (UInt32.ofNat (readLittle m (data + 28) 4))
  | .pingData =>
    .pingData (UInt64.ofNat (readLittle m (data + 8) 8))
      (UInt64.ofNat (readLittle m (data + 16) 8)) (UInt64.ofNat (readLittle m (data + 24) 8))

theorem layout_parseBody (data : Nat) (layout : KcpLayout) :
    (parseBody m data layout).layout = layout := by cases layout <;> rfl

/-- The 32 bytes from `data` on, as a header without options. -/
def parseHeader (data : Nat) : KcpProtoHeader where
  scid := UInt16.ofNat (readLittle m data 2)
  dcid := UInt16.ofNat (readLittle m (data + 2) 2)
  cmd := Fin.ofNat 16 (m (data + 4) &&& 0x0F).toNat
  opt := Fin.ofNat 16 (m (data + 4) >>> 4 &&& 0x0F).toNat
  frg := m (data + 5)
  wnd := UInt16.ofNat (readLittle m (data + 6) 2)
  body := parseBody m data (kcpLayout (Fin.ofNat 16 (m (data + 4) &&& 0x0F).toNat))
  body_layout := layout_parseBody m data _

/-- `data_size - KCP_HEADER_SIZE`, of type `size_t`. -/
def payloadRoom (dataSize : Nat) : Nat :=
  if KCP_HEADER_SIZE ≤ dataSize then dataSize - KCP_HEADER_SIZE
  else dataSize + 2 ^ 64 - KCP_HEADER_SIZE

/-- What `kcp_proto_parse` returns: the header and the new offset, or `INVALID_KCP_HEADER`. -/
structure Parsed where
  result : Option (KcpProtoHeader × Nat)
  reach : Nat
  uncovered : Bool := false

/-- `kcp_proto_parse`, on the `dataSize` bytes from `data` on. -/
def protoParse (data dataSize : Nat) : Parsed :=
  let header := parseHeader m data
  let offset := data + KCP_HEADER_SIZE + header.body.data.length
  if payloadRoom dataSize < header.body.data.length then ⟨none, data + KCP_HEADER_SIZE, false⟩
  else if header.opt.val &&& KCP_CMD_OPT ≠ 0 then
    let scan := parseOptions m (data + dataSize) dataSize offset
    { result := scan.options.map fun (options, offset') => ({ header with options }, offset')
      reach := max (data + KCP_HEADER_SIZE) scan.reach
      uncovered := scan.uncovered }
  else ⟨some (header, offset), data + KCP_HEADER_SIZE, false⟩

-- ==== datagrams

/-- The texts `kcp_is_text_probe_packet` knows: `NTRS_KCP_PUNCH|` and `NTRS_FILTER_PROBE|`. -/
def textProbes : List (List UInt8) :=
  [[0x4E, 0x54, 0x52, 0x53, 0x5F, 0x4B, 0x43, 0x50, 0x5F, 0x50, 0x55, 0x4E, 0x43, 0x48, 0x7C],
    [0x4E, 0x54, 0x52, 0x53, 0x5F, 0x46, 0x49, 0x4C, 0x54, 0x45, 0x52, 0x5F, 0x50, 0x52, 0x4F,
      0x42, 0x45, 0x7C]]

/-- `kcp_is_text_probe_packet`. -/
def isTextProbePacket (buffer : List UInt8) : Bool :=
  textProbes.any fun probe => probe.isPrefixOf buffer

/-- A run of `kcp_parse_packet`. -/
structure Scan (σ : Type) where
  state : σ
  /-- `buffer_offset` -/
  offset : Nat
  reach : Nat := 0
  uncovered : Bool := false
  /-- the headers accepted, with their places -/
  accepted : List (Nat × KcpProtoHeader) := []
  /-- the loop has been left -/
  finished : Bool := false

namespace Scan

variable {σ : Type}

/-- A call of `kcp_proto_parse` has read this. -/
def read (scan : Scan σ) (parsed : Parsed) : Scan σ :=
  { scan with
    reach := max scan.reach parsed.reach
    uncovered := scan.uncovered || parsed.uncovered }

/-- A header has been accepted, and handled. -/
def accept (scan : Scan σ) (header : KcpProtoHeader) (offset : Nat) (state : σ) : Scan σ :=
  { scan with state, offset, accepted := scan.accepted ++ [(scan.offset, header)] }

end Scan

/-- The loop of `kcp_parse_packet`. What is done with a header is `handle`, which also says
whether to go on with the next. -/
def parseLoop {σ : Type} (handle : σ → KcpProtoHeader → σ × Bool) (m : Nat → UInt8)
    (bufferSize : Nat) : Nat → Scan σ → Scan σ
  | 0, scan => scan
  | rounds + 1, scan =>
    let parsed := protoParse m scan.offset (bufferSize - scan.offset)
    match parsed.result with
    | none => { scan.read parsed with finished := true }
    | some (header, offset) =>
      let handled := handle scan.state header
      let scan := (scan.read parsed).accept header offset handled.1
      if handled.2 = true ∧ offset < bufferSize then parseLoop handle m bufferSize rounds scan
      else { scan with finished := true }

/-- `kcp_parse_packet`, on a datagram at the start of the memory. -/
def parsePacket {σ : Type} (handle : σ → KcpProtoHeader → σ × Bool) (m : Nat → UInt8)
    (bufferSize : Nat) (state : σ) : Scan σ :=
  if isTextProbePacket (readMem m 0 bufferSize) ∨ bufferSize < KCP_HEADER_SIZE then
    { state, offset := 0, finished := true }
  else parseLoop handle m bufferSize bufferSize { state, offset := 0 }

end Eular.Kcp
