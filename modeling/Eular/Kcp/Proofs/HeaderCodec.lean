/-
The header codec's round trip: what stands between the encoder and its
inverse.

What the encoder writes are the header's fields, its data and its options,
one behind the other (`protoHeaderEncode_of_le`), and where these stand in
memory the parser reads them back (`protoParse_written`). One byte is
different: the command is ored into what the buffer held, so it comes back
only from a buffer that adds no bits. The length an option's check allows
for leaves out its tag and its length, so that the last bytes of an option
can go past the buffer (`OptionsInside`).

The options are those of the program: the tag is `KCP_OPTION_TAG_MTU` and
the value is one of 32 bits, which is the length it is declared with.
-/
import Eular.Kcp.Header

namespace Eular.Kcp

open Lib

variable {m : Nat → UInt8} {options : List KcpOption}

-- ==== pieces

/-- An MTU option, as `kcp_connect` and `kcp_accept` make it. -/
structure KcpOption.IsMtu (o : KcpOption) : Prop where
  tag_eq : o.tag = 1
  length_eq : o.length = 4
  value_lt : o.u64Value.toNat < 2 ^ 32

def KcpOption.fields (o : KcpOption) : List (Nat × Nat) :=
  [(1, o.tag.toUInt8.toNat), (1, o.length.toUInt8.toNat), (4, o.u64Value.toNat)]

theorem packedSize_options (options : List KcpOption) :
    packedSize (options.flatMap KcpOption.fields) = 6 * options.length := by
  induction options with
  | nil => rfl
  | cons o options ih =>
    rw [List.flatMap_cons, packedSize, List.map_append, List.sum_append, ← packedSize,
      ← packedSize, ih, List.length_cons]
    show 6 + _ = _
    omega

theorem readLittle_one (m : Nat → UInt8) (offset : Nat) :
    readLittle m offset 1 = (m offset).toNat := rfl

theorem byte_of_stored {offset : Nat} {b : UInt8}
    (h : readLittle m offset 1 = b.toNat % 256 ^ 1) : m offset = b := by
  rw [readLittle_one] at h
  apply UInt8.toNat_inj.mp
  rw [h]
  exact Nat.mod_eq_of_lt b.toNat_lt

-- ==== the command byte

def lowNibble (b : UInt8) : Fin 16 := Fin.ofNat 16 (b &&& 0x0F).toNat

def highNibble (b : UInt8) : Fin 16 := Fin.ofNat 16 (b >>> 4 &&& 0x0F).toNat

def ofNibbles (low high : Fin 16) : UInt8 := UInt8.ofNat low.val ||| UInt8.ofNat high.val <<< 4

theorem nibbles_ofNibbles : ∀ low high : Fin 16,
    lowNibble (ofNibbles low high) = low ∧ highNibble (ofNibbles low high) = high := by
  decide +kernel

theorem ofNibbles_nibbles (b : UInt8) : ofNibbles (lowNibble b) (highNibble b) = b := by
  have hall : ∀ n < 256, ofNibbles (lowNibble (UInt8.ofNat n)) (highNibble (UInt8.ofNat n))
      = UInt8.ofNat n := by decide +kernel
  have h := hall b.toNat b.toNat_lt
  rwa [UInt8.ofNat_toNat] at h

theorem eq_ofNibbles_iff {b : UInt8} {low high : Fin 16} :
    b = ofNibbles low high ↔ lowNibble b = low ∧ highNibble b = high := by
  constructor
  · rintro rfl
    exact nibbles_ofNibbles low high
  · rintro ⟨rfl, rfl⟩
    exact (ofNibbles_nibbles b).symm

-- ==== the options

theorem u32OfInt_natCast (n : Nat) : u32OfInt n = u32 n := by
  rw [u32OfInt, u32]
  omega

theorem u32_u32_add (a b : Nat) : u32 (u32 a + b) = u32 (a + b) := Nat.mod_add_mod a _ b

theorem u32_add_u32 (a b c : Nat) : u32 (a + u32 b + c) = u32 (a + b + c) := by
  unfold u32
  omega

theorem encodeOptions_cons {bufferSize lengeth : Nat} {o : KcpOption}
    (hmtu : o.IsMtu) :
    encodeOptions bufferSize lengeth (o :: options) =
      if bufferSize < u32 (KCP_HEADER_SIZE + lengeth + 4) then ⟨[], .error .BUFFER_TOO_SMALL⟩
      else
        ⟨packed o.fields ++ (encodeOptions bufferSize (u32 (lengeth + 6)) options).written,
          (encodeOptions bufferSize (u32 (lengeth + 6)) options).status⟩ := by
  have hcheck : u32OfInt (↑(KCP_HEADER_SIZE + lengeth) + o.length.toInt)
      = u32 (KCP_HEADER_SIZE + lengeth + 4) := by
    rw [hmtu.length_eq]
    exact u32OfInt_natCast _
  have hnext : u32OfInt (↑lengeth + (2 + o.length.toInt)) = u32 (lengeth + 6) := by
    rw [hmtu.length_eq]
    exact u32OfInt_natCast _
  have htag : o.tag.toUInt8 = KCP_OPTION_TAG_MTU := by
    rw [hmtu.tag_eq]
    rfl
  have hbytes : [o.tag.toUInt8, o.length.toUInt8] ++ littleEndian 4 o.u64Value.toNat
      = packed o.fields := by
    simp [packed, KcpOption.fields, littleEndian]
  rw [encodeOptions]
  push_cast at hcheck ⊢
  rw [hcheck, hnext, if_pos htag, hbytes]

theorem encodeOptions_of_le {bufferSize : Nat}
    (hmtu : ∀ o ∈ options, o.IsMtu) : ∀ {lengeth : Nat},
    KCP_HEADER_SIZE + lengeth + 6 * options.length ≤ bufferSize →
      encodeOptions bufferSize lengeth options =
        ⟨packed (options.flatMap KcpOption.fields),
          .ok (i32 (u32 (KCP_HEADER_SIZE + lengeth + 6 * options.length)))⟩ := by
  induction options with
  | nil => intro lengeth _; rfl
  | cons o options ih =>
    intro lengeth hsize
    obtain ⟨ho, hmtu⟩ := List.forall_mem_cons.mp hmtu
    rw [List.length_cons] at hsize
    have hcheck : ¬ bufferSize < u32 (KCP_HEADER_SIZE + lengeth + 4) := by
      have hle := Nat.mod_le (KCP_HEADER_SIZE + lengeth + 4) (2 ^ 32)
      unfold u32
      omega
    have hroom : KCP_HEADER_SIZE + u32 (lengeth + 6) + 6 * options.length ≤ bufferSize := by
      have hle := Nat.mod_le (lengeth + 6) (2 ^ 32)
      unfold u32
      omega
    rw [encodeOptions_cons ho, if_neg hcheck, ih hmtu hroom, u32_add_u32, List.length_cons]
    simp only [packed, List.flatMap_cons, List.flatMap_append]
    have htotal : KCP_HEADER_SIZE + (lengeth + 6) + 6 * options.length
        = KCP_HEADER_SIZE + lengeth + 6 * (options.length + 1) := by omega
    rw [htotal]

theorem stored_append {fields fields' : List (Nat × Nat)} :
    ∀ {offset : Nat}, Stored m offset (fields ++ fields') →
      Stored m offset fields ∧ Stored m (offset + packedSize fields) fields' := by
  induction fields with
  | nil => intro offset h; exact ⟨trivial, h⟩
  | cons field fields ih =>
    intro offset h
    obtain ⟨hrest, hafter⟩ := ih h.2
    rw [Nat.add_assoc] at hafter
    exact ⟨⟨h.1, hrest⟩, hafter⟩

theorem parseOptions_stored
    (hmtu : ∀ o ∈ options, o.IsMtu) : ∀ {offset last rounds : Nat},
    offset + 6 * options.length = last → options.length ≤ rounds →
      Stored m offset (options.flatMap KcpOption.fields) →
      (parseOptions m last rounds offset).options = some (options, last) := by
  induction options with
  | nil =>
    intro offset last rounds hlast _ _
    have hlast : offset = last := hlast
    rw [parseOptions_done m hlast.ge, hlast]
  | cons o options ih =>
    intro offset last rounds hlast hrounds hstored
    obtain ⟨ho, hmtu⟩ := List.forall_mem_cons.mp hmtu
    rw [List.length_cons] at hlast
    obtain ⟨rounds, rfl⟩ : ∃ n, rounds = n + 1 :=
      ⟨rounds - 1, by rw [List.length_cons] at hrounds; omega⟩
    obtain ⟨⟨htag, hlength, hvalue, -⟩, hrest⟩ := stored_append hstored
    have htag : m offset = o.tag.toUInt8 := byte_of_stored htag
    have hlength : m (offset + 1) = o.length.toUInt8 := byte_of_stored hlength
    have hfour : (m (offset + 1)).toNat = 4 := by
      rw [hlength, ho.length_eq]
      rfl
    have hmore : (parseOptions m last rounds (offset + 6)).options = some (options, last) :=
      ih hmtu (by omega) (Nat.le_of_succ_le_succ hrounds) hrest
    have hvalue : readLittle m (offset + 2) 4 = o.u64Value.toNat :=
      hvalue.trans (Nat.mod_eq_of_lt ho.value_lt)
    have hmtu_tag : m offset = KCP_OPTION_TAG_MTU := by
      rw [htag, ho.tag_eq]
      rfl
    rw [parseOptions_mtu (by omega) (by omega) hmtu_tag, hfour, hmore, htag, hlength, hvalue,
      UInt64.ofNat_toNat]
    rfl

-- ==== the header

theorem uInt16_ofNat_mod (x : UInt16) : UInt16.ofNat (x.toNat % 256 ^ 2) = x := by
  rw [show (256 ^ 2 : Nat) = 2 ^ 16 from rfl, Nat.mod_eq_of_lt x.toNat_lt, UInt16.ofNat_toNat]

theorem uInt32_ofNat_mod (x : UInt32) : UInt32.ofNat (x.toNat % 256 ^ 4) = x := by
  rw [show (256 ^ 4 : Nat) = 2 ^ 32 from rfl, Nat.mod_eq_of_lt x.toNat_lt, UInt32.ofNat_toNat]

theorem uInt64_ofNat_mod (x : UInt64) : UInt64.ofNat (x.toNat % 256 ^ 8) = x := by
  rw [show (256 ^ 8 : Nat) = 2 ^ 64 from rfl, Nat.mod_eq_of_lt x.toNat_lt, UInt64.ofNat_toNat]

theorem parseBody_stored {data : Nat} (body : KcpBody)
    (hfields : Stored m (data + 8) body.fields)
    (hdata : readMem m (data + KCP_HEADER_SIZE) body.data.length = body.data) :
    parseBody m data body.layout = body := by
  cases body with
  | packetData ts sn psn una bytes len_lt =>
    obtain ⟨hts, hsn, hpsn, huna, hlen, -⟩ := hfields
    have hlen : readLittle m (data + 28) 4 = bytes.length :=
      hlen.trans (Nat.mod_eq_of_lt len_lt)
    have hbytes : readMem m (data + KCP_HEADER_SIZE) (readLittle m (data + 28) 4) = bytes := by
      rw [hlen]
      exact hdata
    rw [KcpBody.layout, parseBody, KcpBody.packetData.injEq]
    refine ⟨?_, ?_, ?_, ?_, hbytes⟩
    · exact (congrArg UInt64.ofNat hts).trans (uInt64_ofNat_mod ts)
    · exact (congrArg UInt32.ofNat hsn).trans (uInt32_ofNat_mod sn)
    · exact (congrArg UInt32.ofNat hpsn).trans (uInt32_ofNat_mod psn)
    · exact (congrArg UInt32.ofNat huna).trans (uInt32_ofNat_mod una)
  | synFinData packetTs ts packetSn randSn =>
    obtain ⟨hpacketTs, hts, hsn, hrand, -⟩ := hfields
    rw [KcpBody.layout, parseBody, KcpBody.synFinData.injEq]
    refine ⟨?_, ?_, ?_, ?_⟩
    · exact (congrArg UInt64.ofNat hpacketTs).trans (uInt64_ofNat_mod packetTs)
    · exact (congrArg UInt64.ofNat hts).trans (uInt64_ofNat_mod ts)
    · exact (congrArg UInt32.ofNat hsn).trans (uInt32_ofNat_mod packetSn)
    · exact (congrArg UInt32.ofNat hrand).trans (uInt32_ofNat_mod randSn)
  | ackData packetTs ackTs sn una =>
    obtain ⟨hpacketTs, hackTs, hsn, huna, -⟩ := hfields
    rw [KcpBody.layout, parseBody, KcpBody.ackData.injEq]
    refine ⟨?_, ?_, ?_, ?_⟩
    · exact (congrArg UInt64.ofNat hpacketTs).trans (uInt64_ofNat_mod packetTs)
    · exact (congrArg UInt64.ofNat hackTs).trans (uInt64_ofNat_mod ackTs)
    · exact (congrArg UInt32.ofNat hsn).trans (uInt32_ofNat_mod sn)
    · exact (congrArg UInt32.ofNat huna).trans (uInt32_ofNat_mod una)
  | pingData packetTs ts sn =>
    obtain ⟨hpacketTs, hts, hsn, -⟩ := hfields
    rw [KcpBody.layout, parseBody, KcpBody.pingData.injEq]
    refine ⟨?_, ?_, ?_⟩
    · exact (congrArg UInt64.ofNat hpacketTs).trans (uInt64_ofNat_mod packetTs)
    · exact (congrArg UInt64.ofNat hts).trans (uInt64_ofNat_mod ts)
    · exact (congrArg UInt64.ofNat hsn).trans (uInt64_ofNat_mod sn)

namespace KcpProtoHeader

variable {h : KcpProtoHeader} {buffer m : Nat → UInt8}
variable {bufferSize : Nat}

theorem written_command (h : KcpProtoHeader) (buffer : Nat → UInt8) :
    buffer 4 ||| UInt8.ofNat h.cmd.val ||| UInt8.ofNat h.opt.val <<< 4
      = buffer 4 ||| h.commandByte := UInt8.or_assoc _ _ _

theorem packedSize_body (body : KcpBody) : packedSize body.fields = 24 := by cases body <;> rfl

/-- The bytes of the header, with its options. -/
def encodedSize (h : KcpProtoHeader) : Nat :=
  KCP_HEADER_SIZE + h.body.data.length + 6 * h.writtenOptions.length

/-- The bytes the encoder leaves in a buffer that has room for them. -/
def encodedBytes (h : KcpProtoHeader) (buffer : Nat → UInt8) : List UInt8 :=
  packed (h.fields buffer ++ h.body.fields) ++ h.body.data
    ++ packed (h.writtenOptions.flatMap KcpOption.fields)

theorem length_encodedBytes (h : KcpProtoHeader) (buffer : Nat → UInt8) :
    (h.encodedBytes buffer).length = h.encodedSize := by
  have hheader : packedSize (h.fields buffer ++ h.body.fields) = KCP_HEADER_SIZE := by
    rw [packedSize, List.map_append, List.sum_append, ← packedSize, ← packedSize, packedSize_body]
    rfl
  rw [encodedBytes, List.length_append, List.length_append, length_packed, length_packed, hheader,
    packedSize_options, encodedSize]

theorem mem_writtenOptions {o : KcpOption} (ho : o ∈ h.writtenOptions) : o ∈ h.options := by
  rw [writtenOptions] at ho
  split at ho
  · exact ho
  · exact absurd ho List.not_mem_nil

theorem protoHeaderEncode_of_le (hmtu : ∀ o ∈ h.options, o.IsMtu)
    (hsize : h.encodedSize ≤ bufferSize) :
    h.protoHeaderEncode buffer bufferSize
      = ⟨h.encodedBytes buffer, .ok (i32 (u32 h.encodedSize))⟩ := by
  have hdata := Nat.mod_le (KCP_HEADER_SIZE + h.body.data.length) (2 ^ 32)
  have hsize' := hsize
  rw [encodedSize] at hsize'
  have hheader : ¬ bufferSize < KCP_HEADER_SIZE := by omega
  have hbody : ¬ (h.body.layout = .packetData
      ∧ bufferSize < u32 (KCP_HEADER_SIZE + h.body.data.length)) := by
    rintro ⟨-, hlt⟩
    rw [u32] at hlt
    omega
  rw [protoHeaderEncode, if_neg hheader, if_neg hbody,
    encodeOptions_of_le (fun o ho => hmtu o (mem_writtenOptions ho)) hsize']
  rfl

theorem parseHeader_stored (hfields : Stored m 0 (h.fields buffer ++ h.body.fields))
    (hdata : readMem m KCP_HEADER_SIZE h.body.data.length = h.body.data) :
    m 4 = buffer 4 ||| h.commandByte
      ∧ (buffer 4 ||| h.commandByte = h.commandByte →
          parseHeader m 0 = { h with options := [] }) := by
  obtain ⟨⟨hscid, hdcid, hcommand, hfrg, hwnd, -⟩, hbody⟩ := stored_append hfields
  have hcommand : m 4 = buffer 4 ||| h.commandByte :=
    (byte_of_stored hcommand).trans (written_command h buffer)
  refine ⟨hcommand, fun hsame => ?_⟩
  have hnibbles := eq_ofNibbles_iff.mp (hcommand.trans hsame)
  have hcmd : Fin.ofNat 16 (m 4 &&& 0x0F).toNat = h.cmd := hnibbles.1
  have hopt : Fin.ofNat 16 (m 4 >>> 4 &&& 0x0F).toNat = h.opt := hnibbles.2
  have hparsed : parseBody m 0 (kcpLayout (Fin.ofNat 16 (m 4 &&& 0x0F).toNat)) = h.body := by
    rw [hcmd, ← h.body_layout]
    exact parseBody_stored h.body hbody (by rw [Nat.zero_add]; exact hdata)
  rw [parseHeader, KcpProtoHeader.mk.injEq]
  refine ⟨?_, ?_, hcmd, hopt, byte_of_stored hfrg, ?_, hparsed, rfl⟩
  · exact (congrArg UInt16.ofNat hscid).trans (uInt16_ofNat_mod h.scid)
  · exact (congrArg UInt16.ofNat hdcid).trans (uInt16_ofNat_mod h.dcid)
  · exact (congrArg UInt16.ofNat hwnd).trans (uInt16_ofNat_mod h.wnd)

theorem stored_encodedBytes (h : KcpProtoHeader) (buffer : Nat → UInt8) :
    Stored (writeMem buffer 0 (h.encodedBytes buffer)) 0 (h.fields buffer ++ h.body.fields)
      ∧ readMem (writeMem buffer 0 (h.encodedBytes buffer)) KCP_HEADER_SIZE h.body.data.length
          = h.body.data
      ∧ Stored (writeMem buffer 0 (h.encodedBytes buffer)) (KCP_HEADER_SIZE + h.body.data.length)
          (h.writtenOptions.flatMap KcpOption.fields) := by
  have hheader : (packed (h.fields buffer ++ h.body.fields)).length = KCP_HEADER_SIZE := by
    rw [length_packed, packedSize, List.map_append, List.sum_append, ← packedSize, ← packedSize,
      packedSize_body]
    rfl
  refine ⟨?_, ?_, ?_⟩
  · have hall := stored_writeMem buffer [] (h.body.data
      ++ packed (h.writtenOptions.flatMap KcpOption.fields)) (h.fields buffer ++ h.body.fields)
    rwa [List.nil_append, ← List.append_assoc] at hall
  · have hall := readMem_writeMem_mid buffer (packed (h.fields buffer ++ h.body.fields)) h.body.data
      (packed (h.writtenOptions.flatMap KcpOption.fields))
    rwa [hheader] at hall
  · have hall :=
      stored_writeMem buffer (packed (h.fields buffer ++ h.body.fields) ++ h.body.data) []
      (h.writtenOptions.flatMap KcpOption.fields)
    rwa [List.append_nil, List.length_append, hheader] at hall

/-- The parser takes the whole of what was written, if the command byte is there. -/
theorem protoParse_written (hmtu : ∀ o ∈ h.options, o.IsMtu)
    (hsame : buffer 4 ||| h.commandByte = h.commandByte) :
    (protoParse (writeMem buffer 0 (h.encodedBytes buffer)) 0 h.encodedSize).result
      = some ({ h with options := h.writtenOptions }, h.encodedSize) := by
  obtain ⟨hfields, hdata, hoptions⟩ := stored_encodedBytes h buffer
  have hheader := (parseHeader_stored hfields hdata).2 hsame
  have hroom : ¬ payloadRoom h.encodedSize < h.body.data.length := by
    rw [payloadRoom, if_pos (by rw [encodedSize]; omega), encodedSize]
    omega
  rw [protoParse, hheader]
  dsimp only
  rw [if_neg hroom]
  by_cases hopt : h.opt.val &&& KCP_CMD_OPT ≠ 0
  · rw [if_pos hopt]
    dsimp only
    rw [Nat.zero_add, Nat.zero_add, parseOptions_stored
      (fun o ho => hmtu o (mem_writtenOptions ho)) (by rw [encodedSize])
      (by rw [encodedSize]; omega) hoptions]
    rfl
  · have hnone : h.writtenOptions = [] := by rw [writtenOptions, if_neg hopt]
    rw [if_neg hopt, encodedSize, hnone, Nat.zero_add]
    rfl

-- ==== inside the buffer

/-- Each option whose check passes has room for its six bytes, up to the first whose check does
not pass. -/
def OptionsInside (bufferSize : Nat) : Nat → List KcpOption → Prop
  | _, [] => True
  | used, _ :: options =>
    bufferSize < u32 (KCP_HEADER_SIZE + used + 4)
      ∨ KCP_HEADER_SIZE + used + 6 ≤ bufferSize ∧ OptionsInside bufferSize (used + 6) options

theorem encodeOptions_inside {options : List KcpOption}
    (hmtu : ∀ o ∈ options, o.IsMtu) : ∀ {used : Nat}, KCP_HEADER_SIZE + used ≤ bufferSize →
    (KCP_HEADER_SIZE + used + (encodeOptions bufferSize (u32 used) options).written.length
      ≤ bufferSize ↔ OptionsInside bufferSize used options) := by
  induction options with
  | nil => intro used hused; exact iff_of_true hused trivial
  | cons o options ih =>
    intro used hused
    obtain ⟨ho, hmtu⟩ := List.forall_mem_cons.mp hmtu
    rw [encodeOptions_cons ho, u32_add_u32, u32_u32_add, OptionsInside]
    by_cases hstop : bufferSize < u32 (KCP_HEADER_SIZE + used + 4)
    · rw [if_pos hstop]
      exact iff_of_true hused (.inl hstop)
    · rw [if_neg hstop, List.length_append, length_packed, or_iff_right hstop]
      have hsix : packedSize o.fields = 6 := rfl
      rw [hsix]
      by_cases hroom : KCP_HEADER_SIZE + (used + 6) ≤ bufferSize
      · rw [← ih hmtu hroom, Nat.add_assoc _ used 6, and_iff_right hroom]
        omega
      · rw [Nat.add_assoc _ used 6, and_iff_left_of_imp fun h => absurd h hroom]
        omega

/-- What the checks of the buffer's size leave out. -/
def Room (h : KcpProtoHeader) (bufferSize : Nat) : Prop :=
  bufferSize < KCP_HEADER_SIZE
    ∨ (h.body.layout = .packetData ∧ bufferSize < u32 (KCP_HEADER_SIZE + h.body.data.length))
    ∨ KCP_HEADER_SIZE + h.body.data.length ≤ bufferSize
      ∧ OptionsInside bufferSize h.body.data.length h.writtenOptions

theorem length_data_lt (body : KcpBody) : body.data.length < 2 ^ 32 := by
  cases body with
  | packetData _ _ _ _ _ len_lt => exact len_lt
  | synFinData => exact Nat.two_pow_pos 32
  | ackData => exact Nat.two_pow_pos 32
  | pingData => exact Nat.two_pow_pos 32

theorem inside_iff (hmtu : ∀ o ∈ h.options, o.IsMtu) :
    (h.protoHeaderEncode buffer bufferSize).written.length ≤ bufferSize ↔ h.Room bufferSize := by
  rw [protoHeaderEncode, Room]
  by_cases hheader : bufferSize < KCP_HEADER_SIZE
  · rw [if_pos hheader]
    exact iff_of_true (Nat.zero_le _) (.inl hheader)
  rw [if_neg hheader, or_iff_right hheader]
  by_cases hbody : h.body.layout = .packetData
      ∧ bufferSize < u32 (KCP_HEADER_SIZE + h.body.data.length)
  · rw [if_pos hbody]
    refine iff_of_true ?_ (.inl hbody)
    rw [length_packed]
    show 8 ≤ bufferSize
    have hsize : KCP_HEADER_SIZE = 32 := rfl
    omega
  rw [if_neg hbody, or_iff_right hbody]
  have hlength : (packed (h.fields buffer ++ h.body.fields) ++ h.body.data).length
      = KCP_HEADER_SIZE + h.body.data.length := by
    rw [List.length_append, length_packed, packedSize, List.map_append, List.sum_append,
      ← packedSize, ← packedSize, packedSize_body]
    rfl
  dsimp only
  rw [List.length_append, hlength]
  by_cases hroom : KCP_HEADER_SIZE + h.body.data.length ≤ bufferSize
  · rw [and_iff_right hroom, ← encodeOptions_inside
      (fun o ho => hmtu o (mem_writtenOptions ho)) hroom, u32_of_lt (length_data_lt h.body)]
  · rw [and_iff_left_of_imp fun h => absurd h hroom]
    omega

-- ==== the round trip

/-- What the encoder has written is parsed to the same header, the whole of the length that was
returned being taken. -/
def RoundTrips (h : KcpProtoHeader) (buffer : Nat → UInt8) (bufferSize : Nat) : Prop :=
  ∃ n : Nat, (h.protoHeaderEncode buffer bufferSize).status = .ok (n : Int)
    ∧ (protoParse (writeMem buffer 0 (h.protoHeaderEncode buffer bufferSize).written) 0
        (h.protoHeaderEncode buffer bufferSize).written.length).result = some (h, n)

theorem eq_of_protoParse {data dataSize n : Nat}
    (hparsed : (protoParse m data dataSize).result = some (h, n)) :
    ∃ options, { parseHeader m data with options } = h := by
  rw [protoParse] at hparsed
  dsimp only at hparsed
  split at hparsed
  · cases hparsed
  split at hparsed
  · obtain ⟨pair, -, heq⟩ := Option.map_eq_some_iff.mp hparsed
    exact ⟨pair.1, congrArg Prod.fst heq⟩
  · exact ⟨[], congrArg Prod.fst (Option.some.inj hparsed)⟩

/-- The buffer adds nothing to the command byte, the length can be returned, and there are
options only with the option bit. -/
structure Faithful (h : KcpProtoHeader) (buffer : Nat → UInt8) : Prop where
  command : buffer 4 ||| h.commandByte = h.commandByte
  size_lt : h.encodedSize < 2 ^ 31
  options : h.writtenOptions = h.options

theorem roundTrips_iff (hmtu : ∀ o ∈ h.options, o.IsMtu)
    (hsize : h.encodedSize ≤ bufferSize) :
    h.RoundTrips buffer bufferSize ↔ h.Faithful buffer := by
  rw [RoundTrips, protoHeaderEncode_of_le hmtu hsize, length_encodedBytes]
  constructor
  · rintro ⟨n, hstatus, hparsed⟩
    obtain ⟨hfields, hdata, -⟩ := stored_encodedBytes h buffer
    have hcommand := (parseHeader_stored hfields hdata).1
    obtain ⟨options, heq⟩ := eq_of_protoParse hparsed
    have hsame : buffer 4 ||| h.commandByte = h.commandByte := by
      rw [← hcommand]
      exact eq_ofNibbles_iff.mpr ⟨congrArg cmd heq, congrArg opt heq⟩
    rw [protoParse_written hmtu hsame] at hparsed
    have hpair := Option.some.inj hparsed
    have hn : h.encodedSize = n := congrArg Prod.snd hpair
    refine ⟨hsame, ?_, congrArg (fun p => p.1.options) hpair⟩
    have hi32 : i32 (u32 h.encodedSize) = h.encodedSize := by
      rw [hn]
      rw [hn] at hstatus
      exact Except.ok.inj hstatus
    have hlt := i32_lt (u32 h.encodedSize)
    rw [hi32] at hlt
    exact_mod_cast hlt
  · intro hfaithful
    refine ⟨h.encodedSize, ?_, ?_⟩
    · have hlt := hfaithful.size_lt
      rw [u32_of_lt (by omega), i32_of_lt hlt]
    · rw [protoParse_written hmtu hfaithful.command, hfaithful.options]

end KcpProtoHeader

-- ==== the segments

theorem littleEndian_mod (w n : Nat) : littleEndian w (n % 256 ^ w) = littleEndian w n := by
  induction w generalizing n with
  | zero => rfl
  | succ w ih =>
    rw [littleEndian, littleEndian, Nat.pow_succ', Nat.mod_mul_right_div_self, ih]
    congr 1
    apply UInt8.toNat_inj.mp
    rw [UInt8.toNat_ofNat', UInt8.toNat_ofNat']
    exact Nat.mod_mul_right_mod n (2 ^ 8) (256 ^ w)

variable (segment : KcpSegment)

/-- The header of a PUSH with the fields of a segment, in the widths the header has. -/
def KcpSegment.protoHeader (scid dcid : UInt16)
    (len_lt : segment.data.length < 2 ^ 32) : KcpProtoHeader where
  scid := scid
  dcid := dcid
  cmd := 3
  opt := 0
  frg := UInt8.ofNat segment.frg
  wnd := UInt16.ofNat segment.wnd
  body := .packetData (UInt64.ofNat segment.ts) (UInt32.ofNat segment.sn)
    (UInt32.ofNat segment.psn) (UInt32.ofNat segment.una) segment.data len_lt
  body_layout := rfl

theorem KcpSegment.writtenOptions_protoHeader {scid dcid : UInt16}
    {len_lt : segment.data.length < 2 ^ 32} :
    (segment.protoHeader scid dcid len_lt).writtenOptions = [] := by
  rw [KcpProtoHeader.writtenOptions]
  split <;> rfl

theorem KcpSegment.encodedSize_protoHeader (scid dcid : UInt16)
    (len_lt : segment.data.length < 2 ^ 32) :
    (segment.protoHeader scid dcid len_lt).encodedSize = KCP_HEADER_SIZE + segment.len := by
  rw [KcpProtoHeader.encodedSize, segment.writtenOptions_protoHeader]
  rfl

theorem packed_protoHeader (scid dcid : UInt16)
    (len_lt : segment.data.length < 2 ^ 32) {buffer : Nat → UInt8}
    (hcommand : buffer 4 ||| (segment.protoHeader scid dcid len_lt).commandByte
      = (segment.protoHeader scid dcid len_lt).commandByte) :
    packed ((segment.protoHeader scid dcid len_lt).fields buffer
        ++ (segment.protoHeader scid dcid len_lt).body.fields)
      = packed [(2, scid.toNat), (2, dcid.toNat), (1, KCP_CMD_PUSH), (1, segment.frg),
          (2, segment.wnd), (8, segment.ts), (4, segment.sn), (4, segment.psn), (4, segment.una),
          (4, segment.len)] := by
  have hbyte : (buffer 4 ||| UInt8.ofNat (segment.protoHeader scid dcid len_lt).cmd.val
      ||| UInt8.ofNat (segment.protoHeader scid dcid len_lt).opt.val <<< 4).toNat = 3 := by
    rw [KcpProtoHeader.written_command, hcommand]
    show (ofNibbles 3 0).toNat = 3
    decide
  have hone (n : Nat) : littleEndian 1 (n % 2 ^ 8) = littleEndian 1 n := littleEndian_mod 1 n
  have htwo (n : Nat) : littleEndian 2 (n % 2 ^ 16) = littleEndian 2 n := littleEndian_mod 2 n
  have hfour (n : Nat) : littleEndian 4 (n % 2 ^ 32) = littleEndian 4 n := littleEndian_mod 4 n
  have height (n : Nat) : littleEndian 8 (n % 2 ^ 64) = littleEndian 8 n := littleEndian_mod 8 n
  rw [KcpProtoHeader.fields, hbyte]
  simp only [packed, KcpSegment.protoHeader, KcpBody.fields, List.cons_append, List.nil_append,
    List.flatMap_cons, UInt8.toNat_ofNat', UInt16.toNat_ofNat', UInt32.toNat_ofNat',
    UInt64.toNat_ofNat', hone, htwo, hfour, height]
  rfl

theorem segmentEncode_eq (scid dcid : UInt16) (segment : KcpSegment)
    (len_lt : segment.data.length < 2 ^ 32) {buffer : Nat → UInt8} {bufferSize : Nat}
    (hsize : (segment.protoHeader scid dcid len_lt).encodedSize ≤ bufferSize)
    (hcommand : buffer 4 ||| (segment.protoHeader scid dcid len_lt).commandByte
      = (segment.protoHeader scid dcid len_lt).commandByte) :
    segmentEncode scid dcid KCP_CMD_PUSH segment bufferSize
      = (segment.protoHeader scid dcid len_lt).protoHeaderEncode buffer bufferSize := by
  have hsize' := segment.encodedSize_protoHeader scid dcid len_lt
  have hroom : ¬ bufferSize < u32 (KCP_HEADER_SIZE + segment.len) := by
    have hle := Nat.mod_le (KCP_HEADER_SIZE + segment.len) (2 ^ 32)
    rw [hsize'] at hsize
    rw [u32]
    omega
  rw [KcpProtoHeader.protoHeaderEncode_of_le (fun _ h => absurd h List.not_mem_nil) hsize,
    segmentEncode, if_neg hroom, hsize', KcpProtoHeader.encodedBytes,
    segment.writtenOptions_protoHeader, packed_protoHeader segment scid dcid len_lt hcommand]
  rw [Encoded.mk.injEq]
  exact ⟨(List.append_nil _).symm, rfl⟩

-- ==== what is promised

/-- What the codec promises of a header, a buffer and the buffer's size. -/
structure KcpProtoHeader.Codec (h : KcpProtoHeader) (buffer : Nat → UInt8) (bufferSize : Nat) :
    Prop where
  roundTrips : h.encodedSize ≤ bufferSize → h.RoundTrips buffer bufferSize
  agrees : ∀ (scid dcid : UInt16) (segment : KcpSegment) (len_lt : segment.data.length < 2 ^ 32),
    segment.protoHeader scid dcid len_lt = h → h.encodedSize ≤ bufferSize →
      segmentEncode scid dcid KCP_CMD_PUSH segment bufferSize
        = h.protoHeaderEncode buffer bufferSize
  inside : (h.protoHeaderEncode buffer bufferSize).written.length ≤ bufferSize

/-- The codec does what it promises exactly where a sufficient buffer adds no bits to the command
byte and the length fits its type, and where no option's check falls short. -/
theorem header_codec (h : KcpProtoHeader) (hmtu : ∀ o ∈ h.options, o.IsMtu)
    (buffer : Nat → UInt8) (bufferSize : Nat) :
    h.Codec buffer bufferSize ↔
      (h.encodedSize ≤ bufferSize → h.Faithful buffer) ∧ h.Room bufferSize := by
  constructor
  · intro hcodec
    exact ⟨fun hsize => (KcpProtoHeader.roundTrips_iff hmtu hsize).mp (hcodec.roundTrips hsize),
      (KcpProtoHeader.inside_iff hmtu).mp hcodec.inside⟩
  · rintro ⟨hfaithful, hroom⟩
    refine ⟨fun hsize => (KcpProtoHeader.roundTrips_iff hmtu hsize).mpr (hfaithful hsize), ?_,
      (KcpProtoHeader.inside_iff hmtu).mpr hroom⟩
    rintro scid dcid segment len_lt rfl hsize
    exact segmentEncode_eq scid dcid segment len_lt hsize (hfaithful hsize).command

/-- The SYN of `kcp_accept`, with its MTU option. -/
def acceptSyn : KcpProtoHeader where
  scid := 7
  dcid := 9
  cmd := 1
  opt := 1
  frg := 0
  wnd := 0
  body := .synFinData 1000 2000 3 4
  options := [⟨1, 4, 1472⟩]
  body_layout := rfl

/-- It goes into a cleared buffer of 38 bytes. -/
theorem header_codec_syn : acceptSyn.Codec (fun _ => 0) 38 :=
  (header_codec acceptSyn (List.forall_mem_singleton.mpr ⟨rfl, rfl, by decide⟩) (fun _ => 0) 38).mpr
    ⟨fun _ => ⟨by decide, by decide, rfl⟩,
      .inr (.inr ⟨by decide, .inr ⟨by decide, trivial⟩⟩)⟩

/-- The window probe of a flush. -/
def windowAsk : KcpProtoHeader where
  scid := 7
  dcid := 9
  cmd := 4
  opt := 0
  frg := 0
  wnd := 0
  body := .packetData 1000 0 0 0 [] (by decide)
  body_layout := rfl

/-- The buffer it is encoded into, after an acknowledgement. -/
def usedBuffer (a : Nat) : UInt8 := if a = 4 then 2 else 0

/-- The peer takes it for a PING; and with one byte less than it needs, the SYN is written past
its buffer. -/
theorem windowAsk_is_ping :
    (protoParse (writeMem usedBuffer 0 (windowAsk.protoHeaderEncode usedBuffer 32).written) 0
        32).result.map (fun p => p.1.cmd) = some 6
      ∧ ¬ windowAsk.Codec usedBuffer 32
      ∧ (acceptSyn.protoHeaderEncode (fun _ => 0) 37).written.length = 38 := by
  refine ⟨by decide +kernel, fun hcodec => ?_, by decide +kernel⟩
  obtain ⟨n, -, hparsed⟩ := hcodec.roundTrips (by decide)
  have hcmd : (protoParse (writeMem usedBuffer 0
      (windowAsk.protoHeaderEncode usedBuffer 32).written) 0
        (windowAsk.protoHeaderEncode usedBuffer 32).written.length).result.map (fun p => p.1.cmd)
      = some 6 := by decide +kernel
  rw [hparsed] at hcmd
  have hping : windowAsk.cmd = 6 := Option.some.inj hcmd
  exact absurd hping (by decide)

end Eular.Kcp
