/-
ACK frames (`proto/frame/ack.cpp`).

The first range is written as the largest packet number and its length, the
next ones as the gap below the one before and their length, 32 bits each.
`decode` accepts exactly what says descending ranges in these fields
(`Below`), and finds the ranges that were written when the fields can say
them. What is written where they cannot is read as something else.
-/
import Eular.Utp.Wire.Tiling
import Eular.Utp.Connection.HistorySlots

namespace Eular.Utp

open Lib

def FRAME_ACK_HDR_SIZE : Nat := 1 + 1 + 2 + 4 + 8
def FRAME_ACK_RANGE_SIZE : Nat := 8

/-- The packet numbers from `low` to `high`. -/
structure Range where
  low : Nat
  high : Nat
deriving DecidableEq, Repr

/-- What `encode` reads: of the history, which has room for 256 ranges, of the configuration
(there may be none), of the clock and of the transport parameters. C++ leaves the shift of a
64-bit number by 64 and more undefined. -/
structure FrameAck where
  ranges : List Range
  ranges_le : ranges.length ≤ 256
  largest : Nat
  largest_lt : largest < 2 ^ 64
  largestAckedReceived : Nat
  maxAckRangeSize : Option UInt8
  now : Nat
  ackDelayExponent : Fin 64

/-- `AckInfo`, as `decode` fills it. -/
structure DecodedAck where
  largestAckPackno : Nat
  ackDelay : Nat
  ackRanges : List Range
deriving DecidableEq, Repr

-- ==== encode

/-- What is written in front of the further ranges. -/
def ackHeader (rangeCount ackDelay firstAckRange largest : Nat) : List UInt8 :=
  bigEndian 1 FrameType.ack.value ++ (bigEndian 1 rangeCount ++ (bigEndian 2 ackDelay
    ++ (bigEndian 4 firstAckRange ++ bigEndian 8 largest)))

/-- `it->high - it->low + 1`. -/
def Range.length (r : Range) : Nat := toU32 (add64 (sub64 r.high r.low) 1)

/-- The loop of `encode` over the further ranges. -/
def encodeRanges (lastPackNo : Nat) : List Range → List UInt8
  | [] => []
  | r :: rest =>
    bigEndian 4 (toU32 (sub64 (sub64 lastPackNo r.high) 1)) ++ (bigEndian 4 r.length
      ++ encodeRanges r.low rest)

namespace FrameAck

/-- The number of further ranges. -/
def rangeSize (f : FrameAck) : Nat :=
  min f.ranges.length (f.maxAckRangeSize.elim f.ranges.length UInt8.toNat) - 1

def frameSize (f : FrameAck) : Nat := FRAME_ACK_HDR_SIZE + f.rangeSize * FRAME_ACK_RANGE_SIZE

/-- `static_cast<int32_t>(size)`: negative from 2^31 on. -/
def castSize (size : Nat) : Int := (BitVec.ofNat 32 size).toInt

/-- `encode` into a buffer of `size` bytes; nothing is written of an empty history. -/
def encode (f : FrameAck) (size : Nat) : Except Status (List UInt8) :=
  if castSize size < f.frameSize then
    .error (.error .overflow "buffer too small for ack frame")
  else
    match f.ranges with
    | [] => .ok []
    | first :: rest =>
      if first.length = 0 then .error (.error .invalidParam "invalid first ack range")
      else
        let delta := sub64 f.now f.largestAckedReceived
        .ok (ackHeader f.rangeSize (delta >>> f.ackDelayExponent.val) first.length f.largest
          ++ encodeRanges first.low (rest.take f.rangeSize))

-- ==== decode

/-- The loop of `decode`: the ranges from the index `i` on, below `lastAcked`. -/
def decodeRanges : Nat → Nat → Nat → List UInt8 → Except Status (List Range)
  | 0, _, _, _ => .ok []
  | n + 1, i, lastAcked, buffer =>
    let gap := field buffer 0 4
    let ackRangeLength := field buffer 4 4
    if lastAcked ≤ gap then
      .error (.error .invalidParam s!"invalid ack gap {gap} at index {i}")
    else if ackRangeLength = 0 then
      .error (.error .invalidParam s!"invalid ack range length 0 at index {i}")
    else
      let high := lastAcked - gap - 1
      if high + 1 < ackRangeLength then
        .error (.error .invalidParam s!"invalid ack range length {ackRangeLength} at index {i}")
      else
        let low := high + 1 - ackRangeLength
        match decodeRanges n (i + 1) low (buffer.drop FRAME_ACK_RANGE_SIZE) with
        | .error st => .error st
        | .ok rest => .ok (⟨low, high⟩ :: rest)

/-- `ackDelay << exponent`, an `int` that is then widened; C++ leaves its shift by 32 and more
undefined, and nothing checks the exponent the peer announced. -/
def shiftDelay (ackDelay : Nat) (exponent : Fin 32) : Nat :=
  ((BitVec.ofNat 32 ackDelay <<< exponent.val).signExtend 64).toNat

/-- `decode`: what the frame says, and its length. -/
def decode (ackDelayExponent : Fin 32) (buffer : List UInt8) : Except Status (DecodedAck × Nat) :=
  if buffer.length < FRAME_ACK_HDR_SIZE then
    .error (.error .overflow "buffer too small to parse ack frame")
  else if field buffer 0 1 ≠ FrameType.ack.value then
    .error (.error .frameUnexpected s!"Invalid frame type: {field buffer 0 1}")
  else
    let rangeCount := field buffer 1 1
    let expectedSize := FRAME_ACK_HDR_SIZE + rangeCount * FRAME_ACK_RANGE_SIZE
    if buffer.length < expectedSize then
      .error (.error .overflow
        s!"ack frame too short: size={buffer.length}, expected={expectedSize}")
    else
      let firstAckRange := field buffer 4 4
      let largestAcked := field buffer 8 8
      if firstAckRange = 0 then .error (.error .invalidParam "invalid first ack range 0")
      else if largestAcked < firstAckRange - 1 then
        .error (.error .invalidParam
          s!"invalid first ack range {firstAckRange} for largest packno {largestAcked}")
      else
        let low := largestAcked + 1 - firstAckRange
        match decodeRanges rangeCount 1 low (buffer.drop FRAME_ACK_HDR_SIZE) with
        | .error st => .error st
        | .ok rest =>
          .ok (⟨largestAcked, shiftDelay (field buffer 2 2) ackDelayExponent,
            ⟨low, largestAcked⟩ :: rest⟩, expectedSize)

end FrameAck

-- ==== what the fields can say

/-- The ranges descend below `lastAcked`, and their gaps and lengths fit 32 bits. -/
def Below : Nat → List Range → Prop
  | _, [] => True
  | lastAcked, r :: rest =>
    (r.low ≤ r.high ∧ r.high < lastAcked)
      ∧ (lastAcked - r.high ≤ 2 ^ 32 ∧ r.high - r.low + 1 < 2 ^ 32) ∧ Below r.low rest

variable {rs : List Range} {n i lastAcked : Nat} {buffer : List UInt8}

theorem Range.length_eq {r : Range} (hle : r.low ≤ r.high) (hfits : r.high - r.low + 1 < 2 ^ 32) :
    r.length = r.high - r.low + 1 := by
  unfold Range.length toU32 add64 sub64
  omega

theorem gap_eq {high : Nat} (hlast : lastAcked < 2 ^ 64) (hlt : high < lastAcked)
    (hfits : lastAcked - high ≤ 2 ^ 32) :
    toU32 (sub64 (sub64 lastAcked high) 1) = lastAcked - high - 1 := by
  unfold toU32 sub64
  omega

-- ==== fields

variable {w k a : Nat} {s : List UInt8}

theorem bigEndian_mod (w a : Nat) : bigEndian w (a % 256 ^ w) = bigEndian w a := by
  have hback := bigEndian_ofBigEndian (bigEndian w a)
  rwa [length_bigEndian, ofBigEndian_bigEndian] at hback

theorem field_iff (h : k + w ≤ buffer.length) : bigEndian w a ++ s <+: buffer.drop k ↔
    field buffer k w = a % 256 ^ w ∧ s <+: buffer.drop (k + w) := by
  have hfield : buffer.drop k = bigEndian w (field buffer k w) ++ buffer.drop (k + w) := by
    rw [bigEndian_field h, ← List.drop_drop, List.take_append_drop]
  rw [hfield]
  constructor
  · rintro ⟨u, hu⟩
    rw [List.append_assoc] at hu
    obtain ⟨hfirst, hrest⟩ := List.append_inj hu (by simp)
    have hmod := congrArg ofBigEndian hfirst
    rw [ofBigEndian_bigEndian, ofBigEndian_bigEndian, Nat.mod_eq_of_lt (field_lt ..)] at hmod
    exact ⟨hmod.symm, u, hrest⟩
  · rintro ⟨hmod, hrest⟩
    rw [hmod, bigEndian_mod]
    exact (List.prefix_append_right_inj _).mpr hrest

theorem ackHeader_iff {count delay len largest : Nat} (h : FRAME_ACK_HDR_SIZE ≤ buffer.length) :
    ackHeader count delay len largest ++ s <+: buffer ↔
      field buffer 0 1 = FrameType.ack.value ∧ field buffer 1 1 = count % 256 ^ 1
        ∧ field buffer 2 2 = delay % 256 ^ 2 ∧ field buffer 4 4 = len % 256 ^ 4
        ∧ field buffer 8 8 = largest % 256 ^ 8 ∧ s <+: buffer.drop FRAME_ACK_HDR_SIZE := by
  unfold FRAME_ACK_HDR_SIZE at h ⊢
  simp only [ackHeader, List.append_assoc]
  refine (field_iff (k := 0) (by omega)).trans (and_congr Iff.rfl ?_)
  refine (field_iff (k := 1) (by omega)).trans (and_congr Iff.rfl ?_)
  refine (field_iff (k := 2) (by omega)).trans (and_congr Iff.rfl ?_)
  refine (field_iff (k := 4) (by omega)).trans (and_congr Iff.rfl ?_)
  exact field_iff (k := 8) (by omega)

-- ==== decode and encode

theorem decodeRanges_eq_ok (hlast : lastAcked < 2 ^ 64)
    (hlen : n * FRAME_ACK_RANGE_SIZE ≤ buffer.length) :
    FrameAck.decodeRanges n i lastAcked buffer = .ok rs ↔
      rs.length = n ∧ Below lastAcked rs ∧ encodeRanges lastAcked rs <+: buffer := by
  unfold FRAME_ACK_RANGE_SIZE at hlen
  induction n generalizing i lastAcked buffer rs with
  | zero =>
    rw [FrameAck.decodeRanges, Except.ok.injEq, List.length_eq_zero_iff]
    constructor
    · rintro rfl
      exact ⟨rfl, trivial, List.nil_prefix⟩
    · exact fun h => h.1.symm
  | succ n ih =>
    have hrest : n * 8 ≤ (buffer.drop FRAME_ACK_RANGE_SIZE).length := by
      rw [List.length_drop, FRAME_ACK_RANGE_SIZE]
      omega
    have hfields : ∀ gap count s, bigEndian 4 gap ++ (bigEndian 4 count ++ s) <+: buffer ↔
        field buffer 0 4 = gap % 256 ^ 4 ∧ field buffer 4 4 = count % 256 ^ 4
          ∧ s <+: buffer.drop FRAME_ACK_RANGE_SIZE := fun gap count s =>
      (field_iff (k := 0) (by omega)).trans
        (and_congr Iff.rfl (field_iff (k := 4) (by omega)))
    have hgap := field_lt buffer 0 4
    have hcount := field_lt buffer 4 4
    rw [FrameAck.decodeRanges]
    dsimp only
    constructor
    · intro h
      split at h
      · cases h
      split at h
      · cases h
      split at h
      · cases h
      split at h
      · cases h
      case h_2 found hfound =>
      cases h
      obtain ⟨hn, hbelow, hencoded⟩ := (ih (by omega) hrest).mp hfound
      refine ⟨by rw [List.length_cons, hn], ⟨by dsimp only; omega, by dsimp only; omega, hbelow⟩,
        (hfields ..).mpr ⟨?_, ?_, hencoded⟩⟩
      · rw [gap_eq hlast (by dsimp only; omega) (by dsimp only; omega)]
        dsimp only
        omega
      · rw [Range.length_eq (by dsimp only; omega) (by dsimp only; omega)]
        dsimp only
        omega
    · rintro ⟨hn, hbelow, hencoded⟩
      cases rs with
      | nil => cases hn
      | cons r rs =>
        obtain ⟨⟨hle, hlt⟩, ⟨hgapFits, hcountFits⟩, hbelow⟩ := hbelow
        obtain ⟨hgapEq, hcountEq, hencoded⟩ := (hfields ..).mp hencoded
        rw [gap_eq hlast hlt hgapFits, Nat.mod_eq_of_lt (by omega)] at hgapEq
        rw [Range.length_eq hle hcountFits, Nat.mod_eq_of_lt (by omega)] at hcountEq
        have hhigh : lastAcked - field buffer 0 4 - 1 = r.high := by omega
        have hlow : r.high + 1 - field buffer 4 4 = r.low := by omega
        rw [if_neg (by omega), if_neg (by omega), if_neg (by omega), hhigh, hlow,
          (ih (by omega) hrest).mpr ⟨Nat.succ.inj hn, hbelow, hencoded⟩]

theorem length_encodeRanges (lastAcked : Nat) (rs : List Range) :
    (encodeRanges lastAcked rs).length = rs.length * FRAME_ACK_RANGE_SIZE := by
  induction rs generalizing lastAcked with
  | nil => exact (Nat.zero_mul _).symm
  | cons r rest ih =>
    simp only [encodeRanges, List.length_append, length_bigEndian, ih, List.length_cons,
      FRAME_ACK_RANGE_SIZE]
    omega

def ackBytes (delay largest : Nat) : List Range → List UInt8
  | [] => []
  | first :: rest =>
    ackHeader rest.length delay first.length largest ++ encodeRanges first.low rest

/-- What a frame can say. -/
structure DecodedAck.Sound (info : DecodedAck) : Prop where
  first : info.ackRanges.head?.map Range.high = some info.largestAckPackno
  below : Below (info.largestAckPackno + 1) info.ackRanges
  count : info.ackRanges.length ≤ 256
  largest : info.largestAckPackno < 2 ^ 64

/-- What `decode` answers for a buffer is what the frame in front of it says: ranges that
descend and do not overlap; and it answers for every such frame, whatever follows. -/
theorem FrameAck.decode_eq_ok (exponent : Fin 32) (buffer : List UInt8) (info : DecodedAck)
    (n : Nat) : decode exponent buffer = .ok (info, n) ↔ info.Sound ∧ ∃ delay < 2 ^ 16,
      info.ackDelay = shiftDelay delay exponent
        ∧ ackBytes delay info.largestAckPackno info.ackRanges <+: buffer
        ∧ n = (ackBytes delay info.largestAckPackno info.ackRanges).length := by
  have hcount := field_lt buffer 1 1
  have hlen := field_lt buffer 4 4
  have hlargest := field_lt buffer 8 8
  constructor
  · intro h
    unfold decode at h
    split at h
    · cases h
    case isFalse hlong =>
    split at h
    · cases h
    case isFalse htype =>
    dsimp only at h
    split at h
    · cases h
    case isFalse hfits =>
    split at h
    · cases h
    split at h
    · cases h
    split at h
    · cases h
    case h_2 rest hdecode =>
    cases h
    have hroom : field buffer 1 1 * FRAME_ACK_RANGE_SIZE
        ≤ (buffer.drop FRAME_ACK_HDR_SIZE).length := by
      rw [List.length_drop]
      omega
    obtain ⟨hn, hbelow, hencoded⟩ := (decodeRanges_eq_ok (by omega) hroom).mp hdecode
    refine ⟨⟨rfl, ⟨?_, ?_, hbelow⟩, ?_, hlargest⟩, field buffer 2 2, field_lt .., rfl, ?_, ?_⟩
    · dsimp only
      omega
    · dsimp only
      omega
    · rw [List.length_cons]
      omega
    · refine (ackHeader_iff (Nat.le_of_not_lt hlong)).mpr
        ⟨not_not.mp htype, ?_, ?_, ?_, ?_, hencoded⟩
      · rw [hn, Nat.mod_eq_of_lt hcount]
      · rw [Nat.mod_eq_of_lt (field_lt ..)]
      · rw [Range.length_eq (by dsimp only; omega) (by dsimp only; omega)]
        dsimp only
        omega
      · rw [Nat.mod_eq_of_lt hlargest]
    · rw [ackBytes, List.length_append, length_encodeRanges, hn]
      simp [ackHeader, FRAME_ACK_HDR_SIZE]
  · rintro ⟨⟨hfirst, hbelow, hranges, hlast⟩, delay, hdelay, hshift, hbytes, rfl⟩
    obtain ⟨largest, ackDelay, ackRanges⟩ := info
    cases ackRanges with
    | nil => cases hfirst
    | cons first rest =>
      dsimp only at *
      cases hfirst
      have hsize := hbytes.length_le
      have hbytesLen : (ackBytes delay first.high (first :: rest)).length
          = FRAME_ACK_HDR_SIZE + rest.length * FRAME_ACK_RANGE_SIZE := by
        rw [ackBytes, List.length_append, length_encodeRanges]
        simp [ackHeader, FRAME_ACK_HDR_SIZE]
      obtain ⟨⟨hle, -⟩, ⟨-, hfits⟩, hbelow⟩ := hbelow
      rw [hbytesLen] at hsize ⊢
      obtain ⟨htype, hn, hdelayEq, hlenEq, hlargestEq, hencoded⟩ :=
        (ackHeader_iff (by omega)).mp hbytes
      rw [List.length_cons] at hranges
      rw [Nat.mod_eq_of_lt (by omega)] at hn
      rw [Nat.mod_eq_of_lt (by omega)] at hdelayEq
      rw [Range.length_eq hle hfits, Nat.mod_eq_of_lt (by omega)] at hlenEq
      rw [Nat.mod_eq_of_lt (by omega)] at hlargestEq
      have hlow : first.high + 1 - (first.high - first.low + 1) = first.low := by omega
      have hroom : rest.length * FRAME_ACK_RANGE_SIZE
          ≤ (buffer.drop FRAME_ACK_HDR_SIZE).length := by
        rw [List.length_drop]
        omega
      unfold decode
      rw [if_neg (by omega), if_neg (not_not.mpr htype)]
      dsimp only
      rw [hn, hdelayEq, hlenEq, hlargestEq, if_neg (by omega), if_neg (by omega),
        if_neg (by omega), hlow, (decodeRanges_eq_ok (by omega) hroom).mpr ⟨rfl, hbelow, hencoded⟩,
        hshift]

/-- The ranges that go into the frame. -/
def FrameAck.toldRanges (f : FrameAck) : List Range := f.ranges.take (f.rangeSize + 1)

/-- What the receiver is to find. -/
def FrameAck.told (f : FrameAck) (exponent : Fin 32) : DecodedAck where
  largestAckPackno := f.largest
  ackDelay := shiftDelay
    ((sub64 f.now f.largestAckedReceived >>> f.ackDelayExponent.val) % 2 ^ 16) exponent
  ackRanges := f.toldRanges

/-- The receiver of a frame finds the first ranges of the sender's history, exactly when the
frame fits the size as the code casts it, the history begins at the largest number and the gaps
and lengths of these ranges fit 32 bits. -/
theorem FrameAck.decode_encode_iff (f : FrameAck) (size : Nat) (exponent : Fin 32)
    (tail : List UInt8) : (∃ bytes, f.encode size = .ok bytes
      ∧ decode exponent (bytes ++ tail) = .ok (f.told exponent, f.frameSize)) ↔
      (f.frameSize : Int) ≤ castSize size ∧ f.toldRanges.head?.map Range.high = some f.largest
        ∧ Below (f.largest + 1) f.toldRanges := by
  have hcount : f.toldRanges.length ≤ 256 :=
    (List.length_take_le' ..).trans f.ranges_le
  constructor
  · rintro ⟨bytes, hencode, hdecode⟩
    obtain ⟨hsound, -⟩ := (decode_eq_ok ..).mp hdecode
    refine ⟨?_, hsound.first, hsound.below⟩
    by_contra hsmall
    rw [encode, if_pos (not_le.mp hsmall)] at hencode
    cases hencode
  · rintro ⟨hsize, hfirst, hbelow⟩
    cases hranges : f.ranges with
    | nil =>
      rw [toldRanges, hranges] at hfirst
      cases hfirst
    | cons first rest =>
      have htold : f.toldRanges = first :: rest.take f.rangeSize := by
        rw [toldRanges, hranges, List.take_succ_cons]
      have hrest : (rest.take f.rangeSize).length = f.rangeSize := by
        have hlen := congrArg List.length hranges
        rw [List.length_cons] at hlen
        refine List.length_take_of_le ?_
        rw [rangeSize]
        omega
      have hbytes : ∀ delay, ackHeader f.rangeSize delay first.length f.largest
          ++ encodeRanges first.low (rest.take f.rangeSize)
          = ackBytes (delay % 2 ^ 16) f.largest f.toldRanges := by
        intro delay
        have hdelay : bigEndian 2 (delay % 2 ^ 16) = bigEndian 2 delay := bigEndian_mod 2 delay
        rw [htold, ackBytes, hrest, ackHeader, ackHeader, hdelay]
      have hfits := htold ▸ hbelow
      have hlength := Range.length_eq hfits.1.1 hfits.2.1.2
      refine ⟨_, ?_, (decode_eq_ok ..).mpr ⟨⟨hfirst, hbelow, hcount, f.largest_lt⟩, _,
        Nat.mod_lt _ (by decide), rfl, List.prefix_append _ tail, ?_⟩⟩
      · rw [encode, if_neg (not_lt.mpr hsize), hranges]
        dsimp only
        rw [if_neg (by omega), hbytes]
        rfl
      · show f.frameSize = (ackBytes _ _ f.toldRanges).length
        rw [htold, ackBytes, List.length_append, length_encodeRanges, hrest]
        simp [ackHeader, frameSize, FRAME_ACK_HDR_SIZE]

end Eular.Utp
