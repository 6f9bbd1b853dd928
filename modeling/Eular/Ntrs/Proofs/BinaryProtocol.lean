/-
What was added to a frame is what is read from it.

A pair is a record that tells its own end (`tlvs`), and one call of `next_tlv`
takes one off the payload (`nextTlv_eq`). So the calls up to the first that
fails read the records at the front of the payload, whatever the bytes are
(`iterate_reads`), and the loop of `find_tlv` the first of a type
(`findTlv_finds`). A frame under construction is its header and the records of
the pairs that were taken (`written_addAll`).
-/
import Eular.Ntrs.BinaryProtocol

namespace Eular.Ntrs.Binary

open Lib

-- ==== records

/-- A pair of a type and a value. -/
structure Tlv where
  type : UInt16
  value : Value
deriving DecidableEq

def Tlv.encode (t : Tlv) : List UInt8 :=
  bigEndian 2 t.type.toNat ++ bigEndian 2 t.value.1.length ++ t.value.1

theorem Tlv.length_encode (t : Tlv) :
    t.encode.length = kNtrsBinaryTlvHeaderSize + t.value.1.length := by
  simp only [encode, kNtrsBinaryTlvHeaderSize, List.length_append, length_bigEndian]

theorem getBe_lt (data : List UInt8) (w offset : Nat) : getBe data w offset < 256 ^ w := by
  refine (ofBigEndian_lt _).trans_le (Nat.pow_le_pow_right (by decide) ?_)
  rw [List.length_take]
  exact min_le_left _ _

theorem getBe_append (before bytes after : List UInt8) :
    getBe (before ++ bytes ++ after) bytes.length before.length = ofBigEndian bytes := by
  rw [getBe, List.append_assoc, List.drop_left, List.take_left]

/-- The pair that some bytes begin with. -/
def nextRecord (s : List UInt8) : Option (Tlv × List UInt8) :=
  if s.length < kNtrsBinaryTlvHeaderSize then none
  else
    let value_len := getBe s 2 2
    if s.length - kNtrsBinaryTlvHeaderSize < value_len then none
    else some (⟨UInt16.ofNat (getBe s 2 0), ⟨(s.drop kNtrsBinaryTlvHeaderSize).take value_len,
        (List.length_take_le _ _).trans_lt (getBe_lt s 2 2)⟩⟩,
      s.drop (kNtrsBinaryTlvHeaderSize + value_len))

theorem nextRecord_encode (t : Tlv) (s : List UInt8) :
    nextRecord (t.encode ++ s) = some (t, s) := by
  obtain ⟨type, value, hvalue⟩ := t
  have hlen : getBe (Tlv.encode ⟨type, value, hvalue⟩ ++ s) 2 2 = value.length := by
    have h := getBe_append (bigEndian 2 type.toNat) (bigEndian 2 value.length) (value ++ s)
    rw [length_bigEndian, length_bigEndian, ofBigEndian_bigEndian, ← List.append_assoc] at h
    exact h.trans (Nat.mod_eq_of_lt hvalue)
  have htype : getBe (Tlv.encode ⟨type, value, hvalue⟩ ++ s) 2 0 = type.toNat := by
    have h := getBe_append [] (bigEndian 2 type.toNat) (bigEndian 2 value.length ++ value ++ s)
    rw [length_bigEndian, ofBigEndian_bigEndian] at h
    simp only [List.nil_append, List.length_nil, ← List.append_assoc] at h
    exact h.trans (Nat.mod_eq_of_lt type.toNat_lt)
  have hwhole := Tlv.length_encode ⟨type, value, hvalue⟩
  have hhead : (bigEndian 2 type.toNat ++ bigEndian 2 value.length).length
      = kNtrsBinaryTlvHeaderSize := by simp [kNtrsBinaryTlvHeaderSize]
  have hlong : (Tlv.encode ⟨type, value, hvalue⟩ ++ s).length
      = (Tlv.encode ⟨type, value, hvalue⟩).length + s.length := List.length_append
  dsimp only at hwhole
  unfold nextRecord
  rw [if_neg (by omega)]
  dsimp only
  rw [if_neg (by omega)]
  simp only [Option.some.injEq, Prod.mk.injEq, Tlv.mk.injEq, Subtype.mk.injEq, htype, hlen,
    UInt16.ofNat_toNat, true_and]
  constructor
  · rw [Tlv.encode, List.append_assoc, List.drop_left' hhead, List.take_left]
  · rw [← hwhole, List.drop_left]

theorem eq_of_nextRecord {s t : List UInt8} {b : Tlv} (h : nextRecord s = some (b, t)) :
    s = b.encode ++ t := by
  unfold nextRecord at h
  split at h
  · cases h
  case isFalse hlong =>
    dsimp only at h
    split at h
    · cases h
    case isFalse hfits =>
      unfold kNtrsBinaryTlvHeaderSize at *
      cases h
      have hfirst : (s.take 2).length = 2 := by
        rw [List.length_take]
        omega
      have hsecond : ((s.drop 2).take 2).length = 2 := by
        rw [List.length_take, List.length_drop]
        omega
      have htype : bigEndian 2 (UInt16.ofNat (getBe s 2 0)).toNat = s.take 2 := by
        have hsame := bigEndian_ofBigEndian (s.take 2)
        rw [hfirst] at hsame
        rw [UInt16.toNat_ofNat_of_lt' (getBe_lt s 2 0)]
        exact hsame
      have hvalue : ((s.drop 4).take (getBe s 2 2)).length = getBe s 2 2 := by
        rw [List.length_take, List.length_drop]
        omega
      have hlen : bigEndian 2 (getBe s 2 2) = (s.drop 2).take 2 := by
        have hsame := bigEndian_ofBigEndian ((s.drop 2).take 2)
        rwa [hsecond] at hsame
      have hcut : s = s.take 2 ++ ((s.drop 2).take 2 ++ ((s.drop 4).take (getBe s 2 2)
          ++ s.drop (4 + getBe s 2 2))) := by
        rw [← List.drop_drop, List.take_append_drop]
        have hfour : s.drop 4 = (s.drop 2).drop 2 := by rw [List.drop_drop]
        rw [hfour, List.take_append_drop, List.take_append_drop]
      unfold Tlv.encode
      dsimp only
      rw [htype, hvalue, hlen, List.append_assoc, List.append_assoc]
      exact hcut

def tlvs : Records UInt8 Tlv where
  encode := Tlv.encode
  next := nextRecord
  encode_ne_nil := by
    intro t h
    have hlen := t.length_encode
    rw [h, List.length_nil, kNtrsBinaryTlvHeaderSize] at hlen
    omega
  next_encode := nextRecord_encode
  eq_of_next := eq_of_nextRecord

-- ==== reading

/-- The type of a pair and its bytes, and the same of a view of it. -/
def Tlv.pair (t : Tlv) : UInt16 × List UInt8 := (t.type, t.value.1)

def TlvView.pair (data : List UInt8) (tlv : TlvView) : UInt16 × List UInt8 :=
  (tlv.type, tlv.bytes data)

/-- A view that lies in the payload. -/
def TlvView.Inside (view : FrameView) (tlv : TlvView) : Prop :=
  view.payload ≤ tlv.value ∧ tlv.value + tlv.value_len ≤ view.payload + view.payload_len

variable {data : List UInt8} {view : FrameView} {cursor : Nat}

/-- One call of `next_tlv` takes one record off the payload. -/
theorem nextTlv_eq (hdata : view.payload + view.payload_len = data.length)
    (hcursor : cursor ≤ view.payload_len) :
    (nextRecord (data.drop (view.payload + cursor)) = none ∧ nextTlv data view cursor = none)
      ∨ ∃ t tlv next,
        nextRecord (data.drop (view.payload + cursor)) = some (t, data.drop (view.payload + next))
          ∧ nextTlv data view cursor = some (tlv, next) ∧ tlv.pair data = t.pair
          ∧ tlv.Inside view ∧ cursor < next ∧ next ≤ view.payload_len := by
  have hlen : (data.drop (view.payload + cursor)).length = view.payload_len - cursor := by
    rw [List.length_drop]
    omega
  have hget (w offset : Nat) : getBe (data.drop (view.payload + cursor)) w offset
      = getBe data w (view.payload + cursor + offset) := by
    rw [getBe, List.drop_drop, getBe]
  unfold nextTlv
  simp only [nextRecord, hlen, hget, Nat.add_zero, List.drop_drop]
  by_cases hhead : view.payload_len - cursor < kNtrsBinaryTlvHeaderSize
  · left
    rw [if_pos hhead]
    refine ⟨rfl, ?_⟩
    split
    · rfl
    · rfl
  · have hsome : ¬ view.payload_len ≤ cursor := by
      unfold kNtrsBinaryTlvHeaderSize at hhead
      omega
    rw [if_neg hhead, if_neg hsome]
    have hsplit : view.payload_len - (cursor + kNtrsBinaryTlvHeaderSize)
        = view.payload_len - cursor - kNtrsBinaryTlvHeaderSize := Nat.sub_add_eq _ _ _
    rw [if_neg hhead, hsplit]
    by_cases hvalue : view.payload_len - cursor - kNtrsBinaryTlvHeaderSize
        < getBe data 2 (view.payload + cursor + 2)
    · exact .inl ⟨if_pos hvalue, if_pos hvalue⟩
    · have hbytes : ((data.drop (view.payload + cursor + kNtrsBinaryTlvHeaderSize)).take
          (getBe data 2 (view.payload + cursor + 2))).length
          = getBe data 2 (view.payload + cursor + 2) := by
        rw [List.length_take, List.length_drop]
        omega
      rw [if_neg hvalue, if_neg hvalue]
      refine .inr ⟨⟨UInt16.ofNat (getBe data 2 (view.payload + cursor)), _,
          hbytes.trans_lt (getBe_lt data 2 _)⟩,
        ⟨UInt16.ofNat (getBe data 2 (view.payload + cursor)),
          view.payload + (cursor + kNtrsBinaryTlvHeaderSize),
          getBe data 2 (view.payload + cursor + 2)⟩,
        cursor + (kNtrsBinaryTlvHeaderSize + getBe data 2 (view.payload + cursor + 2)),
        ?_, ?_, ?_, ?_, ?_, ?_⟩
      · rw [← Nat.add_assoc view.payload]
      · rw [Nat.add_assoc cursor]
      · have hplace : view.payload + (cursor + kNtrsBinaryTlvHeaderSize)
            = view.payload + cursor + kNtrsBinaryTlvHeaderSize := (Nat.add_assoc _ _ _).symm
        simp only [TlvView.pair, Tlv.pair, TlvView.bytes, hplace]
      · unfold TlvView.Inside kNtrsBinaryTlvHeaderSize at *
        dsimp only
        omega
      · unfold kNtrsBinaryTlvHeaderSize
        omega
      · unfold kNtrsBinaryTlvHeaderSize at *
        omega

/-- The calls from a cursor on read the records there are, and end where none begins. -/
theorem iterate_eq (hdata : view.payload + view.payload_len = data.length) (fuel cursor : Nat)
    (hcursor : cursor ≤ view.payload_len) (hfuel : view.payload_len - cursor < fuel) :
    ∃ found next, iterate data view fuel cursor = some (found, next)
      ∧ found.map (·.pair data)
        = (tlvs.readAll (data.drop (view.payload + cursor))).1.map Tlv.pair
      ∧ data.drop (view.payload + next) = (tlvs.readAll (data.drop (view.payload + cursor))).2
      ∧ next ≤ view.payload_len ∧ ∀ tlv ∈ found, tlv.Inside view := by
  induction fuel generalizing cursor with
  | zero => omega
  | succ fuel ih =>
    obtain ⟨hnone, hcall⟩ | ⟨t, tlv, next, hsome, hcall, hpair, hinside, hlt, hle⟩ :=
      nextTlv_eq hdata hcursor
    · refine ⟨[], cursor, ?_, ?_, ?_, hcursor, nofun⟩
      · rw [iterate, hcall]
      · rw [tlvs.readAll_of_none hnone]
        rfl
      · rw [tlvs.readAll_of_none hnone]
    · obtain ⟨found, last, hiterate, hpairs, hrest, hlast, hall⟩ :=
        ih next hle (by omega)
      refine ⟨tlv :: found, last, ?_, ?_, ?_, hlast, ?_⟩
      · rw [iterate, hcall]
        dsimp only
        rw [hiterate]
        rfl
      · rw [tlvs.readAll_of_next hsome, List.map_cons, List.map_cons, hpair, hpairs]
      · rw [tlvs.readAll_of_next hsome]
        exact hrest
      · exact List.forall_mem_cons.mpr ⟨hinside, hall⟩

/-- The loop of `find_tlv` finds the first record of the type. -/
theorem findFrom_eq (hdata : view.payload + view.payload_len = data.length) (type : UInt16)
    (fuel : Nat) (hcursor : cursor ≤ view.payload_len)
    (hfuel : view.payload_len - cursor < fuel) :
    ∃ found, findFrom data view type fuel cursor = some found
      ∧ found.map (·.pair data)
        = ((tlvs.readAll (data.drop (view.payload + cursor))).1.find? (·.type = type)).map
          Tlv.pair := by
  induction fuel generalizing cursor with
  | zero => omega
  | succ fuel ih =>
    obtain ⟨hnone, hcall⟩ | ⟨t, tlv, next, hsome, hcall, hpair, -, hlt, hle⟩ :=
      nextTlv_eq hdata hcursor
    · refine ⟨none, ?_, ?_⟩
      · rw [findFrom, hcall]
      · rw [tlvs.readAll_of_none hnone]
        rfl
    · have htype : tlv.type = t.type := congrArg Prod.fst hpair
      rw [findFrom, hcall, tlvs.readAll_of_next hsome]
      dsimp only
      by_cases hfound : t.type = type
      · rw [htype, if_pos hfound, List.find?_cons_of_pos (by simpa using hfound)]
        exact ⟨some tlv, rfl, congrArg some hpair⟩
      · rw [htype, if_neg hfound, List.find?_cons_of_neg (by simpa using hfound)]
        exact ih hle (by omega)

/-- The calls of `next_tlv` on a view read these pairs, from views within the payload, and then
stop where `rest` begins; `find_tlv` finds the first pair of each type, or none. -/
structure Reads (data : List UInt8) (view : FrameView) (pairs : List Tlv) (rest : List UInt8) :
    Prop where
  iterates : ∀ fuel, view.payload_len < fuel → ∃ found cursor,
    iterate data view fuel 0 = some (found, cursor)
      ∧ found.map (·.pair data) = pairs.map Tlv.pair
      ∧ data.drop (view.payload + cursor) = rest
      ∧ ∀ tlv ∈ found, tlv.value + tlv.value_len ≤ data.length
  finds : ∀ fuel, view.payload_len < fuel → ∀ type ≠ NTRS_BINARY_TLV_UNKNOWN, ∃ found,
    findTlv data view type fuel = some found
      ∧ found.map (·.pair data) = (pairs.find? (·.type = type)).map Tlv.pair

theorem reads_readAll (hdata : view.payload + view.payload_len = data.length) :
    Reads data view (tlvs.readAll (data.drop view.payload)).1
      (tlvs.readAll (data.drop view.payload)).2 := by
  constructor
  · intro fuel hfuel
    obtain ⟨found, cursor, hiterate, hpairs, hrest, -, hall⟩ :=
      iterate_eq hdata fuel 0 (Nat.zero_le _) (by omega)
    refine ⟨found, cursor, hiterate, hpairs, hrest, fun tlv htlv => ?_⟩
    exact (hall tlv htlv).2.trans_eq hdata
  · intro fuel hfuel type htype
    unfold findTlv
    rw [if_neg htype]
    exact findFrom_eq hdata type fuel (Nat.zero_le _) (by omega)

-- ==== headers

/-- A header that `set_header` writes. -/
def Header.Valid (h : Header) : Prop :=
  h.magic = NTRS_BINARY_FRAME_MAGIC ∧ h.version = NTRS_BINARY_FRAME_VERSION
    ∧ frameTypeIsValid h.frame_type = true ∧ phaseIsValid h.phase = true

instance (h : Header) : Decidable h.Valid := inferInstanceAs (Decidable (_ ∧ _ ∧ _ ∧ _))

def headerBytes (h : Header) : List UInt8 :=
  bigEndian 4 h.magic.toNat ++ [h.version, h.frame_type, h.phase, h.flags]
    ++ bigEndian 4 h.request_id.toNat ++ bigEndian 4 h.sequence.toNat
    ++ bigEndian 8 h.timestamp_ms.toNat

theorem length_headerBytes (h : Header) : (headerBytes h).length = kNtrsBinaryHeaderSize := by
  simp [headerBytes, kNtrsBinaryHeaderSize]

theorem frameParse_view (h : frameParse data = some view) :
    view.payload = kNtrsBinaryHeaderSize ∧ view.payload + view.payload_len = data.length := by
  unfold frameParse at h
  split at h
  · cases h
  case isFalse hlong =>
    dsimp only at h
    split at h
    · cases h
    · split at h
      · cases h
      · cases h
        refine ⟨rfl, ?_⟩
        dsimp only
        omega

theorem frameParse_written (h : Header) (payload : List UInt8) (hvalid : h.Valid) :
    frameParse (headerBytes h ++ payload)
      = some ⟨h, kNtrsBinaryHeaderSize, payload.length⟩ := by
  obtain ⟨hmagic, hversion, htype, hphase⟩ := hvalid
  have hlen : (headerBytes h ++ payload).length = kNtrsBinaryHeaderSize + payload.length := by
    rw [List.length_append, length_headerBytes]
  have hread (w n : Nat) (before after : List UInt8)
      (hcut : headerBytes h ++ payload = before ++ bigEndian w n ++ after) (hn : n < 256 ^ w) :
      getBe (headerBytes h ++ payload) w before.length = n := by
    have hget := getBe_append before (bigEndian w n) after
    rw [length_bigEndian, ofBigEndian_bigEndian, Nat.mod_eq_of_lt hn] at hget
    rw [hcut]
    exact hget
  have hmagicBytes : getBe (headerBytes h ++ payload) 4 0 = h.magic.toNat :=
    hread 4 _ [] ([h.version, h.frame_type, h.phase, h.flags] ++ bigEndian 4 h.request_id.toNat
      ++ bigEndian 4 h.sequence.toNat ++ bigEndian 8 h.timestamp_ms.toNat ++ payload)
      (by simp [headerBytes]) h.magic.toNat_lt
  have hrequest : getBe (headerBytes h ++ payload) 4 8 = h.request_id.toNat := by
    have hget := hread 4 h.request_id.toNat (bigEndian 4 h.magic.toNat
      ++ [h.version, h.frame_type, h.phase, h.flags]) (bigEndian 4 h.sequence.toNat
      ++ bigEndian 8 h.timestamp_ms.toNat ++ payload) (by simp [headerBytes]) h.request_id.toNat_lt
    simpa using hget
  have hsequence : getBe (headerBytes h ++ payload) 4 12 = h.sequence.toNat := by
    have hget := hread 4 h.sequence.toNat (bigEndian 4 h.magic.toNat
      ++ [h.version, h.frame_type, h.phase, h.flags] ++ bigEndian 4 h.request_id.toNat)
      (bigEndian 8 h.timestamp_ms.toNat ++ payload) (by simp [headerBytes]) h.sequence.toNat_lt
    simpa using hget
  have htimestamp : getBe (headerBytes h ++ payload) 8 16 = h.timestamp_ms.toNat := by
    have hget := hread 8 h.timestamp_ms.toNat (bigEndian 4 h.magic.toNat
      ++ [h.version, h.frame_type, h.phase, h.flags] ++ bigEndian 4 h.request_id.toNat
      ++ bigEndian 4 h.sequence.toNat) payload (by simp [headerBytes]) h.timestamp_ms.toNat_lt
    simpa using hget
  have hbyte (i : Nat) (hi : i < 4) : (headerBytes h ++ payload).getD (4 + i) 0
      = [h.version, h.frame_type, h.phase, h.flags].getD i 0 := by
    have hcut : headerBytes h ++ payload = bigEndian 4 h.magic.toNat
        ++ ([h.version, h.frame_type, h.phase, h.flags] ++ (bigEndian 4 h.request_id.toNat
        ++ bigEndian 4 h.sequence.toNat ++ bigEndian 8 h.timestamp_ms.toNat ++ payload)) := by
      simp [headerBytes]
    rw [hcut, List.getD_append_right _ _ _ _ (by simp), length_bigEndian, Nat.add_sub_cancel_left,
      List.getD_append _ _ _ _ (by simpa using hi)]
  unfold frameParse
  rw [hmagicBytes, hrequest, hsequence, htimestamp, hbyte 0 (by decide), hbyte 1 (by decide),
    hbyte 2 (by decide), hbyte 3 (by decide), hlen]
  simp only [UInt32.ofNat_toNat, UInt64.ofNat_toNat, List.getD_cons_zero, List.getD_cons_succ]
  rw [if_neg (by omega), if_neg (by rw [hmagic]; simp), if_neg (by simp [hversion, htype, hphase]),
    Nat.add_sub_cancel_left]

-- ==== writing

/-- The pairs whose `add_tlv` returned true, and the frame behind the calls. -/
def addAll (f : Frame) : List (UInt16 × Option Value) → List Tlv × Frame
  | [] => ([], f)
  | (type, value) :: pairs =>
    let added := addTlv f type value
    let rest := addAll added.2 pairs
    match added.1, value with
    | true, some value => (⟨type, value⟩ :: rest.1, rest.2)
    | _, _ => rest

/-- `add_tlv` leaves the frame as it is, or writes the pair behind what is there. -/
theorem addTlv_cases (f : Frame) (type : UInt16) (value : Option Value) :
    addTlv f type value = (false, f)
      ∨ ∃ v f', value = some v ∧ addTlv f type value = (true, f')
        ∧ f'.written = f.written ++ Tlv.encode ⟨type, v⟩ := by
  cases value with
  | none => exact .inl rfl
  | some v =>
    unfold addTlv
    dsimp only
    split
    · exact .inl rfl
    · split
      · exact .inl rfl
      · refine .inr ⟨v, _, rfl, rfl, ?_⟩
        have hlen : (bigEndian 2 type.toNat ++ bigEndian 2 v.1.length ++ v.1).length
            = kNtrsBinaryTlvHeaderSize + v.1.length := Tlv.length_encode ⟨type, v⟩
        unfold Frame.written
        dsimp only
        rw [readMem_add, readMem_writeMem_of_le _ _ (by omega), Nat.zero_add, ← hlen,
          readMem_writeMem]
        rfl

theorem written_addAll (f : Frame) (pairs : List (UInt16 × Option Value)) :
    (addAll f pairs).2.written = f.written ++ tlvs.written (addAll f pairs).1 := by
  induction pairs generalizing f with
  | nil => exact (List.append_nil _).symm
  | cons pair pairs ih =>
    obtain ⟨type, value⟩ := pair
    obtain hrefused | ⟨v, f', rfl, hadded, hwritten⟩ := addTlv_cases f type value
    · have hskipped : addAll f ((type, value) :: pairs) = addAll f pairs := by
        simp only [addAll, hrefused]
      rw [hskipped]
      exact ih f
    · have hkept : addAll f ((type, some v) :: pairs)
          = (⟨type, v⟩ :: (addAll f' pairs).1, (addAll f' pairs).2) := by
        simp only [addAll, hadded]
      rw [hkept]
      dsimp only
      rw [ih f', hwritten, Records.written_cons, List.append_assoc]
      rfl

/-- `set_header`, with the fields of a header. -/
def setHeaderOf (f : Frame) (h : Header) : Bool × Frame :=
  setHeader f h.frame_type h.phase h.flags h.request_id h.sequence h.timestamp_ms

theorem written_setHeaderOf {f : Frame} {h : Header}
    (hcapacity : kNtrsBinaryHeaderSize ≤ f.capacity) (hvalid : h.Valid) :
    (setHeaderOf f h).1 = true ∧ (setHeaderOf f h).2.written = headerBytes h := by
  obtain ⟨hmagic, hversion, htype, hphase⟩ := hvalid
  unfold setHeaderOf setHeader
  rw [if_neg (by simp [htype, hphase, hcapacity])]
  refine ⟨rfl, ?_⟩
  have hlen := length_headerBytes h
  unfold Frame.written
  dsimp only
  rw [← hmagic, ← hversion, ← hlen]
  exact readMem_writeMem f.buffer 0 _

-- ==== endpoints

theorem getBe_endpoint (family : UInt8) (port : UInt16) (addr : List UInt8) :
    UInt16.ofNat (getBe (endpointHead family port ++ addr) 2 2) = port := by
  have hget := getBe_append [family, 0] (bigEndian 2 port.toNat) addr
  have hport : port.toNat < 256 ^ 2 := port.toNat_lt
  rw [length_bigEndian, ofBigEndian_bigEndian, Nat.mod_eq_of_lt hport] at hget
  unfold endpointHead
  refine (congrArg UInt16.ofNat hget).trans ?_
  exact UInt16.ofNat_toNat

theorem length_endpointHead (family : UInt8) (port : UInt16) :
    (endpointHead family port).length = 4 := by
  simp [endpointHead]

theorem parseEndpoint_added (f : Frame) (type : UInt16) {addr : SockAddr} (haddr : addr ≠ .other) :
    ∃ value, addEndpointTlv f type addr = addTlv f type (some value)
      ∧ parseEndpoint value.1 = some addr := by
  cases addr with
  | other => exact absurd rfl haddr
  | in4 port addr =>
    refine ⟨_, rfl, ?_⟩
    have hhead := length_endpointHead NTRS_BINARY_ADDR_FAMILY_IPV4 port
    have hlen : (endpointHead NTRS_BINARY_ADDR_FAMILY_IPV4 port ++ addr.1).length = 8 := by
      rw [List.length_append, hhead, addr.2]
    unfold parseEndpoint
    dsimp only
    rw [if_neg (by omega), dif_pos ⟨rfl, hlen⟩, getBe_endpoint]
    simp only [List.drop_left' hhead, List.take_of_length_le addr.2.le]
  | in6 port addr =>
    refine ⟨_, rfl, ?_⟩
    have hhead := length_endpointHead NTRS_BINARY_ADDR_FAMILY_IPV6 port
    have hlen : (endpointHead NTRS_BINARY_ADDR_FAMILY_IPV6 port ++ addr.1).length = 20 := by
      rw [List.length_append, hhead, addr.2]
    unfold parseEndpoint
    dsimp only
    rw [if_neg (by omega), dif_neg (by omega), dif_pos ⟨rfl, hlen⟩, getBe_endpoint]
    simp only [List.drop_left' hhead, List.take_of_length_le addr.2.le]

-- ==== frames

/-- The pairs that a frame took are read from it, in order, and nothing behind them; an endpoint is
read as it was added; and of arbitrary bytes that are let through, the pairs that are read,
written again, are what the payload begins with. -/
theorem frames_round_trip (buffer : Nat → UInt8) (capacity : Nat) (f : Frame)
    (hinit : frameInit buffer capacity = some f) (h : Header) (hvalid : h.Valid)
    (pairs : List (UInt16 × Option Value)) (data : List UInt8) :
    (setHeaderOf f h).1 = true
      ∧ (∃ view, frameParse (addAll (setHeaderOf f h).2 pairs).2.written = some view
        ∧ view.header = h
        ∧ Reads (addAll (setHeaderOf f h).2 pairs).2.written view
          (addAll (setHeaderOf f h).2 pairs).1 [])
      ∧ (∀ f type addr, addr ≠ .other → ∃ value, addEndpointTlv f type addr
          = addTlv f type (some value) ∧ parseEndpoint value.1 = some addr)
      ∧ ∀ view, frameParse data = some view → view.payload + view.payload_len = data.length
        ∧ ∃ found rest, Reads data view found rest
          ∧ tlvs.written found ++ rest = data.drop view.payload := by
  have hcapacity : kNtrsBinaryHeaderSize ≤ f.capacity := by
    unfold frameInit at hinit
    split at hinit
    · cases hinit
    case isFalse hle =>
      cases hinit
      exact not_lt.mp hle
  obtain ⟨hset, hheader⟩ := written_setHeaderOf hcapacity hvalid
  have hwritten := written_addAll (setHeaderOf f h).2 pairs
  rw [hheader] at hwritten
  refine ⟨hset, ?_, fun f type addr => parseEndpoint_added f type, ?_⟩
  · have hparse := frameParse_written h (tlvs.written (addAll (setHeaderOf f h).2 pairs).1) hvalid
    rw [← hwritten] at hparse
    refine ⟨_, hparse, rfl, ?_⟩
    have hreads := reads_readAll (frameParse_view hparse).2
    rw [hwritten, List.drop_left' (length_headerBytes h), tlvs.readAll_written_nil] at hreads
    rw [hwritten]
    exact hreads
  · intro view hview
    obtain ⟨-, hdata⟩ := frameParse_view hview
    exact ⟨hdata, _, _, reads_readAll hdata, (tlvs.written_readAll _).1⟩

/-- A buffer of 40 bytes that has room for a pair of two bytes, not for one of ten, and for an
empty one. -/
theorem frames_round_trip_forty :
    (∃ view, frameParse (addAll (setHeaderOf ⟨fun i => if i < 40 then 0 else 7, 40, 0⟩
          ⟨NTRS_BINARY_FRAME_MAGIC, 1, 5, 5, 0, 1, 2, 3⟩).2
        [(2, some ⟨[8, 9], by decide⟩), (3, some ⟨List.replicate 10 1, by decide⟩), (4, none),
          (5, some ⟨[], by decide⟩)]).2.written = some view
      ∧ view.header = ⟨NTRS_BINARY_FRAME_MAGIC, 1, 5, 5, 0, 1, 2, 3⟩
      ∧ Reads (addAll (setHeaderOf ⟨fun i => if i < 40 then 0 else 7, 40, 0⟩
          ⟨NTRS_BINARY_FRAME_MAGIC, 1, 5, 5, 0, 1, 2, 3⟩).2
        [(2, some ⟨[8, 9], by decide⟩), (3, some ⟨List.replicate 10 1, by decide⟩), (4, none),
          (5, some ⟨[], by decide⟩)]).2.written view
        [⟨2, [8, 9], by decide⟩, ⟨5, [], by decide⟩] []) := by
  have h := (frames_round_trip (fun _ => 7) 40 ⟨fun i => if i < 40 then 0 else 7, 40, 0⟩ rfl
    ⟨NTRS_BINARY_FRAME_MAGIC, 1, 5, 5, 0, 1, 2, 3⟩ (by decide)
    [(2, some ⟨[8, 9], by decide⟩), (3, some ⟨List.replicate 10 1, by decide⟩), (4, none),
      (5, some ⟨[], by decide⟩)] []).2.1
  exact h

end Eular.Ntrs.Binary
