/-
Encoding a message and decoding bytes.

Both are about the records of a body. The encoder writes one for every field
(`encodeFields_eq`); the decoder's loop is over the records at the front of a
body, and of these it keeps the ones it knows (`decodeFields_eq`). What it
keeps is one field after another up to the first that does not fit, and all
of them exactly if they fit together (`storeKnown_spec`).
-/
import Eular.Ntrs.Proofs.Codec

namespace Eular.Ntrs.Codec

open Lib Binary

variable {f : MessageField}

-- ==== records

theorem length_valueBytes (value : FieldValue) : (valueBytes value).length = valueLen value := by
  cases value with
  | bytes value => rfl
  | bool value => rfl
  | u8 value => rfl
  | u16 value => exact length_bigEndian 2 _
  | u32 value => exact length_bigEndian 4 _
  | i32 value => exact length_bigEndian 4 _
  | u64 value => exact length_bigEndian 8 _

theorem Normal.valueLen_lt {value : FieldValue} (h : Normal value) : valueLen value < 2 ^ 16 := by
  cases value with
  | bytes value => exact h
  | _ => simp [valueLen]

def tlvOf (f : MessageField) : Tlv :=
  ⟨f.tag, ⟨(valueBytes f.value).take (2 ^ 16 - 1),
    (List.length_take_le _ _).trans_lt (by decide)⟩⟩

theorem value_tlvOf (h : Normal f.value) :
    (tlvOf f).value.1 = valueBytes f.value := by
  refine List.take_of_length_le ?_
  have hlt := h.valueLen_lt
  rw [length_valueBytes]
  omega

theorem length_tlvOf (h : Normal f.value) :
    (tlvOf f).encode.length = TLV_HDR_SIZE + valueLen f.value := by
  rw [Tlv.length_encode, value_tlvOf h, length_valueBytes]
  rfl

theorem FieldOk.normal (h : FieldOk f) : Normal f.value := by
  obtain ⟨_, _, _, _, _, hnormal⟩ := h
  exact hnormal

theorem encode_tlvOf (h : Normal f.value) :
    (tlvOf f).encode = bigEndian 2 f.tag.toNat ++ bigEndian 2 (valueLen f.value)
      ++ valueBytes f.value := by
  unfold Tlv.encode
  rw [value_tlvOf h, length_valueBytes]
  rfl

def bodyOf (fields : List MessageField) : List UInt8 := tlvs.written (fields.map tlvOf)

theorem encodeFields_eq {cap off : Nat} {fields : List MessageField}
    (hok : ∀ f ∈ fields, FieldOk f) (hoff : off ≤ cap) :
    encodeFields cap off fields
      = if off + (bodyOf fields).length ≤ cap then some (bodyOf fields) else none := by
  induction fields generalizing off with
  | nil => exact (if_pos hoff).symm
  | cons f fields ih =>
    have hf := hok f List.mem_cons_self
    have hnormal := hf.normal
    have htag : f.tag ≠ 0 := by
      obtain ⟨d, hd, -, htag, -⟩ := hf
      rw [htag]
      exact tag_ne_zero hd
    have hbody : bodyOf (f :: fields) = (tlvOf f).encode ++ bodyOf fields := rfl
    have hlength : (bodyOf (f :: fields)).length
        = TLV_HDR_SIZE + valueLen f.value + (bodyOf fields).length := by
      rw [hbody, List.length_append, length_tlvOf hnormal]
    rw [encodeFields, if_neg htag, hlength]
    by_cases hroom : cap < off + (TLV_HDR_SIZE + valueLen f.value)
    · rw [if_pos hroom, if_neg (by omega)]
    · rw [if_neg hroom, ih (fun g hg => hok g (List.mem_cons_of_mem _ hg)) (by omega)]
      by_cases hrest : off + (TLV_HDR_SIZE + valueLen f.value) + (bodyOf fields).length ≤ cap
      · rw [if_pos hrest, if_pos (by omega), hbody, encode_tlvOf hnormal]
        rfl
      · rw [if_neg hrest, if_neg (by omega)]
        rfl

theorem decodedValue_valueBytes {value : FieldValue} (h : Normal value) :
    decodedValue (valueType value) (valueBytes value) = value := by
  cases value with
  | bytes value => rfl
  | bool value =>
    rcases h with rfl | rfl
    · rfl
    · rfl
  | u8 value => rfl
  | u16 value =>
    have hback := (ofBigEndian_bigEndian 2 value.toNat).trans (Nat.mod_eq_of_lt value.toNat_lt)
    simp only [decodedValue, valueBytes, valueType, hback, UInt16.ofNat_toNat]
  | u32 value =>
    have hback := (ofBigEndian_bigEndian 4 value.toNat).trans (Nat.mod_eq_of_lt value.toNat_lt)
    simp only [decodedValue, valueBytes, valueType, hback, UInt32.ofNat_toNat]
  | i32 value =>
    have hback := (ofBigEndian_bigEndian 4 value.toUInt32.toNat).trans
      (Nat.mod_eq_of_lt value.toUInt32.toNat_lt)
    simp only [decodedValue, valueBytes, valueType, hback, UInt32.ofNat_toNat]
    rfl
  | u64 value =>
    have hback := (ofBigEndian_bigEndian 8 value.toNat).trans (Nat.mod_eq_of_lt value.toNat_lt)
    simp only [decodedValue, valueBytes, valueType, hback, UInt64.ofNat_toNat]

-- ==== keeping

def fieldOf (entry : FieldDef × List UInt8) : MessageField :=
  ⟨some entry.1.key, entry.1.tag, decodedValue entry.1.type entry.2⟩

def known (l : List Tlv) : List (FieldDef × List UInt8) :=
  l.filterMap fun t => (findFieldDefByTag t.type).map fun d => (d, t.value.1)

/-- `CopyDecodedBytes` for one after another, up to the first that fails. -/
def storeKnown (msg : Message) : List (FieldDef × List UInt8) → Bool × Message
  | [] => (true, msg)
  | entry :: l =>
    match copyDecodedBytes msg entry.1 entry.2 with
    | (false, msg) => (false, msg)
    | (true, msg) => storeKnown msg l

/-- The length is that of the type. -/
def RightLength (entry : FieldDef × List UInt8) : Prop :=
  ∀ len, decodedLen entry.1.type = some len → entry.2.length = len

/-- Some records fit into an empty message. -/
structure Fits (l : List (FieldDef × List UInt8)) : Prop where
  length : ∀ entry ∈ l, RightLength entry
  count : l.length ≤ MAX_FIELDS
  room : storage (l.map fieldOf) ≤ STORAGE_SIZE

theorem valueType_decodedValue (type : FieldType) (data : List UInt8) :
    valueType (decodedValue type data) = type := by
  cases type with
  | _ => rfl

theorem not_refuses_iff {msg : Message} (h : msg.Regular) (entry : FieldDef × List UInt8) :
    ¬ msg.Refuses entry.1 entry.2 ↔ msg.fields.length < MAX_FIELDS ∧ RightLength entry
      ∧ msg.storage_len + stored (fieldOf entry).value ≤ STORAGE_SIZE := by
  obtain ⟨⟨key, tag, type⟩, data⟩ := entry
  have hroom := h.room
  rw [← h.storage_len_eq] at hroom
  unfold Message.Refuses RightLength fieldOf
  rw [not_or, not_le]
  cases type with
  | bytes =>
    simp only [decodedLen, decodedValue, stored, not_lt, reduceCtorEq, false_implies,
      implies_true, true_and, Nat.add_assoc]
  | bool => simp [decodedLen, decodedValue, stored, hroom]
  | u8 => simp [decodedLen, decodedValue, stored, hroom]
  | u16 => simp [decodedLen, decodedValue, stored, hroom]
  | u32 => simp [decodedLen, decodedValue, stored, hroom]
  | i32 => simp [decodedLen, decodedValue, stored, hroom]
  | u64 => simp [decodedLen, decodedValue, stored, hroom]

theorem fieldOk_fieldOf {entry : FieldDef × List UInt8} (hd : entry.1 ∈ kFieldDefs)
    (hlen : entry.2.length < 2 ^ 16) : FieldOk (fieldOf entry) := by
  refine ⟨entry.1, hd, rfl, rfl, valueType_decodedValue _ _, ?_⟩
  obtain ⟨⟨key, tag, type⟩, data⟩ := entry
  cases type with
  | bytes => exact hlen
  | bool =>
    show (if data.getD 0 0 = 0 then (0 : UInt8) else 1) = 0 ∨ _
    split
    · exact .inl rfl
    · exact .inr rfl
  | _ => trivial

theorem storeKnown_cons (msg : Message) (entry : FieldDef × List UInt8)
    (l : List (FieldDef × List UInt8)) :
    storeKnown msg (entry :: l)
      = if msg.Refuses entry.1 entry.2 then (false, msg)
        else storeKnown (msg.push (fieldOf entry)) l := by
  rw [storeKnown, copyDecodedBytes]
  by_cases hrefuses : msg.Refuses entry.1 entry.2
  · rw [if_pos hrefuses, if_pos hrefuses]
  · rw [if_neg hrefuses, if_neg hrefuses]
    rfl

theorem storeKnown_fields (msg : Message) (l : List (FieldDef × List UInt8)) :
    msg.fields <+: (storeKnown msg l).2.fields := by
  induction l generalizing msg with
  | nil => exact List.prefix_rfl
  | cons entry l ih =>
    rw [storeKnown_cons]
    split
    · exact List.prefix_rfl
    · exact (List.prefix_append msg.fields [fieldOf entry]).trans (ih (msg.push (fieldOf entry)))

/-- What is kept: all of it where it fits behind what is there, and else what is in front of the
first that does not. -/
theorem storeKnown_spec {msg : Message} (h : msg.Regular) {l : List (FieldDef × List UInt8)}
    (hl : ∀ entry ∈ l, entry.1 ∈ kFieldDefs ∧ entry.2.length < 2 ^ 16) :
    (storeKnown msg l).2.Regular
      ∧ ((storeKnown msg l).1 = true →
        (storeKnown msg l).2 = (l.map fieldOf).foldl Message.push msg)
      ∧ ((storeKnown msg l).1 = true ↔ (∀ entry ∈ l, RightLength entry)
        ∧ msg.fields.length + l.length ≤ MAX_FIELDS
        ∧ msg.storage_len + storage (l.map fieldOf) ≤ STORAGE_SIZE)
      ∧ ((storeKnown msg l).1 = false → ((storeKnown msg l).2.fields = msg.fields
        ↔ ∃ entry rest, l = entry :: rest ∧ msg.Refuses entry.1 entry.2)) := by
  induction l generalizing msg with
  | nil =>
    have hroom := h.room
    rw [← h.storage_len_eq] at hroom
    refine ⟨h, fun _ => rfl, iff_of_true rfl ⟨(fun _ hx => nomatch hx), h.count, hroom⟩, ?_⟩
    intro hfalse
    cases hfalse
  | cons entry l ih =>
    obtain ⟨hentry, hrest⟩ := List.forall_mem_cons.mp hl
    rw [storeKnown_cons]
    by_cases hrefuses : msg.Refuses entry.1 entry.2
    · rw [if_pos hrefuses]
      refine ⟨h, Bool.noConfusion, ?_, fun _ => iff_of_true rfl ⟨entry, l, rfl, hrefuses⟩⟩
      refine iff_of_false Bool.noConfusion ?_
      rintro ⟨hlen, hcount, hroom⟩
      refine (not_refuses_iff h entry).mpr ⟨?_, hlen entry List.mem_cons_self, ?_⟩ hrefuses
      · rw [List.length_cons] at hcount
        omega
      · unfold storage at hroom
        rw [List.map_cons, List.map_cons, List.sum_cons] at hroom
        omega
    · rw [if_neg hrefuses]
      obtain ⟨hcount, hlen, hroom⟩ := (not_refuses_iff h entry).mp hrefuses
      have hpush : (msg.push (fieldOf entry)).Regular :=
        h.push (fieldOk_fieldOf hentry.1 hentry.2) hcount hroom
      obtain ⟨hregular, hall, hfits, hnone⟩ := ih hpush hrest
      refine ⟨hregular, hall, hfits.trans ?_, fun hfalse => ?_⟩
      · have hfields : (msg.push (fieldOf entry)).fields.length = msg.fields.length + 1 :=
          List.length_append
        have hstored : (msg.push (fieldOf entry)).storage_len
            = msg.storage_len + stored (fieldOf entry).value := rfl
        have hstorage : storage ((entry :: l).map fieldOf)
            = stored (fieldOf entry).value + storage (l.map fieldOf) := rfl
        rw [hfields, hstored, hstorage, List.length_cons, List.forall_mem_cons]
        constructor
        · rintro ⟨hlens, hcounts, hrooms⟩
          exact ⟨⟨hlen, hlens⟩, by omega, by omega⟩
        · rintro ⟨⟨-, hlens⟩, hcounts, hrooms⟩
          exact ⟨hlens, by omega, by omega⟩
      · refine iff_of_false (fun hsame => ?_) ?_
        · have hlonger : msg.fields.length + 1
              ≤ (storeKnown (msg.push (fieldOf entry)) l).2.fields.length := by
            have hlonger := (storeKnown_fields (msg.push (fieldOf entry)) l).length_le
            rwa [show (msg.push (fieldOf entry)).fields.length = msg.fields.length + 1 from
              List.length_append] at hlonger
          have hlength := congrArg List.length hsame
          omega
        · rintro ⟨entry', rest, hcons, hrefuses'⟩
          obtain ⟨rfl, -⟩ := List.cons.inj hcons
          exact hrefuses hrefuses'

-- ==== decoding

theorem drop_readMem_le (m : Nat → UInt8) (offset : Nat) {a n : Nat} (h : a ≤ n) :
    (readMem m offset n).drop a = readMem m (offset + a) (n - a) := by
  have hsplit := drop_readMem m offset a (n - a)
  rwa [Nat.add_sub_cancel' h] at hsplit

theorem take_readMem_le (m : Nat → UInt8) (offset : Nat) {a n : Nat} (h : a ≤ n) :
    (readMem m offset n).take a = readMem m offset a := by
  have hsplit := take_readMem m offset a (n - a)
  rwa [Nat.add_sub_cancel' h] at hsplit

theorem part_readMem (m : Nat → UInt8) (offset : Nat) {a k n : Nat} (h : a + k ≤ n) :
    ((readMem m offset n).drop a).take k = readMem m (offset + a) k := by
  rw [drop_readMem_le m offset (by omega), take_readMem_le _ _ (by omega)]

/-- What the loop makes of the records of a body and the bytes behind them. -/
def decoded (msg : Message) (read : List Tlv × List UInt8) : Bool × Message :=
  ((storeKnown msg (known read.1)).1 && decide (read.2.length < TLV_HDR_SIZE),
    (storeKnown msg (known read.1)).2)

theorem decoded_of_none (msg : Message) (s : List UInt8) :
    decoded msg ([], s) = (decide (s.length < TLV_HDR_SIZE), msg) := by
  rw [decoded, known, List.filterMap_nil, storeKnown, Bool.true_and]

theorem decoded_cons (msg : Message) (t : Tlv) (read : List Tlv × List UInt8) :
    decoded msg (t :: read.1, read.2)
      = match findFieldDefByTag t.type with
        | none => decoded msg read
        | some d =>
          if msg.Refuses d t.value.1 then (false, msg)
          else decoded (msg.push (fieldOf (d, t.value.1))) read := by
  cases hd : findFieldDefByTag t.type with
  | none =>
    have hknown : known (t :: read.1) = known read.1 := by
      unfold known
      rw [List.filterMap_cons, hd]
      rfl
    rw [decoded, hknown]
    rfl
  | some d =>
    have hknown : known (t :: read.1) = (d, t.value.1) :: known read.1 := by
      unfold known
      rw [List.filterMap_cons, hd]
      rfl
    rw [decoded, hknown, storeKnown_cons]
    dsimp only
    split
    · rfl
    · rfl

variable (data : Nat → UInt8)

theorem decodeFields_eq (limit : Nat) {fuel off : Nat} (msg : Message)
    (hoff : off ≤ limit) (hfuel : limit - off < fuel) :
    decodeFields data limit fuel off msg
      = some (decoded msg (tlvs.readAll (readMem data off (limit - off)))) := by
  induction fuel generalizing off msg with
  | zero => omega
  | succ fuel ih =>
    have hlength : (readMem data off (limit - off)).length = limit - off := length_readMem _ _ _
    rw [decodeFields]
    by_cases hhead : limit < off + TLV_HDR_SIZE
    · have hnone : tlvs.next (readMem data off (limit - off)) = none := by
        show nextRecord _ = none
        unfold nextRecord kNtrsBinaryTlvHeaderSize
        unfold TLV_HDR_SIZE at hhead
        rw [if_pos (by omega)]
      rw [if_pos hhead, tlvs.readAll_of_none hnone, decoded_of_none, hlength,
        decide_eq_true (by omega)]
    · rw [if_neg hhead]
      unfold TLV_HDR_SIZE at *
      have htag : Binary.getBe (readMem data off (limit - off)) 2 0 = getBe data 2 off := by
        rw [Binary.getBe, part_readMem data off (by omega)]
        rfl
      have hvalue : Binary.getBe (readMem data off (limit - off)) 2 2
          = getBe data 2 (off + 2) := by
        rw [Binary.getBe, part_readMem data off (by omega)]
        rfl
      dsimp only
      by_cases hlong : limit < off + 4 + getBe data 2 (off + 2)
      · have hnone : tlvs.next (readMem data off (limit - off)) = none := by
          show nextRecord _ = none
          unfold nextRecord kNtrsBinaryTlvHeaderSize
          rw [if_neg (by omega)]
          dsimp only
          rw [if_pos (by omega)]
        rw [if_pos hlong, tlvs.readAll_of_none hnone, decoded_of_none, hlength,
          decide_eq_false (by unfold TLV_HDR_SIZE; omega)]
      · have hnext : ∃ t, tlvs.next (readMem data off (limit - off))
            = some (t, readMem data (off + 4 + getBe data 2 (off + 2))
              (limit - (off + 4 + getBe data 2 (off + 2))))
            ∧ t.type = UInt16.ofNat (getBe data 2 off)
            ∧ t.value.1 = readMem data (off + 4) (getBe data 2 (off + 2)) := by
          have hbytes := part_readMem data off
            (show 4 + getBe data 2 (off + 2) ≤ limit - off by omega)
          have hbehind := drop_readMem_le data off
            (show 4 + getBe data 2 (off + 2) ≤ limit - off by omega)
          rw [← Nat.add_assoc, Nat.sub_sub, ← Nat.add_assoc] at hbehind
          refine ⟨⟨UInt16.ofNat (getBe data 2 off),
            ⟨readMem data (off + 4) (getBe data 2 (off + 2)), ?_⟩⟩, ?_, rfl, rfl⟩
          · rw [length_readMem, ← hvalue]
            exact getBe_lt _ _ _
          · show nextRecord _ = some _
            unfold nextRecord kNtrsBinaryTlvHeaderSize
            rw [if_neg (by omega)]
            dsimp only
            rw [if_neg (by omega)]
            simp only [htag, hvalue, hbytes, hbehind]
        obtain ⟨t, hnext, htype, hdata⟩ := hnext
        rw [if_neg hlong, tlvs.readAll_of_next hnext, decoded_cons, htype, hdata]
        have hbelow : off + 4 + getBe data 2 (off + 2) ≤ limit := by omega
        have hrest (msg : Message) := ih msg hbelow (by omega)
        cases findFieldDefByTag (UInt16.ofNat (getBe data 2 off)) with
        | none => exact hrest msg
        | some d =>
          dsimp only
          rw [copyDecodedBytes]
          by_cases hrefuses : msg.Refuses d (readMem data (off + 4) (getBe data 2 (off + 2)))
          · rw [if_pos hrefuses, if_pos hrefuses]
          · rw [if_neg hrefuses, if_neg hrefuses]
            exact hrest _

-- ==== frames

/-- The size of the frame that some bytes begin with, if it is all there. -/
def frameOf (len : Nat) : Option Nat :=
  (frameSizeFromHeader data len).filter fun size => size ≤ len ∧ FRAME_HDR_SIZE ≤ size

/-- The records of a frame, and the bytes behind them. -/
def recordsOf (size : Nat) : List Tlv × List UInt8 :=
  tlvs.readAll (readMem data FRAME_HDR_SIZE (size - FRAME_HDR_SIZE))

/-- The message that decoding begins with. -/
def headed : Message :=
  messageInit (data 5) (UInt32.ofNat (getBe data 4 8))

theorem decodeMessage_eq {len fuel : Nat} (hfuel : len ≤ fuel) :
    decodeMessage data len fuel
      = match frameOf data len with
        | none => some (false, messageInit 0 0)
        | some size =>
          let result := decoded (headed data) (recordsOf data size)
          some (result.1 && decide (result.2.type ≠ 0), result.2) := by
  unfold decodeMessage frameOf
  dsimp only
  cases frameSizeFromHeader data len with
  | none => rfl
  | some size =>
    dsimp only
    by_cases hsize : size ≤ len ∧ FRAME_HDR_SIZE ≤ size
    · have hkeep : (some size).filter (fun size => decide (size ≤ len ∧ FRAME_HDR_SIZE ≤ size))
          = some size := Option.filter_some_pos (decide_eq_true hsize)
      rw [hkeep, if_neg (by omega)]
      have hloop := decodeFields_eq data size (headed data) hsize.2
        (show size - FRAME_HDR_SIZE < fuel by unfold FRAME_HDR_SIZE at *; omega)
      have hheaded : { messageInit 0 0 with
          type := data 5, request_id := UInt32.ofNat (getBe data 4 8) } = headed data := rfl
      rw [hheaded, hloop]
      show _ = some ((decoded (headed data) (recordsOf data size)).1 && _, _)
      unfold recordsOf
      generalize decoded (headed data)
        (tlvs.readAll (readMem data FRAME_HDR_SIZE (size - FRAME_HDR_SIZE))) = result
      obtain ⟨ok, msg⟩ := result
      cases ok with
      | false => rfl
      | true => rfl
    · have hdrop : (some size).filter (fun size => decide (size ≤ len ∧ FRAME_HDR_SIZE ≤ size))
          = none := Option.filter_some_neg (decide_eq_false hsize)
      rw [hdrop, if_pos (by omega)]

theorem readMem_append {m : Nat → UInt8} {offset n : Nat} {a b : List UInt8}
    (h : readMem m offset (a.length + n) = a ++ b) :
    readMem m offset a.length = a ∧ readMem m (offset + a.length) n = b := by
  rw [readMem_add] at h
  exact List.append_inj h (length_readMem _ _ _)

theorem readMem_one {m : Nat → UInt8} {offset : Nat} {c : UInt8}
    (h : readMem m offset 1 = [c]) : m offset = c := by
  exact List.head_eq_of_cons_eq h

theorem header_parts {data : Nat → UInt8} {type : UInt8} {request_id : UInt32} {n : Nat}
    (h : readMem data 0 FRAME_HDR_SIZE = frameHeader type request_id n) :
    getBe data 4 0 = FRAME_MAGIC.toNat ∧ data 4 = FRAME_VERSION ∧ data 5 = type
      ∧ getBe data 4 8 = request_id.toNat ∧ getBe data 4 12 = n % 2 ^ 32 := by
  have hsplit : readMem data 0 ((bigEndian 4 FRAME_MAGIC.toNat).length
        + ([FRAME_VERSION].length + ([type].length + ((bigEndian 2 0).length
          + ((bigEndian 4 request_id.toNat).length + 4)))))
      = bigEndian 4 FRAME_MAGIC.toNat ++ ([FRAME_VERSION] ++ ([type] ++ (bigEndian 2 0
        ++ (bigEndian 4 request_id.toNat ++ bigEndian 4 n)))) := by
    simpa [FRAME_HDR_SIZE, frameHeader] using h
  obtain ⟨hmagic, hsplit⟩ := readMem_append hsplit
  obtain ⟨hversion, hsplit⟩ := readMem_append hsplit
  obtain ⟨htype, hsplit⟩ := readMem_append hsplit
  obtain ⟨-, hsplit⟩ := readMem_append hsplit
  obtain ⟨hid, hlen⟩ := readMem_append hsplit
  simp only [length_bigEndian, List.length_singleton, Nat.zero_add, Nat.reduceAdd] at *
  refine ⟨?_, readMem_one hversion, readMem_one htype, ?_, ?_⟩
  · rw [getBe, hmagic, ofBigEndian_bigEndian]
    rfl
  · rw [getBe, hid, ofBigEndian_bigEndian]
    exact Nat.mod_eq_of_lt request_id.toNat_lt
  · rw [getBe, hlen, ofBigEndian_bigEndian]
    rfl

section Encoded

variable {msg : Message}

theorem length_frameHeader (type : UInt8) (request_id : UInt32) (n : Nat) :
    (frameHeader type request_id n).length = FRAME_HDR_SIZE := by
  simp [frameHeader, FRAME_HDR_SIZE]

theorem encodeMessage_eq (h : msg.Regular) {cap : Nat} {bytes : List UInt8}
    (hencode : encodeMessage msg cap = some bytes) :
    bytes = frameHeader msg.type msg.request_id (bodyOf msg.fields).length
      ++ bodyOf msg.fields := by
  unfold encodeMessage at hencode
  split at hencode
  · cases hencode
  · rename_i hcap
    rw [encodeFields_eq h.ok (not_lt.mp hcap)] at hencode
    split at hencode
    · cases hencode
      rfl
    · cases hencode

theorem exists_encodeMessage (h : msg.Regular) :
    ∃ cap bytes, encodeMessage msg cap = some bytes := by
  refine ⟨FRAME_HDR_SIZE + (bodyOf msg.fields).length,
    frameHeader msg.type msg.request_id (bodyOf msg.fields).length ++ bodyOf msg.fields, ?_⟩
  unfold encodeMessage
  rw [if_neg (by omega), encodeFields_eq h.ok (by omega), if_pos le_rfl]
  rfl

theorem length_bodyOf_le {fields : List MessageField} (hok : ∀ f ∈ fields, FieldOk f) :
    (bodyOf fields).length ≤ fields.length * (TLV_HDR_SIZE + 2 ^ 16) := by
  induction fields with
  | nil => exact Nat.zero_le _
  | cons f fields ih =>
    have hf := (hok f List.mem_cons_self).normal
    have hrest := ih fun g hg => hok g (List.mem_cons_of_mem _ hg)
    have hlt := hf.valueLen_lt
    have hlength : (bodyOf (f :: fields)).length
        = TLV_HDR_SIZE + valueLen f.value + (bodyOf fields).length := by
      rw [← length_tlvOf hf]
      exact List.length_append
    rw [hlength, List.length_cons, Nat.succ_mul]
    omega

theorem known_tlvOf {fields : List MessageField} (hok : ∀ f ∈ fields, FieldOk f) :
    (known (fields.map tlvOf)).map fieldOf = fields
      ∧ ∀ entry ∈ known (fields.map tlvOf), entry.1 ∈ kFieldDefs ∧ entry.2.length < 2 ^ 16
        ∧ RightLength entry := by
  induction fields with
  | nil => exact ⟨rfl, fun _ h => nomatch h⟩
  | cons f fields ih =>
    obtain ⟨hfields, hall⟩ := ih fun g hg => hok g (List.mem_cons_of_mem _ hg)
    obtain ⟨d, hd, hkey, htag, htype, hnormal⟩ := hok f List.mem_cons_self
    have hdef : findFieldDefByTag (tlvOf f).type = some d := by
      show findFieldDefByTag f.tag = _
      rw [htag]
      exact findFieldDefByTag_tag hd
    have hknown : known ((f :: fields).map tlvOf)
        = (d, valueBytes f.value) :: known (fields.map tlvOf) := by
      unfold known
      rw [List.map_cons, List.filterMap_cons, hdef, value_tlvOf hnormal]
      rfl
    have hfield : fieldOf (d, valueBytes f.value) = f := by
      unfold fieldOf
      rw [← htype, decodedValue_valueBytes hnormal, ← hkey, ← htag]
    rw [hknown, List.map_cons, hfields, hfield]
    refine ⟨rfl, List.forall_mem_cons.mpr ⟨⟨hd, ?_, ?_⟩, hall⟩⟩
    · rw [length_valueBytes]
      exact hnormal.valueLen_lt
    · intro len hlen
      rw [length_valueBytes]
      rw [← htype] at hlen
      cases hvalue : f.value with
      | bytes value =>
        rw [hvalue] at hlen
        cases hlen
      | _ =>
        rw [hvalue] at hlen
        cases hlen
        rfl

theorem decodeMessage_encoded (h : msg.Regular) (htype : msg.type ≠ 0) {cap : Nat}
    {bytes : List UInt8} (hencode : encodeMessage msg cap = some bytes) {data : Nat → UInt8}
    (hdata : readMem data 0 bytes.length = bytes) {fuel : Nat} (hfuel : bytes.length ≤ fuel) :
    decodeMessage data bytes.length fuel = some (true, msg) := by
  have hbytes := encodeMessage_eq h hencode
  have hlength : bytes.length = FRAME_HDR_SIZE + (bodyOf msg.fields).length := by
    rw [hbytes, List.length_append, length_frameHeader]
  have hread : readMem data 0 ((frameHeader msg.type msg.request_id
        (bodyOf msg.fields).length).length + (bodyOf msg.fields).length)
      = frameHeader msg.type msg.request_id (bodyOf msg.fields).length ++ bodyOf msg.fields := by
    rw [length_frameHeader, ← hlength, hdata]
    exact hbytes
  obtain ⟨hheader, hbody⟩ := readMem_append hread
  rw [length_frameHeader, Nat.zero_add] at hbody
  rw [length_frameHeader] at hheader
  obtain ⟨hmagic, hversion, hfive, hid, hlen⟩ := header_parts hheader
  have hsmall : FRAME_HDR_SIZE + (bodyOf msg.fields).length < 2 ^ 32 := by
    have hle := length_bodyOf_le h.ok
    have hcount := h.count
    unfold TLV_HDR_SIZE MAX_FIELDS FRAME_HDR_SIZE at *
    omega
  have hsize : frameSizeFromHeader data bytes.length = some bytes.length := by
    unfold frameSizeFromHeader
    rw [if_neg (by omega), if_neg (by rw [hmagic, hversion]; simp), hlen,
      Nat.mod_eq_of_lt (show (bodyOf msg.fields).length < 2 ^ 32 by omega),
      Nat.mod_eq_of_lt hsmall, hlength]
  have hframe : frameOf data bytes.length = some bytes.length := by
    unfold frameOf
    rw [hsize]
    exact Option.filter_some_pos (by rw [decide_eq_true_eq]; omega)
  have hhead : headed data = messageInit msg.type msg.request_id := by
    unfold headed
    rw [hfive, hid, UInt32.ofNat_toNat]
  have hrecords : recordsOf data bytes.length = (msg.fields.map tlvOf, []) := by
    unfold recordsOf
    rw [hlength, Nat.add_sub_cancel_left, hbody]
    exact tlvs.readAll_written_nil _
  obtain ⟨hfields, hknown⟩ := known_tlvOf h.ok
  obtain ⟨-, hall, hfits, -⟩ := storeKnown_spec (regular_messageInit msg.type msg.request_id)
    (l := known (msg.fields.map tlvOf)) fun entry hentry =>
      ⟨(hknown entry hentry).1, (hknown entry hentry).2.1⟩
  have hcount : (known (msg.fields.map tlvOf)).length = msg.fields.length := by
    rw [← List.length_map (f := fieldOf), hfields]
  have hok : (storeKnown (messageInit msg.type msg.request_id)
      (known (msg.fields.map tlvOf))).1 = true := by
    refine hfits.mpr ⟨fun entry hentry => (hknown entry hentry).2.2, ?_, ?_⟩
    · rw [hcount]
      exact (Nat.zero_add _).trans_le h.count
    · rw [hfields]
      exact (Nat.zero_add _).trans_le h.room
  have hsame : (storeKnown (messageInit msg.type msg.request_id)
      (known (msg.fields.map tlvOf))).2 = msg := by
    rw [hall hok, hfields]
    exact h.assembled.symm
  rw [decodeMessage_eq data hfuel, hframe]
  dsimp only
  rw [hrecords, hhead, decoded, hok, hsame, decide_eq_true htype]
  rfl

end Encoded

end Eular.Ntrs.Codec
