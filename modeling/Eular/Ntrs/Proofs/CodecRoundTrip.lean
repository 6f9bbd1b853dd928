/-
Building, encoding and decoding messages.

What is built by calls for fields of the table is regular (`regular_build`),
so it has the round trip of regular messages. Three things go wrong, and each
is told by when it does not: a string is stored as it is if its length fits
16 bits (`faithful_iff`), the two accessors of a field agree if its first
and its last value are one (`byKey_eq_byTag_iff`), and a decode that fails
leaves nothing behind if the first record it knows is where it fails
(`decodes_iff`).
-/
import Eular.Ntrs.Proofs.CodecFrames

namespace Eular.Ntrs.Codec

open Lib Binary

-- ==== calls

/-- What a call is given; a string has no NUL. -/
inductive Given where
  | string (value : Option {text : List UInt8 // 0 ∉ text})
  | bytes (data : Option (Nat → UInt8)) (len : UInt16)
  | bool (value : Bool)
  | u8 (value : UInt8)
  | u16 (value : UInt16)
  | u32 (value : UInt32)
  | i32 (value : Int32)
  | u64 (value : UInt64)

namespace Given

def type : Given → FieldType
  | string _ => .bytes
  | bytes _ _ => .bytes
  | bool _ => .bool
  | u8 _ => .u8
  | u16 _ => .u16
  | u32 _ => .u32
  | i32 _ => .i32
  | u64 _ => .u64

def value : Given → FieldValue
  | string value => .bytes (value.elim [] Subtype.val)
  | bytes data len => bytesAt data len
  | bool value => boolean value
  | u8 value => .u8 value
  | u16 value => .u16 value
  | u32 value => .u32 value
  | i32 value => .i32 value
  | u64 value => .u64 value

/-- The value that is passed on. -/
def passed : Given → FieldValue
  | string value => narrowed (value.elim [] Subtype.val)
  | given => given.value

end Given

structure AddCall where
  field : FieldDef
  byTag : Bool
  given : Given

namespace AddCall

/-- For a field of the table, with its type. -/
def WellTyped (c : AddCall) : Prop := c.field ∈ kFieldDefs ∧ c.given.type = c.field.type

def run (msg : Message) (c : AddCall) : Bool × Message :=
  match c.byTag, c.given with
  | false, .string value => messageAddString msg c.field.key (value.map Subtype.val)
  | true, .string value => messageAddStringByTag msg c.field.tag (value.map Subtype.val)
  | false, .bytes data len => messageAddBytes msg c.field.key data len
  | true, .bytes data len => messageAddBytesByTag msg c.field.tag data len
  | false, .bool value => messageAddBool msg c.field.key value
  | true, .bool value => messageAddBoolByTag msg c.field.tag value
  | false, .u8 value => messageAddU8 msg c.field.key value
  | true, .u8 value => messageAddU8ByTag msg c.field.tag value
  | false, .u16 value => messageAddU16 msg c.field.key value
  | true, .u16 value => messageAddU16ByTag msg c.field.tag value
  | false, .u32 value => messageAddU32 msg c.field.key value
  | true, .u32 value => messageAddU32ByTag msg c.field.tag value
  | false, .i32 value => messageAddI32 msg c.field.key value
  | true, .i32 value => messageAddI32ByTag msg c.field.tag value
  | false, .u64 value => messageAddU64 msg c.field.key value
  | true, .u64 value => messageAddU64ByTag msg c.field.tag value

def fieldWith (c : AddCall) (value : FieldValue) : MessageField :=
  ⟨some c.field.key, c.field.tag, value⟩

/-- The call stores the value behind the other fields, or fails and changes nothing. -/
def Faithful (c : AddCall) (msg : Message) : Prop :=
  c.run msg = (true, msg.push (c.fieldWith c.given.value)) ∨ c.run msg = (false, msg)

/-- A string is shorter than 2^16 bytes, or there is no room for what is passed on of it. -/
def Kept (c : AddCall) (msg : Message) : Prop :=
  match c.given with
  | .string (some text) => text.1.length < 2 ^ 16 ∨ msg.Full (narrowed text.1)
  | _ => True

/-- A pointer to nothing that is said to have bytes. -/
def NoData (c : AddCall) : Prop :=
  match c.given with
  | .bytes none len => len ≠ 0
  | _ => False

variable {c : AddCall} {msg : Message}

theorem append_eq (h : c.WellTyped) (msg : Message) (value : FieldValue) :
    appendField msg c.field.key value
        = (if msg.Full value then (false, msg) else (true, msg.push (c.fieldWith value)))
      ∧ appendFieldByTag msg c.field.tag value
        = (if msg.Full value then (false, msg) else (true, msg.push (c.fieldWith value))) := by
  constructor
  · unfold appendField
    rw [findFieldDefByKey_key h.1]
    rfl
  · unfold appendFieldByTag
    rw [findFieldDefByTag_tag h.1]
    rfl

theorem run_eq (h : c.WellTyped) (msg : Message) :
    (c.NoData ∧ c.run msg = (false, msg))
      ∨ (¬ c.NoData ∧ c.run msg = if msg.Full c.given.passed then (false, msg)
        else (true, msg.push (c.fieldWith c.given.passed))) := by
  obtain ⟨field, byTag, given⟩ := c
  obtain ⟨hkey, htag⟩ := append_eq h msg given.passed
  cases given with
  | bytes data len =>
    cases data with
    | none =>
      by_cases hlen : len ≠ 0
      · refine .inl ⟨hlen, ?_⟩
        cases byTag with
        | false => exact if_pos ⟨rfl, hlen⟩
        | true => exact if_pos ⟨rfl, hlen⟩
      · refine .inr ⟨hlen, ?_⟩
        cases byTag with
        | false => exact (if_neg fun hno => hlen hno.2).trans hkey
        | true => exact (if_neg fun hno => hlen hno.2).trans htag
    | some data =>
      refine .inr ⟨id, ?_⟩
      cases byTag with
      | false => exact hkey
      | true => exact htag
  | string value =>
    refine .inr ⟨id, ?_⟩
    cases value with
    | none =>
      cases byTag with
      | false => exact hkey
      | true => exact htag
    | some text =>
      cases byTag with
      | false => exact hkey
      | true => exact htag
  | _ =>
    refine .inr ⟨id, ?_⟩
    cases byTag with
    | false => exact hkey
    | true => exact htag

theorem narrowed_of_lt {text : List UInt8} (h : text.length < 2 ^ 16) :
    narrowed text = .bytes text := by
  unfold narrowed
  rw [UInt16.toNat_ofNat_of_lt' h, List.take_length]

theorem normal_passed (given : Given) : Normal given.passed := by
  cases given with
  | string value =>
    exact (List.length_take_le _ _).trans_lt (UInt16.toNat_lt _)
  | bytes data len =>
    cases data with
    | none => exact Nat.two_pow_pos 16
    | some data =>
      show (readMem data 0 len.toNat).length < 2 ^ 16
      rw [length_readMem]
      exact len.toNat_lt
  | bool value =>
    cases value with
    | false => exact .inl rfl
    | true => exact .inr rfl
  | _ => trivial

theorem push_inj {f g : MessageField} (h : msg.push f = msg.push g) : f = g := by
  have hfields := congrArg Message.fields h
  exact List.head_eq_of_cons_eq (List.append_cancel_left hfields)

theorem faithful_iff (h : c.WellTyped) : c.Faithful msg ↔ c.Kept msg := by
  have hsame (hvalue : c.given.passed = c.given.value) : c.Faithful msg := by
    unfold Faithful
    rw [← hvalue]
    rcases run_eq h msg with ⟨-, hrun⟩ | ⟨-, hrun⟩
    · exact .inr hrun
    · rw [hrun]
      split
      · exact .inr rfl
      · exact .inl rfl
  unfold Kept
  cases hgiven : c.given with
  | string value =>
    cases value with
    | none =>
      refine iff_of_true (hsame ?_) trivial
      rw [hgiven]
      rfl
    | some text =>
      show c.Faithful msg ↔ (text.1.length < 2 ^ 16 ∨ msg.Full (narrowed text.1))
      by_cases hshort : text.1.length < 2 ^ 16
      · refine iff_of_true (hsame ?_) (.inl hshort)
        rw [hgiven]
        exact narrowed_of_lt hshort
      · have hrun := (run_eq h msg).resolve_left fun hno => by
          have hfalse := hno.1
          rw [NoData, hgiven] at hfalse
          exact hfalse
        rw [hgiven] at hrun
        have hpassed : (Given.string (some text)).passed = narrowed text.1 := rfl
        rw [hpassed] at hrun
        rw [or_iff_right hshort, Faithful, hrun.2, hgiven]
        constructor
        · intro hfaithful
          by_contra hroom
          rw [if_neg hroom] at hfaithful
          rcases hfaithful with hpush | hfail
          · have hvalue := congrArg MessageField.value (push_inj (congrArg Prod.snd hpush))
            have hcut : text.1.take (UInt16.ofNat text.1.length).toNat = text.1 :=
              FieldValue.bytes.inj hvalue
            have hlength := congrArg List.length hcut
            rw [List.length_take] at hlength
            have hlt := UInt16.toNat_lt (UInt16.ofNat text.1.length)
            omega
          · cases hfail
        · intro hfull
          rw [if_pos hfull]
          exact .inr rfl
  | _ =>
    refine iff_of_true (hsame ?_) trivial
    rw [hgiven]
    rfl

/-- The message that calls build. -/
def build (type : UInt8) (request_id : UInt32) (calls : List AddCall) : Message :=
  calls.foldl (fun msg c => (c.run msg).2) (messageInit type request_id)

theorem regular_run (h : c.WellTyped) (hmsg : msg.Regular) :
    (c.run msg).2.Regular ∧ (c.run msg).2.type = msg.type := by
  rcases run_eq h msg with ⟨-, hrun⟩ | ⟨-, hrun⟩
  · rw [hrun]
    exact ⟨hmsg, rfl⟩
  · rw [hrun]
    split
    · exact ⟨hmsg, rfl⟩
    · rename_i hroom
      refine ⟨hmsg.push ⟨c.field, h.1, rfl, rfl, ?_, normal_passed _⟩ ?_ ?_, rfl⟩
      · rw [← h.2]
        cases c.given with
        | _ => rfl
      · exact not_le.mp fun hcount => hroom (.inl hcount)
      · have hbefore := hmsg.room
        rw [← hmsg.storage_len_eq] at hbefore
        unfold Message.Full at hroom
        show msg.storage_len + stored c.given.passed ≤ STORAGE_SIZE
        cases hvalue : c.given.passed with
        | bytes value =>
          rw [hvalue] at hroom
          have hfits := fun hfull => hroom (.inr ⟨rfl, hfull⟩)
          exact not_lt.mp hfits
        | _ => exact hbefore

theorem regular_build {calls : List AddCall} (h : ∀ c ∈ calls, c.WellTyped) (type : UInt8)
    (request_id : UInt32) :
    (build type request_id calls).Regular ∧ (build type request_id calls).type = type := by
  unfold build
  suffices hall : ∀ msg : Message, msg.Regular →
      (calls.foldl (fun msg c => (c.run msg).2) msg).Regular
        ∧ (calls.foldl (fun msg c => (c.run msg).2) msg).type = msg.type from
    hall _ (regular_messageInit type request_id)
  induction calls with
  | nil => exact fun msg hmsg => ⟨hmsg, rfl⟩
  | cons c calls ih =>
    intro msg hmsg
    obtain ⟨hregular, htype⟩ := regular_run (h c List.mem_cons_self) hmsg
    obtain ⟨hlast, hsame⟩ := ih (fun x hx => h x (List.mem_cons_of_mem _ hx)) _ hregular
    exact ⟨hlast, hsame.trans htype⟩

end AddCall

-- ==== decoding

section Decoding

variable {msg : Message} {data : Nat → UInt8} {len fuel : Nat}

theorem readMem_congr {data' : Nat → UInt8} (h : ∀ i < len, data' i = data i) {offset n : Nat}
    (hle : offset + n ≤ len) : readMem data' offset n = readMem data offset n := by
  refine List.map_congr_left fun i hi => h _ ?_
  have hi := List.mem_range.mp hi
  omega

theorem decodeMessage_congr {data' : Nat → UInt8} (h : ∀ i < len, data' i = data i)
    (hfuel : len ≤ fuel) : decodeMessage data' len fuel = decodeMessage data len fuel := by
  have hget {w offset : Nat} (hle : offset + w ≤ len) :
      getBe data' w offset = getBe data w offset := by
    unfold getBe
    rw [readMem_congr h hle]
  have hsize : frameSizeFromHeader data' len = frameSizeFromHeader data len := by
    unfold frameSizeFromHeader
    by_cases hshort : len < FRAME_HDR_SIZE
    · rw [if_pos hshort, if_pos hshort]
    · unfold FRAME_HDR_SIZE at *
      rw [if_neg hshort, if_neg hshort, hget (by omega), hget (by omega), h 4 (by omega)]
  rw [decodeMessage_eq data' hfuel, decodeMessage_eq data hfuel]
  unfold frameOf
  rw [hsize]
  cases hfound : (frameSizeFromHeader data len).filter
      fun size => decide (size ≤ len ∧ FRAME_HDR_SIZE ≤ size) with
  | none => rfl
  | some size =>
    obtain ⟨-, hle⟩ := Option.filter_eq_some_iff.mp hfound
    have hle := of_decide_eq_true hle
    have hhead : headed data' = headed data := by
      unfold headed FRAME_HDR_SIZE at *
      rw [h 5 (by omega), hget (by omega)]
    have hrecords : recordsOf data' size = recordsOf data size := by
      unfold recordsOf
      rw [readMem_congr h (by omega)]
    dsimp only
    rw [hhead, hrecords]

def Unreadable (msg : Message) : Prop :=
  (∀ key, findField msg key = none) ∧ ∀ tag, (findFieldByTag msg tag).1 = none

theorem unreadable_iff (h : msg.Regular) : Unreadable msg ↔ msg.fields = [] := by
  constructor
  · rintro ⟨hkey, -⟩
    cases hfields : msg.fields with
    | nil => rfl
    | cons f fields =>
      have hmem : f ∈ msg.fields := by rw [hfields]; exact List.mem_cons_self
      obtain ⟨d, -, hd, -⟩ := h.ok f hmem
      have hnone := List.find?_eq_none.mp (hkey d.key) f hmem
      exact absurd (decide_eq_true hd) hnone
  · intro hnil
    constructor
    · intro key
      unfold findField
      rw [hnil]
      rfl
    · intro tag
      rw [findFieldByTag_eq h, hnil]
      split
      · rfl
      · rfl

/-- Encoding works, and what is encoded decodes to the message. -/
def Reencodes (msg : Message) : Prop :=
  (∃ cap bytes, encodeMessage msg cap = some bytes)
    ∧ ∀ cap bytes, encodeMessage msg cap = some bytes →
      ∀ data, readMem data 0 bytes.length = bytes → ∀ fuel, bytes.length ≤ fuel →
        decodeMessage data bytes.length fuel = some (true, msg)

/-- Decoding ends, and fails with nothing to read or makes a message that has the round trip. -/
def Decodes (data : Nat → UInt8) (len fuel : Nat) : Prop :=
  ∃ ok msg, decodeMessage data len fuel = some (ok, msg)
    ∧ (ok = false → Unreadable msg) ∧ (ok = true → Reencodes msg)

/-- Of a frame that is all there: the records of the table fit, there is nothing behind them and
the type is known; or the first of the records of the table, if there is one, does not fit. -/
def AllOrNothing (data : Nat → UInt8) (len : Nat) : Prop :=
  ∀ size, frameOf data len = some size →
    (Fits (known (recordsOf data size).1) ∧ (recordsOf data size).2.length < TLV_HDR_SIZE
        ∧ data 5 ≠ 0)
      ∨ ∀ entry ∈ (known (recordsOf data size).1).head?, ¬ Fits [entry]

theorem mem_known {l : List Tlv} {entry : FieldDef × List UInt8} (h : entry ∈ known l) :
    entry.1 ∈ kFieldDefs ∧ entry.2.length < 2 ^ 16 := by
  obtain ⟨t, -, ht⟩ := List.mem_filterMap.mp h
  obtain ⟨d, hd, rfl⟩ := Option.map_eq_some_iff.mp ht
  exact ⟨(of_findFieldDefByTag hd).1, t.value.2⟩

theorem fits_singleton_iff (type : UInt8) (request_id : UInt32)
    (entry : FieldDef × List UInt8) :
    ¬ Fits [entry] ↔ (messageInit type request_id).Refuses entry.1 entry.2 := by
  rw [← not_iff_not, not_not, not_refuses_iff (regular_messageInit type request_id)]
  constructor
  · rintro ⟨hlength, -, hroom⟩
    refine ⟨Nat.zero_lt_succ _, hlength entry List.mem_cons_self, ?_⟩
    exact (Nat.zero_add _).trans_le hroom
  · rintro ⟨-, hlength, hroom⟩
    refine ⟨?_, Nat.one_le_of_lt (Nat.lt_succ_self 95), (Nat.zero_add _).symm.trans_le hroom⟩
    intro x hx
    rw [List.mem_singleton.mp hx]
    exact hlength

theorem reencodes (h : msg.Regular) (htype : msg.type ≠ 0) : Reencodes msg :=
  ⟨exists_encodeMessage h, fun _ _ hencode _ hdata _ hfuel =>
    decodeMessage_encoded h htype hencode hdata hfuel⟩

theorem decodes_iff (hfuel : len ≤ fuel) : Decodes data len fuel ↔ AllOrNothing data len := by
  unfold Decodes AllOrNothing
  rw [decodeMessage_eq data hfuel]
  cases frameOf data len with
  | none =>
    refine iff_of_true ⟨false, messageInit 0 0, rfl, fun _ => ?_, Bool.noConfusion⟩
      fun _ h => by cases h
    exact (unreadable_iff (regular_messageInit 0 0)).mpr rfl
  | some size =>
    have hone (P : Nat → Prop) : (∀ size', some size = some size' → P size') ↔ P size :=
      ⟨fun h => h size rfl, fun h size' hsize => Option.some_inj.mp hsize ▸ h⟩
    rw [hone]
    dsimp only
    generalize recordsOf data size = read
    have hinit : (headed data).Regular := regular_messageInit _ _
    obtain ⟨hregular, hall, hfits, hnone⟩ :=
      storeKnown_spec hinit (l := known read.1) fun entry => mem_known
    have hout (ok : Bool) (msg : Message) :
        (∃ ok' msg', some (ok, msg) = some (ok', msg') ∧ (ok' = false → Unreadable msg')
          ∧ (ok' = true → Reencodes msg'))
        ↔ (ok = false → Unreadable msg) ∧ (ok = true → Reencodes msg) := by
      constructor
      · rintro ⟨ok', msg', heq, h⟩
        cases heq
        exact h
      · exact fun h => ⟨ok, msg, rfl, h⟩
    have hkept : (decoded (headed data) read).2.Regular := hregular
    rw [hout, unreadable_iff hkept]
    cases hstored : (storeKnown (headed data) (known read.1)).1 with
    | false =>
      -- either the first record of the table does not fit, or one has been kept
      have hfail : (decoded (headed data) read).1 = false := by
        rw [decoded, hstored, Bool.false_and]
      rw [hfail, Bool.false_and]
      have hnofit : ¬ Fits (known read.1) := by
        intro hfit
        have hok := hfits.mpr ⟨hfit.length, (Nat.zero_add _).trans_le hfit.count,
          (Nat.zero_add _).trans_le hfit.room⟩
        rw [hstored] at hok
        cases hok
      rw [or_iff_right fun h => hnofit h.1]
      refine (and_iff_left Bool.noConfusion).trans ?_
      refine (forall_prop_of_true rfl).trans ((hnone hstored).trans ?_)
      constructor
      · rintro ⟨entry, rest, hknown, hrefuses⟩ x hx
        rw [hknown] at hx
        cases hx
        exact (fits_singleton_iff _ _ entry).mpr hrefuses
      · intro hfirst
        cases hknown : known read.1 with
        | nil =>
          rw [hknown] at hstored
          cases hstored
        | cons entry rest =>
          rw [hknown] at hfirst
          exact ⟨entry, rest, rfl, (fits_singleton_iff _ _ entry).mp (hfirst entry rfl)⟩
    | true =>
      have hmsg := hall hstored
      have htype : (decoded (headed data) read).2.type = data 5 :=
        (congrArg Message.type hmsg).trans (foldl_push _ _).2.2.1
      have hfields : (decoded (headed data) read).2.fields = (known read.1).map fieldOf :=
        (congrArg Message.fields hmsg).trans (foldl_push _ _).1
      have hfit : Fits (known read.1) := by
        obtain ⟨hlength, hcount, hroom⟩ := hfits.mp hstored
        exact ⟨hlength, (Nat.zero_add _).symm.trans_le hcount,
          (Nat.zero_add _).symm.trans_le hroom⟩
      have hok : (decoded (headed data) read).1 = decide (read.2.length < TLV_HDR_SIZE) := by
        rw [decoded, hstored, Bool.true_and]
      rw [hok, htype, hfields, List.map_eq_nil_iff]
      constructor
      · rintro ⟨hbad, -⟩
        by_cases hend : read.2.length < TLV_HDR_SIZE ∧ data 5 ≠ 0
        · exact .inl ⟨hfit, hend⟩
        · right
          have hnil := hbad (by rw [← Bool.decide_and]; exact decide_eq_false hend)
          rw [hnil]
          exact fun x hx => by cases hx
      · intro h
        refine ⟨fun hbad => ?_, fun hgood => ?_⟩
        · rcases h with ⟨-, hend⟩ | hfirst
          · rw [← Bool.decide_and, decide_eq_true hend] at hbad
            cases hbad
          · cases hknown : known read.1 with
            | nil => rfl
            | cons entry rest =>
              have hentry := hfirst entry (by rw [hknown]; rfl)
              rw [hknown] at hfit
              refine absurd ⟨fun x hx => ?_, ?_, ?_⟩ hentry
              · rw [List.mem_singleton.mp hx]
                exact hfit.length entry List.mem_cons_self
              · exact (Nat.succ_le_succ (Nat.zero_le _)).trans hfit.count
              · refine le_trans ?_ hfit.room
                show stored _ + 0 ≤ stored _ + storage (rest.map fieldOf)
                omega
        · rw [← Bool.decide_and, decide_eq_true_eq] at hgood
          exact reencodes hregular (by rw [htype]; exact hgood.2)

end Decoding

-- ==== round trip

/-- A call stores what it is given unless it cuts a string; the accessors of a field of a message
that was built agree where its first and its last value do; what was encoded is decoded, and all
accessors answer as before; and bytes are decoded, or refused with nothing to read, where all of
their records fit or the first that is known does not. -/
theorem codec_round_trip (msg : Message) (c : AddCall) :
    (c.WellTyped → (c.Faithful msg ↔ c.Kept msg))
    ∧ (∀ (type : UInt8) (request_id : UInt32) (calls : List AddCall),
      (∀ c ∈ calls, c.WellTyped) →
      (∀ d ∈ kFieldDefs, byKey (AddCall.build type request_id calls) d.key
          = byTag (AddCall.build type request_id calls) d.tag
        ↔ Consistent (AddCall.build type request_id calls) d.tag)
      ∧ (type ≠ 0 → ∀ cap bytes,
        encodeMessage (AddCall.build type request_id calls) cap = some bytes →
        ∀ data, readMem data 0 bytes.length = bytes → ∀ fuel, bytes.length ≤ fuel →
          ∃ msg, decodeMessage data bytes.length fuel = some (true, msg)
            ∧ (∀ key, byKey msg key = byKey (AddCall.build type request_id calls) key)
            ∧ ∀ tag, byTag msg tag = byTag (AddCall.build type request_id calls) tag))
    ∧ ∀ (data : Nat → UInt8) (len fuel : Nat), len ≤ fuel →
      (∀ data', (∀ i < len, data' i = data i) →
        decodeMessage data' len fuel = decodeMessage data len fuel)
      ∧ (Decodes data len fuel ↔ AllOrNothing data len) := by
  refine ⟨fun h => AddCall.faithful_iff h, fun type request_id calls h => ⟨?_, ?_⟩,
    fun data len fuel hfuel => ⟨fun data' h => decodeMessage_congr h hfuel, decodes_iff hfuel⟩⟩
  · intro d hd
    exact byKey_eq_byTag_iff (AddCall.regular_build h type request_id).1 hd
  · intro htype cap bytes hencode data hdata fuel hfuel
    obtain ⟨hregular, hsame⟩ := AddCall.regular_build h type request_id
    refine ⟨_, decodeMessage_encoded hregular ?_ hencode hdata hfuel, fun _ => rfl, fun _ => rfl⟩
    rwa [hsame]

def threeCalls : List AddCall :=
  [⟨⟨"role", 0x16, .u8⟩, true, .u8 2⟩, ⟨⟨"load", 0x44, .u32⟩, false, .u32 70000⟩,
    ⟨⟨"region", 0x42, .bytes⟩, false, .string (some ⟨[101, 117], by decide⟩)⟩]

/-- A number of eight bits, one of 32 and a string, through the encoding. -/
theorem codec_round_trip_role :
    let bytes := (encodeMessage (AddCall.build 1 7 threeCalls) 64).getD []
    ∃ msg, decodeMessage (fun i => bytes.getD i 0) bytes.length bytes.length = some (true, msg)
      ∧ (∀ key, byKey msg key = byKey (AddCall.build 1 7 threeCalls) key)
      ∧ ∀ tag, byTag msg tag = byTag (AddCall.build 1 7 threeCalls) tag := by
  have htyped : ∀ c ∈ threeCalls, c.WellTyped := by
    intro c hc
    simp only [threeCalls, List.mem_cons, List.not_mem_nil, or_false] at hc
    obtain rfl | rfl | rfl := hc
    all_goals exact ⟨by decide, rfl⟩
  exact ((codec_round_trip (messageInit 1 7) ⟨⟨"role", 0x16, .u8⟩, true, .u8 2⟩).2.1 1 7 threeCalls
    htyped).2 (by decide) 64 _ (by decide +kernel) _ (by decide +kernel) _ le_rfl

/-- The frame of a message with the role 2 and, behind it, a lease of one byte. -/
def cutShort : List UInt8 :=
  frameHeader 1 7 10 ++ [0, 0x16, 0, 1, 2] ++ [0, 0x52, 0, 1, 30]

/-- A string of 2^16 bytes is stored as an empty one; of two values of a field the key finds the
first and the tag the second; and the role of a frame that is refused can be read. -/
theorem not_codec_round_trip :
    ((messageAddString (messageInit 1 7) "token" (some (List.replicate 65536 97))).1 = true
        ∧ messageGetBytes (messageAddString (messageInit 1 7) "token"
          (some (List.replicate 65536 97))).2 "token" = some [])
      ∧ (let msg := (messageAddU8 (messageAddU8 (messageInit 1 7) "role" 1).2 "role" 2).2
        messageGetU8 msg "role" = some 1 ∧ messageGetU8ByTag msg 0x16 = some 2)
      ∧ (decodeMessage (fun i => cutShort.getD i 0) cutShort.length cutShort.length).map
        (fun result => (result.1, messageGetU8 result.2 "role")) = some (false, some 2) := by
  refine ⟨?_, by decide +kernel, by decide +kernel⟩
  have hcut : messageAddString (messageInit 1 7) "token" (some (List.replicate 65536 97))
      = messageAddString (messageInit 1 7) "token" (some []) := by
    unfold messageAddString narrowed
    rw [Option.getD_some, List.length_replicate]
    rfl
  rw [hcut]
  decide +kernel

end Eular.Ntrs.Codec
