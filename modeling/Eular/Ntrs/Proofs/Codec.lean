/-
What the message codec keeps of a message.

A message that was built, or decoded, is what its fields make of an empty one
(`Regular`), every field one of the table. Of such a message the two ways to
find a field differ in which of several with one tag they take
(`findField_eq`, `findFieldByTag_eq`). Its encoding is a header and the
records of its fields, and the decoder goes through the records of any body
(`decodeFields_eq`) and keeps those it knows (`storeKnown`), all of them
exactly if they fit (`storeKnown_fits`).
-/
import Eular.Ntrs.Codec
import Eular.Ntrs.Proofs.BinaryProtocol

namespace Eular.Ntrs.Codec

open Lib

variable {d : FieldDef}

-- ==== table

theorem findFieldDefByKey_key (h : d ∈ kFieldDefs) :
    findFieldDefByKey d.key = some d := by
  have hall : ∀ d ∈ kFieldDefs, findFieldDefByKey d.key = some d := by decide +kernel
  exact hall d h

theorem findFieldDefByTag_tag (h : d ∈ kFieldDefs) :
    findFieldDefByTag d.tag = some d := by
  have hall : ∀ d ∈ kFieldDefs, findFieldDefByTag d.tag = some d := by decide +kernel
  exact hall d h

theorem tag_ne_zero (h : d ∈ kFieldDefs) : d.tag ≠ 0 := by
  have hall : ∀ d ∈ kFieldDefs, d.tag ≠ 0 := by decide +kernel
  exact hall d h

theorem of_findFieldDefByTag {tag : UInt16} (h : findFieldDefByTag tag = some d) :
    d ∈ kFieldDefs ∧ d.tag = tag := by
  unfold findFieldDefByTag at h
  split at h
  · have htag := List.find?_some h
    exact ⟨List.mem_reverse.mp (List.mem_of_find?_eq_some h), of_decide_eq_true htag⟩
  · have htag := List.find?_some h
    exact ⟨List.mem_of_find?_eq_some h, of_decide_eq_true htag⟩

theorem key_eq_iff {d e : FieldDef} (hd : d ∈ kFieldDefs) (he : e ∈ kFieldDefs) :
    d.key = e.key ↔ d.tag = e.tag := by
  constructor
  · intro h
    have hsame := findFieldDefByKey_key hd
    rw [h, findFieldDefByKey_key he] at hsame
    rw [Option.some_inj.mp hsame]
  · intro h
    have hsame := findFieldDefByTag_tag hd
    rw [h, findFieldDefByTag_tag he] at hsame
    rw [Option.some_inj.mp hsame]

-- ==== regular

/-- A value as it is added or decoded. -/
def Normal : FieldValue → Prop
  | .bytes value => value.length < 2 ^ 16
  | .bool value => value = 0 ∨ value = 1
  | _ => True

def FieldOk (f : MessageField) : Prop :=
  ∃ d ∈ kFieldDefs, f.key = some d.key ∧ f.tag = d.tag ∧ valueType f.value = d.type
    ∧ Normal f.value

/-- The storage that fields take. -/
def storage (fields : List MessageField) : Nat := (fields.map fun f => stored f.value).sum

variable (type : UInt8) (request_id : UInt32) (fields : List MessageField)

/-- The message that fields make. -/
def assembled : Message :=
  fields.foldl Message.push (messageInit type request_id)

structure Message.Regular (msg : Message) : Prop where
  assembled : msg = assembled msg.type msg.request_id msg.fields
  ok : ∀ f ∈ msg.fields, FieldOk f
  count : msg.fields.length ≤ MAX_FIELDS
  room : storage msg.fields ≤ STORAGE_SIZE

theorem foldl_push (msg : Message) :
    (fields.foldl Message.push msg).fields = msg.fields ++ fields
      ∧ (fields.foldl Message.push msg).storage_len = msg.storage_len + storage fields
      ∧ (fields.foldl Message.push msg).type = msg.type
      ∧ (fields.foldl Message.push msg).request_id = msg.request_id := by
  induction fields generalizing msg with
  | nil => exact ⟨(List.append_nil _).symm, rfl, rfl, rfl⟩
  | cons f fields ih =>
    obtain ⟨hfields, hstorage, htype, hid⟩ := ih (msg.push f)
    refine ⟨?_, ?_, htype, hid⟩
    · rw [List.foldl_cons, hfields]
      exact List.append_assoc _ _ _
    · rw [List.foldl_cons, hstorage]
      unfold storage
      rw [List.map_cons, List.sum_cons]
      exact Nat.add_assoc _ _ _

theorem fields_assembled :
    (assembled type request_id fields).fields = fields := (foldl_push fields _).1

theorem storage_len_assembled :
    (assembled type request_id fields).storage_len = storage fields :=
  (foldl_push fields _).2.1.trans (Nat.zero_add _)

theorem regular_assembled {type : UInt8} {request_id : UInt32} {fields : List MessageField}
    (hok : ∀ f ∈ fields, FieldOk f) (hcount : fields.length ≤ MAX_FIELDS)
    (hroom : storage fields ≤ STORAGE_SIZE) : (assembled type request_id fields).Regular := by
  obtain ⟨hfields, -, htype, hid⟩ := foldl_push fields (messageInit type request_id)
  have hfields : (assembled type request_id fields).fields = fields := hfields
  constructor
  · rw [hfields]
    show _ = assembled (assembled type request_id fields).type _ _
    rw [show (assembled type request_id fields).type = type from htype,
      show (assembled type request_id fields).request_id = request_id from hid]
  · rwa [hfields]
  · rwa [hfields]
  · rwa [hfields]

theorem regular_messageInit :
    (messageInit type request_id).Regular :=
  @regular_assembled type request_id [] (fun _ h => nomatch h) (Nat.zero_le _) (Nat.zero_le _)

variable {msg : Message}

theorem Message.Regular.storage_len_eq (h : msg.Regular) :
    msg.storage_len = storage msg.fields := by
  have hlen := storage_len_assembled msg.type msg.request_id msg.fields
  rwa [← h.assembled] at hlen

theorem Message.Regular.push (h : msg.Regular) {f : MessageField} (hf : FieldOk f)
    (hcount : msg.fields.length < MAX_FIELDS)
    (hroom : msg.storage_len + stored f.value ≤ STORAGE_SIZE) : (msg.push f).Regular := by
  have heq : msg.push f = Codec.assembled msg.type msg.request_id (msg.fields ++ [f]) := by
    unfold Codec.assembled
    rw [List.foldl_append]
    show msg.push f = (Codec.assembled msg.type msg.request_id msg.fields).push f
    rw [← h.assembled]
  rw [heq]
  refine regular_assembled ?_ ?_ ?_
  · intro g hg
    rcases List.mem_append.mp hg with hg | hg
    · exact h.ok g hg
    · rw [List.mem_singleton.mp hg]
      exact hf
  · rw [List.length_append, List.length_singleton]
    omega
  · have hlen := h.storage_len_eq
    unfold storage at hlen ⊢
    rw [List.map_append, List.sum_append, ← hlen]
    simpa using hroom

-- ==== finding

theorem tag_index_assembled {t : Nat} (ht : t < TAG_INDEX_SIZE) :
    ((assembled type request_id fields).tag_index t = -1 ∧ ∀ f ∈ fields, f.tag.toNat ≠ t)
      ∨ ∃ before f after, fields = before ++ f :: after
        ∧ (assembled type request_id fields).tag_index t = before.length
        ∧ f.tag.toNat = t ∧ ∀ g ∈ after, g.tag.toNat ≠ t := by
  induction fields using List.reverseRecOn with
  | nil => exact .inl ⟨rfl, fun _ h => nomatch h⟩
  | append_singleton fields f ih =>
    have hpush : assembled type request_id (fields ++ [f])
        = (assembled type request_id fields).push f := by
      unfold assembled
      rw [List.foldl_append]
      rfl
    rw [hpush]
    by_cases hf : f.tag.toNat = t
    · refine .inr ⟨fields, f, [], rfl, ?_, hf, fun _ h => nomatch h⟩
      unfold Message.push
      dsimp only
      rw [if_pos ⟨hf.symm, hf ▸ ht⟩, fields_assembled]
    · have hindex : ((assembled type request_id fields).push f).tag_index t
          = (assembled type request_id fields).tag_index t := by
        unfold Message.push
        dsimp only
        rw [if_neg fun hsame => hf hsame.1.symm]
      rw [hindex]
      rcases ih with ⟨hnone, hall⟩ | ⟨before, g, after, rfl, hsome, hg, hafter⟩
      · refine .inl ⟨hnone, fun g hg => ?_⟩
        rcases List.mem_append.mp hg with hg | hg
        · exact hall g hg
        · rw [List.mem_singleton.mp hg]
          exact hf
      · refine .inr ⟨before, g, after ++ [f], by simp, hsome, hg, fun x hx => ?_⟩
        rcases List.mem_append.mp hx with hx | hx
        · exact hafter x hx
        · rw [List.mem_singleton.mp hx]
          exact hf

theorem findFieldByTag_eq (h : msg.Regular) (tag : UInt16) :
    findFieldByTag msg tag
      = (if tag.toNat < TAG_INDEX_SIZE then msg.fields.reverse.find? fun f => f.tag = tag
        else msg.fields.find? fun f => f.tag = tag, msg) := by
  have hfirst (hnone : msg.fields.find? (fun f => decide (f.tag = tag)) = none) :
      msg.fields.findIdx? (fun f => decide (f.tag = tag)) = none := by
    rw [List.findIdx?_eq_none_iff]
    intro f hf
    simpa using List.find?_eq_none.mp hnone f hf
  unfold findFieldByTag
  dsimp only
  by_cases ht : tag.toNat < TAG_INDEX_SIZE
  · rw [if_pos ht]
    have hindex := tag_index_assembled msg.type msg.request_id msg.fields ht
    rw [← h.assembled] at hindex
    rcases hindex with ⟨hindex, hall⟩ | ⟨before, f, after, hfields, hindex, hf, hafter⟩
    · have hnone : ∀ f ∈ msg.fields, ¬ f.tag = tag := fun f hf heq => hall f hf (heq ▸ rfl)
      have hfind : msg.fields.find? (fun f => decide (f.tag = tag)) = none := by
        rw [List.find?_eq_none]
        intro f hf
        simpa using hnone f hf
      have hreverse : msg.fields.reverse.find? (fun f => decide (f.tag = tag)) = none := by
        rw [List.find?_eq_none]
        intro f hf
        simpa using hnone f (List.mem_reverse.mp hf)
      rw [if_neg (by rw [hindex]; omega), hfirst hfind, hreverse]
    · have hget : msg.fields[(msg.tag_index tag.toNat).toNat]? = some f := by
        rw [hindex, hfields]
        simp
      have hreverse : msg.fields.reverse.find? (fun f => decide (f.tag = tag)) = some f := by
        rw [hfields, List.reverse_append, List.reverse_cons, List.append_assoc, List.find?_append]
        have hnone : after.reverse.find? (fun f => decide (f.tag = tag)) = none := by
          rw [List.find?_eq_none]
          intro g hg heq
          exact hafter g (List.mem_reverse.mp hg) (by rw [of_decide_eq_true heq])
        have htag : f.tag = tag := UInt16.toNat_inj.mp hf
        rw [hnone, Option.none_or, List.singleton_append,
          List.find?_cons_of_pos (by simpa using htag)]
      rw [if_pos ⟨ht, by rw [hindex]; omega⟩, hget, hreverse]
  · rw [if_neg fun hsmall => ht hsmall.1, if_neg ht]
    cases hfind : msg.fields.find? (fun f => decide (f.tag = tag)) with
    | none => rw [hfirst hfind]
    | some f =>
      cases hidx : msg.fields.findIdx? (fun f => decide (f.tag = tag)) with
      | none =>
        have hnot := List.findIdx?_eq_none_iff.mp hidx f (List.mem_of_find?_eq_some hfind)
        have hf := List.find?_some hfind
        rw [hf] at hnot
        cases hnot
      | some i =>
        dsimp only
        rw [if_neg ht]
        obtain ⟨hi, hp, hbefore⟩ := List.findIdx?_eq_some_iff_getElem.mp hidx
        have hfound : msg.fields.find? (fun f => decide (f.tag = tag)) = some msg.fields[i] :=
          List.find?_eq_some_iff_getElem.mpr
            ⟨hp, i, hi, rfl, fun j hj => by simpa using hbefore j hj⟩
        rw [← hfind, hfound, List.getElem?_eq_getElem hi]

theorem findField_eq (h : msg.Regular) (hd : d ∈ kFieldDefs) :
    findField msg d.key = msg.fields.find? fun f => f.tag = d.tag := by
  unfold findField
  refine List.find?_congr fun f hf => ?_
  obtain ⟨e, he, hkey, htag, -⟩ := h.ok f hf
  rw [hkey, htag]
  rw [decide_eq_decide, Option.some_inj]
  exact key_eq_iff he hd

-- ==== accessors

/-- What every accessor answers. -/
structure Answers where
  string : List UInt8
  bytes : Option (List UInt8)
  bool : Option Bool
  u8 : Option UInt8
  u16 : Option UInt16
  u32 : Option UInt32
  i32 : Option Int32
  u64 : Option UInt64

def answers (field : Option MessageField) : Answers :=
  ⟨stringOf field, bytesOf field, boolOf field, u8Of field, u16Of field, u32Of field, i32Of field,
    u64Of field⟩

def byKey (msg : Message) (key : String) : Answers :=
  ⟨messageGetString msg key, messageGetBytes msg key, messageGetBool msg key, messageGetU8 msg key,
    messageGetU16 msg key, messageGetU32 msg key, messageGetI32 msg key, messageGetU64 msg key⟩

def byTag (msg : Message) (tag : UInt16) : Answers :=
  ⟨messageGetStringByTag msg tag, messageGetBytesByTag msg tag, messageGetBoolByTag msg tag,
    messageGetU8ByTag msg tag, messageGetU16ByTag msg tag, messageGetU32ByTag msg tag,
    messageGetI32ByTag msg tag, messageGetU64ByTag msg tag⟩

theorem byKey_eq (msg : Message) (key : String) : byKey msg key = answers (findField msg key) := rfl

theorem byTag_eq (msg : Message) (tag : UInt16) :
    byTag msg tag = answers (findFieldByTag msg tag).1 := by
  unfold byTag answers messageGetI32ByTag messageGetU64ByTag
  cases hfield : (findFieldByTag msg tag).1 with
  | none =>
    unfold messageGetStringByTag messageGetBytesByTag messageGetBoolByTag messageGetU8ByTag
      messageGetU16ByTag messageGetU32ByTag
    rw [hfield]
    rfl
  | some field =>
    unfold messageGetStringByTag messageGetBytesByTag messageGetBoolByTag messageGetU8ByTag
      messageGetU16ByTag messageGetU32ByTag
    rw [hfield]
    obtain ⟨key, tag, value⟩ := field
    cases value with
    | i32 value => rfl
    | u64 value => rfl
    | _ => simp [i32Of, u64Of]

theorem answers_value {f g : Option MessageField}
    (h : f.map MessageField.value = g.map MessageField.value) : answers f = answers g := by
  unfold answers stringOf bytesOf boolOf u8Of u16Of u32Of i32Of u64Of
  rw [h]

theorem answers_inj {f g : MessageField} (hf : Normal f.value) (hg : Normal g.value)
    (h : answers (some f) = answers (some g)) : f.value = g.value := by
  obtain ⟨_, _, v⟩ := f
  obtain ⟨_, _, w⟩ := g
  unfold answers stringOf bytesOf boolOf u8Of u16Of u32Of i32Of u64Of at h
  rw [Answers.mk.injEq] at h
  obtain ⟨-, hbytes, hbool, hu8, hu16, hu32, hi32, hu64⟩ := h
  cases v with
  | bytes v =>
    cases w with
    | bytes w => exact congrArg FieldValue.bytes (Option.some_inj.mp hbytes)
    | _ => cases hbytes
  | bool v =>
    cases w with
    | bool w =>
      have hsame : decide (v ≠ 0) = decide (w ≠ 0) := Option.some_inj.mp hbool
      rcases hf with rfl | rfl
      · rcases hg with rfl | rfl
        · rfl
        · exact absurd hsame (by decide)
      · rcases hg with rfl | rfl
        · exact absurd hsame (by decide)
        · rfl
    | _ => cases hbool
  | u8 v =>
    cases w with
    | u8 w => exact congrArg FieldValue.u8 (Option.some_inj.mp hu8)
    | _ => cases hu8
  | u16 v =>
    cases w with
    | u16 w => exact congrArg FieldValue.u16 (Option.some_inj.mp hu16)
    | _ => cases hu16
  | u32 v =>
    cases w with
    | u32 w => exact congrArg FieldValue.u32 (Option.some_inj.mp hu32)
    | _ => cases hu32
  | i32 v =>
    cases w with
    | i32 w => exact congrArg FieldValue.i32 (Option.some_inj.mp hi32)
    | _ => cases hi32
  | u64 v =>
    cases w with
    | u64 w => exact congrArg FieldValue.u64 (Option.some_inj.mp hu64)
    | _ => cases hu64

/-- Of the fields that have a small tag, the first and the last have one value. -/
def Consistent (msg : Message) (tag : UInt16) : Prop :=
  tag.toNat < TAG_INDEX_SIZE →
    (msg.fields.find? fun f => f.tag = tag).map MessageField.value
      = (msg.fields.reverse.find? fun f => f.tag = tag).map MessageField.value

theorem byKey_eq_byTag_iff (h : msg.Regular) (hd : d ∈ kFieldDefs) :
    byKey msg d.key = byTag msg d.tag ↔ Consistent msg d.tag := by
  rw [byKey_eq, byTag_eq, findField_eq h hd, findFieldByTag_eq h, Consistent]
  by_cases hsmall : d.tag.toNat < TAG_INDEX_SIZE
  · simp only [hsmall, if_true, true_implies]
    constructor
    · intro heq
      cases hfirst : msg.fields.find? (fun f => decide (f.tag = d.tag)) with
      | none =>
        have hnone : msg.fields.reverse.find? (fun f => decide (f.tag = d.tag)) = none := by
          rw [List.find?_eq_none] at hfirst ⊢
          exact fun f hf => hfirst f (List.mem_reverse.mp hf)
        rw [hnone]
      | some f =>
        cases hlast : msg.fields.reverse.find? (fun f => decide (f.tag = d.tag)) with
        | none =>
          rw [List.find?_eq_none] at hlast
          exact absurd (List.find?_some hfirst)
            (hlast f (List.mem_reverse.mpr (List.mem_of_find?_eq_some hfirst)))
        | some g =>
          rw [hfirst, hlast] at heq
          have hnormal {x : MessageField} (hx : x ∈ msg.fields) : Normal x.value := by
            obtain ⟨_, _, _, _, _, hx⟩ := h.ok x hx
            exact hx
          exact congrArg some (answers_inj (hnormal (List.mem_of_find?_eq_some hfirst))
            (hnormal (List.mem_reverse.mp (List.mem_of_find?_eq_some hlast))) heq)
    · exact answers_value
  · simp only [hsmall, if_false, false_implies]

end Eular.Ntrs.Codec
