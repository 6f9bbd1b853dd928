/-
What a builder of STUN messages holds after any calls.

`Calls` is what the calls have said: the type, the id, and the attributes since
they were cleared. Beside it stand whether the buffer was filled since, and how
often the header was turned round since the type was set (`turned`). The
builder agrees with its calls (`agrees_run`): its buffer is the header and the
bytes of all attributes, also of those that were too many, and its length is
that of the attributes that fitted (`accepted`).
-/
import Eular.Lib.Run
import Eular.Ntrs.StunMsg

namespace Eular.Ntrs.Stun

open Lib

-- ==== calls

/-- An attribute with its type and its value. -/
abbrev Attr := UInt16 × Any

structure Calls where
  type : UInt16
  id : Vector UInt8 12
  idSet : Bool
  offered : List Attr
  filled : Bool
  turned : Bool

namespace Calls

def none : Calls := ⟨STUN_BINDING_REQUEST, Vector.replicate 12 0, false, [], false, false⟩

def fill (c : Calls) : Calls :=
  if c.filled then c else { c with filled := true, turned := !c.turned }

def step (c : Calls) : StunOp → Calls
  | .setMsgType msgType => ⟨msgType, c.id, false, [], false, false⟩
  | .setTransactionId id => { c with id := id, idSet := true, offered := [], filled := false }
  | .addAttribute type value =>
    if c.idSet then { c.fill with offered := c.offered ++ [(type, value)] } else c
  | .clearAttributes => { c with offered := [], filled := false }
  | .message => c.fill

@[simp] theorem fill_id (c : Calls) : c.fill.id = c.id := by unfold fill; split <;> rfl
@[simp] theorem fill_offered (c : Calls) : c.fill.offered = c.offered := by
  unfold fill; split <;> rfl
@[simp] theorem fill_filled (c : Calls) : c.fill.filled = true := by
  unfold fill
  split
  · assumption
  · rfl

end Calls

/-- An attribute of one of the kinds that the builder writes, with a value of its kind. -/
def WellTyped (a : Attr) : Prop :=
  match attrKind a.1, a.2 with
  | .sockaddr, .socketAddress _ => True
  | .xorSockaddr, .socketAddress _ => True
  | .uint32, .uint32 _ => True
  | .varsize, .varSize _ => True
  | .errcode, .errorCode _ _ => True
  | _, _ => False

/-- The attributes that are added are well typed. -/
def StunOp.Ok : StunOp → Prop
  | .addAttribute type value => WellTyped (type, value)
  | _ => True

-- ==== bytes

/-- The bytes of an attribute in a message with this id. -/
def bytesOf (env : Env) (id : Vector UInt8 12) (a : Attr) : List UInt8 :=
  (StunMsgBuilder.init.setTransactionId id).attrBytes env a.1 a.2

theorem attrBytes_eq {a : Attr} (h : WellTyped a) (env : Env) (s : StunMsgBuilder) :
    s.attrBytes env a.1 a.2 = bytesOf env s.msg_hdr.tsx_id a := by
  obtain ⟨type, value⟩ := a
  unfold bytesOf StunMsgBuilder.attrBytes
  unfold WellTyped at h
  dsimp only at h ⊢
  cases hkind : attrKind type <;> rw [hkind] at h <;> cases value <;> first | rfl | cases h

/-- What is left of a length that may not pass 65535. -/
def accepted (lens : List Nat) : Nat :=
  lens.foldl (fun n len => if n + len > 65535 then n else n + len) 0

theorem accepted_concat (lens : List Nat) (len : Nat) :
    accepted (lens ++ [len])
      = if accepted lens + len > 65535 then accepted lens else accepted lens + len := by
  unfold accepted
  rw [List.foldl_append]
  rfl

theorem accepted_le (lens : List Nat) : accepted lens ≤ 65535 := by
  induction lens using List.reverseRecOn with
  | nil => exact Nat.zero_le _
  | append_singleton lens len ih =>
    rw [accepted_concat]
    split
    · exact ih
    · omega

theorem accepted_of_sum_le {lens : List Nat} (h : lens.sum ≤ 65535) : accepted lens = lens.sum := by
  induction lens using List.reverseRecOn with
  | nil => rfl
  | append_singleton lens len ih =>
    rw [List.sum_append, List.sum_singleton] at h
    rw [accepted_concat, ih (by omega), if_neg (by omega), List.sum_append, List.sum_singleton]

namespace Calls

variable (env : Env) (c : Calls)

/-- The bytes of all attributes. -/
def body : List UInt8 := c.offered.flatMap (bytesOf env c.id)

def lens : List Nat := c.offered.map fun a => (bytesOf env c.id a).length

theorem length_body : (c.body env).length = (c.lens env).sum := by
  unfold body lens
  rw [List.length_flatMap]

end Calls

-- ==== agree

/-- A builder holds what its calls have said. -/
structure Agrees (env : Env) (c : Calls) (s : StunMsgBuilder) : Prop where
  idSet : s.tsx_id_set = c.idSet
  id : s.msg_hdr.tsx_id = c.id
  type : s.msg_hdr.type = inOrder c.turned 2 c.type.toNat
  magic : s.msg_hdr.magic = inOrder c.turned 4 STUN_MAGIC_COOKIE
  length : s.msg_hdr.length = bigEndian 2 (accepted (c.lens env))
  buf : s.msg_buf = if c.filled then s.msg_hdr.bytes ++ c.body env else []
  clear : c.filled = false → c.offered = []

variable {env : Env} {c : Calls} {s : StunMsgBuilder}

theorem zero_length : littleEndian 2 0 = bigEndian 2 (accepted []) := by decide

theorem agrees_init (env : Env) : Agrees env .none .init :=
  ⟨rfl, rfl, rfl, rfl, zero_length, rfl, fun _ => rfl⟩

theorem Agrees.length_bytes (h : Agrees env c s) : s.msg_hdr.bytes.length = STUN_MSG_HDR_SIZE := by
  unfold MsgHdr.bytes
  rw [h.type, h.length, h.magic]
  simp [STUN_MSG_HDR_SIZE]

theorem Agrees.fill (h : Agrees env c s) : Agrees env c.fill s.fill := by
  unfold Calls.fill StunMsgBuilder.fill
  cases hfilled : c.filled with
  | true =>
    have hne : s.msg_buf ≠ [] := by
      intro hnil
      have hlen := h.length_bytes
      rw [h.buf, hfilled, if_pos rfl] at hnil
      rw [(List.append_eq_nil_iff.1 hnil).1] at hlen
      cases hlen
    rw [if_neg hne, if_pos rfl]
    exact h
  | false =>
    have hoffered := h.clear hfilled
    have hnil : s.msg_buf = [] := by
      rw [h.buf, hfilled, if_neg Bool.false_ne_true]
    have hlens : c.lens env = [] := by
      rw [Calls.lens, hoffered]
      rfl
    have hlength := h.length
    rw [hlens, ← zero_length] at hlength
    rw [if_pos hnil, if_neg Bool.false_ne_true]
    refine ⟨h.idSet, h.id, ?_, ?_, ?_, ?_, fun hno => nomatch hno⟩
    · show s.msg_hdr.type.reverse = _
      rw [h.type, reverse_inOrder]
    · show s.msg_hdr.magic.reverse = _
      rw [h.magic, reverse_inOrder]
    · show s.msg_hdr.length.reverse = bigEndian 2 (accepted (c.lens env))
      rw [hlength, hlens, ← zero_length]
      decide
    · rw [if_pos rfl]
      unfold Calls.body
      dsimp only
      rw [hoffered]
      exact (List.append_nil _).symm

theorem Agrees.addAttribute (h : Agrees env c s) {a : Attr} (ha : WellTyped a) :
    Agrees env (c.step (.addAttribute a.1 a.2)) (s.addAttribute env a.1 a.2) := by
  unfold Calls.step StunMsgBuilder.addAttribute
  dsimp only
  rw [h.idSet]
  cases hset : c.idSet with
  | false =>
    rw [if_neg Bool.false_ne_true, if_pos rfl]
    exact h
  | true =>
    have hfill := h.fill
    have hbytes : s.fill.attrBytes env a.1 a.2 = bytesOf env c.id a := by
      rw [attrBytes_eq ha, hfill.id, Calls.fill_id]
    have hlens : ({ c.fill with offered := c.offered ++ [a] } : Calls).lens env
        = c.lens env ++ [(bytesOf env c.id a).length] := by
      unfold Calls.lens
      rw [Calls.fill_id, List.map_append]
      rfl
    have hbody : ({ c.fill with offered := c.offered ++ [a] } : Calls).body env
        = c.body env ++ bytesOf env c.id a := by
      unfold Calls.body
      rw [Calls.fill_id, List.flatMap_append, List.flatMap_singleton]
    have hcfill : c.fill.body env = c.body env ∧ c.fill.lens env = c.lens env := by
      unfold Calls.body Calls.lens
      rw [Calls.fill_id, Calls.fill_offered]
      exact ⟨rfl, rfl⟩
    have hbuf := hfill.buf
    rw [Calls.fill_filled, if_pos rfl, hcfill.1] at hbuf
    have hlength := hfill.length
    rw [hcfill.2] at hlength
    have hold : ofBigEndian s.fill.msg_hdr.length = accepted (c.lens env) := by
      rw [hlength, ofBigEndian_bigEndian]
      exact Nat.mod_eq_of_lt (Nat.lt_of_le_of_lt (accepted_le _) (by decide))
    rw [if_pos rfl, if_neg (by decide)]
    rw [hbytes, hold]
    split
    · rename_i hmore
      refine ⟨hfill.idSet, hfill.id, hfill.type, hfill.magic, ?_, ?_, fun hno => ?_⟩
      · rw [hlens, accepted_concat, if_pos hmore]
        exact hlength
      · rw [if_pos c.fill_filled, hbody, hbuf, List.append_assoc]
      · rw [Calls.fill_filled] at hno
        cases hno
    · rename_i hless
      refine ⟨hfill.idSet, hfill.id, hfill.type, hfill.magic, ?_, ?_, fun hno => ?_⟩
      · rw [hlens, accepted_concat, if_neg hless]
      · rw [if_pos c.fill_filled, hbody, hbuf, List.append_assoc, ← hfill.length_bytes,
          List.drop_left]
      · rw [Calls.fill_filled] at hno
        cases hno

theorem agrees_step (op : StunOp) (hop : op.Ok) (h : Agrees env c s) :
    Agrees env (c.step op) (s.step env op) := by
  cases op with
  | setMsgType msgType => exact ⟨rfl, h.id, rfl, rfl, zero_length, rfl, fun _ => rfl⟩
  | setTransactionId id => exact ⟨rfl, rfl, h.type, h.magic, zero_length, rfl, fun _ => rfl⟩
  | addAttribute type value => exact h.addAttribute hop
  | clearAttributes => exact ⟨h.idSet, h.id, h.type, h.magic, zero_length, rfl, fun _ => rfl⟩
  | message => exact h.fill

theorem agrees_run (env : Env) {ops : List StunOp} (h : ∀ op ∈ ops, op.Ok) :
    Agrees env (run Calls.step .none ops) (run (StunMsgBuilder.step env) .init ops) := by
  induction ops using List.reverseRecOn with
  | nil => exact agrees_init env
  | append_singleton ops op ih =>
    unfold run
    rw [List.foldl_append, List.foldl_append]
    exact agrees_step op (h op (List.mem_append_right _ List.mem_cons_self))
      (ih fun op hop => h op (List.mem_append_left _ hop))

theorem wellTyped_run {ops : List StunOp} (h : ∀ op ∈ ops, op.Ok) :
    ∀ a ∈ (run Calls.step .none ops).offered, WellTyped a := by
  refine run_inv (P := fun c : Calls => ∀ a ∈ c.offered, WellTyped a) (fun c op hc hop => ?_)
    (fun _ ha => nomatch ha) (meets_of_forall (fun op hop _ => h op hop) _)
  cases op with
  | setMsgType msgType => exact fun _ ha => nomatch ha
  | setTransactionId id => exact fun _ ha => nomatch ha
  | clearAttributes => exact fun _ ha => nomatch ha
  | message =>
    show ∀ a ∈ c.fill.offered, WellTyped a
    rwa [Calls.fill_offered]
  | addAttribute type value =>
    unfold Calls.step
    dsimp only
    split
    · intro a ha
      rcases List.mem_append.1 ha with hold | hnew
      · exact hc a hold
      · rw [List.mem_singleton.1 hnew]
        exact hop
    · exact hc

end Eular.Ntrs.Stun
