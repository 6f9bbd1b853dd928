/-
When a STUN message that was built is parsed as it was meant.

The attributes tile the body, so both loops of the parser stop at each of them
and at the end of the message (`verifyLoop_attrs`, `parseLoop_attrs`). What
comes back is then what was last added of every type, as long as no attribute
was too many, the header stands in network order, its type is below 0x200,
there is no error code, and a FINGERPRINT at the end is that of the message
(`Restorable`). The reads are related to the attributes one by one
(`ReadsAs`), so an error code is seen to be lost whatever is around it.
-/
import Eular.Ntrs.Proofs.StunAttributes

namespace Eular.Ntrs.Stun

open Lib

variable {env : Env} {m : Nat → UInt8} {p : Nat} {id : Vector UInt8 12}
variable {l : List Attr}

-- ==== loops

/-- The bytes of attributes, one behind the other. -/
abbrev bodyBytes (env : Env) (id : Vector UInt8 12) (l : List Attr) : List UInt8 :=
  l.flatMap (bytesOf env id)

/-- An attribute at the front fits if all of them do, and takes at least its header. -/
theorem fit_cons {a : Attr} (hlen : (bodyBytes env id (a :: l)).length ≤ 65535)
    (ha : Regular a) :
    (bytesOf env id a).length ≤ 65535 ∧ (bodyBytes env id l).length ≤ 65535
      ∧ 4 ≤ (bytesOf env id a).length ∧ (bytesOf env id a).length % 4 = 0
      ∧ (bodyBytes env id (a :: l)).length
        = (bytesOf env id a).length + (bodyBytes env id l).length := by
  have hsum : (bodyBytes env id (a :: l)).length
      = (bytesOf env id a).length + (bodyBytes env id l).length := by
    unfold bodyBytes
    rw [List.flatMap_cons, List.length_append]
  have hfit : (bytesOf env id a).length ≤ 65535 := by omega
  have hblock := length_bytesOf ha hfit
  unfold STUN_ATTR_HDR_SIZE at hblock
  exact ⟨hfit, by omega, by omega, by omega, hsum⟩

theorem body_words (hl : ∀ a ∈ l, Regular a)
    (hlen : (bodyBytes env id l).length ≤ 65535) :
    (bodyBytes env id l).length % 4 = 0 ∧ l.length ≤ (bodyBytes env id l).length := by
  induction l with
  | nil => exact ⟨rfl, Nat.le_refl 0⟩
  | cons a l ih =>
    obtain ⟨ha, hl⟩ := List.forall_mem_cons.1 hl
    obtain ⟨-, hrest, hfour, hmod, hsum⟩ := fit_cons hlen ha
    obtain ⟨hmod', hle⟩ := ih hl hrest
    rw [hsum, List.length_cons]
    omega

/-- The loop of `stun_msg_verify` ends at the end, with the last attribute in hand. -/
theorem verifyLoop_attrs {front : List Attr} {a : Attr} (hl : ∀ b ∈ front ++ [a], Regular b)
    (hlen : (bodyBytes env id (front ++ [a])).length ≤ 65535)
    (h : Holds m p (bodyBytes env id (front ++ [a]))) (hid : Holds m 8 id.toList) {p_end : Nat}
    (hend : p + (bodyBytes env id (front ++ [a])).length = p_end) {fuel : Nat}
    (hfuel : front.length ≤ fuel) :
    verifyLoop m p_end (fuel + 1) p = (p + (bodyBytes env id front).length, p_end) := by
  induction front generalizing p fuel with
  | nil =>
    obtain ⟨hfit, -, -, -, hsum⟩ := fit_cons hlen (hl a (List.mem_singleton.2 rfl))
    obtain ⟨hfirst, -⟩ := holds_append.1 h
    obtain ⟨-, hblock, -⟩ := attr_read (hl a (List.mem_singleton.2 rfl)) hfit hfirst hid
    have hnil : (bodyBytes env id []).length = 0 := rfl
    rw [List.nil_append, hsum, hnil] at hend
    rw [verifyLoop, hblock, if_neg (by omega), hnil]
    exact congrArg (Prod.mk p) hend
  | cons b front ih =>
    obtain ⟨hb, hrest⟩ := List.forall_mem_cons.1 hl
    obtain ⟨hfit, hlen', -, -, hsum⟩ := fit_cons hlen hb
    obtain ⟨hfirst, htail⟩ := holds_append.1 h
    obtain ⟨-, hblock, -⟩ := attr_read hb hfit hfirst hid
    have hpos : (front ++ [a]).length ≤ (bodyBytes env id (front ++ [a])).length :=
      (body_words hrest hlen').2
    rw [List.length_append, List.length_singleton] at hpos
    rw [List.length_cons] at hfuel
    obtain ⟨fuel, rfl⟩ : ∃ n, fuel = n + 1 := ⟨fuel - 1, by omega⟩
    have hsum' : (bodyBytes env id (b :: (front ++ [a]))).length
        = (bytesOf env id b).length + (bodyBytes env id (front ++ [a])).length := hsum
    rw [List.cons_append, hsum'] at hend
    have hfront : (bodyBytes env id (b :: front)).length
        = (bytesOf env id b).length + (bodyBytes env id front).length := List.length_append
    rw [verifyLoop, hblock, if_pos (by omega),
      ih hrest hlen' htail (by omega) (Nat.le_of_succ_le_succ hfuel), hfront, Nat.add_assoc]

/-- The loop of `parse` takes one value of every attribute, in their order. -/
theorem parseLoop_attrs (hl : ∀ a ∈ l, Regular a)
    (hlen : (bodyBytes env id l).length ≤ 65535) (h : Holds m p (bodyBytes env id l))
    (hid : Holds m 8 id.toList) (hend : p + (bodyBytes env id l).length = msgLen m) {fuel : Nat}
    (hfuel : l.length ≤ fuel) (attributes : SortedMap Nat Any) :
    ∃ reads, List.Forall₂ ReadsAs l reads
      ∧ parseLoop env m fuel (if p ≥ msgLen m then none else some p) attributes
        = reads.foldl (fun attributes r => attributes.insert r.1.toNat r.2) attributes := by
  induction l generalizing p fuel attributes with
  | nil =>
    have hp : p ≥ msgLen m := by
      rw [← hend]
      exact Nat.le_refl p
    refine ⟨[], .nil, ?_⟩
    rw [if_pos hp]
    cases fuel with
    | zero => rfl
    | succ fuel => rfl
  | cons a l ih =>
    obtain ⟨ha, hrest⟩ := List.forall_mem_cons.1 hl
    obtain ⟨hfit, hlen', hfour, -, hsum⟩ := fit_cons hlen ha
    obtain ⟨hfirst, htail⟩ := holds_append.1 h
    obtain ⟨htype, hblock, value, hvalue, hreads⟩ := attr_read ha hfit hfirst hid
    rw [List.length_cons] at hfuel
    obtain ⟨fuel, rfl⟩ : ∃ n, fuel = n + 1 := ⟨fuel - 1, by omega⟩
    obtain ⟨reads, hall, hloop⟩ := ih hrest hlen' htail (by omega)
      (show l.length ≤ fuel by omega)
      (attributes.insert a.1.toNat value)
    refine ⟨(a.1, value) :: reads, .cons hreads hall, ?_⟩
    rw [if_neg (by omega), parseLoop, hvalue, htype, List.foldl_cons, ← hloop, nextAttr, hblock]

-- ==== message

namespace Calls

variable (env : Env) (c : Calls)

def header : List UInt8 :=
  inOrder c.turned 2 c.type.toNat ++ bigEndian 2 (accepted (c.lens env))
    ++ inOrder c.turned 4 STUN_MAGIC_COOKIE ++ c.id.toList

theorem length_header : (c.header env).length = STUN_MSG_HDR_SIZE := by
  simp [header, STUN_MSG_HDR_SIZE]

/-- The attributes that fit, in their order, and their length. -/
def keptFrom (l : List Attr) : List Attr × Nat :=
  l.foldl (fun kept a =>
    if kept.2 + (bytesOf env c.id a).length > 65535 then kept
    else (kept.1 ++ [a], kept.2 + (bytesOf env c.id a).length)) ([], 0)

/-- The value that was last added of a type, of the attributes that fit. -/
def value (type : UInt16) : Option Any :=
  (((c.keptFrom env c.offered).1.reverse.find? fun a => a.1.toNat = type.toNat).map Prod.snd)

/-- If there is a FINGERPRINT at the end, it is that of the message in front of it. -/
def FingerprintOk : Prop :=
  ∀ front value, c.offered = front ++ [(STUN_ATTR_FINGERPRINT, .uint32 value)] →
    value = env.crc32 (c.header env ++ bodyBytes env c.id front) ^^^ STUN_XOR_FINGERPRINT

variable {env c}

theorem keptFrom_eq {l : List Attr} (h : (bodyBytes env c.id l).length ≤ 65535) :
    c.keptFrom env l = (l, (bodyBytes env c.id l).length) := by
  induction l using List.reverseRecOn with
  | nil => rfl
  | append_singleton l a ih =>
    rw [bodyBytes, List.flatMap_append, List.flatMap_singleton, List.length_append] at h ⊢
    have hl := ih (by unfold bodyBytes; omega)
    unfold keptFrom at hl ⊢
    rw [List.foldl_append, hl, List.foldl_cons, List.foldl_nil]
    unfold bodyBytes
    rw [if_neg (by omega)]

end Calls

variable {c : Calls} {s : StunMsgBuilder}

theorem Agrees.message_eq (h : Agrees env c s) :
    s.message.2 = c.fill.header env ++ c.fill.body env := by
  have hfill := h.fill
  have hbuf := hfill.buf
  rw [if_pos c.fill_filled, MsgHdr.bytes, hfill.type, hfill.length, hfill.magic, hfill.id] at hbuf
  exact hbuf

theorem holds_message (h : Holds m 0 (c.header env ++ c.body env)) :
    readMem m 0 2 = inOrder c.turned 2 c.type.toNat ∧ msgLen m = 20 + accepted (c.lens env)
      ∧ Holds m 8 c.id.toList ∧ Holds m 0 (c.header env) ∧ Holds m 20 (c.body env) := by
  obtain ⟨hheader, hbody⟩ := holds_append.1 h
  rw [c.length_header] at hbody
  have hparts := hheader
  rw [Calls.header, holds_append, holds_append, holds_append] at hparts
  obtain ⟨⟨⟨htype, hlength⟩, -⟩, hid⟩ := hparts
  simp only [List.length_append, length_inOrder, length_bigEndian] at hlength hid
  have hlt : accepted (c.lens env) < 256 ^ 2 :=
    Nat.lt_of_le_of_lt (accepted_le _) (by decide)
  refine ⟨htype.read (length_inOrder _ 2 _), ?_, hid, hheader, hbody⟩
  rw [msgLen, hlength.read (length_bigEndian 2 _), ofBigEndian_bigEndian, Nat.mod_eq_of_lt hlt]
  rfl

/-- A message is verified exactly if its first byte is 0 or 1 and its fingerprint is right. -/
theorem msgVerify_iff (h : Holds m 0 (c.header env ++ c.body env))
    (hl : ∀ a ∈ c.offered, Regular a) (hfits : (c.body env).length ≤ 65535) :
    msgVerify env m (20 + (c.body env).length) = true
      ↔ (m 0 = 0 ∨ m 0 = 1) ∧ c.FingerprintOk env := by
  obtain ⟨-, hlen, hid, hheader, hbody⟩ := holds_message h
  rw [accepted_of_sum_le (c.length_body env ▸ hfits), ← c.length_body env] at hlen
  obtain ⟨hwords, hcount⟩ := body_words hl hfits
  have hwords : (c.body env).length % 4 = 0 := hwords
  unfold msgVerify
  by_cases hfirst : m 0 ≠ 0 ∧ m 0 ≠ 1
  · rw [if_pos hfirst]
    exact ⟨fun hno => (nomatch hno), fun hok => (hok.1.elim hfirst.1 hfirst.2).elim⟩
  · have hfirst' : m 0 = 0 ∨ m 0 = 1 := by
      rcases not_and_or.1 hfirst with hzero | hone
      · exact .inl (not_not.1 hzero)
      · exact .inr (not_not.1 hone)
    rw [if_neg hfirst, hlen, if_neg (Nat.lt_irrefl _), if_neg (by omega)]
    rcases List.eq_nil_or_concat' c.offered with hnil | ⟨front, a, hlast⟩
    · have hempty : (c.body env).length = 0 := by
        rw [Calls.body, hnil]
        rfl
      rw [if_pos (by rw [hempty]; rfl)]
      refine ⟨fun _ => ⟨hfirst', fun front value hsplit => ?_⟩, fun _ => rfl⟩
      rw [hnil] at hsplit
      exact absurd hsplit.symm (by simp)
    · have hpos : c.offered.length = front.length + 1 := by
        rw [hlast, List.length_append, List.length_singleton]
      have hcount : c.offered.length ≤ (c.body env).length := hcount
      rw [if_neg (by unfold STUN_MSG_HDR_SIZE; omega)]
      have hbytes : c.body env = bodyBytes env c.id (front ++ [a]) := by
        rw [Calls.body, hlast]
      have hsum : (bodyBytes env c.id (front ++ [a])).length
          = (bodyBytes env c.id front).length + (bytesOf env c.id a).length := by
        rw [bodyBytes, List.flatMap_append, List.flatMap_singleton, List.length_append]
      rw [hlast] at hl
      rw [hbytes] at hfits hbody
      have ha := hl a (by simp)
      have hend : 20 + (bodyBytes env c.id (front ++ [a])).length = 20 + (c.body env).length := by
        rw [hbytes]
      have hloop := verifyLoop_attrs hl hfits hbody hid hend
        (show front.length ≤ 19 + (c.body env).length by omega)
      have hfuel : 19 + (c.body env).length + 1 = 20 + (c.body env).length := by omega
      rw [hfuel] at hloop
      have hloop : verifyLoop m (20 + (c.body env).length) (20 + (c.body env).length)
          STUN_MSG_HDR_SIZE = (20 + (bodyBytes env c.id front).length,
            20 + (c.body env).length) := hloop
      rw [hloop]
      dsimp only
      rw [if_neg (not_not.2 rfl)]
      -- the last attribute, at its place
      have hbody' := hbody
      rw [bodyBytes, List.flatMap_append, List.flatMap_singleton, holds_append] at hbody'
      obtain ⟨hfront, hattr⟩ := hbody'
      have hread : readMem m 0 (20 + (bodyBytes env c.id front).length)
          = c.header env ++ bodyBytes env c.id front := by
        have hboth : Holds m 0 (c.header env ++ bodyBytes env c.id front) := by
          refine holds_append.2 ⟨hheader, ?_⟩
          rw [c.length_header]
          exact hfront
        refine hboth.read ?_
        rw [List.length_append, c.length_header]
        rfl
      obtain ⟨htype, -, value, hvalue, -, hsame, -⟩ := attr_read ha (by omega) hattr hid
      rw [htype]
      by_cases hkind : a.1 = STUN_ATTR_FINGERPRINT
      · have huint : attrKind a.1 = .uint32 := by
          rw [hkind]
          decide
        have hvalue' : a.2 = .uint32 (UInt32.ofNat (ofBigEndian (readMem m
            (20 + (bodyBytes env c.id front).length + 4) 4))) := by
          rw [attrValue, htype, huint] at hvalue
          rw [← hsame (by rw [huint]; decide)]
          exact (Option.some_inj.1 hvalue).symm
        rw [if_pos hkind, fingerprintCheck, decide_eq_true_iff, hread]
        constructor
        · intro hcrc
          refine ⟨hfirst', fun front' value' hsplit => ?_⟩
          rw [hlast] at hsplit
          obtain ⟨rfl, hsingle⟩ := List.append_inj' hsplit rfl
          rw [List.singleton_inj.1 hsingle] at hvalue'
          rw [Any.uint32.inj hvalue', hcrc]
        · rintro ⟨-, hok⟩
          refine hok front _ ?_
          rw [hlast, ← hkind, ← hvalue']
      · rw [if_neg hkind]
        refine ⟨fun _ => ⟨hfirst', fun front' value' hsplit => ?_⟩, fun _ => rfl⟩
        rw [hlast] at hsplit
        obtain ⟨-, hsingle⟩ := List.append_inj' hsplit rfl
        exact absurd (congrArg Prod.fst (List.singleton_inj.1 hsingle)) hkind

-- ==== parse

theorem parse_message (h : Holds m 0 (c.header env ++ c.body env))
    (hl : ∀ a ∈ c.offered, Regular a) (hfits : (c.body env).length ≤ 65535)
    (parser : StunMsgParser) :
    ((parser.parse env (some m) (c.header env ++ c.body env).length).1 = true
        ↔ (m 0 = 0 ∨ m 0 = 1) ∧ c.FingerprintOk env)
      ∧ ((parser.parse env (some m) (c.header env ++ c.body env).length).1 = true →
        (parser.parse env (some m) (c.header env ++ c.body env).length).2.msgType
            = UInt16.ofNat (ofBigEndian (inOrder c.turned 2 c.type.toNat))
          ∧ (parser.parse env (some m) (c.header env ++ c.body env).length).2.transactionId = c.id
          ∧ ∃ reads, List.Forall₂ ReadsAs c.offered reads ∧ ∀ type,
            (parser.parse env (some m) (c.header env ++ c.body env).length).2.getAttribute type
              = (reads.reverse.find? fun r => r.1.toNat = type.toNat).map Prod.snd) := by
  obtain ⟨htype, hlen, hid, -, hbody⟩ := holds_message h
  rw [accepted_of_sum_le (c.length_body env ▸ hfits), ← c.length_body env] at hlen
  have hsize : (c.header env ++ c.body env).length = 20 + (c.body env).length := by
    rw [List.length_append, c.length_header]
    rfl
  have hverify := msgVerify_iff h hl hfits
  have hlarge : ¬ 20 + (c.body env).length < STUN_MSG_HDR_SIZE := by
    unfold STUN_MSG_HDR_SIZE
    omega
  rw [hsize, ← hverify]
  unfold StunMsgParser.parse
  dsimp only
  rw [if_neg hlarge]
  cases hok : msgVerify env m (20 + (c.body env).length) with
  | false => exact ⟨Iff.rfl, fun hno => nomatch hno⟩
  | true =>
    refine ⟨Iff.rfl, fun _ => ⟨congrArg (UInt16.ofNat ∘ ofBigEndian) htype, octets_eq hid, ?_⟩⟩
    have hcount := (body_words hl hfits).2
    have hcount : c.offered.length ≤ (c.body env).length := hcount
    obtain ⟨reads, hall, hloop⟩ := parseLoop_attrs hl hfits hbody hid hlen.symm
      (show c.offered.length ≤ msgLen m by omega) .empty
    refine ⟨reads, hall, fun type => ?_⟩
    show (parseLoop env m (msgLen m) (nextAttr m none) .empty).find type.toNat = _
    have hnext : nextAttr m none = if 20 ≥ msgLen m then none else some 20 := rfl
    rw [hnext, hloop]
    have hinsert (t : SortedMap Nat Any) (r : Attr) (k : Nat) :
        (t.insert r.1.toNat r.2).find k = if k = r.1.toNat then some r.2 else t.find k := by
      rw [SortedMap.find_insert]
    exact (get_foldl (g := fun (t : SortedMap Nat Any) k => t.find k) hinsert reads .empty
      type.toNat).trans Option.or_none

-- ==== round trip

/-- The header's length is that of the body, and wherever the message stands it is parsed, to the
type and the id that were set and the value that was last added of every type. -/
def RoundTrips (env : Env) (c : Calls) (bytes : List UInt8) : Prop :=
  bytes.length = STUN_MSG_HDR_SIZE + ofBigEndian ((bytes.drop 2).take 2)
    ∧ ∀ (m : Nat → UInt8) (parser : StunMsgParser), Holds m 0 bytes →
      (parser.parse env (some m) bytes.length).1 = true
        ∧ (parser.parse env (some m) bytes.length).2.msgType = c.type
        ∧ (parser.parse env (some m) bytes.length).2.transactionId = c.id
        ∧ ∀ type, (parser.parse env (some m) bytes.length).2.getAttribute type = c.value env type

/-- The calls after which a message is parsed as it was meant. -/
structure Restorable (env : Env) (c : Calls) : Prop where
  fits : (c.body env).length ≤ 65535
  order : inOrder c.turned 2 c.type.toNat = bigEndian 2 c.type.toNat
  small : c.type.toNat < 0x200
  codes : ∀ a ∈ c.offered, attrKind a.1 ≠ .errcode
  addresses : ∀ a ∈ c.offered, a.2 ≠ .socketAddress .unspec
  fingerprint : c.FingerprintOk env

theorem length_field (env : Env) (c : Calls) :
    ofBigEndian (((c.header env ++ c.body env).drop 2).take 2) = accepted (c.lens env) := by
  have hlt : accepted (c.lens env) < 256 ^ 2 :=
    Nat.lt_of_le_of_lt (accepted_le _) (by decide)
  have hfield : ((c.header env ++ c.body env).drop 2).take 2
      = bigEndian 2 (accepted (c.lens env)) := by
    unfold Calls.header
    simp only [List.append_assoc]
    rw [List.drop_left' (length_inOrder _ 2 _), List.take_left' (length_bigEndian 2 _)]
  rw [hfield, ofBigEndian_bigEndian, Nat.mod_eq_of_lt hlt]

theorem length_iff (env : Env) (c : Calls) :
    (c.header env ++ c.body env).length
        = STUN_MSG_HDR_SIZE + ofBigEndian (((c.header env ++ c.body env).drop 2).take 2)
      ↔ (c.body env).length ≤ 65535 := by
  rw [length_field, List.length_append, c.length_header, c.length_body]
  have hle := accepted_le (c.lens env)
  constructor
  · intro heq
    omega
  · intro hfits
    rw [accepted_of_sum_le hfits]

theorem find_reads {l reads : List Attr} (h : List.Forall₂ ReadsAs l reads) (n : Nat) :
    (l.find? (fun a => a.1.toNat = n) = none ∧ reads.find? (fun r => r.1.toNat = n) = none)
      ∨ ∃ a r, l.find? (fun a => a.1.toNat = n) = some a
        ∧ reads.find? (fun r => r.1.toNat = n) = some r ∧ ReadsAs a r := by
  induction h with
  | nil => exact .inl ⟨rfl, rfl⟩
  | @cons a r l reads hreads hrest ih =>
    by_cases hkey : a.1.toNat = n
    · right
      refine ⟨a, r, List.find?_cons_of_pos (decide_eq_true hkey),
        List.find?_cons_of_pos (decide_eq_true ?_), hreads⟩
      rw [hreads.1]
      exact hkey
    · have hkey' : ¬ r.1.toNat = n := by
        rw [hreads.1]
        exact hkey
      rw [List.find?_cons_of_neg (by simpa using hkey),
        List.find?_cons_of_neg (by simpa using hkey')]
      exact ih

theorem reads_eq {l reads : List Attr} (h : List.Forall₂ ReadsAs l reads)
    (hl : ∀ a ∈ l, attrKind a.1 ≠ .errcode) : reads = l := by
  induction h with
  | nil => rfl
  | @cons a r l reads hreads hrest ih =>
    obtain ⟨ha, hl⟩ := List.forall_mem_cons.1 hl
    rw [ih hl, Prod.ext hreads.1 (hreads.2.1 ha)]

theorem type_bytes {c : Calls} (h : Holds m 0 (c.header env ++ c.body env)) :
    (UInt16.ofNat (ofBigEndian (inOrder c.turned 2 c.type.toNat)) = c.type
        ↔ inOrder c.turned 2 c.type.toNat = bigEndian 2 c.type.toNat)
      ∧ (inOrder c.turned 2 c.type.toNat = bigEndian 2 c.type.toNat →
        ((m 0 = 0 ∨ m 0 = 1) ↔ c.type.toNat < 0x200)) := by
  have hlt : c.type.toNat < 256 ^ 2 := c.type.toNat_lt
  refine ⟨⟨fun heq => ?_, fun heq => ?_⟩, fun heq => ?_⟩
  · have hback := bigEndian_ofBigEndian (inOrder c.turned 2 c.type.toNat)
    rw [length_inOrder] at hback
    have hsmall := ofBigEndian_lt (inOrder c.turned 2 c.type.toNat)
    rw [length_inOrder] at hsmall
    have hsmall : ofBigEndian (inOrder c.turned 2 c.type.toNat) < 2 ^ 16 := hsmall
    have hnat := congrArg UInt16.toNat heq
    rw [UInt16.toNat_ofNat', Nat.mod_eq_of_lt hsmall] at hnat
    rw [hnat] at hback
    exact hback.symm
  · rw [heq, ofBigEndian_bigEndian, Nat.mod_eq_of_lt hlt, UInt16.ofNat_toNat]
  · obtain ⟨hread, -⟩ := holds_message h
    rw [heq] at hread
    have hfirst : m 0 = UInt8.ofNat (c.type.toNat / 256) := (List.cons.inj hread).1
    rw [hfirst]
    constructor
    · rintro (hzero | hone)
      · have hnat := congrArg UInt8.toNat hzero
        rw [UInt8.toNat_ofNat'] at hnat
        have hnat : c.type.toNat / 256 % 256 = 0 := hnat
        omega
      · have hnat := congrArg UInt8.toNat hone
        rw [UInt8.toNat_ofNat'] at hnat
        have hnat : c.type.toNat / 256 % 256 = 1 := hnat
        omega
    · intro hsmall
      rcases (by omega : c.type.toNat / 256 = 0 ∨ c.type.toNat / 256 = 1) with hzero | hone
      · exact .inl (by rw [hzero]; rfl)
      · exact .inr (by rw [hone]; rfl)

/-- A message with regular attributes is parsed as it was meant exactly if it is restorable. -/
theorem roundTrips_iff (hl : ∀ a ∈ c.offered, Regular a) :
    RoundTrips env c (c.header env ++ c.body env) ↔ Restorable env c := by
  constructor
  · rintro ⟨hlength, hparse⟩
    have hfits := (length_iff env c).1 hlength
    have h := holds_getD (c.header env ++ c.body env)
    have hfirst := type_bytes h
    let parser : StunMsgParser := ⟨0, 0, 0, c.id, .empty⟩
    obtain ⟨hok, htype, -, hvalue⟩ := hparse _ parser h
    obtain ⟨hiff, hfields⟩ := parse_message h hl hfits parser
    obtain ⟨hbyte, hprint⟩ := hiff.1 hok
    obtain ⟨htype', -, reads, hall, hfind⟩ := hfields hok
    rw [htype'] at htype
    have horder := hfirst.1.1 htype
    refine ⟨hfits, horder, (hfirst.2 horder).1 hbyte, fun a ha hcode => ?_,
      fun a ha => (hl a ha).unspec, hprint⟩
    -- the last error code is read with another reason
    have hfound := hvalue STUN_ATTR_ERROR_CODE
    rw [hfind, Calls.value, Calls.keptFrom_eq hfits] at hfound
    rcases find_reads (List.forall₂_reverse_iff.2 hall) STUN_ATTR_ERROR_CODE.toNat with
      ⟨hnone, -⟩ | ⟨b, r, hb, hr, hreads⟩
    · have hno := List.find?_eq_none.1 hnone a (List.mem_reverse.2 ha)
      rw [type_of_errcode hcode] at hno
      exact hno (decide_eq_true rfl)
    · rw [hb, hr] at hfound
      have hkey := List.find?_some hb
      have hkey : b.1.toNat = STUN_ATTR_ERROR_CODE.toNat := of_decide_eq_true hkey
      have hkind : attrKind b.1 = .errcode := by
        rw [UInt16.toNat_inj.1 hkey]
        decide
      exact hreads.2.2 hkind (Option.some_inj.1 hfound)
  · intro hok
    refine ⟨(length_iff env c).2 hok.fits, fun m parser h => ?_⟩
    have hfirst := type_bytes h
    obtain ⟨hiff, hfields⟩ := parse_message h hl hok.fits parser
    have hparsed := hiff.2 ⟨(hfirst.2 hok.order).2 hok.small, hok.fingerprint⟩
    obtain ⟨htype, hid, reads, hall, hfind⟩ := hfields hparsed
    refine ⟨hparsed, htype.trans (hfirst.1.2 hok.order), hid, fun type => ?_⟩
    rw [hfind, reads_eq hall hok.codes, Calls.value, Calls.keptFrom_eq hok.fits]

/-- In every run of calls with well typed attributes: a message that is restorable is parsed as it
was meant, and, where every address has a family and no reason has a NUL, only such a message is. -/
theorem stun_round_trip (env : Env) {ops : List StunOp} (h : ∀ op ∈ ops, op.Ok) :
    (Restorable env (run Calls.step .none ops).fill →
        RoundTrips env (run Calls.step .none ops).fill
          (run (StunMsgBuilder.step env) .init ops).message.2)
      ∧ ((∀ a ∈ (run Calls.step .none ops).offered, Regular a) →
        (RoundTrips env (run Calls.step .none ops).fill
            (run (StunMsgBuilder.step env) .init ops).message.2
          ↔ Restorable env (run Calls.step .none ops).fill)) := by
  have hagrees := agrees_run env h
  have htyped := wellTyped_run h
  rw [hagrees.message_eq]
  constructor
  · intro hok
    refine (roundTrips_iff fun a ha => ?_).2 hok
    have hmem := ha
    rw [Calls.fill_offered] at hmem
    exact (htyped a hmem).regular (hok.codes a ha) (hok.addresses a ha)
  · intro hregular
    refine roundTrips_iff ?_
    rwa [Calls.fill_offered]

def zeroEnv : Env :=
  ⟨fun _ => 0, Vector.replicate 24 0, .unspec, fun _ _ => Vector.replicate 24 0, fun _ => 0⟩

/-- A response with a XOR'ed address and a name. -/
def responseOps : List StunOp :=
  [.setMsgType 0x0101, .setTransactionId (Vector.replicate 12 7), .message,
    .addAttribute STUN_ATTR_XOR_MAPPED_ADDRESS
      (.socketAddress (.inet #v[0x1F, 0x90] #v[127, 0, 0, 1])),
    .addAttribute STUN_ATTR_SOFTWARE (.varSize (ascii "eular"))]

theorem stun_round_trip_response :
    RoundTrips zeroEnv (run Calls.step .none responseOps).fill
      (run (StunMsgBuilder.step zeroEnv) .init responseOps).message.2 := by
  refine (stun_round_trip zeroEnv fun op hop => ?_).1
    ⟨by decide +kernel, by decide +kernel, by decide +kernel, by decide +kernel, by decide +kernel,
      fun front value hsplit => ?_⟩
  · simp only [responseOps, List.mem_cons, List.not_mem_nil, or_false] at hop
    rcases hop with rfl | rfl | rfl | rfl | rfl
    all_goals trivial
  · have hlast : (run Calls.step .none responseOps).fill.offered.getLast?
        = some (STUN_ATTR_SOFTWARE, .varSize (ascii "eular")) := by decide +kernel
    rw [hsplit, List.getLast?_concat] at hlast
    have htype : STUN_ATTR_FINGERPRINT = STUN_ATTR_SOFTWARE :=
      congrArg Prod.fst (Option.some_inj.1 hlast)
    exact absurd htype (by decide)

/-- A builder that is used for a second id; an error code; and an attribute that is too large. -/
def failingOps : List (List StunOp) :=
  [[.setMsgType 0x0001, .setTransactionId (Vector.replicate 12 7), .message,
      .setTransactionId (Vector.replicate 12 8)],
    [.setMsgType 0x0111, .setTransactionId (Vector.replicate 12 7),
      .addAttribute STUN_ATTR_ERROR_CODE (.errorCode 400 (ascii "Bad Request"))],
    [.setMsgType 0x0001, .setTransactionId (Vector.replicate 12 7),
      .addAttribute STUN_ATTR_DATA (.varSize (List.replicate 65532 0))]]

theorem not_stun_round_trip :
    ¬ ∃ ops ∈ failingOps, RoundTrips zeroEnv (run Calls.step .none ops).fill
      (run (StunMsgBuilder.step zeroEnv) .init ops).message.2 := by
  rintro ⟨ops, hops, htrip⟩
  have hok : ∀ op ∈ ops, op.Ok := by
    simp only [failingOps, List.mem_cons, List.not_mem_nil, or_false] at hops
    intro op hop
    rcases hops with rfl | rfl | rfl
    all_goals
      simp only [List.mem_cons, List.not_mem_nil, or_false] at hop
    · rcases hop with rfl | rfl | rfl | rfl <;> trivial
    · rcases hop with rfl | rfl | rfl <;> trivial
    · rcases hop with rfl | rfl | rfl <;> trivial
  rw [(agrees_run zeroEnv hok).message_eq] at htrip
  simp only [failingOps, List.mem_cons, List.not_mem_nil, or_false] at hops
  rcases hops with rfl | rfl | rfl
  · have hrestorable := (roundTrips_iff fun a ha => absurd (show a ∈ [] from ha)
      List.not_mem_nil).1 htrip
    exact absurd hrestorable.order (by decide +kernel)
  · have hrestorable := (roundTrips_iff fun a ha => ?_).1 htrip
    · exact absurd (hrestorable.codes _ List.mem_cons_self) (by decide +kernel)
    · rw [List.mem_singleton.1 ha]
      show 0 ∉ ascii "Bad Request"
      decide +kernel
  · have hfits := (length_iff zeroEnv _).1 htrip.1
    have hbody : (Calls.body zeroEnv (run Calls.step .none
        [.setMsgType 0x0001, .setTransactionId (Vector.replicate 12 7),
          .addAttribute STUN_ATTR_DATA (.varSize (List.replicate 65532 0))]).fill)
        = varsizeInit STUN_ATTR_DATA (List.replicate 65532 0) := List.append_nil _
    rw [hbody, varsizeInit, List.length_append, List.length_append, length_attrHdrInit,
      List.length_replicate] at hfits
    omega

end Eular.Ntrs.Stun
