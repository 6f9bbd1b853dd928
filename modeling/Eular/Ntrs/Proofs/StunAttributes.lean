/-
What the parser reads of one attribute that the builder wrote.

An attribute is its header and a body of full words (`bytesOf_eq`). Read at its
place it has its type and the length of its block, and its value is the one
that was written; only of an error code the reason comes out three bytes too
long (`attr_read`), since the parser takes the 4 bytes in front of it for one.
-/
import Eular.Ntrs.Proofs.StunBuilder

namespace Eular.Ntrs.Stun

open Lib

variable {env : Env} {m : Nat → UInt8} {p : Nat} {id : Vector UInt8 12}
variable {addr : SocketAddress} {a : Attr}

-- ==== regular

/-- Well typed, with an address that has a family and a reason without a NUL. -/
def Regular (a : Attr) : Prop :=
  match attrKind a.1, a.2 with
  | .sockaddr, .socketAddress addr => addr ≠ .unspec
  | .xorSockaddr, .socketAddress addr => addr ≠ .unspec
  | .uint32, .uint32 _ => True
  | .varsize, .varSize _ => True
  | .errcode, .errorCode _ error_reason => 0 ∉ error_reason
  | _, _ => False

theorem regular_cases (h : Regular a) :
    (∃ addr, a.2 = .socketAddress addr ∧ addr ≠ .unspec
        ∧ (attrKind a.1 = .sockaddr ∨ attrKind a.1 = .xorSockaddr))
      ∨ (∃ value, a.2 = .uint32 value ∧ attrKind a.1 = .uint32)
      ∨ (∃ value, a.2 = .varSize value ∧ attrKind a.1 = .varsize)
      ∨ ∃ code reason, a.2 = .errorCode code reason ∧ 0 ∉ reason ∧ attrKind a.1 = .errcode := by
  unfold Regular at h
  cases hkind : attrKind a.1 <;> cases hvalue : a.2 <;> rw [hkind, hvalue] at h <;>
    simp_all

theorem WellTyped.regular (h : WellTyped a) (hcode : attrKind a.1 ≠ .errcode)
    (haddr : a.2 ≠ .socketAddress .unspec) : Regular a := by
  unfold WellTyped at h
  unfold Regular
  cases hkind : attrKind a.1 <;> cases hvalue : a.2 <;> rw [hkind, hvalue] at h <;>
    simp_all

theorem Regular.unspec (h : Regular a) : a.2 ≠ .socketAddress .unspec := by
  rcases regular_cases h with ⟨addr, hvalue, hne, -⟩ | ⟨value, hvalue, -⟩ | ⟨value, hvalue, -⟩
    | ⟨code, reason, hvalue, -⟩ <;> rw [hvalue]
  · exact fun heq => hne (Any.socketAddress.inj heq)
  · exact fun heq => nomatch heq
  · exact fun heq => nomatch heq
  · exact fun heq => nomatch heq

-- ==== bodies

def addrLen : SocketAddress → Nat
  | .inet _ _ => 8
  | .inet6 _ _ => 20
  | .unspec => 0

def addrBody : SocketAddress → List UInt8
  | .inet port addr => [0, 1] ++ port.toList ++ addr.toList
  | .inet6 port addr => [0, 2] ++ port.toList ++ addr.toList
  | .unspec => []

/-- The length in the header of an attribute. -/
def lenOf : Any → Nat
  | .socketAddress addr => addrLen addr
  | .uint32 _ => 4
  | .varSize value => value.length
  | .errorCode _ error_reason => 4 + error_reason.length
  | .uint16s _ => 0

/-- What stands behind the header of an attribute. -/
def bodyOf (id : Vector UInt8 12) (type : UInt16) : Any → List UInt8
  | .socketAddress addr => addrBody (if attrKind type = .xorSockaddr then addr.xor id else addr)
  | .uint32 value => bigEndian 4 value.toNat
  | .varSize value => value ++ padding value.length
  | .errorCode error_code error_reason =>
    [0, 0, UInt8.ofNat (error_code.toNat / 100), UInt8.ofNat (error_code.toNat % 100)]
      ++ error_reason ++ padding error_reason.length
  | .uint16s _ => []

theorem length_padding (n : Nat) : n + (padding n).length = (n + 3) / 4 * 4 := by
  unfold padding paddingSize
  rw [List.length_replicate]
  split <;> omega

@[simp] theorem length_attrHdrInit (type : UInt16) (length : Nat) :
    (attrHdrInit type length).length = 4 := by
  simp [attrHdrInit]

theorem xor_ne_unspec (h : addr ≠ .unspec) : addr.xor id ≠ .unspec := by
  cases addr with
  | inet port addr => exact fun heq => nomatch heq
  | inet6 port addr => exact fun heq => nomatch heq
  | unspec => exact absurd rfl h

theorem addrLen_xor (addr : SocketAddress) : addrLen (addr.xor id) = addrLen addr := by
  cases addr <;> rfl

theorem length_addrBody (addr : SocketAddress) : (addrBody addr).length = addrLen addr := by
  cases addr <;> simp [addrBody, addrLen]

theorem sockaddrBytes_init (type : UInt16) (h : addr ≠ .unspec) :
    sockaddrBytes env (sockaddrInit type addr)
      = attrHdrInit type (addrLen addr) ++ addrBody addr := by
  cases addr with
  | inet port addr => simp [sockaddrBytes, sockaddrInit, addrBody, addrLen]
  | inet6 port addr => simp [sockaddrBytes, sockaddrInit, addrBody, addrLen]
  | unspec => exact absurd rfl h

theorem length_errcodeInit (error_code : UInt16) (error_reason : List UInt8) :
    (errcodeInit env error_code error_reason).length
      = 8 + error_reason.length + paddingSize error_reason.length :=
  length_readMem _ _ _

theorem errcodeInit_eq (error_code : UInt16) {error_reason : List UInt8} (h : 0 ∉ error_reason)
    (hfit : 4 + error_reason.length < 65536) :
    errcodeInit env error_code error_reason
      = attrHdrInit STUN_ATTR_ERROR_CODE (4 + error_reason.length)
        ++ bodyOf id STUN_ATTR_ERROR_CODE (.errorCode error_code error_reason) := by
  have hpad : padding (4 + error_reason.length) = padding error_reason.length := by
    unfold padding paddingSize
    rw [Nat.add_mod_left]
  unfold errcodeInit
  dsimp only
  rw [cString_of_not_mem h, Nat.mod_eq_of_lt hfit, hpad]
  generalize hattr : attrHdrInit STUN_ATTR_ERROR_CODE (4 + error_reason.length)
    ++ [0, 0, UInt8.ofNat (error_code.toNat / 100), UInt8.ofNat (error_code.toNat % 100)]
    ++ error_reason = attr
  have hlen : attr.length = 4 + (4 + error_reason.length) := by
    rw [← hattr]
    simp
    omega
  have hsize : 9 - 1 + error_reason.length + paddingSize error_reason.length
      = attr.length + (padding error_reason.length).length := by
    rw [hlen, padding, List.length_replicate]
    omega
  -- the padding is stored right behind the reason
  rw [hsize, readMem_add, Nat.zero_add, ← hlen, readMem_writeMem,
    readMem_writeMem_of_le _ _ (by omega), readMem_writeMem, ← hattr]
  simp [bodyOf]

theorem type_of_errcode {type : UInt16} (h : attrKind type = .errcode) :
    type = STUN_ATTR_ERROR_CODE := by
  unfold attrKind at h
  split_ifs at h
  assumption

/-- The bytes of an attribute are its header and its body, if they fit a message. -/
theorem bytesOf_eq (h : Regular a) (hfit : (bytesOf env id a).length ≤ 65535) :
    bytesOf env id a = attrHdrInit a.1 (lenOf a.2) ++ bodyOf id a.1 a.2 := by
  have hid : (StunMsgBuilder.init.setTransactionId id).msg_hdr.tsx_id = id := rfl
  obtain ⟨type, value⟩ := a
  unfold bytesOf StunMsgBuilder.attrBytes at hfit ⊢
  rw [hid] at hfit ⊢
  rcases regular_cases h with ⟨addr, hvalue, hne, hkind | hkind⟩ | ⟨value, hvalue, hkind⟩
    | ⟨value, hvalue, hkind⟩ | ⟨code, reason, hvalue, hno, hkind⟩
  all_goals
    dsimp only at hvalue hkind hfit ⊢
    rw [hvalue, hkind] at hfit
    rw [hvalue, hkind]
    dsimp only at hfit ⊢
  · rw [sockaddrBytes_init type hne, bodyOf, hkind, if_neg (by decide)]
    rfl
  · rw [xorSockaddrInit, sockaddrBytes_init type (xor_ne_unspec hne), bodyOf, hkind, if_pos rfl,
      addrLen_xor]
    rfl
  · rfl
  · exact List.append_assoc _ _ _
  · rw [length_errcodeInit] at hfit
    rw [type_of_errcode hkind, errcodeInit_eq code hno (by omega)]
    rfl

theorem length_bodyOf (h : Regular a) :
    (bodyOf id a.1 a.2).length = (lenOf a.2 + 3) / 4 * 4 := by
  obtain ⟨type, value⟩ := a
  rcases regular_cases h with ⟨addr, hvalue, hne, -⟩ | ⟨value, hvalue, -⟩ | ⟨value, hvalue, -⟩
    | ⟨code, reason, hvalue, -⟩
  all_goals
    dsimp only at hvalue ⊢
    rw [hvalue]
    dsimp only [bodyOf, lenOf]
  · have hlen : addrLen addr = 8 ∨ addrLen addr = 20 := by
      cases addr with
      | inet port addr => exact .inl rfl
      | inet6 port addr => exact .inr rfl
      | unspec => exact absurd rfl hne
    rw [length_addrBody]
    split
    · rw [addrLen_xor]
      omega
    · omega
  · exact length_bigEndian 4 _
  · rw [List.length_append, length_padding]
  · have hpad := length_padding reason.length
    simp only [List.length_append, List.length_cons, List.length_nil]
    omega

theorem length_bytesOf (h : Regular a) (hfit : (bytesOf env id a).length ≤ 65535) :
    (bytesOf env id a).length = STUN_ATTR_HDR_SIZE + (lenOf a.2 + 3) / 4 * 4 := by
  rw [bytesOf_eq h hfit, List.length_append, length_attrHdrInit, length_bodyOf h]
  rfl

-- ==== reading

theorem octets_eq {n : Nat} {v : Vector UInt8 n} (h : Holds m p v.toList) : octets m p n = v := by
  refine Vector.ext fun i hi => ?_
  have hget := holds_getElem h (i := i) (by rwa [Vector.length_toList])
  unfold octets
  rw [Vector.getElem_ofFn, hget, Vector.getElem_toList]

theorem xorBytes_xorBytes {n : Nat} (a b : Vector UInt8 n) : xorBytes (xorBytes a b) b = a := by
  refine Vector.ext fun i hi => ?_
  simp [xorBytes]

theorem xor_xor (addr : SocketAddress) : (addr.xor id).xor id = addr := by
  cases addr <;> simp [SocketAddress.xor, xorBytes_xorBytes]

theorem sockaddrRead_eq (hne : addr ≠ .unspec)
    (h : Holds m (p + 4) (addrBody addr)) : sockaddrRead m p = some addr := by
  cases addr with
  | inet port addr =>
    rw [addrBody, List.append_assoc, holds_append, holds_append, holds_cons, holds_cons] at h
    obtain ⟨⟨-, hfamily, -⟩, hport, haddr⟩ := h
    rw [Vector.length_toList] at haddr
    have hfamily : m (p + 5) = 1 := hfamily
    have hport : octets m (p + 6) 2 = port := octets_eq hport
    have haddr : octets m (p + 8) 4 = addr := octets_eq haddr
    rw [sockaddrRead, if_pos hfamily, hport, haddr]
  | inet6 port addr =>
    rw [addrBody, List.append_assoc, holds_append, holds_append, holds_cons, holds_cons] at h
    obtain ⟨⟨-, hfamily, -⟩, hport, haddr⟩ := h
    rw [Vector.length_toList] at haddr
    have hfamily : m (p + 5) = 2 := hfamily
    have hport : octets m (p + 6) 2 = port := octets_eq hport
    have haddr : octets m (p + 8) 16 = addr := octets_eq haddr
    rw [sockaddrRead, if_neg (by rw [hfamily]; decide), if_pos hfamily, hport, haddr]
  | unspec => exact absurd rfl hne

/-- What is read of an attribute is its value, unless it is an error code; then it never is. -/
def ReadsAs (a r : Attr) : Prop :=
  r.1 = a.1 ∧ (attrKind a.1 ≠ .errcode → r.2 = a.2) ∧ (attrKind a.1 = .errcode → r.2 ≠ a.2)

/-- Read at its place, an attribute has its type and the length of its block, and a value. -/
theorem attr_read (hr : Regular a) (hfit : (bytesOf env id a).length ≤ 65535)
    (h : Holds m p (bytesOf env id a)) (hid : Holds m 8 id.toList) :
    attrType m p = a.1 ∧ attrBlockLen m p = (bytesOf env id a).length
      ∧ ∃ value, attrValue env m p = some value ∧ ReadsAs a (a.1, value) := by
  have hlength := length_bytesOf hr hfit
  rw [bytesOf_eq hr hfit, holds_append, length_attrHdrInit, attrHdrInit, holds_append,
    length_bigEndian] at h
  obtain ⟨⟨htype, hlen⟩, hbody⟩ := h
  have hsmall : lenOf a.2 < 256 ^ 2 := by
    unfold STUN_ATTR_HDR_SIZE at hlength
    omega
  have htype : attrType m p = a.1 := by
    have hlt : a.1.toNat < 256 ^ 2 := a.1.toNat_lt
    unfold attrType
    rw [htype.read (length_bigEndian 2 _), ofBigEndian_bigEndian, Nat.mod_eq_of_lt hlt,
      UInt16.ofNat_toNat]
  have hlen : attrLen m p = lenOf a.2 := by
    unfold attrLen
    rw [hlen.read (length_bigEndian 2 _), ofBigEndian_bigEndian, Nat.mod_eq_of_lt hsmall]
  refine ⟨htype, by rw [attrBlockLen, hlen, hlength], ?_⟩
  unfold attrValue
  rw [htype]
  obtain ⟨type, value⟩ := a
  rcases regular_cases hr with ⟨addr, hvalue, hne, hkind | hkind⟩ | ⟨value, hvalue, hkind⟩
    | ⟨value, hvalue, hkind⟩ | ⟨code, reason, hvalue, hno, hkind⟩
  all_goals
    dsimp only at hvalue hkind hbody hlen ⊢
    rw [hvalue] at hbody hlen ⊢
    rw [hkind]
    dsimp only [bodyOf, lenOf] at hbody hlen ⊢
  · rw [if_neg (by rw [hkind]; decide)] at hbody
    rw [sockaddrRead_eq hne hbody]
    exact ⟨_, rfl, rfl, fun _ => rfl, fun hcode => nomatch hkind.symm.trans hcode⟩
  · rw [if_pos hkind] at hbody
    rw [sockaddrRead_eq (xor_ne_unspec hne) hbody, octets_eq hid, Option.map_some, xor_xor]
    exact ⟨_, rfl, rfl, fun _ => rfl, fun hcode => nomatch hkind.symm.trans hcode⟩
  · have hlt : value.toNat < 256 ^ 4 := value.toNat_lt
    rw [hbody.read (length_bigEndian 4 _), ofBigEndian_bigEndian, Nat.mod_eq_of_lt hlt,
      UInt32.ofNat_toNat]
    exact ⟨_, rfl, rfl, fun _ => rfl, fun hcode => nomatch hkind.symm.trans hcode⟩
  · rw [hlen, (holds_append.1 hbody).1.read rfl]
    exact ⟨_, rfl, rfl, fun _ => rfl, fun hcode => nomatch hkind.symm.trans hcode⟩
  · refine ⟨_, rfl, rfl, fun hcode => absurd hkind hcode, fun _ heq => ?_⟩
    obtain ⟨-, hreason⟩ := Any.errorCode.inj heq
    have hlong := congrArg List.length hreason
    rw [hlen, if_pos (by omega), length_readMem] at hlong
    omega

end Eular.Ntrs.Stun
