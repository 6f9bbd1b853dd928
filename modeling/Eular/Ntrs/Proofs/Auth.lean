/-
When a probe authorization binds its arguments.

The signed text joins its fields with '|' and the fields may hold a '|'
themselves, so a text may be read in several ways. `Unshiftable` says of
the arguments that theirs is read in one way only; `authorizationBinds_iff`
is that they are bound exactly then.

Chain: `fields_of_signedText` takes the text apart from both ends as far as
it is unambiguous; `eq_of_unshiftable` walks through the cuts that are
left, and `exists_shifted` turns each kind of '|' that `Unshiftable` rules
out into a second reading.
-/
import Eular.Ntrs.Auth

namespace Eular.Ntrs

open Lib

variable {a : ProbeArgs}

-- ==== hex

def ofHex (d : UInt8) : UInt8 := if d < 0x3a then d - 0x30 else d - 0x57

theorem ofHex_kHex (b : UInt8) :
    ofHex (kHex (b >>> 4 &&& 0x0f)) * 16 + ofHex (kHex (b &&& 0x0f)) = b := by
  revert b
  decide +kernel

theorem hexBytes_injective : Function.Injective hexBytes := by
  intro bs
  induction bs with
  | nil =>
    intro cs h
    cases cs with
    | nil => rfl
    | cons c cs => simp [hexBytes] at h
  | cons b bs ih =>
    intro cs h
    cases cs with
    | nil => simp [hexBytes] at h
    | cons c cs =>
      simp only [hexBytes, List.flatMap_cons, List.cons_append, List.nil_append,
        List.cons.injEq] at h
      obtain ⟨hhigh, hlow, hrest⟩ := h
      rw [← ofHex_kHex b, hhigh, hlow, ofHex_kHex c, ih hrest]

theorem hexBytes_ne_nil {bs : List UInt8} (h : bs ≠ []) : hexBytes bs ≠ [] := by
  cases bs with
  | nil => exact absurd rfl h
  | cons b bs => simp [hexBytes]

-- ==== the arguments

/-- A port that a request can be about, in decimal, starts the text or
follows a '|', and a '|' and something else follow it. -/
def PortWithin (s : List UInt8) : Prop :=
  ∃ (p : UInt16) (rest : List UInt8), p ≠ 0 ∧ rest ≠ [] ∧
    (s = decimal p.toNat ++ bar :: rest ∨
      ∃ front, s = front ++ bar :: (decimal p.toNat ++ bar :: rest))

/-- A port that a request can be about stands behind two parts that are
not empty; a '|' or nothing follows it. -/
def PortBehind (s : List UInt8) : Prop :=
  ∃ (a b : List UInt8) (p : UInt16), a ≠ [] ∧ b ≠ [] ∧ p ≠ 0 ∧
    (s = a ++ bar :: b ++ bar :: decimal p.toNat ∨
      ∃ rest, s = a ++ bar :: b ++ bar :: (decimal p.toNat ++ bar :: rest))

/-- The text signed for the arguments is read in one way only. -/
def Unshiftable (a : ProbeArgs) : Prop :=
  ¬ PortWithin a.probeToken ∧ ¬ PortBehind (a.ownerPeerId ++ bar :: a.targetIp) ∧
    (a.targetPort ≠ 0 → a.probeToken ≠ [] →
      bar ∉ a.ownerPeerId.drop 1 ∧ bar ∉ a.targetIp.dropLast)

/-- What `ValidateProbeAuthorization` asks of its arguments. -/
def Admissible (a : ProbeArgs) : Prop :=
  a.ownerPeerId ≠ [] ∧ a.targetIp ≠ [] ∧ a.targetPort ≠ 0 ∧ a.probeToken ≠ []

instance (a : ProbeArgs) : Decidable (Admissible a) :=
  inferInstanceAs (Decidable (_ ∧ _))

theorem bar_not_mem_decimal (n : Nat) : bar ∉ decimal n := by
  intro h
  have hdigit := mem_decimal h
  have hbar : bar.toNat = 124 := rfl
  omega

theorem unshiftable_of_not_mem (howner : bar ∉ a.ownerPeerId)
    (hip : bar ∉ a.targetIp) (htoken : bar ∉ a.probeToken) : Unshiftable a := by
  refine ⟨?_, ?_, fun _ _ => ⟨fun h => howner (List.mem_of_mem_drop h),
    fun h => hip (List.mem_of_mem_dropLast h)⟩⟩
  · rintro ⟨p, rest, -, -, h | ⟨front, h⟩⟩ <;> exact htoken (by simp [h])
  · -- the one '|' there is the one that joins, and none is left in the second part
    rintro ⟨x, y, p, -, -, -, h | ⟨rest, h⟩⟩
    · rw [List.append_assoc, List.cons_append] at h
      rcases cut_eq_cut h with ⟨-, hcut⟩ | ⟨c, -, hcut⟩ | ⟨c, hcut, -⟩
      · exact hip (by simp [hcut])
      · exact hip (by simp [hcut])
      · exact howner (by simp [hcut])
    · rw [List.append_assoc, List.cons_append] at h
      rcases cut_eq_cut h with ⟨-, hcut⟩ | ⟨c, -, hcut⟩ | ⟨c, hcut, -⟩
      · exact hip (by simp [hcut])
      · exact hip (by simp [hcut])
      · exact howner (by simp [hcut])

-- ==== readings

/-- The four fields between the word and the time. -/
def fields (a : ProbeArgs) : List UInt8 :=
  (a.ownerPeerId ++ bar :: a.targetIp) ++ bar :: (decimal a.targetPort.toNat ++ bar :: a.probeToken)

theorem signedText_eq (a : ProbeArgs) :
    signedText a = (ascii "probe" ++ bar :: fields a) ++ bar :: decimal a.expireAtSec.toNat := by
  simp [signedText, fields]

/-- The word and the time are read off the ends; what is between them may
be read in several ways. -/
theorem signedText_eq_iff {a b : ProbeArgs} :
    signedText a = signedText b ↔ a.expireAtSec = b.expireAtSec ∧ fields a = fields b := by
  constructor
  · intro h
    rw [signedText_eq, signedText_eq] at h
    obtain ⟨hfront, htime⟩ := cut_last (bar_not_mem_decimal _) (bar_not_mem_decimal _) h
    refine ⟨UInt64.toNat_inj.1 (decimal_inj.1 htime), ?_⟩
    simpa using hfront
  · rintro ⟨htime, hfields⟩
    rw [signedText_eq, signedText_eq, htime, hfields]

theorem cut_decimal {n : Nat} {t c x : List UInt8}
    (h : decimal n ++ bar :: t = c ++ bar :: x) :
    (decimal n = c ∧ t = x) ∨ ∃ d, c = decimal n ++ bar :: d ∧ t = d ++ bar :: x := by
  rcases cut_eq_cut h with heq | hlater | ⟨d, hd, -⟩
  · exact Or.inl heq
  · exact Or.inr hlater
  · exact absurd (by simp [hd]) (bar_not_mem_decimal n)

theorem eq_of_unshiftable {a b : ProbeArgs} (ha : Unshiftable a) (hb : Admissible b)
    (h : signedText a = signedText b) : a = b := by
  obtain ⟨hwithin, hbehind, hplain⟩ := ha
  obtain ⟨howner, hip, hport, htoken⟩ := hb
  obtain ⟨htime, hfields⟩ := signedText_eq_iff.1 h
  -- where does the second reading see the port?
  rcases cut_eq_cut hfields with ⟨hhead, htail⟩ | ⟨c, -, htail⟩ | ⟨c, hhead, htail⟩
  · -- in the same place: only owner and address can still differ
    obtain ⟨hnum, htok⟩ := cut_first (bar_not_mem_decimal _) (bar_not_mem_decimal _) htail
    have hp : a.targetPort = b.targetPort := UInt16.toNat_inj.1 (decimal_inj.1 hnum)
    obtain ⟨hnoOwner, hnoIp⟩ := hplain (hp ▸ hport) (htok ▸ htoken)
    rcases cut_eq_cut hhead with ⟨ho, hi⟩ | ⟨d, -, hi⟩ | ⟨d, ho, -⟩
    · cases a
      cases b
      simp_all
    · refine absurd ?_ hnoIp
      rw [hi, List.dropLast_append_of_ne_nil (by simp)]
      simp [List.dropLast_cons_of_ne_nil hip]
    · refine absurd ?_ hnoOwner
      cases hbo : b.ownerPeerId with
      | nil => exact absurd hbo howner
      | cons e es => simp [ho, hbo]
  · -- behind its place: the token holds a port
    refine absurd ?_ hwithin
    rcases cut_decimal htail with ⟨-, htok⟩ | ⟨d, -, htok⟩
    · exact ⟨b.targetPort, b.probeToken, hport, htoken, Or.inl htok⟩
    · exact ⟨b.targetPort, b.probeToken, hport, htoken, Or.inr ⟨d, htok⟩⟩
  · -- before its place: owner and address hold a port
    refine absurd ?_ hbehind
    rcases cut_decimal htail with ⟨hc, -⟩ | ⟨d, hc, -⟩
    · exact ⟨b.ownerPeerId, b.targetIp, b.targetPort, howner, hip, hport,
        Or.inl (by rw [hhead, hc])⟩
    · exact ⟨b.ownerPeerId, b.targetIp, b.targetPort, howner, hip, hport,
        Or.inr ⟨d, by rw [hhead, hc]⟩⟩

-- ==== shifted texts

theorem exists_two_parts (x y : List UInt8) {z : List UInt8} (hz : z ≠ []) :
    ∃ o i, o ≠ [] ∧ i ≠ [] ∧ o ++ bar :: i = x ++ bar :: y ++ bar :: z := by
  cases x with
  | nil => exact ⟨bar :: y, z, by simp, hz, by simp⟩
  | cons e x => exact ⟨e :: x, y ++ bar :: z, by simp, by simp, by simp⟩

/-- Arguments `a` is mistaken for. -/
def Shifted (a b : ProbeArgs) : Prop :=
  a ≠ b ∧ Admissible b ∧ signedText a = signedText b

theorem exists_shifted_of_portWithin (h : PortWithin a.probeToken) :
    ∃ b, Shifted a b := by
  obtain ⟨p, rest, hp, hrest, htok⟩ := h
  -- the old port, and what is before the new one, go to the address
  obtain ⟨z, hz, hshort, hcut⟩ : ∃ z : List UInt8, z ≠ [] ∧ rest.length < a.probeToken.length ∧
      decimal a.targetPort.toNat ++ bar :: a.probeToken
        = z ++ bar :: (decimal p.toNat ++ bar :: rest) := by
    rcases htok with htok | ⟨front, htok⟩
    · refine ⟨decimal a.targetPort.toNat, decimal_ne_nil _, ?_, by rw [htok]⟩
      rw [htok, List.length_append, List.length_cons]
      omega
    · refine ⟨decimal a.targetPort.toNat ++ bar :: front, by simp, ?_, by simp [htok]⟩
      rw [htok, List.length_append, List.length_cons, List.length_append, List.length_cons]
      omega
  obtain ⟨o, i, ho, hi, hparts⟩ := exists_two_parts a.ownerPeerId a.targetIp hz
  refine ⟨⟨o, i, p, rest, a.expireAtSec⟩, ?_, ⟨ho, hi, hp, hrest⟩, signedText_eq_iff.2 ⟨rfl, ?_⟩⟩
  · intro heq
    rw [heq] at hshort
    exact lt_irrefl _ hshort
  · show fields a = (o ++ bar :: i) ++ bar :: (decimal p.toNat ++ bar :: rest)
    rw [hparts, fields, hcut]
    simp

theorem exists_shifted_of_portBehind
    (h : PortBehind (a.ownerPeerId ++ bar :: a.targetIp)) : ∃ b, Shifted a b := by
  obtain ⟨o, i, p, ho, hi, hp, hhead⟩ := h
  -- what is behind the new port goes to the token
  obtain ⟨t, ht, hlong, hcut⟩ : ∃ t : List UInt8, t ≠ [] ∧ a.probeToken.length < t.length ∧
      fields a = (o ++ bar :: i) ++ bar :: (decimal p.toNat ++ bar :: t) := by
    rcases hhead with hhead | ⟨rest, hhead⟩
    · refine ⟨decimal a.targetPort.toNat ++ bar :: a.probeToken, by simp, ?_, ?_⟩
      · rw [List.length_append, List.length_cons]
        omega
      · simp [fields, hhead]
    · refine ⟨rest ++ bar :: (decimal a.targetPort.toNat ++ bar :: a.probeToken), by simp, ?_, ?_⟩
      · rw [List.length_append, List.length_cons, List.length_append, List.length_cons]
        omega
      · simp [fields, hhead]
  refine ⟨⟨o, i, p, t, a.expireAtSec⟩, ?_, ⟨ho, hi, hp, ht⟩, signedText_eq_iff.2 ⟨rfl, hcut⟩⟩
  intro heq
  rw [heq] at hlong
  exact lt_irrefl _ hlong

theorem exists_shifted_of_owner (hport : a.targetPort ≠ 0)
    (htoken : a.probeToken ≠ []) (h : bar ∈ a.ownerPeerId.drop 1) : ∃ b, Shifted a b := by
  cases ho : a.ownerPeerId with
  | nil => simp [ho] at h
  | cons e es =>
    have hmem : bar ∈ es := by simpa [ho] using h
    obtain ⟨x, y, hxy⟩ := List.append_of_mem hmem
    refine ⟨{ a with ownerPeerId := e :: x, targetIp := y ++ bar :: a.targetIp }, ?_,
      ⟨by simp, by simp, hport, htoken⟩, signedText_eq_iff.2 ⟨rfl, ?_⟩⟩
    · intro heq
      have hlen := congrArg (fun b : ProbeArgs => b.ownerPeerId.length) heq
      simp [ho, hxy] at hlen
    · simp [fields, ho, hxy]

theorem exists_shifted_of_ip (hport : a.targetPort ≠ 0)
    (htoken : a.probeToken ≠ []) (h : bar ∈ a.targetIp.dropLast) : ∃ b, Shifted a b := by
  obtain ⟨x, y, hxy⟩ := List.append_of_mem h
  have hip : a.targetIp ≠ [] := by
    intro hnil
    simp [hnil] at h
  obtain ⟨last, hsplit⟩ : ∃ last, a.targetIp = x ++ bar :: (y ++ [last]) := by
    have hlast := List.dropLast_append_getLast hip
    rw [hxy] at hlast
    exact ⟨a.targetIp.getLast hip, by simpa using hlast.symm⟩
  refine ⟨{ a with ownerPeerId := a.ownerPeerId ++ bar :: x, targetIp := y ++ [last] }, ?_,
    ⟨by simp, by simp, hport, htoken⟩, signedText_eq_iff.2 ⟨rfl, ?_⟩⟩
  · intro heq
    have hlen := congrArg (fun b : ProbeArgs => b.ownerPeerId.length) heq
    simp at hlen
  · simp [fields, hsplit]

theorem exists_shifted (h : ¬ Unshiftable a) : ∃ b, Shifted a b := by
  by_cases hwithin : PortWithin a.probeToken
  · exact exists_shifted_of_portWithin hwithin
  by_cases hbehind : PortBehind (a.ownerPeerId ++ bar :: a.targetIp)
  · exact exists_shifted_of_portBehind hbehind
  by_cases hport : a.targetPort = 0
  · exact absurd ⟨hwithin, hbehind, fun h0 => absurd hport h0⟩ h
  by_cases htoken : a.probeToken = []
  · exact absurd ⟨hwithin, hbehind, fun _ h0 => absurd htoken h0⟩ h
  by_cases howner : bar ∈ a.ownerPeerId.drop 1
  · exact exists_shifted_of_owner hport htoken howner
  by_cases hip : bar ∈ a.targetIp.dropLast
  · exact exists_shifted_of_ip hport htoken hip
  exact absurd ⟨hwithin, hbehind, fun _ _ => ⟨howner, hip⟩⟩ h

-- ==== binding

section Keyed

variable {hmacSha256 : List UInt8 → List UInt8 → List UInt8} {secret : List UInt8}

theorem validate_iff {b : ProbeArgs} {authorization : List UInt8} :
    validateProbeAuthorization hmacSha256 secret b authorization = true ↔
      Admissible b ∧ authorization ≠ [] ∧
        authorization = mintProbeAuthorization hmacSha256 secret b := by
  unfold validateProbeAuthorization Admissible
  split
  · rename_i hmissing
    simp only [Bool.or_eq_true, List.isEmpty_iff, beq_iff_eq] at hmissing
    simp only [Bool.false_eq_true, false_iff]
    tauto
  · rename_i hpresent
    simp only [Bool.or_eq_true, List.isEmpty_iff, beq_iff_eq] at hpresent
    rw [beq_iff_eq]
    tauto

/-- What an authorization is accepted for: admissible arguments whose text
is the one signed. -/
theorem validate_mint_iff (hinj : Function.Injective (hmacSha256 secret))
    (hne : ∀ m, hmacSha256 secret m ≠ []) (hsecret : secret ≠ []) {a b : ProbeArgs} :
    validateProbeAuthorization hmacSha256 secret b (mintProbeAuthorization hmacSha256 secret a)
      = true
      ↔ Admissible b ∧ signedText a = signedText b := by
  have hmint : ∀ c, mintProbeAuthorization hmacSha256 secret c
      = hexBytes (hmacSha256 secret (signedText c)) := by
    intro c
    simp [mintProbeAuthorization, hmacSha256Hex, hsecret]
  rw [validate_iff, hmint, hmint]
  constructor
  · rintro ⟨hadm, -, heq⟩
    exact ⟨hadm, hinj (hexBytes_injective heq)⟩
  · rintro ⟨hadm, heq⟩
    exact ⟨hadm, hexBytes_ne_nil (hne _), by rw [heq]⟩

theorem validate_no_secret (b : ProbeArgs) (authorization : List UInt8) :
    validateProbeAuthorization hmacSha256 [] b authorization = false := by
  unfold validateProbeAuthorization mintProbeAuthorization
  cases authorization <;> simp

/-- An authorization binds its arguments exactly when their text is read in
one way only, or there is no secret. -/
theorem authorizationBinds_iff (hinj : Function.Injective (hmacSha256 secret))
    (hne : ∀ m, hmacSha256 secret m ≠ []) (a : ProbeArgs) :
    ((∀ b, validateProbeAuthorization hmacSha256 secret b
          (mintProbeAuthorization hmacSha256 secret a) = true → a = b) ∧
        ∀ b authorization, validateProbeAuthorization hmacSha256 [] b authorization = false)
      ↔ secret = [] ∨ Unshiftable a := by
  constructor
  · rintro ⟨hbinds, -⟩
    by_cases hsecret : secret = []
    · exact Or.inl hsecret
    · right
      by_contra hshift
      obtain ⟨b, hne', hadm, htext⟩ := exists_shifted hshift
      exact hne' (hbinds b ((validate_mint_iff hinj hne hsecret).2 ⟨hadm, htext⟩))
  · intro h
    refine ⟨fun b hb => ?_, validate_no_secret⟩
    by_cases hsecret : secret = []
    · rw [hsecret, validate_no_secret] at hb
      cases hb
    · obtain ⟨hadm, htext⟩ := (validate_mint_iff hinj hne hsecret).1 hb
      exact eq_of_unshiftable (h.resolve_left hsecret) hadm htext

end Keyed

-- ==== the source's test

/-- The arguments of the source's own test. -/
def testArgs : ProbeArgs where
  ownerPeerId := ascii "peer-a"
  targetIp := ascii "192.0.2.10"
  targetPort := 33478
  probeToken := ascii "token"
  expireAtSec := 12345

/-- HMAC-SHA256 under the key of the source's test: its digest of the text
signed there, and any other text by itself. -/
def testHmac (key message : List UInt8) : List UInt8 :=
  if key = ascii "secret" ∧ message = signedText testArgs then
    [0xbe, 0x59, 0xf5, 0xdc, 0x62, 0x43, 0xbd, 0xb3, 0xc3, 0xc6, 0x61, 0x2c, 0xa8, 0x2c, 0x13, 0x7b,
      0x3e, 0x9c, 0x40, 0xfa, 0x39, 0xc5, 0x60, 0x5f, 0xa9, 0x5c, 0xde, 0xdc, 0x91, 0xb1, 0xcd,
      0x80]
  else
    0x00 :: message

theorem testHmac_injective (key : List UInt8) : Function.Injective (testHmac key) := by
  intro m m' h
  unfold testHmac at h
  split at h <;> split at h
  · rename_i hm hm'
    rw [hm.2, hm'.2]
  · simp at h
  · simp at h
  · simpa using h

theorem testHmac_ne_nil (key m : List UInt8) : testHmac key m ≠ [] := by
  unfold testHmac
  split <;> simp

/-- The authorization of the test is good for the test's arguments only. -/
theorem authorizationBinds_iff_test :
    (∀ b, validateProbeAuthorization testHmac (ascii "secret") b
        (mintProbeAuthorization testHmac (ascii "secret") testArgs) = true → testArgs = b) ∧
      ∀ b authorization, validateProbeAuthorization testHmac [] b authorization = false :=
  (authorizationBinds_iff (testHmac_injective _) (testHmac_ne_nil _) testArgs).2
    (Or.inr (unshiftable_of_not_mem (by decide) (by decide) (by decide)))

/-- A request of `a|b` for `c` is as good as one of `a` for `b|c`. -/
theorem not_authorizationBinds :
    ¬ ∀ (hmacSha256 : List UInt8 → List UInt8 → List UInt8) (secret : List UInt8),
      Function.Injective (hmacSha256 secret) → (∀ m, hmacSha256 secret m ≠ []) →
        ∀ a b, validateProbeAuthorization hmacSha256 secret b
          (mintProbeAuthorization hmacSha256 secret a) = true → a = b := by
  intro h
  have hshifted := h testHmac (ascii "secret") (testHmac_injective _) (testHmac_ne_nil _)
    ⟨ascii "a|b", ascii "c", 80, ascii "t", 12345⟩ ⟨ascii "a", ascii "b|c", 80, ascii "t", 12345⟩
    ((validate_mint_iff (testHmac_injective _) (testHmac_ne_nil _) (by decide)).2
      ⟨by decide, by decide⟩)
  revert hshifted
  decide

end Eular.Ntrs
