/-
Bytes: numerals of both byte orders, and memory.

`bigEndian w n` is the `w`-byte big-endian form of `n`, as `htobe16`,
`htobe32` and `htobe64` lay it out; `ofBigEndian` reads it back.
`littleEndian` and `ofLittleEndian` are the same for `htole16` and its
like. A buffer is a function from addresses to bytes: `readMem` and
`writeMem` are `memcpy` out of and into it, and a byte nothing was written
to is whatever the buffer happened to hold.

A record is stored field by field, the cursor moving by the width of each:
`packed` is what such stores leave, `Stored` that the fields are there.
-/
import Mathlib

namespace Eular.Lib

-- ==== big endian

/-- The low `w` bytes of `n`, most significant first. -/
def bigEndian : Nat → Nat → List UInt8
  | 0, _ => []
  | w + 1, n => bigEndian w (n / 256) ++ [UInt8.ofNat n]

/-- The number a byte string spells, most significant first. -/
def ofBigEndian (bs : List UInt8) : Nat :=
  bs.foldl (fun acc b => acc * 256 + b.toNat) 0

@[simp] theorem length_bigEndian (w n : Nat) : (bigEndian w n).length = w := by
  induction w generalizing n with
  | zero => rfl
  | succ w ih => simp [bigEndian, ih]

theorem ofBigEndian_append_singleton (bs : List UInt8) (b : UInt8) :
    ofBigEndian (bs ++ [b]) = ofBigEndian bs * 256 + b.toNat := by
  simp [ofBigEndian, List.foldl_append]

theorem ofBigEndian_bigEndian (w n : Nat) : ofBigEndian (bigEndian w n) = n % 256 ^ w := by
  induction w generalizing n with
  | zero => simp [bigEndian, ofBigEndian, Nat.mod_one]
  | succ w ih =>
    have hsplit : n % (256 * 256 ^ w) = n % 256 + 256 * (n / 256 % 256 ^ w) :=
      Nat.mod_mul
    rw [bigEndian, ofBigEndian_append_singleton, ih, UInt8.toNat_ofNat',
      show 256 ^ (w + 1) = 256 * 256 ^ w from Nat.pow_succ', hsplit]
    omega

theorem ofBigEndian_lt (bs : List UInt8) : ofBigEndian bs < 256 ^ bs.length := by
  induction bs using List.reverseRecOn with
  | nil => exact Nat.one_pos
  | append_singleton bs b ih =>
    have hb := b.toNat_lt
    rw [ofBigEndian_append_singleton, List.length_append, List.length_singleton, Nat.pow_succ]
    omega

theorem bigEndian_ofBigEndian (bs : List UInt8) : bigEndian bs.length (ofBigEndian bs) = bs := by
  induction bs using List.reverseRecOn with
  | nil => rfl
  | append_singleton bs b ih =>
    have hb := b.toNat_lt
    have hquot : (ofBigEndian bs * 256 + b.toNat) / 256 = ofBigEndian bs := by omega
    have hlast : UInt8.ofNat (ofBigEndian bs * 256 + b.toNat) = b := by
      rw [← UInt8.toNat_inj, UInt8.toNat_ofNat']
      omega
    rw [ofBigEndian_append_singleton, List.length_append, List.length_singleton, bigEndian,
      hquot, ih, hlast]

-- ==== little endian

/-- The low `w` bytes of `n`, least significant first. -/
def littleEndian : Nat → Nat → List UInt8
  | 0, _ => []
  | w + 1, n => UInt8.ofNat n :: littleEndian w (n / 256)

/-- The number a byte string spells, least significant first. -/
def ofLittleEndian : List UInt8 → Nat
  | [] => 0
  | b :: bs => b.toNat + 256 * ofLittleEndian bs

@[simp] theorem length_littleEndian (w n : Nat) : (littleEndian w n).length = w := by
  induction w generalizing n with
  | zero => rfl
  | succ w ih => rw [littleEndian, List.length_cons, ih]

theorem ofLittleEndian_littleEndian (w n : Nat) :
    ofLittleEndian (littleEndian w n) = n % 256 ^ w := by
  induction w generalizing n with
  | zero => rw [littleEndian, ofLittleEndian, Nat.pow_zero, Nat.mod_one]
  | succ w ih =>
    rw [littleEndian, ofLittleEndian, ih, UInt8.toNat_ofNat',
      show 256 ^ (w + 1) = 256 * 256 ^ w from Nat.pow_succ']
    exact Nat.mod_mul.symm

theorem ofLittleEndian_lt (bs : List UInt8) : ofLittleEndian bs < 256 ^ bs.length := by
  induction bs with
  | nil => exact Nat.one_pos
  | cons b bs ih =>
    have hb := b.toNat_lt
    rw [ofLittleEndian, List.length_cons, Nat.pow_succ]
    omega

-- ==== memory

/-- `len` bytes from `offset` on. -/
def readMem (m : Nat → UInt8) (offset len : Nat) : List UInt8 :=
  (List.range len).map fun i => m (offset + i)

/-- The buffer with `bs` written at `offset`. -/
def writeMem (m : Nat → UInt8) (offset : Nat) (bs : List UInt8) : Nat → UInt8 :=
  fun a => if offset ≤ a then bs.getD (a - offset) (m a) else m a

@[simp] theorem length_readMem (m : Nat → UInt8) (offset len : Nat) :
    (readMem m offset len).length = len := by
  simp [readMem]

theorem readMem_add (m : Nat → UInt8) (offset a b : Nat) :
    readMem m offset (a + b) = readMem m offset a ++ readMem m (offset + a) b := by
  simp only [readMem, List.range_add, List.map_append, List.map_map]
  congr 1
  refine List.map_congr_left ?_
  intro i _
  simp [Nat.add_assoc]

theorem take_readMem (m : Nat → UInt8) (offset a b : Nat) :
    (readMem m offset (a + b)).take a = readMem m offset a := by
  rw [readMem_add, List.take_left' (length_readMem m offset a)]

theorem drop_readMem (m : Nat → UInt8) (offset a b : Nat) :
    (readMem m offset (a + b)).drop a = readMem m (offset + a) b := by
  rw [readMem_add, List.drop_left' (length_readMem m offset a)]

theorem readMem_writeMem (m : Nat → UInt8) (offset : Nat) (bs : List UInt8) :
    readMem (writeMem m offset bs) offset bs.length = bs := by
  refine List.ext_getElem (by simp) ?_
  intro i h1 h2
  simp [readMem, writeMem, h2]

theorem readMem_writeMem_of_le (m : Nat → UInt8) {offset a len : Nat} (bs : List UInt8)
    (h : a + len ≤ offset) : readMem (writeMem m offset bs) a len = readMem m a len := by
  refine List.map_congr_left ?_
  intro i hi
  have hi' := List.mem_range.mp hi
  simp only [writeMem]
  rw [if_neg (by omega)]

theorem readMem_writeMem_mid (m : Nat → UInt8) (before mid after : List UInt8) :
    readMem (writeMem m 0 (before ++ mid ++ after)) before.length mid.length = mid := by
  have h := readMem_writeMem m 0 (before ++ mid ++ after)
  rw [List.length_append, List.length_append, Nat.add_assoc, readMem_add, readMem_add,
    Nat.zero_add, ← List.append_assoc] at h
  exact (List.append_inj (List.append_inj h (by simp)).1 (by simp)).2

/-- `memmove` of a tail by `n` bytes towards the front: what lies in the tail
is found `n` bytes earlier. -/
theorem readMem_writeMem_shift (m : Nat → UInt8) {a n len b more : Nat} (hb : a ≤ b)
    (hend : b + more ≤ a + len) :
    readMem (writeMem m a (readMem m (a + n) len)) b more = readMem m (b + n) more := by
  refine List.map_congr_left ?_
  intro i hi
  have hi' := List.mem_range.mp hi
  have hlt : b + i - a < (readMem m (a + n) len).length := by
    rw [length_readMem]
    omega
  simp only [writeMem]
  rw [if_pos (by omega), List.getD_eq_getElem _ _ hlt]
  simp only [readMem, List.getElem_map, List.getElem_range]
  congr 1
  omega

-- ==== records

/-- The number in the `w` bytes from `offset` on. -/
def readLittle (m : Nat → UInt8) (offset w : Nat) : Nat := ofLittleEndian (readMem m offset w)

theorem readLittle_lt (m : Nat → UInt8) (offset w : Nat) : readLittle m offset w < 256 ^ w := by
  have h := ofLittleEndian_lt (readMem m offset w)
  rwa [length_readMem] at h

/-- Fields stored one behind the other, each with its width. -/
def packed (fields : List (Nat × Nat)) : List UInt8 :=
  fields.flatMap fun field => littleEndian field.1 field.2

def packedSize (fields : List (Nat × Nat)) : Nat := (fields.map Prod.fst).sum

@[simp] theorem length_packed (fields : List (Nat × Nat)) :
    (packed fields).length = packedSize fields := by
  induction fields with
  | nil => rfl
  | cons field fields ih =>
    rw [packed, List.flatMap_cons, List.length_append, length_littleEndian, ← packed, ih]
    rfl

/-- The fields stand in the buffer, from `offset` on. -/
def Stored (m : Nat → UInt8) : Nat → List (Nat × Nat) → Prop
  | _, [] => True
  | offset, field :: fields =>
    readLittle m offset field.1 = field.2 % 256 ^ field.1 ∧ Stored m (offset + field.1) fields

theorem stored_of_readMem {m : Nat → UInt8} {fields : List (Nat × Nat)} :
    ∀ {offset : Nat}, readMem m offset (packedSize fields) = packed fields →
      Stored m offset fields := by
  induction fields with
  | nil => intro _ _; trivial
  | cons field fields ih =>
    intro offset h
    have hsplit : readMem m offset field.1 ++ readMem m (offset + field.1) (packedSize fields)
        = littleEndian field.1 field.2 ++ packed fields := by
      rw [← readMem_add]
      exact h
    obtain ⟨hfirst, hrest⟩ := List.append_inj hsplit (by simp)
    refine ⟨?_, ih hrest⟩
    rw [readLittle, hfirst, ofLittleEndian_littleEndian]

theorem stored_writeMem (m : Nat → UInt8) (before after : List UInt8)
    (fields : List (Nat × Nat)) :
    Stored (writeMem m 0 (before ++ packed fields ++ after)) before.length fields := by
  apply stored_of_readMem
  rw [← length_packed]
  exact readMem_writeMem_mid m before (packed fields) after

end Eular.Lib

/-
What memory holds from a place on.

A list of bytes stands in memory part by part (`holds_append`), and what is
read there is the list. A number is spelled least significant byte first or
last; one spelling is the other one turned round.
-/

namespace Eular.Lib

variable {m : Nat → UInt8} {p n : Nat} {a b bs : List UInt8} {c : UInt8}

/-- From `p` on the memory holds `bs`. -/
def Holds (m : Nat → UInt8) (p : Nat) (bs : List UInt8) : Prop := readMem m p bs.length = bs

theorem Holds.read (h : Holds m p bs) (hn : bs.length = n) : readMem m p n = bs := hn ▸ h

theorem holds_append : Holds m p (a ++ b) ↔ Holds m p a ∧ Holds m (p + a.length) b := by
  unfold Holds
  rw [List.length_append, readMem_add]
  constructor
  · intro h
    exact List.append_inj h (length_readMem m p a.length)
  · rintro ⟨ha, hb⟩
    rw [ha, hb]

theorem holds_cons : Holds m p (c :: bs) ↔ m p = c ∧ Holds m (p + 1) bs := by
  have hone : Holds m p [c] ↔ m p = c := by simp [Holds, readMem]
  exact (holds_append (a := [c]) (b := bs)).trans (and_congr hone Iff.rfl)

theorem holds_getElem (h : Holds m p bs) {i : Nat} (hi : i < bs.length) : m (p + i) = bs[i] := by
  have hi' : i < (readMem m p bs.length).length := by rwa [length_readMem]
  have hread : (readMem m p bs.length)[i] = bs[i] := List.getElem_of_eq h hi'
  rw [← hread]
  simp [readMem]

theorem holds_getD (bs : List UInt8) : Holds (fun i => bs.getD i 0) 0 bs := by
  refine List.ext_getElem (by simp) fun i _ hi => ?_
  simp [readMem, hi]

-- ==== byte order

theorem reverse_littleEndian (w n : Nat) : (littleEndian w n).reverse = bigEndian w n := by
  induction w generalizing n with
  | zero => rfl
  | succ w ih => rw [littleEndian, List.reverse_cons, ih, bigEndian]

/-- A number's bytes in the one order or in the other. -/
def inOrder (big : Bool) (w n : Nat) : List UInt8 :=
  if big then bigEndian w n else littleEndian w n

theorem reverse_inOrder (big : Bool) (w n : Nat) :
    (inOrder big w n).reverse = inOrder (!big) w n := by
  cases big with
  | false => exact reverse_littleEndian w n
  | true =>
    show (bigEndian w n).reverse = littleEndian w n
    rw [← reverse_littleEndian, List.reverse_reverse]

@[simp] theorem length_inOrder (big : Bool) (w n : Nat) : (inOrder big w n).length = w := by
  cases big with
  | false => exact length_littleEndian w n
  | true => exact length_bigEndian w n

end Eular.Lib
