/-
Bits in bytes: bit `i` of a buffer is bit `i % 8` of byte `i / 8`.

Setting and clearing one are an or and an and with the mask of the bit;
`getBit_setBit` says that no other bit sees it. `popcount` counts the bits of
a number of a given width; of the bytes of a buffer, read as such a number,
these are the bits of the buffer (`popcount_readLittle`).
-/
import Eular.Lib.Bytes

namespace Eular.Lib

/-- `1 << bit`, as a byte. -/
def bitMask (i : Nat) : UInt8 := UInt8.ofNat (1 <<< (i % 8))

variable (m : Nat → UInt8) (i : Nat)

def getBit : Bool := m (i / 8) &&& bitMask i != 0

def setBit (value : Bool) : Nat → UInt8 :=
  Function.update m (i / 8)
    (if value then m (i / 8) ||| bitMask i else m (i / 8) &&& ~~~ bitMask i)

theorem bitMask_mod : bitMask (i % 8) = bitMask i := by
  rw [bitMask, bitMask, Nat.mod_mod]

theorem bitMask_and (i j : Nat) :
    bitMask i &&& bitMask j = if i % 8 = j % 8 then bitMask j else 0 := by
  have hall : ∀ k < 8, ∀ l < 8, bitMask k &&& bitMask l =
      if k = l then bitMask l else 0 := by decide
  have h := hall (i % 8) (Nat.mod_lt _ (by decide)) (j % 8) (Nat.mod_lt _ (by decide))
  rwa [bitMask_mod, bitMask_mod] at h

theorem not_bitMask_and (i j : Nat) :
    ~~~ bitMask i &&& bitMask j = if i % 8 = j % 8 then 0 else bitMask j := by
  have hall : ∀ k < 8, ∀ l < 8, ~~~ bitMask k &&& bitMask l = if k = l then 0 else bitMask l := by
    decide
  have h := hall (i % 8) (Nat.mod_lt _ (by decide)) (j % 8) (Nat.mod_lt _ (by decide))
  rwa [bitMask_mod, bitMask_mod] at h

theorem bitMask_ne_zero : bitMask i ≠ 0 := by
  have hall : ∀ k < 8, bitMask k ≠ 0 := by decide
  rw [← bitMask_mod]
  exact hall (i % 8) (Nat.mod_lt _ (by decide))

theorem uInt8_or_and (x y z : UInt8) : (x ||| y) &&& z = (x &&& z) ||| (y &&& z) :=
  UInt8.toBitVec_inj.mp BitVec.and_or_distrib_right

/-- A byte with the bit `i` set or cleared, seen through the mask of a bit `j`. -/
theorem setMask_and (x : UInt8) (i j : Nat) (value : Bool) :
    ((if value then x ||| bitMask i else x &&& ~~~ bitMask i) &&& bitMask j != 0)
      = if i % 8 = j % 8 then value else x &&& bitMask j != 0 := by
  cases value with
  | true =>
    rw [if_pos rfl, uInt8_or_and, bitMask_and]
    split
    · rw [bne_iff_ne]
      intro hzero
      exact bitMask_ne_zero j (UInt8.or_eq_zero_iff.mp hzero).2
    · rw [UInt8.or_zero]
  | false =>
    rw [if_neg Bool.false_ne_true, UInt8.and_assoc, not_bitMask_and]
    split
    · rw [UInt8.and_zero]
      rfl
    · rfl

theorem getBit_setBit (i j : Nat) (value : Bool) :
    getBit (setBit m i value) j = if j = i then value else getBit m j := by
  rw [getBit, setBit]
  by_cases hbyte : j / 8 = i / 8
  · rw [hbyte, Function.update_self, setMask_and, getBit, hbyte]
    have hbit : i % 8 = j % 8 ↔ j = i := by omega
    simp only [hbit]
  · rw [Function.update_of_ne hbyte, if_neg fun h => hbyte (by rw [h])]
    rfl

-- ==== counting

/-- The bits among the low `w` of a number. -/
def popcount (w n : Nat) : Nat := (List.range w).countP fun i => n.testBit i

theorem popcount_le (w n : Nat) : popcount w n ≤ w :=
  List.countP_le_length.trans_eq List.length_range

theorem popcount_add (a b n : Nat) :
    popcount (a + b) n = popcount a (n % 2 ^ a) + popcount b (n / 2 ^ a) := by
  unfold popcount
  rw [List.range_add, List.countP_append, List.countP_map]
  congr 1
  · apply List.countP_congr
    intro i hi
    rw [Nat.testBit_mod_two_pow, decide_eq_true (List.mem_range.mp hi), Bool.true_and]
  · apply List.countP_congr
    intro i _
    rw [Nat.testBit_div_two_pow, Nat.add_comm]
    rfl

theorem getBit_eq : getBit m i = (m (i / 8)).toNat.testBit (i % 8) := by
  have hmask : (bitMask i).toNat = 2 ^ (i % 8) := by
    have hall : ∀ k < 8, (bitMask k).toNat = 2 ^ k := by decide
    rw [← bitMask_mod]
    exact hall (i % 8) (Nat.mod_lt _ (by decide))
  have hand : (m (i / 8) &&& bitMask i).toNat
      = ((m (i / 8)).toNat.testBit (i % 8)).toNat * 2 ^ (i % 8) := by
    rw [UInt8.toNat_and, hmask, Nat.and_two_pow]
  have hzero : m (i / 8) &&& bitMask i = 0 ↔ (m (i / 8)).toNat.testBit (i % 8) = false := by
    rw [← UInt8.toNat_inj, hand]
    cases (m (i / 8)).toNat.testBit (i % 8) with
    | true => simp
    | false => simp
  rw [getBit, Bool.eq_iff_iff, bne_iff_ne, ne_eq, hzero, Bool.not_eq_false]

/-- The number of bits set among the `n` from the bit `start` on. -/
def countBits (start n : Nat) : Nat :=
  (List.range n).countP fun i => getBit m (start + i)

theorem countBits_add (start a b : Nat) :
    countBits m start (a + b) = countBits m start a + countBits m (start + a) b := by
  unfold countBits
  rw [List.range_add, List.countP_append, List.countP_map]
  congr 2
  funext i
  rw [Function.comp, Nat.add_assoc]

theorem countBits_le (start n : Nat) : countBits m start n ≤ n :=
  List.countP_le_length.trans_eq List.length_range

theorem sum_countBits (start w n : Nat) :
    ((List.range n).map fun i => countBits m (start + w * i) w).sum
      = countBits m start (w * n) := by
  induction n with
  | zero => rfl
  | succ n ih =>
    rw [List.range_succ, List.map_append, List.sum_append, ih, Nat.mul_succ, countBits_add]
    simp

theorem testBit_readLittle (offset w : Nat) {i : Nat} (hi : i < 8 * w) :
    (readLittle m offset w).testBit i = getBit m (8 * offset + i) := by
  induction w generalizing offset i with
  | zero => omega
  | succ w ih =>
    have hsplit : readLittle m offset (w + 1)
        = 2 ^ 8 * readLittle m (offset + 1) w + (m offset).toNat := by
      unfold readLittle
      rw [Nat.add_comm w 1, readMem_add]
      simp only [readMem, List.range_one, List.map_cons, List.map_nil, List.cons_append,
        List.nil_append, ofLittleEndian, Nat.add_zero]
      omega
    rw [hsplit, Nat.testBit_two_pow_mul_add _ (m offset).toNat_lt]
    split
    case isTrue hlow =>
      rw [getBit_eq]
      congr 3 <;> omega
    case isFalse hhigh =>
      rw [ih (offset + 1) (by omega)]
      congr 1
      omega

theorem popcount_readLittle (offset w : Nat) :
    popcount (8 * w) (readLittle m offset w) = countBits m (8 * offset) (8 * w) := by
  apply List.countP_congr
  intro i hi
  rw [testBit_readLittle m offset w (List.mem_range.mp hi)]

theorem popcount_byte (k : Nat) :
    popcount 8 (m k).toNat = countBits m (8 * k) 8 := by
  have h := popcount_readLittle m k 1
  simpa [readLittle, readMem, ofLittleEndian] using h

end Eular.Lib
