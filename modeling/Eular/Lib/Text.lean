/-
Texts: decimal numerals, and fields joined by a separator.

A text is the list of its bytes. `decimal` is what a stream prints for an
unsigned integer. `cut_eq_cut` compares two cuts of one text at a
separator: where the parts may hold the separator themselves, one cut may
lie within a part of the other, and that is all that can happen.
-/
import Mathlib

namespace Eular.Lib

-- ==== bytes

def ascii (s : String) : List UInt8 := s.toList.map Char.toUInt8

/-- Bytes in their order, so that texts are ordered as `std::string` is. -/
instance linearOrder_uint8 : LinearOrder UInt8 where
  le_refl := UInt8.le_refl
  le_trans _ _ _ := UInt8.le_trans
  le_antisymm _ _ := UInt8.le_antisymm
  le_total := UInt8.le_total
  lt_iff_le_not_ge a b := by
    rw [UInt8.lt_iff_toNat_lt, UInt8.le_iff_toNat_le, UInt8.le_iff_toNat_le]
    omega
  toDecidableLE := inferInstance
  toDecidableLT := inferInstance

/-- A C string: the bytes before the first NUL. -/
def cString (bs : List UInt8) : List UInt8 := bs.takeWhile (· ≠ 0)

theorem cString_of_not_mem {s : List UInt8} (h : 0 ∉ s) : cString s = s :=
  List.takeWhile_eq_self_iff.2 fun _ hb => decide_eq_true (ne_of_mem_of_not_mem hb h)

-- ==== numerals

/-- `n` in decimal, without leading zeros. -/
def decimal (n : Nat) : List UInt8 := (Nat.toDigits 10 n).map Char.toUInt8

theorem decimal_ne_nil (n : Nat) : decimal n ≠ [] := by
  simp [decimal, Nat.toDigits_ne_nil]

theorem toNat_toUInt8_of_isDigit {c : Char} (hc : c.isDigit = true) :
    c.toUInt8.toNat = c.toNat ∧ 48 ≤ c.toNat ∧ c.toNat ≤ 57 := by
  have hbounds : 48 ≤ c.toNat ∧ c.toNat ≤ 57 := by
    simpa [Char.isDigit, UInt32.le_iff_toNat_le] using hc
  refine ⟨?_, hbounds⟩
  show (UInt8.ofNat c.toNat).toNat = c.toNat
  rw [UInt8.toNat_ofNat']
  omega

theorem mem_decimal {n : Nat} {b : UInt8} (hb : b ∈ decimal n) : 48 ≤ b.toNat ∧ b.toNat ≤ 57 := by
  obtain ⟨c, hc, rfl⟩ := List.mem_map.1 hb
  have hdigit := Nat.isDigit_of_mem_toDigits (by decide) (by decide) hc
  have h := toNat_toUInt8_of_isDigit hdigit
  omega

theorem map_ofNat_decimal (n : Nat) :
    (decimal n).map (fun b => Char.ofNat b.toNat) = Nat.toDigits 10 n := by
  rw [decimal, List.map_map]
  conv_rhs => rw [← List.map_id (Nat.toDigits 10 n)]
  apply List.map_congr_left
  intro c hc
  have hdigit := Nat.isDigit_of_mem_toDigits (by decide) (by decide) hc
  show Char.ofNat c.toUInt8.toNat = c
  rw [(toNat_toUInt8_of_isDigit hdigit).1, Char.ofNat_toNat]

theorem decimal_inj {m n : Nat} : decimal m = decimal n ↔ m = n := by
  constructor
  · intro h
    have hdigits : Nat.toDigits 10 m = Nat.toDigits 10 n := by
      rw [← map_ofNat_decimal, h, map_ofNat_decimal]
    rw [← Nat.ofDigitChars_ten_toDigits (n := m), hdigits, Nat.ofDigitChars_ten_toDigits]
  · rintro rfl
    rfl

-- ==== cuts

section Cuts

variable {α : Type*} {sep : α} {a b x y : List α}

/-- Two cuts of one text at a separator agree, or one lies within a part
of the other. -/
theorem cut_eq_cut (h : a ++ sep :: x = b ++ sep :: y) :
    (a = b ∧ x = y)
      ∨ (∃ c, b = a ++ sep :: c ∧ x = c ++ sep :: y)
      ∨ ∃ c, a = b ++ sep :: c ∧ y = c ++ sep :: x := by
  rcases List.append_eq_append_iff.1 h with ⟨c, hb, hx⟩ | ⟨c, ha, hy⟩
  · cases c with
    | nil =>
      left
      simpa [hb] using hx
    | cons d c =>
      right; left
      obtain ⟨rfl, htail⟩ := List.cons.inj hx
      exact ⟨c, hb, htail⟩
  · cases c with
    | nil =>
      left
      simpa [ha] using hy.symm
    | cons d c =>
      right; right
      obtain ⟨rfl, htail⟩ := List.cons.inj hy
      exact ⟨c, ha, htail⟩

theorem cut_first (ha : sep ∉ a) (hb : sep ∉ b) (h : a ++ sep :: x = b ++ sep :: y) :
    a = b ∧ x = y := by
  rcases cut_eq_cut h with heq | ⟨c, rfl, -⟩ | ⟨c, rfl, -⟩
  · exact heq
  · simp at hb
  · simp at ha

theorem cut_last (hx : sep ∉ x) (hy : sep ∉ y) (h : a ++ sep :: x = b ++ sep :: y) :
    a = b ∧ x = y := by
  rcases cut_eq_cut h with heq | ⟨c, -, rfl⟩ | ⟨c, -, rfl⟩
  · exact heq
  · simp at hx
  · simp at hy

end Cuts

end Eular.Lib
