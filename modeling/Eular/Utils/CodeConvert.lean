/-
UTF-8 detection (`code_convert.cpp`).

A byte string is a list of bytes. `IsUTF8Encode` walks over it with one
running verdict: the loop is `scan`, whose result is `none` where the
function returns from inside it.

`Pattern` is the comment at the head of the source, and `units` is what a
reader does that trusts the first byte of each pattern and looks at no
other: it cuts the string into as many bytes as that byte announces.
-/
import Eular.Lib.Records

namespace Eular.Utils

open Lib

namespace CodeConvert

-- ==== the scanner

variable (code : UInt8)

def IS_UTF8_ANSII : Bool := 0x00 < code && code < 0x80

def IS_UTF8_2BYTE : Bool := 0xc0 < code && code < 0xe0

def IS_UTF8_3BYTE : Bool := 0xe0 < code && code < 0xf0

def IS_UTF8_4BYTE : Bool := 0xf0 < code && code < 0xf8

def IS_UTF8_EXTRA : Bool := 0x80 < code && code < 0xc0

/-- The loop of `IsUTF8Encode`, from `start` on: `charSize` and `isUtf8` behind it. -/
def scan : List UInt8 → UInt32 → Bool → Option (UInt32 × Bool)
  | [], charSize, isUtf8 => some (charSize, isUtf8)
  | code :: start, charSize, isUtf8 =>
    if IS_UTF8_ANSII code then
      scan start (charSize + 1) isUtf8
    else if IS_UTF8_2BYTE code then
      match start with
      | a :: start => scan start (charSize + 1) (isUtf8 || IS_UTF8_EXTRA a)
      | _ => none
    else if IS_UTF8_3BYTE code then
      match start with
      | a :: b :: start =>
        scan start (charSize + 1) (isUtf8 || (IS_UTF8_EXTRA a && IS_UTF8_EXTRA b))
      | _ => none
    else if IS_UTF8_4BYTE code then
      match start with
      | a :: b :: d :: start =>
        scan start (charSize + 1)
          (isUtf8 || (IS_UTF8_EXTRA a && IS_UTF8_EXTRA b && IS_UTF8_EXTRA d))
      | _ => none
    else
      some (charSize, false)

/-- `IsUTF8Encode`; `characterSize` is what the pointer points to before and after, `none` for the
null pointer. -/
def IsUTF8Encode (u8String : List UInt8) (characterSize : Option UInt32) :
    Bool × Option UInt32 :=
  if u8String.isEmpty then
    (true, characterSize.map fun _ => 0)
  else
    match scan u8String 0 false with
    | none => (false, characterSize)
    | some (charSize, isUtf8) =>
      (isUtf8, if isUtf8 then characterSize.map fun _ => charSize else characterSize)

-- ==== the patterns

/-- The patterns of one to four bytes, as the source's comment draws them. -/
inductive Pattern : List UInt8 → Prop
  | one {c : UInt8} : c >>> 7 = 0b0 → Pattern [c]
  | two {c a : UInt8} : c >>> 5 = 0b110 → a >>> 6 = 0b10 → Pattern [c, a]
  | three {c a b : UInt8} : c >>> 4 = 0b1110 → a >>> 6 = 0b10 → b >>> 6 = 0b10 → Pattern [c, a, b]
  | four {c a b d : UInt8} : c >>> 3 = 0b11110 → a >>> 6 = 0b10 → b >>> 6 = 0b10 →
      d >>> 6 = 0b10 → Pattern [c, a, b, d]

/-- The number of bytes of the pattern that a byte begins. -/
def patternSize (c : UInt8) : Option Nat :=
  if c >>> 7 = 0b0 then some 1
  else if c >>> 5 = 0b110 then some 2
  else if c >>> 4 = 0b1110 then some 3
  else if c >>> 3 = 0b11110 then some 4
  else none

variable (u : List UInt8)

/-- A byte and as many behind it as it announces, whatever these are. -/
def IsUnit : Prop :=
  u.head?.bind patternSize = some u.length

instance (u : List UInt8) : Decidable (IsUnit u) :=
  inferInstanceAs (Decidable (_ = _))

/-- The unit a string begins with, and what is behind it. -/
def nextUnit (s : List UInt8) : Option ({u : List UInt8 // IsUnit u} × List UInt8) :=
  match s.head?.bind patternSize with
  | none => none
  | some n => if h : IsUnit (s.take n) then some (⟨s.take n, h⟩, s.drop n) else none

theorem nextUnit_append (u : {u : List UInt8 // IsUnit u}) (t : List UInt8) :
    nextUnit (u.1 ++ t) = some (u, t) := by
  obtain ⟨u, hu⟩ := u
  have hsize : (u ++ t).head?.bind patternSize = some u.length := by
    cases u with
    | nil => cases hu
    | cons c u => exact hu
  unfold nextUnit
  rw [hsize]
  simp [hu]

theorem eq_of_nextUnit {s t : List UInt8} {u : {u : List UInt8 // IsUnit u}}
    (h : nextUnit s = some (u, t)) : s = u.1 ++ t := by
  unfold nextUnit at h
  split at h
  · cases h
  · split at h
    · cases h
      exact (List.take_append_drop _ _).symm
    · cases h

/-- Units, one behind the other. -/
def units : Records UInt8 {u : List UInt8 // IsUnit u} where
  encode := Subtype.val
  next := nextUnit
  encode_ne_nil := by
    rintro ⟨u, hu⟩ rfl
    cases hu
  next_encode := nextUnit_append
  eq_of_next := eq_of_nextUnit

/-- The bytes the scanner takes for no first byte, though a pattern begins with them. -/
def excludedLead (c : UInt8) : Bool :=
  c = 0x00 || c = 0xc0 || c = 0xe0 || c = 0xf0

/-- A unit the scanner stops at. -/
def Stops : Prop :=
  ∃ c ∈ u.head?, excludedLead c = true

/-- A unit that raises the verdict: of two bytes or more, all behind the first in `0x81..0xbf`. -/
def Raises : Prop :=
  u.tail ≠ [] ∧ ∀ a ∈ u.tail, IS_UTF8_EXTRA a = true

/-- The bytes behind the first are `10xxxxxx`. -/
def Continued : Prop :=
  ∀ a ∈ u.tail, a >>> 6 = 0b10

instance (u : List UInt8) : Decidable (Stops u) :=
  inferInstanceAs (Decidable (∃ c ∈ u.head?, excludedLead c = true))

instance (u : List UInt8) : Decidable (Raises u) :=
  inferInstanceAs (Decidable (_ ∧ _))

instance (u : List UInt8) : Decidable (Continued u) :=
  inferInstanceAs (Decidable (∀ a ∈ u.tail, a >>> 6 = 0b10))

end CodeConvert

end Eular.Utils
