/-
Frames of one width on a byte stream.

A `Codec` writes every value as the same number of bytes. A stream is read
by cutting it into pieces of that width: `frames` are the values of the
whole pieces, `leftover` is what lies behind the last of them. Where the
stream is the encodings of some values and less than a frame after them
(`frames_encoded`), that gives the values back; what arrives is then read
as what was sent, however the bytes were cut up on their way.
-/
import Mathlib

namespace Eular.Lib

/-- A way to write every value as `width` bytes. -/
structure Codec (α β : Type*) where
  width : Nat
  encode : α → List β
  decode : List β → α
  width_pos : 0 < width
  length_encode : ∀ a, (encode a).length = width
  decode_encode : ∀ a, decode (encode a) = a

namespace Codec

variable {α β : Type*} (c : Codec α β)

/-- The values of the whole frames of a stream. -/
def frames (s : List β) : List α :=
  (List.range (s.length / c.width)).map fun i => c.decode ((s.drop (i * c.width)).take c.width)

/-- What is behind the last whole frame. -/
def leftover (s : List β) : List β :=
  s.drop (s.length / c.width * c.width)

/-- The encodings of some values, one behind the other. -/
def encoded (l : List α) : List β :=
  l.flatMap c.encode

variable {s : List β}

theorem frames_short (h : s.length < c.width) : c.frames s = [] := by
  simp [frames, Nat.div_eq_of_lt h]

theorem leftover_short (h : s.length < c.width) : c.leftover s = s := by
  simp [leftover, Nat.div_eq_of_lt h]

theorem frames_long (h : c.width ≤ s.length) :
    c.frames s = c.decode (s.take c.width) :: c.frames (s.drop c.width) := by
  have hcount : s.length / c.width = (s.drop c.width).length / c.width + 1 := by
    rw [List.length_drop, ← Nat.add_div_right _ c.width_pos, Nat.sub_add_cancel h]
  unfold frames
  rw [hcount, List.range_succ_eq_map, List.map_cons, List.map_map]
  congr 1
  · simp
  · apply List.map_congr_left
    intro i _
    show c.decode ((s.drop ((i + 1) * c.width)).take c.width) = _
    rw [List.drop_drop, Nat.succ_mul, Nat.add_comm]

theorem leftover_long (h : c.width ≤ s.length) :
    c.leftover s = c.leftover (s.drop c.width) := by
  have hcount : s.length / c.width = (s.drop c.width).length / c.width + 1 := by
    rw [List.length_drop, ← Nat.add_div_right _ c.width_pos, Nat.sub_add_cancel h]
  unfold leftover
  rw [hcount, List.drop_drop, Nat.succ_mul, Nat.add_comm]

theorem frames_encode (a : α) (s : List β) : c.frames (c.encode a ++ s) = a :: c.frames s := by
  rw [frames_long c (by simp [c.length_encode]), List.take_left' (c.length_encode a),
    List.drop_left' (c.length_encode a), c.decode_encode]

/-- Values written to a stream are read back, with less than a frame behind
them. -/
theorem frames_encoded (l : List α) (h : s.length < c.width) :
    c.frames (c.encoded l ++ s) = l := by
  induction l with
  | nil => exact c.frames_short h
  | cons a l ih =>
    have hfirst : c.encoded (a :: l) ++ s = c.encode a ++ (c.encoded l ++ s) := by
      simp [encoded]
    rw [hfirst, frames_encode, ih]

/-- The first part of such a stream: the frames of it are the first of the
values, and what is left over goes on to be the rest. -/
theorem frames_prefix (l : List α) {s t u : List β} (hs : s.length < c.width)
    (h : t ++ u = c.encoded l ++ s) :
    ∃ k ≤ l.length, c.frames t = l.take k ∧ c.leftover t ++ u = c.encoded (l.drop k) ++ s := by
  induction l generalizing t with
  | nil =>
    have hshort : t.length < c.width := by
      have hlen := congrArg List.length h
      simp [encoded] at hlen
      omega
    exact ⟨0, le_rfl, by rw [c.frames_short hshort]; rfl, by rw [c.leftover_short hshort, h]; rfl⟩
  | cons a l ih =>
    have hfirst : c.encoded (a :: l) ++ s = c.encode a ++ (c.encoded l ++ s) := by
      simp [encoded]
    by_cases hlong : c.width ≤ t.length
    · have htake : t.take c.width = c.encode a := by
        have hcut := congrArg (List.take c.width) (h.trans hfirst)
        rwa [List.take_append_of_le_length hlong, List.take_left' (c.length_encode a)] at hcut
      have hdrop : t.drop c.width ++ u = c.encoded l ++ s := by
        have hcut := congrArg (List.drop c.width) (h.trans hfirst)
        rwa [List.drop_append_of_le_length hlong, List.drop_left' (c.length_encode a)] at hcut
      obtain ⟨k, hk, hframes, hleft⟩ := ih hdrop
      refine ⟨k + 1, Nat.succ_le_succ hk, ?_, ?_⟩
      · rw [frames_long c hlong, htake, c.decode_encode, hframes, List.take_succ_cons]
      · rw [leftover_long c hlong, hleft, List.drop_succ_cons]
    · have hshort : t.length < c.width := Nat.lt_of_not_le hlong
      exact ⟨0, Nat.zero_le _, by rw [c.frames_short hshort]; rfl,
        by rw [c.leftover_short hshort, h]; rfl⟩

end Codec

end Eular.Lib
