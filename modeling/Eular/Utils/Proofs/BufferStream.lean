/-
When a stream is a queue of the values written to it.

The run invariant is `Queued`: the bytes between the two positions are
those of the values written and not yet read, and the buffer ends at the
write position. `compact` keeps it unless there is nothing to move: `set`
takes no empty data, the buffer keeps its old bytes while both positions
go to 0, and from then on no write succeeds.

`put_queued` and `get_queued` are the step lemmas, `stream_fifo` the run.
-/
import Eular.Lib.Run
import Eular.Utils.BufferStream

namespace Eular.Utils

open Lib

namespace BufferStream

variable {s : BufferStream} {data : List UInt8} {n : Nat}

-- ==== positions

/-- The buffer ends where the stream will write. -/
def Aligned (s : BufferStream) : Prop := s.buffer.size = s.wpos

theorem Aligned.take (h : s.Aligned) : s.buffer.content.take s.wpos = s.buffer.content :=
  List.take_of_length_le (le_of_eq h)

theorem Aligned.unread (h : s.Aligned) : s.unread = s.buffer.content.drop s.rpos := by
  rw [BufferStream.unread, h.take]

/-- A write of `n` bytes would have to move the unread ones, and there are
none. -/
def Stuck (s : BufferStream) (n : Nat) : Prop :=
  s.rpos ≠ 0 ∧ s.rpos = s.wpos ∧ s.buffer.capacity - s.wpos < n

instance (s : BufferStream) (n : Nat) : Decidable (s.Stuck n) :=
  inferInstanceAs (Decidable (_ ∧ _))

theorem compact_aligned (h : s.Aligned) (hfree : ¬ s.Stuck n)
    (hfit : s.unread.length + n ≤ uint32Max) :
    ∃ s', s.compact n = (s', true) ∧ s'.Aligned ∧ s'.unread = s.unread ∧
      s'.wpos + n ≤ uint32Max := by
  have hrpos := s.rpos_le
  have hlen := s.length_unread
  have hcap := s.buffer.capacity_le
  have hcontent := s.buffer.content_le
  unfold compact
  by_cases hmove : s.rpos ≠ 0 ∧ s.buffer.capacity - s.wpos < n
  · -- something is unread: it becomes the whole content
    have hsome : s.unread ≠ [] := by
      intro hnil
      rw [hnil, List.length_nil] at hlen
      exact hfree ⟨hmove.1, by omega, hmove.2⟩
    obtain ⟨hset, hcount⟩ := ByteBuffer.content_set (b := s.buffer) hsome (Nat.zero_le _)
      (show s.unread.length + 0 ≤ uint32Max by omega)
    rw [List.take_zero, List.nil_append] at hset
    have hsize : (s.buffer.set s.unread 0).1.size = s.wpos - s.rpos := by
      rw [ByteBuffer.size, hset, hlen]
    have hcond : (s.buffer.set s.unread 0).2 = s.wpos - s.rpos ∧
        s.wpos - s.rpos ≤ (s.buffer.set s.unread 0).1.size :=
      ⟨hcount.trans hlen, hsize.ge⟩
    simp only [if_pos hmove, dif_pos hcond]
    refine ⟨_, rfl, hsize, ?_, ?_⟩
    · show ((s.buffer.set s.unread 0).1.content.take (s.wpos - s.rpos)).drop 0 = s.unread
      rw [List.drop_zero, hset, ← hlen, List.take_length]
    · show s.wpos - s.rpos + n ≤ uint32Max
      omega
  · rw [if_neg hmove]
    refine ⟨s, rfl, h, rfl, ?_⟩
    have hsize : s.buffer.content.length = s.wpos := h
    by_cases hzero : s.rpos = 0
    · omega
    · have hroom : ¬ s.buffer.capacity - s.wpos < n := fun hlt => hmove ⟨hzero, hlt⟩
      omega

theorem write_aligned (h : s.Aligned) (hdata : data ≠ []) (hfree : ¬ s.Stuck data.length)
    (hfit : s.unread.length + data.length ≤ uint32Max) :
    ∃ s', s.write data = (.ok (), s') ∧ s'.Aligned ∧ s'.unread = s.unread ++ data := by
  obtain ⟨s₁, hcompact, halign, hunread, hroom⟩ := compact_aligned h hfree hfit
  have hvalid : ¬ (s.wpos < s.rpos ∨ s.buffer.size < s.wpos
      ∨ s.buffer.capacity < s.buffer.size) := by
    have h1 := s.rpos_le
    have h2 := s.wpos_le
    have h3 : s.buffer.size ≤ s.buffer.capacity := s.buffer.content_le
    omega
  have hsize : s₁.buffer.size = s₁.wpos := halign
  have happend : (s₁.buffer.append data).content = s₁.buffer.content ++ data := by
    have hset := (ByteBuffer.content_set (b := s₁.buffer) hdata le_rfl
      (by rw [hsize]; omega)).1
    rw [ByteBuffer.size, List.take_length] at hset
    exact hset
  have hexpected : (s₁.buffer.append data).size = s₁.wpos + data.length := by
    rw [ByteBuffer.size, happend, List.length_append]
    exact congrArg (· + data.length) hsize
  have hover : ¬ uint32Max - s₁.wpos < data.length := by omega
  unfold write
  simp only [if_neg hdata, if_neg hvalid, hcompact, Bool.not_true, Bool.false_eq_true, if_false,
    if_neg hover, dif_pos hexpected]
  refine ⟨_, rfl, hexpected, ?_⟩
  have hrpos : s₁.rpos ≤ s₁.buffer.content.length := s₁.rpos_le.trans s₁.wpos_le
  have hwhole : (s₁.buffer.append data).content.take (s₁.wpos + data.length)
      = s₁.buffer.content ++ data := by
    rw [List.take_of_length_le hexpected.le, happend]
  show ((s₁.buffer.append data).content.take (s₁.wpos + data.length)).drop s₁.rpos
    = s.unread ++ data
  rw [hwhole, List.drop_append_of_le_length hrpos, ← hunread, halign.unread]

theorem read_aligned (h : s.Aligned) (x : {bs : List UInt8 // bs.length = n}) {y : List UInt8}
    (hunread : s.unread = x.1 ++ y) :
    ∃ s', s.read n = (some x, s') ∧ s'.Aligned ∧ s'.unread = y := by
  obtain ⟨x, rfl⟩ := x
  change s.unread = x ++ y at hunread
  have hlen := s.length_unread
  have hle : x.length ≤ s.wpos - s.rpos := by
    rw [← hlen, hunread, List.length_append]
    omega
  rw [read, dif_pos hle]
  refine ⟨⟨s.buffer, s.rpos + x.length, s.wpos, by have := s.rpos_le; omega, s.wpos_le⟩, ?_, h, ?_⟩
  · simp [hunread]
  · show (s.buffer.content.take s.wpos).drop (s.rpos + x.length) = y
    rw [← List.drop_drop]
    show s.unread.drop x.length = y
    rw [hunread, List.drop_left]

theorem read_lacking (h : s.unread.length < n) : s.read n = (none, s) := by
  rw [read, dif_neg (by rw [← s.length_unread]; omega)]

-- ==== strings

theorem readString_aligned {value rest : List UInt8} (hvalue : 0 ∉ value) :
    ∀ {s : BufferStream} {fuel : Nat} (temp : List UInt8), s.Aligned →
      s.unread = value ++ 0 :: rest → value.length < fuel →
      ∃ s', readString fuel temp s = (.ok (temp ++ value), s') ∧ s'.Aligned ∧ s'.unread = rest := by
  induction value with
  | nil =>
    intro s fuel temp halign hunread hfuel
    obtain ⟨fuel, rfl⟩ : ∃ k, fuel = k + 1 := ⟨fuel - 1, by simp at hfuel; omega⟩
    obtain ⟨s', hread, halign', hrest⟩ :=
      read_aligned (n := 1) halign ⟨[0], rfl⟩ (by simpa using hunread)
    refine ⟨s', ?_, halign', hrest⟩
    rw [readString]
    simp [hread]
  | cons ch value ih =>
    intro s fuel temp halign hunread hfuel
    obtain ⟨fuel, rfl⟩ : ∃ k, fuel = k + 1 := ⟨fuel - 1, by simp at hfuel; omega⟩
    obtain ⟨hch, hvalue⟩ : 0 ≠ ch ∧ 0 ∉ value := by simpa using hvalue
    obtain ⟨s₁, hread, halign₁, hrest₁⟩ :=
      read_aligned (n := 1) halign ⟨[ch], rfl⟩ (by simpa using hunread)
    obtain ⟨s', hloop, halign', hrest⟩ := ih hvalue (temp ++ [ch]) halign₁ hrest₁
      (by simpa using hfuel)
    refine ⟨s', ?_, halign', hrest⟩
    rw [readString]
    simp [hread, Ne.symm hch, hloop]

theorem readString_empty (h : s.unread = []) (fuel : Nat) (temp : List UInt8) :
    readString fuel temp s = (.error .insufficientData, s) := by
  cases fuel with
  | zero => rfl
  | succ fuel => rw [readString, read_lacking (by simp [h])]

-- ==== values

/-- There is not enough to read a value of the type. -/
def Lacks (s : BufferStream) : ItemType → Prop
  | .scalar t => s.unread.length < t.sizeof
  | .string => 0 ∉ s.unread

instance (s : BufferStream) : (t : ItemType) → Decidable (s.Lacks t)
  | .scalar _ => inferInstanceAs (Decidable (_ < _))
  | .string => inferInstanceAs (Decidable (¬ _))

theorem put_aligned {v : Item} (h : s.Aligned) (hfree : ¬ s.Stuck v.bytes.length)
    (hfit : s.unread.length + v.bytes.length ≤ uint32Max) :
    ∃ s', s.put v = (.ok (), s') ∧ s'.Aligned ∧ s'.unread = s.unread ++ v.bytes := by
  cases v with
  | scalar t image => exact write_aligned h (Item.bytes_ne_nil (.scalar t image)) hfree hfit
  | string value =>
    have hshort : ¬ uint32Max ≤ value.length := by
      simp only [Item.bytes, List.length_append, List.length_singleton] at hfit
      omega
    rw [put, if_neg hshort]
    exact write_aligned h (Item.bytes_ne_nil (.string value)) hfree hfit

theorem get_aligned {v : Item} {rest : List UInt8} (h : s.Aligned)
    (hplain : ∀ value, v = .string value → 0 ∉ value) (hunread : s.unread = v.bytes ++ rest) :
    ∃ s', s.get v.type = (.ok v, s') ∧ s'.Aligned ∧ s'.unread = rest := by
  cases v with
  | scalar t image =>
    obtain ⟨s', hread, halign, hrest⟩ := read_aligned h image hunread
    refine ⟨s', ?_, halign, hrest⟩
    simp [get, Item.type, hread]
  | string value =>
    have hunread' : s.unread = value ++ 0 :: rest := by simpa [Item.bytes] using hunread
    have hfuel : value.length < s.wpos - s.rpos + 1 := by
      rw [← s.length_unread, hunread', List.length_append]
      omega
    obtain ⟨s', hread, halign, hrest⟩ := readString_aligned (hplain value rfl) [] h hunread' hfuel
    refine ⟨s', ?_, halign, hrest⟩
    simp [get, Item.type, hread]

/-- A read that lacks data leaves the stream as it was, unless it is one of
a string and has bytes to read. -/
theorem get_lacking {t : ItemType} (h : s.Lacks t) (hempty : t = .string → s.unread = []) :
    s.get t = (.error .insufficientData, s) := by
  cases t with
  | scalar t =>
    have hread := read_lacking (n := t.sizeof) h
    rw [get, hread]
  | string => rw [get, readString_empty (hempty rfl)]

end BufferStream

-- ==== runs

/-- A stream, the values written to it and those read from it. -/
structure Traffic where
  stream : BufferStream
  written : List Item
  got : List Item

/-- `<<` and `>>`. -/
inductive StreamOp where
  | put (v : Item)
  | get (t : ItemType)

namespace Traffic

open BufferStream

/-- A stream over an empty buffer. -/
def init (capacity : Nat) (h : capacity ≤ uint32Max) : Traffic :=
  ⟨.ofBuffer (.ofCapacity capacity h), [], []⟩

def step (w : Traffic) : StreamOp → Traffic
  | .put v =>
    match w.stream.put v with
    | (.ok _, s) => { w with stream := s, written := w.written ++ [v] }
    | (.error _, s) => { w with stream := s }
  | .get t =>
    match w.stream.get t with
    | (.ok v, s) => { w with stream := s, got := w.got ++ [v] }
    | (.error _, s) => { w with stream := s }

/-- Reads follow the types written: a read is of the type of the next
value, or lacks the data. -/
def InType (w : Traffic) : StreamOp → Prop
  | .put _ => True
  | .get t => w.stream.Lacks t ∨ ∃ v, w.written[w.got.length]? = some v ∧ v.type = t

/-- The calls a stream serves: of strings without NUL, of what fits beside
the unread bytes, no write that would have to move bytes when none is
unread, and no string read that starts and cannot end. -/
def Served (w : Traffic) : StreamOp → Prop
  | .put v =>
    (∀ value, v = .string value → 0 ∉ value) ∧
      w.stream.unread.length + v.bytes.length ≤ uint32Max ∧ ¬ w.stream.Stuck v.bytes.length
  | .get t => t = .string → w.stream.Lacks t → w.stream.unread = []

/-- What the caller is owed: a write is taken; a read gives the next value
written, or, lacking data, throws and leaves the stream as it was. -/
def Owed (w : Traffic) : StreamOp → Prop
  | .put v => (w.stream.put v).1 = .ok ()
  | .get t =>
    if w.stream.Lacks t then w.stream.get t = (.error .insufficientData, w.stream)
    else ∃ v, w.written[w.got.length]? = some v ∧ (w.stream.get t).1 = .ok v

/-- What is written and not yet read lies in the stream. -/
structure Queued (w : Traffic) (pending : List Item) : Prop where
  aligned : w.stream.Aligned
  written : w.written = w.got ++ pending
  unread : w.stream.unread = pending.flatMap Item.bytes
  plain : ∀ value, Item.string value ∈ pending → 0 ∉ value

variable {w : Traffic} {pending : List Item} {op : StreamOp}

theorem put_queued {v : Item} (h : w.Queued pending) (hserved : w.Served (.put v)) :
    w.Owed (.put v) ∧ (w.step (.put v)).Queued (pending ++ [v]) := by
  obtain ⟨hplain, hfit, hfree⟩ := hserved
  obtain ⟨s', hput, halign, hunread⟩ := put_aligned h.aligned hfree hfit
  refine ⟨by rw [Owed, hput], ?_⟩
  simp only [step, hput]
  refine ⟨halign, ?_, ?_, ?_⟩
  · show w.written ++ [v] = w.got ++ (pending ++ [v])
    rw [h.written, List.append_assoc]
  · rw [hunread, h.unread]
    simp
  · intro value hmem
    rcases List.mem_append.1 hmem with hold | hnew
    · exact h.plain value hold
    · exact hplain value (List.mem_singleton.1 hnew).symm

theorem get_queued {t : ItemType} (h : w.Queued pending) (htype : w.InType (.get t))
    (hserved : w.Served (.get t)) :
    w.Owed (.get t) ∧ ∃ rest, (w.step (.get t)).Queued rest := by
  by_cases hlacks : w.stream.Lacks t
  · have hget := get_lacking hlacks fun ht => hserved ht hlacks
    refine ⟨by rw [Owed, if_pos hlacks, hget], pending, ?_⟩
    simp only [step, hget]
    exact h
  · obtain ⟨v, hnext, rfl⟩ := htype.resolve_left hlacks
    -- the next value written is the first one pending
    rw [h.written, List.getElem?_append_right le_rfl, Nat.sub_self] at hnext
    cases pending with
    | nil => cases hnext
    | cons x rest =>
      cases hnext
      have hunread : w.stream.unread = v.bytes ++ rest.flatMap Item.bytes := by
        rw [h.unread, List.flatMap_cons]
      obtain ⟨s', hget, halign, hrest⟩ := get_aligned h.aligned
        (fun value hv => h.plain value (hv ▸ List.mem_cons_self)) hunread
      refine ⟨?_, rest, ?_⟩
      · rw [Owed, if_neg hlacks]
        exact ⟨v, by rw [h.written, List.getElem?_append_right le_rfl, Nat.sub_self]; rfl,
          by rw [hget]⟩
      · simp only [step, hget]
        refine ⟨halign, ?_, hrest, fun value hmem => h.plain value (List.mem_cons_of_mem _ hmem)⟩
        show w.written = (w.got ++ [v]) ++ rest
        rw [h.written, List.append_assoc, List.singleton_append]

theorem queued_step (h : ∃ pending, w.Queued pending) (hok : w.InType op ∧ w.Served op) :
    w.Owed op ∧ ∃ pending, (w.step op).Queued pending := by
  obtain ⟨pending, hq⟩ := h
  cases op with
  | put v =>
    obtain ⟨howed, hnext⟩ := put_queued hq hok.2
    exact ⟨howed, _, hnext⟩
  | get t => exact get_queued hq hok.1 hok.2

theorem queued_init (capacity : Nat) (h : capacity ≤ uint32Max) :
    (init capacity h).Queued [] := by
  refine ⟨rfl, rfl, ?_, fun value hmem => absurd hmem List.not_mem_nil⟩
  show (([] : List UInt8).take 0).drop 0 = []
  rfl

/-- Along a run of served calls whose reads follow the types written, every
caller gets what he is owed, and what was read is what was written first. -/
theorem stream_fifo {capacity : Nat} {hcap : capacity ≤ uint32Max} {ops : List StreamOp}
    (h : Meets step (fun w op => w.InType op ∧ w.Served op) (init capacity hcap) ops) :
    Meets step Owed (init capacity hcap) ops ∧
      (run step (init capacity hcap) ops).got <+: (run step (init capacity hcap) ops).written := by
  have hinit : ∃ pending, (init capacity hcap).Queued pending := ⟨[], queued_init capacity hcap⟩
  constructor
  · refine (h.and_inv (P := fun w => ∃ pending, w.Queued pending)
      (fun w op hw hok => (queued_step hw hok).2) hinit).imp ?_
    exact fun w op hw => (queued_step hw.1 hw.2).1
  · obtain ⟨pending, hq⟩ := run_inv (P := fun w => ∃ pending, w.Queued pending)
      (fun w op hw hok => (queued_step hw hok).2) hinit h
    exact ⟨pending, hq.written.symm⟩

/-- A 32-bit integer, as it lies in memory. -/
def word (b : UInt8) : Item := .scalar .uint32 ⟨[b, 0, 0, 0], rfl⟩

/-- An integer and a string through a block that starts with 4 bytes, and a
read too many. -/
theorem stream_fifo_words :
    Meets step Owed (init 4 (by decide)) [.put (word 1), .put (.string [0x61]),
        .get (.scalar .uint32), .get .string, .get .string] ∧
      (run step (init 4 (by decide)) [.put (word 1), .put (.string [0x61]),
        .get (.scalar .uint32), .get .string, .get .string]).got
          <+: (run step (init 4 (by decide)) [.put (word 1), .put (.string [0x61]),
            .get (.scalar .uint32), .get .string, .get .string]).written := by
  refine stream_fifo ⟨⟨trivial, ?_, by decide, by decide⟩, ⟨trivial, ?_, by decide, by decide⟩,
    ⟨Or.inr ⟨word 1, rfl, rfl⟩, ?_⟩, ⟨Or.inr ⟨.string [0x61], rfl, rfl⟩, ?_⟩,
    ⟨Or.inl (by decide), fun _ _ => rfl⟩, trivial⟩
  · intro value hv
    cases hv
  · intro value hv
    cases hv
    decide
  · intro ht
    cases ht
  · intro _ hlacks
    exact absurd hlacks (by decide)

/-- A block of 4 bytes takes one integer, gives it back, and takes no
more. -/
theorem not_stream_fifo :
    ¬ ∀ (capacity : Nat) (hcap : capacity ≤ uint32Max) (ops : List StreamOp),
      Meets step InType (init capacity hcap) ops → Meets step Owed (init capacity hcap) ops := by
  intro h
  have howed := h 4 (by decide) [.put (word 1), .get (.scalar .uint32), .put (word 2)]
    ⟨trivial, Or.inr ⟨word 1, rfl, rfl⟩, trivial, trivial⟩
  have hthird : ((run step (init 4 (by decide))
      [.put (word 1), .get (.scalar .uint32)]).stream.put (word 2)).1 = .ok () := howed.2.2.1
  have hthrows : ((run step (init 4 (by decide))
      [.put (word 1), .get (.scalar .uint32)]).stream.put (word 2)).1
        = .error .notEnoughMemory := rfl
  rw [hthrows] at hthird
  cases hthird

end Traffic

end Eular.Utils
