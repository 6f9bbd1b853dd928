/-
A bit map is a set of indexes, as long as no bit is left behind its size.

The bits of a map are those of its block up to the capacity, and `set` and
`at` refuse what is beyond that: so the map is exact where no bit between the
size and the capacity is ever set. A call that keeps to it (`Keeps`) sets no
index there, leaves none there by a shrink, and gets the memory it asks for;
`Represents` is then kept by every call, and the call answers what the set
answers (`agrees_call`). `bitmaps_exact` is the run.
-/
import Mathlib.Data.List.Count
import Eular.Utils.BitMap

namespace Eular.Utils

open Lib

-- ==== memory

theorem getBit_zero (i : Nat) : getBit (fun _ => 0) i = false := by
  simp [getBit]

theorem BitMap.count_eq (b : BitMap) {block : Block} (hblock : b.mBitMap = some block)
    (hcapacity : b.mCapacity < 2 ^ 32) :
    b.count = countBits block.memory 0 (8 * (b.mCapacity / BITS_PEER_BYTE)) := by
  unfold count
  rw [hblock]
  dsimp only [Option.map_some, Option.getD_some]
  generalize hbytes : b.mCapacity / BITS_PEER_BYTE = bytes
  have hwords : (List.range (bytes / 8)).map
        (fun i => countBits64 (readLittle block.memory (8 * i) 8))
      = (List.range (bytes / 8)).map fun i => countBits block.memory (0 + 64 * i) 64 := by
    apply List.map_congr_left
    intro i _
    have hhalves := popcount_add 32 32 (readLittle block.memory (8 * i) 8)
    have hword := popcount_readLittle block.memory (8 * i) 8
    unfold countBits64
    rw [← hhalves]
    refine hword.trans ?_
    congr 1
    omega
  have hrest : (List.range (bytes % 8)).map
        (fun i => popcount 8 (block.memory (8 * (bytes / 8) + i)).toNat)
      = (List.range (bytes % 8)).map
        fun i => countBits block.memory (64 * (bytes / 8) + 8 * i) 8 := by
    apply List.map_congr_left
    intro i _
    rw [popcount_byte]
    congr 1
    omega
  rw [hwords, hrest, sum_countBits, sum_countBits]
  have hall := countBits_add block.memory 0 (64 * (bytes / 8)) (8 * (bytes % 8))
  rw [Nat.zero_add] at hall
  rw [← hall]
  have hwhole : 64 * (bytes / 8) + 8 * (bytes % 8) = 8 * bytes := by omega
  rw [hwhole]
  apply Nat.mod_eq_of_lt
  have hle := countBits_le block.memory 0 (8 * bytes)
  unfold BITS_PEER_BYTE at hbytes
  omega

-- ==== sets

namespace IndexSet

theorem at_of_le {s : IndexSet} {i : Nat} (h : s.size ≤ i) : s.at' i = false := by
  rw [at', decide_eq_false (Nat.not_lt.mpr h), Bool.false_and]

theorem at_resize (s : IndexSet) (size i : Nat) :
    (s.resize size).at' i = (decide (i < size) && s.at' i) := rfl

theorem at_empty (size i : Nat) : (empty size).at' i = false := Bool.and_false _

end IndexSet

-- ==== one object

/-- A map with a block that is in step with a set: the bits behind the size are clear. -/
structure Represents (b : BitMap) (s : IndexSet) (block : Block) : Prop where
  block_eq : b.mBitMap = some block
  capacity_eq : b.mCapacity = 8 * block.bytes
  capacity_pos : 0 < b.mCapacity
  capacity_lt : b.mCapacity < 2 ^ 32
  size_eq : b.mSize = s.size
  size_le : s.size ≤ b.mCapacity
  bits : ∀ i < b.mCapacity, getBit block.memory i = s.at' i

namespace BitMap

variable {b other : BitMap} {s t : IndexSet} {block source : Block}
variable {bitSize : Nat}

theorem at_eq (h : Represents b s block) (idx : Nat) : b.at? idx = some (s.at' idx) := by
  have hsize := h.size_le
  unfold at?
  split
  case isTrue hle =>
    rw [IndexSet.at_of_le (by omega)]
  case isFalse hlt =>
    rw [h.block_eq]
    exact congrArg some (h.bits idx (by omega))

theorem count_represents (h : Represents b s block) : b.count = s.count := by
  have hcapacity := h.capacity_eq
  have hbytes : 8 * (b.mCapacity / BITS_PEER_BYTE) = b.mCapacity := by
    unfold BITS_PEER_BYTE
    omega
  obtain ⟨rest, hrest⟩ := Nat.exists_eq_add_of_le h.size_le
  rw [count_eq b h.block_eq h.capacity_lt, hbytes]
  have hbits : countBits block.memory 0 b.mCapacity
      = (List.range b.mCapacity).countP s.at' := by
    apply List.countP_congr
    intro i hi
    rw [Nat.zero_add, h.bits i (List.mem_range.mp hi)]
  have hnone : (List.range rest).countP (s.at' ∘ fun i => s.size + i) = 0 := by
    rw [List.countP_eq_zero]
    intro i _
    simp [IndexSet.at']
  rw [hbits, hrest, List.range_add, List.countP_append, List.countP_map, hnone]
  rfl

theorem set_represents (h : Represents b s block) {idx : Nat}
    (hidx : idx < b.mSize ∨ b.mCapacity ≤ idx) (v : Bool) :
    ∃ b' block', b.set idx v = some ((s.set idx v).1, b')
      ∧ Represents b' (s.set idx v).2 block' := by
  have hsize := h.size_le
  have heq := h.size_eq
  by_cases hlt : idx < s.size
  · refine ⟨{ b with mBitMap := some { block with memory := setBit block.memory idx v } },
      { block with memory := setBit block.memory idx v }, ?_, rfl, h.capacity_eq,
      h.capacity_pos, h.capacity_lt, ?_, ?_, ?_⟩
    · unfold set IndexSet.set
      rw [if_neg (by omega), if_pos hlt, h.block_eq]
    · rw [IndexSet.set, if_pos hlt]
      exact heq
    · rw [IndexSet.set, if_pos hlt]
      exact hsize
    · intro i hi
      rw [IndexSet.set, if_pos hlt, getBit_setBit, h.bits i hi]
      unfold IndexSet.at'
      dsimp only
      by_cases hsame : i = idx
      · rw [if_pos hsame, hsame, Function.update_self, decide_eq_true hlt, Bool.true_and]
      · rw [if_neg hsame, Function.update_of_ne hsame]
  · refine ⟨b, block, ?_, ?_⟩
    · unfold set IndexSet.set
      rw [if_pos (by omega), if_neg hlt]
    · rw [IndexSet.set, if_neg hlt]
      exact h

theorem clear_represents (h : Represents b s block) :
    ∃ block', Represents b.clear s.clear block' := by
  refine ⟨{ block with memory := fun i =>
      if i < b.mCapacity / BITS_PEER_BYTE then 0 else block.memory i }, ?_, h.capacity_eq,
    h.capacity_pos, h.capacity_lt, h.size_eq, h.size_le, ?_⟩
  · unfold clear
    rw [h.block_eq]
    rfl
  · intro i hi
    have hi : i < b.mCapacity := hi
    have hcapacity := h.capacity_eq
    have hbyte : i / 8 < b.mCapacity / BITS_PEER_BYTE := by
      unfold BITS_PEER_BYTE
      omega
    simp [getBit, hbyte, IndexSet.clear, IndexSet.at_empty]

-- ==== blocks

theorem alloc_eq (hle : bitSize ≤ 2 ^ 32 - 8) (hpos : 0 < bitSize) (b : BitMap) :
    ∃ bytes, b.alloc true bitSize = (some ⟨bytes, fun _ => 0⟩,
        { b with mCapacity := 8 * bytes, mSize := 8 * bytes })
      ∧ bitSize ≤ 8 * bytes ∧ 8 * bytes < 2 ^ 32
      ∧ (bitSize % 8 = 0 → 8 * bytes = bitSize) := by
  refine ⟨bitSize / 8 + if bitSize % 8 ≠ 0 then 1 else 0, ?_, ?_, ?_, ?_⟩
  · have hbytes : (bitSize / 8 + if bitSize % 8 ≠ 0 then 1 else 0) * 8 % 2 ^ 32
        = 8 * (bitSize / 8 + if bitSize % 8 ≠ 0 then 1 else 0) := by
      split <;> omega
    unfold alloc BITS_PEER_BYTE
    dsimp only
    rw [if_pos rfl, hbytes]
  · split <;> omega
  · split <;> omega
  · intro hwhole
    rw [if_neg (by omega)]
    omega

theorem getBit_copyFront (bytes n i : Nat) :
    getBit (copyFront ⟨bytes, fun _ => 0⟩ (some source) n).memory i
      = (decide (i < 8 * n) && getBit source.memory i) := by
  unfold copyFront getBit
  dsimp only
  by_cases hi : i < 8 * n
  · rw [if_pos (by omega), decide_eq_true hi, Bool.true_and]
  · rw [if_neg (by omega), decide_eq_false hi, Bool.false_and]
    simp

theorem resize_represents (h : Represents b s block) {ok : Bool}
    (hshrink : bitSize ≤ b.mCapacity → ∀ i < b.mSize, bitSize ≤ i → b.at? i = some false)
    (hgrow : b.mCapacity < bitSize → ok = true ∧ bitSize ≤ 2 ^ 32 - 8) :
    (b.resize ok bitSize).1 = true
      ∧ ∃ block', Represents (b.resize ok bitSize).2 (s.resize bitSize) block' := by
  by_cases hle : bitSize ≤ b.mCapacity
  · rw [resize, if_pos hle]
    refine ⟨rfl, block, h.block_eq, h.capacity_eq, h.capacity_pos, h.capacity_lt, rfl, hle, ?_⟩
    intro i hi
    rw [h.bits i hi, IndexSet.at_resize]
    by_cases hin : i < bitSize
    · rw [decide_eq_true hin, Bool.true_and]
    · rw [decide_eq_false hin, Bool.false_and]
      by_cases hold : i < s.size
      · have hclear := hshrink hle i (by rw [h.size_eq]; exact hold) (by omega)
        rw [at_eq h] at hclear
        exact Option.some.inj hclear
      · exact IndexSet.at_of_le (by omega)
  · obtain ⟨rfl, hlimit⟩ := hgrow (by omega)
    obtain ⟨bytes, halloc, hroom, hbytes, -⟩ := alloc_eq hlimit (by omega) b
    have hcapacity := h.capacity_eq
    have hresize : b.resize true bitSize = (true, { b with
        mCapacity := 8 * bytes
        mSize := bitSize
        mBitMap := some (copyFront ⟨bytes, fun _ => 0⟩ (some block) block.bytes) }) := by
      have hfront : b.mCapacity / BITS_PEER_BYTE = block.bytes := by
        unfold BITS_PEER_BYTE
        omega
      unfold resize
      rw [if_neg hle, halloc]
      dsimp only
      rw [if_neg (by omega), hfront, h.block_eq]
    rw [hresize]
    refine ⟨rfl, _, rfl, rfl, show 0 < 8 * bytes by omega, hbytes, rfl, hroom, ?_⟩
    intro i _
    rw [getBit_copyFront, IndexSet.at_resize]
    by_cases hold : i < b.mCapacity
    · rw [decide_eq_true (by omega), Bool.true_and, h.bits i hold, decide_eq_true (by omega),
        Bool.true_and]
    · have hsize := h.size_le
      rw [decide_eq_false (by omega), Bool.false_and, IndexSet.at_of_le (by omega),
        Bool.and_false]

-- ==== constructions

theorem ofDefault_represents :
    ∃ block, Represents (ofDefault true) (IndexSet.empty DEFAULT_SIZE) block := by
  refine ⟨⟨32, fun _ => 0⟩, rfl, rfl, ?_, ?_, rfl, le_rfl, ?_⟩
  · show 0 < 256
    decide
  · show 256 < 2 ^ 32
    decide
  · intro i _
    rw [IndexSet.at_empty, getBit_zero]

theorem ofSize_represents (hle : bitSize ≤ 2 ^ 32 - 8) :
    ∃ block, Represents (ofSize true bitSize)
      (IndexSet.empty (if bitSize = 0 then DEFAULT_SIZE else bitSize)) block := by
  unfold ofSize
  generalize hsize : (if bitSize = 0 then DEFAULT_SIZE else bitSize) = size
  have hsizes : 0 < size ∧ size ≤ 2 ^ 32 - 8 := by
    unfold DEFAULT_SIZE at hsize
    split at hsize <;> omega
  obtain ⟨bytes, halloc, hroom, hbytes, -⟩ := alloc_eq hsizes.2 hsizes.1 {}
  have hresize : resize {} true size
      = (true, { mBitMap := some ⟨bytes, fun _ => 0⟩, mCapacity := 8 * bytes, mSize := size }) := by
    unfold resize
    rw [if_neg (Nat.not_le.mpr hsizes.1), halloc]
    rfl
  rw [hresize]
  refine ⟨⟨bytes, fun _ => 0⟩, rfl, rfl, show 0 < 8 * bytes by omega, hbytes, rfl, hroom, ?_⟩
  intro i _
  rw [IndexSet.at_empty, getBit_zero]

theorem copied_represents (b : BitMap) (h : Represents other t source) :
    ∃ block, Represents (b.copied true other) t block := by
  have hcapacity := h.capacity_eq
  have hpos := h.capacity_pos
  have hlt := h.capacity_lt
  have hlimit : other.mCapacity ≤ 2 ^ 32 - 8 := by omega
  obtain ⟨bytes, halloc, -, hbytes, hwhole⟩ := alloc_eq hlimit hpos b
  have hsame := hwhole (by omega)
  have hfront : 8 * bytes / BITS_PEER_BYTE = bytes := by
    unfold BITS_PEER_BYTE
    omega
  refine ⟨copyFront ⟨bytes, fun _ => 0⟩ (some source) bytes, ?_, ?_, ?_, ?_, h.size_eq, ?_, ?_⟩
  · unfold copied
    rw [halloc, h.block_eq]
    simp only [Option.map_some, hfront]
  · unfold copied
    rw [halloc]
    rfl
  · unfold copied
    rw [halloc]
    show 0 < 8 * bytes
    omega
  · unfold copied
    rw [halloc]
    exact hbytes
  · unfold copied
    rw [halloc]
    exact h.size_le.trans_eq hsame.symm
  · unfold copied
    rw [halloc]
    intro i hi
    have hi : i < 8 * bytes := hi
    rw [getBit_copyFront, decide_eq_true hi, Bool.true_and]
    exact h.bits i (by omega)

theorem ofCopy_represents (h : Represents other t source) :
    ∃ block, Represents (ofCopy true other) t block := by
  have hpos := h.capacity_pos
  rw [ofCopy, if_pos ⟨by rw [h.block_eq]; rfl, by omega⟩]
  exact copied_represents {} h

theorem assign_represents (b : BitMap) (h : Represents other t source) :
    ∃ block, Represents (b.assign true other) t block := by
  have hpos := h.capacity_pos
  rw [assign, if_pos ⟨by rw [h.block_eq]; rfl, by omega⟩]
  exact copied_represents b h

-- ==== the calls

/-- The calls that keep the maps exact: they get the memory they ask for, set no index between
the size and the capacity, and leave no index set there. -/
def Keeps (w : Objects BitMap) : BitMapOp → Prop
  | .new _ ok => ok = true
  | .newSize _ bitSize ok => ok = true ∧ bitSize ≤ 2 ^ 32 - 8
  | .newCopy _ _ ok => ok = true
  | .assign x y ok => x ≠ y → ok = true
  | .resize x bitSize ok => ∀ b ∈ w x,
      (bitSize ≤ b.mCapacity → ∀ i < b.mSize, bitSize ≤ i → b.at? i = some false)
        ∧ (b.mCapacity < bitSize → ok = true ∧ bitSize ≤ 2 ^ 32 - 8)
  | .set x idx _ => ∀ b ∈ w x, idx < b.mSize ∨ b.mCapacity ≤ idx
  | _ => True

instance Keeps.decidable (w : Objects BitMap) : ∀ op, Decidable (Keeps w op)
  | .new _ ok => inferInstanceAs (Decidable (ok = true))
  | .newSize _ bitSize ok => inferInstanceAs (Decidable (ok = true ∧ bitSize ≤ 2 ^ 32 - 8))
  | .newCopy _ _ ok => inferInstanceAs (Decidable (ok = true))
  | .assign x y ok => inferInstanceAs (Decidable (x ≠ y → ok = true))
  | .resize x bitSize ok => inferInstanceAs (Decidable (∀ b ∈ w x,
      (bitSize ≤ b.mCapacity → ∀ i < b.mSize, bitSize ≤ i → b.at? i = some false)
        ∧ (b.mCapacity < bitSize → ok = true ∧ bitSize ≤ 2 ^ 32 - 8)))
  | .set x idx _ => inferInstanceAs (Decidable (∀ b ∈ w x, idx < b.mSize ∨ b.mCapacity ≤ idx))
  | .clear _ => isTrue trivial
  | .at _ _ => isTrue trivial
  | .count _ => isTrue trivial
  | .size _ => isTrue trivial

/-- Every map is in step with its set. -/
def InStep (w : Objects BitMap) (a : Objects IndexSet) : Prop :=
  ∀ x, Option.Rel (fun b s => ∃ block, Represents b s block) (w x) (a x)

variable {w : Objects BitMap} {a : Objects IndexSet}

theorem InStep.update (h : InStep w a) (x : Nat) (hx : ∃ block, Represents b s block) :
    InStep (Function.update w x (some b)) (Function.update a x (some s)) := by
  intro y
  by_cases hy : y = x
  · rw [hy, Function.update_self, Function.update_self]
    exact .some hx
  · rw [Function.update_of_ne hy, Function.update_of_ne hy]
    exact h y

theorem InStep.on (h : InStep w a) (x : Nat) {f : BitMap → BitMapAnswer × BitMap}
    {g : IndexSet → BitMapAnswer × IndexSet}
    (hboth : ∀ b s block, w x = some b → Represents b s block →
      (f b).1 = (g s).1 ∧ ∃ block', Represents (f b).2 (g s).2 block') :
    (w.on x f).1 = (a.on x g).1 ∧ InStep (w.on x f).2 (a.on x g).2 := by
  have hx := h x
  unfold Objects.on
  cases hw : w x with
  | none =>
    rw [hw] at hx
    cases ha : a x with
    | none => exact ⟨rfl, h⟩
    | some s =>
      rw [ha] at hx
      cases hx
  | some b =>
    rw [hw] at hx
    cases ha : a x with
    | none =>
      rw [ha] at hx
      cases hx
    | some s =>
      rw [ha] at hx
      obtain ⟨block, hrepresents⟩ : ∃ block, Represents b s block := by
        cases hx with
        | some hx => exact hx
      obtain ⟨hanswer, hnext⟩ := hboth b s block hw hrepresents
      exact ⟨hanswer, h.update x hnext⟩

theorem agrees_call (h : InStep w a) (op : BitMapOp) (hkeeps : Keeps w op) :
    (call w op).1 = (IndexSet.call a op).1 ∧ InStep (step w op) (IndexSet.step a op) := by
  cases op with
  | new x ok =>
    obtain rfl : ok = true := hkeeps
    exact ⟨rfl, h.update x ofDefault_represents⟩
  | newSize x bitSize ok =>
    obtain ⟨rfl, hle⟩ : ok = true ∧ bitSize ≤ 2 ^ 32 - 8 := hkeeps
    exact ⟨rfl, h.update x (ofSize_represents hle)⟩
  | newCopy x y ok =>
    obtain rfl : ok = true := hkeeps
    have hy := h y
    unfold step IndexSet.step call IndexSet.call
    dsimp only
    revert hy
    cases w y with
    | none =>
      cases a y with
      | none => exact fun _ => ⟨rfl, h⟩
      | some t => exact nofun
    | some other =>
      cases a y with
      | none => exact nofun
      | some t =>
        rintro (⟨source, hsource⟩ | _)
        exact ⟨rfl, h.update x (ofCopy_represents hsource)⟩
  | assign x y ok =>
    have hy := h y
    unfold step IndexSet.step call IndexSet.call
    dsimp only
    revert hy
    cases hw : w y with
    | none =>
      cases a y with
      | none => exact fun _ => ⟨rfl, h⟩
      | some t => exact nofun
    | some other =>
      cases a y with
      | none => exact nofun
      | some t =>
        rintro (⟨source, hsource⟩ | _)
        apply h.on x
        intro b s block hb hrepresents
        refine ⟨rfl, ?_⟩
        dsimp only
        split
        case isTrue hsame =>
          rw [hsame, hw] at hb
          cases hb
          exact ⟨source, hsource⟩
        case isFalse hother =>
          obtain rfl : ok = true := hkeeps hother
          exact assign_represents b hsource
  | resize x bitSize ok =>
    apply h.on x
    intro b s block hb hrepresents
    obtain ⟨hshrink, hgrow⟩ := hkeeps b hb
    obtain ⟨hdone, hnext⟩ := resize_represents hrepresents hshrink hgrow
    exact ⟨congrArg BitMapAnswer.flag hdone, hnext⟩
  | set x idx v =>
    apply h.on x
    intro b s block hb hrepresents
    obtain ⟨b', block', hset, hnext⟩ := set_represents hrepresents (hkeeps b hb) v
    rw [hset]
    exact ⟨rfl, block', hnext⟩
  | clear x =>
    apply h.on x
    exact fun b s block _ hrepresents => ⟨rfl, clear_represents hrepresents⟩
  | «at» x idx =>
    apply h.on x
    intro b s block _ hrepresents
    rw [at_eq hrepresents]
    exact ⟨rfl, block, hrepresents⟩
  | count x =>
    apply h.on x
    intro b s block _ hrepresents
    exact ⟨congrArg BitMapAnswer.number (count_represents hrepresents), block, hrepresents⟩
  | size x =>
    apply h.on x
    intro b s block _ hrepresents
    exact ⟨congrArg BitMapAnswer.number hrepresents.size_eq, block, hrepresents⟩

theorem agrees_run (h : InStep w a) {ops : List BitMapOp} (hkeeps : Meets step Keeps w ops) :
    answers w ops = IndexSet.answers a ops
      ∧ InStep (run step w ops) (run IndexSet.step a ops) := by
  induction ops generalizing w a with
  | nil => exact ⟨rfl, h⟩
  | cons op ops ih =>
    obtain ⟨hop, hrest⟩ := hkeeps
    obtain ⟨hanswer, hnext⟩ := agrees_call h op hop
    obtain ⟨hanswers, hend⟩ := ih hnext hrest
    refine ⟨?_, hend⟩
    rw [answers, IndexSet.answers, hanswer, hanswers]

/-- A map shows its set: the size, every index, the count. -/
def Shows (b : BitMap) (s : IndexSet) : Prop :=
  b.mSize = s.size ∧ (∀ i, b.at? i = some (s.at' i)) ∧ b.count = s.count

/-- Along every run of calls that keep the maps exact, each answers what the sets answer, and the
maps show the sets. -/
theorem bitmaps_exact (ops : List BitMapOp) (hkeeps : Meets step Keeps (fun _ => none) ops) :
    answers (fun _ => none) ops = IndexSet.answers (fun _ => none) ops
      ∧ ∀ x, Option.Rel Shows (run step (fun _ => none) ops x)
        (run IndexSet.step (fun _ => none) ops x) := by
  obtain ⟨hanswers, hend⟩ := agrees_run (w := fun _ => none) (a := fun _ => none)
    (fun _ => .none) hkeeps
  refine ⟨hanswers, fun x => ?_⟩
  have hx := hend x
  generalize run step (fun _ => none) ops x = b at hx ⊢
  generalize run IndexSet.step (fun _ => none) ops x = s at hx ⊢
  cases hx with
  | none => exact .none
  | some hx =>
    obtain ⟨block, hrepresents⟩ := hx
    exact .some ⟨hrepresents.size_eq, at_eq hrepresents, count_represents hrepresents⟩

/-- Two maps, one a copy that goes its own way, a shrink that leaves nothing behind. -/
def someMaps : List BitMapOp :=
  [.newSize 0 10 true, .set 0 3 true, .newCopy 1 0 true, .set 1 3 false, .resize 1 5 true,
    .resize 1 40 true, .set 1 33 true, .count 0, .count 1, .at 1 3, .set 0 16 true]

theorem bitmaps_exact_someMaps :
    answers (fun _ => none) someMaps = IndexSet.answers (fun _ => none) someMaps
      ∧ ∀ x, Option.Rel Shows (run step (fun _ => none) someMaps x)
        (run IndexSet.step (fun _ => none) someMaps x) :=
  bitmaps_exact someMaps (by decide +kernel)

/-- An index behind the size is set and counted; and a bit that a shrink leaves behind is counted
and comes back. -/
theorem set_behind_size :
    answers (fun _ => none) [.newSize 0 10 true, .set 0 13 true, .count 0]
        = [.done, .flag true, .number 1]
      ∧ IndexSet.answers (fun _ => none) [.newSize 0 10 true, .set 0 13 true, .count 0]
        = [.done, .flag false, .number 0]
      ∧ answers (fun _ => none)
          [.newSize 0 16 true, .set 0 12 true, .resize 0 10 true, .count 0, .resize 0 16 true,
            .at 0 12]
        = [.done, .flag true, .flag true, .number 1, .flag true, .flag true]
      ∧ IndexSet.answers (fun _ => none)
          [.newSize 0 16 true, .set 0 12 true, .resize 0 10 true, .count 0, .resize 0 16 true,
            .at 0 12]
        = [.done, .flag true, .flag true, .number 0, .flag true, .flag false] := by
  decide +kernel

end BitMap

end Eular.Utils
