/-
What is acknowledged of a stream.

The set of acknowledged bytes is told by an offset and the ranges ahead of it
(`AckedPrefix`): every byte before the offset is acknowledged, the byte there is
not, and the ranges are the separate ranges of the rest. `mergeRange` adds a
range to such a list (`mergeRange_eq`); the first range then holds the offset or
none does, and in the first case the offset moves to its end, for which there
are bytes in the ring, since all of them are in flight (`Sending`). A call thus
adds its range to the set (`acked_onPacketAcked`) and moves the ring by what the
offset has moved (`moved_onPacketAcked`). A set has one such description, so the
order of the calls does not matter (`moved_unique`).
-/
import Eular.Lib.Ranges
import Eular.Utp.Stream.Proofs.RingBuffer
import Eular.Utp.Stream.SendHalf

namespace Eular.Utp

open Eular.Lib

namespace SendHalf

-- ==== ranges

theorem eraseReached_eq (stop : Nat) (ranges : List (Nat × Nat)) :
    eraseReached stop ranges = Ranges.absorb stop ranges := by
  induction ranges generalizing stop with
  | nil => rfl
  | cons r ranges ih => rw [eraseReached, Ranges.absorb, ih]

theorem mergeRange_eq {ranges : List (Nat × Nat)} {start stop : Nat}
    (h : Ranges.Separate ranges) (hlt : start < stop) :
    mergeRange ranges start stop = Ranges.add start stop ranges := by
  have hsplit := h.split start
  unfold mergeRange Ranges.add lowerBound
  simp only [eraseReached_eq]
  generalize ranges.takeWhile (fun r => r.1 < start) = before at *
  generalize ranges.dropWhile (fun r => r.1 < start) = after at *
  have hbeyond {low end' : Nat} (hlow : low ≤ start) (hend : stop ≤ end') :
      ∀ r ∈ (Ranges.absorb end' after).2, low < r.1 := by
    intro r hr
    have hspec : Ranges.Absorbed start end' after (Ranges.absorb end' after) :=
      Ranges.absorb_spec hsplit.separate_after hsplit.le
    have := hspec.beyond r hr
    have := hspec.le
    omega
  cases hlast : before.getLast? with
  | none => exact put_append hsplit.lt (hbeyond le_rfl le_rfl)
  | some p =>
    obtain ⟨init, rfl⟩ : ∃ init, before = init ++ [p] :=
      ⟨before.dropLast, (List.dropLast_append_getLast? p hlast).symm⟩
    obtain ⟨hinit, hp_lt, hinit_lt⟩ := hsplit.concat
    rw [List.dropLast_concat]
    dsimp only
    by_cases hjoin : start ≤ p.2
    · rw [if_pos hjoin, if_pos hjoin]
      apply put_append
      · intro r hr
        exact (hinit.nonempty r hr).trans (hinit_lt r hr)
      · exact hbeyond hp_lt.le (le_max_left _ _)
    · rw [if_neg hjoin, if_neg hjoin]
      exact put_append hsplit.lt (hbeyond le_rfl le_rfl)

-- ==== sending

/-- What is in flight and what is queued lie in the ring, one after the other. -/
structure Sending (s : SendHalf) : Prop where
  ring : s.sendBuffer.WellFormed
  acked_le : s.sendAckedOffset ≤ s.nextSendOffset
  next_lt : s.nextSendOffset < 2 ^ 64
  size : s.sendBuffer.size = s.nextSendOffset - s.sendAckedOffset + s.sendQueuedBytes

/-- The acknowledged offset and the ranges ahead of it, for the bytes that are acknowledged. -/
structure AckedPrefix (covered : Nat → Prop) (s : SendHalf) : Prop where
  before : ∀ x < s.sendAckedOffset, covered x
  longest : ¬ covered s.sendAckedOffset
  separate : Ranges.Separate s.sendAckedRanges
  above : ∀ r ∈ s.sendAckedRanges, s.sendAckedOffset < r.1
  ranges : ∀ x, Ranges.Covers s.sendAckedRanges x ↔ s.sendAckedOffset ≤ x ∧ covered x

/-- The offset and the ranges, and the ring as far on as the offset. -/
def moved (s : SendHalf) (offset : Nat) (ranges : List (Nat × Nat)) : SendHalf :=
  { s with
    sendBuffer := s.sendBuffer.consume (offset - s.sendAckedOffset)
    sendAckedOffset := offset
    sendInFlightBytes := s.sendInFlightBytes - (offset - s.sendAckedOffset)
    sendAckedRanges := ranges }

variable {s : SendHalf} {covered covered' : Nat → Prop}

theorem AckedPrefix.unique {t : SendHalf} (h : AckedPrefix covered s)
    (h' : AckedPrefix covered' t) (hsame : ∀ x, covered x ↔ covered' x) :
    s.sendAckedOffset = t.sendAckedOffset ∧ s.sendAckedRanges = t.sendAckedRanges := by
  have hoffset : s.sendAckedOffset = t.sendAckedOffset := by
    apply le_antisymm
    · by_contra hlt
      exact h'.longest ((hsame _).mp (h.before _ (not_le.mp hlt)))
    · by_contra hlt
      exact h.longest ((hsame _).mpr (h'.before _ (not_le.mp hlt)))
  refine ⟨hoffset, h.separate.eq_of_covers h'.separate fun x => ?_⟩
  rw [h.ranges, h'.ranges, hoffset, hsame]

theorem consume_zero {m : RingBuffer} (h : m.WellFormed) : m.consume 0 = m := by
  have hhead := h.head_lt
  obtain ⟨buffer, capacity, head, size⟩ := m
  simp only [RingBuffer.consume, Nat.zero_min, Nat.add_zero, Nat.sub_zero]
  split
  case isTrue hpos =>
    have hmod : head % 2 ^ 64 = head := RingBuffer.sum_mod (b := 0) h.head_le (Nat.zero_le _)
    dsimp only at hhead
    rw [hmod, Nat.mod_eq_of_lt (by omega)]
  case isFalse => rfl

theorem consume_consume {m : RingBuffer} (h : m.WellFormed) {a b : Nat} (hsize : a + b ≤ m.size) :
    (m.consume a).consume b = m.consume (a + b) := by
  have hle := h.size_le
  have hcapacity := h.capacity_le
  have hhead := h.head_le
  have hpos : m.capacity ≠ 0 ∨ (a = 0 ∧ b = 0) := by omega
  rcases hpos with hpos | ⟨rfl, rfl⟩
  · have hmod {n : Nat} (hn : n ≤ m.size) : (m.head + n) % 2 ^ 64 = m.head + n :=
      RingBuffer.sum_mod hhead (by omega)
    have hlt := Nat.mod_lt (m.head + a) (Nat.pos_of_ne_zero hpos)
    have hmod' : ((m.head + a) % m.capacity + b) % 2 ^ 64 = (m.head + a) % m.capacity + b :=
      RingBuffer.sum_mod (by omega) (by omega)
    have ha : min a m.size = a := by omega
    have hb : min b (m.size - a) = b := by omega
    have hab : min (a + b) m.size = a + b := by omega
    simp only [RingBuffer.consume, if_pos hpos, ha, hb, hab, hmod (show a ≤ m.size by omega),
      hmod hsize, hmod', Nat.mod_add_mod, Nat.add_assoc, Nat.sub_sub]
  · rw [consume_zero h, consume_zero h]

theorem moved_self (h : s.Sending) : s.moved s.sendAckedOffset s.sendAckedRanges = s := by
  simp only [moved, Nat.sub_self, consume_zero h.ring, Nat.sub_zero]

theorem moved_moved (h : s.Sending) {a b : Nat} (ha : s.sendAckedOffset ≤ a) (hab : a ≤ b)
    (hb : b ≤ s.nextSendOffset) (ranges ranges' : List (Nat × Nat)) :
    (s.moved a ranges).moved b ranges' = s.moved b ranges' := by
  have hsize := h.size
  have hsum : a - s.sendAckedOffset + (b - a) = b - s.sendAckedOffset := by omega
  simp only [moved, Nat.sub_sub, hsum,
    consume_consume h.ring (show a - s.sendAckedOffset + (b - a) ≤ s.sendBuffer.size by omega)]

theorem Sending.moved (h : s.Sending) {offset : Nat} (hle : s.sendAckedOffset ≤ offset)
    (hnext : offset ≤ s.nextSendOffset) (ranges : List (Nat × Nat)) :
    (s.moved offset ranges).Sending := by
  have hsize := h.size
  refine ⟨(RingBuffer.queue_consume h.ring _).1, hnext, h.next_lt, ?_⟩
  simp only [SendHalf.moved, RingBuffer.consume]
  omega

-- ==== acknowledgement

/-- The ranges may hold the offset itself. -/
structure Ahead (covered : Nat → Prop) (s : SendHalf) : Prop where
  before : ∀ x < s.sendAckedOffset, covered x
  separate : Ranges.Separate s.sendAckedRanges
  ranges : ∀ x, Ranges.Covers s.sendAckedRanges x ↔ s.sendAckedOffset ≤ x ∧ covered x

theorem dropPassed_self (h : ∀ r ∈ s.sendAckedRanges, s.sendAckedOffset < r.2) :
    dropPassed s = s := by
  have hkeep : s.sendAckedRanges.dropWhile (fun front => front.2 ≤ s.sendAckedOffset)
      = s.sendAckedRanges := by
    cases hranges : s.sendAckedRanges with
    | nil => rfl
    | cons r rest =>
      have hr := h r (by rw [hranges]; exact List.mem_cons_self)
      exact List.dropWhile_cons_of_neg (by simpa using hr)
  rw [dropPassed, hkeep]

theorem settled_none (hahead : Ahead covered s)
    (habove : ∀ r ∈ s.sendAckedRanges, s.sendAckedOffset < r.1) :
    dropPassed (advanceAcked s) = s ∧ AckedPrefix covered s := by
  constructor
  · have hadvance : advanceAcked s = s := by
      unfold advanceAcked
      split
      case h_1 => simp only [Nat.lt_irrefl, if_false]
      case h_2 b rest hranges =>
        have hb := habove b (by rw [hranges]; exact List.mem_cons_self)
        have hnot : ¬ (b.1 ≤ s.sendAckedOffset ∧ s.sendAckedOffset < b.2) := fun hin =>
          absurd hin.1 hb.not_ge
        rw [if_neg hnot]
        simp only [Nat.lt_irrefl, if_false]
    rw [hadvance]
    exact dropPassed_self fun r hr => (habove r hr).trans (hahead.separate.nonempty r hr)
  · refine ⟨hahead.before, ?_, hahead.separate, habove, hahead.ranges⟩
    intro hcovered
    obtain ⟨r, hr, hle, -⟩ := (hahead.ranges _).mpr ⟨le_rfl, hcovered⟩
    exact absurd hle (habove r hr).not_ge

theorem settled_first (h : s.Sending) (hahead : Ahead covered s) {b : Nat × Nat}
    {rest : List (Nat × Nat)} (hranges : s.sendAckedRanges = b :: rest)
    (hb : b.1 = s.sendAckedOffset) (hnext : b.2 ≤ s.nextSendOffset) :
    dropPassed (advanceAcked s) = s.moved b.2 rest
      ∧ AckedPrefix covered (s.moved b.2 rest) := by
  have hsize := h.size
  have hsep := hahead.separate
  have hcovers := hahead.ranges
  rw [hranges] at hsep hcovers
  obtain ⟨hlt, hfirst, hrest⟩ := Ranges.separate_cons.mp hsep
  constructor
  · have hdelta : min (b.2 - s.sendAckedOffset) s.sendBuffer.size = b.2 - s.sendAckedOffset := by
      omega
    have hoffset : s.sendAckedOffset + (b.2 - s.sendAckedOffset) = b.2 := by omega
    have hadvance : advanceAcked s = s.moved b.2 (b :: rest) := by
      have hin : b.1 ≤ s.sendAckedOffset ∧ s.sendAckedOffset < b.2 := ⟨hb.le, hb ▸ hlt⟩
      have hpos : 0 < b.2 - s.sendAckedOffset := Nat.sub_pos_of_lt hin.2
      unfold advanceAcked
      rw [hranges]
      dsimp only
      rw [if_pos hin, if_pos hin.2, hdelta, if_pos hpos, hoffset, moved]
    have hdrop : (b :: rest).dropWhile (fun front => front.2 ≤ b.2) = rest := by
      rw [List.dropWhile_cons_of_pos (by simp)]
      cases rest with
      | nil => rfl
      | cons r rest =>
        have hr := hfirst r List.mem_cons_self
        have hr' := hrest.nonempty r List.mem_cons_self
        apply List.dropWhile_cons_of_neg
        simp only [decide_eq_true_eq]
        omega
    rw [hadvance]
    exact congrArg (s.moved b.2) hdrop
  · constructor
    case before =>
      intro x hx
      rcases Nat.lt_or_ge x s.sendAckedOffset with hbefore | hin
      · exact hahead.before x hbefore
      · exact ((hcovers x).mp (Ranges.covers_cons.mpr (.inl ⟨hb ▸ hin, hx⟩))).2
    case longest =>
      intro hcovered
      exact hsep.not_covers_stop ((hcovers _).mpr ⟨(hb ▸ hlt).le, hcovered⟩)
    case separate => exact hrest
    case above => exact hfirst
    case ranges =>
      intro x
      constructor
      · intro hx
        exact ⟨(hsep.lt_of_covers hx).le,
          ((hcovers x).mp (Ranges.covers_cons.mpr (.inr hx))).2⟩
      · rintro ⟨hx, hcovered⟩
        have hx : b.2 ≤ x := hx
        rcases Ranges.covers_cons.mp ((hcovers x).mpr ⟨(hb ▸ hlt).le.trans hx, hcovered⟩)
          with hin | hin
        · exact absurd hin.2 hx.not_gt
        · exact hin

theorem settled (h : s.Sending) (hahead : Ahead covered s)
    (hsent : ∀ x, covered x → x < s.nextSendOffset) :
    ∃ offset ranges, dropPassed (advanceAcked s) = s.moved offset ranges
      ∧ s.sendAckedOffset ≤ offset ∧ offset ≤ s.nextSendOffset
      ∧ AckedPrefix covered (s.moved offset ranges) := by
  have hnone (habove : ∀ r ∈ s.sendAckedRanges, s.sendAckedOffset < r.1) :
      ∃ offset ranges, dropPassed (advanceAcked s) = s.moved offset ranges
        ∧ s.sendAckedOffset ≤ offset ∧ offset ≤ s.nextSendOffset
        ∧ AckedPrefix covered (s.moved offset ranges) := by
    obtain ⟨hsame, hacked⟩ := settled_none hahead habove
    refine ⟨s.sendAckedOffset, s.sendAckedRanges, ?_, le_rfl, h.acked_le, ?_⟩
    · rw [hsame, moved_self h]
    · rw [moved_self h]
      exact hacked
  cases hranges : s.sendAckedRanges with
  | nil => exact hnone fun r hr => absurd (hranges ▸ hr) List.not_mem_nil
  | cons b rest =>
    have hsep := hahead.separate
    have hcovers := hahead.ranges
    rw [hranges] at hsep hcovers
    obtain ⟨hlt, hfirst, -⟩ := Ranges.separate_cons.mp hsep
    have hstart := (hcovers _).mp hsep.covers_start
    have hlast : b.1 ≤ b.2 - 1 ∧ b.2 - 1 < b.2 := by omega
    have hstop := hsent _ ((hcovers _).mp (Ranges.covers_cons.mpr (.inl hlast))).2
    rcases hstart.1.eq_or_lt with hb | hb
    · obtain ⟨hmoved, hacked⟩ := settled_first h hahead hranges hb.symm (by omega)
      exact ⟨b.2, rest, hmoved, hb ▸ hlt.le, by omega, hacked⟩
    · apply hnone
      intro r hr
      rw [hranges] at hr
      rcases List.mem_cons.mp hr with rfl | hr
      · exact hb
      · exact hb.trans (hlt.trans (hfirst r hr))

/-- The bytes `[offset, offset + len)` as well. -/
def also (covered : Nat → Prop) (call : Nat × Nat) (x : Nat) : Prop :=
  covered x ∨ (call.1 ≤ x ∧ x < call.1 + call.2)

theorem acked_onPacketAcked (h : s.Sending) (hacked : AckedPrefix covered s)
    (hsent : ∀ x, covered x → x < s.nextSendOffset) {offset len : Nat}
    (hcall : offset + len ≤ s.nextSendOffset) :
    ∃ acked ranges, s.onPacketAcked offset len = s.moved acked ranges
      ∧ s.sendAckedOffset ≤ acked ∧ acked ≤ s.nextSendOffset
      ∧ AckedPrefix (also covered (offset, len)) (s.moved acked ranges) := by
  have hstop : (offset + len) % 2 ^ 64 = offset + len :=
    Nat.mod_eq_of_lt (hcall.trans_lt h.next_lt)
  have hkept (hold : ∀ x, also covered (offset, len) x ↔ covered x)
      (hsame : s.onPacketAcked offset len = s) :
      ∃ acked ranges, s.onPacketAcked offset len = s.moved acked ranges
        ∧ s.sendAckedOffset ≤ acked ∧ acked ≤ s.nextSendOffset
        ∧ AckedPrefix (also covered (offset, len)) (s.moved acked ranges) := by
    refine ⟨s.sendAckedOffset, s.sendAckedRanges, ?_, le_rfl, h.acked_le, ?_⟩
    · rw [hsame, moved_self h]
    · rw [moved_self h, funext fun x => propext (hold x)]
      exact hacked
  by_cases hempty : len = 0
  · apply hkept
    · intro x
      simp only [also, or_iff_left_iff_imp]
      rintro ⟨hlow, hhigh⟩
      omega
    · exact if_pos hempty
  · by_cases hpassed : offset + len ≤ s.sendAckedOffset
    · apply hkept
      · intro x
        simp only [also, or_iff_left_iff_imp]
        intro hx
        exact hacked.before x (by omega)
      · unfold onPacketAcked
        rw [if_neg hempty]
        dsimp only
        rw [hstop, if_pos hpassed]
    · have hcall' : s.onPacketAcked offset len = dropPassed (advanceAcked { s with
          sendAckedRanges := mergeRange s.sendAckedRanges (max offset s.sendAckedOffset)
            (offset + len) }) := by
        unfold onPacketAcked
        rw [if_neg hempty]
        dsimp only
        rw [hstop, if_neg hpassed]
        congr 4
        split <;> omega
      have hlt : max offset s.sendAckedOffset < offset + len := by omega
      obtain ⟨hsep, hcovers⟩ := Ranges.add_spec hacked.separate hlt
      rw [← mergeRange_eq hacked.separate hlt] at hsep hcovers
      have hahead : Ahead (also covered (offset, len)) { s with
          sendAckedRanges := mergeRange s.sendAckedRanges (max offset s.sendAckedOffset)
            (offset + len) } := by
        refine ⟨fun x hx => .inl (hacked.before x hx), hsep, fun x => ?_⟩
        rw [hcovers, hacked.ranges]
        simp only [also, max_le_iff]
        tauto
      have hsent' : ∀ x, also covered (offset, len) x → x < s.nextSendOffset := by
        rintro x (hx | ⟨hlow, hhigh⟩)
        · exact hsent x hx
        · exact lt_of_lt_of_le hhigh hcall
      have hsending : Sending { s with
          sendAckedRanges := mergeRange s.sendAckedRanges (max offset s.sendAckedOffset)
            (offset + len) } := ⟨h.ring, h.acked_le, h.next_lt, h.size⟩
      rw [hcall']
      exact settled hsending hahead hsent'

-- ==== runs

/-- `written` is what has been committed, of which the ring holds what is not acknowledged, and
`covered` what is. -/
structure Streaming (covered : Nat → Prop) (written : List UInt8) (s : SendHalf) : Prop where
  sending : s.Sending
  acked : AckedPrefix covered s
  sent : ∀ x, covered x → x < s.nextSendOffset
  contents : s.sendBuffer.queue.contents = written.drop s.sendAckedOffset
  length : written.length = s.nextSendOffset + s.sendQueuedBytes

variable {written : List UInt8}

theorem Streaming.fillWriteBuffer (h : s.Streaming covered written) (maxBytes i : Nat)
    (byte : UInt8) : (s.fillWriteBuffer maxBytes i byte).Streaming covered written := by
  unfold SendHalf.fillWriteBuffer
  split
  case isTrue => exact h
  case isFalse =>
    obtain ⟨hring, hqueue⟩ := RingBuffer.queue_store h.sending.ring
      (min maxBytes s.appWriteCredit) i byte
    have hcontents := congrArg RoomyQueue.contents hqueue
    rw [apply_ite RoomyQueue.contents] at hcontents
    have hsame : (s.sendBuffer.store (min maxBytes s.appWriteCredit) i byte).queue.contents
        = s.sendBuffer.queue.contents := by
      rw [hcontents]
      split <;> rfl
    have hsize := congrArg List.length hsame
    rw [RingBuffer.length_contents, RingBuffer.length_contents] at hsize
    exact ⟨⟨hring, h.sending.acked_le, h.sending.next_lt, hsize.trans h.sending.size⟩,
      ⟨h.acked.before, h.acked.longest, h.acked.separate, h.acked.above, h.acked.ranges⟩,
      h.sent, hsame.trans h.contents, h.length⟩

/-- What `commitWrite` takes in. -/
def taken (s : SendHalf) : SendOp → List UInt8
  | .commitWrite bytes _ => if s.Refuses bytes then [] else s.sendBuffer.queue.room.take bytes
  | _ => []

theorem Streaming.commitWrite (h : s.Streaming covered written) (bytes : Nat) (fin : Bool) :
    (s.commitWrite bytes fin).Streaming covered (written ++ s.taken (.commitWrite bytes fin)) := by
  by_cases hrefuses : s.Refuses bytes
  · simp only [SendHalf.commitWrite, taken, if_pos hrefuses, List.append_nil]
    exact h
  · simp only [SendHalf.commitWrite, taken, if_neg hrefuses]
    have htakes := hrefuses
    unfold Refuses at htakes
    have hfree : bytes ≤ s.sendBuffer.freeSize := by omega
    have hlen : (s.sendBuffer.queue.room.take bytes).length = bytes := by
      rw [List.length_take, RingBuffer.length_room, min_eq_left hfree]
    obtain ⟨hring, hqueue⟩ := RingBuffer.queue_produce h.sending.ring
      (n := bytes) (by unfold maxAlloc; omega)
    have hcontents : (s.sendBuffer.produce bytes).queue.contents
        = (written ++ s.sendBuffer.queue.room.take bytes).drop s.sendAckedOffset := by
      have hle := h.sending.acked_le
      have hlength := h.length
      rw [hqueue, RoomyQueue.push, h.contents, List.drop_append_of_le_length (by omega)]
    have hsize := congrArg List.length hcontents
    have hlength := h.length
    have hle := h.sending.acked_le
    rw [RingBuffer.length_contents, List.length_drop, List.length_append, hlen] at hsize
    by_cases hpos : 0 < bytes
    · simp only [if_pos hpos]
      refine ⟨⟨hring, hle, h.sending.next_lt, by dsimp only; omega⟩,
        ⟨h.acked.before, h.acked.longest, h.acked.separate, h.acked.above, h.acked.ranges⟩,
        h.sent, hcontents, ?_⟩
      rw [List.length_append, hlen]
      dsimp only
      omega
    · have hzero : bytes = 0 := by omega
      simp only [hzero, List.take_zero, List.append_nil]
      exact ⟨⟨h.sending.ring, hle, h.sending.next_lt, h.sending.size⟩,
        ⟨h.acked.before, h.acked.longest, h.acked.separate, h.acked.above, h.acked.ranges⟩,
        h.sent, h.contents, h.length⟩

theorem Streaming.sendTurn (h : s.Streaming covered written) (payloadLen : Nat) :
    (s.sendTurn payloadLen).Streaming covered written := by
  have hsize := h.sending.size
  have hle := h.sending.acked_le
  have hlength := h.length
  have hqueued : s.sendBuffer.size
      - min (s.nextSendOffset - s.sendAckedOffset) s.sendBuffer.size = s.sendQueuedBytes := by
    omega
  unfold SendHalf.sendTurn
  simp only [hqueued, Nat.lt_irrefl, if_false]
  split
  case isTrue => exact h
  case isFalse htaken =>
    refine ⟨⟨h.sending.ring, by dsimp only; omega, by dsimp only; omega, by dsimp only; omega⟩,
      ⟨h.acked.before, h.acked.longest, h.acked.separate, h.acked.above, h.acked.ranges⟩,
      ?_, h.contents, by dsimp only; omega⟩
    intro x hx
    exact (h.sent x hx).trans_le (Nat.le_add_right _ _)

theorem Streaming.onPacketAcked (h : s.Streaming covered written) {offset len : Nat}
    (hcall : offset + len ≤ s.nextSendOffset) :
    (s.onPacketAcked offset len).Streaming (also covered (offset, len)) written := by
  obtain ⟨acked, ranges, hmoved, hle, hnext, hacked⟩ :=
    acked_onPacketAcked h.sending h.acked h.sent hcall
  rw [hmoved]
  refine ⟨h.sending.moved hle hnext ranges, hacked, ?_, ?_, h.length⟩
  · rintro x (hx | ⟨hlow, hhigh⟩)
    · exact h.sent x hx
    · exact lt_of_lt_of_le hhigh hcall
  · have hqueue := (RingBuffer.queue_consume h.sending.ring (acked - s.sendAckedOffset)).2
    have hsum : s.sendAckedOffset + (acked - s.sendAckedOffset) = acked := by omega
    simp only [moved]
    rw [hqueue, RoomyQueue.pop, h.contents, List.drop_drop, hsum]

/-- The bytes that a run commits. -/
def committed (s : SendHalf) : List SendOp → List UInt8
  | [] => []
  | op :: ops => s.taken op ++ (s.step op).committed ops

/-- The ranges that are acknowledged in a run. -/
def acks : List SendOp → List (Nat × Nat) :=
  List.filterMap fun
    | .onPacketAcked offset len => some (offset, len)
    | _ => none

def AckedBy (calls : List (Nat × Nat)) (x : Nat) : Prop :=
  ∃ call ∈ calls, call.1 ≤ x ∧ x < call.1 + call.2

/-- Acknowledgements are of data that has been sent. -/
def OfSent (s : SendHalf) : SendOp → Prop
  | .onPacketAcked offset len => offset + len ≤ s.nextSendOffset
  | _ => True

theorem Streaming.congr (h : s.Streaming covered written) {written' : List UInt8}
    (hsame : ∀ x, covered x ↔ covered' x) (hwritten : written = written') :
    s.Streaming covered' written' := by
  rw [← hwritten, ← funext fun x => propext (hsame x)]
  exact h

theorem ackedBy_cons {call : Nat × Nat} {calls : List (Nat × Nat)} {x : Nat} :
    AckedBy (call :: calls) x ↔ (call.1 ≤ x ∧ x < call.1 + call.2) ∨ AckedBy calls x := by
  simp [AckedBy]

theorem streaming_run {ops : List SendOp} (h : s.Streaming covered written)
    (hsent : Meets step OfSent s ops) :
    (run step s ops).Streaming (fun x => covered x ∨ AckedBy (acks ops) x)
      (written ++ s.committed ops) := by
  induction ops generalizing s covered written with
  | nil =>
    apply h.congr
    · intro x
      simp [acks, AckedBy]
    · exact (List.append_nil _).symm
  | cons op ops ih =>
    obtain ⟨hop, hops⟩ := hsent
    cases op with
    | fillWriteBuffer maxBytes i byte => exact ih (h.fillWriteBuffer maxBytes i byte) hops
    | commitWrite bytes fin =>
      apply (ih (h.commitWrite bytes fin) hops).congr (fun x => Iff.rfl)
      exact List.append_assoc _ _ _
    | sendTurn payloadLen => exact ih (h.sendTurn payloadLen) hops
    | onPacketAcked offset len =>
      apply (ih (h.onPacketAcked hop) hops).congr _ rfl
      intro x
      have hacks : acks (.onPacketAcked offset len :: ops) = (offset, len) :: acks ops := rfl
      rw [hacks, ackedBy_cons]
      exact or_assoc

-- ==== acknowledgements

def ackOps (calls : List (Nat × Nat)) : List SendOp :=
  calls.map fun call => .onPacketAcked call.1 call.2

theorem moved_run {calls : List (Nat × Nat)} (h : s.Streaming covered written)
    (hsent : ∀ call ∈ calls, call.1 + call.2 ≤ s.nextSendOffset) :
    ∃ acked ranges, run step s (ackOps calls) = s.moved acked ranges
      ∧ s.sendAckedOffset ≤ acked ∧ acked ≤ s.nextSendOffset
      ∧ AckedPrefix (fun x => covered x ∨ AckedBy calls x) (s.moved acked ranges) := by
  induction calls generalizing s covered with
  | nil =>
    refine ⟨s.sendAckedOffset, s.sendAckedRanges, (moved_self h.sending).symm, le_rfl,
      h.sending.acked_le, ?_⟩
    rw [moved_self h.sending]
    simpa [AckedBy] using h.acked
  | cons call calls ih =>
    have hcall := hsent call List.mem_cons_self
    obtain ⟨acked, ranges, hmoved, hle, hnext, -⟩ :=
      acked_onPacketAcked h.sending h.acked h.sent hcall
    have hstep : s.step (.onPacketAcked call.1 call.2) = s.moved acked ranges := hmoved
    have hstreaming := h.onPacketAcked hcall
    rw [hmoved] at hstreaming
    obtain ⟨acked', ranges', hmoved', hle', hnext', hacked⟩ := ih hstreaming fun c hc =>
      hsent c (List.mem_cons_of_mem _ hc)
    have hboth : (s.moved acked ranges).moved acked' ranges' = s.moved acked' ranges' :=
      moved_moved h.sending hle hle' hnext' _ _
    rw [hboth] at hmoved' hacked
    refine ⟨acked', ranges', ?_, hle.trans hle', hnext', ?_⟩
    · rw [ackOps, List.map_cons, run_cons, hstep]
      exact hmoved'
    · have hcovers : (fun x => also covered call x ∨ AckedBy calls x)
          = fun x => covered x ∨ AckedBy (call :: calls) x := by
        funext x
        rw [ackedBy_cons]
        exact propext or_assoc
      rw [← hcovers]
      exact hacked

theorem run_perm {calls calls' : List (Nat × Nat)} (h : s.Streaming covered written)
    (hsent : ∀ call ∈ calls, call.1 + call.2 ≤ s.nextSendOffset) (hperm : calls.Perm calls') :
    run step s (ackOps calls) = run step s (ackOps calls') := by
  obtain ⟨acked, ranges, hmoved, -, -, hacked⟩ := moved_run h hsent
  obtain ⟨acked', ranges', hmoved', -, -, hacked'⟩ := moved_run h fun call hcall =>
    hsent call (hperm.mem_iff.mpr hcall)
  have hsame : ∀ x, (covered x ∨ AckedBy calls x) ↔ (covered x ∨ AckedBy calls' x) := by
    intro x
    simp only [AckedBy, hperm.mem_iff]
  obtain ⟨hacked, hranges⟩ := hacked.unique hacked' hsame
  have hacked : acked = acked' := hacked
  have hranges : ranges = ranges' := hranges
  rw [hmoved, hmoved', hacked, hranges]

/-- A stream that nothing has been written to. -/
def opened (bufferLimit : Nat) (sendBuffer : RingBuffer) : SendHalf := { bufferLimit, sendBuffer }

theorem streaming_opened (bufferLimit : Nat) {sendBuffer : RingBuffer}
    (hnew : sendBuffer.Constructed) :
    (opened bufferLimit sendBuffer).Streaming (fun _ => False) [] := by
  obtain ⟨hwell, hempty, -⟩ := hnew.wellFormed
  have hsize : sendBuffer.size = 0 := by
    rw [← RingBuffer.length_contents, hempty]
    rfl
  exact ⟨⟨hwell, le_rfl, by simp [opened], hsize⟩,
    ⟨fun x hx => absurd hx (Nat.not_lt_zero x), fun h => h, Ranges.separate_nil,
      fun r hr => absurd hr List.not_mem_nil,
      fun x => ⟨fun hx => absurd hx Ranges.not_covers_nil, fun hx => hx.2.elim⟩⟩,
    fun x hx => hx.elim, hempty, rfl⟩

/-- After any run of a stream: the offset is the longest acknowledged prefix, the ranges are the
rest, the ring holds what was written without that prefix, and calls that follow may be made in
any order. -/
theorem acked_exact (bufferLimit : Nat) (sendBuffer : RingBuffer) (hnew : sendBuffer.Constructed)
    (ops : List SendOp) (hsent : Meets step OfSent (opened bufferLimit sendBuffer) ops) :
    AckedPrefix (AckedBy (acks ops)) (run step (opened bufferLimit sendBuffer) ops)
      ∧ (run step (opened bufferLimit sendBuffer) ops).sendBuffer.queue.contents
        = ((opened bufferLimit sendBuffer).committed ops).drop
          (run step (opened bufferLimit sendBuffer) ops).sendAckedOffset
      ∧ (run step (opened bufferLimit sendBuffer) ops).sendAckedOffset
        ≤ ((opened bufferLimit sendBuffer).committed ops).length
      ∧ ∀ calls calls' : List (Nat × Nat), calls.Perm calls' →
        (∀ call ∈ calls,
          call.1 + call.2 ≤ (run step (opened bufferLimit sendBuffer) ops).nextSendOffset) →
        run step (run step (opened bufferLimit sendBuffer) ops) (ackOps calls)
          = run step (run step (opened bufferLimit sendBuffer) ops) (ackOps calls') := by
  have hrun := streaming_run (streaming_opened bufferLimit hnew) hsent
  simp only [false_or, List.nil_append] at hrun
  refine ⟨hrun.acked, hrun.contents, ?_, fun calls calls' hperm hcalls =>
    run_perm hrun hcalls hperm⟩
  rw [hrun.length]
  exact hrun.sending.acked_le.trans (Nat.le_add_right _ _)

instance (s : SendHalf) : ∀ op, Decidable (OfSent s op)
  | .onPacketAcked offset len => inferInstanceAs (Decidable (offset + len ≤ s.nextSendOffset))
  | .fillWriteBuffer .. | .commitWrite .. | .sendTurn .. => inferInstanceAs (Decidable True)

/-- Six bytes in two frames; the last two are acknowledged, then the first two. -/
def someSends : List SendOp :=
  [.fillWriteBuffer 8 0 7, .commitWrite 6 false, .sendTurn 3, .sendTurn 3, .onPacketAcked 4 2,
    .onPacketAcked 0 2]

/-- A stream over a ring of eight bytes. -/
def small : SendHalf := opened 8 ⟨fun _ => 0, 8, 0, 0⟩

theorem acked_exact_someSends :
    AckedPrefix (AckedBy (acks someSends)) (run step small someSends)
      ∧ (run step small someSends).sendBuffer.queue.contents
        = (small.committed someSends).drop (run step small someSends).sendAckedOffset
      ∧ (run step small someSends).sendAckedOffset ≤ (small.committed someSends).length
      ∧ ∀ calls calls' : List (Nat × Nat), calls.Perm calls' →
        (∀ call ∈ calls, call.1 + call.2 ≤ (run step small someSends).nextSendOffset) →
        run step (run step small someSends) (ackOps calls)
          = run step (run step small someSends) (ackOps calls') :=
  acked_exact 8 ⟨fun _ => 0, 8, 0, 0⟩ (.inr ⟨some fun _ => 0, 8, rfl⟩) someSends (by decide)

end SendHalf

end Eular.Utp
