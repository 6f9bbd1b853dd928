/-
The counters kcp keeps by hand beside its lists.

`Counted` says, for each half of the control block, that a counter is the
length of its list in 32 bits and that `snd_buf` is in the order of its
numbers; every step keeps it but one. The end of `on_kcp_ack_pcaket` shortens
the free list of the sender to the window and leaves its counter as it is,
so an ACK that would make the free list longer than the window puts the two
apart for good. `ackRoom` says when it does not.
-/
import Eular.Kcp.Proofs.Assembly
import Eular.Kcp.Proofs.Sending

namespace Eular.Kcp

open Lib

-- ==== numbers

/-- The numbers of `snd_buf`: they rise, they lie between `snd_una` and
`snd_nxt`, and `snd_una` is the first of them. -/
structure SendOrder (una nxt : Nat) (sns : List Nat) : Prop where
  sorted : sns.Pairwise (· < ·)
  bounds : ∀ n ∈ sns, una ≤ n ∧ n < nxt
  first : una = sns.headD nxt

namespace SendOrder

variable {una nxt k : Nat} {sns : List Nat}

theorem le (h : SendOrder una nxt sns) : una ≤ nxt := by
  cases sns with
  | nil => exact Nat.le_of_eq h.first
  | cons n rest =>
    obtain ⟨hle, hlt⟩ := h.bounds n List.mem_cons_self
    omega

theorem filter (h : SendOrder una nxt sns) (p : Nat → Bool) :
    SendOrder ((sns.filter p).headD nxt) nxt (sns.filter p) := by
  have hsorted := h.sorted.filter p
  refine ⟨hsorted, fun n hn => ⟨?_, (h.bounds n (List.mem_of_mem_filter hn)).2⟩, rfl⟩
  cases hleft : sns.filter p with
  | nil =>
    rw [hleft] at hn
    cases hn
  | cons m rest =>
    rw [hleft] at hn hsorted
    show m ≤ n
    rcases List.mem_cons.mp hn with rfl | hn
    · exact le_refl _
    · exact Nat.le_of_lt (List.rel_of_pairwise_cons hsorted hn)

theorem append (h : SendOrder una nxt sns) (k : Nat) :
    SendOrder una (nxt + k) (sns ++ List.range' nxt k) := by
  have hle := h.le
  refine ⟨List.pairwise_append.mpr ⟨h.sorted, List.pairwise_lt_range', ?_⟩, fun n hn => ?_, ?_⟩
  · intro a ha b hb
    have hlt := (h.bounds a ha).2
    have hge := (List.mem_range'_1.mp hb).1
    omega
  · rcases List.mem_append.mp hn with hn | hn
    · have hbounds := h.bounds n hn
      omega
    · have hrange := List.mem_range'_1.mp hn
      omega
  · cases sns with
    | cons m rest => exact h.first
    | nil =>
      have hfirst : una = nxt := h.first
      cases k with
      | zero => exact hfirst
      | succ k => exact hfirst

theorem length_le (h : SendOrder una nxt sns) : sns.length ≤ nxt - una := by
  have hsub : sns ⊆ List.range' una (nxt - una) := fun n hn => by
    have hbounds := h.bounds n hn
    exact List.mem_range'_1.mpr (by omega)
  have hnodup : sns.Nodup := h.sorted.imp fun hlt => Nat.ne_of_lt hlt
  have hlen := (List.subperm_of_subset hnodup hsub).length_le
  rwa [List.length_range'] at hlen

end SendOrder

-- ==== free list

namespace KcpSender

variable {s : KcpSender} (b : KcpBbr) (now : Nat)

/-- What `send` and an ACK do not touch while they go along. -/
def numbers (s : KcpSender) := (s.sndUna, s.sndNxt, s.sndWnd, s.nsndQue, s.sndQueue)

/-- The counters while `k` segments are passed over and those of `l` are
still ahead. -/
structure Counts (s : KcpSender) (k : Nat) (l : List KcpSegment) : Prop where
  buf : s.nsndBuf = i32 (k + l.length : Nat)
  unused : s.nsndBufUnused = i32 s.sndBufUnused

theorem Counts.acknowledge {a : AckSample} {k : Nat} {pos : KcpSegment} {l : List KcpSegment}
    (h : s.Counts k (pos :: l)) : (acknowledge b now (s, a) pos).1.Counts k l := by
  constructor
  · show i32 (s.nsndBuf - 1) = _
    rw [h.buf, i32_sub_i32, List.length_cons]
    exact congrArg i32 (by omega)
  · show i32 (s.nsndBufUnused + 1) = i32 (s.sndBufUnused + 1 : Nat)
    rw [h.unused, i32_add_i32, Nat.cast_add, Nat.cast_one]

theorem numbers_updateRto (interval rtt : Int) :
    (s.updateRto interval rtt).numbers = s.numbers := by
  unfold updateRto
  dsimp only
  split <;> rfl

theorem Counts.updateRto {k : Nat} {l : List KcpSegment} (h : s.Counts k l) (interval rtt : Int) :
    (s.updateRto interval rtt).Counts k l
      ∧ (s.updateRto interval rtt).sndBufUnused = s.sndBufUnused := by
  unfold KcpSender.updateRto
  dsimp only
  split
  · exact ⟨⟨h.buf, h.unused⟩, rfl⟩
  · exact ⟨⟨h.buf, h.unused⟩, rfl⟩

theorem ackSn_spec (interval : Int) (ack : KcpAckHeader) :
    ∀ (l : List KcpSegment) (q : KcpSender × AckSample) (k : Nat),
      (l.map (·.sn)).Pairwise (· < ·) → q.1.Counts k l →
      (ackSn b interval ack now q l).2.map (·.sn) = (l.map (·.sn)).filter (· ≠ ack.sn)
        ∧ (ackSn b interval ack now q l).1.1.Counts k (ackSn b interval ack now q l).2
        ∧ (ackSn b interval ack now q l).1.1.sndBufUnused + (ackSn b interval ack now q l).2.length
            = q.1.sndBufUnused + l.length
        ∧ (ackSn b interval ack now q l).1.1.numbers = q.1.numbers := by
  intro l
  induction l with
  | nil => intro q k _ hq; exact ⟨rfl, hq, rfl, rfl⟩
  | cons pos rest ih =>
    intro q k hsorted hq
    obtain ⟨hlt, hrest⟩ := List.pairwise_cons.mp hsorted
    rw [ackSn]
    by_cases hpass : pos.sn < ack.sn
    · have hq' : q.1.Counts (k + 1) rest :=
        ⟨by rw [hq.buf, List.length_cons]; exact congrArg i32 (by omega), hq.unused⟩
      obtain ⟨hsns, hcounts, hlen, hnumbers⟩ := ih q (k + 1) hrest hq'
      rw [if_pos hpass]
      dsimp only
      refine ⟨?_, ⟨?_, hcounts.unused⟩, ?_, hnumbers⟩
      · rw [List.map_cons, hsns, List.map_cons, List.filter_cons_of_pos (by simp; omega)]
      · rw [hcounts.buf, List.length_cons]
        exact congrArg i32 (by omega)
      · rw [List.length_cons, List.length_cons]
        omega
    · rw [if_neg hpass]
      have hrest' : ∀ n ∈ rest.map (·.sn), n ≠ ack.sn := fun n hn heq => by
        have hgt : pos.sn < n := hlt n hn
        omega
      have hall : (rest.map (·.sn)).filter (· ≠ ack.sn) = rest.map (·.sn) :=
        List.filter_eq_self.mpr fun n hn => by simpa using hrest' n hn
      by_cases hthis : pos.sn = ack.sn
      · rw [if_pos hthis, List.map_cons, List.filter_cons_of_neg (by simp [hthis]), hall]
        dsimp only
        split
        case isTrue =>
          have hupdated := hq.updateRto interval (rttOf pos ack now)
          refine ⟨rfl, hupdated.1.acknowledge b now, ?_,
            numbers_updateRto interval (rttOf pos ack now)⟩
          show (q.1.updateRto interval _).sndBufUnused + 1 + rest.length = _
          rw [hupdated.2, List.length_cons]
          omega
        case isFalse =>
          refine ⟨rfl, hq.acknowledge b now, ?_, rfl⟩
          show q.1.sndBufUnused + 1 + rest.length = _
          rw [List.length_cons]
          omega
      · rw [if_neg hthis]
        refine ⟨?_, hq, rfl, rfl⟩
        rw [List.map_cons, List.filter_cons_of_pos (by simpa using hthis), hall]

/-- The second loop: everything before `una` goes. -/
theorem ackUna_spec (una : Nat) :
    ∀ (l : List KcpSegment) (q : KcpSender × AckSample),
      (l.map (·.sn)).Pairwise (· < ·) → q.1.Counts 0 l →
      (ackUna b una now q l).2.map (·.sn) = (l.map (·.sn)).filter (una ≤ ·)
        ∧ (ackUna b una now q l).1.1.Counts 0 (ackUna b una now q l).2
        ∧ (ackUna b una now q l).1.1.sndBufUnused + (ackUna b una now q l).2.length
            = q.1.sndBufUnused + l.length
        ∧ (ackUna b una now q l).1.1.numbers = q.1.numbers := by
  intro l
  induction l with
  | nil => intro q _ hq; exact ⟨rfl, hq, rfl, rfl⟩
  | cons pos rest ih =>
    intro q hsorted hq
    obtain ⟨hlt, hrest⟩ := List.pairwise_cons.mp hsorted
    rw [ackUna]
    by_cases hbefore : pos.sn < una
    · obtain ⟨hsns, hcounts, hlen, hnumbers⟩ :=
        ih (acknowledge b now q pos) hrest (hq.acknowledge b now)
      rw [if_pos hbefore]
      refine ⟨?_, hcounts, ?_, hnumbers⟩
      · rw [hsns, List.map_cons, List.filter_cons_of_neg (by simpa using hbefore)]
      · rw [hlen, List.length_cons]
        show q.1.sndBufUnused + 1 + rest.length = _
        omega
    · rw [if_neg hbefore]
      refine ⟨(List.filter_eq_self.mpr fun n hn => ?_).symm, hq, rfl, rfl⟩
      rcases List.mem_cons.mp hn with rfl | hn
      · simpa using hbefore
      · have hgt : pos.sn < n := hlt n hn
        simp
        omega

-- ==== sending half

/-- The counters of the sending half, and the order of `snd_buf`. -/
structure Counted (s : KcpSender) : Prop where
  que : s.nsndQue = i32 s.sndQueue.length
  buf : s.nsndBuf = i32 s.sndBuf.length
  unused : s.nsndBufUnused = s.sndBufUnused
  free : (s.sndBufUnused : Int) ≤ s.sndWnd
  wndLt : s.sndWnd < 2 ^ 31
  nxtLt : s.sndNxt < 2 ^ 32
  span : s.sndNxt < s.sndUna + 2 ^ 31
  order : SendOrder s.sndUna s.sndNxt (s.sndBuf.map (·.sn))

/-- How many segments an ACK takes out of `snd_buf`. -/
def released (s : KcpSender) (ack : KcpAckHeader) : Nat :=
  if ack.sn < s.sndUna ∨ s.sndNxt < ack.sn then 0
  else s.sndBuf.countP fun pos => pos.sn = ack.sn || pos.sn < ack.una

/-- The free list has room for them. -/
def AckRoom (s : KcpSender) (ack : KcpAckHeader) : Prop :=
  (s.sndBufUnused + s.released ack : Int) ≤ s.sndWnd

instance (s : KcpSender) (ack : KcpAckHeader) : Decidable (s.AckRoom ack) :=
  inferInstanceAs (Decidable (_ ≤ _))

/-- `snd_buf` and the counters past the two loops of an ACK. -/
def acked (s : KcpSender) (b : KcpBbr) (interval : Int) (ack : KcpAckHeader) (now : Nat) :
    KcpSender :=
  let p := ackSn b interval ack now (s, {}) s.sndBuf
  let p := ackUna b ack.una now p.1 p.2
  { p.1.1 with sndBuf := p.2 }

theorem firstSn_eq (l : List KcpSegment) (nxt : Nat) :
    (match l with | [] => nxt | first :: _ => first.sn) = (l.map (·.sn)).headD nxt := by
  cases l <;> rfl

theorem onAck_eq (mss : Nat) (interval : Int) (ack : KcpAckHeader) :
    (s.onAck b mss interval ack now).1
      = if ack.sn < s.sndUna ∨ s.sndNxt < ack.sn then s
        else { (s.acked b interval ack now).shrinkUnused with
          sndUna := ((s.acked b interval ack now).sndBuf.map (·.sn)).headD
            (s.acked b interval ack now).sndNxt } := by
  unfold onAck
  by_cases hbelow : ack.sn < s.sndUna
  · rw [if_pos hbelow, if_pos (.inl hbelow)]
  · by_cases habove : s.sndNxt < ack.sn
    · rw [if_neg hbelow, if_pos habove, if_pos (.inr habove)]
    · have hinside : ¬ (ack.sn < s.sndUna ∨ s.sndNxt < ack.sn) := by omega
      rw [if_neg hbelow, if_neg habove, if_neg hinside]
      dsimp only [acked]
      split
      · exact congrArg (fun una => { KcpSender.shrinkUnused _ with sndUna := una }) (firstSn_eq _ _)
      · exact congrArg (fun una => { KcpSender.shrinkUnused _ with sndUna := una }) (firstSn_eq _ _)

variable (interval : Int) (ack : KcpAckHeader)

theorem acked_spec (h : s.Counted) :
    (s.acked b interval ack now).sndBuf.map (·.sn)
        = (s.sndBuf.map (·.sn)).filter (fun n => n ≠ ack.sn && ack.una ≤ n)
      ∧ (s.acked b interval ack now).Counts 0 (s.acked b interval ack now).sndBuf
      ∧ (s.acked b interval ack now).sndBufUnused + (s.acked b interval ack now).sndBuf.length
          = s.sndBufUnused + s.sndBuf.length
      ∧ (s.acked b interval ack now).numbers = s.numbers := by
  have hlt : s.sndBufUnused < 2 ^ 31 := by
    have hfree := h.free
    have hwnd := h.wndLt
    omega
  have hcounts : s.Counts 0 s.sndBuf :=
    ⟨by rw [h.buf, Nat.zero_add], by rw [h.unused, i32_of_lt hlt]⟩
  obtain ⟨hsns, hcounts, hlen, hnumbers⟩ := ackSn_spec b now interval ack s.sndBuf
    (s, {}) 0 h.order.sorted hcounts
  obtain ⟨hsns', hcounts', hlen', hnumbers'⟩ := ackUna_spec b now ack.una
    (ackSn b interval ack now (s, {}) s.sndBuf).2 (ackSn b interval ack now (s, {}) s.sndBuf).1
    (by rw [hsns]; exact h.order.sorted.filter _) hcounts
  refine ⟨?_, ⟨hcounts'.buf, hcounts'.unused⟩, hlen'.trans hlen, ?_⟩
  · refine hsns'.trans ?_
    rw [hsns, List.filter_filter]
    refine List.filter_congr fun n _ => ?_
    rw [Bool.and_comm]
  · exact hnumbers'.trans hnumbers

/-- What an ACK leaves in `snd_buf` and what it takes out of it. -/
theorem length_acked (h : s.Counted) :
    (s.acked b interval ack now).sndBufUnused
      = s.sndBufUnused + s.sndBuf.countP fun pos => pos.sn = ack.sn || pos.sn < ack.una := by
  obtain ⟨hsns, -, hlen, -⟩ := acked_spec b now interval ack h
  have hleft : (s.acked b interval ack now).sndBuf.length
      = s.sndBuf.countP fun pos => !(decide (pos.sn = ack.sn) || decide (pos.sn < ack.una)) := by
    rw [← List.length_map (f := fun pos : KcpSegment => pos.sn), hsns,
      ← List.countP_eq_length_filter,
      List.countP_map]
    refine List.countP_congr fun pos _ => ?_
    simp
  have hall := List.length_eq_countP_add_countP (l := s.sndBuf)
    (fun pos => decide (pos.sn = ack.sn) || decide (pos.sn < ack.una))
  simp only [Bool.not_eq_true, Bool.decide_eq_false] at hall
  omega

theorem Counted.onAck (h : s.Counted) (mss : Nat) (hroom : s.AckRoom ack) :
    (s.onAck b mss interval ack now).1.Counted := by
  unfold AckRoom released at hroom
  rw [onAck_eq]
  split
  case isTrue => exact h
  case isFalse hinside =>
    rw [if_neg hinside, ← Nat.cast_add, ← length_acked b now interval ack h] at hroom
    obtain ⟨hsns, hcounts, -, hnumbers⟩ := acked_spec b now interval ack h
    generalize s.acked b interval ack now = t at *
    simp only [numbers, Prod.mk.injEq] at hnumbers
    obtain ⟨-, hnxt, hwnd, hnque, hque⟩ := hnumbers
    have hwndLt := h.wndLt
    have hunused : t.nsndBufUnused = t.sndBufUnused := by
      rw [hcounts.unused, i32_of_lt (by omega)]
    have horder : SendOrder ((t.sndBuf.map (·.sn)).headD t.sndNxt) t.sndNxt
        (t.sndBuf.map (·.sn)) := by
      rw [hsns, hnxt]
      exact h.order.filter _
    -- the list is no longer than the window, so that nothing is freed
    have hfree : (i32 (t.nsndBufUnused - t.sndWnd)).toNat = 0 := by
      rw [i32_of_le (by omega) (by omega)]
      omega
    have hshrunk : t.shrinkUnused = t := by
      unfold shrinkUnused
      rw [hfree, Nat.sub_zero]
    rw [hshrunk]
    refine ⟨?_, ?_, hunused, ?_, ?_, ?_, ?_, horder⟩
    · show t.nsndQue = i32 t.sndQueue.length
      rw [hnque, hque]
      exact h.que
    · exact hcounts.buf.trans (by rw [Nat.zero_add])
    · show (t.sndBufUnused : Int) ≤ t.sndWnd
      rw [hwnd]
      exact hroom
    · show t.sndWnd < 2 ^ 31
      rw [hwnd]
      exact hwndLt
    · show t.sndNxt < 2 ^ 32
      rw [hnxt]
      exact h.nxtLt
    · show t.sndNxt < (t.sndBuf.map (·.sn)).headD t.sndNxt + 2 ^ 31
      have hspan := h.span
      -- what is left does not begin before what was there
      have hfirst : s.sndUna ≤ (t.sndBuf.map (·.sn)).headD t.sndNxt := by
        cases hleft : t.sndBuf.map (·.sn) with
        | nil =>
          rw [hnxt]
          exact h.order.le
        | cons n rest =>
          have hmem : n ∈ (s.sndBuf.map (·.sn)).filter (fun n => n ≠ ack.sn && ack.una ≤ n) := by
            rw [← hsns, hleft]
            exact List.mem_cons_self
          exact (h.order.bounds n (List.mem_of_mem_filter hmem)).1
      omega

theorem Counted.segmentSendGet (h : s.Counted) : s.segmentSendGet.Counted := by
  unfold KcpSender.segmentSendGet
  split
  case isTrue hpos =>
    have hfree := h.free
    have hwndLt := h.wndLt
    refine ⟨h.que, h.buf, ?_, ?_, hwndLt, h.nxtLt, h.span, h.order⟩
    · show i32 (s.nsndBufUnused - 1) = (s.sndBufUnused - 1 : Nat)
      rw [h.unused, i32_of_le (by omega) (by omega)]
      omega
    · show ((s.sndBufUnused - 1 : Nat) : Int) ≤ s.sndWnd
      omega
  case isFalse => exact h

theorem Counted.segmentSendGet_iterate (h : s.Counted) (n : Nat) :
    (KcpSender.segmentSendGet^[n] s).Counted := by
  induction n generalizing s with
  | zero => exact h
  | succ n ih => exact ih h.segmentSendGet

theorem Counted.segmentSendPut (h : s.Counted) : s.segmentSendPut.Counted := by
  unfold KcpSender.segmentSendPut
  split
  case isTrue hroom =>
    have hunused := h.unused
    have hwndLt := h.wndLt
    refine ⟨h.que, h.buf, ?_, ?_, hwndLt, h.nxtLt, h.span, h.order⟩
    · show i32 (s.nsndBufUnused + 1) = (s.sndBufUnused + 1 : Nat)
      rw [hunused, i32_of_le (by omega) (by omega)]
      omega
    · show ((s.sndBufUnused + 1 : Nat) : Int) ≤ s.sndWnd
      omega
  case isFalse => exact h

theorem Counted.segmentSendPut_iterate (h : s.Counted) (n : Nat) :
    (KcpSender.segmentSendPut^[n] s).Counted := by
  induction n generalizing s with
  | zero => exact h
  | succ n ih => exact ih h.segmentSendPut

theorem length_fragments (mss psn count n i : Nat) (data : List UInt8) :
    (fragments mss psn count n i data).length = n := by
  induction n generalizing i data with
  | zero => rfl
  | succ n ih => rw [fragments, List.length_cons, ih]

/-- A message is counted whole; a send that finds no memory counts back every
segment it took. -/
theorem Counted.send (h : s.Counted) {state : KcpConnectionState} {mss : Nat} {data : List UInt8}
    {malloc : Malloc} :
    (∀ s', s.send state mss data malloc = .ok s' → s'.Counted)
      ∧ ∀ code s', s.send state mss data malloc = .error (code, s') → s'.Counted := by
  unfold KcpSender.send
  dsimp only
  generalize malloc.elim _ _ = got
  have hgot := h.segmentSendGet_iterate got
  refine ⟨fun s' hsend => ?_, fun code s' hsend => ?_⟩
  · split_ifs at hsend
    cases hsend
    refine ⟨?_, hgot.buf, hgot.unused, hgot.free, hgot.wndLt, hgot.nxtLt, hgot.span, hgot.order⟩
    dsimp only
    rw [hgot.que, i32_add_i32, List.length_append, length_fragments, Nat.cast_add]
  · split_ifs at hsend <;> cases hsend
    · exact h
    · exact h
    · exact h
    · exact h
    · exact hgot.segmentSendPut_iterate got

end KcpSender

-- ==== window filled

namespace KcpConnection

variable {c : KcpConnection} {now : Nat}

theorem sendWindow_le (c : KcpConnection) : c.sendWindow ≤ c.snd.sndWnd := by
  unfold sendWindow
  dsimp only
  split
  · exact (Int.min_le_left _ _).trans (Int.min_le_left _ _)
  · exact Int.min_le_left _ _

/-- The numbers last for the segments a flush moves. -/
def NumbersLast (c : KcpConnection) : Prop := c.snd.sndNxt + c.moved c.snd.sndQueue < 2 ^ 32

instance (c : KcpConnection) : Decidable c.NumbersLast := inferInstanceAs (Decidable (_ < _))

theorem counted_fillWindow (h : c.snd.Counted) (hlast : c.NumbersLast) {buf : List KcpSegment}
    (hbuf : buf.map KcpSegment.core
      = (fillWindow now c c.snd.sndQueue).snd.sndBuf.map KcpSegment.core) :
    KcpSender.Counted { (fillWindow now c c.snd.sndQueue).snd with sndBuf := buf } := by
  have hsns := KcpSegment.map_sn_of_core hbuf
  have hlen : buf.length = (fillWindow now c c.snd.sndQueue).snd.sndBuf.length := by
    simpa using congrArg List.length hbuf
  rw [fillWindow_eq c.snd.sndQueue c hlast (by rw [h.que, i32_i32]) (by rw [h.buf, i32_i32])]
    at hsns hlen ⊢
  have hmoved := moved_le (c := c) c.snd.sndQueue
  have htake : (c.snd.sndQueue.take (c.moved c.snd.sndQueue)).length = c.moved c.snd.sndQueue := by
    rw [List.length_take]
    omega
  dsimp only at hsns hlen
  rw [List.map_append, map_sn_numberFrom, htake] at hsns
  rw [List.length_append, length_numberFrom, htake] at hlen
  refine ⟨?_, ?_, h.unused, h.free, h.wndLt, hlast, ?_, ?_⟩
  · show i32 (c.snd.nsndQue - c.moved c.snd.sndQueue) = i32 (c.snd.sndQueue.drop _).length
    rw [h.que, i32_sub_i32, List.length_drop]
    exact congrArg i32 (by omega)
  · show i32 (c.snd.nsndBuf + c.moved c.snd.sndQueue) = i32 buf.length
    rw [h.buf, i32_add_i32, hlen, Nat.cast_add]
  · show c.snd.sndNxt + c.moved c.snd.sndQueue < c.snd.sndUna + 2 ^ 31
    have hspan := h.span
    have hwindow := sendWindow_le c
    have hwndLt := h.wndLt
    unfold moved
    omega
  · show SendOrder c.snd.sndUna (c.snd.sndNxt + c.moved c.snd.sndQueue) (buf.map (·.sn))
    rw [hsns]
    exact h.order.append _

theorem NumbersLast.of_sending {c' : KcpConnection} (h : c.NumbersLast)
    (heq : c'.sending = c.sending) : c'.NumbersLast := by
  simp only [sending, Prod.mk.injEq] at heq
  obtain ⟨hsnd, hbbr, hnocwnd⟩ := heq
  have hwindow : c'.sendWindow = c.sendWindow := by
    unfold sendWindow
    rw [hsnd, hbbr, hnocwnd]
  unfold NumbersLast moved at *
  rw [hwindow, hsnd]
  exact h

theorem counted_flush (xxh64 : Nat → Nat) (outcomes : List SendOutcome) (h : c.snd.Counted)
    (hlast : c.Flushes now → c.NumbersLast) :
    (c.flush xxh64 now outcomes).conn.snd.Counted := by
  obtain hsame | ⟨hflushes, c', buf, hsending, hbuf, hsnd⟩ := snd_flush xxh64 c now outcomes
  · rw [hsame]
    exact h
  · rw [hsnd]
    have hsame : c'.snd = c.snd := congrArg (·.1) hsending
    exact counted_fillWindow (hsame ▸ h) ((hlast hflushes).of_sending hsending) hbuf

end KcpConnection

-- ==== receiving half

namespace KcpReceiver

variable {r : KcpReceiver}

/-- The bytes that wait to be read. -/
def queuedBytes (r : KcpReceiver) : Nat := (r.rcvQueue.map (·.len)).sum

/-- The counters of the receiving half. -/
structure Counted (r : KcpReceiver) : Prop where
  buf : r.nrcvBuf = i32 r.rcvBuf.length
  que : r.nrcvQue = i32 r.rcvQueue.length
  bytes : r.rcvQueueBytes = i32 r.queuedBytes
  unused : r.nrcvBufUnused = r.rcvBufUnused
  free : (r.rcvBufUnused : Int) ≤ r.rcvWnd
  wndLt : r.rcvWnd < 2 ^ 31

namespace Counted

theorem segmentRecvGet (h : r.Counted) : r.segmentRecvGet.Counted := by
  unfold KcpReceiver.segmentRecvGet
  split
  case isTrue hpos =>
    have hfree := h.free
    have hwndLt := h.wndLt
    refine ⟨h.buf, h.que, h.bytes, ?_, ?_, hwndLt⟩
    · show i32 (r.nrcvBufUnused - 1) = (r.rcvBufUnused - 1 : Nat)
      rw [h.unused, i32_of_le (by omega) (by omega)]
      omega
    · show ((r.rcvBufUnused - 1 : Nat) : Int) ≤ r.rcvWnd
      omega
  case isFalse => exact h

/-- A segment goes into the free list only while that is shorter than the
window. -/
theorem segmentRecvPut (h : r.Counted) : r.segmentRecvPut.Counted := by
  unfold KcpReceiver.segmentRecvPut
  split
  case isTrue hroom =>
    have hunused := h.unused
    have hwndLt := h.wndLt
    refine ⟨h.buf, h.que, h.bytes, ?_, ?_, hwndLt⟩
    · show i32 (r.nrcvBufUnused + 1) = (r.rcvBufUnused + 1 : Nat)
      rw [hunused, i32_of_le (by omega) (by omega)]
      omega
    · show ((r.rcvBufUnused + 1 : Nat) : Int) ≤ r.rcvWnd
      omega
  case isFalse => exact h

theorem accept (h : r.Counted) (p : KcpPush) (now : Nat) : (r.accept p now).Counted := by
  have hgot := h.segmentRecvGet
  refine ⟨?_, hgot.que, hgot.bytes, hgot.unused, hgot.free, hgot.wndLt⟩
  show i32 (r.segmentRecvGet.nrcvBuf + 1) = i32 ((segmentOf p).sn :: r.segmentRecvGet.rcvBuf).length
  rw [hgot.buf, i32_add_i32, List.length_cons, Nat.cast_add, Nat.cast_one]

theorem moveFragment (h : r.Counted) {pos : KcpSegment} (hmem : pos.sn ∈ r.rcvBuf) :
    (r.moveFragment pos).Counted := by
  refine ⟨?_, ?_, ?_, h.unused, h.free, h.wndLt⟩
  · show i32 (r.nrcvBuf - 1) = i32 (r.rcvBuf.erase pos.sn).length
    have hpos := List.length_pos_of_mem hmem
    rw [h.buf, i32_sub_i32, List.length_erase_of_mem hmem]
    exact congrArg i32 (by omega)
  · show i32 (r.nrcvQue + 1) = i32 (r.rcvQueue ++ [pos]).length
    rw [h.que, i32_add_i32, List.length_append, Nat.cast_add, List.length_singleton, Nat.cast_one]
  · show i32 (r.rcvQueueBytes + i32 pos.len) = i32 (((r.rcvQueue ++ [pos]).map (·.len)).sum : Nat)
    rw [h.bytes, i32_add_i32, i32_add_i32_right, List.map_append, List.sum_append, Nat.cast_add]
    rfl

theorem foldl_moveFragment {fragments : List KcpSegment} :
    ∀ {r : KcpReceiver} {rest : List Nat}, r.Counted →
      r.rcvBuf.Perm (fragments.map (·.sn) ++ rest) →
      (fragments.foldl KcpReceiver.moveFragment r).Counted := by
  induction fragments with
  | nil => exact fun h _ => h
  | cons pos fs ih =>
    intro r rest h hperm
    rw [List.map_cons, List.cons_append] at hperm
    have hmem : pos.sn ∈ r.rcvBuf := hperm.mem_iff.mpr List.mem_cons_self
    refine ih (h.moveFragment hmem) (?_ : (r.rcvBuf.erase pos.sn).Perm (fs.map (·.sn) ++ rest))
    have herase := hperm.erase pos.sn
    rwa [List.erase_cons_head] at herase

theorem handOver (h : r.Counted) (hheld : Held r) : r.handOver.1.Counted := by
  obtain ⟨-, hsame⟩ | ⟨packet, rest, hlist, -, -, -, hmoved⟩ := handOver_cases r
  · rw [hsame]
    exact h
  · have htree : r.rcvBuf.Perm (packet.fragments.map (·.sn) ++ fragmentSns rest) := by
      have htree := hheld.tree
      rwa [hlist, fragmentSns, List.flatMap_cons] at htree
    have hall := h.foldl_moveFragment htree
    rw [hmoved]
    exact ⟨hall.buf, hall.que, hall.bytes, hall.unused, hall.free, hall.wndLt⟩

theorem onPush (h : r.Counted) (hheld : Held r) (p : KcpPush) (now : Nat) (malloc : Malloc) :
    (r.onPush p now malloc).1.Counted := by
  obtain ⟨-, hpush⟩ | ⟨-, -, hpush⟩ | ⟨-, -, -, hpush⟩ | ⟨-, -, hnew, hpush⟩ :=
    onPush_cases r p now malloc
  · rw [hpush]
    exact h
  · rw [hpush]
    exact h
  · rw [hpush]
    exact h.segmentRecvGet.segmentRecvPut
  · rw [hpush]
    exact (h.accept p now).handOver (Held.accept hheld now hnew)

/-- One turn of the loop of `kcp_recv`, with `l` still to come. -/
theorem takeSegment {q : KcpReceiver × Read} {pos : KcpSegment} {l : List KcpSegment}
    (h : Counted { q.1 with rcvQueue := pos :: l }) :
    Counted { (KcpReceiver.takeSegment q pos).1 with rcvQueue := l } := by
  have hbytes : Counted { q.1 with
      rcvQueueBytes := i32 (q.1.rcvQueueBytes - i32 pos.len)
      rcvQueue := l
      nrcvQue := i32 (q.1.nrcvQue - 1) } := by
    refine ⟨h.buf, ?_, ?_, h.unused, h.free, h.wndLt⟩
    · have hque : q.1.nrcvQue = i32 (pos :: l).length := h.que
      show i32 (q.1.nrcvQue - 1) = i32 l.length
      rw [hque, i32_sub_i32, List.length_cons]
      exact congrArg i32 (by omega)
    · have hbytes : q.1.rcvQueueBytes = i32 (((pos :: l).map (·.len)).sum : Nat) := h.bytes
      show i32 (q.1.rcvQueueBytes - i32 pos.len) = i32 ((l.map (·.len)).sum : Nat)
      rw [hbytes, i32_sub_i32, i32_sub_i32_right, List.map_cons, List.sum_cons]
      exact congrArg i32 (by omega)
  have hput := hbytes.segmentRecvPut
  unfold KcpReceiver.takeSegment
  unfold KcpReceiver.segmentRecvPut at hput ⊢
  dsimp only at hput ⊢
  split
  case isTrue hroom =>
    rw [if_pos hroom] at hput
    exact ⟨hput.buf, hput.que, hput.bytes, hput.unused, hput.free, hput.wndLt⟩
  case isFalse hfull =>
    rw [if_neg hfull] at hput
    exact ⟨hput.buf, hput.que, hput.bytes, hput.unused, hput.free, hput.wndLt⟩

theorem rcvQueue_takeSegment (q : KcpReceiver × Read) (pos : KcpSegment) :
    (KcpReceiver.takeSegment q pos).1.rcvQueue = q.1.rcvQueue := by
  unfold KcpReceiver.takeSegment KcpReceiver.segmentRecvPut
  dsimp only
  split <;> rfl

theorem foldl_takeSegment (l : List KcpSegment) :
    ∀ {q : KcpReceiver × Read}, q.1.rcvQueue = [] → Counted { q.1 with rcvQueue := l } →
      (l.foldl KcpReceiver.takeSegment q).1.Counted := by
  induction l with
  | nil =>
    intro q hempty h
    have hsame : { q.1 with rcvQueue := [] } = q.1 := by rw [← hempty]
    rwa [hsame] at h
  | cons pos rest ih =>
    intro q hempty h
    exact ih ((rcvQueue_takeSegment q pos).trans hempty) h.takeSegment

theorem recv (h : r.Counted) {state : KcpConnectionState} {size : Nat} {r' : KcpReceiver}
    {read : Read} {tell : Bool} (hrecv : r.recv state size = .ok (r', read, tell)) :
    r'.Counted := by
  unfold KcpReceiver.recv at hrecv
  split at hrecv
  · cases hrecv
  · split at hrecv
    · cases hrecv
    · split at hrecv
      · cases hrecv
      · split at hrecv
        · cases hrecv
        · cases hrecv
          exact foldl_takeSegment r.rcvQueue rfl h

end Counted

end KcpReceiver

-- ==== steps

namespace KcpConnection

variable {c : KcpConnection}

/-- The counters of both halves. -/
structure Counted (c : KcpConnection) : Prop where
  snd : c.snd.Counted
  rcv : c.rcv.Counted
  held : Held c.rcv

/-- A step the counters survive: the free list has room for the segments an
ACK takes out, the numbers last for those a flush puts in, and a window that
is set holds the free lists. -/
def Accounted (c : KcpConnection) : EndpointOp → Prop
  | .packet (.ack header) .. => c.state = .CONNECTED → c.snd.AckRoom header
  | .flush now _ => c.Flushes now → c.NumbersLast
  | .windowSize value =>
    (c.snd.sndBufUnused : Int) ≤ i32 (max KCP_WND_SND (u32 value))
      ∧ (c.rcv.rcvBufUnused : Int) ≤ i32 (max KCP_WND_RCV (u32 value))
  | _ => True

instance (c : KcpConnection) (op : EndpointOp) : Decidable (c.Accounted op) := by
  unfold Accounted
  split <;> infer_instance

theorem counted_rmtWnd {s : KcpSender} (h : s.Counted) (wnd : Int) :
    KcpSender.Counted { s with rmtWnd := wnd } :=
  ⟨h.que, h.buf, h.unused, h.free, h.wndLt, h.nxtLt, h.span, h.order⟩

theorem snd_onPush (p : KcpPush) (now : Nat) (malloc : Malloc) :
    (c.onPush p now malloc).1.snd = c.snd := by
  unfold onPush
  dsimp only
  split <;> rfl

/-- A packet keeps the counters of the sending half, if the free list has
room for what an ACK takes out. -/
theorem counted_input (h : c.snd.Counted) (packet : KcpPacket) (now : Nat) (malloc : Malloc)
    (hroom : ∀ header, packet = .ack header → c.snd.AckRoom header) :
    (c.input packet now malloc).1.snd.Counted := by
  cases packet with
  | ack header =>
    have hset := counted_rmtWnd h header.wnd
    show ((c.setRmtWnd header.wnd).onAck header now).snd.Counted
    unfold onAck
    split
    · exact hset
    · exact hset.onAck _ _ _ header _ (hroom header rfl)
  | push p =>
    show ((if 0 < p.frg then c.setRmtWnd p.wnd else c).onPush p now malloc).1.snd.Counted
    rw [snd_onPush]
    split
    · exact counted_rmtWnd h p.wnd
    · exact h
  | control cmd wnd packetTs ts sn =>
    unfold input
    dsimp only
    split
    · exact h
    · split
      · exact counted_rmtWnd h wnd
      · split
        · exact h
        · split <;> exact h

theorem counted_send (h : c.snd.Counted) (xxh64 : Nat → Nat) (data : List UInt8)
    (malloc : Malloc) : (c.step xxh64 (.send data malloc)).snd.Counted := by
  unfold step send
  dsimp only
  split
  case h_1 hsend =>
    split at hsend <;> cases hsend
    exact h.send.1 _ ‹_›
  case h_2 hsend =>
    split at hsend <;> cases hsend
    exact h.send.2 _ _ ‹_›

theorem counted_recv {size : Nat} {q : KcpConnection × KcpReceiver.Read} (h : c.rcv.Counted)
    (hrecv : c.recv size = .ok q) : q.1.rcv.Counted ∧ q.1.snd = c.snd := by
  unfold recv at hrecv
  split at hrecv
  case h_1 hok => cases hrecv; exact ⟨h.recv hok, rfl⟩
  case h_2 => cases hrecv

theorem counted_ackItem {r : KcpReceiver} (h : r.Counted) :
    KcpReceiver.Counted { r with ackItem := [] } :=
  ⟨h.buf, h.que, h.bytes, h.unused, h.free, h.wndLt⟩

theorem Counted.step (h : c.Counted) (xxh64 : Nat → Nat) (op : EndpointOp) (hop : c.Accounted op) :
    (c.step xxh64 op).Counted := by
  cases op with
  | send data malloc =>
    have hrcv : (c.step xxh64 (.send data malloc)).rcv = c.rcv := rcv_send data malloc
    exact ⟨counted_send h.snd xxh64 data malloc, hrcv ▸ h.rcv, hrcv ▸ h.held⟩
  | recv size =>
    cases hrecv : c.recv size with
    | error code => simpa only [KcpConnection.step, hrecv] using h
    | ok q =>
      simp only [KcpConnection.step, hrecv]
      obtain ⟨hrcv, hsnd⟩ := counted_recv h.rcv hrecv
      exact ⟨hsnd ▸ h.snd, hrcv, h.held.of_unread (unread_recv hrecv)⟩
  | packet packet now malloc =>
    by_cases hstate : c.state = .CONNECTED
    · simp only [KcpConnection.step, if_pos hstate]
      have hsnd := counted_input h.snd packet now malloc fun header heq => by
        subst heq
        exact hop hstate
      have hrcv : (c.input packet now malloc).1.rcv = _ := rcv_input packet
      cases packet with
      | push p =>
        refine ⟨hsnd, ?_, ?_⟩
        · rw [hrcv]
          exact h.rcv.onPush h.held p now malloc
        · rw [hrcv]
          exact KcpReceiver.Held.onPush h.held p now malloc
      | ack header => exact ⟨hsnd, hrcv ▸ h.rcv, hrcv ▸ h.held⟩
      | control cmd wnd packetTs ts sn => exact ⟨hsnd, hrcv ▸ h.rcv, hrcv ▸ h.held⟩
    · simpa only [KcpConnection.step, if_neg hstate] using h
  | flush now outcomes =>
    have hsnd := counted_flush xxh64 outcomes h.snd hop
    obtain hsame | hcleared := rcv_flush xxh64 c now outcomes
    · exact ⟨hsnd, hsame ▸ h.rcv, hsame ▸ h.held⟩
    · refine ⟨hsnd, ?_, ?_⟩
      · exact hcleared ▸ counted_ackItem h.rcv
      · exact hcleared ▸ ⟨h.held.psn, h.held.tree, h.held.nodup⟩
  | windowSize value =>
    have hs := h.snd
    have hr := h.rcv
    refine ⟨⟨hs.que, hs.buf, hs.unused, hop.1, i32_lt _, hs.nxtLt, hs.span, hs.order⟩,
      ⟨hr.buf, hr.que, hr.bytes, hr.unused, hop.2, i32_lt _⟩,
      ⟨h.held.psn, h.held.tree, h.held.nodup⟩⟩

theorem counted_connected (mtu : Nat) (fastlimit : Int) (now : Nat) :
    (connected mtu fastlimit now).Counted := by
  have horder : SendOrder 0 0 [] := ⟨List.Pairwise.nil, fun n hn => absurd hn List.not_mem_nil, rfl⟩
  have hsnd : KcpSender.Counted {} :=
    ⟨by decide, by decide, by decide, by decide, by decide, by decide, by decide, horder⟩
  have hrcv : KcpReceiver.Counted {} :=
    ⟨by decide, by decide, by decide, by decide, by decide, by decide⟩
  exact ⟨hsnd, hrcv, ⟨List.nodup_nil, List.Perm.refl _, List.nodup_nil⟩⟩

-- ==== bookkeeping

/-- The counters are the lengths of their lists, `snd_buf` is in order, and
the free lists stay within their windows. -/
structure Bookkeeping (c : KcpConnection) : Prop where
  nsndQue : c.snd.nsndQue = c.snd.sndQueue.length
  nsndBuf : c.snd.nsndBuf = c.snd.sndBuf.length
  nsndBufUnused : c.snd.nsndBufUnused = c.snd.sndBufUnused
  nrcvBuf : c.rcv.nrcvBuf = c.rcv.rcvBuf.length
  nrcvQue : c.rcv.nrcvQue = c.rcv.rcvQueue.length
  nrcvBufUnused : c.rcv.nrcvBufUnused = c.rcv.rcvBufUnused
  rcvQueueBytes : c.rcv.rcvQueueBytes = (c.rcv.rcvQueue.map (·.len)).sum
  sorted : c.snd.sndBuf.Pairwise (·.sn < ·.sn)
  bounds : ∀ pos ∈ c.snd.sndBuf, c.snd.sndUna ≤ pos.sn ∧ pos.sn < c.snd.sndNxt
  sndUna : c.snd.sndUna = (c.snd.sndBuf.head?.map (·.sn)).getD c.snd.sndNxt
  sndFree : (c.snd.sndBufUnused : Int) ≤ c.snd.sndWnd
  rcvFree : (c.rcv.rcvBufUnused : Int) ≤ c.rcv.rcvWnd

/-- What waits can be counted in a signed field of 32 bits. -/
def InRange (c : KcpConnection) : Prop :=
  c.snd.sndQueue.length < 2 ^ 31 ∧ c.rcv.rcvBuf.length < 2 ^ 31 ∧ c.rcv.rcvQueue.length < 2 ^ 31
    ∧ c.rcv.queuedBytes < 2 ^ 31

instance (c : KcpConnection) : Decidable c.InRange :=
  inferInstanceAs (Decidable (_ ∧ _ ∧ _ ∧ _))

theorem Counted.bookkeeping_iff (h : c.Counted) : c.Bookkeeping ↔ c.InRange := by
  constructor
  · intro hbook
    have hbytes : c.rcv.rcvQueueBytes = c.rcv.queuedBytes := hbook.rcvQueueBytes
    refine ⟨?_, ?_, ?_, ?_⟩
    · have hlt := i32_lt c.snd.sndQueue.length
      rw [← h.snd.que, hbook.nsndQue] at hlt
      omega
    · have hlt := i32_lt c.rcv.rcvBuf.length
      rw [← h.rcv.buf, hbook.nrcvBuf] at hlt
      omega
    · have hlt := i32_lt c.rcv.rcvQueue.length
      rw [← h.rcv.que, hbook.nrcvQue] at hlt
      omega
    · have hlt := i32_lt c.rcv.queuedBytes
      rw [← h.rcv.bytes, hbytes] at hlt
      omega
  · rintro ⟨hque, hbuf, hqueue, hbytes⟩
    have horder := h.snd.order
    have hspan := h.snd.span
    -- `snd_buf` has no more segments than there are numbers in the window
    have hsent : c.snd.sndBuf.length < 2 ^ 31 := by
      have hlen := horder.length_le
      rw [List.length_map] at hlen
      omega
    refine ⟨?_, ?_, h.snd.unused, ?_, ?_, h.rcv.unused, ?_, ?_, ?_, ?_, h.snd.free, h.rcv.free⟩
    · rw [h.snd.que, i32_of_lt hque]
    · rw [h.snd.buf, i32_of_lt hsent]
    · rw [h.rcv.buf, i32_of_lt hbuf]
    · rw [h.rcv.que, i32_of_lt hqueue]
    · rw [h.rcv.bytes, i32_of_lt hbytes]
      rfl
    · exact List.pairwise_map.mp horder.sorted
    · exact fun pos hpos => horder.bounds pos.sn (List.mem_map_of_mem hpos)
    · rw [horder.first]
      cases c.snd.sndBuf <;> rfl

/-- In every run of accounted steps the counters are right as long as what
waits can be counted at all. -/
theorem run_bookkeeping_iff (xxh64 : Nat → Nat) (mtu : Nat) (fastlimit : Int) (now : Nat)
    (ops : List EndpointOp)
    (hops : Meets (step xxh64) Accounted (connected mtu fastlimit now) ops) :
    (run (step xxh64) (connected mtu fastlimit now) ops).Bookkeeping
      ↔ (run (step xxh64) (connected mtu fastlimit now) ops).InRange := by
  have hcounted : (run (step xxh64) (connected mtu fastlimit now) ops).Counted :=
    run_inv (fun c op h hop => h.step xxh64 op hop) (counted_connected mtu fastlimit now) hops
  exact hcounted.bookkeeping_iff

/-- A message sent, flushed and acknowledged. -/
theorem run_bookkeeping_iff_acked :
    (run (step id) (connected 1472 5 0)
      [.send [1], .flush 30000 [],
        .packet (.ack ⟨256, 30000, 31000, 0, 1⟩) 32000]).Bookkeeping := by
  refine (run_bookkeeping_iff id 1472 5 0 _ ?_).mpr ?_
  · decide
  · decide

/-- Messages of one byte, sent at once, and acknowledged in rounds of
four. -/
def acknowledgedInRounds : List EndpointOp :=
  List.replicate 132 (.send [1]) ++ (List.range 33).flatMap fun i =>
    let now := 40000 * (i + 1)
    [.flush now [], .packet (.ack ⟨256, now, now + 500, 4 * i, 4 * i + 4⟩) (now + 1000)]

/-- The free list is cut at 128 segments, its counter is not. -/
theorem not_bookkeeping_acknowledgedInRounds :
    ¬ (run (step id) (connected 1472 5 0) acknowledgedInRounds).Bookkeeping := by
  intro h
  have hne : (run (step id) (connected 1472 5 0) acknowledgedInRounds).snd.nsndBufUnused
      ≠ (run (step id) (connected 1472 5 0) acknowledgedInRounds).snd.sndBufUnused := by
    decide +kernel
  exact hne h.nsndBufUnused

end KcpConnection

end Eular.Kcp
