/-
The accounts of the send control: every packet it holds is in exactly one
queue, and the counters are the sums over the queues they stand for.

The size a packet is counted with depends on its flags and on the length
of its sealed form, both of which change in its life. They change only
while it is lost, or on the way from one queue to another, so what is
subtracted is what was added. The argument is about single moves
(`counted_move`); that every event is a run of moves carries it to every
run (`accounted_run`).
-/
import Eular.Utp.Send.Proofs.Resending

namespace Eular.Utp

open Lib

namespace Queues

variable {q : QueuedPacket} {s : Queues}

/-- The accounts of a state of the queues. -/
structure Accounted (s : Queues) : Prop where
  /-- A packet that is not back in the pool is in one queue, once. -/
  inOneQueue : ∀ ptr, (s.unackedPackets.map QueuedPacket.ptr).count ptr
      + (s.scheduledPackets.map QueuedPacket.ptr).count ptr
      + (s.lostPackets.map QueuedPacket.ptr).count ptr
    = if ptr ∈ s.live then 1 else 0
  bytesUnackedAll : s.bytesUnackedAll = (s.unackedPackets.map QueuedPacket.sentSize).sum
  nInflightAll : s.nInflightAll = s.unackedPackets.length
  bytesUnackedRetrans : s.bytesUnackedRetrans
    = ((s.unackedPackets.filter QueuedPacket.retx).map QueuedPacket.sentSize).sum
  nInflightRetrans : s.nInflightRetrans = (s.unackedPackets.filter QueuedPacket.retx).length
  bytesScheduled : s.bytesScheduled = (s.scheduledPackets.map QueuedPacket.sentSize).sum
  nScheduled : s.nScheduled = s.scheduledPackets.length
  streamUnackedDataBytes : s.streamUnackedDataBytes
    = (s.unackedPackets.map fun q => q.packet.streamDataSize).sum
  noAssertion : s.assertFailed = false

-- ==== counters

/-- The sum of `f` over the unacknowledged packets. -/
def weigh (s : Queues) (f : QueuedPacket → Nat) : Nat := (s.unackedPackets.map f).sum

/-- The counters of `m_unackedPackets`. -/
structure UnackedCounted (s : Queues) : Prop where
  bytesAll : s.bytesUnackedAll = s.weigh QueuedPacket.sentSize
  nAll : s.nInflightAll = s.weigh fun _ => 1
  bytesRetrans : s.bytesUnackedRetrans = s.weigh fun q => if q.retx then q.sentSize else 0
  nRetrans : s.nInflightRetrans = s.weigh fun q => if q.retx then 1 else 0
  streamBytes : s.streamUnackedDataBytes = s.weigh fun q => q.packet.streamDataSize
  noAssertion : s.assertFailed = false

/-- The counters of `m_scheduledPackets`. -/
structure ScheduledCounted (s : Queues) : Prop where
  bytes : s.bytesScheduled = (s.scheduledPackets.map QueuedPacket.sentSize).sum
  n : s.nScheduled = (s.scheduledPackets.map fun _ => 1).sum

def unackedView (s : Queues) : List QueuedPacket × Nat × Nat × Nat × Nat × Nat × Bool :=
  (s.unackedPackets, s.bytesUnackedAll, s.nInflightAll, s.bytesUnackedRetrans,
    s.nInflightRetrans, s.streamUnackedDataBytes, s.assertFailed)

def scheduledView (s : Queues) : List QueuedPacket × Nat × Nat :=
  (s.scheduledPackets, s.bytesScheduled, s.nScheduled)

theorem UnackedCounted.congr {s t : Queues} (h : s.UnackedCounted)
    (hview : t.unackedView = s.unackedView) : t.UnackedCounted := by
  simp only [unackedView, Prod.mk.injEq] at hview
  obtain ⟨hq, hbytes, hn, hretrans, hnRetrans, hstream, hassert⟩ := hview
  have hweigh : t.weigh = s.weigh := by
    unfold weigh
    rw [hq]
  refine ⟨?_, ?_, ?_, ?_, ?_, hassert.trans h.noAssertion⟩
  · rw [hbytes, hweigh, h.bytesAll]
  · rw [hn, hweigh, h.nAll]
  · rw [hretrans, hweigh, h.bytesRetrans]
  · rw [hnRetrans, hweigh, h.nRetrans]
  · rw [hstream, hweigh, h.streamBytes]

theorem ScheduledCounted.congr {s t : Queues} (h : s.ScheduledCounted)
    (hview : t.scheduledView = s.scheduledView) : t.ScheduledCounted := by
  simp only [scheduledView, Prod.mk.injEq] at hview
  obtain ⟨hq, hbytes, hn⟩ := hview
  constructor
  · rw [hbytes, hq, h.bytes]
  · rw [hn, hq, h.n]

theorem weigh_append (s : Queues) (q : QueuedPacket) (f : QueuedPacket → Nat) :
    (s.appendUnacked q).weigh f = s.weigh f + f q := by
  show ((s.unackedPackets ++ [q]).map f).sum = _
  rw [List.map_append, List.sum_append, List.map_singleton, List.sum_singleton]
  rfl

theorem UnackedCounted.append (h : s.UnackedCounted) (q : QueuedPacket) :
    (s.appendUnacked q).UnackedCounted := by
  refine ⟨?_, ?_, ?_, ?_, ?_, h.noAssertion⟩
  · rw [weigh_append, ← h.bytesAll]
    rfl
  · rw [weigh_append, ← h.nAll]
    rfl
  · rw [weigh_append, ← h.bytesRetrans]
    rfl
  · rw [weigh_append, ← h.nRetrans]
    rfl
  · rw [weigh_append, ← h.streamBytes]
    rfl

theorem weigh_remove (hn : (s.unackedPackets.map QueuedPacket.ptr).Nodup)
    (hq : q ∈ s.unackedPackets) (f : QueuedPacket → Nat) :
    (s.unackedRemove q).weigh f = s.weigh f - f q := by
  have hsum := sum_map_removeKey hn hq f
  show ((removeKey QueuedPacket.ptr q.ptr s.unackedPackets).map f).sum = s.weigh f - f q
  unfold weigh
  omega

/-- Taking a packet out of `m_unackedPackets` takes it out of the counters,
and does not trip the assertion. -/
theorem UnackedCounted.remove (h : s.UnackedCounted)
    (hn : (s.unackedPackets.map QueuedPacket.ptr).Nodup)
    (hq : q ∈ s.unackedPackets) : (s.unackedRemove q).UnackedCounted := by
  refine ⟨?_, ?_, ?_, ?_, ?_, ?_⟩
  · rw [weigh_remove hn hq, ← h.bytesAll]
    rfl
  · rw [weigh_remove hn hq, ← h.nAll]
    rfl
  · rw [weigh_remove hn hq, ← h.bytesRetrans]
    rfl
  · rw [weigh_remove hn hq, ← h.nRetrans]
    rfl
  · rw [weigh_remove hn hq, ← h.streamBytes]
    rfl
  · have hle : q.sentSize ≤ s.bytesUnackedAll := by
      rw [h.bytesAll]
      exact List.single_le_sum (fun _ _ => Nat.zero_le _) _ (List.mem_map_of_mem hq)
    show (s.assertFailed || decide (s.bytesUnackedAll < q.sentSize)) = false
    rw [h.noAssertion, Bool.false_or, decide_eq_false_iff_not]
    exact Nat.not_lt.mpr hle

theorem ScheduledCounted.schedule (h : s.ScheduledCounted) (q : QueuedPacket) :
    (s.schedule q).ScheduledCounted := by
  constructor
  · show s.bytesScheduled + q.sentSize = ((s.scheduledPackets ++ [q]).map _).sum
    rw [List.map_append, List.sum_append, List.map_singleton, List.sum_singleton, h.bytes]
  · show s.nScheduled + 1 = ((s.scheduledPackets ++ [q]).map fun _ => 1).sum
    rw [List.map_append, List.sum_append, List.map_singleton, List.sum_singleton, h.n]

theorem ScheduledCounted.unschedule (h : s.ScheduledCounted)
    (hn : (s.scheduledPackets.map QueuedPacket.ptr).Nodup)
    (hq : q ∈ s.scheduledPackets) : (s.unschedule q).ScheduledCounted := by
  have hbytes := sum_map_removeKey hn hq QueuedPacket.sentSize
  have hcount := sum_map_removeKey hn hq fun _ => 1
  constructor
  · show s.bytesScheduled - q.sentSize
      = ((removeKey QueuedPacket.ptr q.ptr s.scheduledPackets).map _).sum
    rw [h.bytes]
    omega
  · show s.nScheduled - 1
      = ((removeKey QueuedPacket.ptr q.ptr s.scheduledPackets).map fun _ => 1).sum
    rw [h.n]
    omega

-- ==== moves

structure Counted (s : Queues) : Prop where
  distinct : s.Distinct
  live : s.live.Perm s.ptrs
  unacked : s.UnackedCounted
  scheduled : s.ScheduledCounted

variable {gcm : Gcm} {rules : Rules}

theorem live_perm_change {s t : Queues} {e : Effect} (hc : Change QueuedPacket.ptr s t e)
    (h : s.live.Perm s.ptrs) : t.live.Perm t.ptrs := by
  cases e with
  | stay =>
    obtain ⟨hperm, hlive, -⟩ := hc
    rw [hlive]
    exact h.trans hperm.symm
  | enter q =>
    obtain ⟨hq, hperm, hlive, -⟩ := hc
    rw [hq] at hperm
    rw [hlive]
    refine ((List.perm_append_singleton s.nextPtr s.live).trans ?_).trans hperm.symm
    exact h.cons s.nextPtr
  | leave q =>
    obtain ⟨hperm, hlive, -⟩ := hc
    rw [hlive]
    have herase := (h.trans hperm).erase q.ptr
    rw [List.erase_cons_head] at herase
    exact herase

theorem counted_move {m : QueueMove} (h : s.Counted)
    (hm : s.Allowed gcm rules m) : (s.move m).Counted := by
  have hptrs := change_move (stable_ptr gcm) h.distinct hm
  have hu := h.distinct.unacked
  have hs := h.distinct.scheduled
  refine ⟨h.distinct.change hptrs, live_perm_change hptrs h.live, ?_, ?_⟩
  · cases m with
    | keep q => exact (h.unacked.append q).congr rfl
    | flush nowUs q => exact (h.unacked.append (flushedPacket nowUs q)).congr rfl
    | resend nowUs q => exact (h.unacked.append (resentPacket nowUs q)).congr rfl
    | ack q => exact (h.unacked.remove hu hm).congr rfl
    | loseProbe q => exact (h.unacked.remove hu hm.1).congr rfl
    | lose q => exact (h.unacked.remove hu hm.1).congr rfl
    | _ => exact h.unacked.congr rfl
  · cases m with
    | schedule q => exact h.scheduled.schedule q
    | flush nowUs q => exact (h.scheduled.unschedule hs hm).congr rfl
    | drop q => exact (h.scheduled.unschedule hs hm).congr rfl
    | _ => exact h.scheduled.congr rfl

-- ==== the accounts

theorem sum_map_filter (l : List QueuedPacket) (p : QueuedPacket → Bool)
    (f : QueuedPacket → Nat) :
    ((l.filter p).map f).sum = (l.map fun q => if p q then f q else 0).sum := by
  induction l with
  | nil => rfl
  | cons q l ih =>
    rw [List.filter_cons, List.map_cons, List.sum_cons, ← ih]
    split
    · rw [List.map_cons, List.sum_cons]
    · rw [Nat.zero_add]

theorem sum_map_one (l : List QueuedPacket) : (l.map fun _ => 1).sum = l.length := by
  rw [List.map_const', List.sum_replicate, smul_eq_mul, Nat.mul_one]

theorem Counted.accounted (h : s.Counted) : s.Accounted := by
  refine ⟨?_, h.unacked.bytesAll, ?_, ?_, ?_, h.scheduled.bytes, ?_, h.unacked.streamBytes,
    h.unacked.noAssertion⟩
  · intro ptr
    rw [← List.count_append, ← List.count_append, ← ptrs_eq, ← h.live.count_eq]
    exact List.Nodup.count (h.live.nodup_iff.mpr h.distinct.nodup)
  · rw [h.unacked.nAll, weigh, sum_map_one]
  · rw [h.unacked.bytesRetrans, weigh, sum_map_filter]
  · rw [h.unacked.nRetrans, weigh, ← sum_map_one, sum_map_filter]
  · rw [h.scheduled.n, sum_map_one]

end Queues

-- ==== runs

def anyRules : Rules := {}

theorem anyRules_keeps (gcm : Gcm) (env : SendCtlEnv) : anyRules.Keeps gcm env :=
  fun _ _ _ _ _ _ _ _ _ => trivial

theorem anyRules_retires (gcm : Gcm) (env : SendCtlEnv) : anyRules.Retires gcm env :=
  fun _ _ _ _ => trivial

namespace SendControl

/-- A send control before anything was sent by it. -/
def init (packetNumber : UInt64) (mtu : MtuDiscovery) (bytesOut : Nat) : SendControl :=
  { packetNumber, mtu, bytesOut }

theorem counted_init (packetNumber : UInt64) (mtu : MtuDiscovery) (bytesOut : Nat) :
    (init packetNumber mtu bytesOut).toQueues.Counted :=
  ⟨⟨List.nodup_nil, fun _ h => absurd h List.not_mem_nil⟩, .nil, ⟨rfl, rfl, rfl, rfl, rfl, rfl⟩,
    ⟨rfl, rfl⟩⟩

theorem counted_step (gcm : Gcm) {s : SendControl} (h : s.toQueues.Counted)
    (op : SendCtlEnv × SendCtlOp) : (s.step gcm op).toQueues.Counted := by
  have hreach : Reaches Queues.move (Queues.Allowed gcm anyRules) s.toQueues
      (s.step gcm op).toQueues :=
    step_reaches h.distinct op ⟨anyRules_keeps gcm op.1, anyRules_retires gcm op.1,
      fun _ _ => trivial, fun _ _ => trivial, fun _ _ => trivial⟩
  exact hreach.inv (fun _ _ hc hm => Queues.counted_move hc hm) h

/-- Every live packet is in exactly one queue, every counter is the sum it
stands for and no assertion fails, whatever happens in whatever order. -/
theorem accounted_run (gcm : Gcm) (packetNumber : UInt64) (mtu : MtuDiscovery) (bytesOut : Nat)
    (ops : List (SendCtlEnv × SendCtlOp)) :
    (run (step gcm) (init packetNumber mtu bytesOut) ops).toQueues.Accounted := by
  have hcounted := run_inv_of_step (P := fun s : SendControl => s.toQueues.Counted)
    (fun _ op h => counted_step gcm h op) ops (counted_init packetNumber mtu bytesOut)
  exact hcounted.accounted

/-- What a run does to the queues, the machine of moves can do. -/
theorem queue_moves_run (gcm : Gcm) (packetNumber : UInt64) (mtu : MtuDiscovery) (bytesOut : Nat)
    (ops : List (SendCtlEnv × SendCtlOp)) :
    Reaches Queues.move (Queues.Allowed gcm anyRules) (init packetNumber mtu bytesOut).toQueues
      (run (step gcm) (init packetNumber mtu bytesOut) ops).toQueues := by
  refine run_inv_of_step (P := fun s : SendControl => Reaches _ _ _ s.toQueues)
    (fun s op h => ?_) ops (.refl _)
  have hcounted := h.inv (fun _ _ hc hm => Queues.counted_move hc hm)
    (counted_init packetNumber mtu bytesOut)
  have hmoves := step_reaches hcounted.distinct op ⟨anyRules_keeps gcm op.1,
    anyRules_retires gcm op.1, fun _ _ => trivial, fun _ _ => trivial, fun _ _ => trivial⟩
  exact h.trans hmoves

end SendControl

end Eular.Utp
