/-
The moves of packets between the queues, as a machine of their own.

`Queues.move` knows nothing of sockets, timers or frames; `Allowed` says
when a move may happen. Whatever an event of the send control does to
the queues is a run of allowed moves (`Eular.Utp.Send.Proofs.Simulation`),
so that what the moves keep is kept by every run of the send control.
Here is what they do to the addresses of the packets: no packet is ever
in two places.

`Rules` leaves four of the conditions open: which packets may be kept,
scheduled, given up or retired depends on what one wants to know.
-/
import Eular.Lib.Run
import Eular.Utp.Send.CanWrite
import Eular.Utp.Send.Proofs.TwoPaths

namespace Eular.Utp

open Lib

-- ==== rules

/-- The conditions that are left open. `mayStream` is about the STREAM frames
an event sends that are not in a lost packet. -/
structure Rules where
  mayStream : FrameStream → Prop := fun _ => True
  mayKeep : Queues → QueuedPacket → Prop := fun _ _ => True
  maySchedule : QueuedPacket → Prop := fun _ => True
  mayLose : QueuedPacket → Prop := fun _ => True
  mayRetire : Queues → QueuedPacket → Prop := fun _ _ => True

/-- What preparing makes of a packet. -/
def EditOf (gcm : Gcm) (packet packet' : PacketOut) : Prop :=
  ∃ renv aesCtx, packet' = (prepareLostPacket gcm renv aesCtx packet).packet

namespace Queues

def Allowed (gcm : Gcm) (rules : Rules) (s : Queues) : QueueMove → Prop
  | .takeNumber => True
  | .keep q => q.ptr = s.nextPtr ∧ q.packno = s.packetNumber ∧ rules.mayKeep s q
  | .schedule q => q.ptr = s.nextPtr ∧ rules.maySchedule q
  | .flush _ q | .drop q => q ∈ s.scheduledPackets
  | .note (.dataLoss ptr) => ∃ q ∈ s.unackedPackets, q.ptr = ptr ∧ q.isMtuProbe = false
  | .note (.probeSent ptr) => ∃ q ∈ s.unackedPackets, q.ptr = ptr ∧ q.isMtuProbe = true
  | .note _ => False
  | .ack q => q ∈ s.unackedPackets
  | .loseProbe q => q ∈ s.unackedPackets ∧ q.isMtuProbe = true
  | .lose q => q ∈ s.unackedPackets ∧ rules.mayLose q
  | .edit q packet => q ∈ s.lostPackets ∧ EditOf gcm q.packet packet
  | .resend _ q => q ∈ s.lostPackets
  | .retire q => q ∈ s.lostPackets ∧ rules.mayRetire s q

/-- The move puts a packet of an old number at the end of a queue. -/
def appends : QueueMove → Bool
  | .schedule _ | .flush _ _ | .resend _ _ => true
  | _ => false

/-- An allowed move that does not. -/
def Settles (gcm : Gcm) (rules : Rules) (s : Queues) (m : QueueMove) : Prop :=
  s.Allowed gcm rules m ∧ appends m = false

def Sending (rules : Rules) (s : Queues) : QueueMove → Prop
  | .takeNumber => True
  | .keep q => q.ptr = s.nextPtr ∧ q.packno = s.packetNumber ∧ rules.mayKeep s q
  | _ => False

variable {gcm : Gcm} {rules : Rules}

variable (gcm) in
theorem Sending.settles {s : Queues} {m : QueueMove} (h : s.Sending rules m) :
    s.Settles gcm rules m := by
  cases m with
  | takeNumber => exact ⟨trivial, rfl⟩
  | keep q => exact ⟨h, rfl⟩
  | _ => exact h.elim

-- ==== addresses

/-- The packets in the queues, and their addresses. -/
def packets (s : Queues) : List QueuedPacket :=
  s.unackedPackets ++ s.scheduledPackets ++ s.lostPackets

def ptrs (s : Queues) : List Nat := s.packets.map QueuedPacket.ptr

/-- No packet is in two places, and the next address is new. -/
structure Distinct (s : Queues) : Prop where
  nodup : s.ptrs.Nodup
  fresh : ∀ ptr ∈ s.ptrs, ptr < s.nextPtr

/-- What is said of the packets, taken one by one. -/
def labels {α : Type*} (f : QueuedPacket → α) (s : Queues) : List α := s.packets.map f

/-- The moves that change a packet do not change what `f` says of it. -/
structure Stable {α : Type*} (gcm : Gcm) (f : QueuedPacket → α) : Prop where
  flushed : ∀ nowUs q, f (flushedPacket nowUs q) = f q
  lost : ∀ q, f (lostPacket q) = f q
  edited : ∀ (q : QueuedPacket) packet, EditOf gcm q.packet packet → f { q with packet } = f q
  resent : ∀ nowUs q, f (resentPacket nowUs q) = f q

/-- What a move can do to the packets there are. -/
inductive Effect where
  | stay
  | enter (q : QueuedPacket)
  | leave (q : QueuedPacket)

def effect : QueueMove → Effect
  | .keep q | .schedule q => .enter q
  | .drop q | .ack q | .loseProbe q | .retire q => .leave q
  | _ => .stay

/-- What that means for the packets before and after. -/
def Change {α : Type*} (f : QueuedPacket → α) (s t : Queues) : Effect → Prop
  | .stay => (t.labels f).Perm (s.labels f) ∧ t.live = s.live ∧ t.nextPtr = s.nextPtr
  | .enter q => q.ptr = s.nextPtr ∧ (t.labels f).Perm (f q :: s.labels f)
      ∧ t.live = s.live ++ [s.nextPtr] ∧ t.nextPtr = s.nextPtr + 1
  | .leave q => (s.labels f).Perm (f q :: t.labels f) ∧ t.live = s.live.erase q.ptr
      ∧ t.nextPtr = s.nextPtr

theorem labels_eq {α : Type*} (f : QueuedPacket → α) (s : Queues) :
    s.labels f = s.unackedPackets.map f ++ s.scheduledPackets.map f ++ s.lostPackets.map f := by
  unfold labels packets
  rw [List.map_append, List.map_append]

theorem ptrs_eq (s : Queues) :
    s.ptrs = s.unackedPackets.map QueuedPacket.ptr ++ s.scheduledPackets.map QueuedPacket.ptr
      ++ s.lostPackets.map QueuedPacket.ptr :=
  labels_eq QueuedPacket.ptr s

theorem stable_ptr (gcm : Gcm) : Stable gcm QueuedPacket.ptr :=
  ⟨fun _ _ => rfl, fun _ => rfl, fun _ _ _ => rfl, fun _ _ => rfl⟩

namespace Distinct

variable {s : Queues} (h : s.Distinct)

include h

theorem unacked : (s.unackedPackets.map QueuedPacket.ptr).Nodup := by
  have hn := h.nodup
  rw [ptrs_eq] at hn
  exact hn.of_append_left.of_append_left

theorem scheduled : (s.scheduledPackets.map QueuedPacket.ptr).Nodup := by
  have hn := h.nodup
  rw [ptrs_eq] at hn
  exact hn.of_append_left.of_append_right

theorem lost : (s.lostPackets.map QueuedPacket.ptr).Nodup := by
  have hn := h.nodup
  rw [ptrs_eq] at hn
  exact hn.of_append_right

end Distinct

theorem Distinct.change {s t : Queues} {e : Effect} (h : s.Distinct)
    (hc : Change QueuedPacket.ptr s t e) : t.Distinct := by
  cases e with
  | stay =>
    obtain ⟨hperm, -, hnext⟩ := hc
    refine ⟨hperm.nodup_iff.mpr h.nodup, ?_⟩
    intro ptr hptr
    rw [hnext]
    exact h.fresh ptr (hperm.mem_iff.mp hptr)
  | enter q =>
    obtain ⟨hq, hperm, -, hnext⟩ := hc
    rw [hq] at hperm
    refine ⟨hperm.nodup_iff.mpr (List.nodup_cons.mpr ⟨?_, h.nodup⟩), ?_⟩
    · intro hmem
      exact absurd (h.fresh _ hmem) (Nat.lt_irrefl _)
    · intro ptr hptr
      rw [hnext]
      rcases List.mem_cons.mp (hperm.mem_iff.mp hptr) with rfl | hmem
      · exact Nat.lt_succ_self _
      · exact Nat.lt_succ_of_lt (h.fresh ptr hmem)
  | leave q =>
    obtain ⟨hperm, -, hnext⟩ := hc
    refine ⟨(List.nodup_cons.mp (hperm.nodup_iff.mp h.nodup)).2, ?_⟩
    intro ptr hptr
    rw [hnext]
    exact h.fresh ptr (hperm.mem_iff.mpr (List.mem_cons_of_mem q.ptr hptr))

section Change

variable {α : Type*} {f : QueuedPacket → α}

theorem perm_map_removeKey {l : List QueuedPacket} {q : QueuedPacket}
    (hn : (l.map QueuedPacket.ptr).Nodup) (hq : q ∈ l) :
    (l.map f).Perm (f q :: (removeKey QueuedPacket.ptr q.ptr l).map f) :=
  (perm_removeKey hn hq).map f

theorem change_move (hf : Stable gcm f) {s : Queues} (h : s.Distinct) {m : QueueMove}
    (hm : s.Allowed gcm rules m) : Change f s (s.move m) (effect m) := by
  have hu := h.unacked
  have hs := h.scheduled
  have hl := h.lost
  cases m with
  | takeNumber => exact ⟨.refl _, rfl, rfl⟩
  | note call => exact ⟨.refl _, rfl, rfl⟩
  | keep q =>
    refine ⟨hm.1, ?_, rfl, rfl⟩
    rw [labels_eq, labels_eq]
    show ((s.unackedPackets ++ [q]).map f ++ _ ++ _).Perm _
    rw [List.map_append, List.map_singleton]
    simp only [List.append_assoc]
    exact List.perm_middle
  | schedule q =>
    refine ⟨hm.1, ?_, rfl, rfl⟩
    rw [labels_eq, labels_eq]
    show (_ ++ (s.scheduledPackets ++ [q]).map f ++ _).Perm _
    rw [List.map_append, List.map_singleton, ← List.append_assoc]
    simp only [List.append_assoc _ [f q]]
    exact List.perm_middle
  | flush nowUs q =>
    refine ⟨?_, rfl, rfl⟩
    rw [labels_eq, labels_eq]
    show ((s.unackedPackets ++ [flushedPacket nowUs q]).map f
      ++ (removeKey _ q.ptr s.scheduledPackets).map f ++ _).Perm _
    rw [List.map_append, List.map_singleton, hf.flushed]
    refine List.Perm.append_right _ ?_
    rw [List.append_assoc]
    exact (perm_map_removeKey hs hm).symm.append_left _
  | drop q =>
    refine ⟨?_, rfl, rfl⟩
    rw [labels_eq, labels_eq]
    refine List.Perm.trans (((perm_map_removeKey hs hm).append_left _).append_right _) ?_
    simp only [List.append_assoc]
    exact List.perm_middle
  | ack q =>
    refine ⟨?_, rfl, rfl⟩
    rw [labels_eq, labels_eq]
    exact ((perm_map_removeKey hu hm).append_right _).append_right _
  | loseProbe q =>
    refine ⟨?_, rfl, rfl⟩
    rw [labels_eq, labels_eq]
    exact ((perm_map_removeKey hu hm.1).append_right _).append_right _
  | lose q =>
    refine ⟨?_, rfl, rfl⟩
    rw [labels_eq, labels_eq]
    show ((removeKey _ q.ptr s.unackedPackets).map f ++ _
      ++ (s.lostPackets ++ [lostPacket q]).map f).Perm _
    rw [List.map_append, List.map_singleton, hf.lost, ← List.append_assoc]
    refine List.Perm.trans (List.perm_append_singleton (f q) _) ?_
    exact (((perm_map_removeKey hu hm.1).append_right _).append_right _).symm
  | edit q packet =>
    refine ⟨?_, rfl, rfl⟩
    rw [labels_eq, labels_eq]
    refine List.Perm.append_left _ ?_
    show ((replaceKey QueuedPacket.ptr { q with packet } s.lostPackets).map f).Perm _
    have hreplaced := (perm_replaceKey (a := { q with packet }) hl hm.1 rfl).map f
    rw [List.map_cons, hf.edited q packet hm.2] at hreplaced
    exact hreplaced.trans (perm_map_removeKey hl hm.1).symm
  | resend nowUs q =>
    refine ⟨?_, rfl, rfl⟩
    rw [labels_eq, labels_eq]
    show ((s.unackedPackets ++ [resentPacket nowUs q]).map f ++ _
      ++ (removeKey _ q.ptr s.lostPackets).map f).Perm _
    rw [List.map_append, List.map_singleton, hf.resent]
    refine List.Perm.trans ?_ ((perm_map_removeKey hl hm).append_left _).symm
    simp only [List.append_assoc]
    refine List.Perm.append_left _ ?_
    show (f q :: (s.scheduledPackets.map f ++ _)).Perm _
    exact List.perm_middle.symm
  | retire q =>
    refine ⟨?_, rfl, rfl⟩
    rw [labels_eq, labels_eq]
    exact ((perm_map_removeKey hl hm.1).append_left _).trans List.perm_middle

end Change

theorem distinct_move {s : Queues} {m : QueueMove} (h : s.Distinct)
    (hm : s.Allowed gcm rules m) : (s.move m).Distinct :=
  h.change (change_move (stable_ptr gcm) h hm)

end Queues

end Eular.Utp
