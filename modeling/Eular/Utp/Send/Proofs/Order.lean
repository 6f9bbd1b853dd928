/-
The order of `m_unackedPackets`: from head to tail, packet numbers grow.

Loss detection relies on it twice. `detectLosses` stops at the first
number above the largest acknowledged one, and `largestRetxPacketNo` takes
the last packet of the queue for the one of the largest number.

A new packet takes the next number and goes to the end at once, so sends,
acknowledgements and losses keep the order. What breaks it is a packet
that goes to the end with a number it took earlier. `retransmitLostBatch`
numbers the packets it prepares, and when it then comes to a packet the
path refuses it splits that one, which sends packets of later numbers,
before the prepared ones are appended. A scheduled packet was numbered
when it was built. `KeepsOrder` rules out both, and asks only about the
state a flush or a batch starts from: the numbers of the scheduled
packets, and what the congestion window and the path say to the lost ones.
-/
import Eular.Utp.Send.Proofs.Accounting

namespace Eular.Utp

open Lib

-- ==== property

/-- Numbers grow along the queue. -/
def NumbersGrow (l : List QueuedPacket) : Prop := l.Pairwise fun a b => a.packno < b.packno

/-- What loss detection relies on. -/
structure SendControl.UnackedOrdered (s : SendControl) : Prop where
  sorted : NumbersGrow s.unackedPackets
  /-- `detectLosses` looks at every packet up to the largest number
  acknowledged. -/
  inspects : ∀ q ∈ s.unackedPackets, q.packno ≤ s.largestAckedPackNo → q ∈ s.inspected
  /-- `largestRetxPacketNo` is the largest of the numbers it chooses from. -/
  largest : ∀ q ∈ s.unackedPackets, q.packet.poFlags.lossRecorded = false → q.retx = true →
    q.packno ≤ s.largestRetxPacketNo
      ∧ ∃ q' ∈ s.unackedPackets, q'.packet.poFlags.lossRecorded = false ∧ q'.retx = true
          ∧ q'.packno = s.largestRetxPacketNo

namespace SendControl

variable (gcm : Gcm)

/-- The scheduled packets that are flushed and tracked carry numbers that
grow, and that come after those of `m_unackedPackets`. -/
def FlushInOrder (env : SendCtlEnv) (s : SendControl) (maxPackets : Nat) : Prop :=
  let flushed := (s.flushable env maxPackets).filter QueuedPacket.trackOnSend
  NumbersGrow flushed ∧ ∀ a ∈ s.unackedPackets, ∀ b ∈ flushed, a.packno < b.packno

/-- The form in which a lost packet is tried: without its ACK frame. -/
def tried (packet : PacketOut) : Option PacketOut :=
  if 0 < packet.streamDataSize ∧ 0 < packet.transientAckSize then stripTransientAckPayload packet
  else some packet

/-- What the path says to a lost packet. One that the congestion window
keeps back does not get so far. -/
def pathAnswer (env : SendCtlEnv) (s : SendControl) (q : QueuedPacket) : Option Bool :=
  if !s.canSendStreamUnackedBytes env q.packet.streamDataSize then none
  else (tried q.packet).map fun packet =>
    s.canSendOnCurrentPath env packet.dataSize (firstFrameType packet.frameTypes)

/-- The lost packets a batch begins with that the path takes. -/
def pathTakes (env : SendCtlEnv) (s : SendControl) (batchCap : Nat) : List QueuedPacket :=
  (s.lostPackets.take batchCap).takeWhile fun q => s.pathAnswer env q = some true

/-- If the path refuses the packet behind those it takes, the socket takes
none of them. -/
def BatchInOrder (env : SendCtlEnv) (s : SendControl) (maxPackets : Nat) : Prop :=
  let takes := s.pathTakes env (min maxPackets kSendBatchCap)
  ∀ q ∈ ((s.lostPackets.take (min maxPackets kSendBatchCap)).drop takes.length).head?,
    s.pathAnswer env q = some false →
      ∀ wires : List (List UInt8), wires.length = takes.length →
        wires.take (env.udpSendBatch wires) = []

/-- Every batch of `onCanWrite` is such, in the state it starts from. -/
def RoundsInOrder (env : SendCtlEnv) : Nat → Nat → BatchResult → Nat → Prop
  | 0, _, _, _ => True
  | fuel + 1, i, r, budget =>
    if !r.state.lostPackets.isEmpty && r.state.canSend env i && r.sent < budget then
      let b := r.state.retransmitLostBatch gcm env (env.nowUs i) (budget - r.sent)
      r.state.BatchInOrder env (budget - r.sent)
        ∧ RoundsInOrder env fuel (i + 1)
            { state := b.state, sent := r.sent + b.sent, sentAny := r.sentAny || b.sentAny }
            budget
    else True

/-- The steps that keep the order. -/
def KeepsOrder (s : SendControl) : SendCtlEnv × SendCtlOp → Prop
  | (_, .schedulePacket packet _) => packet.packno < s.packetNumber
  | (env, .flushScheduledPackets n) => s.FlushInOrder env n
  | (env, .retransmitLostBatch n) => s.BatchInOrder env n
  | (env, .canWrite) =>
    let r := s.flushScheduledPackets env (env.nowUs 0) kSendBatchCap
    s.FlushInOrder env kSendBatchCap
      ∧ RoundsInOrder gcm env (r.1.lostPackets.length + 1) 0
          { state := r.1, sent := 0, sentAny := r.2 } r.1.sentBudget
  | _ => True

end SendControl

-- ==== sorted queues

/-- In a list where a predicate never comes back once it fails, the entries
that satisfy it are those before the first that does not. -/
theorem mem_takeWhile_of_pairwise {α : Type*} {P : α → Bool} {l : List α} {a : α}
    (hmono : l.Pairwise fun x y => P y = true → P x = true) (ha : a ∈ l) (hP : P a = true) :
    a ∈ l.takeWhile P := by
  induction l with
  | nil => exact absurd ha List.not_mem_nil
  | cons b l ih =>
    have hm := List.pairwise_cons.mp hmono
    have hb : P b = true := by
      rcases List.mem_cons.mp ha with rfl | ha
      · exact hP
      · exact hm.1 a ha hP
    rw [List.takeWhile_cons_of_pos hb]
    rcases List.mem_cons.mp ha with rfl | ha
    · exact List.mem_cons_self
    · exact List.mem_cons_of_mem b (ih hm.2 ha)

theorem find_reverse_le {l : List QueuedPacket} (hsorted : NumbersGrow l)
    {p : QueuedPacket → Bool} {q last : QueuedPacket} (hq : q ∈ l) (hp : p q = true)
    (hlast : l.reverse.find? p = some last) : q.packno ≤ last.packno := by
  induction l using List.reverseRecOn with
  | nil => exact absurd hq List.not_mem_nil
  | append_singleton l b ih =>
    unfold NumbersGrow at hsorted
    rw [List.pairwise_append] at hsorted
    rw [List.reverse_append, List.reverse_singleton, List.singleton_append,
      List.find?_cons] at hlast
    split at hlast
    · cases hlast
      rcases List.mem_append.mp hq with hq | hq
      · exact UInt64.le_of_lt (hsorted.2.2 q hq last List.mem_cons_self)
      · rw [List.mem_singleton.mp hq]
        exact UInt64.le_refl _
    · next hb =>
        have hql : q ∈ l := by
          rcases List.mem_append.mp hq with hq | hq
          · exact hq
          · rw [List.mem_singleton.mp hq] at hp
            rw [hp] at hb
            cases hb
        exact ih hsorted.1 hql hlast

theorem SendControl.unackedOrdered_of_sorted {s : SendControl}
    (h : NumbersGrow s.unackedPackets) : s.UnackedOrdered := by
  refine ⟨h, ?_, ?_⟩
  · intro q hq hle
    refine mem_takeWhile_of_pairwise (h.imp ?_) hq (decide_eq_true hle)
    intro a b hab hb
    exact decide_eq_true (UInt64.le_trans (UInt64.le_of_lt hab) (of_decide_eq_true hb))
  · intro q hq hfresh hretx
    have hp : (!q.packet.poFlags.lossRecorded && q.retx) = true := by rw [hfresh, hretx]; rfl
    unfold SendControl.largestRetxPacketNo
    cases hfind : s.unackedPackets.reverse.find?
        fun q => !q.packet.poFlags.lossRecorded && q.retx with
    | none =>
      rw [List.find?_eq_none] at hfind
      exact absurd hp (hfind q (List.mem_reverse.mpr hq))
    | some last =>
      have hlast := List.find?_some hfind
      rw [Bool.and_eq_true, Bool.not_eq_true'] at hlast
      refine ⟨find_reverse_le h hq hp hfind, last, ?_, hlast.1, hlast.2, rfl⟩
      exact List.mem_reverse.mp (List.mem_of_find?_eq_some hfind)

-- ==== invariant

namespace Queues

variable {q : QueuedPacket} {s : Queues}

/-- The numbers up to the counter, `first` being where it started. -/
def Below (first : UInt64) (s : Queues) (q : QueuedPacket) : Prop :=
  q.packno.toNat < first.toNat + s.numbersTaken

/-- The counter has not come round. -/
def NoWrap (first : UInt64) (s : Queues) : Prop := first.toNat + s.numbersTaken ≤ 2 ^ 64

/-- What keeps the order: every number in the queues is an old one, and
lost packets wait for a new one. -/
structure InOrder (first : UInt64) (s : Queues) : Prop where
  number : s.packetNumber = first + .ofNat s.numbersTaken
  renewed : ∀ q ∈ s.lostPackets, q.packet.poFlags.resetPackNo = true
  sorted : s.NoWrap first → NumbersGrow s.unackedPackets
  below : s.NoWrap first → ∀ q ∈ s.unackedPackets, s.Below first q
  scheduled : s.NoWrap first → ∀ q ∈ s.scheduledPackets, s.Below first q

variable {first : UInt64} {gcm : Gcm} {rules : Rules}

theorem toNat_number (h : s.InOrder first)
    (hlt : first.toNat + s.numbersTaken < 2 ^ 64) :
    s.packetNumber.toNat = first.toNat + s.numbersTaken := by
  rw [h.number, UInt64.toNat_add, UInt64.toNat_ofNat']
  omega

theorem InOrder.of_sublist {s t : Queues} (h : s.InOrder first)
    (hu : t.unackedPackets.Sublist s.unackedPackets)
    (hs : t.scheduledPackets.Sublist s.scheduledPackets)
    (hl : ∀ q ∈ t.lostPackets, q.packet.poFlags.resetPackNo = true)
    (hpn : t.packetNumber = s.packetNumber) (hn : t.numbersTaken = s.numbersTaken) :
    t.InOrder first := by
  have hwrap : t.NoWrap first → s.NoWrap first := by
    unfold NoWrap
    rw [hn]
    exact id
  have hbelow : ∀ q, s.Below first q → t.Below first q := by
    unfold Below
    rw [hn]
    exact fun _ => id
  refine ⟨by rw [hpn, hn, h.number], hl, ?_, ?_, ?_⟩
  · intro hw
    exact (h.sorted (hwrap hw)).sublist hu
  · intro hw q hq
    exact hbelow q (h.below (hwrap hw) q (hu.subset hq))
  · intro hw q hq
    exact hbelow q (h.scheduled (hwrap hw) q (hs.subset hq))

theorem InOrder.takeNumber (h : s.InOrder first) : s.takeNumber.InOrder first := by
  have hwrap : s.takeNumber.NoWrap first → s.NoWrap first := by
    unfold NoWrap
    show _ + (s.numbersTaken + 1) ≤ _ → _
    omega
  have hbelow : ∀ q, s.Below first q → s.takeNumber.Below first q := by
    intro q
    unfold Below
    show _ → _ < _ + (s.numbersTaken + 1)
    omega
  refine ⟨?_, h.renewed, fun hw => h.sorted (hwrap hw), ?_, ?_⟩
  · show s.packetNumber + 1 = first + .ofNat (s.numbersTaken + 1)
    rw [h.number, UInt64.ofNat_add, UInt64.add_assoc]
    rfl
  · intro hw q hq
    exact hbelow q (h.below (hwrap hw) q hq)
  · intro hw q hq
    exact hbelow q (h.scheduled (hwrap hw) q hq)

theorem numbersGrow_append {l : List QueuedPacket} (hl : NumbersGrow l)
    (hq : ∀ a ∈ l, a.packno < q.packno) : NumbersGrow (l ++ [q]) := by
  refine List.pairwise_append.mpr ⟨hl, List.pairwise_singleton _ _, ?_⟩
  intro a ha b hb
  rw [List.mem_singleton.mp hb]
  exact hq a ha

theorem InOrder.keep (h : s.InOrder first)
    (hq : q.packno = s.packetNumber) : (s.takeNumber.keep q).InOrder first := by
  have htaken := h.takeNumber
  have hlt : s.takeNumber.NoWrap first → first.toNat + s.numbersTaken < 2 ^ 64 := by
    unfold NoWrap
    show _ + (s.numbersTaken + 1) ≤ _ → _
    omega
  refine ⟨htaken.number, htaken.renewed, ?_, ?_, htaken.scheduled⟩
  · intro hw
    refine numbersGrow_append (htaken.sorted hw) ?_
    intro a ha
    rw [UInt64.lt_iff_toNat_lt, hq, toNat_number h (hlt hw)]
    exact h.below (Nat.le_of_lt (hlt hw)) a ha
  · intro hw a ha
    rcases List.mem_append.mp ha with ha | ha
    · exact htaken.below hw a ha
    · rw [List.mem_singleton.mp ha]
      show q.packno.toNat < first.toNat + (s.numbersTaken + 1)
      rw [hq, toNat_number h (hlt hw)]
      omega

theorem editOf_resetPackNo {packet packet' : PacketOut} (h : EditOf gcm packet packet') :
    packet'.poFlags.resetPackNo = packet.poFlags.resetPackNo := by
  obtain ⟨renv, aesCtx, rfl⟩ := h
  rw [prepareLostPacket_poFlags]

theorem inOrder_move (h : s.InOrder first) {m : QueueMove}
    (hm : s.Settles gcm rules m) : (s.move m).InOrder first := by
  obtain ⟨hm, hsettles⟩ := hm
  have hrefl := List.Sublist.refl s.scheduledPackets
  cases m with
  | takeNumber => exact h.takeNumber
  | keep q => exact h.keep hm.2.1
  | drop q =>
    exact h.of_sublist (.refl _) (removeKey_sublist _ _ _) h.renewed rfl rfl
  | note call => exact h.of_sublist (.refl _) hrefl h.renewed rfl rfl
  | ack q => exact h.of_sublist (removeKey_sublist _ _ _) hrefl h.renewed rfl rfl
  | loseProbe q => exact h.of_sublist (removeKey_sublist _ _ _) hrefl h.renewed rfl rfl
  | lose q =>
    refine h.of_sublist (removeKey_sublist _ _ _) hrefl ?_ rfl rfl
    intro a ha
    rcases List.mem_append.mp ha with ha | ha
    · exact h.renewed a ha
    · rw [List.mem_singleton.mp ha]
      rfl
  | edit q packet =>
    refine h.of_sublist (.refl _) hrefl ?_ rfl rfl
    intro a ha
    rcases mem_of_mem_replaceKey ha with rfl | ha
    · show packet.poFlags.resetPackNo = true
      rw [editOf_resetPackNo hm.2]
      exact h.renewed q hm.1
    · exact h.renewed a ha
  | retire q =>
    exact h.of_sublist (.refl _) hrefl
      (fun a ha => h.renewed a (mem_of_mem_removeKey ha)) rfl rfl
  | schedule q => cases hsettles
  | flush nowUs q => cases hsettles
  | resend nowUs q => cases hsettles

variable (gcm rules) in
theorem inOrder_reaches {s t : Queues}
    (hreach : Reaches Queues.move (Settles gcm rules) s t) (h : s.InOrder first) :
    t.InOrder first :=
  hreach.inv (fun _ _ hu hm => inOrder_move hu hm) h

theorem InOrder.schedule (h : s.InOrder first)
    (hq : q.packno < s.packetNumber) : (s.schedule q).InOrder first := by
  refine ⟨h.number, h.renewed, h.sorted, h.below, ?_⟩
  intro hw a ha
  rcases List.mem_append.mp ha with ha | ha
  · exact h.scheduled hw a ha
  · rw [List.mem_singleton.mp ha]
    show q.packno.toNat < first.toNat + s.numbersTaken
    have hlt := UInt64.lt_iff_toNat_lt.mp hq
    rw [h.number, UInt64.toNat_add, UInt64.toNat_ofNat'] at hlt
    have hmod : (first.toNat + s.numbersTaken % 2 ^ 64) % 2 ^ 64
        ≤ first.toNat + s.numbersTaken := by
      refine (Nat.mod_le _ _).trans ?_
      exact Nat.add_le_add_left (Nat.mod_le _ _) _
    omega

end Queues

-- ==== batches

theorem resealPacket_packno {gcm : Gcm} (aesCtx : Option AesGcmContext) (packetNumber : UInt64)
    (needResetPackNo : Bool) (packet : PacketOut) :
    (resealPacket gcm aesCtx packetNumber needResetPackNo packet).packet.packno
      = packet.packno := by
  unfold resealPacket
  split
  · rfl
  · split
    · split
      · rfl
      · next hsealed =>
          unfold AesGcmContext.encrypt at hsealed
          simp only at hsealed
          split_ifs at hsealed <;> cases hsealed <;> rfl
    · rfl

theorem prepareLostPacket_ready {gcm : Gcm} {renv : RetransmitEnv}
    {aesCtx : Option AesGcmContext} {packet : PacketOut} {wire : List UInt8}
    (hreset : packet.poFlags.resetPackNo = true)
    (h : (prepareLostPacket gcm renv aesCtx packet).attempt = .ready wire) :
    (prepareLostPacket gcm renv aesCtx packet).packet.packno = renv.packetNumber
      ∧ (prepareLostPacket gcm renv aesCtx packet).packetNumber = renv.packetNumber + 1 := by
  unfold prepareLostPacket at h ⊢
  simp only at h ⊢
  split at h
  · cases h
  · next hcan =>
    rw [if_neg hcan]
    split at h
    · cases h
    · next stripped hstripped =>
        have hreset' : stripped.poFlags.resetPackNo = true := by
          split at hstripped
          · rw [stripTransientAckPayload_flags hstripped, hreset]
          · cases hstripped
            exact hreset
        split at h
        · split at h
          · cases h
          · cases h
        · next hpath =>
            rw [if_neg hpath]
            unfold renewPacket at h ⊢
            rw [if_pos hreset'] at h ⊢
            split at h
            · cases h
            · next renumbered hrewrite =>
                have hpackno : renumbered.packno = renv.packetNumber := by
                  unfold rewritePacketNumber at hrewrite
                  split_ifs at hrewrite
                  cases hrewrite
                  rfl
                refine ⟨?_, resealPacket_packetNumber ..⟩
                rw [resealPacket_packno, hpackno]

/-- Only the path has a packet split. -/
theorem renewPacket_ne_split {gcm : Gcm} (aesCtx : Option AesGcmContext) (packetNumber : UInt64)
    (packet : PacketOut) : (renewPacket gcm aesCtx packetNumber packet).attempt ≠ .split := by
  have hreseal : ∀ (number : UInt64) (needResetPackNo : Bool) (packet : PacketOut),
      (resealPacket gcm aesCtx number needResetPackNo packet).attempt ≠ .split := by
    intro number needResetPackNo packet h
    unfold resealPacket at h
    split at h
    · cases h
    · split at h
      · split at h
        · cases h
        · cases h
      · cases h
  unfold renewPacket
  split
  · split
    · exact fun h => by cases h
    · exact hreseal _ _ _
  · exact hreseal _ _ _

namespace SendControl

variable {gcm : Gcm} {env : SendCtlEnv} {first : UInt64} {s : SendControl}

-- ==== what the path answers

theorem pathAnswer_congr {t : SendControl} (hout : t.bytesOut = s.bytesOut)
    (hunacked : t.streamUnackedDataBytes = s.streamUnackedDataBytes) :
    t.pathAnswer env = s.pathAnswer env := by
  funext q
  unfold pathAnswer canSendStreamUnackedBytes canSendOnCurrentPath
  rw [hout, hunacked]

variable (gcm env s) in
/-- A packet that is split was refused, one that is ready was taken. -/
theorem prepareLost_answer (q : QueuedPacket) :
    ((s.prepareLost gcm env q).2.2 = .split → s.pathAnswer env q = some false)
      ∧ ∀ wire, (s.prepareLost gcm env q).2.2 = .ready wire →
          s.pathAnswer env q = some true := by
  show ((prepareLostPacket gcm (s.retransmitEnv env) env.aesCtx q.packet).attempt = _ → _)
    ∧ ∀ wire, (prepareLostPacket gcm (s.retransmitEnv env) env.aesCtx q.packet).attempt = _ → _
  unfold prepareLostPacket pathAnswer tried retransmitEnv
  simp only [if_true]
  by_cases hwindow : (!s.canSendStreamUnackedBytes env q.packet.streamDataSize) = true
  · rw [if_pos hwindow]
    exact ⟨fun h => absurd h (by simp), fun _ h => absurd h (by simp)⟩
  · rw [if_neg hwindow, if_neg hwindow]
    split
    · exact ⟨fun h => absurd h (by simp), fun _ h => absurd h (by simp)⟩
    · next stripped hstripped =>
        rw [hstripped, Option.map_some]
        split
        · next hrefused =>
            have hanswer : s.canSendOnCurrentPath env stripped.dataSize
                (firstFrameType stripped.frameTypes) = false := by simpa using hrefused
            exact ⟨fun _ => congrArg some hanswer, fun _ h => absurd h (by simp)⟩
        · next htaken =>
            have hanswer : s.canSendOnCurrentPath env stripped.dataSize
                (firstFrameType stripped.frameTypes) = true := by simpa using htaken
            exact ⟨fun h => absurd h (renewPacket_ne_split _ _ _),
              fun _ _ => congrArg some hanswer⟩

variable (gcm env s) in
theorem pathAnswer_prepareLost (q : QueuedPacket) :
    (s.prepareLost gcm env q).1.pathAnswer env = s.pathAnswer env := by
  have hsame : ∀ (t : SendControl) (number : UInt64), (t.takeNumber number).bytesOut = t.bytesOut
      ∧ (t.takeNumber number).streamUnackedDataBytes = t.streamUnackedDataBytes := by
    intro t number
    unfold takeNumber
    split
    · exact ⟨rfl, rfl⟩
    · exact ⟨rfl, rfl⟩
  exact pathAnswer_congr (hsame _ _).1 (hsame _ _).2

/-- Where a packet is split, the packets before it are those the path takes,
and all of them are ready. -/
theorem prepareBatch_split (batchCap : Nat) :
    ∀ (queue : List QueuedPacket) (s : SendControl),
      (s.prepareBatch gcm env batchCap queue).splitTried = true →
      let takes := (queue.take batchCap).takeWhile fun q => s.pathAnswer env q = some true
      (s.prepareBatch gcm env batchCap queue).ready.length = takes.length
        ∧ ∃ q ∈ ((queue.take batchCap).drop takes.length).head?,
            s.pathAnswer env q = some false := by
  induction batchCap with
  | zero =>
    intro queue s h
    cases h
  | succ batchCap ih =>
    intro queue s h
    cases queue with
    | nil => cases h
    | cons q rest =>
      have hanswer := s.prepareLost_answer gcm env q
      have hsame := s.pathAnswer_prepareLost gcm env q
      unfold prepareBatch at h ⊢
      generalize s.prepareLost gcm env q = p at h hanswer hsame ⊢
      obtain ⟨s₁, q', attempt⟩ := p
      cases attempt with
      | blocked st => cases h
      | split =>
        have hrefused := hanswer.1 rfl
        rw [List.take_succ_cons, List.takeWhile_cons_of_neg (by simp [hrefused])]
        exact ⟨rfl, q, rfl, hrefused⟩
      | ready wire =>
        have htaken := hanswer.2 wire rfl
        obtain ⟨hready, hnext⟩ := ih rest s₁ h
        simp only at hsame
        simp only [hsame] at hready hnext
        rw [List.take_succ_cons, List.takeWhile_cons_of_pos (by simp [htaken])]
        exact ⟨congrArg Nat.succ hready, hnext⟩

variable (gcm env) in
theorem prepareLost_ready {q : QueuedPacket} (wire : List UInt8)
    (hreset : q.packet.poFlags.resetPackNo = true)
    (h : (s.prepareLost gcm env q).2.2 = .ready wire) :
    (s.prepareLost gcm env q).2.1.packno = s.packetNumber
      ∧ (s.prepareLost gcm env q).1.toQueues
        = (s.toQueues.edit q (s.prepareLost gcm env q).2.1.packet).takeNumber := by
  obtain ⟨hpackno, hnumber⟩ := prepareLostPacket_ready hreset h
  refine ⟨hpackno, ?_⟩
  show (takeNumber _ (prepareLostPacket gcm (s.retransmitEnv env) env.aesCtx
    q.packet).packetNumber).toQueues = _
  rw [hnumber]
  exact congrArg SendControl.toQueues (takeNumber_succ
    { s with toQueues := s.toQueues.edit q (s.prepareLost gcm env q).2.1.packet })

theorem numbersTaken_mono {rules : Rules} {s t : Queues}
    (h : Reaches Queues.move (Queues.Settles gcm rules) s t) :
    s.numbersTaken ≤ t.numbersTaken := by
  refine h.inv (P := fun u => s.numbersTaken ≤ u.numbersTaken) ?_ le_rfl
  intro u m hu _
  refine hu.trans ?_
  cases m with
  | takeNumber => exact Nat.le_succ _
  | keep q => exact Nat.le_succ _
  | _ => exact le_rfl

/-- What the preparing loop leaves, where numbers are concerned: the
packets that are ready took the next numbers in turn, and no packet moved
unless one was split. -/
structure NumberedBatch (first : UInt64) (s : SendControl) (b : Batch) : Prop where
  unacked : b.splitTried = false → b.state.unackedPackets = s.unackedPackets
  sorted : b.state.NoWrap first → NumbersGrow (b.ready.map Prod.fst)
  above : b.state.NoWrap first → ∀ r ∈ b.ready,
    first.toNat + s.numbersTaken ≤ r.1.packno.toNat ∧ b.state.Below first r.1

theorem prepareBatch_numbers (batchCap : Nat) :
    ∀ (queue : List QueuedPacket) (s : SendControl), (queue.map QueuedPacket.ptr).Nodup →
      (∀ q ∈ queue, q ∈ s.lostPackets) → s.toQueues.InOrder first →
      NumberedBatch first s (s.prepareBatch gcm env batchCap queue) := by
  have hstop : ∀ (s t : SendControl), t.unackedPackets = s.unackedPackets →
      NumberedBatch first s { state := t } := by
    intro s t hunacked
    exact ⟨fun _ => hunacked, fun _ => List.Pairwise.nil, fun _ _ h => absurd h List.not_mem_nil⟩
  induction batchCap with
  | zero =>
    intro queue s _ _ _
    exact hstop s s rfl
  | succ batchCap ih =>
    intro queue s hn hmem horder
    cases queue with
    | nil => exact hstop s s rfl
    | cons q rest =>
      rw [List.map_cons, List.nodup_cons] at hn
      have hq := hmem q List.mem_cons_self
      have hspec := prepareLost_spec gcm env anyRules hq
      have hready := fun wire => prepareLost_ready gcm env (s := s) wire (horder.renewed q hq)
      have hunacked : (s.prepareLost gcm env q).1.unackedPackets = s.unackedPackets := by
        show (takeNumber _ _).unackedPackets = _
        unfold takeNumber
        split
        · rfl
        · rfl
      unfold prepareBatch
      generalize s.prepareLost gcm env q = p at hspec hready hunacked ⊢
      obtain ⟨s₁, q', attempt⟩ := p
      obtain ⟨hreach, hq', hptr, hstay⟩ := hspec
      have horder₁ := Queues.inOrder_reaches gcm anyRules hreach horder
      cases attempt with
      | blocked st => exact hstop s s₁ hunacked
      | split =>
        exact ⟨fun h => absurd h (by simp), fun _ => List.Pairwise.nil,
          fun _ _ h => absurd h List.not_mem_nil⟩
      | ready wire =>
        obtain ⟨hpackno, hqueues⟩ := hready wire rfl
        have hrest : ∀ x ∈ rest, x ∈ s₁.lostPackets := by
          intro x hx
          apply hstay x (hmem x (List.mem_cons_of_mem q hx))
          intro heq
          exact hn.1 (List.mem_map.mpr ⟨x, hx, heq⟩)
        have hb := ih rest s₁ hn.2 hrest horder₁
        have htaken : s₁.numbersTaken = s.numbersTaken + 1 :=
          congrArg Queues.numbersTaken hqueues
        have hmono := numbersTaken_mono
          (prepareBatch_spec (anyRules_keeps gcm env) (anyRules_retires gcm env) batchCap
            rest s₁ hn.2 hrest).reaches
        have hnumber : (prepareBatch gcm env s₁ batchCap rest).state.NoWrap first →
            q'.packno.toNat = first.toNat + s.numbersTaken := by
          intro hw
          unfold Queues.NoWrap at hw
          simp only at hpackno
          rw [hpackno]
          exact Queues.toNat_number horder (by omega)
        refine ⟨fun h => (hb.unacked h).trans hunacked, ?_, ?_⟩
        · intro hw
          refine List.pairwise_cons.mpr ⟨?_, hb.sorted hw⟩
          intro a ha
          obtain ⟨r, hr, rfl⟩ := List.mem_map.mp ha
          have habove := (hb.above hw r hr).1
          rw [UInt64.lt_iff_toNat_lt, hnumber hw]
          omega
        · intro hw r hr
          rcases List.mem_cons.mp hr with rfl | hr
          · unfold Queues.Below
            simp only
            rw [hnumber hw]
            exact ⟨le_rfl, by omega⟩
          · have habove := hb.above hw r hr
            exact ⟨by omega, habove.2⟩

theorem inOrder_append {s t : SendControl} (horder : s.toQueues.InOrder first)
    {l : List QueuedPacket} (hu : t.unackedPackets = s.unackedPackets ++ l)
    (hs : t.scheduledPackets.Sublist s.scheduledPackets)
    (hl : t.lostPackets.Sublist s.lostPackets) (hpn : t.packetNumber = s.packetNumber)
    (hn : t.numbersTaken = s.numbersTaken)
    (hgrow : s.NoWrap first → NumbersGrow (s.unackedPackets ++ l))
    (hbelow : s.NoWrap first → ∀ q ∈ l, s.Below first q) : t.toQueues.InOrder first := by
  have hwrap : t.NoWrap first → s.NoWrap first := by
    unfold Queues.NoWrap
    rw [hn]
    exact id
  have hbelow' : ∀ q, s.Below first q → t.Below first q := by
    unfold Queues.Below
    rw [hn]
    exact fun _ => id
  refine ⟨by rw [hpn, hn, horder.number], fun q hq => horder.renewed q (hl.subset hq), ?_, ?_, ?_⟩
  · intro hw
    rw [hu]
    exact hgrow (hwrap hw)
  · intro hw q hq
    rw [hu] at hq
    rcases List.mem_append.mp hq with hq | hq
    · exact hbelow' q (horder.below (hwrap hw) q hq)
    · exact hbelow' q (hbelow (hwrap hw) q hq)
  · intro hw q hq
    exact hbelow' q (horder.scheduled (hwrap hw) q (hs.subset hq))

theorem numbersGrow_resent {l : List QueuedPacket} (nowUs : Nat) (h : NumbersGrow l) :
    NumbersGrow (l.map (Queues.resentPacket nowUs)) :=
  List.pairwise_map.mpr h

theorem inOrder_batch (hd : s.toQueues.Distinct)
    (horder : s.toQueues.InOrder first) (nowUs maxPackets : Nat)
    (hbatch : s.BatchInOrder env maxPackets) :
    (s.retransmitLostBatch gcm env nowUs maxPackets).state.toQueues.InOrder first := by
  unfold retransmitLostBatch
  split
  · exact horder
  · have hspec := prepareBatch_spec (anyRules_keeps gcm env) (anyRules_retires gcm env)
      (min maxPackets kSendBatchCap) s.lostPackets s hd.lost fun _ h => h
    have hnumbers : NumberedBatch first s
        (s.prepareBatch gcm env (min maxPackets kSendBatchCap) s.lostPackets) :=
      prepareBatch_numbers _ _ s hd.lost (fun _ h => h) horder
    have hidle : (s.prepareBatch gcm env (min maxPackets kSendBatchCap) s.lostPackets).splitTried
        = true →
        taken env (s.prepareBatch gcm env (min maxPackets kSendBatchCap) s.lostPackets).ready
          = [] := by
      intro htried
      obtain ⟨hready, q, hq, hrefused⟩ := prepareBatch_split _ _ s htried
      have hnone := hbatch q hq hrefused (List.map Prod.snd _)
        ((List.length_map _).trans hready)
      unfold taken
      rw [List.take_eq_nil_iff, List.map_eq_nil_iff] at hnone
      rw [List.map_eq_nil_iff, List.take_eq_nil_iff]
      exact hnone
    simp only
    generalize s.prepareBatch gcm env (min maxPackets kSendBatchCap) s.lostPackets = b
      at hspec hnumbers hidle ⊢
    have horder' := Queues.inOrder_reaches gcm anyRules hspec.reaches horder
    unfold sendBatch
    simp only
    split
    · exact horder'
    · next hsent =>
        have hsplit : b.splitTried = false := by
          rw [← Bool.not_eq_true]
          intro htried
          exact hsent (by rw [hidle htried]; rfl)
        rw [retransAlarm_toQueues]
        obtain ⟨hu, hs, hl, hpn, hn⟩ := foldl_resend nowUs (taken env b.ready) b.state
        have htaken : (taken env b.ready).Sublist (b.ready.map Prod.fst) :=
          (List.take_sublist _ _).map Prod.fst
        refine inOrder_append horder' hu (hs ▸ .refl _) hl hpn hn ?_ ?_
        · intro hw
          refine List.pairwise_append.mpr ⟨horder'.sorted hw, ?_, ?_⟩
          · exact numbersGrow_resent nowUs ((hnumbers.sorted hw).sublist htaken)
          · intro a ha q hq
            obtain ⟨q₀, hq₀, rfl⟩ := List.mem_map.mp hq
            obtain ⟨r, hr, rfl⟩ := List.mem_map.mp (htaken.subset hq₀)
            rw [hnumbers.unacked hsplit] at ha
            have hmono := numbersTaken_mono hspec.reaches
            have hw' : s.NoWrap first := by
              unfold Queues.NoWrap at hw ⊢
              omega
            have hlt : a.packno.toNat < r.1.packno.toNat :=
              (horder.below hw' a ha).trans_le (hnumbers.above hw r hr).1
            exact UInt64.lt_iff_toNat_lt.mpr hlt
        · intro hw q hq
          obtain ⟨q₀, hq₀, rfl⟩ := List.mem_map.mp hq
          obtain ⟨r, hr, rfl⟩ := List.mem_map.mp (htaken.subset hq₀)
          exact (hnumbers.above hw r hr).2

theorem inOrder_single (horder : s.toQueues.InOrder first) {q : QueuedPacket}
    (hq : q ∈ s.lostPackets) (nowUs : Nat) :
    (s.retransmitLostPacket gcm env q nowUs).2.toQueues.InOrder first := by
  have hspec := prepareLost_spec gcm env anyRules hq
  have hready := fun wire => prepareLost_ready gcm env (s := s) wire (horder.renewed q hq)
  unfold retransmitLostPacket
  split
  · exact horder
  · generalize s.prepareLost gcm env q = p at hspec hready ⊢
    obtain ⟨s₁, q', attempt⟩ := p
    obtain ⟨hreach, hq', -, -⟩ := hspec
    have horder₁ := Queues.inOrder_reaches gcm anyRules hreach horder
    cases attempt with
    | blocked st => exact horder₁
    | split =>
      have hsplit := Queues.inOrder_reaches gcm anyRules (retransmitSplitStreamPacket_spec
        (anyRules_keeps gcm env) (anyRules_retires gcm env) hq').1 horder₁
      simp only
      split
      · exact hsplit
      · exact hsplit
    | ready wire =>
      obtain ⟨hpackno, hqueues⟩ := hready wire rfl
      simp only at hpackno hqueues
      have htaken : s₁.numbersTaken = s.numbersTaken + 1 :=
        congrArg Queues.numbersTaken hqueues
      have hunacked : s₁.unackedPackets = s.unackedPackets := by
        rw [hqueues]
        rfl
      have hnumber : s₁.NoWrap first → q'.packno.toNat = first.toNat + s.numbersTaken := by
        intro hw
        unfold Queues.NoWrap at hw
        rw [hpackno]
        exact Queues.toNat_number horder (by omega)
      have hresend : (s₁.resendPacket nowUs q').toQueues.InOrder first := by
        refine inOrder_append (s := s₁) horder₁ (l := [Queues.resentPacket nowUs q']) rfl
          (.refl _) (removeKey_sublist _ _ _) rfl rfl ?_ ?_
        · intro hw
          refine Queues.numbersGrow_append (horder₁.sorted hw) ?_
          intro a ha
          rw [hunacked] at ha
          have hw' : s.NoWrap first := by
            unfold Queues.NoWrap at hw ⊢
            omega
          have hlt : a.packno.toNat < q'.packno.toNat := by
            rw [hnumber hw]
            exact horder.below hw' a ha
          exact UInt64.lt_iff_toNat_lt.mpr hlt
        · intro hw a ha
          rw [List.mem_singleton.mp ha]
          show q'.packno.toNat < first.toNat + s₁.numbersTaken
          rw [hnumber hw]
          omega
      simp only
      split
      · exact horder₁
      · simp only
        split
        · rw [retransAlarm_toQueues]
          exact hresend
        · exact hresend

theorem foldl_flush (nowUs : Nat) (l : List QueuedPacket) (s : SendControl) :
    (l.foldl (flushPacket nowUs) s).unackedPackets
        = s.unackedPackets
          ++ (l.filter QueuedPacket.trackOnSend).map (Queues.flushedPacket nowUs)
      ∧ (l.foldl (flushPacket nowUs) s).scheduledPackets.Sublist s.scheduledPackets
      ∧ (l.foldl (flushPacket nowUs) s).lostPackets = s.lostPackets
      ∧ (l.foldl (flushPacket nowUs) s).packetNumber = s.packetNumber
      ∧ (l.foldl (flushPacket nowUs) s).numbersTaken = s.numbersTaken := by
  induction l generalizing s with
  | nil => exact ⟨(List.append_nil _).symm, .refl _, rfl, rfl, rfl⟩
  | cons q l ih =>
    obtain ⟨hu, hs, hl, hpn, hn⟩ := ih (flushPacket nowUs s q)
    have hstep : (flushPacket nowUs s q).toQueues
        = if q.trackOnSend then (s.toQueues.unschedule q).appendUnacked
            (Queues.flushedPacket nowUs q)
          else (s.toQueues.unschedule q).destroyPacket q := by
      unfold flushPacket
      simp only
      split
      · split
        · exact retransAlarm_toQueues _ _
        · rfl
      · rfl
    rw [List.foldl_cons, hu, hl, hpn, hn, List.filter_cons, hstep]
    split
    · refine ⟨?_, ?_, rfl, rfl, rfl⟩
      · rw [List.map_cons, List.append_cons]
        rfl
      · exact hs.trans (by rw [hstep, if_pos ‹_›]; exact removeKey_sublist _ _ _)
    · exact ⟨rfl, hs.trans (by rw [hstep, if_neg ‹_›]; exact removeKey_sublist _ _ _),
        rfl, rfl, rfl⟩

theorem flushedPacket_packno (nowUs : Nat) (q : QueuedPacket) :
    (Queues.flushedPacket nowUs q).packno = q.packno := by
  unfold Queues.flushedPacket QueuedPacket.packno releaseSealedCopy
  simp only
  split
  · split
    · split
      · rfl
      · rfl
    · rfl
    · rfl
  · rfl

theorem inOrder_flush (horder : s.toQueues.InOrder first)
    (nowUs maxPackets : Nat) (hflush : s.FlushInOrder env maxPackets) :
    (s.flushScheduledPackets env nowUs maxPackets).1.toQueues.InOrder first := by
  unfold flushScheduledPackets
  split
  · exact horder
  · obtain ⟨hu, hs, hl, hpn, hn⟩ := foldl_flush nowUs (s.flushable env maxPackets) s
    refine inOrder_append horder hu hs (hl ▸ .refl _) hpn hn ?_ ?_
    · intro hw
      obtain ⟨hgrow, habove⟩ := hflush
      refine List.pairwise_append.mpr ⟨horder.sorted hw, ?_, ?_⟩
      · rw [List.pairwise_map]
        simp only [flushedPacket_packno]
        exact hgrow
      · intro a ha b hb
        obtain ⟨b₀, hb₀, rfl⟩ := List.mem_map.mp hb
        rw [flushedPacket_packno]
        exact habove a ha b₀ hb₀
    · intro hw q hq
      obtain ⟨q₀, hq₀, rfl⟩ := List.mem_map.mp hq
      unfold Queues.Below
      rw [flushedPacket_packno]
      exact horder.scheduled hw q₀ ((s.flushable_sublist env maxPackets).subset
        (List.mem_of_mem_filter hq₀))

theorem inOrder_rounds (fuel : Nat) :
    ∀ (i : Nat) (r : BatchResult) (budget : Nat), r.state.toQueues.Distinct →
      r.state.toQueues.InOrder first → RoundsInOrder gcm env fuel i r budget →
      (resendLoop gcm env fuel i r budget).state.toQueues.InOrder first := by
  induction fuel with
  | zero =>
    intro i r budget _ horder _
    exact horder
  | succ fuel ih =>
    intro i r budget hd horder hrounds
    unfold RoundsInOrder at hrounds
    unfold resendLoop
    split
    · next hgo =>
        rw [if_pos hgo] at hrounds
        have hbatch : (r.state.retransmitLostBatch gcm env (env.nowUs i)
            (budget - r.sent)).state.toQueues.InOrder first :=
          inOrder_batch hd horder _ _ hrounds.1
        simp only
        split
        · exact hbatch
        · refine ih _ _ _ ?_ hbatch hrounds.2
          exact distinct_of_allowed (retransmitLostBatch_reaches (anyRules_keeps gcm env)
            (anyRules_retires gcm env) hd _ _) hd
    · exact horder

/-- Every step that `KeepsOrder` admits keeps the order. -/
theorem inOrder_step (hd : s.toQueues.Distinct)
    (horder : s.toQueues.InOrder first) (op : SendCtlEnv × SendCtlOp)
    (hkeeps : s.KeepsOrder gcm op) : (s.step gcm op).toQueues.InOrder first := by
  obtain ⟨env, op⟩ := op
  have hrules := anyRules_keeps gcm env
  have hretire := anyRules_retires gcm env
  have hlose : ∀ q : QueuedPacket, anyRules.mayLose q := fun _ => trivial
  cases op with
  | send c =>
    cases c with
    | packet req =>
      exact Queues.inOrder_reaches gcm anyRules ((s.sendPacket_reaches hrules (.control req)).imp
        fun _ _ => Queues.Sending.settles gcm) horder
    | streamFrame frame =>
      exact Queues.inOrder_reaches gcm anyRules
        ((s.sendStreamFrame_reaches hrules (.inl trivial)).imp
        fun _ _ => Queues.Sending.settles gcm) horder
  | schedulePacket packet trackOnSend =>
    show (s.schedulePacket env packet trackOnSend).2.toQueues.InOrder first
    unfold schedulePacket
    split
    · exact horder
    · split
      · exact horder
      · exact horder.schedule hkeeps
  | flushScheduledPackets n => exact inOrder_flush horder _ n hkeeps
  | ack ackInfo =>
    exact Queues.inOrder_reaches gcm anyRules
      (onAckReceived_reaches hrules hd ackInfo fun q _ _ => hlose q)
      horder
  | detectLosses =>
    exact Queues.inOrder_reaches gcm anyRules (detectLosses_reaches hd _ fun q _ => hlose q)
      horder
  | expireUnacked filter =>
    exact Queues.inOrder_reaches gcm anyRules
      (expireUnacked_reaches hd filter fun q _ => hlose q) horder
  | retransTimer =>
    exact Queues.inOrder_reaches gcm anyRules (onRetransTimer_reaches hd fun q _ => hlose q)
      horder
  | retransmitLostBatch n => exact inOrder_batch hd horder _ n hkeeps
  | retransmitLostPacket ptr =>
    unfold step
    dsimp only
    split
    · next q hq => exact inOrder_single horder (List.mem_of_find?_eq_some hq) _
    · exact horder
  | retransmitSplitStreamPacket ptr =>
    unfold step
    dsimp only
    split
    · next q hq =>
        exact Queues.inOrder_reaches gcm anyRules (retransmitSplitStreamPacket_spec hrules hretire
          (List.mem_of_find?_eq_some hq)).1 horder
    · exact horder
  | canWrite =>
    show (s.onCanWrite gcm env).toQueues.InOrder first
    unfold onCanWrite
    split
    · exact horder
    · have hflush := inOrder_flush horder (env.nowUs 0) kSendBatchCap hkeeps.1
      have hreach : Reaches Queues.move (Queues.Allowed gcm anyRules) s.toQueues
          (s.flushScheduledPackets env (env.nowUs 0) kSendBatchCap).1.toQueues :=
        flushScheduledPackets_reaches hd _ _
      have hd' := distinct_of_allowed hreach hd
      have hrounds := inOrder_rounds _ _ _ _ hd' hflush hkeeps.2
      refine Queues.inOrder_reaches gcm anyRules (maybeSendMtuProbe_reaches hrules _ _ _) ?_
      unfold resendLost
      simp only
      split
      · exact hrounds
      · exact hrounds

-- ==== runs

theorem inOrder_init (first : UInt64) (mtu : MtuDiscovery) (bytesOut : Nat) :
    (init first mtu bytesOut).toQueues.InOrder first :=
  ⟨(UInt64.add_zero first).symm, fun _ h => absurd h List.not_mem_nil,
    fun _ => List.Pairwise.nil, fun _ _ h => absurd h List.not_mem_nil,
    fun _ _ h => absurd h List.not_mem_nil⟩

/-- In a run whose steps keep the order, and in which the packet numbers do
not come round, the queue is in order, and loss detection is right to
rely on it. -/
theorem unackedOrdered_run {gcm : Gcm} {first : UInt64} {mtu : MtuDiscovery} {bytesOut : Nat}
    {ops : List (SendCtlEnv × SendCtlOp)}
    (hops : Meets (step gcm) (KeepsOrder gcm) (init first mtu bytesOut) ops)
    (hnumbers : (run (step gcm) (init first mtu bytesOut) ops).NoWrap first) :
    (run (step gcm) (init first mtu bytesOut) ops).UnackedOrdered := by
  have hinv := run_inv
    (P := fun s : SendControl => s.toQueues.Counted ∧ s.toQueues.InOrder first)
    (fun s op h hok => ⟨counted_step gcm h.1 op, inOrder_step h.1.distinct h.2 op hok⟩)
    ⟨counted_init first mtu bytesOut, inOrder_init first mtu bytesOut⟩ hops
  exact unackedOrdered_of_sorted (hinv.2.sorted hnumbers)

/-- The HANDSHAKE_DONE of packet 1, and the time it took. -/
def handshakeTrailer : List UInt8 := [15, 0, 0, 0, 0, 0, 0, 0, 1, 17, 0, 0, 0, 0]

/-- A HANDSHAKE_DONE; a MAX_DATA frame; a byte of stream data with the
HANDSHAKE_DONE behind it, which is still pending. The first packet is
acknowledged, so that nothing is pending any more, and the others are lost. -/
def lostPair : List (SendCtlEnv × SendCtlOp) :=
  [({}, .send (.packet
      { packetType := UTP_TYPE_CTRL, payload := handshakeTrailer
        frameTypeBitsOverride := FrameType.handshakeDone.bit ||| FrameType.handshakeDelay.bit })),
    ({}, .send (.packet
      { packetType := UTP_TYPE_CTRL, payload := [18, 0, 0, 0, 0, 0, 1, 0, 0] })),
    ({ streamAnswer := fun _ => { handshakeTrailer } },
      .send (.streamFrame
        { streamFlag := 0, streamId := 4, streamOffset := 0, streamData := [7] })),
    ({}, .ack { largestAckPackno := 5, ackRanges := [(5, 5)] }),
    ({}, .expireUnacked .all)]

/-- The path is being validated, and has room for 46 bytes: the first of the
two takes 29. The second would take 51, and is split; its byte alone takes
37, and a HANDSHAKE_DONE may always go. -/
def splitBehind : List (SendCtlEnv × SendCtlOp) :=
  lostPair ++ [({ needPathValidation := true, bytesIn := 1300 }, .retransmitLostBatch 32)]

/-- The packets that carry the split frames are numbered after the first
packet, and are queued before it. -/
theorem not_unackedOrdered_split :
    ¬ (run (step unusedGcm) (init 5 {} 3996) splitBehind).UnackedOrdered := by
  intro hordered
  have hnumbers : (run (step unusedGcm) (init 5 {} 3996) splitBehind).unackedPackets.map
      QueuedPacket.packno = [9, 10, 8] := by
    decide +kernel
  have hsorted := hordered.sorted
  unfold NumbersGrow at hsorted
  rw [← List.pairwise_map (R := fun a b : UInt64 => a < b), hnumbers] at hsorted
  exact absurd hsorted (by decide)

/-- On a path that is valid both go out again as they are. -/
def resentPair : List (SendCtlEnv × SendCtlOp) :=
  lostPair ++ [({ needPathValidation := false }, .retransmitLostBatch 32)]

theorem unackedOrdered_resentPair :
    (run (step unusedGcm) (init 5 {} 3996) resentPair).UnackedOrdered := by
  have hops : Meets (step unusedGcm) (KeepsOrder unusedGcm) (init 5 {} 3996) resentPair := by
    refine ⟨trivial, trivial, trivial, trivial, trivial, ?_, trivial⟩
    have hall : (((run (step unusedGcm) (init 5 {} 3996) lostPair).lostPackets.take 32).drop
        ((run (step unusedGcm) (init 5 {} 3996) lostPair).pathTakes {} 32).length).head?.isNone
          = true := by
      decide +kernel
    intro q hq
    rw [Option.isNone_iff_eq_none] at hall
    exact absurd (hall.symm.trans hq) (by simp)
  have hnumbers : (run (step unusedGcm) (init 5 {} 3996) resentPair).NoWrap 5 := by
    unfold Queues.NoWrap
    decide +kernel
  exact unackedOrdered_run hops hnumbers

end SendControl

end Eular.Utp
