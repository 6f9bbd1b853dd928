/-
MTU probes are not sent again, and each is settled once.

A probe is a PING with padding, so nothing that looks for packets worth
sending again finds it. `expireUnacked` and the FACK test of
`detectLosses` report it lost and drop it; the early retransmission test
passes it over. The test of sent times does neither: it spares
`MtuDiscovery` the report of a lost data packet and then gives the probe
up like any other packet. `ProbesTimely` says that the test finds no
probe.

The argument follows the address of a packet and its kind, probe or not
(`kinds`), through the moves.
-/
import Eular.Utp.Send.Proofs.Accounting

namespace Eular.Utp

open Lib

-- ==== property

def MtuCall.ptr : MtuCall → Nat
  | .probeSent ptr | .probeAck ptr | .probeLost ptr | .dataAck ptr | .dataLoss ptr => ptr

namespace Queues

/-- How often `MtuDiscovery` was told what became of the probe at `ptr`. -/
def settledCount (s : Queues) (ptr : Nat) : Nat :=
  s.mtuCalls.count (.probeAck ptr) + s.mtuCalls.count (.probeLost ptr)

/-- The probes are accounted for. -/
structure ProbesResolved (s : Queues) : Prop where
  neverLost : ∀ q ∈ s.lostPackets, q.isMtuProbe = false
  /-- While a probe waits nothing has been said about it. -/
  waiting : ∀ q ∈ s.unackedPackets, q.isMtuProbe = true → s.settledCount q.ptr = 0
  /-- A probe that has left `m_unackedPackets` was reported once. -/
  once : ∀ ptr, .probeSent ptr ∈ s.mtuCalls → ptr ∉ s.unackedPackets.map QueuedPacket.ptr →
    s.settledCount ptr = 1
  noDataLoss : ∀ ptr, .probeSent ptr ∈ s.mtuCalls → .dataLoss ptr ∉ s.mtuCalls

end Queues

namespace SendControl

/-- The packet fails the test of sent times. -/
def SentTimeLost (env : SendCtlEnv) (s : SendControl) (q : QueuedPacket) : Prop :=
  q ∈ s.inspected ∧ s.lossVerdict env s.largestRetxPacketNo q = .sentTime

/-- The test of sent times finds no probe, and no probe is scheduled. -/
def ProbesTimely (gcm : Gcm) (s : SendControl) : SendCtlEnv × SendCtlOp → Prop
  | (_, .schedulePacket packet _) => packet.poFlags.mtuProbe = false
  | (env, .ack ackInfo) => s.AckDetects ackInfo →
      ∀ q, (s.ackedState gcm env ackInfo).SentTimeLost env q → q.isMtuProbe = false
  | (env, .detectLosses) => ∀ q, s.SentTimeLost env q → q.isMtuProbe = false
  | (env, .retransTimer) => s.getRetransmissionMode env = .loss →
      ∀ q, s.SentTimeLost env q → q.isMtuProbe = false
  | _ => True

end SendControl

-- ==== kinds

/-- The address of a packet, and whether it is a probe. -/
def QueuedPacket.kind (q : QueuedPacket) : Nat × Bool := (q.ptr, q.isMtuProbe)

namespace Queues

variable {gcm : Gcm}
variable {s t : Queues} {q : QueuedPacket}

def kinds (s : Queues) : List (Nat × Bool) := s.labels QueuedPacket.kind

theorem stable_kind (gcm : Gcm) : Stable gcm QueuedPacket.kind := by
  refine ⟨?_, fun _ => rfl, ?_, fun _ _ => rfl⟩
  · intro nowUs q
    unfold flushedPacket releaseSealedCopy QueuedPacket.kind QueuedPacket.isMtuProbe
    simp only
    split
    · split
      · split
        · rfl
        · rfl
      · rfl
      · rfl
    · rfl
  · rintro q packet ⟨renv, aesCtx, rfl⟩
    unfold QueuedPacket.kind QueuedPacket.isMtuProbe
    rw [prepareLostPacket_poFlags]

theorem kind_mem_of_unacked {s : Queues} (hq : q ∈ s.unackedPackets) :
    q.kind ∈ s.kinds :=
  List.mem_map_of_mem (List.mem_append_left _ (List.mem_append_left _ hq))

theorem map_fst_kinds (s : Queues) : s.kinds.map Prod.fst = s.ptrs := by
  unfold kinds labels ptrs
  rw [List.map_map]
  rfl

theorem fst_mem_ptrs {s : Queues} {k : Nat × Bool} (hk : k ∈ s.kinds) : k.1 ∈ s.ptrs := by
  rw [← map_fst_kinds]
  exact List.mem_map_of_mem hk

theorem Distinct.kind_eq {s : Queues} (h : s.Distinct) {k k' : Nat × Bool} (hk : k ∈ s.kinds)
    (hk' : k' ∈ s.kinds) (heq : k.1 = k'.1) : k = k' := by
  have hn := h.nodup
  rw [← map_fst_kinds] at hn
  exact List.inj_on_of_nodup_map hn hk hk' heq

-- ==== log

/-- What the calls say of the packets. -/
structure Logged (s : Queues) : Prop where
  known : ∀ call ∈ s.mtuCalls, call.ptr < s.nextPtr
  probe : ∀ ptr, (ptr, true) ∈ s.kinds → ∀ call ∈ s.mtuCalls, call.ptr = ptr →
    call = .probeSent ptr
  data : ∀ ptr, (ptr, false) ∈ s.kinds → .probeSent ptr ∉ s.mtuCalls
  settled : ∀ ptr, .probeSent ptr ∈ s.mtuCalls → ptr ∉ s.ptrs →
    s.settledCount ptr = 1 ∧ .dataLoss ptr ∉ s.mtuCalls

/-- The calls that are made when a packet leaves. -/
structure LeaveCalls (q : QueuedPacket) (calls : List MtuCall) : Prop where
  about : ∀ call ∈ calls, call.ptr = q.ptr
  notSent : .probeSent q.ptr ∉ calls
  probe : q.isMtuProbe = true →
    calls.count (.probeAck q.ptr) + calls.count (.probeLost q.ptr) = 1 ∧ .dataLoss q.ptr ∉ calls

theorem count_eq_zero_of_ptr {calls : List MtuCall} {call : MtuCall}
    (h : ∀ c ∈ calls, c.ptr ≠ call.ptr) : calls.count call = 0 :=
  List.count_eq_zero.mpr fun hmem => h call hmem rfl

/-- A packet leaves, and `MtuDiscovery` is told. -/
theorem Logged.leave (h : s.Logged) (hd : s.Distinct)
    {calls : List MtuCall} (hkinds : s.kinds.Perm (q.kind :: t.kinds))
    (hnext : t.nextPtr = s.nextPtr) (hcalls : t.mtuCalls = s.mtuCalls ++ calls)
    (hleave : LeaveCalls q calls) : t.Logged := by
  have hq : q.kind ∈ s.kinds := hkinds.mem_iff.mpr List.mem_cons_self
  have hptrs : s.ptrs.Perm (q.ptr :: t.ptrs) := by
    have hmap := hkinds.map Prod.fst
    rw [List.map_cons, map_fst_kinds, map_fst_kinds] at hmap
    exact hmap
  have hgone : q.ptr ∉ t.ptrs := (List.nodup_cons.mp (hptrs.nodup hd.nodup)).1
  have hmem : ∀ k ∈ t.kinds, k ∈ s.kinds ∧ k.1 ≠ q.ptr := by
    intro k hk
    refine ⟨hkinds.mem_iff.mpr (List.mem_cons_of_mem _ hk), ?_⟩
    intro heq
    exact hgone (heq ▸ fst_mem_ptrs hk)
  refine ⟨?_, ?_, ?_, ?_⟩
  · intro call hcall
    rw [hnext]
    rw [hcalls] at hcall
    rcases List.mem_append.mp hcall with hold | hnew
    · exact h.known call hold
    · rw [hleave.about call hnew]
      exact hd.fresh q.ptr (fst_mem_ptrs hq)
  · intro ptr hptr call hcall heq
    rw [hcalls] at hcall
    rcases List.mem_append.mp hcall with hold | hnew
    · exact h.probe ptr (hmem _ hptr).1 call hold heq
    · exact absurd (heq.symm.trans (hleave.about call hnew)) (hmem _ hptr).2
  · intro ptr hptr hsent
    rw [hcalls] at hsent
    rcases List.mem_append.mp hsent with hold | hnew
    · exact h.data ptr (hmem _ hptr).1 hold
    · exact (hmem _ hptr).2 (hleave.about _ hnew)
  · intro ptr hsent hout
    unfold settledCount
    rw [hcalls] at hsent ⊢
    rw [List.count_append, List.count_append]
    by_cases heq : ptr = q.ptr
    · subst heq
      have hold : .probeSent q.ptr ∈ s.mtuCalls := by
        rcases List.mem_append.mp hsent with hold | hnew
        · exact hold
        · exact absurd hnew hleave.notSent
      have hprobe : q.isMtuProbe = true := by
        by_contra hdata
        refine h.data q.ptr ?_ hold
        rw [← Bool.not_eq_true _ |>.mp hdata]
        exact hq
      have hnone : ∀ call ∈ s.mtuCalls, call.ptr = q.ptr → call = .probeSent q.ptr := by
        apply h.probe q.ptr
        rw [← hprobe]
        exact hq
      have hack : s.mtuCalls.count (.probeAck q.ptr) = 0 := by
        apply List.count_eq_zero.mpr
        intro hmem
        exact absurd (hnone _ hmem rfl) (by simp)
      have hlost : s.mtuCalls.count (.probeLost q.ptr) = 0 := by
        apply List.count_eq_zero.mpr
        intro hmem
        exact absurd (hnone _ hmem rfl) (by simp)
      obtain ⟨hone, hloss⟩ := hleave.probe hprobe
      refine ⟨by omega, ?_⟩
      intro hmem
      rcases List.mem_append.mp hmem with hmem | hmem
      · exact absurd (hnone _ hmem rfl) (by simp)
      · exact hloss hmem
    · have hother : ∀ call ∈ calls, call.ptr ≠ ptr := by
        intro call hcall hptr
        exact heq (hptr.symm.trans (hleave.about call hcall))
      have hold : .probeSent ptr ∈ s.mtuCalls := by
        rcases List.mem_append.mp hsent with hold | hnew
        · exact hold
        · exact absurd rfl (hother _ hnew)
      have hout' : ptr ∉ s.ptrs := by
        intro hin
        rcases List.mem_cons.mp (hptrs.mem_iff.mp hin) with hq | hin
        · exact heq hq
        · exact hout hin
      obtain ⟨hone, hloss⟩ := h.settled ptr hold hout'
      rw [@count_eq_zero_of_ptr _ (.probeAck ptr) hother,
        @count_eq_zero_of_ptr _ (.probeLost ptr) hother]
      refine ⟨hone, ?_⟩
      intro hmem
      rcases List.mem_append.mp hmem with hmem | hmem
      · exact hloss hmem
      · exact hother _ hmem rfl

theorem ptrs_perm_of_kinds (h : t.kinds.Perm s.kinds) : t.ptrs.Perm s.ptrs := by
  rw [← map_fst_kinds, ← map_fst_kinds]
  exact h.map Prod.fst

theorem Logged.same (h : s.Logged) (hkinds : t.kinds.Perm s.kinds)
    (hnext : t.nextPtr = s.nextPtr) (hcalls : t.mtuCalls = s.mtuCalls) : t.Logged := by
  refine ⟨?_, ?_, ?_, ?_⟩
  · rw [hcalls, hnext]
    exact h.known
  · intro ptr hptr
    rw [hcalls]
    exact h.probe ptr (hkinds.mem_iff.mp hptr)
  · intro ptr hptr
    rw [hcalls]
    exact h.data ptr (hkinds.mem_iff.mp hptr)
  · intro ptr hsent hout
    unfold settledCount
    rw [hcalls] at hsent ⊢
    refine h.settled ptr hsent ?_
    rw [← (ptrs_perm_of_kinds hkinds).mem_iff]
    exact hout

theorem Logged.grow (h : s.Logged) (hq : q.ptr = s.nextPtr)
    (hkinds : t.kinds.Perm (q.kind :: s.kinds)) (hnext : t.nextPtr = s.nextPtr + 1)
    (hcalls : t.mtuCalls = s.mtuCalls) : t.Logged := by
  have hnew : ∀ call ∈ s.mtuCalls, call.ptr ≠ q.ptr := by
    intro call hcall heq
    have hlt := h.known call hcall
    rw [heq, hq] at hlt
    exact absurd hlt (Nat.lt_irrefl _)
  refine ⟨?_, ?_, ?_, ?_⟩
  · intro call hcall
    rw [hcalls] at hcall
    rw [hnext]
    exact Nat.lt_succ_of_lt (h.known call hcall)
  · intro ptr hptr call hcall heq
    rw [hcalls] at hcall
    rcases List.mem_cons.mp (hkinds.mem_iff.mp hptr) with hkind | hold
    · exact absurd (heq.trans (congrArg Prod.fst hkind)) (hnew call hcall)
    · exact h.probe ptr hold call hcall heq
  · intro ptr hptr hsent
    rw [hcalls] at hsent
    rcases List.mem_cons.mp (hkinds.mem_iff.mp hptr) with hkind | hold
    · exact hnew _ hsent (congrArg Prod.fst hkind)
    · exact h.data ptr hold hsent
  · intro ptr hsent hout
    unfold settledCount
    rw [hcalls] at hsent ⊢
    refine h.settled ptr hsent ?_
    intro hin
    apply hout
    rw [← map_fst_kinds, (hkinds.map Prod.fst).mem_iff, List.map_cons, map_fst_kinds]
    exact List.mem_cons_of_mem _ hin

/-- `MtuDiscovery` is told of a packet that stays. -/
theorem Logged.note {s : Queues} (h : s.Logged) (hd : s.Distinct) {call : MtuCall}
    (hcall : (∃ ptr, call = .dataLoss ptr ∧ (ptr, false) ∈ s.kinds)
      ∨ ∃ ptr, call = .probeSent ptr ∧ (ptr, true) ∈ s.kinds) : (s.note call).Logged := by
  have hin : call.ptr ∈ s.ptrs := by
    rcases hcall with ⟨ptr, rfl, hptr⟩ | ⟨ptr, rfl, hptr⟩
    · exact fst_mem_ptrs hptr
    · exact fst_mem_ptrs hptr
  refine ⟨?_, ?_, ?_, ?_⟩
  · intro c hc
    rcases List.mem_append.mp hc with hold | hnew
    · exact h.known c hold
    · rw [List.mem_singleton.mp hnew]
      exact hd.fresh _ hin
  · intro ptr hptr c hc heq
    rcases List.mem_append.mp hc with hold | hnew
    · exact h.probe ptr hptr c hold heq
    · rw [List.mem_singleton.mp hnew] at heq ⊢
      rcases hcall with ⟨ptr', rfl, hptr'⟩ | ⟨ptr', rfl, -⟩
      · exact absurd (congrArg Prod.snd (hd.kind_eq hptr' hptr heq)) (by simp)
      · exact congrArg MtuCall.probeSent heq
  · intro ptr hptr hsent
    rcases List.mem_append.mp hsent with hold | hnew
    · exact h.data ptr hptr hold
    · rcases hcall with ⟨ptr', rfl, -⟩ | ⟨ptr', rfl, hptr'⟩
      · cases List.mem_singleton.mp hnew
      · cases List.mem_singleton.mp hnew
        exact absurd (congrArg Prod.snd (hd.kind_eq hptr' hptr rfl)) (by simp)
  · intro ptr hsent hout
    have hother : ∀ c ∈ [call], c.ptr ≠ ptr := by
      intro c hc heq
      rw [List.mem_singleton.mp hc] at heq
      exact hout (heq ▸ hin)
    have hold : .probeSent ptr ∈ s.mtuCalls := by
      rcases List.mem_append.mp hsent with hold | hnew
      · exact hold
      · exact absurd rfl (hother _ hnew)
    obtain ⟨hone, hloss⟩ := h.settled ptr hold hout
    constructor
    · show (s.mtuCalls ++ [call]).count _ + (s.mtuCalls ++ [call]).count _ = 1
      rw [List.count_append, List.count_append, @count_eq_zero_of_ptr _ (.probeAck ptr) hother,
        @count_eq_zero_of_ptr _ (.probeLost ptr) hother]
      exact hone
    · intro hmem
      rcases List.mem_append.mp hmem with hmem | hmem
      · exact hloss hmem
      · exact hother _ hmem rfl

theorem leaveCalls_ack (q : QueuedPacket) : LeaveCalls q (ackCalls q) := by
  unfold ackCalls
  split
  · exact ⟨by simp [MtuCall.ptr], by simp, fun _ => by simp⟩
  · next hprobe =>
      split
      · exact ⟨by simp [MtuCall.ptr], by simp, fun h => absurd h hprobe⟩
      · exact ⟨by simp, by simp, fun h => absurd h hprobe⟩

theorem leaveCalls_lost (q : QueuedPacket) : LeaveCalls q [.probeLost q.ptr] :=
  ⟨by simp [MtuCall.ptr], by simp, fun _ => by simp⟩

theorem leaveCalls_nil (hprobe : q.isMtuProbe = false) : LeaveCalls q [] :=
  ⟨by simp, by simp, fun h => absurd h (by simp [hprobe])⟩

end Queues

-- ==== moves

/-- Probes are not worth sending again, are not scheduled and not given up. -/
def probeRules : Rules where
  mayKeep _ q := q.isMtuProbe = true → q.retx = false
  maySchedule q := q.isMtuProbe = false
  mayLose q := q.isMtuProbe = false

namespace Queues

variable {gcm : Gcm}
variable {s : Queues}

/-- Where the probes are, and what was said of them. -/
structure ProbesKept (s : Queues) : Prop where
  distinct : s.Distinct
  logged : s.Logged
  unacked : ∀ q ∈ s.unackedPackets, q.isMtuProbe = true → q.retx = false
  scheduled : ∀ q ∈ s.scheduledPackets, q.isMtuProbe = false
  lost : ∀ q ∈ s.lostPackets, q.isMtuProbe = false

theorem isMtuProbe_flushedPacket (nowUs : Nat) (q : QueuedPacket) :
    (flushedPacket nowUs q).isMtuProbe = q.isMtuProbe :=
  congrArg Prod.snd ((stable_kind unusedGcm).flushed nowUs q)

theorem logged_move {m : QueueMove} (h : s.ProbesKept)
    (hm : s.Allowed gcm probeRules m) : (s.move m).Logged := by
  have hchange := change_move (stable_kind gcm) h.distinct hm
  have hlog := h.logged
  cases m with
  | note call =>
    apply hlog.note h.distinct
    cases call with
    | dataLoss ptr =>
      obtain ⟨q, hq, rfl, hprobe⟩ := hm
      exact .inl ⟨q.ptr, rfl, hprobe ▸ kind_mem_of_unacked hq⟩
    | probeSent ptr =>
      obtain ⟨q, hq, rfl, hprobe⟩ := hm
      exact .inr ⟨q.ptr, rfl, hprobe ▸ kind_mem_of_unacked hq⟩
    | _ => exact hm.elim
  | keep q => exact hlog.grow hchange.1 hchange.2.1 hchange.2.2.2 rfl
  | schedule q => exact hlog.grow hchange.1 hchange.2.1 hchange.2.2.2 rfl
  | ack q => exact hlog.leave h.distinct hchange.1 rfl rfl (leaveCalls_ack q)
  | loseProbe q => exact hlog.leave h.distinct hchange.1 rfl rfl (leaveCalls_lost q)
  | drop q =>
    exact hlog.leave h.distinct hchange.1 rfl (List.append_nil _).symm
      (leaveCalls_nil (h.scheduled q hm))
  | retire q =>
    exact hlog.leave h.distinct hchange.1 rfl (List.append_nil _).symm
      (leaveCalls_nil (h.lost q hm.1))
  | takeNumber => exact hlog.same hchange.1 rfl rfl
  | flush nowUs q => exact hlog.same hchange.1 rfl rfl
  | lose q => exact hlog.same hchange.1 rfl rfl
  | edit q packet => exact hlog.same hchange.1 rfl rfl
  | resend nowUs q => exact hlog.same hchange.1 rfl rfl

theorem probesKept_move {m : QueueMove} (h : s.ProbesKept)
    (hm : s.Allowed gcm probeRules m) : (s.move m).ProbesKept := by
  have hlogged := logged_move h hm
  have hdistinct := distinct_move h.distinct hm
  have happend : ∀ {l : List QueuedPacket} {q : QueuedPacket} {P : QueuedPacket → Prop},
      (∀ a ∈ l, P a) → P q → ∀ a ∈ l ++ [q], P a := by
    intro l q P hl hq a ha
    rcases List.mem_append.mp ha with ha | ha
    · exact hl a ha
    · rw [List.mem_singleton.mp ha]
      exact hq
  have hremove : ∀ {l : List QueuedPacket} {ptr : Nat} {P : QueuedPacket → Prop},
      (∀ a ∈ l, P a) → ∀ a ∈ removeKey QueuedPacket.ptr ptr l, P a := by
    intro l ptr P hl a ha
    exact hl a (mem_of_mem_removeKey ha)
  refine ⟨hdistinct, hlogged, ?_, ?_, ?_⟩
  · cases m with
    | keep q => exact happend h.unacked hm.2.2
    | flush nowUs q =>
      refine happend h.unacked ?_
      rw [isMtuProbe_flushedPacket, h.scheduled q hm]
      exact fun hf => absurd hf Bool.false_ne_true
    | resend nowUs q =>
      refine happend h.unacked ?_
      intro hprobe
      exact absurd (hprobe.symm.trans (h.lost q hm)) (by simp)
    | ack q => exact hremove h.unacked
    | loseProbe q => exact hremove h.unacked
    | lose q => exact hremove h.unacked
    | _ => exact h.unacked
  · cases m with
    | schedule q => exact happend h.scheduled hm.2
    | flush nowUs q => exact hremove h.scheduled
    | drop q => exact hremove h.scheduled
    | _ => exact h.scheduled
  · cases m with
    | lose q => exact happend h.lost hm.2
    | edit q packet =>
      intro a ha
      rcases mem_of_mem_replaceKey ha with rfl | ha
      · exact (congrArg Prod.snd ((stable_kind gcm).edited q packet hm.2)).trans (h.lost q hm.1)
      · exact h.lost a ha
    | resend nowUs q => exact hremove h.lost
    | retire q => exact hremove h.lost
    | _ => exact h.lost

theorem ProbesKept.resolved (h : s.ProbesKept) : s.ProbesResolved := by
  have hwaiting : ∀ q ∈ s.unackedPackets, q.isMtuProbe = true →
      ∀ call ∈ s.mtuCalls, call.ptr = q.ptr → call = .probeSent q.ptr := by
    intro q hq hprobe
    exact h.logged.probe q.ptr (hprobe ▸ kind_mem_of_unacked hq)
  have hout : ∀ ptr, .probeSent ptr ∈ s.mtuCalls →
      ptr ∉ s.unackedPackets.map QueuedPacket.ptr → ptr ∉ s.ptrs := by
    intro ptr hsent hgone hin
    obtain ⟨q, hq, rfl⟩ := List.mem_map.mp hin
    refine h.logged.data q.ptr ?_ hsent
    have hdata : q.isMtuProbe = false := by
      rcases List.mem_append.mp hq with hq | hq
      · rcases List.mem_append.mp hq with hq | hq
        · exact absurd (List.mem_map_of_mem hq) hgone
        · exact h.scheduled q hq
      · exact h.lost q hq
    rw [← hdata]
    exact List.mem_map_of_mem hq
  refine ⟨h.lost, ?_, ?_, ?_⟩
  · intro q hq hprobe
    have hnone := hwaiting q hq hprobe
    unfold settledCount
    rw [List.count_eq_zero.mpr, List.count_eq_zero.mpr]
    · intro hmem
      exact absurd (hnone _ hmem rfl) (by simp)
    · intro hmem
      exact absurd (hnone _ hmem rfl) (by simp)
  · intro ptr hsent hgone
    exact (h.logged.settled ptr hsent (hout ptr hsent hgone)).1
  · intro ptr hsent hloss
    by_cases hin : ptr ∈ s.unackedPackets.map QueuedPacket.ptr
    · obtain ⟨q, hq, rfl⟩ := List.mem_map.mp hin
      have hprobe : q.isMtuProbe = true := by
        by_contra hdata
        refine h.logged.data q.ptr ?_ hsent
        rw [← Bool.not_eq_true _ |>.mp hdata]
        exact kind_mem_of_unacked hq
      exact absurd (hwaiting q hq hprobe _ hloss rfl) (by simp)
    · exact (h.logged.settled ptr hsent (hout ptr hsent hin)).2 hloss

end Queues

-- ==== runs

namespace SendControl

variable {s : SendControl}

theorem probeRules_keeps (gcm : Gcm) (env : SendCtlEnv) : probeRules.Keeps gcm env := by
  intro s req streamId streamOffset ptr wire packet hissued hsent
  have hkept := (keptOf_sent hsent).1
  intro hprobe
  have hflag : req.packetFlags.mtuProbe = true := hkept.flags.1.symm.trans hprobe
  cases hissued with
  | probe packetSize =>
    show decide (packet.frameTypes &&& UTP_FRAME_RETX_MASK ≠ 0) = false
    have hbits : (probeRequest packetSize).frameTypeBits = FrameType.ping.bit := rfl
    rw [hkept.frameTypes, hbits]
    decide
  | _ => cases hflag

theorem probeRules_retires (gcm : Gcm) (env : SendCtlEnv) : probeRules.Retires gcm env :=
  fun _ _ _ _ => trivial

theorem not_probe_of_givesUp {env : SendCtlEnv} {q : QueuedPacket}
    (htimely : ∀ q, s.SentTimeLost env q → q.isMtuProbe = false) (h : s.GivesUp env q) :
    q.isMtuProbe = false := by
  obtain ⟨hq, hverdict, hfack⟩ := h
  by_contra hprobe
  have hprobe' : q.isMtuProbe = true := by simpa using hprobe
  have hsent : s.lossVerdict env s.largestRetxPacketNo q = .sentTime := by
    unfold lossVerdict at hverdict hfack ⊢
    simp only [hprobe', Bool.not_true, Bool.and_false, Bool.false_and, Bool.false_eq_true,
      if_false, and_true] at hverdict hfack ⊢
    split_ifs at hverdict hfack ⊢ <;> simp_all
  exact absurd (htimely q ⟨hq, hsent⟩) hprobe

theorem not_probe_of_expires (h : s.toQueues.ProbesKept)
    {filter : ExpireFilter} {q : QueuedPacket} (hexp : s.Expires filter q) :
    q.isMtuProbe = false := by
  obtain ⟨hq, hexp⟩ := hexp
  split at hexp
  · by_contra hprobe
    have hretx := h.unacked q hq (by simpa using hprobe)
    exact absurd (hexp.symm.trans hretx) (by simp)
  · exact hexp.2

/-- Every step that `ProbesTimely` admits keeps the probes where they
belong. -/
theorem probesKept_step {gcm : Gcm} (h : s.toQueues.ProbesKept)
    (op : SendCtlEnv × SendCtlOp) (htimely : s.ProbesTimely gcm op) :
    (s.step gcm op).toQueues.ProbesKept := by
  have hsched : ∀ q, Schedules q op → probeRules.maySchedule q := by
    obtain ⟨env, op⟩ := op
    intro q hq
    cases op with
    | schedulePacket packet trackOnSend =>
      have hq' : q.packet = { packet with poFlags := { packet.poFlags with sched := true } } := hq
      show q.packet.poFlags.mtuProbe = false
      rw [hq']
      exact htimely
    | _ => exact hq.elim
  have hlose : ∀ q, s.Loses gcm q op → probeRules.mayLose q := by
    obtain ⟨env, op⟩ := op
    intro q hq
    cases op with
    | ack ackInfo => exact not_probe_of_givesUp (htimely hq.1) hq.2
    | detectLosses => exact not_probe_of_givesUp htimely hq
    | expireUnacked filter => exact not_probe_of_expires h hq
    | retransTimer =>
      have hq' : s.TimerGivesUp env q := hq
      unfold TimerGivesUp at hq'
      split at hq'
      · exact not_probe_of_expires h hq'
      · next hmode => exact not_probe_of_givesUp (htimely hmode) hq'
      · exact not_probe_of_expires h hq'
      · exact not_probe_of_expires h hq'
    | _ => exact hq.elim
  have hreach : Reaches Queues.move (Queues.Allowed gcm probeRules) s.toQueues
      (s.step gcm op).toQueues :=
    step_reaches h.distinct op ⟨probeRules_keeps gcm op.1, probeRules_retires gcm op.1,
      fun _ _ => trivial, hsched, hlose⟩
  exact hreach.inv (fun _ _ hk hm => Queues.probesKept_move hk hm) h

theorem probesKept_init (packetNumber : UInt64) (mtu : MtuDiscovery) (bytesOut : Nat) :
    (init packetNumber mtu bytesOut).toQueues.ProbesKept := by
  refine ⟨(counted_init packetNumber mtu bytesOut).distinct, ?_, ?_, ?_, ?_⟩
  · exact ⟨fun _ h => absurd h List.not_mem_nil, fun _ h => absurd h List.not_mem_nil,
      fun _ h => absurd h List.not_mem_nil, fun _ h => absurd h List.not_mem_nil⟩
  · exact fun _ h => absurd h List.not_mem_nil
  · exact fun _ h => absurd h List.not_mem_nil
  · exact fun _ h => absurd h List.not_mem_nil

/-- In a run in which the test of sent times finds no probe, no probe is
sent again, and each that has left `m_unackedPackets` was reported to
`MtuDiscovery` once, as acknowledged or as lost. -/
theorem probesResolved_run {gcm : Gcm} {packetNumber : UInt64} {mtu : MtuDiscovery}
    {bytesOut : Nat} {ops : List (SendCtlEnv × SendCtlOp)}
    (hops : Meets (step gcm) (ProbesTimely gcm) (init packetNumber mtu bytesOut) ops) :
    (run (step gcm) (init packetNumber mtu bytesOut) ops).toQueues.ProbesResolved := by
  have hkept := run_inv (P := fun s : SendControl => s.toQueues.ProbesKept)
    (fun s op h hok => probesKept_step h op hok) (probesKept_init packetNumber mtu bytesOut) hops
  exact hkept.resolved

/-- A probe goes out; a MAX_DATA frame follows a second later; the peer
acknowledges the frame and not the probe. -/
def probeOverdue (srtt : Nat) : List (SendCtlEnv × SendCtlOp) :=
  [({}, .canWrite),
    ({ sentAt := fun _ => 1000000 }, .send (.packet
      { packetType := UTP_TYPE_CTRL, payload := [18, 0, 0, 0, 0, 0, 1, 0, 0] })),
    ({ srtt }, .ack { largestAckPackno := 2, ackRanges := [(2, 2)] })]

/-- With a round trip time of a tenth of a second the probe is given up, and
will be sent again. -/
theorem not_probesResolved_overdue :
    ¬ (run (step unusedGcm) (init 1 {} 0) (probeOverdue 100000)).toQueues.ProbesResolved := by
  intro hresolved
  have hlost : (run (step unusedGcm) (init 1 {} 0) (probeOverdue 100000)).lostPackets.map
      QueuedPacket.isMtuProbe = [true] := by
    decide +kernel
  have hmem : true ∈ (run (step unusedGcm) (init 1 {} 0) (probeOverdue 100000)).lostPackets.map
      QueuedPacket.isMtuProbe := by
    rw [hlost]
    exact List.mem_singleton_self true
  obtain ⟨q, hq, hprobe⟩ := List.mem_map.mp hmem
  exact absurd (hprobe.symm.trans (hresolved.neverLost q hq)) (by simp)

/-- With one of two seconds it is not. -/
theorem probesResolved_punctual :
    (run (step unusedGcm) (init 1 {} 0) (probeOverdue 2000000)).toQueues.ProbesResolved := by
  apply probesResolved_run
  refine ⟨trivial, trivial, ?_, trivial⟩
  rintro - q ⟨-, hverdict⟩
  have hlate : ∀ t : SendControl, t.largestAckedSentTime ≤ 1000000 →
      t.lossVerdict { srtt := 2000000 } t.largestRetxPacketNo q ≠ .sentTime := by
    intro t ht
    unfold lossVerdict
    split_ifs
    all_goals simp_all
    omega
  exact absurd hverdict (hlate _ (by decide +kernel))

end SendControl

end Eular.Utp
