/-
What the hub knows of its nodes, against what was announced.

The ledger beside the hub (`Observed`) is written from the calls and their
answers alone: for each node the boot, the time and the announced interval
of the last message that was accepted. `Tracks` relates the two, and one
step lemma for each call carries it (`tracks_apply`, `tracks_sweep`).

# The conditions

A message that starts an entry over is to be accepted (otherwise the boot
of the entry is lost, and an older boot gets in), and an announced interval
is to be one of which the threefold fits 32 bits. The clock does not run
backwards and starts above 0; that is the environment's part.
-/
import Eular.Ntrs.Proofs.HubAtomic

namespace Eular.Ntrs

open Lib

variable {node : ClusterNodeState}

-- ==== boots

/-- Boots by their number, then by their text. -/
def bootKey (bootId : List UInt8) : ℕ ×ₗ List UInt8 :=
  toLex (bootGenerationOrder bootId, bootId)

theorem shouldReplaceGeneration_iff {bootId : List UInt8} :
    node.shouldReplaceGeneration bootId = true ↔ bootKey node.bootId < bootKey bootId := by
  unfold ClusterNodeState.shouldReplaceGeneration bootKey
  rw [Prod.Lex.toLex_lt_toLex]
  dsimp only
  split
  · rename_i h
    simp [h]
  · split
    · rename_i hle hlt
      have hne : ¬ bootGenerationOrder node.bootId = bootGenerationOrder bootId := by omega
      simp [hle, hne]
    · rename_i hle hge
      have heq : bootGenerationOrder node.bootId = bootGenerationOrder bootId := by omega
      simp [heq]

-- ==== timeouts

/-- An interval in seconds; 0 stands for 5. -/
def period (interval : UInt32) : Nat := if interval = 0 then 5 else interval.toNat

theorem toNat_heartbeatTimeoutSec
    (h : 3 * period node.heartbeatIntervalSec < 2 ^ 32) :
    node.heartbeatTimeoutSec.toNat = 3 * period node.heartbeatIntervalSec := by
  unfold ClusterNodeState.heartbeatTimeoutSec
  unfold period at h ⊢
  by_cases hzero : node.heartbeatIntervalSec = 0
  · simp [hzero]
  · have hpos : node.heartbeatIntervalSec.toNat ≠ 0 := fun h0 =>
      hzero (UInt32.toNat_inj.1 (by simpa using h0))
    simp only [if_neg hzero] at h ⊢
    have hmul : (node.heartbeatIntervalSec * 3).toNat = 3 * node.heartbeatIntervalSec.toNat := by
      rw [UInt32.toNat_mul]
      show node.heartbeatIntervalSec.toNat * 3 % 2 ^ 32 = _
      omega
    have hge : ¬ node.heartbeatIntervalSec * 3 < 3 := by
      rw [UInt32.lt_iff_toNat_lt, hmul]
      show ¬ 3 * node.heartbeatIntervalSec.toNat < 3
      omega
    rw [if_neg hge, hmul]

theorem stays_iff {now : UInt64}
    (htimeout : 3 * period node.heartbeatIntervalSec < 2 ^ 32)
    (hseen : 0 < node.lastSeenMonoSec) (hnow : node.lastSeenMonoSec ≤ now) :
    node.stays now = true ↔
      now.toNat ≤ node.lastSeenMonoSec.toNat + 3 * period node.heartbeatIntervalSec := by
  have hzero : ¬ node.lastSeenMonoSec = 0 := fun h0 => by simp [h0] at hseen
  have hback : ¬ now < node.lastSeenMonoSec := by
    rw [UInt64.lt_iff_toNat_lt, not_lt]
    exact UInt64.le_iff_toNat_le.1 hnow
  unfold ClusterNodeState.stays
  simp only [hzero, hback, decide_false, Bool.false_or, decide_eq_true_eq]
  rw [UInt64.le_iff_toNat_le, UInt64.toNat_sub_of_le _ _ hnow, UInt32.toNat_toUInt64,
    toNat_heartbeatTimeoutSec htimeout]
  have hle := UInt64.le_iff_toNat_le.1 hnow
  omega

-- ==== ledger

/-- What was last accepted of a node. -/
structure Acceptance where
  boot : List UInt8
  acceptedAt : UInt64
  announced : UInt32
deriving DecidableEq

/-- The interval a boot has announced so far; none yet is 5. -/
def announcedBefore (a : Option Acceptance) (boot : List UInt8) : UInt32 :=
  match a with
  | some a => if a.boot = boot then a.announced else 5
  | none => 5

/-- The message as an entry of the ledger. Presence does not announce an
interval. -/
def accept (a : Option Acceptance) (msg : Message) (at' : Arrival) : Acceptance where
  boot := msg.boot
  acceptedAt := at'.nowMonoSec
  announced :=
    if msg.type = .nodePresence then announcedBefore a msg.boot
    else safeMsgU32Tag msg FieldTag.heartbeatIntervalSec (announcedBefore a msg.boot)

/-- A hub, the ledger kept beside it, and the time of the last call. -/
structure Observed where
  hub : HubClusterState
  ledger : SortedMap (List UInt8) Acceptance
  clock : UInt64

namespace Observed

/-- A new hub; the clock starts above 0. -/
def init : Observed := ⟨HubClusterState.init, SortedMap.empty, 1⟩

def step (w : Observed) : HubOp → Observed
  | .applyMessage topic msg at' =>
    let out := w.hub.applyMessage topic msg at'
    { hub := out.1
      ledger := if out.2.isSome then
          w.ledger.insert topic (accept (w.ledger.find topic) msg at')
        else w.ledger
      clock := at'.nowMonoSec }
  | .sweepExpired now =>
    let hub := (w.hub.sweepExpired now).1
    { hub := hub
      ledger := w.ledger.filter fun id _ => (hub.nodes.find id).isSome
      clock := now }

/-- The clock does not run backwards. -/
def InOrder (w : Observed) (op : HubOp) : Prop := w.clock ≤ op.nowMonoSec

instance (w : Observed) (op : HubOp) : Decidable (w.InOrder op) :=
  inferInstanceAs (Decidable (_ ≤ _))

/-- A message that starts an entry over is taken into it, and three of the
intervals it announces fit 32 bits. The latter is asked of every message,
also of those whose interval is not stored. -/
def Sound (w : Observed) : HubOp → Prop
  | .applyMessage topic msg _ =>
    (w.hub.StartsOver topic msg → msg.Complete ∧ ¬ msg.Offline) ∧
      ∀ v, messageGetU32ByTag msg FieldTag.heartbeatIntervalSec = some v → 3 * v.toNat < 2 ^ 32
  | .sweepExpired _ => True

/-- The call does not evict the node. -/
def Keeps (id : List UInt8) (w : Observed) (op : HubOp) : Prop :=
  (w.hub.nodes.find id).isSome → ((w.step op).hub.nodes.find id).isSome

instance (id : List UInt8) (w : Observed) (op : HubOp) : Decidable (w.Keeps id op) :=
  inferInstanceAs (Decidable (_ → _))

end Observed

-- ==== tracking

/-- The entry is of the boot, the time and the interval last accepted. -/
structure Matches (clock : UInt64) (node : ClusterNodeState) (a : Acceptance) : Prop where
  boot : node.bootId = a.boot
  seen : node.lastSeenMonoSec = a.acceptedAt
  interval : period node.heartbeatIntervalSec = period a.announced
  fits : 3 * period a.announced < 2 ^ 32
  pos : 0 < a.acceptedAt
  past : a.acceptedAt ≤ clock

/-- The hub and the ledger know the same nodes, and the same of them. -/
def Observed.Tracks (w : Observed) : Prop :=
  0 < w.clock ∧ ∀ id, Option.Rel (Matches w.clock) (w.hub.nodes.find id) (w.ledger.find id)

theorem Matches.later {clock clock' : UInt64} {a : Acceptance}
    (h : Matches clock node a) (hle : clock ≤ clock') : Matches clock' node a :=
  { h with past := UInt64.le_trans h.past hle }

theorem rel_later {clock clock' : UInt64} (hle : clock ≤ clock') {node : Option ClusterNodeState}
    {a : Option Acceptance} (h : Option.Rel (Matches clock) node a) :
    Option.Rel (Matches clock') node a := by
  cases h with
  | some hmatch => exact .some (hmatch.later hle)
  | none => exact .none

-- ==== accepted messages

namespace HubClusterState

variable {s : HubClusterState} {topic event : List UInt8} {msg : Message} {at' : Arrival}
  {created : Bool} {node node' : ClusterNodeState}

/-- What an accepted message always writes, and what it makes of the
interval. -/
theorem receive_entry (h : receive created node topic msg at' = some (event, node')) :
    node'.bootId = msg.boot ∧ node'.lastSeenMonoSec = at'.nowMonoSec ∧
      node'.heartbeatIntervalSec =
        if msg.type = .nodePresence then node.heartbeatIntervalSec
        else announcedInterval node msg := by
  unfold receive at h
  cases htype : msg.type with
  | nodeRegister =>
    simp only [htype] at h
    cases h
    exact ⟨rfl, rfl, by simp⟩
  | nodeHeartbeat =>
    simp only [htype] at h
    cases h
    exact ⟨rfl, rfl, by simp⟩
  | other code => simp [htype] at h
  | nodePresence =>
    simp only [htype] at h
    split at h
    · cases h
    · split at h
      · cases h
      · split at h
        · cases h
        · cases h
          exact ⟨rfl, rfl, by simp⟩

theorem boot_le_of_startsOver {old : ClusterNodeState} (hover : s.StartsOver topic msg)
    (hfind : s.nodes.find topic = some old) : bootKey old.bootId < bootKey msg.boot := by
  unfold StartsOver at hover
  rw [hfind] at hover
  exact shouldReplaceGeneration_iff.1 hover.2.2

theorem applyMessage_of_older {old : ClusterNodeState} (hfind : s.nodes.find topic = some old)
    (holder : bootKey msg.boot < bootKey old.bootId) :
    s.applyMessage topic msg at' = (s, none) := by
  have hover : ¬ s.StartsOver topic msg := fun h =>
    lt_asymm holder (boot_le_of_startsOver h hfind)
  rcases applyMessage_cases s topic msg at' with ⟨happly, -⟩ | ⟨-, h, -⟩ |
    ⟨created, node, event, node', -, -, ⟨hcur, hboot⟩ | ⟨-, h, -⟩⟩
  · exact happly
  · exact absurd h hover
  · rw [hfind] at hcur
    cases hcur
    rw [hboot] at holder
    exact absurd holder (lt_irrefl _)
  · exact absurd h hover

end HubClusterState

theorem period_default (v : UInt32) : period (if v = 0 then 5 else v) = period v := by
  unfold period
  by_cases h : v = 0 <;> simp [h]

-- ==== one step tracks

namespace Observed

open HubClusterState

variable {w : Observed} {topic : List UInt8} {msg : Message} {at' : Arrival} {op : HubOp}

theorem Tracks.base (h : w.Tracks) {node : ClusterNodeState}
    (hbase : (w.hub.nodes.find topic = some node ∧ node.bootId = msg.boot) ∨
      (node = w.hub.blankEntry topic at' ∧ w.hub.StartsOver topic msg)) :
    period node.heartbeatIntervalSec
        = period (announcedBefore (w.ledger.find topic) msg.boot) ∧
      3 * period (announcedBefore (w.ledger.find topic) msg.boot) < 2 ^ 32 := by
  have hrel := h.2 topic
  rcases hbase with ⟨hfind, hboot⟩ | ⟨rfl, hover⟩
  · rw [hfind] at hrel
    cases hledger : w.ledger.find topic with
    | none => rw [hledger] at hrel; cases hrel
    | some a =>
      rw [hledger] at hrel
      cases hrel with
      | some hmatch =>
        have hcur : a.boot = msg.boot := hmatch.boot.symm.trans hboot
        simp only [announcedBefore, if_pos hcur]
        exact ⟨hmatch.interval, hmatch.fits⟩
  · have hfive : announcedBefore (w.ledger.find topic) msg.boot = 5 := by
      cases hledger : w.ledger.find topic with
      | none => rfl
      | some a =>
        rw [hledger] at hrel
        cases hfind : w.hub.nodes.find topic with
        | none => rw [hfind] at hrel; cases hrel
        | some old =>
          rw [hfind] at hrel
          cases hrel with
          | some hmatch =>
            have hlt := boot_le_of_startsOver hover hfind
            have hne : a.boot ≠ msg.boot := by
              rintro heq
              rw [hmatch.boot, heq] at hlt
              exact lt_irrefl _ hlt
            simp [announcedBefore, hne]
    have hblank : (w.hub.blankEntry topic at').heartbeatIntervalSec = 5 := by
      unfold blankEntry
      split <;> rfl
    rw [hfive, hblank]
    decide

theorem tracks_init : init.Tracks :=
  ⟨by decide, fun _ => Option.Rel.none⟩

theorem Tracks.accept (h : w.Tracks) {created : Bool} {node node' : ClusterNodeState}
    {event : List UInt8} (hclock : w.clock ≤ at'.nowMonoSec)
    (hfits : ∀ v, messageGetU32ByTag msg FieldTag.heartbeatIntervalSec = some v →
      3 * v.toNat < 2 ^ 32)
    (hrec : receive created node topic msg at' = some (event, node'))
    (hbase : (w.hub.nodes.find topic = some node ∧ node.bootId = msg.boot) ∨
      (node = w.hub.blankEntry topic at' ∧ w.hub.StartsOver topic msg)) :
    Matches at'.nowMonoSec node' (accept (w.ledger.find topic) msg at') := by
  obtain ⟨hboot, hseen, hinterval⟩ := receive_entry hrec
  obtain ⟨hperiod, hbefore⟩ := h.base hbase
  have hannounced : period node'.heartbeatIntervalSec
        = period (Ntrs.accept (w.ledger.find topic) msg at').announced ∧
      3 * period (Ntrs.accept (w.ledger.find topic) msg at').announced < 2 ^ 32 := by
    unfold Ntrs.accept
    rw [hinterval]
    by_cases hpresence : msg.type = .nodePresence
    · simp only [if_pos hpresence]
      exact ⟨hperiod, hbefore⟩
    · simp only [if_neg hpresence]
      unfold announcedInterval safeMsgU32Tag
      cases hfield : messageGetU32ByTag msg FieldTag.heartbeatIntervalSec with
      | none =>
        simp only [Option.getD_none, period_default]
        exact ⟨hperiod, hbefore⟩
      | some v =>
        refine ⟨rfl, ?_⟩
        have hv := hfits v hfield
        simp only [Option.getD_some, period]
        split <;> omega
  have hpos : 0 < at'.nowMonoSec := UInt64.lt_of_lt_of_le h.1 hclock
  exact ⟨hboot, hseen, hannounced.1, hannounced.2, hpos, UInt64.le_refl _⟩

theorem tracks_apply (h : w.Tracks) (hclock : w.InOrder (.applyMessage topic msg at'))
    (hsound : w.Sound (.applyMessage topic msg at')) :
    (w.step (.applyMessage topic msg at')).Tracks := by
  have hclock' : w.clock ≤ at'.nowMonoSec := hclock
  have hlater : ∀ id, Option.Rel (Matches at'.nowMonoSec) (w.hub.nodes.find id)
      (w.ledger.find id) := fun id => rel_later hclock' (h.2 id)
  refine ⟨UInt64.lt_of_lt_of_le h.1 hclock', fun id => ?_⟩
  rcases applyMessage_cases w.hub topic msg at' with ⟨happly, -⟩ | ⟨-, hover, hbad⟩ |
    ⟨created, node, event, node', hrec, happly, hbase⟩
  · simp only [step, happly]
    exact hlater id
  · exact absurd (hsound.1 hover) hbad
  · simp only [step, happly, Option.isSome_some, if_true]
    rw [SortedMap.find_insert, SortedMap.find_insert]
    by_cases hid : id = topic
    · rw [if_pos hid, if_pos hid]
      exact .some (h.accept hclock' hsound.2 hrec
        (hbase.imp_right fun hblank => ⟨hblank.1, hblank.2.1⟩))
    · rw [if_neg hid, if_neg hid]
      exact hlater id

theorem tracks_sweep (h : w.Tracks) {now : UInt64} (hclock : w.InOrder (.sweepExpired now)) :
    (w.step (.sweepExpired now)).Tracks := by
  have hclock' : w.clock ≤ now := hclock
  refine ⟨UInt64.lt_of_lt_of_le h.1 hclock', fun id => ?_⟩
  simp only [step, sweepExpired, SortedMap.find_filter]
  have hrel := h.2 id
  cases hfind : w.hub.nodes.find id with
  | none =>
    rw [hfind] at hrel
    cases hledger : w.ledger.find id with
    | none => exact .none
    | some a => rw [hledger] at hrel; cases hrel
  | some node =>
    rw [hfind] at hrel
    cases hledger : w.ledger.find id with
    | none => rw [hledger] at hrel; cases hrel
    | some a =>
      rw [hledger] at hrel
      cases hrel with
      | some hmatch =>
        by_cases hstays : node.stays now = true
        · simp only [Option.filter_some, hstays, if_true, Option.isSome_some]
          exact .some (hmatch.later hclock')
        · simp only [Option.filter_some, hstays]
          exact .none

theorem tracks_step (h : w.Tracks) (hok : w.InOrder op ∧ w.Sound op) : (w.step op).Tracks := by
  cases op with
  | applyMessage topic msg at' => exact tracks_apply h hok.1 hok.2
  | sweepExpired now => exact tracks_sweep h hok.1

-- ==== runs

theorem Tracks.evicted_iff (h : w.Tracks) {now : UInt64} (hclock : w.clock ≤ now)
    (id : List UInt8) :
    (w.hub.nodes.find id).isSome ∧ (w.hub.sweepExpired now).1.nodes.find id = none ↔
      ∃ a, w.ledger.find id = some a ∧
        a.acceptedAt.toNat + 3 * period a.announced < now.toNat := by
  simp only [sweepExpired, SortedMap.find_filter]
  have hrel := h.2 id
  cases hfind : w.hub.nodes.find id with
  | none =>
    rw [hfind] at hrel
    cases hledger : w.ledger.find id with
    | none => simp
    | some a => rw [hledger] at hrel; cases hrel
  | some node =>
    rw [hfind] at hrel
    cases hledger : w.ledger.find id with
    | none => rw [hledger] at hrel; cases hrel
    | some a =>
      rw [hledger] at hrel
      cases hrel with
      | some hmatch =>
        have hseen : node.lastSeenMonoSec ≤ now := by
          rw [hmatch.seen]
          exact UInt64.le_trans hmatch.past hclock
        have hstays := stays_iff (hmatch.interval ▸ hmatch.fits) (hmatch.seen ▸ hmatch.pos) hseen
        rw [hmatch.seen, hmatch.interval] at hstays
        simp only [Option.isSome_some, true_and, Option.filter_some, Option.some.injEq,
          exists_eq_left', ite_eq_right_iff, reduceCtorEq, imp_false]
        rw [hstays, not_le]

theorem boot_le_step (hok : w.InOrder op ∧ w.Sound op) {id : List UInt8}
    {node node' : ClusterNodeState} (hfind : w.hub.nodes.find id = some node)
    (hfind' : (w.step op).hub.nodes.find id = some node') :
    bootKey node.bootId ≤ bootKey node'.bootId := by
  cases op with
  | sweepExpired now =>
    simp only [step, sweepExpired, SortedMap.find_filter, hfind, Option.filter_some] at hfind'
    split at hfind'
    · cases hfind'
      exact le_rfl
    · cases hfind'
  | applyMessage topic msg at' =>
    rcases applyMessage_cases w.hub topic msg at' with ⟨happly, -⟩ | ⟨-, hover, hbad⟩ |
      ⟨created, base, event, taken, hrec, happly, hbase⟩
    · simp only [step, happly, hfind] at hfind'
      cases hfind'
      exact le_rfl
    · exact absurd (hok.2.1 hover) hbad
    · simp only [step, happly, SortedMap.find_insert] at hfind'
      split at hfind'
      · rename_i hid
        cases hfind'
        rw [(receive_entry hrec).1]
        rw [hid] at hfind
        rcases hbase with ⟨hcur, hboot⟩ | ⟨-, hover, -⟩
        · rw [hfind] at hcur
          cases hcur
          rw [hboot]
        · exact le_of_lt (boot_le_of_startsOver hover hfind)
      · rw [hfind] at hfind'
        cases hfind'
        exact le_rfl

/-- Between the making of an entry and its eviction its boot is never
replaced by an older one. -/
theorem boot_le_run {id : List UInt8} {ops : List HubOp}
    (h : Meets step (fun w op => (w.InOrder op ∧ w.Sound op) ∧ w.Keeps id op) w ops)
    {node : ClusterNodeState} (hfind : w.hub.nodes.find id = some node) :
    ∃ node', (run step w ops).hub.nodes.find id = some node' ∧
      bootKey node.bootId ≤ bootKey node'.bootId := by
  induction ops generalizing w node with
  | nil => exact ⟨node, hfind, le_rfl⟩
  | cons op ops ih =>
    obtain ⟨hok, hrest⟩ := h
    have hkept := hok.2 (by rw [hfind]; rfl)
    obtain ⟨next, hnext⟩ := Option.isSome_iff_exists.1 hkept
    obtain ⟨node', hfind', hle⟩ := ih hrest hnext
    exact ⟨node', hfind', le_trans (boot_le_step hok.1 hfind hnext) hle⟩

theorem find_of_accepted (h : (w.hub.applyMessage topic msg at').2 ≠ none) :
    ∃ node, (w.step (.applyMessage topic msg at')).hub.nodes.find topic = some node ∧
      node.bootId = msg.boot := by
  rcases applyMessage_cases w.hub topic msg at' with ⟨happly, -⟩ | ⟨happly, -⟩ |
    ⟨created, base, event, node, hrec, happly, -⟩
  · rw [happly] at h
    exact absurd rfl h
  · rw [happly] at h
    exact absurd rfl h
  · refine ⟨node, ?_, (receive_entry hrec).1⟩
    simp only [step, happly]
    exact SortedMap.find_insert_self

/-- Along a run whose messages are sound: the boot of an entry does not get
older while the entry is there; once a message was accepted, messages of
older boots leave the entry alone; and a sweep evicts exactly the nodes of
which nothing was accepted for more than three of the intervals they
announced. -/
theorem membership_monotone {xs : List HubOp}
    (h : Meets step (fun w op => w.InOrder op ∧ w.Sound op) init xs) :
    (∀ id ys node node',
        Meets step (fun w op => (w.InOrder op ∧ w.Sound op) ∧ w.Keeps id op) (run step init xs) ys →
        (run step init xs).hub.nodes.find id = some node →
        (run step init (xs ++ ys)).hub.nodes.find id = some node' →
          bootKey node.bootId ≤ bootKey node'.bootId) ∧
      (∀ topic msg at' ys,
        ((run step init xs).hub.applyMessage topic msg at').2 ≠ none →
        Meets step (fun w op => (w.InOrder op ∧ w.Sound op) ∧ w.Keeps topic op)
          ((run step init xs).step (.applyMessage topic msg at')) ys →
        ∀ msg' at'', bootKey msg'.boot < bootKey msg.boot →
          ((run step init (xs ++ .applyMessage topic msg at' :: ys)).hub.applyMessage
              topic msg' at'').1.nodes.find topic
            = (run step init (xs ++ .applyMessage topic msg at' :: ys)).hub.nodes.find topic) ∧
      ∀ id now, (run step init xs).clock ≤ now →
        (((run step init xs).hub.nodes.find id).isSome ∧
            ((run step init xs).hub.sweepExpired now).1.nodes.find id = none ↔
          ∃ a, (run step init xs).ledger.find id = some a ∧
            a.acceptedAt.toNat + 3 * period a.announced < now.toNat) := by
  refine ⟨fun id ys node node' hys hfind hfind' => ?_,
    fun topic msg at' ys hacc hys msg' at'' holder => ?_, fun id now hclock => ?_⟩
  · obtain ⟨last, hlast, hle⟩ := boot_le_run hys hfind
    rw [run_append, hlast] at hfind'
    cases hfind'
    exact hle
  · obtain ⟨node, hnode, hboot⟩ := find_of_accepted hacc
    obtain ⟨last, hlast, hle⟩ := boot_le_run hys hnode
    rw [run_append, run_cons]
    rw [applyMessage_of_older hlast (lt_of_lt_of_le holder (hboot ▸ hle))]
  · exact (run_inv (fun w op => tracks_step) tracks_init h).evicted_iff hclock id

/-- What a node of boot `boot` registers with. -/
def registering (boot : List UInt8) : Message :=
  ⟨.nodeRegister, [⟨FieldTag.bootId, .bytes boot⟩, ⟨FieldTag.heartbeatIntervalSec, .u32 5⟩]⟩

/-- A node registers with boot `boot`, at `now`. -/
def registration (boot : List UInt8) (now : UInt64) : HubOp :=
  .applyMessage (ascii "node-a") (registering boot) ⟨now, ascii "t", 0⟩

/-- The node that registered at 10 registers anew at 12: its old boot is not
heard any more, and silent from then on it is gone at 28. -/
theorem membership_monotone_silent :
    let w := run step init [registration (ascii "100-1") 10, registration (ascii "200-1") 12]
    (w.hub.nodes.find (ascii "node-a")).isSome ∧
      (w.hub.applyMessage (ascii "node-a") (registering (ascii "100-1"))
        ⟨13, ascii "t", 0⟩).1.nodes.find (ascii "node-a") =
          w.hub.nodes.find (ascii "node-a") ∧
      (w.hub.sweepExpired 28).1.nodes.find (ascii "node-a") = none := by
  have hmsg : ∀ (w : Observed) boot now, w.Sound (registration boot now) := by
    refine fun w boot now => ⟨fun _ => ⟨trivial, by rintro ⟨h, -⟩; cases h⟩, fun v hv => ?_⟩
    cases hv
    decide
  have hfirst : Meets step (fun w op => w.InOrder op ∧ w.Sound op) init
      [registration (ascii "100-1") 10] := ⟨⟨by decide, hmsg _ _ _⟩, trivial⟩
  have hboth : Meets step (fun w op => w.InOrder op ∧ w.Sound op) init
      [registration (ascii "100-1") 10, registration (ascii "200-1") 12] :=
    ⟨⟨by decide, hmsg _ _ _⟩, ⟨by decide, hmsg _ _ _⟩, trivial⟩
  have hevicted := ((membership_monotone hboth).2.2 (ascii "node-a") 28 (by decide)).2
    ⟨⟨ascii "200-1", 12, 5⟩, rfl, by decide⟩
  refine ⟨hevicted.1, ?_, hevicted.2⟩
  exact (membership_monotone hfirst).2.1 (ascii "node-a") (registering (ascii "200-1"))
    ⟨12, ascii "t", 0⟩ [] (by decide) trivial (registering (ascii "100-1")) ⟨13, ascii "t", 0⟩
    (by decide)

/-- Boot 300 announces itself without a status: the entry of boot 200 is
emptied, and boot 100 gets in. -/
theorem not_membership_monotone :
    ¬ ∀ (xs ys : List HubOp) (id : List UInt8) (node node' : ClusterNodeState),
      Meets step InOrder init (xs ++ ys) → Meets step (Keeps id) (run step init xs) ys →
      (run step init xs).hub.nodes.find id = some node →
      (run step init (xs ++ ys)).hub.nodes.find id = some node' →
        bootKey node.bootId ≤ bootKey node'.bootId := by
  intro h
  have hle := h [registration (ascii "200-1") 10]
    [.applyMessage (ascii "node-a") ⟨.nodePresence, [⟨FieldTag.bootId, .bytes (ascii "300-1")⟩]⟩
      ⟨11, ascii "t", 0⟩, registration (ascii "100-1") 12]
    (ascii "node-a") _ _ (by decide) (by decide) rfl rfl
  revert hle
  decide

end Observed

end Eular.Ntrs
