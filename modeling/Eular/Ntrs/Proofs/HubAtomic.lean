/-
When `applyMessage` is atomic.

A message the hub rejects may still have made its node's entry, or emptied
the entry of an older boot: `entryFor` has run when `receive` rejects it.
`applyMessage_cases` says once what a call can do, and
`applyMessage_atomic` is that a rejected message leaves the hub alone
exactly when it does not start an entry over, or is not rejected for it, or
finds the entry empty already.

Where all messages of a run are such, every change counts once in the
version (`exists_changes`), and the version tells the table.
-/
import Eular.Ntrs.HubState

namespace Eular.Ntrs

open Lib

-- ==== messages

namespace Message

def boot (msg : Message) : List UInt8 := safeMsgStringTag msg FieldTag.bootId

/-- The message is for the node of the topic and names a boot. -/
def Addressed (msg : Message) (topicNodeId : List UInt8) : Prop :=
  topicNodeId ≠ [] ∧
    (safeMsgStringTag msg FieldTag.nodeId = [] ∨
      safeMsgStringTag msg FieldTag.nodeId = topicNodeId) ∧
    msg.boot ≠ []

/-- The message has what its type needs. -/
def Complete (msg : Message) : Prop :=
  match msg.type with
  | .nodeRegister | .nodeHeartbeat => True
  | .nodePresence =>
    ∃ code, messageGetU8ByTag msg FieldTag.status = some code ∧ code ≠ NodeStatusCode.unknown
  | .other _ => False

/-- The message says that its node is gone. -/
def Offline (msg : Message) : Prop :=
  msg.type = .nodePresence ∧
    messageGetU8ByTag msg FieldTag.status = some NodeStatusCode.offline

end Message

namespace HubClusterState

variable {s : HubClusterState} {topic : List UInt8} {msg : Message} {at' : Arrival}

theorem receive_eq_none_iff {created : Bool} {node : ClusterNodeState} :
    receive created node topic msg at' = none ↔
      ¬ (msg.Complete ∧ (msg.Offline → node.bootId = msg.boot)) := by
  unfold receive Message.Complete Message.Offline Message.boot
  cases htype : msg.type with
  | nodeRegister => simp
  | nodeHeartbeat => simp
  | other code => simp
  | nodePresence =>
    cases hstatus : messageGetU8ByTag msg FieldTag.status with
    | none => simp
    | some code =>
      by_cases hunknown : code = NodeStatusCode.unknown
      · simp [hunknown]
      · by_cases hoffline : code = NodeStatusCode.offline
        · simp [hoffline, ClusterNodeState.isCurrentGeneration]
        · simp [hunknown, hoffline]

/-- The message makes its node's entry, or empties it for a newer boot. -/
def StartsOver (s : HubClusterState) (topic : List UInt8) (msg : Message) : Prop :=
  msg.Addressed topic ∧
    match s.nodes.find topic with
    | none => ¬ msg.Offline
    | some node => node.bootId ≠ msg.boot ∧ node.shouldReplaceGeneration msg.boot = true

/-- The entry such a message starts from. -/
def blankEntry (s : HubClusterState) (topic : List UInt8) (at' : Arrival) : ClusterNodeState :=
  match s.nodes.find topic with
  | none => createdEntry topic at'
  | some _ => resetEntry topic at'

theorem blankEntry_bootId : (s.blankEntry topic at').bootId = [] := by
  unfold blankEntry
  split <;> rfl

theorem entryFor_of_not_addressed (h : ¬ msg.Addressed topic) :
    s.entryFor topic msg at' = none := by
  unfold entryFor
  unfold Message.Addressed Message.boot at h
  split
  · rfl
  · dsimp only
    split
    · rfl
    · split
      · rfl
      · tauto

theorem entryFor_of_addressed (h : msg.Addressed topic) :
    s.entryFor topic msg at' =
      match s.nodes.find topic with
      | none =>
        if msg.type = .nodePresence
            ∧ messageGetU8ByTag msg FieldTag.status = some NodeStatusCode.offline then none
        else some (true, createdEntry topic at')
      | some node =>
        if !node.isCurrentGeneration msg.boot then
          if !node.shouldReplaceGeneration msg.boot then none
          else some (false, resetEntry topic at')
        else some (false, node) := by
  obtain ⟨htopic, hfield, hboot⟩ := h
  have hmatch : ¬ (safeMsgStringTag msg FieldTag.nodeId ≠ [] ∧
      safeMsgStringTag msg FieldTag.nodeId ≠ topic) := by tauto
  have hboot' : ¬ safeMsgStringTag msg FieldTag.bootId = [] := hboot
  unfold entryFor
  rw [if_neg htopic]
  dsimp only
  rw [if_neg hmatch, if_neg hboot']
  rfl

/-- The entry a message is about: none, its node's of the same boot, or a
blank one. -/
theorem entryFor_cases (s : HubClusterState) (topic : List UInt8) (msg : Message) (at' : Arrival) :
    (s.entryFor topic msg at' = none ∧ ¬ s.StartsOver topic msg) ∨
      (∃ node, s.entryFor topic msg at' = some (false, node) ∧ s.nodes.find topic = some node ∧
        node.bootId = msg.boot) ∨
      (∃ created, s.entryFor topic msg at' = some (created, s.blankEntry topic at') ∧
        s.StartsOver topic msg) := by
  unfold StartsOver blankEntry
  by_cases haddr : msg.Addressed topic
  · rw [entryFor_of_addressed haddr]
    cases hfind : s.nodes.find topic with
    | none =>
      by_cases hoff : msg.Offline
      · left
        exact ⟨if_pos hoff, fun h => h.2 hoff⟩
      · right; right
        exact ⟨true, if_neg hoff, haddr, hoff⟩
    | some node =>
      by_cases hcur : node.bootId = msg.boot
      · right; left
        refine ⟨node, ?_, rfl, hcur⟩
        simp [ClusterNodeState.isCurrentGeneration, hcur]
      · cases hnew : node.shouldReplaceGeneration msg.boot with
        | false =>
          left
          refine ⟨?_, fun h => ?_⟩
          · simp [ClusterNodeState.isCurrentGeneration, hcur, hnew]
          · exact absurd (hnew.symm.trans h.2.2) Bool.false_ne_true
        | true =>
          right; right
          refine ⟨false, ?_, haddr, hcur, hnew⟩
          simp [ClusterNodeState.isCurrentGeneration, hcur, hnew]
  · left
    exact ⟨entryFor_of_not_addressed haddr, fun h => haddr h.1⟩

/-- What a call of `applyMessage` can do: nothing; leave a blank entry
behind for a message it rejects; or take the message into its node's
entry, or into a blank one. -/
theorem applyMessage_cases (s : HubClusterState) (topic : List UInt8) (msg : Message)
    (at' : Arrival) :
    (s.applyMessage topic msg at' = (s, none) ∧ ¬ s.StartsOver topic msg) ∨
      (s.applyMessage topic msg at'
          = ({ s with nodes := s.nodes.insert topic (s.blankEntry topic at') }, none) ∧
        s.StartsOver topic msg ∧ ¬ (msg.Complete ∧ ¬ msg.Offline)) ∨
      ∃ created node event node', receive created node topic msg at' = some (event, node') ∧
        s.applyMessage topic msg at'
          = (⟨s.nodes.insert topic node', s.clusterVersion + 1⟩, some (event, node')) ∧
        ((s.nodes.find topic = some node ∧ node.bootId = msg.boot) ∨
          (node = s.blankEntry topic at' ∧ s.StartsOver topic msg ∧ msg.Complete
            ∧ ¬ msg.Offline)) := by
  rcases entryFor_cases s topic msg at' with ⟨hnone, hover⟩ | ⟨node, hentry, hfind, hcur⟩ |
    ⟨created, hentry, hover⟩
  · left
    exact ⟨by rw [applyMessage, hnone], hover⟩
  · cases hrec : receive false node topic msg at' with
    | none =>
      left
      refine ⟨?_, fun hover => ?_⟩
      · rw [applyMessage, hentry]
        dsimp only
        rw [hrec, SortedMap.insert_of_find hfind]
      · unfold StartsOver at hover
        rw [hfind] at hover
        exact absurd hcur hover.2.1
    | some out =>
      obtain ⟨event, node'⟩ := out
      right; right
      refine ⟨false, node, event, node', hrec, ?_, Or.inl ⟨hfind, hcur⟩⟩
      rw [applyMessage, hentry]
      dsimp only
      rw [hrec]
  · cases hrec : receive created (s.blankEntry topic at') topic msg at' with
    | none =>
      right; left
      refine ⟨?_, hover, ?_⟩
      · rw [applyMessage, hentry]
        dsimp only
        rw [hrec]
      · rintro ⟨hcomplete, hoff⟩
        exact receive_eq_none_iff.1 hrec ⟨hcomplete, fun h => absurd h hoff⟩
    | some out =>
      obtain ⟨event, node'⟩ := out
      right; right
      have hrec' : ¬ receive created (s.blankEntry topic at') topic msg at' = none := by
        rw [hrec]
        exact Option.some_ne_none _
      obtain ⟨hcomplete, hoff⟩ := not_not.1 (mt receive_eq_none_iff.2 hrec')
      refine ⟨created, s.blankEntry topic at', event, node', hrec, ?_,
        Or.inr ⟨rfl, hover, hcomplete, fun h => ?_⟩⟩
      · rw [applyMessage, hentry]
        dsimp only
        rw [hrec]
      · have hboot := hoff h
        rw [blankEntry_bootId] at hboot
        exact hover.1.2.2 hboot.symm

-- ==== atomicity

/-- A message that is rejected leaves the hub alone; one that is taken
counts once in the version and is about its node only. -/
def Atomic (s : HubClusterState) (topic : List UInt8) (msg : Message) (at' : Arrival) : Prop :=
  ((s.applyMessage topic msg at').2 = none → (s.applyMessage topic msg at').1 = s) ∧
    ((s.applyMessage topic msg at').2 ≠ none →
      (s.applyMessage topic msg at').1.clusterVersion = s.clusterVersion + 1 ∧
        ∀ id, id ≠ topic → (s.applyMessage topic msg at').1.nodes.find id = s.nodes.find id)

/-- A message that starts its node's entry over is one that is taken into a
blank entry, or finds the entry blank already. -/
def Settles (s : HubClusterState) (topic : List UInt8) (msg : Message) (at' : Arrival) : Prop :=
  s.StartsOver topic msg →
    (msg.Complete ∧ ¬ msg.Offline) ∨ s.nodes.find topic = some (resetEntry topic at')

theorem atomic_iff : s.Atomic topic msg at' ↔ s.Settles topic msg at' := by
  unfold Atomic Settles
  rcases applyMessage_cases s topic msg at' with ⟨happly, hover⟩ | ⟨happly, hover, hbad⟩ |
    ⟨created, node, event, node', -, happly, hbase⟩
  · rw [happly]
    exact ⟨fun _ h => absurd h hover, fun _ => ⟨fun _ => rfl, fun h => absurd rfl h⟩⟩
  · rw [happly]
    constructor
    · rintro ⟨hsame, -⟩ -
      right
      have hnodes := congrArg HubClusterState.nodes (hsame rfl)
      have hfound : s.nodes.find topic = some (s.blankEntry topic at') := by
        rw [← hnodes]
        exact SortedMap.find_insert_self
      unfold blankEntry at hfound
      cases hfind : s.nodes.find topic with
      | none => simp [hfind] at hfound
      | some old => simpa [hfind] using hfound
    · intro hsettles
      refine ⟨fun _ => ?_, fun h => absurd rfl h⟩
      have hfind := (hsettles hover).resolve_left hbad
      have hblank : s.blankEntry topic at' = resetEntry topic at' := by
        unfold blankEntry
        rw [hfind]
      show { s with nodes := s.nodes.insert topic (s.blankEntry topic at') } = s
      rw [hblank, SortedMap.insert_of_find hfind]
  · rw [happly]
    refine ⟨fun _ hover => ?_, fun _ => ⟨fun h => absurd h (Option.some_ne_none _), fun _ =>
      ⟨rfl, fun id hid => SortedMap.find_insert_of_ne hid⟩⟩⟩
    rcases hbase with ⟨hfind, hcur⟩ | ⟨-, -, hgood⟩
    · unfold StartsOver at hover
      rw [hfind] at hover
      exact absurd hcur hover.2.1
    · exact Or.inl hgood

-- ==== versions

/-- Messages that settle; a sweep always does. -/
def SettlesOp (s : HubClusterState) : HubOp → Prop
  | .applyMessage topic msg at' => s.Settles topic msg at'
  | .sweepExpired _ => True

theorem step_of_settles {op : HubOp} (h : s.SettlesOp op) :
    s.step op = s ∨ (s.step op).clusterVersion = s.clusterVersion + 1 := by
  cases op with
  | applyMessage topic msg at' =>
    obtain ⟨hrejected, htaken⟩ := atomic_iff.2 h
    by_cases hout : (s.applyMessage topic msg at').2 = none
    · exact Or.inl (hrejected hout)
    · exact Or.inr (htaken hout).1
  | sweepExpired now =>
    show (s.sweepExpired now).1 = s ∨ (s.sweepExpired now).1.clusterVersion = s.clusterVersion + 1
    unfold sweepExpired
    dsimp only
    split
    · left
      rename_i hnone
      rw [List.map_eq_nil_iff] at hnone
      have hall : ∀ e ∈ s.nodes.entries, e.2.stays now = true := by
        intro e he
        by_contra hgone
        have hmem : e ∈ (s.nodes.filter fun _ node => !node.stays now).entries :=
          List.mem_filter.2 ⟨he, by simpa using hgone⟩
        rw [hnone] at hmem
        exact absurd hmem List.not_mem_nil
      have hkeep : s.nodes.filter (fun _ node => node.stays now) = s.nodes :=
        SortedMap.ext (List.filter_eq_self.2 hall)
      rw [hkeep]
    · exact Or.inr rfl

theorem exists_changes {ops : List HubOp} {s : HubClusterState} (h : Meets step SettlesOp s ops) :
    ∃ n ≤ ops.length, (run step s ops).clusterVersion = s.clusterVersion + UInt64.ofNat n ∧
      (n = 0 → run step s ops = s) := by
  induction ops generalizing s with
  | nil => exact ⟨0, le_rfl, by simp, fun _ => rfl⟩
  | cons op ops ih =>
    obtain ⟨n, hn, hversion, hsame⟩ := ih h.2
    rw [List.length_cons, run_cons]
    rcases step_of_settles h.1 with hstep | hstep
    · rw [hstep] at hversion hsame ⊢
      exact ⟨n, by omega, hversion, hsame⟩
    · refine ⟨n + 1, by omega, ?_, fun h0 => absurd h0 (Nat.succ_ne_zero n)⟩
      rw [hversion, hstep, add_assoc, add_comm 1 (UInt64.ofNat n), UInt64.ofNat_add]
      rfl

/-- Two moments of a run of settled calls with one version have one table,
if fewer than 2^64 calls lie between them. -/
theorem nodes_eq_of_version_eq {ops : List HubOp} (h : Meets step SettlesOp s ops)
    (hlen : ops.length < 2 ^ 64)
    (hversion : (run step s ops).clusterVersion = s.clusterVersion) :
    (run step s ops).nodes = s.nodes := by
  obtain ⟨n, hn, hcount, hsame⟩ := exists_changes h
  rw [hcount] at hversion
  have hzero : UInt64.ofNat n = 0 := by simpa using hversion
  have hn0 : n = 0 := by
    have htoNat := congrArg UInt64.toNat hzero
    rw [UInt64.toNat_ofNat', Nat.mod_eq_of_lt (by omega)] at htoNat
    exact htoNat
  rw [hsame hn0]

/-- A call is atomic exactly when its message settles; and along a run of
messages that settle the version tells the table. -/
theorem applyMessage_atomic (s : HubClusterState) :
    (∀ topic msg at', s.Atomic topic msg at' ↔ s.Settles topic msg at') ∧
      ∀ xs ys : List HubOp, Meets step SettlesOp s (xs ++ ys) → ys.length < 2 ^ 64 →
        (run step s (xs ++ ys)).clusterVersion = (run step s xs).clusterVersion →
          (run step s (xs ++ ys)).nodes = (run step s xs).nodes := by
  refine ⟨fun topic msg at' => atomic_iff, fun xs ys h hlen hversion => ?_⟩
  rw [run_append] at hversion ⊢
  exact nodes_eq_of_version_eq ((meets_append s xs ys).1 h).2 hlen hversion

/-- What a node of boot `boot` registers with. -/
def registering (boot : String) : HubOp :=
  .applyMessage (ascii "a") ⟨.nodeRegister, [⟨FieldTag.bootId, .bytes (ascii boot)⟩]⟩ ⟨10, [], 0⟩

/-- Boot 1 is not heard once boot 2 has registered, and nothing has expired:
the version tells that the table is as it was. -/
theorem applyMessage_atomic_refused :
    (run step init [registering "2-1", registering "1-1", .sweepExpired 12]).nodes
      = (run step init [registering "2-1"]).nodes := by
  have hsettles : ∀ (s : HubClusterState) boot, s.SettlesOp (registering boot) :=
    fun _ _ _ => .inl ⟨trivial, by rintro ⟨h, -⟩; cases h⟩
  exact (applyMessage_atomic init).2 [registering "2-1"] [registering "1-1", .sweepExpired 12]
    ⟨hsettles _ _, hsettles _ _, trivial, trivial⟩ (by decide) (by decide)

end HubClusterState

-- ==== one node's part

/-- What reaches the entry of a node: the messages on its topic, and the sweeps. -/
def HubOp.concerns (id : List UInt8) : HubOp → Bool
  | .applyMessage topicNodeId _ _ => topicNodeId = id
  | .sweepExpired _ => true

/-- A call but for what memory held when it was made. -/
def HubOp.blind : HubOp → HubOp
  | .applyMessage topicNodeId msg at' => .applyMessage topicNodeId msg { at' with memory := 0 }
  | .sweepExpired now => .sweepExpired now

/-- An entry but for its load, which nothing writes when the entry is made. -/
def ClusterNodeState.unloaded (node : ClusterNodeState) : ClusterNodeState :=
  { node with load := 0 }

namespace HubClusterState

variable {s t : HubClusterState} {topic id : List UInt8} {msg : Message} {at' : Arrival}

/-- The entries of a node agree in all but the load. -/
def Agree (id : List UInt8) (s t : HubClusterState) : Prop :=
  (s.nodes.find id).map ClusterNodeState.unloaded = (t.nodes.find id).map ClusterNodeState.unloaded

/-- The message writes the load of the entry: a heartbeat that is taken, or news of a newer boot. -/
def SetsLoad (s : HubClusterState) (topic : List UInt8) (msg : Message) (at' : Arrival) : Prop :=
  s.entryFor topic msg at' ≠ none ∧ (msg.type = .nodeHeartbeat ∨
    ∃ node, s.nodes.find topic = some node ∧ node.isCurrentGeneration msg.boot = false)

theorem agree_iff : Agree id s t ↔ (s.nodes.find id = none ∧ t.nodes.find id = none) ∨
    ∃ node load, s.nodes.find id = some node ∧ t.nodes.find id = some { node with load } := by
  unfold Agree
  constructor
  · intro h
    cases hs : s.nodes.find id with
    | none =>
      rw [hs] at h
      exact Or.inl ⟨rfl, Option.map_eq_none_iff.mp h.symm⟩
    | some node =>
      rw [hs] at h
      obtain ⟨node', ht, heq⟩ := Option.map_eq_some_iff.mp h.symm
      refine Or.inr ⟨node, node'.load, rfl, ht.trans (congrArg some ?_)⟩
      cases node
      cases node'
      unfold ClusterNodeState.unloaded at heq
      simpa using heq
  · rintro (⟨hs, ht⟩ | ⟨node, load, hs, ht⟩)
    · rw [hs, ht]
    · rw [hs, ht]
      rfl

theorem find_applyMessage_of_ne (h : topic ≠ id) :
    (s.applyMessage topic msg at').1.nodes.find id = s.nodes.find id := by
  rcases applyMessage_cases s topic msg at' with ⟨happly, -⟩ | ⟨happly, -⟩ |
    ⟨_, _, _, _, -, happly, -⟩
  · rw [happly]
  · rw [happly]
    exact SortedMap.find_insert_of_ne h.symm
  · rw [happly]
    exact SortedMap.find_insert_of_ne h.symm

/-- A message finds entries in both hubs, or in neither, and they agree in all but the load. -/
theorem entryFor_agree (h : Agree topic s t) (memory : Int32) :
    (s.entryFor topic msg at' = none ∧ t.entryFor topic msg { at' with memory } = none) ∨
      ∃ created node load, s.entryFor topic msg at' = some (created, node) ∧
        t.entryFor topic msg { at' with memory } = some (created, { node with load }) ∧
        (∀ old, s.nodes.find topic = some old → old.isCurrentGeneration msg.boot = false →
          load = node.load) := by
  by_cases haddr : msg.Addressed topic
  · rw [entryFor_of_addressed haddr, entryFor_of_addressed haddr]
    rcases agree_iff.mp h with ⟨hs, ht⟩ | ⟨node, load, hs, ht⟩
    · rw [hs, ht]
      dsimp only
      split
      · exact Or.inl ⟨rfl, rfl⟩
      · exact Or.inr ⟨true, _, memory, rfl, rfl, fun old hold => by cases hold⟩
    · rw [hs, ht]
      -- the generation of an entry does not read its load
      have hcur : ClusterNodeState.isCurrentGeneration { node with load } msg.boot
          = node.isCurrentGeneration msg.boot := rfl
      have hnew : ClusterNodeState.shouldReplaceGeneration { node with load } msg.boot
          = node.shouldReplaceGeneration msg.boot := rfl
      dsimp only
      rw [hcur, hnew]
      cases hgen : node.isCurrentGeneration msg.boot with
      | true =>
        refine Or.inr ⟨false, node, load, rfl, rfl, fun old hold hold' => ?_⟩
        cases hold
        rw [hgen] at hold'
        cases hold'
      | false =>
        cases node.shouldReplaceGeneration msg.boot with
        | false => exact Or.inl ⟨rfl, rfl⟩
        | true => exact Or.inr ⟨false, resetEntry topic at', 0, rfl, rfl, fun _ _ _ => rfl⟩
  · exact Or.inl ⟨entryFor_of_not_addressed haddr, entryFor_of_not_addressed haddr⟩

/-- The load of an entry decides nothing, and a heartbeat writes it. -/
theorem receive_load (created : Bool) (node : ClusterNodeState) (load memory : Int32) :
    (receive created node topic msg at' = none ∧
        receive created { node with load } topic msg { at' with memory } = none) ∨
      ∃ event node' load', receive created node topic msg at' = some (event, node') ∧
        receive created { node with load } topic msg { at' with memory }
          = some (event, { node' with load := load' }) ∧
        (msg.type = .nodeHeartbeat ∨ load = node.load → load' = node'.load) := by
  have hcur : ClusterNodeState.isCurrentGeneration { node with load }
      = node.isCurrentGeneration := rfl
  unfold receive
  cases htype : msg.type with
  | nodeRegister => exact Or.inr ⟨_, _, load, rfl, rfl, fun h => h.resolve_left (by decide)⟩
  | nodeHeartbeat => exact Or.inr ⟨_, _, _, rfl, rfl, fun _ => rfl⟩
  | other code => exact Or.inl ⟨rfl, rfl⟩
  | nodePresence =>
    cases messageGetU8ByTag msg FieldTag.status with
    | none => exact Or.inl ⟨rfl, rfl⟩
    | some code =>
      dsimp only
      rw [hcur]
      split
      · exact Or.inl ⟨rfl, rfl⟩
      split
      · exact Or.inl ⟨rfl, rfl⟩
      · exact Or.inr ⟨_, _, load, rfl, rfl, fun h => h.resolve_left (by decide)⟩

/-- What one message makes of two entries that agree. -/
theorem agree_applyMessage (h : Agree topic s t) (memory : Int32) :
    Agree topic (s.applyMessage topic msg at').1 (t.applyMessage topic msg { at' with memory }).1 ∧
      (s.SetsLoad topic msg at' → (s.applyMessage topic msg at').1.nodes.find topic
        = (t.applyMessage topic msg { at' with memory }).1.nodes.find topic) := by
  unfold applyMessage SetsLoad
  rcases entryFor_agree h memory with ⟨hs, ht⟩ | ⟨created, node, load, hs, ht, hreset⟩
  · rw [hs, ht]
    exact ⟨h, fun hsets => absurd rfl hsets.1⟩
  · rw [hs, ht]
    dsimp only
    rcases receive_load created node load memory with ⟨hrs, hrt⟩ |
      ⟨event, node', load', hrs, hrt, hload⟩
    · rw [hrs, hrt]
      refine ⟨agree_iff.mpr (Or.inr ⟨node, load, SortedMap.find_insert_self,
        SortedMap.find_insert_self⟩), fun hsets => ?_⟩
      rcases hsets.2 with hbeat | ⟨old, hold, hgen⟩
      · unfold receive at hrs
        rw [hbeat] at hrs
        cases hrs
      · rw [hreset old hold hgen]
        exact SortedMap.find_insert_self.trans SortedMap.find_insert_self.symm
    · rw [hrs, hrt]
      refine ⟨agree_iff.mpr (Or.inr ⟨node', load', SortedMap.find_insert_self,
        SortedMap.find_insert_self⟩), fun hsets => ?_⟩
      have heq : load' = node'.load := by
        rcases hsets.2 with hbeat | ⟨old, hold, hgen⟩
        · exact hload (Or.inl hbeat)
        · exact hload (Or.inr (hreset old hold hgen))
      rw [heq]
      exact SortedMap.find_insert_self.trans SortedMap.find_insert_self.symm

theorem agree_step (h : Agree id s t) {op op' : HubOp} (hop : op.blind = op'.blind) :
    Agree id (s.step op) (t.step op') := by
  cases op with
  | sweepExpired now =>
    cases op' with
    | applyMessage _ _ _ => cases hop
    | sweepExpired now' =>
      cases hop
      show Option.map _ ((s.nodes.filter _).find id) = Option.map _ ((t.nodes.filter _).find id)
      rw [SortedMap.find_filter, SortedMap.find_filter]
      rcases agree_iff.mp h with ⟨hs, ht⟩ | ⟨node, load, hs, ht⟩
      · rw [hs, ht]
      · rw [hs, ht]
        have hstays : ClusterNodeState.stays { node with load } now = node.stays now := rfl
        simp only [Option.filter_some, hstays]
        split <;> rfl
  | applyMessage topic msg at' =>
    cases op' with
    | sweepExpired _ => cases hop
    | applyMessage topic' msg' at'' =>
      have hsame : topic = topic' ∧ msg = msg' ∧ at'' = { at' with memory := at''.memory } := by
        cases at'
        cases at''
        unfold HubOp.blind at hop
        simp_all
      obtain ⟨rfl, rfl, hat⟩ := hsame
      by_cases htopic : topic = id
      · subst htopic
        rw [hat]
        exact (agree_applyMessage h at''.memory).1
      · show Option.map _ ((s.applyMessage ..).1.nodes.find id)
          = Option.map _ ((t.applyMessage ..).1.nodes.find id)
        rw [find_applyMessage_of_ne htopic, find_applyMessage_of_ne htopic]
        exact h

theorem find_run_filter (s : HubClusterState) (ops : List HubOp) :
    Agree id (run step s ops) (run step s (ops.filter (·.concerns id))) := by
  suffices hrun : ∀ {t}, Agree id s t →
      Agree id (run step s ops) (run step t (ops.filter (·.concerns id))) from hrun rfl
  induction ops generalizing s with
  | nil => exact fun h => h
  | cons op ops ih =>
    intro t h
    by_cases hop : op.concerns id = true
    · rw [List.filter_cons_of_pos hop, run_cons, run_cons]
      exact ih _ (agree_step h rfl)
    · rw [List.filter_cons_of_neg hop, run_cons]
      refine ih _ (Eq.trans (congrArg _ ?_) h)
      cases op with
      | sweepExpired now => exact absurd rfl hop
      | applyMessage topic msg at' =>
        exact find_applyMessage_of_ne fun heq => hop (by simpa [HubOp.concerns] using heq)

theorem agree_run (h : Agree id s t) {xs ys : List HubOp}
    (hsame : xs.map HubOp.blind = ys.map HubOp.blind) :
    Agree id (run step s xs) (run step t ys) := by
  induction xs generalizing s t ys with
  | nil =>
    rw [List.map_nil, List.nil_eq, List.map_eq_nil_iff] at hsame
    rw [hsame]
    exact h
  | cons x xs ih =>
    cases ys with
    | nil => cases hsame
    | cons y ys =>
      rw [List.map_cons, List.map_cons, List.cons.injEq] at hsame
      rw [run_cons, run_cons]
      exact ih (agree_step h hsame.1) hsame.2

/-- Two hubs whose entries for a node agree in all but the load, and that take the messages on its
topic and the sweeps in the same order, keep such entries, whatever else they hold and are told,
and whatever memory the entries are made in. A message that writes the load makes them equal. -/
theorem same_entry (h : Agree id s t) {xs ys : List HubOp}
    (hsame : (xs.filter (·.concerns id)).map HubOp.blind
      = (ys.filter (·.concerns id)).map HubOp.blind) :
    Agree id (run step s xs) (run step t ys) ∧
      ∀ msg at' memory, (run step s xs).SetsLoad id msg at' →
        ((run step s xs).applyMessage id msg at').1.nodes.find id
          = ((run step t ys).applyMessage id msg { at' with memory }).1.nodes.find id := by
  have hagree : Agree id (run step s xs) (run step t ys) :=
    calc (run step s xs).nodes.find id |>.map ClusterNodeState.unloaded
      _ = ((run step s (xs.filter (·.concerns id))).nodes.find id).map _ := find_run_filter s xs
      _ = ((run step t (ys.filter (·.concerns id))).nodes.find id).map _ := agree_run h hsame
      _ = ((run step t ys).nodes.find id).map _ := (find_run_filter t ys).symm
  exact ⟨hagree, fun msg at' memory hsets => (agree_applyMessage hagree memory).2 hsets⟩

/-- A register message, with what memory held where its entry is made. -/
def news (node : String) (memory : Int32) : HubOp :=
  .applyMessage (ascii node) ⟨.nodeRegister, [⟨FieldTag.bootId, .bytes (ascii "1-1")⟩]⟩
    ⟨10, [], memory⟩

def beat : Message := ⟨.nodeHeartbeat, [⟨FieldTag.bootId, .bytes (ascii "1-1")⟩]⟩

theorem same_entry_other :
    let s := run step init [news "a" 7, .sweepExpired 12]
    let t := run step init [news "b" 0, news "a" 9, news "b" 3, .sweepExpired 12]
    Agree (ascii "a") s t ∧ s.nodes.find (ascii "a") ≠ t.nodes.find (ascii "a") ∧
      (s.applyMessage (ascii "a") beat ⟨13, [], 0⟩).1.nodes.find (ascii "a")
        = (t.applyMessage (ascii "a") beat ⟨13, [], 1⟩).1.nodes.find (ascii "a") :=
  have hinit : Agree (ascii "a") init init := rfl
  have hnews : ([news "a" 7, .sweepExpired 12].filter (·.concerns (ascii "a"))).map HubOp.blind
      = ([news "b" 0, news "a" 9, news "b" 3, .sweepExpired 12].filter
          (·.concerns (ascii "a"))).map HubOp.blind := rfl
  have hsame := same_entry hinit hnews
  ⟨hsame.1, by decide, hsame.2 beat ⟨13, [], 0⟩ 1 ⟨by decide, Or.inl rfl⟩⟩

end HubClusterState

-- ==== a last will

/-- A presence message of boot 100 without a status. -/
def bareNews : Message where
  type := .nodePresence
  fields := [⟨FieldTag.bootId, .bytes (ascii "100-1")⟩]

/-- The hub rejects it and keeps an entry for its node. -/
theorem HubClusterState.not_atomic_bare :
    ¬ HubClusterState.init.Atomic (ascii "node-a") bareNews ⟨10, ascii "t", 0⟩ := by
  rintro ⟨hsame, -⟩
  have hnodes := congrArg (fun s => s.nodes.entries.length) (hsame (by decide))
  revert hnodes
  decide

end Eular.Ntrs
