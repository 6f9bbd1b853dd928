/-
What a hub that restores a snapshot has of the hub that built it.

A hub's table keeps every node under its own id (`Keyed`), in the order of
the ids, so the nodes of a table restore it (`restoreLoop_values`). The
message has room for what is left of the packed nodes after their number has
been narrowed to 16 bits; if that is not all of them it is not unpacked
(`not_decode_of_cut`), and so the round trip is there exactly as long as the
packed nodes are fewer than 2^16 bytes or nothing is built
(`snapshot_round_trip`).
-/
import Eular.Ntrs.Proofs.HubAtomic
import Eular.Ntrs.Proofs.Snapshot
import Eular.Ntrs.Proofs.CodecRoundTrip

namespace Eular.Ntrs

open Lib

variable {nodes : List ClusterNodeState}

-- ==== tables

/-- Every node is under its own id, and no id is empty. -/
def Keyed (table : SortedMap (List UInt8) ClusterNodeState) : Prop :=
  ∀ e ∈ table.entries, e.2.nodeId = e.1 ∧ e.1 ≠ []

variable {table : SortedMap (List UInt8) ClusterNodeState}

theorem keyed_empty : Keyed .empty := fun _ h => nomatch h

theorem Keyed.insert (h : Keyed table) {id : List UInt8} {node : ClusterNodeState}
    (hid : id ≠ []) (hnode : node.nodeId = id) : Keyed (table.insert id node) := by
  intro e he
  rcases (mem_put table.sorted).1 he with rfl | ⟨he, -⟩
  · exact ⟨hnode, hid⟩
  · exact h e he

theorem Keyed.filter (h : Keyed table) (p : List UInt8 → ClusterNodeState → Bool) :
    Keyed (table.filter p) :=
  fun e he => h e (List.mem_of_mem_filter he)

theorem Keyed.restoreLoop (h : Keyed table)
    {table' : SortedMap (List UInt8) ClusterNodeState}
    (hrestore : HubClusterState.restoreLoop table nodes = some table') : Keyed table' := by
  induction nodes generalizing table with
  | nil =>
    cases hrestore
    exact h
  | cons node nodes ih =>
    unfold HubClusterState.restoreLoop at hrestore
    split at hrestore
    · cases hrestore
    · rename_i hnew
      exact ih (h.insert (fun hid => hnew (.inl hid)) rfl) hrestore

theorem restoreLoop_append {table' : SortedMap (List UInt8) ClusterNodeState}
    {rest : List (List UInt8 × ClusterNodeState)}
    (hentries : table'.entries = table.entries ++ rest) (h : Keyed table') :
    HubClusterState.restoreLoop table (rest.map Prod.snd) = some table' := by
  induction rest generalizing table with
  | nil =>
    rw [List.append_nil] at hentries
    exact congrArg some (SortedMap.ext hentries.symm)
  | cons e rest ih =>
    have hsorted : (table.entries ++ e :: rest).Pairwise fun a b => a.1 < b.1 :=
      hentries ▸ table'.sorted
    have hbelow : ∀ a ∈ table.entries, a.1 < e.1 := fun a ha =>
      (List.pairwise_append.1 hsorted).2.2 a ha e List.mem_cons_self
    obtain ⟨hid, hne⟩ := h e (by rw [hentries]; exact List.mem_append_right _ List.mem_cons_self)
    rw [List.map_cons, HubClusterState.restoreLoop, hid, SortedMap.find_of_lt hbelow,
      if_neg (by rintro (hnil | hsome); exacts [hne hnil, Bool.noConfusion hsome])]
    refine ih ?_
    rw [SortedMap.entries_insert_of_lt hbelow, hentries, List.append_assoc]
    rfl

def valuesOf (table : SortedMap (List UInt8) ClusterNodeState) : List ClusterNodeState :=
  table.entries.map Prod.snd

theorem restoreLoop_values (h : Keyed table) :
    HubClusterState.restoreLoop .empty (valuesOf table) = some table :=
  restoreLoop_append (List.nil_append _).symm h

theorem Keyed.ids (h : Keyed table) :
    (valuesOf table).map ClusterNodeState.nodeId = table.entries.map Prod.fst := by
  rw [valuesOf, List.map_map]
  exact List.map_congr_left fun e he => (h e he).1

theorem Keyed.nodeId_ne_nil (h : Keyed table) : ∀ node ∈ valuesOf table, node.nodeId ≠ [] := by
  intro node hnode
  obtain ⟨e, he, rfl⟩ := List.mem_map.1 hnode
  rw [(h e he).1]
  exact (h e he).2

-- ==== runs

namespace HubClusterState

theorem receive_nodeId {created : Bool} {node node' : ClusterNodeState} {topic event : List UInt8}
    {msg : Message} {at' : Arrival}
    (h : receive created node topic msg at' = some (event, node')) : node'.nodeId = topic := by
  unfold receive at h
  cases htype : msg.type with
  | nodeRegister =>
    simp only [htype] at h
    cases h
    rfl
  | nodeHeartbeat =>
    simp only [htype] at h
    cases h
    rfl
  | other code => simp [htype] at h
  | nodePresence =>
    simp only [htype] at h
    split at h
    · cases h
    · split at h
      · cases h
      · split at h
        · cases h
        · cases h
          rfl

theorem blankEntry_nodeId (s : HubClusterState) (topic : List UInt8) (at' : Arrival) :
    (s.blankEntry topic at').nodeId = topic := by
  unfold blankEntry
  split
  · rfl
  · rfl

theorem keyed_applyMessage {s : HubClusterState} (h : Keyed s.nodes) (topic : List UInt8)
    (msg : Message) (at' : Arrival) : Keyed (s.applyMessage topic msg at').1.nodes := by
  rcases applyMessage_cases s topic msg at' with ⟨happly, -⟩ | ⟨happly, hover, -⟩ |
    ⟨created, node, event, node', hreceive, happly, hbase⟩
  · rw [happly]
    exact h
  · rw [happly]
    exact h.insert hover.1.1 (blankEntry_nodeId s topic at')
  · rw [happly]
    refine h.insert ?_ (receive_nodeId hreceive)
    rcases hbase with ⟨hfind, -⟩ | ⟨-, hover, -⟩
    · exact (h _ (SortedMap.find_eq_some_iff.1 hfind)).2
    · exact hover.1.1

theorem keyed_restoreFromNodes {s : HubClusterState} (h : Keyed s.nodes) (cluster_version : UInt64)
    (nodes : List ClusterNodeState) : Keyed (s.restoreFromNodes cluster_version nodes).2.nodes := by
  unfold restoreFromNodes
  split
  · exact h
  · cases hrestore : restoreLoop s.nodes nodes with
    | none => exact keyed_empty
    | some table => exact h.restoreLoop hrestore

theorem keyed_stepWithRestore (s : HubClusterState) (op : SnapshotOp) (h : Keyed s.nodes) :
    Keyed (s.stepWithRestore op).nodes := by
  cases op with
  | hub op =>
    cases op with
    | applyMessage topic msg at' => exact keyed_applyMessage h topic msg at'
    | sweepExpired now => exact h.filter _
  | restoreFromNodes cluster_version nodes => exact keyed_restoreFromNodes h cluster_version nodes
  | restoreFromSnapshot msg =>
    show Keyed (s.restoreFromSnapshot msg).2.nodes
    unfold restoreFromSnapshot
    split
    · exact h
    · cases parseClusterSnapshotMessage msg with
      | none => exact h
      | some parsed => exact keyed_restoreFromNodes h parsed.1 parsed.2

theorem keyed_run (ops : List SnapshotOp) : Keyed (run stepWithRestore init ops).nodes :=
  run_inv_of_step (P := fun s : HubClusterState => Keyed s.nodes) keyed_stepWithRestore ops
    keyed_empty

end HubClusterState

-- ==== sizes

/-- What a node takes: its strings, each behind two bytes, and 16 bytes of numbers. -/
def ClusterNodeState.packedSize (node : ClusterNodeState) : Nat :=
  32 + node.nodeId.length + node.bootId.length + node.status.length + node.region.length
    + node.probeEndpoint.length + node.controlEndpoint.length + node.natType.length
    + node.lastHeartbeat.length

theorem length_texts (text : ShortText) : (texts.encode text).length = 2 + text.1.length := by
  show (bigEndian 2 text.1.length ++ text.1).length = _
  rw [List.length_append, length_bigEndian]

theorem length_packedNodes (n : PackedNode) :
    (packedNodes.encode n).length = n.1.1.packedSize := by
  obtain ⟨⟨node, hshort⟩, hid⟩ := n
  have hnumbers (i : UInt32 × UInt64 × Int32) : (numbers.encode i).length = 16 := by
    show (appendNumbers i.1 i.2.1 i.2.2).length = 16
    simp [appendNumbers]
  have hprod {β γ : Type} (R : Records UInt8 β) (S : Records UInt8 γ) (b : β × γ) :
      ((R.prod S).encode b).length = (R.encode b.1).length + (S.encode b.2).length :=
    List.length_append
  show (nodeParts.encode (nodeEquiv.symm ⟨node, hshort⟩)).length = node.packedSize
  unfold nodeParts ClusterNodeState.packedSize
  simp only [hprod, length_texts, hnumbers]
  show 2 + node.nodeId.length + (2 + node.bootId.length + (2 + node.status.length
    + (2 + node.region.length + (2 + node.probeEndpoint.length + (2 + node.controlEndpoint.length
    + (2 + node.natType.length + (2 + node.lastHeartbeat.length + 16))))))) = _
  omega

/-- What the nodes of a snapshot take, behind a version and their number. -/
def snapshotSize (nodes : List ClusterNodeState) : Nat :=
  3 + (nodes.map ClusterNodeState.packedSize).sum

theorem length_packedBytes (l : List PackedNode) :
    (packedBytes l).length = snapshotSize (statesOf l) := by
  have hsum : (packedNodes.written l).length
      = ((statesOf l).map ClusterNodeState.packedSize).sum := by
    induction l with
    | nil => rfl
    | cons n l ih =>
      rw [Records.written_cons, List.length_append, length_packedNodes, ih]
      rfl
  unfold packedBytes snapshotSize
  rw [List.cons_append, List.length_cons, List.length_append, length_bigEndian, hsum]
  omega

theorem packedBytes_append_inj {l m : List PackedNode} {t : List UInt8} (hl : l.length ≤ 0xFFFF)
    (hm : m.length ≤ 0xFFFF) (h : packedBytes l = packedBytes m ++ t) : l = m ∧ t = [] := by
  have htail := (List.cons.inj h).2
  have htail : bigEndian 2 l.length ++ packedNodes.written l
      = bigEndian 2 m.length ++ (packedNodes.written m ++ t) := by
    rw [← List.append_assoc]
    exact htail
  obtain ⟨hnumber, hwritten⟩ := List.append_inj htail
    (by rw [length_bigEndian, length_bigEndian])
  have hcount : l.length = m.length := by
    have hvalue := congrArg ofBigEndian hnumber
    rw [ofBigEndian_bigEndian, ofBigEndian_bigEndian] at hvalue
    omega
  have hread := packedNodes.readUpTo_written m t
  rw [← hwritten, ← hcount] at hread
  have hall := packedNodes.readUpTo_written l []
  rw [List.append_nil, hread] at hall
  exact ⟨(congrArg Prod.fst hall).symm, congrArg Prod.snd hall⟩

theorem readMem_getD {s : List UInt8} {n : Nat} (h : n ≤ s.length) :
    readMem (fun i => s.getD i 0) 0 n = s.take n := by
  refine List.ext_getElem (by simp [h]) fun i h1 h2 => ?_
  have hi : i < s.length := by
    rw [List.length_take] at h2
    omega
  simp only [readMem, List.getElem_map, List.getElem_range, Nat.zero_add, List.getElem_take]
  exact List.getD_eq_getElem _ _ hi

theorem decode_list_iff {bytes : List UInt8} :
    decodeClusterSnapshotNodes (fun i => bytes.getD i 0) bytes.length = some nodes
      ↔ ∃ l : List PackedNode, nodes = statesOf l ∧ l.length ≤ 0xFFFF ∧ bytes = packedBytes l := by
  have hread := readMem_getD (Nat.le_refl bytes.length)
  rw [List.take_length] at hread
  rw [decode_iff, hread]

theorem not_decode_of_cut {l : List PackedNode} (hl : l.length ≤ 0xFFFF) {n : Nat}
    (hn : n < (packedBytes l).length) :
    decodeClusterSnapshotNodes (fun i => ((packedBytes l).take n).getD i 0)
      ((packedBytes l).take n).length = none := by
  rw [Option.eq_none_iff_forall_ne_some]
  intro nodes hdecode
  obtain ⟨m, -, hm, hbytes⟩ := decode_list_iff.1 hdecode
  have hsplit := List.take_append_drop n (packedBytes l)
  rw [hbytes] at hsplit
  have hnil := (packedBytes_append_inj hl hm hsplit.symm).2
  have hlength := congrArg List.length hnil
  rw [List.length_drop, List.length_nil] at hlength
  omega

-- ==== messages

def snapshotFields (clusterVersion : UInt64) (count : UInt32) (encoded_nodes ts : List UInt8) :
    List Codec.MessageField :=
  [⟨some "clusterVersion", CLUSTER_VERSION, .u64 clusterVersion⟩,
    ⟨some "node_count", NODE_COUNT, .u32 count⟩, ⟨some "nodes", NODES, .bytes encoded_nodes⟩,
    ⟨some "ts", FieldTag.ts, .bytes ts⟩]

/-- What is left of a length in 16 bits. -/
def cut (s : List UInt8) : List UInt8 := s.take (s.length % 2 ^ 16)

theorem length_cut (s : List UInt8) : (cut s).length = s.length % 2 ^ 16 := by
  rw [cut, List.length_take]
  exact min_eq_left (Nat.mod_le _ _)

theorem toNat_ofNat_length (s : List UInt8) : (UInt16.ofNat s.length).toNat = s.length % 2 ^ 16 :=
  UInt16.toNat_ofNat'

section Appending

variable {msg : Codec.Message} {d : Codec.FieldDef}

theorem append_number (hd : d ∈ Codec.kFieldDefs) {value : FieldValue}
    (hvalue : Codec.valueType value ≠ .bytes) (hfew : msg.fields.length < Codec.MAX_FIELDS) :
    Codec.appendFieldByTag msg d.tag value = (true, msg.push ⟨some d.key, d.tag, value⟩) := by
  unfold Codec.appendFieldByTag
  rw [Codec.findFieldDefByTag_tag hd, if_neg]
  · rfl
  · rintro (hmany | ⟨hbytes, -⟩)
    · exact absurd hmany (not_le.2 hfew)
    · exact hvalue hbytes

theorem append_bytes (hd : d ∈ Codec.kFieldDefs) (value : List UInt8)
    (hfew : msg.fields.length < Codec.MAX_FIELDS) {n : Nat} (hn : msg.storage_len = n) :
    Codec.appendFieldByTag msg d.tag (.bytes value)
      = if Codec.STORAGE_SIZE < n + value.length + 1 then (false, msg)
        else (true, msg.push ⟨some d.key, d.tag, .bytes value⟩) := by
  subst hn
  have hfull : msg.Full (.bytes value)
      ↔ Codec.STORAGE_SIZE < msg.storage_len + value.length + 1 :=
    ⟨fun h => (h.resolve_left (not_le.2 hfew)).2, fun h => .inr ⟨rfl, h⟩⟩
  unfold Codec.appendFieldByTag
  rw [Codec.findFieldDefByTag_tag hd]
  exact if_congr hfull rfl rfl

end Appending

/-- There is room for what is left of the nodes and of the time. -/
def HasRoom (size : Nat) (ts : List UInt8) : Prop :=
  size % 2 ^ 16 + 1 + ((cString ts).length % 2 ^ 16 + 1) ≤ Codec.STORAGE_SIZE

instance (size : Nat) (ts : List UInt8) : Decidable (HasRoom size ts) :=
  inferInstanceAs (Decidable (_ ≤ _))

theorem build_eq {packed : List UInt8} (h : encodeClusterSnapshotNodes table = some packed)
    (clusterVersion : UInt64) (ts : List UInt8) :
    buildClusterSnapshotMessage table clusterVersion ts
      = if HasRoom packed.length ts then
          some (Codec.assembled HUB_CLUSTER_SNAPSHOT clusterVersion.toUInt32
            (snapshotFields clusterVersion (UInt32.ofNat table.entries.length) (cut packed)
              (cut (cString ts))))
        else none := by
  have hread : readMem (fun i => packed.getD i 0) 0 (UInt16.ofNat packed.length).toNat
      = cut packed := by
    rw [toNat_ofNat_length]
    exact readMem_getD (Nat.mod_le _ _)
  have hts : Codec.narrowed (cString ts) = .bytes (cut (cString ts)) := by
    unfold Codec.narrowed
    rw [toNat_ofNat_length]
    rfl
  unfold buildClusterSnapshotMessage
  rw [h]
  dsimp only [Codec.messageAddU64ByTag, Codec.messageAddU32ByTag, Codec.messageAddBytesByTag,
    Codec.messageAddStringByTag, Codec.bytesAt, Option.isNone, Option.getD]
  rw [hread, hts, append_number (d := ⟨"clusterVersion", CLUSTER_VERSION, .u64⟩) (by decide)
    (by rintro ⟨⟩) (Nat.le_of_ble_eq_true rfl)]
  dsimp only
  rw [append_number (d := ⟨"node_count", NODE_COUNT, .u32⟩) (by decide) (by rintro ⟨⟩)
    (Nat.le_of_ble_eq_true rfl)]
  dsimp only
  rw [if_neg (fun hnone => Bool.noConfusion hnone.1),
    append_bytes (d := ⟨"nodes", NODES, .bytes⟩) (n := 0) (by decide) _
      (Nat.le_of_ble_eq_true rfl) rfl]
  by_cases hfull : Codec.STORAGE_SIZE < 0 + (cut packed).length + 1
  · rw [if_pos hfull, if_neg]
    rw [length_cut] at hfull
    unfold HasRoom
    omega
  · rw [if_neg hfull]
    dsimp only
    rw [append_bytes (d := ⟨"ts", FieldTag.ts, .bytes⟩) (n := 0 + ((cut packed).length + 1))
      (by decide) _ (Nat.le_of_ble_eq_true rfl) rfl]
    have hstored : Codec.STORAGE_SIZE
          < 0 + ((cut packed).length + 1) + (cut (cString ts)).length + 1
        ↔ ¬ HasRoom packed.length ts := by
      rw [length_cut, length_cut]
      unfold HasRoom
      omega
    by_cases hroom : HasRoom packed.length ts
    · rw [if_pos hroom, if_neg fun hno => hstored.1 hno hroom]
      rfl
    · rw [if_neg hroom, if_pos (hstored.2 hroom)]

section Parsing

variable {clusterVersion : UInt64} {count : UInt32} {encoded_nodes ts : List UInt8}

theorem regular_snapshotFields (request_id : UInt32) (clusterVersion : UInt64) (count : UInt32)
    (hnodes : encoded_nodes.length < 2 ^ 16)
    (hts : ts.length < 2 ^ 16)
    (hroom : encoded_nodes.length + 1 + (ts.length + 1) ≤ Codec.STORAGE_SIZE) :
    (Codec.assembled HUB_CLUSTER_SNAPSHOT request_id
      (snapshotFields clusterVersion count encoded_nodes ts)).Regular := by
  refine Codec.regular_assembled ?_ (Nat.le_of_ble_eq_true rfl) ?_
  · intro f hf
    simp only [snapshotFields, List.mem_cons, List.not_mem_nil, or_false] at hf
    rcases hf with rfl | rfl | rfl | rfl
    · exact ⟨⟨"clusterVersion", CLUSTER_VERSION, .u64⟩, by decide, rfl, rfl, rfl, trivial⟩
    · exact ⟨⟨"node_count", NODE_COUNT, .u32⟩, by decide, rfl, rfl, rfl, trivial⟩
    · exact ⟨⟨"nodes", NODES, .bytes⟩, by decide, rfl, rfl, rfl, hnodes⟩
    · exact ⟨⟨"ts", FieldTag.ts, .bytes⟩, by decide, rfl, rfl, rfl, hts⟩
  · show 0 + (0 + (encoded_nodes.length + 1 + (ts.length + 1 + 0))) ≤ _
    omega

theorem parse_snapshotFields {request_id : UInt32}
    (h : (Codec.assembled HUB_CLUSTER_SNAPSHOT request_id
      (snapshotFields clusterVersion count encoded_nodes ts)).Regular) :
    parseClusterSnapshotMessage (Codec.assembled HUB_CLUSTER_SNAPSHOT request_id
        (snapshotFields clusterVersion count encoded_nodes ts))
      = (decodeClusterSnapshotNodes (fun i => encoded_nodes.getD i 0) encoded_nodes.length).bind
        fun nodes => if nodes.length ≠ count.toNat then none else some (clusterVersion, nodes) := by
  have hversion : Codec.messageGetU64 (Codec.assembled HUB_CLUSTER_SNAPSHOT request_id
      (snapshotFields clusterVersion count encoded_nodes ts)) "clusterVersion"
      = some clusterVersion := rfl
  have hcount : Codec.messageGetU32ByTag (Codec.assembled HUB_CLUSTER_SNAPSHOT request_id
      (snapshotFields clusterVersion count encoded_nodes ts)) NODE_COUNT = some count := by
    unfold Codec.messageGetU32ByTag
    rw [Codec.findFieldByTag_eq h]
    rfl
  have hnodes : Codec.messageGetBytesByTag (Codec.assembled HUB_CLUSTER_SNAPSHOT request_id
      (snapshotFields clusterVersion count encoded_nodes ts)) NODES = some encoded_nodes := by
    unfold Codec.messageGetBytesByTag
    rw [Codec.findFieldByTag_eq h]
    rfl
  unfold parseClusterSnapshotMessage
  rw [if_neg (fun htype => htype rfl), hversion, hcount, hnodes]
  dsimp only
  cases decodeClusterSnapshotNodes (fun i => encoded_nodes.getD i 0) encoded_nodes.length with
  | none => rfl
  | some nodes => rfl

end Parsing

-- ==== round trip

theorem exists_statesOf
    (h : ∀ node ∈ nodes, node.nodeId ≠ [] ∧ node.Short) :
    ∃ l : List PackedNode, nodes = statesOf l := by
  induction nodes with
  | nil => exact ⟨[], rfl⟩
  | cons node nodes ih =>
    obtain ⟨⟨hid, hshort⟩, hnodes⟩ := List.forall_mem_cons.1 h
    obtain ⟨l, rfl⟩ := ih hnodes
    exact ⟨⟨⟨node, hshort⟩, hid⟩ :: l, rfl⟩

namespace HubClusterState

/-- What is built of a hub and encoded, decoded and restored makes the hub again. -/
def RoundTrips (s : HubClusterState) (ts : List UInt8) : Prop :=
  ∀ msg, buildClusterSnapshotMessage s.nodes s.clusterVersion ts = some msg →
    ∀ cap bytes, Codec.encodeMessage msg cap = some bytes →
      ∀ data, readMem data 0 bytes.length = bytes → ∀ fuel, bytes.length ≤ fuel →
        ∃ decoded, Codec.decodeMessage data bytes.length fuel = some (true, decoded)
          ∧ init.restoreFromSnapshot decoded = (true, s)

/-- The nodes are not too many, and their strings not too long, to be packed. -/
def Packable (s : HubClusterState) : Prop :=
  s.nodes.entries.length ≤ 0xFFFF ∧ ∀ node ∈ valuesOf s.nodes, node.Short

/-- The packed nodes are fewer than 2^16 bytes, or the snapshot is refused. -/
def SnapshotFits (s : HubClusterState) (ts : List UInt8) : Prop :=
  s.Packable → HasRoom (snapshotSize (valuesOf s.nodes)) ts →
    snapshotSize (valuesOf s.nodes) < 2 ^ 16

variable {s : HubClusterState}

theorem packable_iff (h : Keyed s.nodes) :
    s.Packable ↔ ∃ l : List PackedNode, valuesOf s.nodes = statesOf l ∧ l.length ≤ 0xFFFF := by
  have hlength : (valuesOf s.nodes).length = s.nodes.entries.length := List.length_map _
  constructor
  · rintro ⟨hcount, hshort⟩
    obtain ⟨l, hl⟩ := exists_statesOf fun node hnode => ⟨h.nodeId_ne_nil node hnode,
      hshort node hnode⟩
    have hsame : (statesOf l).length = l.length := List.length_map _
    refine ⟨l, hl, ?_⟩
    rw [← hsame, ← hl, hlength]
    exact hcount
  · rintro ⟨l, hl, hcount⟩
    have hsame : (statesOf l).length = l.length := List.length_map _
    refine ⟨?_, fun node hnode => ?_⟩
    · rw [← hlength, hl, hsame]
      exact hcount
    · rw [hl] at hnode
      obtain ⟨n, -, rfl⟩ := List.mem_map.1 hnode
      exact n.1.2

/-- Of a snapshot that was built the hub is restored exactly if no byte of its nodes is lost. -/
theorem restore_built {l : List PackedNode} (h : Keyed s.nodes)
    (hnodes : valuesOf s.nodes = statesOf l) (hl : l.length ≤ 0xFFFF) {ts : List UInt8}
    (hroom : HasRoom (packedBytes l).length ts) :
    ∃ msg, buildClusterSnapshotMessage s.nodes s.clusterVersion ts = some msg ∧ msg.Regular
      ∧ msg.type ≠ 0
      ∧ (init.restoreFromSnapshot msg = (true, s) ↔ (packedBytes l).length < 2 ^ 16) := by
  have hencode : encodeClusterSnapshotNodes s.nodes = some (packedBytes l) := by
    show encodeNodes (valuesOf s.nodes) = _
    rw [hnodes, encodeNodes_eq hl]
  have hregular := regular_snapshotFields s.clusterVersion.toUInt32 s.clusterVersion
    (UInt32.ofNat s.nodes.entries.length)
    (show (cut (packedBytes l)).length < 2 ^ 16 by
      rw [length_cut]; exact Nat.mod_lt _ (Nat.two_pow_pos 16))
    (show (cut (cString ts)).length < 2 ^ 16 by
      rw [length_cut]; exact Nat.mod_lt _ (Nat.two_pow_pos 16))
    (by rw [length_cut, length_cut]; exact hroom)
  refine ⟨_, (build_eq hencode _ ts).trans (if_pos hroom), hregular, ?_, ?_⟩
  · intro htype
    cases htype
  · unfold restoreFromSnapshot
    rw [if_neg (by rintro (hne | hne); exacts [hne rfl, hne rfl]), parse_snapshotFields hregular]
    by_cases hall : (packedBytes l).length < 2 ^ 16
    · have hcut : cut (packedBytes l) = packedBytes l := by
        rw [cut, Nat.mod_eq_of_lt hall, List.take_length]
      have hcount : (statesOf l).length = (UInt32.ofNat s.nodes.entries.length).toNat := by
        have hlength : (valuesOf s.nodes).length = s.nodes.entries.length := List.length_map _
        have hsame : (statesOf l).length = l.length := List.length_map _
        have hsmall : s.nodes.entries.length < UInt32.size := by
          rw [← hlength, hnodes, hsame]
          exact hl.trans_lt (by decide)
        rw [UInt32.toNat_ofNat_of_lt' hsmall, ← hlength, hnodes]
      rw [hcut, decode_list_iff.2 ⟨l, rfl, hl, rfl⟩, Option.bind_some, if_neg (not_not.2 hcount)]
      refine iff_of_true ?_ hall
      show init.restoreFromNodes s.clusterVersion (statesOf l) = _
      unfold restoreFromNodes
      rw [if_neg (by rintro (hne | hne); exacts [hne rfl, hne rfl]), ← hnodes]
      have hrestore : restoreLoop init.nodes (valuesOf s.nodes) = some s.nodes :=
        restoreLoop_values h
      rw [hrestore]
    · have hless : (packedBytes l).length % 2 ^ 16 < (packedBytes l).length :=
        (Nat.mod_lt _ (Nat.two_pow_pos 16)).trans_le (not_lt.1 hall)
      rw [cut, not_decode_of_cut hl hless]
      exact iff_of_false (fun hsame => nomatch hsame) hall

theorem build_eq_none (h : Keyed s.nodes) {ts : List UInt8}
    (hno : ¬ (s.Packable ∧ HasRoom (snapshotSize (valuesOf s.nodes)) ts)) :
    buildClusterSnapshotMessage s.nodes s.clusterVersion ts = none := by
  cases hencode : encodeClusterSnapshotNodes s.nodes with
  | none =>
    unfold buildClusterSnapshotMessage
    rw [hencode]
  | some packed =>
    obtain ⟨l, hl, hcount, rfl⟩ := exists_of_encodeNodes h.nodeId_ne_nil hencode
    have hl : valuesOf s.nodes = statesOf l := hl
    rw [build_eq hencode, if_neg]
    intro hroom
    rw [length_packedBytes, ← hl] at hroom
    exact hno ⟨(packable_iff h).2 ⟨l, hl, hcount⟩, hroom⟩

theorem roundTrips_iff (h : Keyed s.nodes) (ts : List UInt8) :
    s.RoundTrips ts ↔ s.SnapshotFits ts := by
  by_cases hbuilt : s.Packable ∧ HasRoom (snapshotSize (valuesOf s.nodes)) ts
  · obtain ⟨hpack, hroom⟩ := hbuilt
    obtain ⟨l, hl, hcount⟩ := (packable_iff h).1 hpack
    have hsize : snapshotSize (valuesOf s.nodes) = (packedBytes l).length := by
      rw [hl, length_packedBytes]
    have hfits : s.SnapshotFits ts ↔ (packedBytes l).length < 2 ^ 16 := by
      rw [← hsize]
      exact ⟨fun hfits => hfits hpack hroom, fun hless _ _ => hless⟩
    rw [hsize] at hroom
    obtain ⟨msg, hbuild, hregular, htype, hrestore⟩ := restore_built h hl hcount hroom
    rw [hfits, ← hrestore]
    constructor
    · intro htrips
      obtain ⟨cap, bytes, hencode⟩ := Codec.exists_encodeMessage hregular
      have hdata := readMem_getD (Nat.le_refl bytes.length)
      rw [List.take_length] at hdata
      obtain ⟨decoded, hdecoded, hrestored⟩ :=
        htrips msg hbuild cap bytes hencode _ hdata _ (Nat.le_refl _)
      rw [Codec.decodeMessage_encoded hregular htype hencode hdata (Nat.le_refl _)] at hdecoded
      cases hdecoded
      exact hrestored
    · intro hrestored msg' hbuild' cap bytes hencode data hdata fuel hfuel
      rw [hbuild] at hbuild'
      cases hbuild'
      exact ⟨msg, Codec.decodeMessage_encoded hregular htype hencode hdata hfuel, hrestored⟩
  · refine iff_of_true (fun msg hbuild => ?_) fun hpack hroom => absurd ⟨hpack, hroom⟩ hbuilt
    rw [build_eq_none h hbuilt] at hbuild
    cases hbuild

end HubClusterState

-- ==== bytes

section Bytes

variable {data : Nat → UInt8} {len : Nat}

theorem decode_congr {data' : Nat → UInt8} (h : ∀ i < len, data' i = data i) :
    decodeClusterSnapshotNodes data' len = decodeClusterSnapshotNodes data len := by
  refine Option.ext fun nodes => ?_
  show decodeClusterSnapshotNodes data' len = some nodes
    ↔ decodeClusterSnapshotNodes data len = some nodes
  rw [decode_iff, decode_iff, Codec.readMem_congr h (Nat.zero_add len).le]

def Ascending (nodes : List ClusterNodeState) : Prop :=
  (nodes.map ClusterNodeState.nodeId).Pairwise (· < ·)

theorem encode_decoded {nodes : List ClusterNodeState}
    (h : decodeClusterSnapshotNodes data len = some nodes) :
    encodeNodes nodes = some (readMem data 0 len) := by
  obtain ⟨l, rfl, hl, hbytes⟩ := decode_iff.1 h
  rw [encodeNodes_eq hl, hbytes]

theorem encode_table_iff {nodes : List ClusterNodeState}
    (h : decodeClusterSnapshotNodes data len = some nodes) :
    (∃ table, HubClusterState.restoreLoop .empty nodes = some table
        ∧ encodeClusterSnapshotNodes table = some (readMem data 0 len)) ↔ Ascending nodes := by
  obtain ⟨l, rfl, hl, hbytes⟩ := decode_iff.1 h
  constructor
  · rintro ⟨table, hrestore, hencode⟩
    have hkeyed := keyed_empty.restoreLoop hrestore
    obtain ⟨m, hm, hcount, hsame⟩ := exists_of_encodeNodes hkeyed.nodeId_ne_nil hencode
    have hvalues : valuesOf table = statesOf m := hm
    rw [hbytes] at hsame
    obtain ⟨rfl, -⟩ := packedBytes_append_inj (t := []) hl hcount
      (hsame.trans (List.append_nil _).symm)
    unfold Ascending
    rw [← hvalues, hkeyed.ids]
    exact List.pairwise_map.2 table.sorted
  · intro hascending
    have hsorted : Sorted Prod.fst ((statesOf l).map fun node => (node.nodeId, node)) :=
      List.pairwise_map.2 (List.pairwise_map.1 hascending)
    have hvalues : ((statesOf l).map fun node => (node.nodeId, node)).map Prod.snd
        = statesOf l := by
      rw [List.map_map]
      exact List.map_id _
    have hkeyed : Keyed ⟨_, hsorted⟩ := by
      intro e he
      obtain ⟨node, hnode, rfl⟩ := List.mem_map.1 he
      obtain ⟨n, -, rfl⟩ := List.mem_map.1 hnode
      exact ⟨rfl, n.2⟩
    refine ⟨⟨_, hsorted⟩, ?_, ?_⟩
    · have hrestore := restoreLoop_values hkeyed
      rwa [valuesOf, hvalues] at hrestore
    · show encodeNodes (List.map Prod.snd _) = _
      rw [hvalues, encodeNodes_eq hl, hbytes]

end Bytes

-- ==== a large hub

/-- A node registers with a region. -/
def registration (region topic : List UInt8) : SnapshotOp :=
  .hub (.applyMessage topic
    ⟨.nodeRegister, [⟨FieldTag.bootId, .bytes [49]⟩, ⟨FieldTag.region, .bytes region⟩]⟩ ⟨1, [], 0⟩)

def registered (region topic : List UInt8) : ClusterNodeState :=
  { nodeId := topic, bootId := [49], status := ascii "registered", region := cString region,
    heartbeatIntervalSec := 5, lastSeenMonoSec := 1 }

theorem entries_registration (region : List UInt8) {topic : List UInt8} (htopic : topic ≠ [])
    {s : HubClusterState} (h : ∀ e ∈ s.nodes.entries, e.1 < topic) :
    (s.stepWithRestore (registration region topic)).nodes.entries
      = s.nodes.entries ++ [(topic, registered region topic)] := by
  have hinsert : (s.stepWithRestore (registration region topic)).nodes
      = s.nodes.insert topic (registered region topic) := by
    show (s.applyMessage topic _ _).1.nodes = _
    unfold HubClusterState.applyMessage HubClusterState.entryFor
    rw [if_neg htopic, SortedMap.find_of_lt h]
    rfl
  rw [hinsert, SortedMap.entries_insert_of_lt h]

theorem entries_registrations (region : List UInt8) (topics : List (List UInt8))
    (hne : ∀ topic ∈ topics, topic ≠ []) (hlt : topics.Pairwise (· < ·)) {s : HubClusterState}
    (h : ∀ topic ∈ topics, ∀ e ∈ s.nodes.entries, e.1 < topic) :
    (run HubClusterState.stepWithRestore s (topics.map (registration region))).nodes.entries
      = s.nodes.entries ++ topics.map fun topic => (topic, registered region topic) := by
  induction topics generalizing s with
  | nil => exact (List.append_nil _).symm
  | cons topic topics ih =>
    obtain ⟨hne, hrest⟩ := List.forall_mem_cons.1 hne
    obtain ⟨hbelow, hlater⟩ := List.forall_mem_cons.1 h
    obtain ⟨hfirst, hlt⟩ := List.pairwise_cons.1 hlt
    have hstep := entries_registration region hne hbelow
    rw [List.map_cons, run_cons, ih hrest hlt, hstep, List.append_assoc]
    · rfl
    · intro later hmem e he
      rw [hstep] at he
      rcases List.mem_append.1 he with he | he
      · exact hlater later hmem e he
      · rw [List.mem_singleton.1 he]
        exact hfirst later hmem

def eightNodes (region : List UInt8) : List SnapshotOp :=
  [[97], [98], [99], [100], [101], [102], [103], [104]].map (registration region)

/-- Each takes 8192 bytes, which is 2^16 bytes and three for all: a message is built with three of
them, and a hub that is to restore it refuses it. -/
theorem not_roundTrips_eightNodes {region : List UInt8} (hregion : 0 ∉ region)
    (hlength : region.length = 8148) :
    ¬ (run HubClusterState.stepWithRestore .init (eightNodes region)).RoundTrips [] := by
  have hentries := entries_registrations region
    [[97], [98], [99], [100], [101], [102], [103], [104]] (by decide) (by decide) (s := .init)
    (fun _ _ _ h => nomatch h)
  have hcString : (cString region).length = 8148 := by
    have hself : region.takeWhile (fun c => decide (c ≠ 0)) = region :=
      List.takeWhile_eq_self_iff.2 fun c hc => decide_eq_true (ne_of_mem_of_not_mem hc hregion)
    rw [cString, hself, hlength]
  have hvalues : valuesOf (run HubClusterState.stepWithRestore .init (eightNodes region)).nodes
      = [[97], [98], [99], [100], [101], [102], [103], [104]].map (registered region) := by
    rw [valuesOf, eightNodes, hentries]
    rfl
  have hone (topic : List UInt8) : (registered region topic).packedSize = 8191 + topic.length := by
    show 32 + topic.length + 1 + 10 + (cString region).length + 0 + 0 + 0 + 0 = _
    omega
  have hsize : snapshotSize (valuesOf
      (run HubClusterState.stepWithRestore .init (eightNodes region)).nodes) = 2 ^ 16 + 3 := by
    rw [hvalues, snapshotSize, List.map_map]
    simp [hone]
  rw [HubClusterState.roundTrips_iff (HubClusterState.keyed_run _)]
  intro hfits
  have hless := hfits ⟨?_, ?_⟩ ?_
  · omega
  · rw [eightNodes, hentries]
    exact Nat.le_of_ble_eq_true rfl
  · intro node hnode
    rw [hvalues] at hnode
    obtain ⟨topic, htopic, rfl⟩ := List.mem_map.1 hnode
    have htopics : ∀ topic ∈ ([[97], [98], [99], [100], [101], [102], [103], [104]]
        : List (List UInt8)), topic.length ≤ 0xFFFF := by decide
    have hshort : (cString region).length ≤ 0xFFFF := by omega
    exact ⟨htopics topic htopic, Nat.le_of_ble_eq_true rfl, Nat.le_of_ble_eq_true rfl, hshort,
      Nat.zero_le _, Nat.zero_le _, Nat.zero_le _, Nat.zero_le _⟩
  · rw [hsize]
    exact Nat.le_of_ble_eq_true rfl

-- ==== result

/-- In every run the snapshot of the hub that is reached has the round trip exactly if its packed
nodes are fewer than 2^16 bytes, or it is refused. And bytes are unpacked without a look at any
others, to nodes that pack to them, in their order; in the order of a table they do if that is
theirs. -/
theorem snapshot_round_trip (ops : List SnapshotOp) (ts : List UInt8) :
    ((run HubClusterState.stepWithRestore .init ops).RoundTrips ts
        ↔ (run HubClusterState.stepWithRestore .init ops).SnapshotFits ts)
    ∧ ∀ (data : Nat → UInt8) (len : Nat),
      (∀ data', (∀ i < len, data' i = data i) →
        decodeClusterSnapshotNodes data' len = decodeClusterSnapshotNodes data len)
      ∧ ∀ nodes, decodeClusterSnapshotNodes data len = some nodes →
        encodeNodes nodes = some (readMem data 0 len)
        ∧ ((∃ table, HubClusterState.restoreLoop .empty nodes = some table
            ∧ encodeClusterSnapshotNodes table = some (readMem data 0 len)) ↔ Ascending nodes) :=
  ⟨HubClusterState.roundTrips_iff (HubClusterState.keyed_run ops) ts,
    fun _ _ => ⟨fun _ h => decode_congr h, fun _ h => ⟨encode_decoded h, encode_table_iff h⟩⟩⟩

def twoNodes : List ClusterNodeState :=
  [{ nodeId := ascii "a", bootId := ascii "100-1", region := ascii "eu", heartbeatIntervalSec := 5,
     load := -2 },
    { nodeId := ascii "b", status := ascii "alive", probeEndpoint := ascii "192.0.2.7:3478" }]

/-- Two nodes are sent, and what they pack to is what is packed of them
unpacked. -/
theorem snapshot_round_trip_two :
    let bytes := (encodeNodes twoNodes).getD []
    (run HubClusterState.stepWithRestore .init [.restoreFromNodes 1 twoNodes]).RoundTrips
      (ascii "t")
      ∧ encodeNodes twoNodes = some (readMem (fun i => bytes.getD i 0) 0 bytes.length) := by
  have hround := snapshot_round_trip [.restoreFromNodes 1 twoNodes] (ascii "t")
  exact ⟨hround.1.2 fun _ _ => by decide +kernel,
    ((hround.2 (fun i => ((encodeNodes twoNodes).getD []).getD i 0) _).2 twoNodes
      (by decide +kernel)).1⟩

/-- The region is 8148 times one letter. -/
theorem not_snapshot_round_trip :
    ¬ (run HubClusterState.stepWithRestore .init
      (eightNodes (List.replicate 8148 97))).RoundTrips [] :=
  not_roundTrips_eightNodes (fun h => absurd (List.eq_of_mem_replicate h) (by decide))
    List.length_replicate

end Eular.Ntrs
