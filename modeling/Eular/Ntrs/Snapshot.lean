/-
The snapshot of a hub's table (`ntrs_hub_state.cpp`).

The nodes are packed behind a version and their number into the bytes of one
field of a message; from a message they are unpacked and put into a hub that
has none yet. `Codec.lean` has the message, `HubState.lean` the table. What is
unpacked is read from memory.
-/
import Eular.Ntrs.Codec

namespace Eular.Ntrs

open Lib

-- ==== packing

/-- `AppendString`: what it appends. -/
def appendString (value : List UInt8) : Option (List UInt8) :=
  if 0xFFFF < value.length then none else some (bigEndian 2 value.length ++ value)

/-- `AppendU32`, `AppendU64` and `AppendU32` of the numbers of a node. -/
def appendNumbers (heartbeat_interval_sec : UInt32) (last_seen_mono_sec : UInt64) (load : Int32) :
    List UInt8 :=
  bigEndian 4 heartbeat_interval_sec.toNat ++ bigEndian 8 last_seen_mono_sec.toNat
    ++ bigEndian 4 load.toUInt32.toNat

/-- `AppendNode`: what it appends. -/
def appendNode (node : ClusterNodeState) : Option (List UInt8) := do
  let node_id ← appendString node.nodeId
  let boot_id ← appendString node.bootId
  let status ← appendString node.status
  let region ← appendString node.region
  let probe_endpoint ← appendString node.probeEndpoint
  let control_endpoint ← appendString node.controlEndpoint
  let nat_type ← appendString node.natType
  let last_heartbeat ← appendString node.lastHeartbeat
  some (node_id ++ (boot_id ++ (status ++ (region ++ (probe_endpoint ++ (control_endpoint
    ++ (nat_type ++ (last_heartbeat ++ appendNumbers node.heartbeatIntervalSec
      node.lastSeenMonoSec node.load))))))))

/-- The loop of `EncodeClusterSnapshotNodes` over the nodes that are left: what it appends. -/
def appendNodes : List ClusterNodeState → Option (List UInt8)
  | [] => some []
  | node :: nodes => do
      let first ← appendNode node
      let rest ← appendNodes nodes
      some (first ++ rest)

/-- `EncodeClusterSnapshotNodes` of nodes in the order of the map. -/
def encodeNodes (nodes : List ClusterNodeState) : Option (List UInt8) :=
  if 0xFFFF < nodes.length then none
  else (appendNodes nodes).map fun packed => 1 :: bigEndian 2 nodes.length ++ packed

def encodeClusterSnapshotNodes (nodes : SortedMap (List UInt8) ClusterNodeState) :
    Option (List UInt8) :=
  encodeNodes (nodes.entries.map Prod.snd)

-- ==== unpacking

/-- `ReadU16`, `ReadU32` and `ReadU64`. -/
def readNumber (data : Nat → UInt8) (offset w : Nat) : Nat := ofBigEndian (readMem data offset w)

/-- `ReadString`, and the offset behind it. -/
def readString (data : Nat → UInt8) (len offset : Nat) : Option (List UInt8 × Nat) :=
  if len < offset + 2 then none
  else
    let field_len := readNumber data offset 2
    if len < offset + 2 + field_len then none
    else some (readMem data (offset + 2) field_len, offset + 2 + field_len)

/-- `ReadNode`, and the offset behind it. -/
def readNode (data : Nat → UInt8) (len offset : Nat) : Option (ClusterNodeState × Nat) := do
  let (node_id, offset) ← readString data len offset
  let (boot_id, offset) ← readString data len offset
  let (status, offset) ← readString data len offset
  let (region, offset) ← readString data len offset
  let (probe_endpoint, offset) ← readString data len offset
  let (control_endpoint, offset) ← readString data len offset
  let (nat_type, offset) ← readString data len offset
  let (last_heartbeat, offset) ← readString data len offset
  if len < offset + 16 then none
  else
    let node : ClusterNodeState := {
      nodeId := node_id
      bootId := boot_id
      status
      region
      probeEndpoint := probe_endpoint
      controlEndpoint := control_endpoint
      natType := nat_type
      lastHeartbeat := last_heartbeat
      heartbeatIntervalSec := UInt32.ofNat (readNumber data offset 4)
      lastSeenMonoSec := UInt64.ofNat (readNumber data (offset + 4) 8)
      load := (UInt32.ofNat (readNumber data (offset + 12) 4)).toInt32 }
    if node.nodeId = [] then none else some (node, offset + 16)

/-- The loop of `DecodeClusterSnapshotNodes` for as many nodes as are left, and the offset behind
them. -/
def readNodes (data : Nat → UInt8) (len : Nat) : Nat → Nat → Option (List ClusterNodeState × Nat)
  | 0, offset => some ([], offset)
  | left + 1, offset => do
      let (node, offset) ← readNode data len offset
      let (nodes, offset) ← readNodes data len left offset
      some (node :: nodes, offset)

def decodeClusterSnapshotNodes (data : Nat → UInt8) (len : Nat) : Option (List ClusterNodeState) :=
  if len < 3 then none
  else if data 0 ≠ 1 then none
  else
    match readNodes data len (readNumber data 1 2) 3 with
    | none => none
    | some (nodes, offset) => if offset ≠ len then none else some nodes

-- ==== messages

def HUB_CLUSTER_SNAPSHOT : UInt8 := 0x43

def CLUSTER_VERSION : UInt16 := 0x0047

def NODE_COUNT : UInt16 := 0x0048

def NODES : UInt16 := 0x0049

/-- `BuildClusterSnapshotMessage`; the number of bytes is narrowed to 16 bits. -/
def buildClusterSnapshotMessage (nodes : SortedMap (List UInt8) ClusterNodeState)
    (clusterVersion : UInt64) (ts : List UInt8) : Option Codec.Message :=
  match encodeClusterSnapshotNodes nodes with
  | none => none
  | some encoded_nodes =>
    let msg := Codec.messageInit HUB_CLUSTER_SNAPSHOT clusterVersion.toUInt32
    match Codec.messageAddU64ByTag msg CLUSTER_VERSION clusterVersion with
    | (false, _) => none
    | (true, msg) =>
      match Codec.messageAddU32ByTag msg NODE_COUNT (UInt32.ofNat nodes.entries.length) with
      | (false, _) => none
      | (true, msg) =>
        match Codec.messageAddBytesByTag msg NODES (some fun i => encoded_nodes.getD i 0)
            (UInt16.ofNat encoded_nodes.length) with
        | (false, _) => none
        | (true, msg) =>
          match Codec.messageAddStringByTag msg FieldTag.ts (some (cString ts)) with
          | (false, _) => none
          | (true, msg) => some msg

def parseClusterSnapshotMessage (msg : Codec.Message) : Option (UInt64 × List ClusterNodeState) :=
  if msg.type ≠ HUB_CLUSTER_SNAPSHOT then none
  else
    match Codec.messageGetU64 msg "clusterVersion", Codec.messageGetU32ByTag msg NODE_COUNT,
      Codec.messageGetBytesByTag msg NODES with
    | some parsed_cluster_version, some node_count, some encoded_nodes =>
      match decodeClusterSnapshotNodes (fun i => encoded_nodes.getD i 0) encoded_nodes.length with
      | none => none
      | some nodes =>
        if nodes.length ≠ node_count.toNat then none else some (parsed_cluster_version, nodes)
    | _, _, _ => none

namespace HubClusterState

/-- The loop of `restoreFromNodes` over the nodes that are left. -/
def restoreLoop (table : SortedMap (List UInt8) ClusterNodeState) :
    List ClusterNodeState → Option (SortedMap (List UInt8) ClusterNodeState)
  | [] => some table
  | node :: nodes =>
    if node.nodeId = [] ∨ (table.find node.nodeId).isSome then none
    else restoreLoop (table.insert node.nodeId node) nodes

def restoreFromNodes (s : HubClusterState) (cluster_version : UInt64)
    (nodes : List ClusterNodeState) : Bool × HubClusterState :=
  if s.nodes.entries ≠ [] ∨ s.clusterVersion ≠ 0 then (false, s)
  else
    match restoreLoop s.nodes nodes with
    | none => (false, ⟨.empty, 0⟩)
    | some table => (true, ⟨table, cluster_version⟩)

def restoreFromSnapshot (s : HubClusterState) (msg : Codec.Message) : Bool × HubClusterState :=
  if s.nodes.entries ≠ [] ∨ s.clusterVersion ≠ 0 then (false, s)
  else
    match parseClusterSnapshotMessage msg with
    | none => (false, s)
    | some (clusterVersion, nodes) => s.restoreFromNodes clusterVersion nodes

end HubClusterState

/-- The calls a hub takes, those that restore it among them. -/
inductive SnapshotOp where
  | hub (op : HubOp)
  | restoreFromNodes (cluster_version : UInt64) (nodes : List ClusterNodeState)
  | restoreFromSnapshot (msg : Codec.Message)

def HubClusterState.stepWithRestore (s : HubClusterState) : SnapshotOp → HubClusterState
  | .hub op => s.step op
  | .restoreFromNodes cluster_version nodes => (s.restoreFromNodes cluster_version nodes).2
  | .restoreFromSnapshot msg => (s.restoreFromSnapshot msg).2

end Eular.Ntrs
