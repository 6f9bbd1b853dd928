/-
The hub's table of nodes (`ntrs_hub_state.cpp`, and of `ntrs_codec.cpp`
what it reads).

A node announces itself over MQTT with messages that carry the identity of
its boot. `applyMessage` finds or makes the entry of the topic's node
(`entryFor`: made when there is none, emptied when the message is of a
newer boot) and then lets the message's type decide what to write into it
(`receive`). The two are apart here as they are in the source, where the
second may still reject what the first has already changed.

`nodes_` is a `std::map`, a `std::string` the list of its bytes.
-/
import Eular.Lib.SortedMap
import Eular.Lib.Run
import Eular.Lib.Text

namespace Eular.Ntrs

open Lib

-- ==== messages

/-- The types of message the hub takes part in; `other` is every other
value of the enumeration. -/
inductive MessageType where
  | nodeRegister
  | nodePresence
  | nodeHeartbeat
  | other (code : UInt8)
deriving DecidableEq, Repr

/-- The value of a `MessageField`, by its `FieldType`. -/
inductive FieldValue where
  | bytes (value : List UInt8)
  | bool (value : UInt8)
  | u8 (value : UInt8)
  | u16 (value : UInt16)
  | u32 (value : UInt32)
  | i32 (value : Int32)
  | u64 (value : UInt64)
deriving DecidableEq

/-- `MessageField`: a `FieldTag` and its value. -/
structure MessageField where
  tag : UInt16
  value : FieldValue
deriving DecidableEq

/-- `Message`, its fields in the order they were added. -/
structure Message where
  type : MessageType
  fields : List MessageField
deriving DecidableEq

namespace FieldTag

def reason : UInt16 := 0x0002
def controlEndpoint : UInt16 := 0x002B
def natType : UInt16 := 0x0031
def nodeId : UInt16 := 0x0040
def bootId : UInt16 := 0x0041
def region : UInt16 := 0x0042
def status : UInt16 := 0x0043
def load : UInt16 := 0x0044
def ts : UInt16 := 0x0045
def heartbeatIntervalSec : UInt16 := 0x0051
def probeEndpoint : UInt16 := 0x0081

end FieldTag

namespace NodeStatusCode

def unknown : UInt8 := 0
def registered : UInt8 := 1
def online : UInt8 := 2
def offline : UInt8 := 3

end NodeStatusCode

namespace ReasonCode

def none : UInt8 := 0
def lwt : UInt8 := 2

end ReasonCode

variable (msg : Message) (tag : UInt16)

/-- `FindFieldByTag`: the index of a tag is the field added last. -/
def findFieldByTag : Option FieldValue :=
  (msg.fields.reverse.find? fun f => f.tag = tag).map MessageField.value

def messageGetU8ByTag : Option UInt8 :=
  match findFieldByTag msg tag with
  | some (.u8 v) => some v
  | _ => none

def messageGetU32ByTag : Option UInt32 :=
  match findFieldByTag msg tag with
  | some (.u32 v) => some v
  | _ => none

/-- `SafeMsgStringTag`: the C string of the field, "" when it is missing or
of another type. -/
def safeMsgStringTag : List UInt8 :=
  match findFieldByTag msg tag with
  | some (.bytes v) => cString v
  | _ => []

def safeMsgU32Tag (defaultValue : UInt32) : UInt32 :=
  (messageGetU32ByTag msg tag).getD defaultValue

def nodeStatusCodeName (code : UInt8) : List UInt8 :=
  if code = NodeStatusCode.registered then ascii "registered"
  else if code = NodeStatusCode.online then ascii "online"
  else if code = NodeStatusCode.offline then ascii "offline"
  else ascii "unknown"

-- ==== boots

/-- `isspace` of the C locale. -/
def isSpace (c : UInt8) : Bool := c = 0x20 || (0x09 ≤ c && c ≤ 0x0d)

/-- `strtoull` in base 10, where it reads the whole text; without a digit,
or with anything behind the digits, it does not. -/
def strtoullWhole (s : List UInt8) : Option Nat :=
  let s := s.dropWhile isSpace
  let digits := if s.head? = some 0x2b then s.tail else s
  if digits ≠ [] ∧ digits.all (fun c => 0x30 ≤ c && c ≤ 0x39) then
    some (min (digits.foldl (fun n c => n * 10 + (c.toNat - 0x30)) 0) (2 ^ 64 - 1))
  else
    none

/-- `ParseBootPrefix`: the number before the first '-', 0 if there is
none. -/
def parseBootPrefix (bootId : List UInt8) : Nat :=
  (strtoullWhole (cString (bootId.takeWhile (· ≠ 0x2d)))).getD 0

def bootGenerationOrder (bootId : List UInt8) : Nat := parseBootPrefix bootId

-- ==== entries

structure ClusterNodeState where
  nodeId : List UInt8 := []
  bootId : List UInt8 := []
  status : List UInt8 := []
  region : List UInt8 := []
  probeEndpoint : List UInt8 := []
  controlEndpoint : List UInt8 := []
  natType : List UInt8 := []
  lastHeartbeat : List UInt8 := []
  heartbeatIntervalSec : UInt32 := 0
  lastSeenMonoSec : UInt64 := 0
  load : Int32 := 0
deriving DecidableEq

namespace ClusterNodeState

def isCurrentGeneration (current : ClusterNodeState) (incomingBootId : List UInt8) : Bool :=
  current.bootId = incomingBootId

def shouldReplaceGeneration (current : ClusterNodeState) (incomingBootId : List UInt8) : Bool :=
  let currentOrder := bootGenerationOrder current.bootId
  let incomingOrder := bootGenerationOrder incomingBootId
  if currentOrder < incomingOrder then true
  else if incomingOrder < currentOrder then false
  else current.bootId < incomingBootId

/-- `heartbeatTimeoutSec`: the product is a `uint32_t`. -/
def heartbeatTimeoutSec (node : ClusterNodeState) : UInt32 :=
  let interval := if node.heartbeatIntervalSec = 0 then 5 else node.heartbeatIntervalSec
  let timeout := interval * 3
  if timeout < 3 then 3 else timeout

/-- Whether `sweepExpired` leaves the entry. -/
def stays (node : ClusterNodeState) (nowMonoSec : UInt64) : Bool :=
  node.lastSeenMonoSec = 0 || nowMonoSec < node.lastSeenMonoSec
    || nowMonoSec - node.lastSeenMonoSec ≤ node.heartbeatTimeoutSec.toUInt64

end ClusterNodeState

/-- What a message comes with: when it was received, and, for an entry that
is made for it, what memory held where `load` is put. -/
structure Arrival where
  nowMonoSec : UInt64
  nowIso8601 : List UInt8
  memory : Int32

/-- The entry made for a node the table does not know; `load` is not
written. -/
def createdEntry (topicNodeId : List UInt8) (at' : Arrival) : ClusterNodeState :=
  { nodeId := topicNodeId, status := ascii "unknown", heartbeatIntervalSec := 5,
    lastSeenMonoSec := at'.nowMonoSec, lastHeartbeat := at'.nowIso8601, load := at'.memory }

/-- What is left of the entry of an older boot. -/
def resetEntry (topicNodeId : List UInt8) (at' : Arrival) : ClusterNodeState :=
  { nodeId := topicNodeId, heartbeatIntervalSec := 5, lastSeenMonoSec := at'.nowMonoSec,
    lastHeartbeat := at'.nowIso8601 }

-- ==== hub

structure HubClusterState where
  nodes : SortedMap (List UInt8) ClusterNodeState
  clusterVersion : UInt64
deriving DecidableEq

namespace HubClusterState

def init : HubClusterState := ⟨SortedMap.empty, 0⟩

/-- `applyMessage` up to the type of the message: the entry the message is
about, and whether it was made for it. -/
def entryFor (s : HubClusterState) (topicNodeId : List UInt8) (msg : Message) (at' : Arrival) :
    Option (Bool × ClusterNodeState) :=
  if topicNodeId = [] then none
  else
    let fieldNodeId := safeMsgStringTag msg FieldTag.nodeId
    if fieldNodeId ≠ [] ∧ fieldNodeId ≠ topicNodeId then none
    else
      let incomingBootId := safeMsgStringTag msg FieldTag.bootId
      if incomingBootId = [] then none
      else
        match s.nodes.find topicNodeId with
        | none =>
          -- a last will must not bring a node back
          if msg.type = .nodePresence
              ∧ messageGetU8ByTag msg FieldTag.status = some NodeStatusCode.offline then none
          else some (true, createdEntry topicNodeId at')
        | some node =>
          if !node.isCurrentGeneration incomingBootId then
            if !node.shouldReplaceGeneration incomingBootId then none
            else some (false, resetEntry topicNodeId at')
          else some (false, node)

/-- `last_heartbeat` of a message that carries a time stamp. -/
def heartbeatTime (at' : Arrival) : List UInt8 :=
  let ts := safeMsgStringTag msg FieldTag.ts
  if ts = [] then at'.nowIso8601 else ts

/-- `heartbeat_interval_sec` of a message that may announce it. -/
def announcedInterval (node : ClusterNodeState) (msg : Message) : UInt32 :=
  safeMsgU32Tag msg FieldTag.heartbeatIntervalSec
    (if node.heartbeatIntervalSec = 0 then 5 else node.heartbeatIntervalSec)

/-- The rest of `applyMessage`: the event and the entry the message makes
of its node's, or none where it is rejected. -/
def receive (created : Bool) (node : ClusterNodeState) (topicNodeId : List UInt8) (msg : Message)
    (at' : Arrival) : Option (List UInt8 × ClusterNodeState) :=
  let incomingBootId := safeMsgStringTag msg FieldTag.bootId
  match msg.type with
  | .nodeRegister =>
    some (if created then ascii "node_registered" else ascii "node_generation_replaced",
      { node with
        nodeId := topicNodeId
        bootId := incomingBootId
        region := safeMsgStringTag msg FieldTag.region
        probeEndpoint := safeMsgStringTag msg FieldTag.probeEndpoint
        controlEndpoint := safeMsgStringTag msg FieldTag.controlEndpoint
        natType := safeMsgStringTag msg FieldTag.natType
        heartbeatIntervalSec := announcedInterval node msg
        lastSeenMonoSec := at'.nowMonoSec
        lastHeartbeat := at'.nowIso8601
        status := nodeStatusCodeName NodeStatusCode.registered })
  | .nodePresence =>
    match messageGetU8ByTag msg FieldTag.status with
    | none => none
    | some statusCode =>
      if statusCode = NodeStatusCode.unknown then none
      else if statusCode = NodeStatusCode.offline ∧ !node.isCurrentGeneration incomingBootId then
        none
      else
        let reasonCode := (messageGetU8ByTag msg FieldTag.reason).getD ReasonCode.none
        some
          (if statusCode = NodeStatusCode.online then ascii "node_online"
            else if statusCode = NodeStatusCode.offline then
              if reasonCode = ReasonCode.lwt then ascii "node_abnormal_offline"
              else ascii "node_offline"
            else ascii "node_status_changed",
          { node with
            nodeId := topicNodeId
            bootId := incomingBootId
            status := nodeStatusCodeName statusCode
            lastSeenMonoSec := at'.nowMonoSec
            lastHeartbeat := heartbeatTime msg at' })
  | .nodeHeartbeat =>
    let natType := safeMsgStringTag msg FieldTag.natType
    some (ascii "node_heartbeat",
      { node with
        nodeId := topicNodeId
        bootId := incomingBootId
        status := nodeStatusCodeName NodeStatusCode.online
        natType := if natType = [] then node.natType else natType
        load := (safeMsgU32Tag msg FieldTag.load 0).toInt32
        lastSeenMonoSec := at'.nowMonoSec
        lastHeartbeat := heartbeatTime msg at'
        heartbeatIntervalSec := announcedInterval node msg })
  | .other _ => none

/-- `applyMessage`: the hub after it, and, where it returns true, the event
and the node it reports. -/
def applyMessage (s : HubClusterState) (topicNodeId : List UInt8) (msg : Message) (at' : Arrival) :
    HubClusterState × Option (List UInt8 × ClusterNodeState) :=
  match s.entryFor topicNodeId msg at' with
  | none => (s, none)
  | some (created, node) =>
    match receive created node topicNodeId msg at' with
    | none => ({ s with nodes := s.nodes.insert topicNodeId node }, none)
    | some (event, node') =>
      ({ nodes := s.nodes.insert topicNodeId node', clusterVersion := s.clusterVersion + 1 },
        some (event, node'))

/-- `sweepExpired`: the hub after it, and the nodes evicted. -/
def sweepExpired (s : HubClusterState) (nowMonoSec : UInt64) :
    HubClusterState × List ClusterNodeState :=
  let evicted := (s.nodes.filter fun _ node => !node.stays nowMonoSec).entries.map Prod.snd
  ({ nodes := s.nodes.filter fun _ node => node.stays nowMonoSec
     clusterVersion := if evicted = [] then s.clusterVersion else s.clusterVersion + 1 }, evicted)

end HubClusterState

inductive HubOp where
  | applyMessage (topicNodeId : List UInt8) (msg : Message) (at' : Arrival)
  | sweepExpired (nowMonoSec : UInt64)

def HubOp.nowMonoSec : HubOp → UInt64
  | applyMessage _ _ at' => at'.nowMonoSec
  | sweepExpired now => now

namespace HubClusterState

def step (s : HubClusterState) : HubOp → HubClusterState
  | .applyMessage topicNodeId msg at' => (s.applyMessage topicNodeId msg at').1
  | .sweepExpired now => (s.sweepExpired now).1

end HubClusterState

end Eular.Ntrs
