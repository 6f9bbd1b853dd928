/-
What a snapshot packs is what it unpacks.

A node is a record made of records (`nodes`): eight strings that tell their
length, three numbers, and an id that is not empty. The writer writes it
(`appendNode_eq`), and `ReadNode` is its reader, at any place of a memory
(`readNode_reads`). So a number of nodes behind their count is unpacked
exactly from what packs them (`decode_iff`), and from nothing shorter.
-/
import Eular.Ntrs.Snapshot
import Eular.Ntrs.Proofs.CodecFrames

namespace Eular.Ntrs

open Lib

-- ==== records

/-- A string whose length has 16 bits. -/
abbrev ShortText := {text : List UInt8 // text.length ≤ 0xFFFF}

theorem ofBigEndian_two_le (s : List UInt8) : ofBigEndian (s.take 2) ≤ 0xFFFF := by
  have hlt := ofBigEndian_lt (s.take 2)
  have hle : 256 ^ (s.take 2).length ≤ 256 ^ 2 :=
    Nat.pow_le_pow_right (by decide) (List.length_take_le _ _)
  omega

def texts : Records UInt8 ShortText where
  encode text := bigEndian 2 text.1.length ++ text.1
  next s :=
    if s.length < 2 + ofBigEndian (s.take 2) ∨ s.length < 2 then none
    else some (⟨(s.drop 2).take (ofBigEndian (s.take 2)),
      (List.length_take_le _ _).trans (ofBigEndian_two_le s)⟩, s.drop (2 + ofBigEndian (s.take 2)))
  encode_ne_nil text h := by
    have hlen := congrArg List.length h
    rw [List.length_append, length_bigEndian, List.length_nil] at hlen
    omega
  next_encode := by
    rintro ⟨text, htext⟩ t
    have hhead : ofBigEndian ((bigEndian 2 text.length ++ text ++ t).take 2) = text.length := by
      rw [List.append_assoc, List.take_left' (length_bigEndian 2 _), ofBigEndian_bigEndian]
      exact Nat.mod_eq_of_lt (by omega)
    have hlen : (bigEndian 2 text.length ++ text ++ t).length = 2 + text.length + t.length := by
      rw [List.length_append, List.length_append, length_bigEndian]
    simp only [hhead]
    rw [if_neg (by omega)]
    simp only [Option.some.injEq, Prod.mk.injEq, Subtype.mk.injEq]
    constructor
    · rw [List.append_assoc, List.drop_left' (length_bigEndian 2 _), List.take_left]
    · exact List.drop_left' (by rw [List.length_append, length_bigEndian])
  eq_of_next {s text t} h := by
    by_cases hshort : s.length < 2 + ofBigEndian (s.take 2) ∨ s.length < 2
    · rw [if_pos hshort] at h
      cases h
    · rw [if_neg hshort] at h
      cases h
      have htwo : (s.take 2).length = 2 := by
        rw [List.length_take]
        omega
      have hlen : ((s.drop 2).take (ofBigEndian (s.take 2))).length = ofBigEndian (s.take 2) := by
        rw [List.length_take, List.length_drop]
        omega
      have hback := bigEndian_ofBigEndian (s.take 2)
      rw [htwo] at hback
      dsimp only
      rw [hlen, hback, List.append_assoc, ← List.drop_drop, List.take_append_drop,
        List.take_append_drop]

/-- The numbers that 16 bytes are. -/
def numbersOf (s : List UInt8) : UInt32 × UInt64 × Int32 :=
  (UInt32.ofNat (ofBigEndian (s.take 4)), UInt64.ofNat (ofBigEndian ((s.drop 4).take 8)),
    (UInt32.ofNat (ofBigEndian ((s.drop 12).take 4))).toInt32)

theorem bigEndian_uint32 {s : List UInt8} (h : s.length = 4) :
    bigEndian 4 (UInt32.ofNat (ofBigEndian s)).toNat = s := by
  have hlt := ofBigEndian_lt s
  rw [h] at hlt
  rw [UInt32.toNat_ofNat_of_lt' hlt]
  have hback := bigEndian_ofBigEndian s
  rwa [h] at hback

def numbers : Records UInt8 (UInt32 × UInt64 × Int32) :=
  Records.fixed 16 (by decide) (fun n => appendNumbers n.1 n.2.1 n.2.2) numbersOf
    (fun n => by simp [appendNumbers])
    (by
      rintro ⟨interval, seen, load⟩
      have hsplit : appendNumbers interval seen load = bigEndian 4 interval.toNat
          ++ (bigEndian 8 seen.toNat ++ bigEndian 4 load.toUInt32.toNat) := List.append_assoc _ _ _
      have hfour := length_bigEndian 4 interval.toNat
      have height := length_bigEndian 8 seen.toNat
      have hlast := length_bigEndian 4 load.toUInt32.toNat
      have hinterval := (ofBigEndian_bigEndian 4 interval.toNat).trans
        (Nat.mod_eq_of_lt interval.toNat_lt)
      have hseen := (ofBigEndian_bigEndian 8 seen.toNat).trans (Nat.mod_eq_of_lt seen.toNat_lt)
      have hload := (ofBigEndian_bigEndian 4 load.toUInt32.toNat).trans
        (Nat.mod_eq_of_lt load.toUInt32.toNat_lt)
      have htwelve : (bigEndian 4 interval.toNat ++ bigEndian 8 seen.toNat).length = 12 := by
        rw [List.length_append, hfour, height]
      dsimp only
      rw [numbersOf, Prod.mk.injEq, Prod.mk.injEq]
      refine ⟨?_, ?_, ?_⟩
      · rw [hsplit, List.take_left' hfour, hinterval, UInt32.ofNat_toNat]
      · rw [hsplit, List.drop_left' hfour, List.take_left' height, hseen, UInt64.ofNat_toNat]
      · rw [appendNumbers, List.drop_left' htwelve, List.take_of_length_le hlast.le, hload,
          UInt32.ofNat_toNat]
        rfl)
    (by
      intro s hs
      have hfour : (s.take 4).length = 4 := by
        rw [List.length_take]
        omega
      have height : ((s.drop 4).take 8).length = 8 := by
        rw [List.length_take, List.length_drop]
        omega
      have hlast : ((s.drop 12).take 4).length = 4 := by
        rw [List.length_take, List.length_drop]
        omega
      have hseen : bigEndian 8 (UInt64.ofNat (ofBigEndian ((s.drop 4).take 8))).toNat
          = (s.drop 4).take 8 := by
        have hlt := ofBigEndian_lt ((s.drop 4).take 8)
        rw [height] at hlt
        rw [UInt64.toNat_ofNat_of_lt' hlt]
        have hback := bigEndian_ofBigEndian ((s.drop 4).take 8)
        rwa [height] at hback
      have hload : (UInt32.ofNat (ofBigEndian ((s.drop 12).take 4))).toInt32.toUInt32
          = UInt32.ofNat (ofBigEndian ((s.drop 12).take 4)) := rfl
      have hrest : (s.drop 12).take 4 = (s.drop 4).drop 8 := by
        rw [List.drop_drop]
        exact List.take_of_length_le (by rw [List.length_drop]; omega)
      dsimp only [numbersOf, appendNumbers]
      rw [bigEndian_uint32 hfour, hseen, hload, bigEndian_uint32 hlast, hrest, List.append_assoc,
        List.take_append_drop, List.take_append_drop])

/-- The strings of a node have lengths of 16 bits. -/
structure ClusterNodeState.Short (node : ClusterNodeState) : Prop where
  nodeId : node.nodeId.length ≤ 0xFFFF
  bootId : node.bootId.length ≤ 0xFFFF
  status : node.status.length ≤ 0xFFFF
  region : node.region.length ≤ 0xFFFF
  probeEndpoint : node.probeEndpoint.length ≤ 0xFFFF
  controlEndpoint : node.controlEndpoint.length ≤ 0xFFFF
  natType : node.natType.length ≤ 0xFFFF
  lastHeartbeat : node.lastHeartbeat.length ≤ 0xFFFF

abbrev NodeParts := ShortText × ShortText × ShortText × ShortText × ShortText × ShortText
  × ShortText × ShortText × UInt32 × UInt64 × Int32

def nodeEquiv : NodeParts ≃ {node : ClusterNodeState // node.Short} where
  toFun := fun ⟨a, b, c, d, e, f, g, h, i, s, l⟩ =>
    ⟨⟨a.1, b.1, c.1, d.1, e.1, f.1, g.1, h.1, i, s, l⟩,
      ⟨a.2, b.2, c.2, d.2, e.2, f.2, g.2, h.2⟩⟩
  invFun n :=
    ⟨⟨_, n.2.nodeId⟩, ⟨_, n.2.bootId⟩, ⟨_, n.2.status⟩, ⟨_, n.2.region⟩, ⟨_, n.2.probeEndpoint⟩,
      ⟨_, n.2.controlEndpoint⟩, ⟨_, n.2.natType⟩, ⟨_, n.2.lastHeartbeat⟩,
      n.1.heartbeatIntervalSec, n.1.lastSeenMonoSec, n.1.load⟩
  left_inv _ := rfl
  right_inv _ := rfl

/-- The strings and the numbers, one behind another. -/
def nodeParts : Records UInt8 NodeParts :=
  texts.prod (texts.prod (texts.prod (texts.prod (texts.prod (texts.prod (texts.prod
    (texts.prod numbers)))))))

/-- A node that is packed and unpacked. -/
abbrev PackedNode := {n : {node : ClusterNodeState // node.Short} // n.1.nodeId ≠ []}

def packedNodes : Records UInt8 PackedNode :=
  (nodeParts.congr nodeEquiv).sub fun n => n.1.nodeId ≠ []

-- ==== packing

theorem appendString_eq (text : ShortText) : appendString text.1 = some (texts.encode text) :=
  if_neg (not_lt.mpr text.2)

theorem length_of_appendString {text packed : List UInt8} (h : appendString text = some packed) :
    text.length ≤ 0xFFFF := by
  unfold appendString at h
  split at h
  · cases h
  case isFalse hle => exact not_lt.mp hle

theorem appendNode_eq (n : PackedNode) : appendNode n.1.1 = some (packedNodes.encode n) := by
  obtain ⟨⟨node, hshort⟩, hid⟩ := n
  unfold appendNode
  simp only [appendString_eq ⟨_, hshort.nodeId⟩, appendString_eq ⟨_, hshort.bootId⟩,
    appendString_eq ⟨_, hshort.status⟩, appendString_eq ⟨_, hshort.region⟩,
    appendString_eq ⟨_, hshort.probeEndpoint⟩, appendString_eq ⟨_, hshort.controlEndpoint⟩,
    appendString_eq ⟨_, hshort.natType⟩, appendString_eq ⟨_, hshort.lastHeartbeat⟩]
  rfl

theorem short_of_appendNode {node : ClusterNodeState} {packed : List UInt8}
    (h : appendNode node = some packed) : node.Short := by
  unfold appendNode at h
  obtain ⟨_, hnodeId, h⟩ := Option.bind_eq_some_iff.mp h
  obtain ⟨_, hbootId, h⟩ := Option.bind_eq_some_iff.mp h
  obtain ⟨_, hstatus, h⟩ := Option.bind_eq_some_iff.mp h
  obtain ⟨_, hregion, h⟩ := Option.bind_eq_some_iff.mp h
  obtain ⟨_, hprobe, h⟩ := Option.bind_eq_some_iff.mp h
  obtain ⟨_, hcontrol, h⟩ := Option.bind_eq_some_iff.mp h
  obtain ⟨_, hnat, h⟩ := Option.bind_eq_some_iff.mp h
  obtain ⟨_, hlast, -⟩ := Option.bind_eq_some_iff.mp h
  exact ⟨length_of_appendString hnodeId, length_of_appendString hbootId,
    length_of_appendString hstatus, length_of_appendString hregion, length_of_appendString hprobe,
    length_of_appendString hcontrol, length_of_appendString hnat, length_of_appendString hlast⟩

/-- The states of some packed nodes. -/
def statesOf (l : List PackedNode) : List ClusterNodeState := l.map fun n => n.1.1

theorem appendNodes_eq (l : List PackedNode) :
    appendNodes (statesOf l) = some (packedNodes.written l) := by
  induction l with
  | nil => rfl
  | cons n l ih =>
    show (do
      let first ← appendNode n.1.1
      let rest ← appendNodes (statesOf l)
      some (first ++ rest)) = _
    rw [ih, appendNode_eq]
    rfl

/-- What some nodes are packed to. -/
def packedBytes (l : List PackedNode) : List UInt8 :=
  1 :: bigEndian 2 l.length ++ packedNodes.written l

theorem encodeNodes_eq {l : List PackedNode} (h : l.length ≤ 0xFFFF) :
    encodeNodes (statesOf l) = some (packedBytes l) := by
  have hlen : (statesOf l).length = l.length := List.length_map _
  unfold encodeNodes
  rw [hlen, if_neg (not_lt.mpr h), appendNodes_eq]
  rfl

theorem exists_of_encodeNodes {nodes : List ClusterNodeState} {bytes : List UInt8}
    (hids : ∀ node ∈ nodes, node.nodeId ≠ []) (h : encodeNodes nodes = some bytes) :
    ∃ l : List PackedNode, nodes = statesOf l ∧ l.length ≤ 0xFFFF ∧ bytes = packedBytes l := by
  suffices hall : ∃ l : List PackedNode, nodes = statesOf l by
    obtain ⟨l, rfl⟩ := hall
    have hlen : (statesOf l).length = l.length := List.length_map _
    have hcount : l.length ≤ 0xFFFF := by
      unfold encodeNodes at h
      split at h
      · cases h
      · omega
    rw [encodeNodes_eq hcount] at h
    exact ⟨l, rfl, hcount, (Option.some_inj.mp h).symm⟩
  have hpacked : ∃ packed, appendNodes nodes = some packed := by
    unfold encodeNodes at h
    split at h
    · cases h
    · obtain ⟨packed, hpacked, -⟩ := Option.map_eq_some_iff.mp h
      exact ⟨packed, hpacked⟩
  clear h
  induction nodes with
  | nil => exact ⟨[], rfl⟩
  | cons node nodes ih =>
    obtain ⟨hid, hids⟩ := List.forall_mem_cons.mp hids
    obtain ⟨packed, hpacked⟩ := hpacked
    obtain ⟨first, hfirst, hpacked⟩ := Option.bind_eq_some_iff.mp hpacked
    obtain ⟨rest, hrest, -⟩ := Option.bind_eq_some_iff.mp hpacked
    obtain ⟨l, rfl⟩ := ih hids ⟨rest, hrest⟩
    exact ⟨⟨⟨node, short_of_appendNode hfirst⟩, hid⟩ :: l, rfl⟩

-- ==== unpacking

section Unpacking

variable {β γ : Type*} {data : Nat → UInt8} {len : Nat}

/-- A reader reads records, wherever it is in a memory: it finds one where there is one, makes of
it what `val` does, and is behind it then. -/
def ReadsRecord (data : Nat → UInt8) (len : Nat) (read : Nat → Option (β × Nat))
    (R : Records UInt8 γ) (val : γ → Option β) : Prop :=
  ∀ offset ≤ len,
    (R.next (readMem data offset (len - offset)) = none ∧ read offset = none)
      ∨ ∃ c behind, R.next (readMem data offset (len - offset))
          = some (c, readMem data behind (len - behind)) ∧ behind ≤ len
        ∧ read offset = (val c).map fun b => (b, behind)

theorem readString_reads : ReadsRecord data len (readString data len) texts
    fun text => some text.1 := by
  intro offset hle
  have hlength : (readMem data offset (len - offset)).length = len - offset := length_readMem _ _ _
  unfold readString readNumber
  by_cases htwo : len < offset + 2
  · left
    rw [if_pos htwo]
    exact ⟨if_pos (.inr (by omega)), rfl⟩
  · have hhead : (readMem data offset (len - offset)).take 2 = readMem data offset 2 :=
      Codec.take_readMem_le data offset (by omega)
    have hvalue : ofBigEndian ((readMem data offset (len - offset)).take 2)
        = ofBigEndian (readMem data offset 2) := congrArg ofBigEndian hhead
    rw [if_neg htwo]
    dsimp only [texts]
    by_cases hlong : len < offset + 2 + ofBigEndian (readMem data offset 2)
    · left
      rw [if_pos hlong, if_pos (.inl (by omega))]
      exact ⟨rfl, rfl⟩
    · right
      have htext := Codec.part_readMem data offset
        (show 2 + ofBigEndian (readMem data offset 2) ≤ len - offset by omega)
      have hbehind := Codec.drop_readMem_le data offset
        (show 2 + ofBigEndian (readMem data offset 2) ≤ len - offset by omega)
      rw [← Nat.add_assoc, Nat.sub_sub, ← Nat.add_assoc] at hbehind
      rw [if_neg hlong, if_neg (by omega)]
      refine ⟨⟨readMem data (offset + 2) (ofBigEndian (readMem data offset 2)), ?_⟩,
        offset + 2 + ofBigEndian (readMem data offset 2), ?_, by omega, rfl⟩
      · rw [length_readMem, ← hhead]
        exact ofBigEndian_two_le _
      · simp only [hvalue, htext, hbehind]

theorem reads_string {f : List UInt8 × Nat → Option (β × Nat)} {S : Records UInt8 γ}
    {val : ShortText × γ → Option β}
    (h : ∀ text : ShortText,
      ReadsRecord data len (fun offset => f (text.1, offset)) S fun c => val (text, c)) :
    ReadsRecord data len (fun offset => (readString data len offset).bind f) (texts.prod S)
      val := by
  intro offset hle
  rcases readString_reads offset hle with ⟨hnone, hread⟩ | ⟨text, behind, hnext, hbehind, hread⟩
  · left
    dsimp only [Records.prod]
    rw [hnone, hread]
    exact ⟨rfl, rfl⟩
  · dsimp only [Records.prod]
    rw [hnext, hread]
    rcases h text behind hbehind with ⟨hnone, hrest⟩ | ⟨c, last, hnext, hlast, hrest⟩
    · left
      refine ⟨?_, hrest⟩
      rw [Option.bind_some, hnone]
      rfl
    · right
      refine ⟨(text, c), last, ?_, hlast, hrest⟩
      rw [Option.bind_some, hnext]
      rfl

/-- The node of its parts, if it has an id. -/
def nodeOf (parts : NodeParts) : Option ClusterNodeState :=
  if (nodeEquiv parts).1.nodeId = [] then none else some (nodeEquiv parts).1

theorem readNode_parts : ReadsRecord data len (readNode data len) nodeParts nodeOf := by
  apply reads_string
  intro node_id
  apply reads_string
  intro boot_id
  apply reads_string
  intro status
  apply reads_string
  intro region
  apply reads_string
  intro probe_endpoint
  apply reads_string
  intro control_endpoint
  apply reads_string
  intro nat_type
  apply reads_string
  intro last_heartbeat offset hle
  have hlength : (readMem data offset (len - offset)).length = len - offset := length_readMem _ _ _
  dsimp only [numbers, Records.fixed]
  by_cases hshort : len < offset + 16
  · left
    rw [if_pos hshort, if_pos (by omega)]
    exact ⟨rfl, rfl⟩
  · right
    have hfirst := Codec.take_readMem_le data offset (show 16 ≤ len - offset by omega)
    have hbehind := Codec.drop_readMem_le data offset (show 16 ≤ len - offset by omega)
    rw [Nat.sub_sub] at hbehind
    rw [if_neg hshort, if_neg (by omega), hfirst, hbehind]
    refine ⟨numbersOf (readMem data offset 16), offset + 16, rfl, by omega, ?_⟩
    have hinterval := Codec.take_readMem_le data offset (show 4 ≤ 16 by decide)
    have hseen := Codec.part_readMem data offset (show 4 + 8 ≤ 16 by decide)
    have hload := Codec.part_readMem data offset (show 12 + 4 ≤ 16 by decide)
    unfold readNumber nodeOf numbersOf
    rw [hinterval, hseen, hload]
    show (if node_id.1 = [] then none else _) = (if node_id.1 = [] then none else _).map _
    split
    · rfl
    · rfl

/-- `ReadNode` reads a node of a snapshot. -/
theorem readNode_reads : ReadsRecord data len (readNode data len) packedNodes
    fun n => some n.1.1 := by
  intro offset hle
  rcases readNode_parts offset hle with ⟨hnone, hread⟩ | ⟨parts, behind, hnext, hbehind, hread⟩
  · left
    dsimp only [packedNodes, Records.sub, Records.congr]
    rw [hnone]
    exact ⟨rfl, hread⟩
  · dsimp only [packedNodes, Records.sub, Records.congr]
    rw [hnext, hread, Option.map_some, Option.bind_some]
    unfold nodeOf
    by_cases hid : (nodeEquiv parts).1.nodeId = []
    · left
      rw [if_pos hid]
      exact ⟨dif_neg (not_not.mpr hid), rfl⟩
    · right
      rw [if_neg hid]
      exact ⟨⟨nodeEquiv parts, hid⟩, behind, dif_pos hid, hbehind, rfl⟩

theorem readNodes_eq (count offset : Nat) (hle : offset ≤ len) :
    ((packedNodes.readUpTo count (readMem data offset (len - offset))).1.length ≠ count
        ∧ readNodes data len count offset = none)
      ∨ ∃ l behind, packedNodes.readUpTo count (readMem data offset (len - offset))
          = (l, readMem data behind (len - behind)) ∧ l.length = count ∧ behind ≤ len
        ∧ readNodes data len count offset = some (statesOf l, behind) := by
  induction count generalizing offset with
  | zero => exact .inr ⟨[], offset, rfl, rfl, hle, rfl⟩
  | succ count ih =>
    rw [Records.readUpTo]
    rcases readNode_reads offset hle with ⟨hnone, hread⟩ | ⟨n, next, hnext, hbelow, hread⟩
    · left
      rw [hnone]
      refine ⟨(Nat.succ_ne_zero count).symm, ?_⟩
      show (readNode data len offset).bind _ = none
      rw [hread]
      rfl
    · rw [hnext]
      have hstep : readNodes data len (count + 1) offset
          = (readNodes data len count next).map fun rest => (n.1.1 :: rest.1, rest.2) := by
        show (readNode data len offset).bind _ = _
        rw [hread]
        show (readNodes data len count next).bind _ = _
        cases readNodes data len count next with
        | none => rfl
        | some rest => rfl
      rcases ih next hbelow with ⟨hfew, hrest⟩ | ⟨l, behind, hmore, hcount, hbehind, hrest⟩
      · left
        refine ⟨fun hlength => hfew (Nat.succ.inj hlength), ?_⟩
        rw [hstep, hrest]
        rfl
      · right
        refine ⟨n :: l, behind, ?_, ?_, hbehind, ?_⟩
        · dsimp only
          rw [hmore]
        · rw [List.length_cons, hcount]
        · rw [hstep, hrest]
          rfl

theorem decode_iff {nodes : List ClusterNodeState} :
    decodeClusterSnapshotNodes data len = some nodes
      ↔ ∃ l : List PackedNode, nodes = statesOf l ∧ l.length ≤ 0xFFFF
        ∧ readMem data 0 len = packedBytes l := by
  have hlength : (readMem data 0 len).length = len := length_readMem _ _ _
  unfold decodeClusterSnapshotNodes
  by_cases hshort : len < 3
  · rw [if_pos hshort]
    refine iff_of_false (fun h => nomatch h) ?_
    rintro ⟨l, -, -, hbytes⟩
    have hlen := congrArg List.length hbytes
    simp only [packedBytes, List.cons_append, List.length_cons, List.length_append,
      length_bigEndian] at hlen
    omega
  rw [if_neg hshort]
  have hfront : readMem data 0 len
      = data 0 :: (readMem data 1 2 ++ readMem data 3 (len - 3)) := by
    have hsplit : len = 1 + (2 + (len - 3)) := by omega
    conv_lhs => rw [hsplit, readMem_add, readMem_add]
    rfl
  by_cases hone : data 0 ≠ 1
  · rw [if_pos hone]
    refine iff_of_false (fun h => nomatch h) ?_
    rintro ⟨l, -, -, hbytes⟩
    rw [hfront] at hbytes
    exact hone (List.cons.inj hbytes).1
  rw [if_neg hone]
  have hcount : readNumber data 1 2 ≤ 0xFFFF := by
    have hlt := ofBigEndian_lt (readMem data 1 2)
    rw [length_readMem] at hlt
    exact Nat.le_of_lt_succ hlt
  have hback : bigEndian 2 (readNumber data 1 2) = readMem data 1 2 := by
    have hsame := bigEndian_ofBigEndian (readMem data 1 2)
    rwa [length_readMem] at hsame
  constructor
  · intro h
    rcases readNodes_eq (readNumber data 1 2) 3 (not_lt.mp hshort) with
      ⟨-, hnone⟩ | ⟨l, behind, hread, hl, hbehind, hnodes⟩
    · rw [hnone] at h
      cases h
    · rw [hnodes] at h
      dsimp only at h
      split at h
      · cases h
      · rename_i hend
        rw [not_not] at hend
        cases h
        refine ⟨l, rfl, by omega, ?_⟩
        have hall := packedNodes.written_readUpTo (readNumber data 1 2) (readMem data 3 (len - 3))
        rw [hread, hend, Nat.sub_self] at hall
        have hwritten : packedNodes.written l = readMem data 3 (len - 3) := by
          rw [← hall]
          exact (List.append_nil _).symm
        rw [hfront, packedBytes, hwritten, hl, hback, not_not.mp hone]
        rfl
  · rintro ⟨l, rfl, hl, hbytes⟩
    rw [hfront, packedBytes, List.cons_append] at hbytes
    obtain ⟨hnumber, hwritten⟩ := List.append_inj (List.cons.inj hbytes).2
      (by rw [length_readMem, length_bigEndian])
    have hsame : readNumber data 1 2 = l.length := by
      unfold readNumber
      rw [hnumber, ofBigEndian_bigEndian]
      exact Nat.mod_eq_of_lt (Nat.lt_succ_of_le hl)
    have hread := packedNodes.readUpTo_written l []
    rw [List.append_nil, ← hwritten] at hread
    rcases readNodes_eq l.length 3 (not_lt.mp hshort) with
      ⟨hfew, -⟩ | ⟨l', behind, hread', hl', hbehind, hnodes⟩
    · rw [hread] at hfew
      exact absurd rfl hfew
    · rw [hread] at hread'
      obtain ⟨rfl, hrest⟩ := Prod.mk.inj hread'
      have hend : behind = len := by
        have hempty := congrArg List.length hrest
        rw [length_readMem, List.length_nil] at hempty
        omega
      rw [hsame, hnodes]
      dsimp only
      rw [if_neg (not_not.mpr hend)]

end Unpacking

end Eular.Ntrs
